import DurableWorkflow.Backend.Operations

/-!
# A backend with a clock

Timers and execution timeouts act after a while. Here a backend is paired with a clock that moves
only when told to, and with an agenda of the alarms that are set, in the order in which they are
due. Moving the clock lets every alarm go off that is due on the way. Names are drawn from one
source, each once; the backend itself would take them from any.

## Main definitions

* `Backend.generatedName`, `Backend.namesFrom` — the source of names.
* `ClockedBackend` — a backend, the time, the agenda and how far the source is used.
* `ClockedBackend.schedule` — set alarms.
* `ClockedBackend.startWorkflow`, `ClockedBackend.completeTask` — operations that set alarms.
* `ClockedBackend.advanceTo` — move the clock.
* `ClockedBackend.waitFor` — move the clock until a workflow has closed.
-/

namespace DurableWorkflow

/-- The `n`-th name of the source used here, in the shape of a universally unique identifier. -/
def Backend.generatedName (n : Nat) : String :=
  let digits := Nat.toDigits 16 n
  "d0c1fe5e-0000-4000-8000-" ++ String.ofList (List.replicate (12 - digits.length) '0' ++ digits)

/-- The names of the source from its `n`-th on. -/
def Backend.namesFrom (n : Nat) : Nat → String :=
  fun i => generatedName (n + i)

/-- A backend with a clock. -/
structure ClockedBackend where
  /-- The backend. -/
  backend : Backend
  /-- The time in milliseconds. -/
  now : Nat
  /-- The alarms that are set, by the time at which they are due; of those due at one time the one
  set first comes first. -/
  agenda : List (Nat × Alarm)
  /-- How many names were drawn. -/
  drawn : Nat
  deriving DecidableEq, Inhabited

namespace ClockedBackend

/-- A backend without instances at time zero. -/
def empty : ClockedBackend :=
  ⟨.empty, 0, [], 0⟩

/-- Put an alarm in its place in an agenda. -/
def insertAlarm (due : Nat) (alarm : Alarm) : List (Nat × Alarm) → List (Nat × Alarm)
  | [] => [(due, alarm)]
  | (other, set) :: agenda =>
    if due < other then (due, alarm) :: (other, set) :: agenda
    else (other, set) :: insertAlarm due alarm agenda

/-- Set alarms from now on. -/
def schedule (c : ClockedBackend) (alarms : List Alarm) : ClockedBackend :=
  { c with
    agenda := alarms.foldl (fun agenda alarm => insertAlarm (c.now + alarm.delay) alarm agenda)
      c.agenda }

/-- The place of the next name in the source. A random name is none that is taken, so what somebody
has taken is passed over. -/
def nextDraw (c : ClockedBackend) : Nat :=
  let places := (List.range (c.backend.instances.length + 1)).map (c.drawn + ·)
  (places.find? fun n => !c.backend.contains (Backend.generatedName n)).getD c.drawn

/-- Start a workflow and set the alarm for its timeout. -/
def startWorkflow (c : ClockedBackend) (request : StartRequest) :
    Except BackendError (StartedWorkflow × ClockedBackend) :=
  let first := c.nextDraw
  match c.backend.startWorkflow (Backend.namesFrom first) request with
  | .ok (started, backend, alarms) =>
    .ok (started, { c with backend, drawn := first + 2 }.schedule alarms)
  | .error e => .error e

/-- Complete a task and set the alarms of its commands. -/
def completeTask (c : ClockedBackend) (token : String) (delta : List Event)
    (commands : List Command) : Except BackendError ClockedBackend :=
  match c.backend.completeTask (Backend.namesFrom c.drawn) token delta commands with
  | .ok (backend, alarms) =>
    .ok ({ c with backend, drawn := c.drawn + commands.length }.schedule alarms)
  | .error e => .error e

/-- Put another state of the backend in place of the present one. -/
def withBackend (c : ClockedBackend) (backend : Backend) : ClockedBackend :=
  { c with backend }

/-- Let the alarms of an agenda go off that are due by some time, one by one and each at its own
time, until the backend has what is waited for. If it never has, the clock ends at that time. -/
def ringAlarms (reached : Backend → Bool) (time : Nat) :
    List (Nat × Alarm) → ClockedBackend → ClockedBackend
  | [], c => { c with now := if reached c.backend then c.now else max c.now time, agenda := [] }
  | (due, alarm) :: agenda, c =>
    if reached c.backend then { c with agenda := (due, alarm) :: agenda }
    else if due ≤ time then
      ringAlarms reached time agenda
        { c with backend := c.backend.ring alarm, now := max c.now due }
    else { c with now := max c.now time, agenda := (due, alarm) :: agenda }

/-- Move the clock, at most to a time, until the backend has what is waited for. -/
def ringUntil (reached : Backend → Bool) (time : Nat) (c : ClockedBackend) : ClockedBackend :=
  ringAlarms reached time c.agenda c

/-- Move the clock to a time, letting the alarms go off that are due by then. -/
def advanceTo (c : ClockedBackend) (time : Nat) : ClockedBackend :=
  c.ringUntil (fun _ => false) time

/-- Let the alarms go off that are due now. -/
def settle (c : ClockedBackend) : ClockedBackend :=
  c.advanceTo c.now

/-- Whether a workflow has closed. -/
def hasClosed (workflowId : String) (b : Backend) : Bool :=
  match b.describe workflowId with
  | some status => status.isTerminal
  | none => false

/-- Move the clock until a workflow has closed, at most to a deadline. -/
def waitFor (c : ClockedBackend) (workflowId : String) (deadline : Nat) : ClockedBackend :=
  c.ringUntil (hasClosed workflowId) deadline

end ClockedBackend

end DurableWorkflow
