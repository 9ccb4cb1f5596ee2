import DurableWorkflow.Duration
import DurableWorkflow.History.Command
import DurableWorkflow.RunInfo

/-!
# The backend's state

A backend keeps the history of every workflow instance and hands out tasks. An open instance is
leased to a worker, or queued because events wait for it, or idle. Events that arrive are pending
until they are handed out with a task; then they are in flight until the task is settled.

Names that nobody chose are random. They are not part of the state: an operation that may need some
is given the names that it draws, `names i` being the one drawn for its `i`-th purpose, and nothing
is assumed of them.

## Main definitions

* `Status`, `Instance`, `Backend` — the state.
* `Backend.deliver` — an event arrives at an instance.
* `Backend.close` — an instance closes and its parent hears of it.
* `Backend.apply` — the effect of a command; what needs a clock is handed back as an `Alarm`.
-/

namespace DurableWorkflow

/-- Whether an instance is open, and how it closed if it is not. -/
inductive Status where
  /-- It is open. -/
  | running
  /-- It returned a value. -/
  | completed (result : String)
  /-- It failed. -/
  | failed (error : Failure)
  /-- It was cancelled. -/
  | cancelled (reason : String)
  /-- It ran out of time. -/
  | timedOut
  deriving DecidableEq, Inhabited

/-- Whether an instance has closed. -/
def Status.isTerminal : Status → Bool
  | .running => false
  | _ => true

/-- What the parent of a child with a sequence number hears when the child closes. -/
def Status.report? (seq : Nat) : Status → Option Event
  | .running => none
  | .completed result => some (.childCompleted seq result)
  | .failed error => some (.childFailed seq error)
  | .cancelled reason => some (.childCancelled seq reason)
  | .timedOut => some (.childTimedOut seq)

/-- Where a child belongs. -/
structure ParentLink where
  /-- The parent. -/
  workflowId : String
  /-- The sequence number of the child within its parent. -/
  seq : Nat
  deriving DecidableEq, Inhabited

/-- A workflow instance as the backend keeps it. -/
structure Instance where
  /-- Its identity. -/
  info : RunInfo
  /-- Where it belongs, if it is a child. -/
  parent : Option ParentLink
  /-- Its recorded history. -/
  history : List Event
  /-- The events that were not handed out yet. -/
  pending : List Event
  /-- The events that were handed out with the outstanding task. -/
  inFlight : List Event
  /-- Whether it waits in its queue. -/
  queued : Bool
  /-- The token of the outstanding task, if there is one. -/
  lease : Option String
  /-- Whether it is open. -/
  status : Status
  deriving DecidableEq, Inhabited

/-- Whether an instance is open. -/
def Instance.isOpen (inst : Instance) : Bool :=
  !inst.status.isTerminal

/-- The state of a backend. -/
structure Backend where
  /-- The instances, in the order of their creation. -/
  instances : List Instance
  /-- The instances that wait to be handed out, each with its queue, next first. Entries of
  instances that have closed meanwhile stay until they come up. -/
  ready : List (String × String)
  /-- The tokens of outstanding tasks with their instances. -/
  leases : List (String × String)
  /-- How many tokens were used. -/
  tokens : Nat
  deriving DecidableEq, Inhabited

/-- Something that happens to an instance after a while. -/
inductive Alarm where
  /-- A timer of a workflow fires. -/
  | timer (workflowId : String) (seq : Nat) (afterMs : Nat)
  /-- A workflow runs out of time. -/
  | timeout (workflowId : String) (afterMs : Nat)
  deriving DecidableEq, Inhabited

/-- After how many milliseconds an alarm is due. -/
def Alarm.delay : Alarm → Nat
  | .timer _ _ afterMs => afterMs
  | .timeout _ afterMs => afterMs

namespace Backend

/-- A backend without instances. -/
def empty : Backend :=
  ⟨[], [], [], 0⟩

/-- The instance with a name. -/
def get? (b : Backend) (workflowId : String) : Option Instance :=
  b.instances.find? fun inst => inst.info.workflowId = workflowId

/-- Whether a name is taken. -/
def contains (b : Backend) (workflowId : String) : Bool :=
  (b.get? workflowId).isSome

/-- Change the instance with a name. -/
def modify (b : Backend) (workflowId : String) (f : Instance → Instance) : Backend :=
  { b with
    instances := b.instances.map fun inst =>
      if inst.info.workflowId = workflowId then f inst else inst }

/-- The names of all instances ever started, in ascending order. -/
def workflowIds (b : Backend) : List String :=
  (b.instances.map fun inst => inst.info.workflowId).mergeSort fun x y => x ≤ y

/-- The token of the `n`-th task. -/
def tokenName (n : Nat) : String :=
  "task:" ++ toString n

/-! ### Events and queues -/

/-- Queue an instance if it is open, has events that wait, and is neither queued nor leased. -/
def enqueue (b : Backend) (workflowId : String) : Backend :=
  match b.get? workflowId with
  | none => b
  | some inst =>
    if inst.queued || inst.lease.isSome || inst.pending.isEmpty || !inst.isOpen then b
    else
      let b := b.modify workflowId fun inst => { inst with queued := true }
      { b with ready := b.ready ++ [(inst.info.taskQueue, workflowId)] }

/-- An event arrives at an instance. It is dropped if the instance has closed or is not known. -/
def deliver (b : Backend) (workflowId : String) (event : Event) : Backend :=
  match b.get? workflowId with
  | none => b
  | some inst =>
    if inst.isOpen then
      (b.modify workflowId fun inst => { inst with pending := inst.pending ++ [event] }).enqueue
        workflowId
    else b

/-- Add an instance whose start is its first event. -/
def create (b : Backend) (info : RunInfo) (parent : Option ParentLink) (input : String) :
    Backend :=
  let started : Event :=
    .executionStarted info.workflowType info.method input info.parentWorkflowId
  let inst : Instance :=
    { info, parent, history := [], pending := [started], inFlight := [], queued := false,
      lease := none, status := .running }
  { b with instances := b.instances ++ [inst] }.enqueue info.workflowId

/-- Close an instance with a status: what waited for it is dropped, and its parent hears of it. -/
def close (b : Backend) (workflowId : String) (status : Status) : Backend :=
  match b.get? workflowId with
  | none => b
  | some inst =>
    let b := b.modify workflowId fun inst => { inst with pending := [], queued := false, status }
    match inst.parent with
    | none => b
    | some parent =>
      match status.report? parent.seq with
      | some event => b.deliver parent.workflowId event
      | none => b

/-- An open instance runs out of time. -/
def timeOut (b : Backend) (workflowId : String) : Backend :=
  match b.get? workflowId with
  | none => b
  | some inst =>
    if inst.isOpen then
      (b.modify workflowId fun inst => { inst with history := inst.history ++ [.timedOut] }).close
        workflowId .timedOut
    else b

/-- An alarm goes off. -/
def ring (b : Backend) : Alarm → Backend
  | .timer workflowId seq _ => b.deliver workflowId (.timerFired seq)
  | .timeout workflowId _ => b.timeOut workflowId

/-! ### Commands -/

/-- Start a child for an instance. If the name is taken the start fails and nothing else happens;
otherwise the child is created with a run of the drawn name, which is reported. -/
def startChild (b : Backend) (runId workflowId : String) (start : ChildStart) :
    Backend × List Alarm :=
  if b.contains start.workflowId then
    let cause : Failure := .application ("workflow id " ++ start.workflowId ++ " already exists")
    (b.deliver workflowId (.childStartFailed start.seq cause), [])
  else
    let info : RunInfo :=
      { workflowType := start.workflowType, method := start.method, workflowId := start.workflowId,
        runId, taskQueue := start.taskQueue, parentWorkflowId := some workflowId }
    let b := b.create info (some ⟨workflowId, start.seq⟩) start.input
    (b.deliver workflowId (.childStarted start.seq runId),
      (start.timeoutMs.map (Alarm.timeout start.workflowId)).toList)

/-- Ask a child of an instance to cancel. The name has to be that of its own child with the
sequence number; any other request is dropped. -/
def cancelChild (b : Backend) (workflowId : String) (seq : Nat) (childId : String) : Backend :=
  if (b.get? childId >>= Instance.parent) = some ⟨workflowId, seq⟩ then
    b.deliver childId (.cancelRequested ("parent " ++ workflowId ++ " cancelled"))
  else b

/-- Carry out a command of an instance, with a name for the run of a child. -/
def apply (b : Backend) (runId workflowId : String) : Command → Backend × List Alarm
  | .startChild start => b.startChild runId workflowId start
  | .cancelChild seq childId => (b.cancelChild workflowId seq childId, [])
  | .startTimer seq delayMs => (b, [.timer workflowId seq delayMs])
  | .complete result => (b.close workflowId (.completed result), [])
  | .fail error => (b.close workflowId (.failed error), [])
  | .cancel reason => (b.close workflowId (.cancelled reason), [])

/-- Carry out commands in order, collecting their alarms. Each command has a name to use. -/
def applyAll (b : Backend) (names : Nat → String) (workflowId : String) :
    List Command → Backend × List Alarm
  | [] => (b, [])
  | command :: commands =>
    let (b, alarms) := b.apply (names 0) workflowId command
    let (b, more) := applyAll b (fun i => names (i + 1)) workflowId commands
    (b, alarms ++ more)

end Backend

end DurableWorkflow
