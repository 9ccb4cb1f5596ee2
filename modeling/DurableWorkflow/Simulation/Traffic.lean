import DurableWorkflow.Backend.Clock
import DurableWorkflow.Settlement

/-!
# Traffic between workers and a backend

The calls that workers make, as an observer between them and the backend sees them. The observer
writes every call down, and it can disturb calls: it refuses them, or it lets them pass and keeps
the answer to itself.

## Main definitions

* `Disturbance`, `Disturbances` — what is planned for the calls to come.
* `Call` — a call that was made.
* `Traffic` — a backend with its clock, an observer, and what the observer wrote down.
* `Traffic.dispatch`, `Traffic.ask` — the two ways in which a worker calls.
-/

namespace DurableWorkflow

/-- What the observer does to a call. -/
inductive Disturbance where
  /-- It lets the call and its answer pass. -/
  | none
  /-- It refuses the call. -/
  | refuse (retryable : Bool)
  /-- It lets the call pass; if that succeeds it is reported as refused, and may be retried. -/
  | loseAnswer
  deriving DecidableEq, Inhabited

/-- The operations that can be disturbed. -/
inductive WorkerOperation where
  /-- A task is taken. -/
  | dispatch
  /-- A result is handed in. -/
  | complete
  /-- A workflow is failed. -/
  | fail
  /-- A task is given back. -/
  | abandon
  deriving DecidableEq, Inhabited

/-- The name under which an operation is refused. -/
def WorkerOperation.name : WorkerOperation → String
  | .dispatch => "dispatch_task"
  | .complete => "complete_task"
  | .fail => "fail_task"
  | .abandon => "abandon_task"

/-- The operation of a request. -/
def Settlement.Request.operation : Settlement.Request → WorkerOperation
  | .complete _ _ _ => .complete
  | .fail _ _ => .fail
  | .abandon _ => .abandon

/-- The disturbances planned for each operation, one for each call to come; later calls are not
disturbed. -/
structure Disturbances where
  /-- Those for taking tasks. -/
  dispatch : List Disturbance
  /-- Those for handing in results. -/
  complete : List Disturbance
  /-- Those for failing workflows. -/
  fail : List Disturbance
  /-- Those for giving tasks back. -/
  abandon : List Disturbance
  deriving DecidableEq, Inhabited

namespace Disturbances

/-- Nothing is disturbed. -/
def calm : Disturbances :=
  ⟨[], [], [], []⟩

/-- The disturbance for the next call of an operation, and what is planned after it. -/
def next (plan : Disturbances) : WorkerOperation → Disturbance × Disturbances
  | .dispatch => (plan.dispatch.headD .none, { plan with dispatch := plan.dispatch.tail })
  | .complete => (plan.complete.headD .none, { plan with complete := plan.complete.tail })
  | .fail => (plan.fail.headD .none, { plan with fail := plan.fail.tail })
  | .abandon => (plan.abandon.headD .none, { plan with abandon := plan.abandon.tail })

end Disturbances

/-- A call of a worker, with its answer. -/
inductive Call where
  /-- A task was taken from a queue. -/
  | dispatched (taskQueue : String) (task : Task)
  /-- Taking a task from a queue was refused. -/
  | dispatchRefused (taskQueue : String) (error : BackendError)
  /-- A request about a task was answered. -/
  | settled (request : Settlement.Request) (answer : Except BackendError Unit)

/-- A backend, the observer in front of it, and the calls it has written down. -/
structure Traffic where
  /-- The backend with its clock. -/
  clock : ClockedBackend
  /-- What is planned for the calls to come. -/
  plan : Disturbances
  /-- The calls with their times, earliest first. -/
  calls : List (Nat × Call)

namespace Traffic

/-- The time. -/
def now (t : Traffic) : Nat :=
  t.clock.now

/-- Write a call down. -/
def note (t : Traffic) (call : Call) : Traffic :=
  { t with calls := t.calls ++ [(t.now, call)] }

/-- The refusal of an operation by the observer. -/
def refusal (operation : WorkerOperation) (retryable : Bool) : BackendError :=
  ⟨operation.name, .injected, retryable⟩

/-- Take a task from a queue. A call that finds the queue empty is disturbed like any other, but is
not written down. -/
def dispatch (t : Traffic) (taskQueue : String) : Except BackendError (Option Task) × Traffic :=
  let (disturbance, plan) := t.plan.next .dispatch
  let t := { t with plan }
  match disturbance with
  | .refuse retryable =>
    let error := refusal .dispatch retryable
    (.error error, t.note (.dispatchRefused taskQueue error))
  | _ =>
    let (task, backend) := t.clock.backend.dispatch taskQueue
    let t := { t with clock := t.clock.withBackend backend }
    match task with
    | some task => (.ok (some task), t.note (.dispatched taskQueue task))
    | none => (.ok none, t)

/-- What the backend makes of a request. -/
def serve (c : ClockedBackend) : Settlement.Request → Except BackendError ClockedBackend
  | .complete token delta commands => c.completeTask token delta commands
  | .fail token error => (c.backend.failTask token error).map c.withBackend
  | .abandon token => (c.backend.abandonTask token).map c.withBackend

/-- Make a request about a task. -/
def ask (t : Traffic) (request : Settlement.Request) : Except BackendError Unit × Traffic :=
  let (disturbance, plan) := t.plan.next request.operation
  let t := { t with plan }
  let (answer, clock) : Except BackendError Unit × ClockedBackend := match disturbance with
    | .refuse retryable => (.error (refusal request.operation retryable), t.clock)
    | .none =>
      match serve t.clock request with
      | .ok clock => (.ok (), clock)
      | .error e => (.error e, t.clock)
    | .loseAnswer =>
      match serve t.clock request with
      | .ok clock => (.error (refusal request.operation true), clock)
      | .error e => (.error e, t.clock)
  (answer, { t with clock }.note (.settled request answer))

/-- Carry a settlement out up to its end or to its next wait, which is given with the rest. -/
def carryOut : Settlement → Traffic → Option (Nat × Settlement) × Traffic
  | .finished _, t => (none, t)
  | .ask request next, t =>
    let (answer, t) := t.ask request
    carryOut (next answer) t
  | .wait ms next, t => (some (ms, next), t)

end Traffic

end DurableWorkflow
