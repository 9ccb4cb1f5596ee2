import DurableWorkflow.Backend.Basic

/-!
# Operations of the backend

What clients and workers can ask of a backend. A client starts, cancels and looks at workflows. A
worker takes a task from a queue and settles it in one of three ways: it completes it with a piece
of history and commands, it fails the workflow, or it gives the task back. An operation that is
refused changes nothing.

## Main definitions

* `BackendError` — a refusal.
* `Backend.startWorkflow`, `Backend.cancelWorkflow`, `Backend.describe`, `Backend.history`.
* `Backend.dispatch`, `Backend.completeTask`, `Backend.failTask`, `Backend.abandonTask`.
-/

namespace DurableWorkflow

/-- Why an operation is refused. -/
inductive BackendFault where
  /-- The name for a workflow is taken. -/
  | workflowExists (workflowId : String)
  /-- No workflow has the name. -/
  | unknownWorkflow (workflowId : String)
  /-- No outstanding task has the token. -/
  | unknownToken (token : String)
  /-- The refusal was arranged. -/
  | injected
  /-- A workflow was said to have closed and is open. -/
  | openAfterCompletion (workflowId : String)
  deriving DecidableEq, Inhabited

/-- The wording of a fault. -/
def BackendFault.message : BackendFault → String
  | .workflowExists id => "workflow id " ++ id ++ " already exists"
  | .unknownWorkflow id => "unknown workflow " ++ id
  | .unknownToken token => "unknown task token " ++ token
  | .injected => "injected"
  | .openAfterCompletion id => "workflow " ++ id ++ " reported running after completion"

/-- An operation was refused. -/
structure BackendError where
  /-- The operation. -/
  operation : String
  /-- Why it was refused. -/
  fault : BackendFault
  /-- Whether trying again may help. -/
  retryable : Bool
  deriving DecidableEq, Inhabited

namespace BackendError

/-- A refusal for good. -/
def permanent (operation : String) (fault : BackendFault) : BackendError :=
  ⟨operation, fault, false⟩

/-- The wording of a refusal. -/
def message (error : BackendError) : String :=
  error.operation ++ ": " ++ error.fault.message

end BackendError

/-- The order to start a workflow from outside. -/
structure StartRequest where
  /-- The interface of the workflow. -/
  workflowType : String
  /-- The method to start it through. -/
  method : String
  /-- Its name; generated if absent. -/
  workflowId : Option String
  /-- The queue for its tasks. -/
  taskQueue : String
  /-- The encoded arguments. -/
  input : String
  /-- How long it may run, if there is a limit. -/
  timeout : Option Duration
  deriving DecidableEq, Inhabited

/-- The names of a started workflow. -/
structure StartedWorkflow where
  /-- The workflow. -/
  workflowId : String
  /-- The run. -/
  runId : String
  deriving DecidableEq, Inhabited

/-- A piece of work handed to a worker. -/
structure Task where
  /-- What the worker settles it by. -/
  token : String
  /-- Whose work it is. -/
  info : RunInfo
  /-- The history recorded so far. -/
  history : List Event
  /-- The events that are new. -/
  newEvents : List Event
  deriving DecidableEq, Inhabited

namespace Backend

/-! ### Clients -/

/-- Start a workflow, under the first name drawn if none is given, with a run of the second. It is
timed out at the first whole millisecond at which its limit has passed. -/
def startWorkflow (b : Backend) (names : Nat → String) (request : StartRequest) :
    Except BackendError (StartedWorkflow × Backend × List Alarm) :=
  let workflowId := request.workflowId.getD (names 0)
  if b.contains workflowId then
    .error (.permanent "start_workflow" (.workflowExists workflowId))
  else
    let runId := names 1
    let info : RunInfo :=
      { workflowType := request.workflowType, method := request.method, workflowId, runId,
        taskQueue := request.taskQueue, parentWorkflowId := none }
    let b := b.create info none request.input
    .ok (⟨workflowId, runId⟩, b,
      (request.timeout.map fun d => .timeout workflowId d.millisUp).toList)

/-- Ask a workflow to cancel. A closed one is left alone. -/
def cancelWorkflow (b : Backend) (workflowId reason : String) : Except BackendError Backend :=
  if b.contains workflowId then .ok (b.deliver workflowId (.cancelRequested reason))
  else .error (.permanent "cancel_workflow" (.unknownWorkflow workflowId))

/-- The status of a workflow, if it is known. -/
def describe (b : Backend) (workflowId : String) : Option Status :=
  (b.get? workflowId).map Instance.status

/-- The recorded history of a workflow. -/
def history (b : Backend) (workflowId : String) : Except BackendError (List Event) :=
  match b.get? workflowId with
  | some inst => .ok inst.history
  | none => .error (.permanent "history" (.unknownWorkflow workflowId))

/-- The status that waiting for a workflow starts from. -/
def awaitedStatus (b : Backend) (workflowId : String) : Except BackendError Status :=
  match b.get? workflowId with
  | some inst => .ok inst.status
  | none => .error (.permanent "wait_for_completion" (.unknownWorkflow workflowId))

/-! ### Workers -/

/-- Remove the first entry of a queue. -/
def popReady (b : Backend) (taskQueue : String) : Option (String × Backend) :=
  match b.ready.find? fun entry => entry.1 = taskQueue with
  | some entry => some (entry.2, { b with ready := b.ready.erase entry })
  | none => none

/-- Hand out the next task of a queue, looking at so many entries at most. An entry whose instance
has closed, or is no longer queued, is passed over; it uses up a token all the same. -/
def dispatchWithin : Nat → Backend → String → Option Task × Backend
  | 0, b, _ => (none, b)
  | entries + 1, b, taskQueue =>
    match b.popReady taskQueue with
    | none => (none, b)
    | some (workflowId, b) =>
      let token := tokenName (b.tokens + 1)
      let b := { b with tokens := b.tokens + 1 }
      match b.get? workflowId with
      | none => dispatchWithin entries b taskQueue
      | some inst =>
        if !inst.queued || !inst.isOpen then
          dispatchWithin entries (b.modify workflowId fun inst => { inst with queued := false })
            taskQueue
        else
          let b := b.modify workflowId fun inst =>
            { inst with
              queued := false, lease := some token, inFlight := inst.pending, pending := [] }
          (some ⟨token, inst.info, inst.history, inst.pending⟩,
            { b with leases := b.leases ++ [(token, workflowId)] })

/-- Hand out the next task of a queue. Every entry is looked at once at most, so their number
suffices. -/
def dispatch (b : Backend) (taskQueue : String) : Option Task × Backend :=
  dispatchWithin b.ready.length b taskQueue

/-- End the lease of a token. -/
def release (b : Backend) (operation token : String) : Except BackendError (String × Backend) :=
  match b.leases.lookup token with
  | none => .error (.permanent operation (.unknownToken token))
  | some workflowId =>
    let b := { b with leases := b.leases.filter fun lease => lease.1 ≠ token }
    .ok (workflowId, b.modify workflowId fun inst => { inst with lease := none })

/-- Settle a task with a piece of history and commands, carried out in order; the `i`-th command has
the `i`-th name drawn to use. For a workflow that has closed meanwhile both are discarded. -/
def completeTask (b : Backend) (names : Nat → String) (token : String) (delta : List Event)
    (commands : List Command) : Except BackendError (Backend × List Alarm) :=
  match b.release "complete_task" token with
  | .error e => .error e
  | .ok (workflowId, b) =>
    match b.get? workflowId with
    | none => .error (.permanent "complete_task" (.unknownWorkflow workflowId))
    | some inst =>
      let b := b.modify workflowId fun inst => { inst with inFlight := [] }
      if inst.isOpen then
        let b := b.modify workflowId fun inst => { inst with history := inst.history ++ delta }
        let (b, alarms) := b.applyAll names workflowId commands
        .ok (b.enqueue workflowId, alarms)
      else .ok (b, [])

/-- Settle a task by failing its workflow, unless that has closed meanwhile. -/
def failTask (b : Backend) (token : String) (error : Failure) : Except BackendError Backend :=
  match b.release "fail_task" token with
  | .error e => .error e
  | .ok (workflowId, b) =>
    match b.get? workflowId with
    | none => .ok b
    | some inst =>
      let b := b.modify workflowId fun inst => { inst with inFlight := [] }
      if inst.isOpen then
        let b := b.modify workflowId fun inst =>
          { inst with history := inst.history ++ [.failed error] }
        .ok (b.close workflowId (.failed error))
      else .ok b

/-- Give a task back. Its events wait again, in front of those that came meanwhile. -/
def abandonTask (b : Backend) (token : String) : Except BackendError Backend :=
  match b.release "abandon_task" token with
  | .error e => .error e
  | .ok (workflowId, b) =>
    let b := b.modify workflowId fun inst =>
      { inst with inFlight := [], pending := inst.inFlight ++ inst.pending }
    .ok (b.enqueue workflowId)

end Backend

end DurableWorkflow
