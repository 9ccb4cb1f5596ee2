import DurableWorkflow.Backend.Clock
import DurableWorkflow.Interface
import DurableWorkflow.Payload.Converter

/-!
# Clients

A client starts top-level workflows and reads their results. It does so through stubs, each bound to
one execution of an interface, which can be started once.

## Main definitions

* `ClientError` — why a client does not get what it asked for.
* `ClientStub.start` — start the execution of a stub.
* `Status.resultAs` — the result of a workflow that has closed.
-/

namespace DurableWorkflow

/-- Why a client does not get what it asked for. -/
inductive ClientError where
  /-- The backend refused. -/
  | backend (error : BackendError)
  /-- A payload could not be written or read. -/
  | conversion (error : ConversionError)
  /-- The workflow closed as failed or cancelled. -/
  | workflow (workflowId : String) (error : Failure)
  /-- The workflow ran out of time. -/
  | timedOut (workflowId : String)
  /-- The interface does not declare the method. -/
  | unknownMethod (interface method : String)
  /-- The stub was not started. -/
  | notStarted
  /-- The stub was started before. -/
  | alreadyStarted (workflowId : String)
  deriving DecidableEq, Inhabited

namespace ClientError

/-- The name of an error's kind. -/
def kindName : ClientError → String
  | .backend _ => "Backend"
  | .conversion _ => "DataConversion"
  | .workflow _ _ => "Workflow"
  | .timedOut _ => "TimedOut"
  | .unknownMethod _ _ => "UnknownMethod"
  | .notStarted => "NotStarted"
  | .alreadyStarted _ => "AlreadyStarted"

/-- The wording of an error. -/
def message : ClientError → String
  | .backend e => e.message
  | .conversion e => e.message
  | .workflow id e => "workflow " ++ id ++ " did not complete: " ++ e.message
  | .timedOut id => "workflow " ++ id ++ " timed out"
  | .unknownMethod i m => "interface " ++ i ++ " has no workflow method " ++ m
  | .notStarted => "stub has not started a workflow"
  | .alreadyStarted id => "stub already started workflow " ++ id

end ClientError

/-- The choices for a top-level workflow. -/
structure WorkflowOptions where
  /-- The queue for its tasks. -/
  taskQueue : String
  /-- Its name; generated if absent. -/
  workflowId : Option String
  /-- How long it may run, if there is a limit. -/
  timeout : Option Duration
  deriving DecidableEq, Inhabited

/-- A proxy for one top-level execution. -/
structure ClientStub where
  /-- The interface of the workflow. -/
  interface : Interface
  /-- The choices for it. -/
  options : WorkflowOptions
  /-- The execution, once it was started. -/
  execution : Option StartedWorkflow
  deriving DecidableEq, Inhabited

namespace ClientStub

/-- A stub that was not started. -/
def new (interface : Interface) (options : WorkflowOptions) : ClientStub :=
  ⟨interface, options, none⟩

/-- The order that a stub gives to the backend. A stub that was started before is refused first,
then a method that is not declared, then arguments that have no payload. -/
def request (stub : ClientStub) (converter : Converter) (method : String) (args : Json) :
    Except ClientError StartRequest :=
  match stub.execution with
  | some started => .error (.alreadyStarted started.workflowId)
  | none =>
    if stub.interface.declares method then
      match converter.encode args with
      | .error e => .error (.conversion e)
      | .ok input => .ok
        { workflowType := stub.interface.name, method, workflowId := stub.options.workflowId,
          taskQueue := stub.options.taskQueue, input, timeout := stub.options.timeout }
    else .error (.unknownMethod stub.interface.name method)

/-- Start the execution of a stub through a method. -/
def start (stub : ClientStub) (converter : Converter) (method : String) (args : Json)
    (c : ClockedBackend) : Except ClientError (StartedWorkflow × ClientStub × ClockedBackend) :=
  match stub.request converter method args with
  | .error e => .error e
  | .ok request =>
    match c.startWorkflow request with
    | .error e => .error (.backend e)
    | .ok (started, c) => .ok (started, { stub with execution := some started }, c)

end ClientStub

/-- The result of a workflow that has closed, read at a payload type. -/
def Status.resultAs (status : Status) (workflowId : String) (converter : Converter)
    (type : PayloadType) : Except ClientError Json :=
  match status with
  | .completed payload => (converter.decode type payload).mapError .conversion
  | .failed error => .error (.workflow workflowId error)
  | .cancelled reason => .error (.workflow workflowId (.cancelled reason))
  | .timedOut => .error (.timedOut workflowId)
  | .running =>
    .error (.backend (.permanent "wait_for_completion" (.openAfterCompletion workflowId)))

end DurableWorkflow
