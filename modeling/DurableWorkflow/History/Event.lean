import DurableWorkflow.Failure

/-!
# Events

The entries of a workflow's history. Input events tell workflow code what happened around it;
records are the backend's copy of a command that workflow code issued, kept so that a later
execution of the same code can be held against them.

## Main definitions

* `ChildStart` — everything a backend needs to start a child.
* `Event` — the entries.
* `Event.isRecord` — whether an entry is the copy of a command.
-/

namespace DurableWorkflow

/-- The order to start a child workflow, with every choice already made. -/
structure ChildStart where
  /-- The sequence number that later events about the child carry. -/
  seq : Nat
  /-- The interface of the child. -/
  workflowType : String
  /-- The method to start it through. -/
  method : String
  /-- The name it will be known under. -/
  workflowId : String
  /-- The queue for its tasks. -/
  taskQueue : String
  /-- The encoded arguments. -/
  input : String
  /-- After how many milliseconds the backend gives it up, if ever. -/
  timeoutMs : Option Nat
  /-- Whether it survives the cancellation of its parent. -/
  detached : Bool
  deriving DecidableEq, Inhabited

/-- An entry of a workflow's history. -/
inductive Event where
  /-- The execution starts; the first entry of every history. -/
  | executionStarted (workflowType method input : String) (parentWorkflowId : Option String)
  /-- Record of the command to start a child. -/
  | childInitiated (start : ChildStart)
  /-- The backend started a child. -/
  | childStarted (seq : Nat) (runId : String)
  /-- The backend refused to start a child. -/
  | childStartFailed (seq : Nat) (cause : Failure)
  /-- A child returned a value. -/
  | childCompleted (seq : Nat) (result : String)
  /-- A child failed. -/
  | childFailed (seq : Nat) (cause : Failure)
  /-- A child was cancelled. -/
  | childCancelled (seq : Nat) (reason : String)
  /-- A child ran out of time. -/
  | childTimedOut (seq : Nat)
  /-- Record of the command to cancel a child. -/
  | childCancelRequested (seq : Nat) (workflowId : String)
  /-- Record of the command to start a timer. -/
  | timerStarted (seq : Nat) (delayMs : Nat)
  /-- A timer ran out. -/
  | timerFired (seq : Nat)
  /-- Somebody asked to cancel this workflow. -/
  | cancelRequested (reason : String)
  /-- Record of the command to complete. -/
  | completed (result : String)
  /-- Record of the command to fail, or the backend's note that a task failed. -/
  | failed (error : Failure)
  /-- Record of the command to close as cancelled. -/
  | cancelled (reason : String)
  /-- The backend's note that the execution ran out of time. -/
  | timedOut
  deriving DecidableEq, Inhabited

namespace Event

/-- Whether an entry is the copy of a command, as opposed to an input. -/
def isRecord : Event → Bool
  | .childInitiated _ | .childCancelRequested _ _ | .timerStarted _ _ | .completed _ | .failed _
  | .cancelled _ => true
  | _ => false

/-- The name of an entry's kind. -/
def kindName : Event → String
  | .executionStarted _ _ _ _ => "WorkflowExecutionStarted"
  | .childInitiated _ => "ChildWorkflowInitiated"
  | .childStarted _ _ => "ChildWorkflowStarted"
  | .childStartFailed _ _ => "ChildWorkflowStartFailed"
  | .childCompleted _ _ => "ChildWorkflowCompleted"
  | .childFailed _ _ => "ChildWorkflowFailed"
  | .childCancelled _ _ => "ChildWorkflowCancelled"
  | .childTimedOut _ => "ChildWorkflowTimedOut"
  | .childCancelRequested _ _ => "ChildCancelRequested"
  | .timerStarted _ _ => "TimerStarted"
  | .timerFired _ => "TimerFired"
  | .cancelRequested _ => "WorkflowCancelRequested"
  | .completed _ => "WorkflowCompleted"
  | .failed _ => "WorkflowFailed"
  | .cancelled _ => "WorkflowCancelled"
  | .timedOut => "WorkflowTimedOut"

end Event

end DurableWorkflow
