import DurableWorkflow.History.Event

/-!
# Commands

What workflow code asks of the backend. Every command has a record, the event that the backend
keeps of it; a command issued again during replay has to be the one its record was made of.

## Main definitions

* `Command` — the orders.
* `Command.record` — the event that records a command.
* `Command.matchesRecord` — whether an event is the record of a command.
-/

namespace DurableWorkflow

/-- An order of workflow code to the backend. -/
inductive Command where
  /-- Start a child workflow. -/
  | startChild (start : ChildStart)
  /-- Ask a child to cancel. -/
  | cancelChild (seq : Nat) (workflowId : String)
  /-- Start a timer. -/
  | startTimer (seq : Nat) (delayMs : Nat)
  /-- Close as completed. -/
  | complete (result : String)
  /-- Close as failed. -/
  | fail (error : Failure)
  /-- Close as cancelled. -/
  | cancel (reason : String)
  deriving DecidableEq, Inhabited

namespace Command

/-- The event that records a command; it carries every field of it. -/
def record : Command → Event
  | .startChild start => .childInitiated start
  | .cancelChild seq workflowId => .childCancelRequested seq workflowId
  | .startTimer seq delayMs => .timerStarted seq delayMs
  | .complete result => .completed result
  | .fail error => .failed error
  | .cancel reason => .cancelled reason

/-- Whether an event is the record of a command. -/
def matchesRecord (command : Command) (event : Event) : Bool :=
  command.record == event

/-- The name of a command's kind. -/
def kindName : Command → String
  | .startChild _ => "StartChildWorkflow"
  | .cancelChild _ _ => "RequestCancelChild"
  | .startTimer _ _ => "StartTimer"
  | .complete _ => "CompleteWorkflow"
  | .fail _ => "FailWorkflow"
  | .cancel _ => "CancelWorkflow"

/-- Whether a command closes the workflow. -/
def isTerminal : Command → Bool
  | .complete _ | .fail _ | .cancel _ => true
  | _ => false

end Command

end DurableWorkflow
