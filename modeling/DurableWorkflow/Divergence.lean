import DurableWorkflow.Child
import DurableWorkflow.History.Codec

/-!
# Divergence from history

How an execution can fail to match the history it is given: a record without its command, a command
without its record, or an input that does not fit. The message quotes the events and commands
involved.

## Main definitions

* `Divergence` — the ways to diverge, with their wording in `Divergence.message`.
* `Nondeterminism` — a divergence with the execution and the event at which it was found.
-/

namespace DurableWorkflow

/-- How an event fails to match an execution. -/
inductive Divergence where
  /-- A record came and no command was waiting for one. -/
  | unmatchedRecord (record : Event)
  /-- A record came and the oldest unrecorded command is another one. -/
  | differentRecord (record : Event) (issued : Command)
  /-- An input came before the record of a command. -/
  | missingRecord (issued : Command) (next : Event)
  /-- The history ended before the record of a command. -/
  | neverRecorded (issued : Command)
  /-- An input came before the execution started. -/
  | beforeStart (event : Event)
  /-- A timer fired that is not running. -/
  | unknownTimer (seq : Nat)
  /-- An event of a child does not fit. -/
  | lifecycle (error : LifecycleError)
  /-- An input came that has no place there. -/
  | unexpected (event : Event)
  deriving DecidableEq, Inhabited

/-- The wording of a divergence. -/
def Divergence.message : Divergence → String
  | .unmatchedRecord record =>
    "history records " ++ record.inspect ++ " but the workflow issued no matching command"
  | .differentRecord record issued =>
    "history records " ++ record.inspect ++ " but the workflow issued " ++ issued.inspect
  | .missingRecord issued next =>
    "command " ++ issued.inspect ++ " was issued but history continues with " ++ next.kindName
  | .neverRecorded issued =>
    "history ended but command " ++ issued.inspect ++ " was never recorded"
  | .beforeStart event => event.kindName ++ " before WorkflowExecutionStarted"
  | .unknownTimer seq => "TimerFired for unknown timer seq " ++ toString seq
  | .lifecycle error => error.message
  | .unexpected event => "unexpected " ++ event.kindName

/-- A divergence, where it was found. -/
structure Nondeterminism where
  /-- The workflow. -/
  workflowId : String
  /-- The index of the event, counted from zero. -/
  eventIndex : Nat
  /-- What diverged. -/
  divergence : Divergence
  deriving DecidableEq, Inhabited

namespace Nondeterminism

/-- The wording of the divergence alone. -/
def message (error : Nondeterminism) : String :=
  error.divergence.message

/-- The wording with its place. -/
def describe (error : Nondeterminism) : String :=
  "nondeterministic replay of " ++ error.workflowId ++ " at event " ++ toString error.eventIndex
    ++ ": " ++ error.message

/-- The failure that the workflow is closed with. -/
def toFailure (error : Nondeterminism) : Failure :=
  .nondeterminism error.message

end Nondeterminism

end DurableWorkflow
