import DurableWorkflow.Backend.Operations
import DurableWorkflow.Execution

/-!
# Recording live events

A live execution does not only answer events with commands; it also makes history. Every event is
recorded, followed by the records of the commands that its step issued. A task is worked on by
replaying its history and then recording its new events.

## Main definitions

* `Recording` — a piece of new history with the commands in it.
* `Execution.record` — feed events to an execution and record them.
* `Task.perform` — replay and record.
-/

namespace DurableWorkflow

/-- A piece of new history. -/
structure Recording where
  /-- The events, each followed by the records of the commands it led to. -/
  delta : List Event
  /-- Those commands. -/
  commands : List Command
  deriving DecidableEq, Inhabited

namespace Recording

/-- A recording of nothing. -/
def empty : Recording :=
  ⟨[], []⟩

/-- The recording of one event. -/
def ofStep (event : Event) (commands : List Command) : Recording :=
  ⟨event :: commands.map Command.record, commands⟩

/-- One recording after another. -/
def append (first second : Recording) : Recording :=
  ⟨first.delta ++ second.delta, first.commands ++ second.commands⟩

end Recording

/-- Feed events to an execution and record them, up to the first divergence. -/
def Execution.record (x : Execution) : List Event → Except Nondeterminism Recording × Execution
  | [] => (.ok .empty, x)
  | event :: events =>
    match x.step event with
    | (.error e, x) => (.error e, x)
    | (.ok outcome, x) =>
      match Execution.record x events with
      | (.ok rest, x) => (.ok ((Recording.ofStep event outcome.commands).append rest), x)
      | (.error e, x) => (.error e, x)

/-- Replay the history of a task and record its new events. The execution is given back even if it
diverges, as far as it got. -/
def Task.perform (task : Task) (program : Program) (converter : Converter) :
    Except Nondeterminism Recording × Execution :=
  match Execution.replayTraced task.info program converter task.history with
  | (some e, x) => (.error e, x)
  | (none, x) => x.record task.newEvents

end DurableWorkflow
