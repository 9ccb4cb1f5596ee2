import DurableWorkflow.Recording
import DurableWorkflow.Registry
import DurableWorkflow.Settlement

/-!
# Workers

A worker serves one task queue with the implementations registered for it. It takes a task, works
on it and settles it; when there is none it sleeps for a while.

## Main definitions

* `WorkerOptions`, `Worker` — a worker and its choices.
* `Worker.process` — what a worker does with a task.
-/

namespace DurableWorkflow

/-- The choices for a worker. -/
structure WorkerOptions where
  /-- How many milliseconds it sleeps when it gets no task. -/
  idleMs : Nat := 10
  /-- How often it tries again to complete a task. -/
  retries : Nat := 5
  deriving DecidableEq, Inhabited

/-- A worker. -/
structure Worker where
  /-- What it can run; the registry's queue is the one it serves. -/
  registry : Registry
  /-- The converter for payloads. -/
  converter : Converter
  /-- Its choices. -/
  options : WorkerOptions

namespace Worker

/-- The queue that a worker serves. -/
def taskQueue (worker : Worker) : String :=
  worker.registry.taskQueue

/-- Hand in a recording. -/
def submit (worker : Worker) (task : Task) (recording : Recording) : Settlement :=
  .acknowledge task.token recording.delta recording.commands worker.options.retries

/-- The recording for a task whose workflow has no implementation: the workflow fails. -/
def unregistered (worker : Worker) (task : Task) : Recording :=
  let failure : Command := .fail (.unregistered task.info.workflowType worker.taskQueue)
  ⟨task.newEvents ++ [failure.record], [failure]⟩

/-- Work on a task: how it is to be settled, and what the workflow code noted meanwhile. A workflow
without implementation fails, and so does one whose history diverges; all else is handed in. -/
def process (worker : Worker) (task : Task) : Settlement × List Note :=
  match worker.registry.resolve task.info.workflowType task.info.method with
  | none => (worker.submit task (worker.unregistered task), [])
  | some program =>
    match task.perform program worker.converter with
    | (.ok recording, x) => (worker.submit task recording, x.context.notes)
    | (.error e, x) => (.once (.fail task.token e.toFailure), x.context.notes)

end Worker

end DurableWorkflow
