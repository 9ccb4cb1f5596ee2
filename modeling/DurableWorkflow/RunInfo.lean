import DurableWorkflow.Json.Reader
import DurableWorkflow.Json.Tagged
import DurableWorkflow.Text.Quoted

/-!
# The identity of a run

What distinguishes one execution of a workflow: what it executes, under which names it is known,
where its tasks are queued and which workflow started it.
-/

namespace DurableWorkflow

/-- The identity of one workflow execution. -/
structure RunInfo where
  /-- The interface that the implementation is registered under. -/
  workflowType : String
  /-- The method the execution was started through. -/
  method : String
  /-- The name that is unique among all workflows of a backend. -/
  workflowId : String
  /-- The name of this run. -/
  runId : String
  /-- The queue that workers take its tasks from. -/
  taskQueue : String
  /-- The workflow that started it as a child, if any. -/
  parentWorkflowId : Option String
  deriving DecidableEq, Inhabited

namespace RunInfo

/-- An identity in inspected form. -/
def inspect (info : RunInfo) : String :=
  Text.record "WorkflowInfo"
    [("workflow_type", Text.quote info.workflowType), ("method", Text.quote info.method),
      ("workflow_id", Text.quote info.workflowId), ("run_id", Text.quote info.runId),
      ("task_queue", Text.quote info.taskQueue),
      ("parent_workflow_id", Text.optional Text.quote info.parentWorkflowId)]

/-- An identity as it is stored. -/
def toJson (info : RunInfo) : Json :=
  .object
    [("workflow_type", .string info.workflowType), ("method", .string info.method),
      ("workflow_id", .string info.workflowId), ("run_id", .string info.runId),
      ("task_queue", .string info.taskQueue),
      ("parent_workflow_id", .ofOption .string info.parentWorkflowId)]

/-- Read a stored identity, from an object or from the list of its fields. -/
def ofJson? (document : Json) : Option RunInfo := do
  let fields ← document.fields? true
    ["workflow_type", "method", "workflow_id", "run_id", "task_queue", "parent_workflow_id"]
  return {
    workflowType := ← Json.textField? fields "workflow_type"
    method := ← Json.textField? fields "method"
    workflowId := ← Json.textField? fields "workflow_id"
    runId := ← Json.textField? fields "run_id"
    taskQueue := ← Json.textField? fields "task_queue"
    parentWorkflowId := ← Json.optionalField? Json.string? fields "parent_workflow_id" }

/-- Read an identity from its JSON text. -/
def ofText? (text : String) : Option RunInfo :=
  Json.readLenient text >>= ofJson?

end RunInfo

end DurableWorkflow
