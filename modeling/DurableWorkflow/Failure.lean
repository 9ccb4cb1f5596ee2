import DurableWorkflow.Json.Tagged
import DurableWorkflow.Text.Quoted

/-!
# Failures

Why a workflow did not return a value. A failure of a child travels to its parent inside a
`childFailure`, so the failures of a deep tree form a chain whose end is the root cause.

## Main definitions

* `Failure` — the causes.
* `Failure.message` — the wording shown to people.
* `Failure.rootCause` — the end of a chain of child failures.
* `Failure.inspect`, `Failure.toJson`, `Failure.ofJson?` — the exact form and the stored form.
-/

namespace DurableWorkflow

/-- The reason why a workflow, or an operation inside one, failed. -/
inductive Failure where
  /-- Workflow code failed for a reason of its own. -/
  | application (message : String)
  /-- A child failed, for the given cause. -/
  | childFailure (workflowType workflowId : String) (cause : Failure)
  /-- A child ran out of time. -/
  | childTimeout (workflowType workflowId : String)
  /-- A child was cancelled. -/
  | childCancelled (workflowType workflowId reason : String)
  /-- The workflow itself was cancelled. -/
  | cancelled (reason : String)
  /-- A payload could not be encoded or decoded. -/
  | dataConversion (message : String)
  /-- An interface does not declare the method. -/
  | unknownMethod (interface method : String)
  /-- No worker on the queue implements the workflow type. -/
  | unregistered (workflowType taskQueue : String)
  /-- Replay diverged from the recorded history. -/
  | nondeterminism (message : String)
  /-- A method reference did not come from a stub, so it cannot be started. -/
  | ineligibleReference (method reason : String)
  deriving DecidableEq, Inhabited

namespace Failure

/-- The wording of a failure. The wording of a child's failure includes that of its cause. -/
def message : Failure → String
  | .application m => "application failure: " ++ m
  | .childFailure t w cause => "child workflow " ++ t ++ " (" ++ w ++ ") failed: " ++ cause.message
  | .childTimeout t w => "child workflow " ++ t ++ " (" ++ w ++ ") timed out"
  | .childCancelled t w r => "child workflow " ++ t ++ " (" ++ w ++ ") cancelled: " ++ r
  | .cancelled r => "workflow cancelled: " ++ r
  | .dataConversion m => "data conversion failed: " ++ m
  | .unknownMethod i m => "interface " ++ i ++ " has no workflow method " ++ m
  | .unregistered t q => "unregistered workflow type " ++ t ++ " on task queue " ++ q
  | .nondeterminism m => "nondeterministic: " ++ m
  | .ineligibleReference m r =>
    "method reference " ++ m ++ " is not eligible for async invocation: " ++ r

/-- The innermost cause of a chain of child failures. -/
def rootCause : Failure → Failure
  | .childFailure _ _ cause => cause.rootCause
  | failure => failure

/-- How many child failures a chain has. -/
def chainLength : Failure → Nat
  | .childFailure _ _ cause => cause.chainLength + 1
  | _ => 0

/-- A failure in inspected form. -/
def inspect : Failure → String
  | .application m => Text.record "Application" [("message", Text.quote m)]
  | .childFailure t w cause =>
    Text.record "ChildWorkflowFailure"
      [("workflow_type", Text.quote t), ("workflow_id", Text.quote w), ("cause", cause.inspect)]
  | .childTimeout t w =>
    Text.record "ChildWorkflowTimeout"
      [("workflow_type", Text.quote t), ("workflow_id", Text.quote w)]
  | .childCancelled t w r =>
    Text.record "ChildWorkflowCancelled"
      [("workflow_type", Text.quote t), ("workflow_id", Text.quote w), ("reason", Text.quote r)]
  | .cancelled r => Text.record "Cancelled" [("reason", Text.quote r)]
  | .dataConversion m => Text.record "DataConversion" [("message", Text.quote m)]
  | .unknownMethod i m =>
    Text.record "UnknownMethod" [("interface", Text.quote i), ("method", Text.quote m)]
  | .unregistered t q =>
    Text.record "UnregisteredWorkflow"
      [("workflow_type", Text.quote t), ("task_queue", Text.quote q)]
  | .nondeterminism m => Text.record "Nondeterminism" [("message", Text.quote m)]
  | .ineligibleReference m r =>
    Text.wrapped "IneligibleReference" <|
      Text.record "IneligibleReferenceError" [("method", Text.quote m), ("reason", Text.quote r)]

/-- A failure as it is stored. -/
def toJson : Failure → Json
  | .application m => .tagged "Application" [("message", .string m)]
  | .childFailure t w cause =>
    .tagged "ChildWorkflowFailure"
      [("workflow_type", .string t), ("workflow_id", .string w), ("cause", cause.toJson)]
  | .childTimeout t w =>
    .tagged "ChildWorkflowTimeout" [("workflow_type", .string t), ("workflow_id", .string w)]
  | .childCancelled t w r =>
    .tagged "ChildWorkflowCancelled"
      [("workflow_type", .string t), ("workflow_id", .string w), ("reason", .string r)]
  | .cancelled r => .tagged "Cancelled" [("reason", .string r)]
  | .dataConversion m => .tagged "DataConversion" [("message", .string m)]
  | .unknownMethod i m =>
    .tagged "UnknownMethod" [("interface", .string i), ("method", .string m)]
  | .unregistered t q =>
    .tagged "UnregisteredWorkflow" [("workflow_type", .string t), ("task_queue", .string q)]
  | .nondeterminism m => .tagged "Nondeterminism" [("message", .string m)]
  | .ineligibleReference m r =>
    .tagged "IneligibleReference" [("method", .string m), ("reason", .string r)]

/-- Read a stored failure whose chain of causes is shorter than `limit`. Fields may be positional
where `positional` says so, and always for an ineligible reference. -/
def ofJsonWithin? (positional : Bool) : Nat → Json → Option Failure
  | 0, _ => none
  | limit + 1, document => do
    let (name, content) ← document.untag?
    let content ← content
    match name with
    | "Application" =>
      let fields ← content.fields? positional ["message"]
      return .application (← Json.textField? fields "message")
    | "ChildWorkflowFailure" =>
      let fields ← content.fields? positional ["workflow_type", "workflow_id", "cause"]
      return .childFailure (← Json.textField? fields "workflow_type")
        (← Json.textField? fields "workflow_id")
        (← fields "cause" >>= ofJsonWithin? positional limit)
    | "ChildWorkflowTimeout" =>
      let fields ← content.fields? positional ["workflow_type", "workflow_id"]
      return .childTimeout (← Json.textField? fields "workflow_type")
        (← Json.textField? fields "workflow_id")
    | "ChildWorkflowCancelled" =>
      let fields ← content.fields? positional ["workflow_type", "workflow_id", "reason"]
      return .childCancelled (← Json.textField? fields "workflow_type")
        (← Json.textField? fields "workflow_id") (← Json.textField? fields "reason")
    | "Cancelled" =>
      let fields ← content.fields? positional ["reason"]
      return .cancelled (← Json.textField? fields "reason")
    | "DataConversion" =>
      let fields ← content.fields? positional ["message"]
      return .dataConversion (← Json.textField? fields "message")
    | "UnknownMethod" =>
      let fields ← content.fields? positional ["interface", "method"]
      return .unknownMethod (← Json.textField? fields "interface")
        (← Json.textField? fields "method")
    | "UnregisteredWorkflow" =>
      let fields ← content.fields? positional ["workflow_type", "task_queue"]
      return .unregistered (← Json.textField? fields "workflow_type")
        (← Json.textField? fields "task_queue")
    | "Nondeterminism" =>
      let fields ← content.fields? positional ["message"]
      return .nondeterminism (← Json.textField? fields "message")
    | "IneligibleReference" =>
      let fields ← content.fields? true ["method", "reason"]
      return .ineligibleReference (← Json.textField? fields "method")
        (← Json.textField? fields "reason")
    | _ => none

/-- Read a stored failure. Every cause is nested more deeply than the failure it explains, so the
depth of the document bounds the chain. -/
def ofJson? (positional : Bool) (document : Json) : Option Failure :=
  ofJsonWithin? positional (document.depth + 1) document

end Failure

end DurableWorkflow
