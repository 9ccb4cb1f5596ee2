import DurableWorkflow.History.Command
import DurableWorkflow.Json.Reader

/-!
# Stored and inspected histories

Events and commands as JSON and as inspected text. Both forms follow from one view, the kind of the
entry and its fields in order.

## Main definitions

* `Field` — the value of one field.
* `Event.fields`, `Command.fields` — the view.
* `Event.toJson`, `Event.ofJson?`, `Event.inspect`, and the same for commands.
-/

namespace DurableWorkflow

/-- The value of a field of an event or command. -/
inductive Field where
  /-- A text. -/
  | text (s : String)
  /-- A text that may be missing. -/
  | optionalText (s : Option String)
  /-- A number. -/
  | word (n : Nat)
  /-- A number that may be missing. -/
  | optionalWord (n : Option Nat)
  /-- A truth value. -/
  | flag (b : Bool)
  /-- A failure. -/
  | failure (f : Failure)
  deriving DecidableEq, Inhabited

namespace Field

/-- A field in inspected form. -/
def inspect : Field → String
  | .text s => Text.quote s
  | .optionalText s => Text.optional Text.quote s
  | .word n => toString n
  | .optionalWord n => Text.optional toString n
  | .flag b => Text.truth b
  | .failure f => f.inspect

/-- A field as it is stored. -/
def toJson : Field → Json
  | .text s => .string s
  | .optionalText s => .ofOption .string s
  | .word n => .nat n
  | .optionalWord n => .ofOption .nat n
  | .flag b => .bool b
  | .failure f => f.toJson

end Field

/-- The fields of an order to start a child. -/
def ChildStart.fields (start : ChildStart) : List (String × Field) :=
  [("seq", .word start.seq), ("workflow_type", .text start.workflowType),
    ("method", .text start.method), ("workflow_id", .text start.workflowId),
    ("task_queue", .text start.taskQueue), ("input", .text start.input),
    ("execution_timeout_ms", .optionalWord start.timeoutMs), ("detached", .flag start.detached)]

/-- Read an order to start a child from its fields. -/
def ChildStart.ofJson? (positional : Bool) (content : Json) : Option ChildStart := do
  let fields ← content.fields? positional
    ["seq", "workflow_type", "method", "workflow_id", "task_queue", "input",
      "execution_timeout_ms", "detached"]
  return {
    seq := ← Json.wordField? fields "seq"
    workflowType := ← Json.textField? fields "workflow_type"
    method := ← Json.textField? fields "method"
    workflowId := ← Json.textField? fields "workflow_id"
    taskQueue := ← Json.textField? fields "task_queue"
    input := ← Json.textField? fields "input"
    timeoutMs := ← Json.optionalField? Json.word? fields "execution_timeout_ms"
    detached := ← Json.flagField? fields "detached" }

namespace Event

/-- The fields of an event in order. -/
def fields : Event → List (String × Field)
  | .executionStarted workflowType method input parent =>
    [("workflow_type", .text workflowType), ("method", .text method), ("input", .text input),
      ("parent_workflow_id", .optionalText parent)]
  | .childInitiated start => start.fields
  | .childStarted seq runId => [("seq", .word seq), ("run_id", .text runId)]
  | .childStartFailed seq cause => [("seq", .word seq), ("cause", .failure cause)]
  | .childCompleted seq result => [("seq", .word seq), ("result", .text result)]
  | .childFailed seq cause => [("seq", .word seq), ("cause", .failure cause)]
  | .childCancelled seq reason => [("seq", .word seq), ("reason", .text reason)]
  | .childTimedOut seq => [("seq", .word seq)]
  | .childCancelRequested seq workflowId =>
    [("seq", .word seq), ("workflow_id", .text workflowId)]
  | .timerStarted seq delayMs => [("seq", .word seq), ("delay_ms", .word delayMs)]
  | .timerFired seq => [("seq", .word seq)]
  | .cancelRequested reason => [("reason", .text reason)]
  | .completed result => [("result", .text result)]
  | .failed error => [("error", .failure error)]
  | .cancelled reason => [("reason", .text reason)]
  | .timedOut => []

/-- An event in inspected form; one without fields is its name. -/
def inspect (event : Event) : String :=
  match event with
  | .timedOut => event.kindName
  | event =>
    Text.record event.kindName (event.fields.map fun (name, value) => (name, value.inspect))

/-- An event as it is stored. -/
def toJson (event : Event) : Json :=
  match event with
  | .timedOut => .string event.kindName
  | event => .tagged event.kindName (event.fields.map fun (name, value) => (name, value.toJson))

/-- Read a stored event. Fields may be positional where `positional` says so. -/
def ofJson? (positional : Bool) (document : Json) : Option Event := do
  let (name, content) ← document.untag?
  if name = "WorkflowTimedOut" then
    match content with
    | none | some .null => return .timedOut
    | some _ => none
  else
    let content ← content
    let open? := content.fields? positional
    match name with
    | "WorkflowExecutionStarted" =>
      let fields ← open? ["workflow_type", "method", "input", "parent_workflow_id"]
      return .executionStarted (← Json.textField? fields "workflow_type")
        (← Json.textField? fields "method") (← Json.textField? fields "input")
        (← Json.optionalField? Json.string? fields "parent_workflow_id")
    | "ChildWorkflowInitiated" => return .childInitiated (← ChildStart.ofJson? positional content)
    | "ChildWorkflowStarted" =>
      let fields ← open? ["seq", "run_id"]
      return .childStarted (← Json.wordField? fields "seq") (← Json.textField? fields "run_id")
    | "ChildWorkflowStartFailed" =>
      let fields ← open? ["seq", "cause"]
      return .childStartFailed (← Json.wordField? fields "seq")
        (← fields "cause" >>= Failure.ofJson? positional)
    | "ChildWorkflowCompleted" =>
      let fields ← open? ["seq", "result"]
      return .childCompleted (← Json.wordField? fields "seq") (← Json.textField? fields "result")
    | "ChildWorkflowFailed" =>
      let fields ← open? ["seq", "cause"]
      return .childFailed (← Json.wordField? fields "seq")
        (← fields "cause" >>= Failure.ofJson? positional)
    | "ChildWorkflowCancelled" =>
      let fields ← open? ["seq", "reason"]
      return .childCancelled (← Json.wordField? fields "seq") (← Json.textField? fields "reason")
    | "ChildWorkflowTimedOut" =>
      let fields ← open? ["seq"]
      return .childTimedOut (← Json.wordField? fields "seq")
    | "ChildCancelRequested" =>
      let fields ← open? ["seq", "workflow_id"]
      return .childCancelRequested (← Json.wordField? fields "seq")
        (← Json.textField? fields "workflow_id")
    | "TimerStarted" =>
      let fields ← open? ["seq", "delay_ms"]
      return .timerStarted (← Json.wordField? fields "seq") (← Json.wordField? fields "delay_ms")
    | "TimerFired" =>
      let fields ← open? ["seq"]
      return .timerFired (← Json.wordField? fields "seq")
    | "WorkflowCancelRequested" =>
      let fields ← open? ["reason"]
      return .cancelRequested (← Json.textField? fields "reason")
    | "WorkflowCompleted" =>
      let fields ← open? ["result"]
      return .completed (← Json.textField? fields "result")
    | "WorkflowFailed" =>
      let fields ← open? ["error"]
      return .failed (← fields "error" >>= Failure.ofJson? positional)
    | "WorkflowCancelled" =>
      let fields ← open? ["reason"]
      return .cancelled (← Json.textField? fields "reason")
    | _ => none

/-- Read an event from its JSON text. -/
def ofText? (text : String) : Option Event :=
  Json.readLenient text >>= ofJson? true

end Event

namespace Command

/-- The fields of a command in order. -/
def fields (command : Command) : List (String × Field) :=
  command.record.fields

/-- A command in inspected form. -/
def inspect (command : Command) : String :=
  Text.record command.kindName (command.fields.map fun (name, value) => (name, value.inspect))

/-- A command as it is stored. -/
def toJson (command : Command) : Json :=
  .tagged command.kindName (command.fields.map fun (name, value) => (name, value.toJson))

/-- Read a stored command. Fields may be positional where `positional` says so. -/
def ofJson? (positional : Bool) (document : Json) : Option Command := do
  let (name, content) ← document.untag?
  let content ← content
  let open? := content.fields? positional
  match name with
  | "StartChildWorkflow" => return .startChild (← ChildStart.ofJson? positional content)
  | "RequestCancelChild" =>
    let fields ← open? ["seq", "workflow_id"]
    return .cancelChild (← Json.wordField? fields "seq") (← Json.textField? fields "workflow_id")
  | "StartTimer" =>
    let fields ← open? ["seq", "delay_ms"]
    return .startTimer (← Json.wordField? fields "seq") (← Json.wordField? fields "delay_ms")
  | "CompleteWorkflow" =>
    let fields ← open? ["result"]
    return .complete (← Json.textField? fields "result")
  | "FailWorkflow" =>
    let fields ← open? ["error"]
    return .fail (← fields "error" >>= Failure.ofJson? positional)
  | "CancelWorkflow" =>
    let fields ← open? ["reason"]
    return .cancel (← Json.textField? fields "reason")
  | _ => none

/-- Read a command from its JSON text. -/
def ofText? (text : String) : Option Command :=
  Json.readLenient text >>= ofJson? true

end Command

/-- Read a failure from its JSON text. -/
def Failure.ofText? (text : String) : Option Failure :=
  Json.readLenient text >>= Failure.ofJson? true

end DurableWorkflow
