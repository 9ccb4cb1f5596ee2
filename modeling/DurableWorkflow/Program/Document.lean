import DurableWorkflow.Program.Statement

/-!
# Programs as documents

Workflow programs written in JSON: a statement is an object whose member `do` says what it does and
whose other members give the details, most of them with a default. Reading is generous; a member
that is missing or of the wrong kind counts as its default.

## Main definitions

* `Duration.ofJson`, `Interface.ofJson`, `ChildOptions.ofJson`, `PayloadType.ofName` — the parts.
* `Statement.ofJson`, `Program.ofJson` — statements and programs.
-/

namespace DurableWorkflow

namespace Json

/-- The text of a member, or a default. -/
def textOr (document : Json) (key default : String) : String :=
  (document.get? key >>= string?).getD default

/-- The text of a member, if it has one. -/
def textAt? (document : Json) (key : String) : Option String :=
  document.get? key >>= string?

/-- The number of a member, or zero. -/
def natAt (document : Json) (key : String) : Nat :=
  (document.get? key >>= nat?).getD 0

/-- Whether a member is true. -/
def flagAt (document : Json) (key : String) : Bool :=
  (document.get? key >>= bool?).getD false

/-- The entries of a member, or none. -/
def listAt (document : Json) (key : String) : List Json :=
  (document.get? key >>= array?).getD []

/-- The texts among the entries of a member. -/
def textsAt (document : Json) (key : String) : List String :=
  (document.listAt key).filterMap string?

end Json

/-- A duration as a number of milliseconds, or as seconds and nanoseconds. -/
def Duration.ofJson (document : Json) : Duration :=
  match document.nat? with
  | some ms => .ofMillis ms
  | none => .ofSeconds (document.natAt "secs") (document.natAt "nanos")

/-- An interface by its name and methods, by default of a type `Child` with a method `execute`. -/
def Interface.ofJson (document : Json) : Interface :=
  .ofDeclarations (document.textOr "name" "Child")
    (if (document.get? "methods").isSome then document.textsAt "methods" else ["execute"])

/-- The options of a child. -/
def ChildOptions.ofJson (document : Json) : ChildOptions where
  workflowId := document.textAt? "workflow_id"
  taskQueue := document.textAt? "task_queue"
  timeout := (document.present? "timeout").map Duration.ofJson
  detached := document.flagAt "detached"

/-- A stub: an interface and options in one object. -/
def Stub.ofJson (document : Json) : Stub where
  interface := .ofJson document
  options := .ofJson document

/-- A payload type by its name; a name of no type stands for any document. -/
def PayloadType.ofName : String → PayloadType
  | "unit" => .unit
  | "bool" => .bool
  | "u8" => .u8
  | "u32" => .u32
  | "u64" => .u64
  | "i64" => .i64
  | "f64" => .f64
  | "string" => .string
  | "opt_u32" => .optionU32
  | "vec_u32" => .listU32
  | "pair" => .pair
  | "params" => .params
  | "order" => .order
  | "shape" => .shape
  | _ => .any

/-- The arguments of a call: a template if there is one, else a document. -/
def Arguments.ofJson (document : Json) : Arguments :=
  match document.textAt? "args_json" with
  | some template => .rendered template
  | none => .document ((document.get? "args").getD .null)

/-- A question. -/
def Condition.ofJson (document : Json) : Condition :=
  match document.textOr "is" "" with
  | "cancel_requested" => .cancelRequested
  | "replaying" => .replaying
  | "ready" => .ready (document.textOr "fut" "")
  | "error" => .failed (document.textOr "var" "")
  | _ => .equal (document.textOr "a" "") (document.textOr "b" "")

/-- A level by its name. -/
def LogLevel.ofName : String → LogLevel
  | "debug" => .debug
  | "warn" => .warn
  | "error" => .error
  | _ => .info

/-- What a panic carries. -/
def PanicPayload.ofJson (document : Json) : PanicPayload :=
  match document.textOr "payload" "string" with
  | "static" => .fixed "static payload"
  | "other" => .other
  | _ => .text (document.textOr "text" "")

/-- The action of a statement by the name of what it does. -/
def Action.ofJson (name : String) (document : Json) : Action :=
  let stub := Stub.ofJson ((document.get? "stub").getD .null)
  let method := document.textOr "method" "execute"
  let args := Arguments.ofJson document
  let future := document.textOr "fut" ""
  let type := (document.textAt? "type").map PayloadType.ofName
  let delay := Duration.ofJson ((document.get? "delay").getD .null)
  let text := document.textOr "text" ""
  match name with
  | "start" => .start stub method args (document.flagAt "plain")
  | "call" => .call stub method args (type.getD .any)
  | "call_start" => .callStart stub method args
  | "await" => .await future type
  | "all" => .all (document.textsAt "futs")
  | "any" => .any (document.textsAt "futs") (document.textAt? "which")
  | "timer" => .timer delay
  | "sleep" => .sleep delay
  | "abandon" => .abandon future
  | "inspect" => .inspect future
  | "observe" => .observe
  | "log" => .log (.ofName (document.textOr "level" "info")) text
  | "encode" => .encode args
  | "decode" => .decode (document.textOr "payload" "") (type.getD .any)
  | "set" => .set text
  | "yield" => .pause
  | "forever" => .forever
  | "panic" => .panic (.ofJson document)
  | "fail" =>
    match document.get? "error" >>= Failure.ofJson? false with
    | some failure => .fail failure
    | none => .failWith text
  | "rethrow" => .rethrow (document.textOr "var" "")
  | "return" => .finish (document.textOr "value" "")
  | _ => .trace text

namespace Statement

/-- A statement whose nested statements are nested less deeply than `limit`. -/
def ofJsonWithin : Nat → Json → Statement
  | 0, _ => default
  | limit + 1, document =>
    let nested (key : String) : List Statement := (document.listAt key).map (ofJsonWithin limit)
    let store := document.textAt? "as"
    match document.textOr "do" "" with
    | "spawn" => .spawn (nested "steps") store
    | "if" =>
      .branch (.ofJson ((document.get? "cond").getD .null)) (nested "then") (nested "else")
    | "repeat" => .loop (document.natAt "times") (nested "steps")
    | name => .perform (.ofJson name document) ⟨store, document.textAt? "catch"⟩

/-- A statement. Nested statements are nested in the document too. -/
def ofJson (document : Json) : Statement :=
  ofJsonWithin (document.depth + 1) document

end Statement

/-- A program: its statements and, for a typed one, the type of its input. -/
def Program.ofJson (document : Json) : Program where
  input := (document.textAt? "in").map PayloadType.ofName
  steps := (document.listAt "steps").map Statement.ofJson

end DurableWorkflow
