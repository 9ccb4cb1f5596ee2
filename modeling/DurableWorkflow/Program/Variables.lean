import DurableWorkflow.Json.Reader
import DurableWorkflow.Program.Statement

/-!
# Variables and templates

The variables of a running program, and the texts in which they appear. In a template a variable
stands in braces; a failure can also be shown as its stored form or as its root cause. Braces
around anything else are left as they are, and what was filled in is not looked at again.

## Main definitions

* `Value`, `Variables` — what variables hold.
* `Variables.expand` — a template with its variables filled in.
* `Variables.evaluate` — the document of the arguments of a call.
-/

namespace DurableWorkflow

/-- What a variable holds. -/
inductive Value where
  /-- A text. -/
  | text (s : String)
  /-- A failure. -/
  | failure (f : Failure)
  /-- A future. -/
  | future (ref : FutureRef)
  deriving DecidableEq, Inhabited

/-- The variables of a program by name. -/
abbrev Variables : Type :=
  List (String × Value)

namespace Variables

/-- Let a variable hold a value from now on. -/
def assign (vars : Variables) (name : String) (value : Value) : Variables :=
  (name, value) :: vars.filter fun entry => entry.1 ≠ name

/-- The future that a variable holds. -/
def future? (vars : Variables) (name : String) : Option FutureRef :=
  match vars.lookup name with
  | some (.future ref) => some ref
  | _ => none

/-- The failure that a variable holds. -/
def failure? (vars : Variables) (name : String) : Option Failure :=
  match vars.lookup name with
  | some (.failure f) => some f
  | _ => none

/-- What stands for the inside of a pair of braces, which is the name of a variable and, after the
first colon, how to show it: plainly, or a failure as its stored form or as its root cause. -/
def resolve? (vars : Variables) (inside : String) : Option String :=
  let name := inside.toList.takeWhile (· ≠ ':')
  let manner := inside.toList.drop (name.length + 1)
  match vars.lookup (String.ofList name), String.ofList manner with
  | some (.text s), "" => some s
  | some (.failure f), "" => some f.message
  | some (.failure f), "json" => some f.toJson.text
  | some (.failure f), "root" => some f.rootCause.message
  | _, _ => none

/-- The inside of a pair of braces whose opening one has been read, and the text behind the closing
one. Without a closing brace nothing is inside. -/
def splitBrace (cs : List Char) : List Char × List Char :=
  let inside := cs.takeWhile (· ≠ '\x7d')
  match cs.drop inside.length with
  | [] => ([], cs)
  | _ :: rest => (inside, rest)

/-- Fill in the variables of a template, from left to right. A brace that opens no variable stands
for itself. -/
def expandFrom (vars : Variables) : Nat → List Char → List Char
  | 0, cs => cs
  | _, [] => []
  | steps + 1, '\x7b' :: cs =>
    let (inside, rest) := splitBrace cs
    match resolve? vars (String.ofList inside) with
    | some s => s.toList ++ expandFrom vars steps rest
    | none => '\x7b' :: expandFrom vars steps cs
  | steps + 1, c :: cs => c :: expandFrom vars steps cs

/-- A template with its variables filled in. -/
def expand (vars : Variables) (template : Template) : String :=
  String.ofList (expandFrom vars template.length template.toList)

/-- A text as a document: the document it denotes, or itself as a string. -/
def documentOf (text : String) : Json :=
  match Json.read text with
  | .ok document => document
  | .error _ => .string text

/-- The document of the arguments of a call. -/
def evaluate (vars : Variables) : Arguments → Json
  | .document value => value
  | .rendered template => documentOf (vars.expand template)

end Variables

end DurableWorkflow
