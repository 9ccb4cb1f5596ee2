import DurableWorkflow.Json.Basic

/-!
# Structured data

Values as programs have them, before they become documents: integers of any size, byte strings,
mappings whose keys are not texts. Some of them have no document.

## Main definitions

* `Data` — structured values.
* `Data.toJson` — the document of a value, or why there is none.
-/

namespace DurableWorkflow

/-- A structured value. -/
inductive Data where
  /-- No value. -/
  | none
  /-- A truth value. -/
  | bool (b : Bool)
  /-- An integer of any size. -/
  | integer (n : Int)
  /-- A floating point number. -/
  | float (x : Binary64)
  /-- A text. -/
  | text (s : String)
  /-- A sequence. -/
  | list (items : List Data)
  /-- A mapping with keys of any kind. -/
  | mapping (entries : List (Data × Data))
  deriving Inhabited

/-- Why a structured value has no document. -/
inductive DataFault where
  /-- An integer exceeds the machine words. -/
  | numberOutOfRange
  /-- A key has no text. -/
  | keyNotAString
  deriving DecidableEq, Inhabited

/-- The wording of a fault. -/
def DataFault.message : DataFault → String
  | .numberOutOfRange => "number out of range"
  | .keyNotAString => "key must be a string"

namespace Data

/-- The text of a key: texts, integers and truth values have one. -/
def key : Data → Except DataFault String
  | .text s => .ok s
  | .integer n => .ok (toString n)
  | .bool b => .ok (if b then "true" else "false")
  | _ => .error .keyNotAString

/-- The document of a structured value, in normal form. -/
def toJson : Data → Except DataFault Json
  | .none => .ok .null
  | .bool b => .ok (.bool b)
  | .integer n =>
    if Int64.minValue.toInt ≤ n ∧ n < UInt64.size then .ok (.int n) else .error .numberOutOfRange
  | .float x => .ok (if x.isFinite then .number (.float x) else .null)
  | .text s => .ok (.string s)
  | .list items => do return .array (← itemsToJson items)
  | .mapping entries => do return .object (Json.sortMembers (← entriesToJson entries))
where
  /-- The documents of the entries of a sequence. -/
  itemsToJson : List Data → Except DataFault (List Json)
    | [] => .ok []
    | item :: items => do return (← item.toJson) :: (← itemsToJson items)
  /-- The members of a mapping. -/
  entriesToJson : List (Data × Data) → Except DataFault (List (String × Json))
    | [] => .ok []
    | (k, value) :: entries => do
      let name ← k.key
      let value ← value.toJson
      return (name, value) :: (← entriesToJson entries)

end Data

end DurableWorkflow
