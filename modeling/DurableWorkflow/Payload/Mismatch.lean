import DurableWorkflow.Json.Printer

/-!
# Mismatches between documents and types

Why a document is not a value of the type that was asked for: what stands there and what the type
expects. The wording names both.

## Main definitions

* `Finding` — what stands in the document.
* `Mismatch` — the ways in which a document misses a type.
* `Mismatch.message` — the wording.
-/

namespace DurableWorkflow

/-- What stands where a value of some type was expected. -/
inductive Finding where
  /-- The null value. -/
  | null
  /-- A truth value. -/
  | bool (b : Bool)
  /-- An integer. -/
  | integer (n : Int)
  /-- A floating point number. -/
  | float (x : Binary64)
  /-- A string. -/
  | string (s : String)
  /-- An array. -/
  | sequence
  /-- An object. -/
  | map
  /-- A constructor name without content. -/
  | unitVariant
  deriving DecidableEq, Inhabited

namespace Finding

/-- The kind of a document. -/
def ofJson : Json → Finding
  | .bool b => .bool b
  | .number (.int n) => .integer n
  | .number (.float x) => .float x
  | .string s => .string s
  | .array _ => .sequence
  | .object _ => .map
  | .null | .unreadable => .null

/-- The wording of what was found: scalars show their value. -/
def text : Finding → String
  | .null => "null"
  | .bool b => "boolean `" ++ Text.truth b ++ "`"
  | .integer n => "integer `" ++ toString n ++ "`"
  | .float x => "floating point `" ++ x.text ++ "`"
  | .string s => "string " ++ Text.quote s
  | .sequence => "sequence"
  | .map => "map"
  | .unitVariant => "unit variant"

end Finding

/-- Why a document is not a value of a type. -/
inductive Mismatch where
  /-- The kind of the document is not the one expected. -/
  | invalidType (found : Finding) (expected : String)
  /-- The kind is right and the value is not among those expected. -/
  | invalidValue (found : Finding) (expected : String)
  /-- A field is absent. -/
  | missingField (name : String)
  /-- An array has the wrong number of entries. -/
  | invalidLength (count : Nat) (expected : String)
  /-- No constructor has the name found. -/
  | unknownVariant (name : String) (known : List String)
  deriving DecidableEq, Inhabited

namespace Mismatch

/-- The wording of a mismatch. -/
def message : Mismatch → String
  | .invalidType found expected => "invalid type: " ++ found.text ++ ", expected " ++ expected
  | .invalidValue found expected => "invalid value: " ++ found.text ++ ", expected " ++ expected
  | .missingField name => "missing field `" ++ name ++ "`"
  | .invalidLength count expected =>
    "invalid length " ++ toString count ++ ", expected " ++ expected
  | .unknownVariant name known =>
    "unknown variant `" ++ name ++ "`, expected one of "
      ++ ", ".intercalate (known.map fun k => "`" ++ k ++ "`")

/-- The mismatch of a document whose kind is not the one expected. -/
def ofJson (document : Json) (expected : String) : Mismatch :=
  .invalidType (.ofJson document) expected

end Mismatch

end DurableWorkflow
