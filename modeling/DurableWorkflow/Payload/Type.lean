import DurableWorkflow.Json.Tagged
import DurableWorkflow.Payload.Mismatch

/-!
# Types of payloads

The types at which workflow code reads and writes payloads, with their values and with the
correspondence between values and documents. Reading checks the members that are there in the order
of their keys and only then looks for absent fields; writing lists fields as they are declared.

## Main definitions

* `PayloadType` — the types; `PayloadType.Value` — their values.
* `PayloadType.toJson`, `PayloadType.ofJson` — values as documents and back.
-/

namespace DurableWorkflow

/-- A sample record with one counter. -/
structure Params where
  /-- The counter. -/
  count : UInt32
  deriving DecidableEq, Inhabited

/-- A sample record with nested records and an optional field. -/
structure Order where
  /-- The name of the order. -/
  id : String
  /-- Its lines. -/
  lines : List Params
  /-- A remark, if any. -/
  note : Option String
  deriving DecidableEq, Inhabited

/-- A sample type with three constructors. -/
inductive Shape where
  /-- No shape. -/
  | unit
  /-- A circle by its radius. -/
  | circle (radius : UInt32)
  /-- A rectangle by its sides. -/
  | rect (w h : Int64)
  deriving DecidableEq, Inhabited

/-- The types of payloads. -/
inductive PayloadType where
  /-- Any document. -/
  | any
  /-- The type with one value. -/
  | unit
  /-- Truth values. -/
  | bool
  /-- Numbers of eight bits. -/
  | u8
  /-- Numbers of thirty-two bits. -/
  | u32
  /-- Numbers of sixty-four bits. -/
  | u64
  /-- Signed numbers of sixty-four bits. -/
  | i64
  /-- Floating point numbers. -/
  | f64
  /-- Texts. -/
  | string
  /-- A number of thirty-two bits or nothing. -/
  | optionU32
  /-- Lists of numbers of thirty-two bits. -/
  | listU32
  /-- Pairs of a number of thirty-two bits and a text. -/
  | pair
  /-- The record with one counter. -/
  | params
  /-- The record with nested records. -/
  | order
  /-- The type with three constructors. -/
  | shape
  deriving DecidableEq, Inhabited

/-- The values of a payload type. -/
abbrev PayloadType.Value : PayloadType → Type
  | .any => Json
  | .unit => Unit
  | .bool => Bool
  | .u8 => UInt8
  | .u32 => UInt32
  | .u64 => UInt64
  | .i64 => Int64
  | .f64 => Binary64
  | .string => String
  | .optionU32 => Option UInt32
  | .listU32 => List UInt32
  | .pair => UInt32 × String
  | .params => Params
  | .order => Order
  | .shape => Shape

/-! ### Values as documents -/

namespace Params

/-- The document of a record with one counter. -/
def toJson (p : Params) : Json :=
  .object [("count", .nat p.count.toNat)]

end Params

/-- The document of an order. -/
def Order.toJson (order : Order) : Json :=
  .object [("id", .string order.id), ("lines", .array (order.lines.map Params.toJson)),
    ("note", .ofOption .string order.note)]

/-- The document of a shape. -/
def Shape.toJson : Shape → Json
  | .unit => .string "Unit"
  | .circle radius => .object [("Circle", .nat radius.toNat)]
  | .rect w h => .object [("Rect", .object [("w", .int w.toInt), ("h", .int h.toInt)])]

/-- The document of a floating point number; what is not finite becomes null. -/
def Binary64.toJson (x : Binary64) : Json :=
  if x.isFinite then .number (.float x) else .null

/-- The document of a value. -/
def PayloadType.toJson : (t : PayloadType) → t.Value → Json
  | .any, document => document
  | .unit, _ => .null
  | .bool, b => .bool b
  | .u8, n => .nat n.toNat
  | .u32, n => .nat n.toNat
  | .u64, n => .nat n.toNat
  | .i64, n => .int n.toInt
  | .f64, x => x.toJson
  | .string, s => .string s
  | .optionU32, n => .ofOption (fun n => .nat n.toNat) n
  | .listU32, ns => .array (ns.map fun n => .nat n.toNat)
  | .pair, (n, s) => .array [.nat n.toNat, .string s]
  | .params, p => p.toJson
  | .order, o => o.toJson
  | .shape, s => s.toJson

/-! ### Documents as values -/

namespace Payload

/-- An integer within bounds. -/
def readInteger (expected : String) (least greatest : Int) : Json → Except Mismatch Int
  | .number (.int n) =>
    if least ≤ n ∧ n ≤ greatest then .ok n else .error (.invalidValue (.integer n) expected)
  | document => .error (.ofJson document expected)

/-- A number of thirty-two bits. -/
def readU32 (document : Json) : Except Mismatch UInt32 := do
  return (← readInteger "u32" 0 (UInt32.size - 1) document).toNat.toUInt32

/-- A signed number of sixty-four bits. -/
def readI64 (document : Json) : Except Mismatch Int64 := do
  return Int64.ofInt (← readInteger "i64" Int64.minValue.toInt Int64.maxValue.toInt document)

/-- A text. -/
def readString : Json → Except Mismatch String
  | .string s => .ok s
  | document => .error (.ofJson document "a string")

/-- A value or null. -/
def readOption {α : Type} (read : Json → Except Mismatch α) : Json → Except Mismatch (Option α)
  | .null => .ok none
  | document => some <$> read document

/-- A list of values. -/
def readList {α : Type} (read : Json → Except Mismatch α) : Json → Except Mismatch (List α)
  | .array items => items.mapM read
  | document => .error (.ofJson document "a sequence")

/-- The entry of an array at an index, which has to be there. -/
def readEntry {α : Type} (read : Json → Except Mismatch α) (expected : String) (items : List Json)
    (index : Nat) : Except Mismatch α :=
  match items[index]? with
  | some item => read item
  | none => .error (.invalidLength index expected)

/-- An array has no entries beyond the first `count`. -/
def checkLength (items : List Json) (count : Nat) : Except Mismatch Unit :=
  if items.length ≤ count then .ok ()
  else .error (.invalidLength items.length "fewer elements in array")

/-- The member of an object under a key, read if it is there. -/
def readMember {α : Type} (read : Json → Except Mismatch α) (document : Json) (key : String) :
    Except Mismatch (Option α) :=
  match document.get? key with
  | some value => some <$> read value
  | none => .ok none

/-- A field that was looked up has to be there. -/
def requireField {α : Type} (name : String) : Option α → Except Mismatch α
  | some value => .ok value
  | none => .error (.missingField name)

/-- A record with one counter, from an object or from the array of its fields. -/
def readParams (document : Json) : Except Mismatch Params := do
  match document with
  | .array items =>
    let count ← readEntry readU32 "struct Params with 1 element" items 0
    checkLength items 1
    return { count }
  | .object _ =>
    let count ← readMember readU32 document "count"
    return { count := ← requireField "count" count }
  | document => .error (.ofJson document "struct Params")

/-- An order, from an object or from the array of its fields. An object may leave out the note. -/
def readOrder (document : Json) : Except Mismatch Order := do
  match document with
  | .array items =>
    let expected := "struct Order with 3 elements"
    let id ← readEntry readString expected items 0
    let lines ← readEntry (readList readParams) expected items 1
    let note ← readEntry (readOption readString) expected items 2
    checkLength items 3
    return { id, lines, note }
  | .object _ =>
    let id ← readMember readString document "id"
    let lines ← readMember (readList readParams) document "lines"
    let note ← readMember (readOption readString) document "note"
    return {
      id := ← requireField "id" id, lines := ← requireField "lines" lines, note := note.join }
  | document => .error (.ofJson document "struct Order")

/-- The sides of a rectangle. The members are read in the order of their keys, and of two that are
absent the width is missed first. -/
def readRect (content : Json) : Except Mismatch Shape := do
  match content with
  | .object _ =>
    let h ← readMember readI64 content "h"
    let w ← readMember readI64 content "w"
    return .rect (← requireField "w" w) (← requireField "h" h)
  | content => .error (.ofJson content "struct variant")

/-- A shape: the name of a constructor, alone or over its content. -/
def readShape (document : Json) : Except Mismatch Shape := do
  let (name, content) ← match document with
    | .string name => pure (name, none)
    | .object [(name, content)] => pure (name, some content)
    | .object _ => .error (.invalidValue .map "map with a single key")
    | document => .error (.ofJson document "string or map")
  match name, content with
  | "Unit", none | "Unit", some .null => return .unit
  | "Unit", some content => .error (.ofJson content "unit")
  | "Circle", some content => return .circle (← readU32 content)
  | "Circle", none => .error (.invalidType .unitVariant "newtype variant")
  | "Rect", some content => readRect content
  | "Rect", none => .error (.invalidType .unitVariant "struct variant")
  | name, _ => .error (.unknownVariant name ["Unit", "Circle", "Rect"])

end Payload

open Payload in
/-- The value of a document in normal form at a type. A floating point number may be written as an
integer; every other type takes integers only where it has them. -/
def PayloadType.ofJson : (t : PayloadType) → Json → Except Mismatch t.Value
  | .any, document => .ok document
  | .unit, document =>
    match document with
    | .null => .ok ()
    | document => .error (.ofJson document "unit")
  | .bool, document =>
    match document with
    | .bool b => .ok b
    | document => .error (.ofJson document "a boolean")
  | .u8, document => do return (← readInteger "u8" 0 255 document).toNat.toUInt8
  | .u32, document => readU32 document
  | .u64, document => do return (← readInteger "u64" 0 (UInt64.size - 1) document).toNat.toUInt64
  | .i64, document => readI64 document
  | .f64, document =>
    match document with
    | .number (.float x) => .ok x
    | .number (.int n) =>
      .ok <| if 0 ≤ n then .ofWord n.toNat.toUInt64 else (Binary64.ofWord n.natAbs.toUInt64).negate
    | document => .error (.ofJson document "f64")
  | .string, document => readString document
  | .optionU32, document => readOption readU32 document
  | .listU32, document => readList readU32 document
  | .pair, document =>
    match document with
    | .array items => do
      let expected := "a tuple of size 2"
      let n ← readEntry readU32 expected items 0
      let s ← readEntry readString expected items 1
      checkLength items 2
      return (n, s)
    | document => .error (.ofJson document "a tuple of size 2")
  | .params, document => readParams document
  | .order, document => readOrder document
  | .shape, document => readShape document

end DurableWorkflow
