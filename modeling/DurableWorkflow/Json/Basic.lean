import DurableWorkflow.Decimal.Binary64

/-!
# JSON documents

The values that workflows exchange. Numbers keep the distinction of the notation: an integer that
fits a machine word stays an integer, everything else is floating point. An object is a list of
members; a document in normal form lists them in ascending order of their keys, each key once.

## Main definitions

* `Json` — a document.
* `Json.depth` — how deeply arrays and objects are nested.
* `Json.normalize` — members sorted by key, the last of several with one key kept.
* `Json.get?` — the member of an object under a key.
-/

namespace DurableWorkflow

/-- A JSON number. -/
inductive JsonNumber where
  /-- An integer written without fraction or exponent that fits a signed or unsigned word. -/
  | int (n : Int)
  /-- Any other number. -/
  | float (x : Binary64)
  deriving DecidableEq, Inhabited

/-- A JSON document. -/
inductive Json where
  /-- The null value. -/
  | null
  /-- A truth value. -/
  | bool (b : Bool)
  /-- A number. -/
  | number (n : JsonNumber)
  /-- A string. -/
  | string (s : String)
  /-- An array. -/
  | array (items : List Json)
  /-- An object, as its members. -/
  | object (members : List (String × Json))
  /-- A part that is well formed but denotes nothing: a number out of range, a string with half a
  surrogate pair, or nesting beyond the limit. Only a reader that skips such parts yields it. -/
  | unreadable
  deriving Inhabited

namespace Json

/-- An integer document. -/
def int (n : Int) : Json :=
  .number (.int n)

/-- A document of a natural number. -/
def nat (n : Nat) : Json :=
  .int n

/-- An optional document, absence being null. -/
def ofOption {α : Type} (toDocument : α → Json) : Option α → Json
  | none => .null
  | some a => toDocument a

/-- How many arrays and objects are nested in one another; a scalar has depth zero. -/
def depth : Json → Nat
  | .array items => itemsDepth items + 1
  | .object members => membersDepth members + 1
  | _ => 0
where
  /-- The greatest depth among the entries of an array. -/
  itemsDepth : List Json → Nat
    | [] => 0
    | item :: items => max item.depth (itemsDepth items)
  /-- The greatest depth among the members of an object. -/
  membersDepth : List (String × Json) → Nat
    | [] => 0
    | (_, value) :: members => max value.depth (membersDepth members)

/-- Put a member into a list sorted by key, in place of one that has its key. Keys are compared
character by character, which is also the order of their bytes. -/
def insertMember {α : Type} (key : String) (value : α) : List (String × α) → List (String × α)
  | [] => [(key, value)]
  | (k, v) :: members =>
    if key < k then (key, value) :: (k, v) :: members
    else if key = k then (key, value) :: members
    else (k, v) :: insertMember key value members

/-- Members in ascending order of their keys; of several with one key the last stays. -/
def sortMembers {α : Type} (members : List (String × α)) : List (String × α) :=
  members.foldl (fun sorted member => insertMember member.1 member.2 sorted) []

/-- The document in normal form, at every level. -/
def normalize : Json → Json
  | .array items => .array (normalizeItems items)
  | .object members => .object (sortMembers (normalizeMembers members))
  | document => document
where
  /-- Every entry in normal form. -/
  normalizeItems : List Json → List Json
    | [] => []
    | item :: items => item.normalize :: normalizeItems items
  /-- Every member's value in normal form, the members in their order. -/
  normalizeMembers : List (String × Json) → List (String × Json)
    | [] => []
    | (key, value) :: members => (key, value.normalize) :: normalizeMembers members

/-- The members of an object; any other document has none. -/
def members : Json → List (String × Json)
  | .object ms => ms
  | _ => []

/-- The first member of an object under a key. -/
def get? (document : Json) (key : String) : Option Json :=
  document.members.lookup key

/-- The member under a key unless it is absent or null. -/
def present? (document : Json) (key : String) : Option Json :=
  match document.get? key with
  | some .null => none
  | found => found

/-- The text of a string document. -/
def string? : Json → Option String
  | .string s => some s
  | _ => none

/-- The value of a truth document. -/
def bool? : Json → Option Bool
  | .bool b => some b
  | _ => none

/-- The value of an integer document that is not negative. -/
def nat? : Json → Option Nat
  | .number (.int n) => if 0 ≤ n then some n.toNat else none
  | _ => none

/-- The entries of an array document. -/
def array? : Json → Option (List Json)
  | .array items => some items
  | _ => none

end Json

end DurableWorkflow
