import DurableWorkflow.Json.Basic

/-!
# Tagged documents

How a value of a type with several constructors is laid out in JSON: a constructor without fields
is a string, its name; any other is an object with one member, named for the constructor, whose
value is an object with a member per field. Reading such a layout is tolerant in one way only,
members that no field asks for do not matter.

## Main definitions

* `Json.tagged` — a constructor with its fields.
* `Json.untag?` — the constructor name and the content of a tagged document.
* `Json.fields?` — the content of a record by field name.
-/

namespace DurableWorkflow.Json

/-- A constructor with its fields. -/
def tagged (name : String) (fields : List (String × Json)) : Json :=
  .object [(name, .object fields)]

/-- The constructor name of a tagged document, with its content if it has any. -/
def untag? : Json → Option (String × Option Json)
  | .string name => some (name, none)
  | .object [(name, content)] => some (name, some content)
  | _ => none

/-- The content of a record, as the document under each of its field names. An object gives a field
at most once; members with other names are ignored. An array, where it is allowed, gives all fields
in the order of their declaration. -/
def fields? (positional : Bool) (names : List String) : Json → Option (String → Option Json)
  | .object members =>
    if names.all fun name => (members.filter fun member => member.1 == name).length ≤ 1 then
      some fun name => members.lookup name
    else none
  | .array items =>
    if positional && items.length == names.length then
      some fun name => (names.zip items).lookup name
    else none
  | _ => none

/-- A field that has to be there and holds a string. -/
def textField? (fields : String → Option Json) (name : String) : Option String :=
  fields name >>= Json.string?

/-- A field that has to be there and holds a truth value. -/
def flagField? (fields : String → Option Json) (name : String) : Option Bool :=
  fields name >>= Json.bool?

/-- A natural number that fits a machine word. -/
def word? (document : Json) : Option Nat :=
  document.nat?.filter (· < UInt64.size)

/-- A field that has to be there and holds a machine word. -/
def wordField? (fields : String → Option Json) (name : String) : Option Nat :=
  fields name >>= word?

/-- A field that may be absent or null, both meaning no value. -/
def optionalField? {α : Type} (read : Json → Option α) (fields : String → Option Json)
    (name : String) : Option (Option α) :=
  match fields name with
  | none | some .null => some none
  | some document => (read document).map some

end DurableWorkflow.Json
