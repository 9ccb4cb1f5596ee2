import DurableWorkflow.Text.Unprintable

/-!
# Quoted text and inspected values

How a value is shown to a person who reads an error message: strings in double quotes with
everything invisible spelled out, records with their field names, constructors by name. Messages
about a history that diverged quote events and commands in this form, so it is exact.

## Main definitions

* `Text.quote` — a string as a quoted literal.
* `Text.record`, `Text.wrapped`, `Text.optional`, `Text.bracketed` — the shapes of a shown value.
-/

namespace DurableWorkflow.Text

/-- The hexadecimal digits of a number, lower case, without leading zeros. -/
def hex (n : Nat) : String :=
  String.ofList (Nat.toDigits 16 n)

/-- One character inside quotes. The quote and the backslash take a backslash, the four common
controls have a letter, any other unprintable character is `\u` with its code point in braces,
and the rest stand for themselves (an apostrophe too). -/
def quoteChar (c : Char) : List Char :=
  match c with
  | '"' => ['\\', '"']
  | '\\' => ['\\', '\\']
  | '\n' => ['\\', 'n']
  | '\r' => ['\\', 'r']
  | '\t' => ['\\', 't']
  | '\x00' => ['\\', '0']
  | c =>
    if ' ' ≤ c ∧ c ≤ '~' then [c]
    else if isUnprintable c then '\\' :: 'u' :: '\x7b' :: (Nat.toDigits 16 c.toNat ++ ['\x7d'])
    else [c]

/-- A string between double quotes, each character as `quoteChar` writes it. -/
def quote (s : String) : String :=
  String.ofList ('"' :: (s.toList.flatMap quoteChar ++ ['"']))

/-- A record: its name and, in braces, its fields in order. -/
def record (name : String) (fields : List (String × String)) : String :=
  name ++ " \x7b " ++ ", ".intercalate (fields.map fun (field, text) => field ++ ": " ++ text)
    ++ " \x7d"

/-- A constructor around one unnamed value. -/
def wrapped (name : String) (text : String) : String :=
  name ++ "(" ++ text ++ ")"

/-- An optional value: `None`, or the value inside `Some`. -/
def optional {α : Type} (showValue : α → String) : Option α → String
  | none => "None"
  | some a => wrapped "Some" (showValue a)

/-- A list in square brackets, its entries separated by a comma and a space. -/
def bracketed (entries : List String) : String :=
  "[" ++ ", ".intercalate entries ++ "]"

/-- A truth value by name. -/
def truth (b : Bool) : String :=
  if b then "true" else "false"

end DurableWorkflow.Text
