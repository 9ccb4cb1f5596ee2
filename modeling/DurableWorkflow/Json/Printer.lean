import DurableWorkflow.Decimal.Shortest
import DurableWorkflow.Json.Basic
import DurableWorkflow.Text.Quoted

/-!
# JSON text

Documents as compact text: no spaces, members in the order of the document, integers in plain
decimal, floating point numbers as the shortest digits that read back.

## Main definitions

* `Decimal.text` — a decimal in positional or exponent notation.
* `Json.quoted` — a string with the escapes that JSON asks for.
* `Json.render`, `Json.text` — a document as characters and as a string.
-/

namespace DurableWorkflow

/-- A positive decimal as JSON writes it. The exponent of its first digit decides: from -5 to 15
the notation is positional with at least one digit after the point, otherwise it is the digits
(a point after the first of several) and a signed exponent. -/
def Decimal.text (d : Decimal) : String :=
  let digits := Nat.toDigits 10 d.coefficient
  let point : Int := digits.length + d.exponent
  let leading := point - 1
  if 0 ≤ d.exponent ∧ point ≤ 16 then
    String.ofList (digits ++ List.replicate d.exponent.toNat '0' ++ ['.', '0'])
  else if 0 < point ∧ point ≤ 16 then
    String.ofList (digits.take point.toNat ++ '.' :: digits.drop point.toNat)
  else if -5 < point ∧ point ≤ 0 then
    String.ofList ('0' :: '.' :: (List.replicate (-point).toNat '0' ++ digits))
  else
    let fraction := match digits with
      | first :: second :: rest => first :: '.' :: second :: rest
      | short => short
    String.ofList fraction ++ "e" ++ (if 0 ≤ leading then "+" else "-")
      ++ toString leading.natAbs

/-- A floating point number as JSON writes it: its sign, then `0.0` or the shortest decimal. What
is not finite has no notation and is written as null. -/
def Binary64.text (x : Binary64) : String :=
  if x.isFinite then
    (if x.isNegative then "-" else "")
      ++ (if x.significand = 0 then "0.0" else (Decimal.shortest x).text)
  else "null"

/-- A number as JSON writes it. -/
def JsonNumber.text : JsonNumber → String
  | .int n => toString n
  | .float x => x.text

namespace Json

/-- One character of a JSON string: the quote, the backslash and the controls are escaped, five of
the controls by a letter and the others by four hexadecimal digits; all else stands for itself. -/
def quotedChar (c : Char) : List Char :=
  match c with
  | '"' => ['\\', '"']
  | '\\' => ['\\', '\\']
  | '\x08' => ['\\', 'b']
  | '\x09' => ['\\', 't']
  | '\x0a' => ['\\', 'n']
  | '\x0c' => ['\\', 'f']
  | '\x0d' => ['\\', 'r']
  | c =>
    if c.toNat < 32 then
      ['\\', 'u', '0', '0', Nat.digitChar (c.toNat / 16), Nat.digitChar (c.toNat % 16)]
    else [c]

/-- A string as JSON writes it, between quotes. -/
def quoted (s : String) : List Char :=
  '"' :: (s.toList.flatMap quotedChar ++ ['"'])

/-- A document as compact text. A part that denotes nothing is written as null. -/
def render : Json → List Char
  | .null => ['n', 'u', 'l', 'l']
  | .bool true => ['t', 'r', 'u', 'e']
  | .bool false => ['f', 'a', 'l', 's', 'e']
  | .number n => n.text.toList
  | .string s => quoted s
  | .array items => '[' :: (renderItems items ++ [']'])
  | .object members => '\x7b' :: (renderMembers members ++ ['\x7d'])
  | .unreadable => ['n', 'u', 'l', 'l']
where
  /-- The entries of an array, separated by commas. -/
  renderItems : List Json → List Char
    | [] => []
    | [item] => item.render
    | item :: items => item.render ++ ',' :: renderItems items
  /-- The members of an object, separated by commas. -/
  renderMembers : List (String × Json) → List Char
    | [] => []
    | [(key, value)] => quoted key ++ ':' :: value.render
    | (key, value) :: members => quoted key ++ ':' :: (value.render ++ ',' :: renderMembers members)

/-- A document as a string of compact text. -/
def text (document : Json) : String :=
  String.ofList document.render

end Json

end DurableWorkflow
