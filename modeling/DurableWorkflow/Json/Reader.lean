import DurableWorkflow.Json.Basic
import DurableWorkflow.Json.Fault

/-!
# Reading JSON

A reader of documents over the characters that are still unread. It stops at the first fault, so
that the reported place is exact. Two modes differ in the parts that are well formed but denote
nothing (a number out of range, half a surrogate pair, nesting beyond the limit): a strict reader
stops there, a lenient one goes on and leaves `Json.unreadable` in the place of the value, for
callers that skip members they do not know.

Every function that may recurse is bounded by a number of steps; `Json.read` allows more steps
than any text of that length can take.

## Main definitions

* `Json.readNumber`, `Json.readString`, `Json.readValue` — the parts.
* `Json.read` — a whole text, strictly.
* `Json.readLenient` — a whole text, leniently.
* `Json.nestingLimit` — how deeply arrays and objects may be nested.
-/

namespace DurableWorkflow.Json

/-- Arrays and objects may be nested this deeply. -/
def nestingLimit : Nat :=
  127

/-- Stop with a fault that ends where the unread text starts. -/
def stopAt {α : Type} (rest : List Char) (fault : Fault) : Except Stop α :=
  .error ⟨fault, rest, 0⟩

/-- Stop with a fault at the first byte of the unread text. -/
def stopOn {α : Type} (rest : List Char) (fault : Fault) : Except Stop α :=
  .error ⟨fault, rest, 1⟩

/-- The four characters that may stand between the parts of a document. -/
def isSpace (c : Char) : Bool :=
  c == ' ' || c == '\n' || c == '\t' || c == '\r'

/-- The text behind leading space. -/
def skipSpace (cs : List Char) : List Char :=
  cs.dropWhile isSpace

/-- An ASCII digit. -/
def isDigit (c : Char) : Bool :=
  '0' ≤ c && c ≤ '9'

/-- The value of an ASCII digit. -/
def digitValue (c : Char) : Nat :=
  c.toNat - '0'.toNat

/-- The rest of a word whose first character has been read. -/
def readWord (word : List Char) (cs : List Char) : Except Stop (List Char) :=
  match word, cs with
  | [], cs => .ok cs
  | _ :: _, [] => stopAt [] .endOfValue
  | w :: word, c :: cs => if w = c then readWord word cs else stopOn (c :: cs) .expectedWord

/-! ### Numbers -/

/-- The greatest number of a machine word. -/
def wordMax : Nat :=
  UInt64.size - 1

/-- The digits of an integer as long as their value fits a word, with that value and their count;
the unread text starts with the first digit that does not fit, if there is one. -/
def takeInteger (value count : Nat) : List Char → Nat × Nat × List Char
  | [] => (value, count, [])
  | c :: cs =>
    if isDigit c && value * 10 + digitValue c ≤ wordMax then
      takeInteger (value * 10 + digitValue c) (count + 1) cs
    else (value, count, c :: cs)

/-- A floating point number from its sign, significand and decimal exponent. A lenient reader takes
one that is out of range for an unreadable part. -/
def finishFloat (lenient negative : Bool) (significand : Nat) (exponent : Int) (cs : List Char) :
    Except Stop (Json × List Char) :=
  match Binary64.scaled? significand.toUInt64 exponent with
  | some x => .ok (.number (.float (if negative then x.negate else x)), cs)
  | none => if lenient then .ok (.unreadable, cs) else stopAt cs .numberOutOfRange

/-- The greatest decimal exponent that is read digit by digit. -/
def exponentMax : Nat :=
  2147483647

/-- The digits of an exponent, with their value; `none` as soon as it exceeds `exponentMax`, the
unread text then starting behind the digit that made it so. -/
def takeExponent (value : Nat) : List Char → Option Nat × List Char
  | [] => (some value, [])
  | c :: cs =>
    if isDigit c then
      if value * 10 + digitValue c ≤ exponentMax then takeExponent (value * 10 + digitValue c) cs
      else (none, cs)
    else (some value, c :: cs)

/-- An exponent whose mark has been read: an optional sign and at least one digit. An exponent too
long to count makes the number zero, unless it is a positive exponent of something else. -/
def readExponent (lenient negative : Bool) (significand : Nat) (exponent : Int) (cs : List Char) :
    Except Stop (Json × List Char) :=
  let (positive, cs) := match cs with
    | '+' :: cs => (true, cs)
    | '-' :: cs => (false, cs)
    | cs => (true, cs)
  match cs with
  | [] => stopAt [] .endOfValue
  | c :: cs' =>
    if isDigit c then
      match takeExponent (digitValue c) cs' with
      | (some e, cs) =>
        let exponent := if positive then exponent + e else exponent - e
        finishFloat lenient negative significand exponent cs
      | (none, cs) =>
        if significand ≠ 0 ∧ positive = true then
          if lenient then .ok (.unreadable, cs.dropWhile isDigit) else stopAt cs .numberOutOfRange
        else .ok (.number (.float (Binary64.zero negative)), cs.dropWhile isDigit)
    else stopOn cs .invalidNumber

/-- What may follow the digits of a floating point number: an exponent, or nothing. -/
def readScale (lenient negative : Bool) (significand : Nat) (exponent : Int) (cs : List Char) :
    Except Stop (Json × List Char) :=
  match cs with
  | 'e' :: cs | 'E' :: cs => readExponent lenient negative significand exponent cs
  | cs => finishFloat lenient negative significand exponent cs

/-- The digits behind a point, taken into the significand as long as it fits a word and dropped
from then on. There has to be at least one. -/
def readFraction (lenient negative : Bool) (significand : Nat) (exponent : Int) (cs : List Char) :
    Except Stop (Json × List Char) :=
  match cs with
  | [] => stopAt [] .endOfValue
  | c :: _ =>
    if isDigit c then
      let (value, count, rest) := takeInteger significand 0 cs
      readScale lenient negative value (exponent - (count : Nat)) (rest.dropWhile isDigit)
    else stopOn cs .invalidNumber

/-- A number from its first digit on. Leading zeros are not allowed. Integer digits that no longer
fit a word only raise the exponent. A negative integer needs a sign and a value up to half a word;
minus zero and whatever does not fit are floating point. -/
def readNumber (lenient negative : Bool) (cs : List Char) : Except Stop (Json × List Char) :=
  match cs with
  | [] => stopAt [] .endOfValue
  | '0' :: cs =>
    match cs with
    | c :: _ => if isDigit c then stopOn cs .invalidNumber else finish 0 cs
    | [] => finish 0 []
  | c :: _ =>
    if isDigit c then
      let (value, _, rest) := takeInteger 0 0 cs
      let raised := (rest.takeWhile isDigit).length
      if raised = 0 then finish value rest
      else
        match rest.dropWhile isDigit with
        | '.' :: ending => readFraction lenient negative value raised ending
        | ending => readScale lenient negative value raised ending
    else stopOn cs .invalidNumber
where
  /-- A number whose integer digits all fit: an integer unless a fraction or an exponent follows. -/
  finish (value : Nat) (cs : List Char) : Except Stop (Json × List Char) :=
    match cs with
    | '.' :: cs => readFraction lenient negative value 0 cs
    | 'e' :: cs | 'E' :: cs => readExponent lenient negative value 0 cs
    | cs =>
      if negative then
        if 0 < value ∧ value ≤ UInt64.size / 2 then .ok (.number (.int (-(value : Int))), cs)
        else .ok (.number (.float (Binary64.ofWord value.toUInt64).negate), cs)
      else .ok (.number (.int value), cs)

/-! ### Strings -/

/-- The value of a hexadecimal digit of either case. -/
def hexValue? (c : Char) : Option Nat :=
  if isDigit c then some (digitValue c)
  else if 'a' ≤ c && c ≤ 'f' then some (c.toNat - 'a'.toNat + 10)
  else if 'A' ≤ c && c ≤ 'F' then some (c.toNat - 'A'.toNat + 10)
  else none

/-- The four hexadecimal digits of an escape. The fault lies behind four bytes whichever of them
is no digit, and a text with fewer bytes ends inside the string. -/
def readHex (cs : List Char) : Except Stop (Nat × List Char) :=
  match cs with
  | a :: b :: c :: d :: rest =>
    match hexValue? a, hexValue? b, hexValue? c, hexValue? d with
    | some a, some b, some c, some d => .ok (((a * 16 + b) * 16 + c) * 16 + d, rest)
    | _, _, _, _ => .error ⟨.invalidEscape, cs, 4⟩
  | cs => if 4 ≤ byteSize cs then .error ⟨.invalidEscape, cs, 4⟩ else stopAt [] .endOfString

/-- An escape by number, from its digits on: one code point, or a surrogate pair in two escapes.
A lenient reader looks at one escape only and leaves surrogates undenoted. -/
def readCodePoint (lenient : Bool) (cs : List Char) : Except Stop (Option Char × List Char) := do
  let (n, cs) ← readHex cs
  if n < 0xD800 ∨ 0xDFFF < n then
    .ok (some (Char.ofNat n), cs)
  else if 0xDC00 ≤ n then
    if lenient then .ok (none, cs) else stopAt cs .loneSurrogate
  else
    match cs with
    | '\\' :: 'u' :: digits =>
      match readHex digits with
      | .error stop => if lenient then .ok (none, cs) else .error stop
      | .ok (low, rest) =>
        if 0xDC00 ≤ low ∧ low ≤ 0xDFFF then
          .ok (some (Char.ofNat (0x10000 + (n - 0xD800) * 0x400 + (low - 0xDC00))), rest)
        else if lenient then .ok (none, cs)
        else stopAt rest .loneSurrogate
    | [] | ['\\'] => if lenient then .ok (none, cs) else stopAt [] .endOfString
    | '\\' :: other => if lenient then .ok (none, cs) else stopOn other .endOfHexEscape
    | other => if lenient then .ok (none, cs) else stopOn other .endOfHexEscape

/-- An escape, from the character behind its backslash on. -/
def readEscape (lenient : Bool) (cs : List Char) : Except Stop (Option Char × List Char) :=
  match cs with
  | [] => stopAt [] .endOfString
  | '"' :: cs => .ok (some '"', cs)
  | '\\' :: cs => .ok (some '\\', cs)
  | '/' :: cs => .ok (some '/', cs)
  | 'b' :: cs => .ok (some '\x08', cs)
  | 'f' :: cs => .ok (some '\x0c', cs)
  | 'n' :: cs => .ok (some '\n', cs)
  | 'r' :: cs => .ok (some '\r', cs)
  | 't' :: cs => .ok (some '\t', cs)
  | 'u' :: cs => readCodePoint lenient cs
  | cs => stopOn cs .invalidEscape

/-- A string from behind its opening quote on, with the characters read so far in reverse. The
result is `none` when a lenient reader met an escape that denotes nothing. -/
def readString (lenient : Bool) :
    Nat → Option (List Char) → List Char → Except Stop (Option String × List Char)
  | _, _, [] => stopAt [] .endOfString
  | _, read, '"' :: cs => .ok (read.map fun cs => String.ofList cs.reverse, cs)
  | 0, _, cs => stopAt cs .endOfString
  | steps + 1, read, '\\' :: cs => do
    let (c, cs) ← readEscape lenient cs
    readString lenient steps (read.bind fun read => c.map (· :: read)) cs
  | steps + 1, read, c :: cs =>
    if c.toNat < 32 then stopAt cs .controlCharacter
    else readString lenient steps (read.map (c :: ·)) cs

/-! ### Documents -/

mutual

/-- A value, `levels` being how deeply arrays and objects may still be nested in it. -/
def readValue (lenient : Bool) : Nat → Nat → List Char → Except Stop (Json × List Char)
  | 0, _, cs => stopOn cs .endOfValue
  | steps + 1, levels, cs =>
    match skipSpace cs with
    | [] => stopOn [] .endOfValue
    | 'n' :: cs => return (.null, ← readWord ['u', 'l', 'l'] cs)
    | 't' :: cs => return (.bool true, ← readWord ['r', 'u', 'e'] cs)
    | 'f' :: cs => return (.bool false, ← readWord ['a', 'l', 's', 'e'] cs)
    | '-' :: cs => readNumber lenient true cs
    | '"' :: cs => do
      let (s, cs) ← readString lenient steps (some []) cs
      return (s.elim .unreadable .string, cs)
    | '[' :: cs => do
      if levels = 0 ∧ lenient = false then stopOn ('[' :: cs) .recursionLimit
      else
        let (items, cs) ← readItems lenient steps (levels - 1) true [] cs
        return (if levels = 0 then .unreadable else .array items, cs)
    | '\x7b' :: cs => do
      if levels = 0 ∧ lenient = false then stopOn ('\x7b' :: cs) .recursionLimit
      else
        let (members, cs) ← readMembers lenient steps (levels - 1) true (some []) cs
        return (match members with
          | some members => if levels = 0 then .unreadable else .object members
          | none => .unreadable, cs)
    | c :: cs =>
      if isDigit c then readNumber lenient false (c :: cs) else stopOn (c :: cs) .expectedValue

/-- The entries of an array up to and with its closing bracket, with the entries read so far in
reverse; `first` tells whether there are none. -/
def readItems (lenient : Bool) :
    Nat → Nat → Bool → List Json → List Char → Except Stop (List Json × List Char)
  | 0, _, _, _, cs => stopOn cs .endOfList
  | steps + 1, levels, first, read, cs => do
    match skipSpace cs with
    | [] => stopOn [] .endOfList
    | ']' :: cs => return (read.reverse, cs)
    | c :: cs =>
      let start ←
        if first then pure (c :: cs)
        else if c = ',' then
          match skipSpace cs with
          | ']' :: cs => stopOn (']' :: cs) .trailingComma
          | [] => stopOn [] .endOfValue
          | cs => pure cs
        else stopOn (c :: cs) .expectedListSeparator
      let (item, cs) ← readValue lenient steps levels start
      readItems lenient steps levels false (item :: read) cs

/-- The members of an object up to and with its closing brace, with the members read so far in
reverse; `first` tells whether there are none. The result is `none` when a lenient reader met a
key that denotes nothing. -/
def readMembers (lenient : Bool) :
    Nat → Nat → Bool → Option (List (String × Json)) → List Char →
      Except Stop (Option (List (String × Json)) × List Char)
  | 0, _, _, _, cs => stopOn cs .endOfObject
  | steps + 1, levels, first, read, cs => do
    match skipSpace cs with
    | [] => stopOn [] .endOfObject
    | '\x7d' :: cs => return (read.map List.reverse, cs)
    | c :: cs =>
      let start ←
        if first then
          if c = '"' then pure cs else stopOn (c :: cs) .keyNotAString
        else if c = ',' then
          match skipSpace cs with
          | '"' :: cs => pure cs
          | '\x7d' :: cs => stopOn ('\x7d' :: cs) .trailingComma
          | [] => stopOn [] .endOfValue
          | cs => stopOn cs .keyNotAString
        else stopOn (c :: cs) .expectedObjectSeparator
      let (key, cs) ← readString lenient steps (some []) start
      let cs ← match skipSpace cs with
        | ':' :: cs => pure cs
        | [] => stopOn [] .endOfObject
        | cs => stopOn cs .expectedColon
      let (value, cs) ← readValue lenient steps levels cs
      readMembers lenient steps levels false
        (read.bind fun read => key.map fun key => (key, value) :: read) cs

end

/-- A whole text as one document: nothing but space may follow the value. -/
def readDocument (lenient : Bool) (text : String) : Except Stop Json := do
  let cs := text.toList
  let (value, rest) ← readValue lenient (2 * cs.length + 2) nestingLimit cs
  match skipSpace rest with
  | [] => return value
  | rest => stopOn rest .trailingCharacters

/-- A text as a document in normal form, or the description of the first fault. -/
def read (text : String) : Except String Json :=
  match readDocument false text with
  | .ok document => .ok document.normalize
  | .error stop => .error (stop.describe text)

/-- A text as a document with its members as written; parts that denote nothing do not matter
unless they are used. -/
def readLenient (text : String) : Option Json :=
  (readDocument true text).toOption

end DurableWorkflow.Json
