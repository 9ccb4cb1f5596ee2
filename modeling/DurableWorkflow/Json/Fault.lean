/-!
# Faults in JSON text

Why a text is not a document, and where: a reader stops at the first fault and reports it with a
line and a column. Columns count bytes, and a line break counts as column zero of the line after it.

## Main definitions

* `Json.Fault` — the kinds of fault, with their wording in `Json.Fault.message`.
* `Json.Stop` — a fault together with the place where reading stopped.
* `Json.Stop.describe` — the message with its line and column.
-/

namespace DurableWorkflow.Json

/-- What is wrong with a text that is not a document. -/
inductive Fault where
  /-- The text ends where a value, or the rest of one, has to follow. -/
  | endOfValue
  /-- The text ends inside an array. -/
  | endOfList
  /-- The text ends inside an object. -/
  | endOfObject
  /-- The text ends inside a string. -/
  | endOfString
  /-- No colon follows the key of a member. -/
  | expectedColon
  /-- Neither a comma nor the closing bracket follows an entry. -/
  | expectedListSeparator
  /-- Neither a comma nor the closing brace follows a member. -/
  | expectedObjectSeparator
  /-- A word starts like `null`, `true` or `false` but goes on differently. -/
  | expectedWord
  /-- No value can start with the character found. -/
  | expectedValue
  /-- A backslash is followed by something that is no escape. -/
  | invalidEscape
  /-- A number has a digit too many in front or lacks one. -/
  | invalidNumber
  /-- A number is too large for a floating point word. -/
  | numberOutOfRange
  /-- A control character stands in a string. -/
  | controlCharacter
  /-- A member starts with something other than a string. -/
  | keyNotAString
  /-- Half of a surrogate pair stands where a whole one has to. -/
  | loneSurrogate
  /-- A comma stands before a closing bracket or brace. -/
  | trailingComma
  /-- Something other than space follows the document. -/
  | trailingCharacters
  /-- The first half of a surrogate pair is not followed by an escape. -/
  | endOfHexEscape
  /-- Arrays and objects are nested too deeply. -/
  | recursionLimit
  deriving DecidableEq, Inhabited

/-- The wording of a fault, without its place. -/
def Fault.message : Fault → String
  | .endOfValue => "EOF while parsing a value"
  | .endOfList => "EOF while parsing a list"
  | .endOfObject => "EOF while parsing an object"
  | .endOfString => "EOF while parsing a string"
  | .expectedColon => "expected `:`"
  | .expectedListSeparator => "expected `,` or `]`"
  | .expectedObjectSeparator => "expected `,` or `\x7d`"
  | .expectedWord => "expected ident"
  | .expectedValue => "expected value"
  | .invalidEscape => "invalid escape"
  | .invalidNumber => "invalid number"
  | .numberOutOfRange => "number out of range"
  | .controlCharacter => "control character (\\u0000-\\u001F) found while parsing a string"
  | .keyNotAString => "key must be a string"
  | .loneSurrogate => "lone leading surrogate in hex escape"
  | .trailingComma => "trailing comma"
  | .trailingCharacters => "trailing characters"
  | .endOfHexEscape => "unexpected end of hex escape"
  | .recursionLimit => "recursion limit exceeded"

/-- A fault and its place: `past` bytes behind the start of what is still unread, or the end of the
text if that is nearer. -/
structure Stop where
  /-- What is wrong. -/
  fault : Fault
  /-- The text that is still unread. -/
  rest : List Char
  /-- How many bytes of it belong to the fault. -/
  past : Nat
  deriving DecidableEq, Inhabited

/-- A line, counted from one, and a column, counted from the last line break. -/
structure Position where
  /-- The line. -/
  line : Nat
  /-- The bytes since the last line break. -/
  column : Nat
  deriving DecidableEq, Inhabited

/-- The position behind one more byte. -/
def Position.next (p : Position) (byte : UInt8) : Position :=
  if byte = 10 then ⟨p.line + 1, 0⟩ else ⟨p.line, p.column + 1⟩

/-- The size of some characters in bytes. -/
def byteSize (cs : List Char) : Nat :=
  cs.foldl (fun size c => size + c.utf8Size) 0

/-- The position of a fault in the text that was read. -/
def Stop.position (stop : Stop) (text : String) : Position :=
  let index := text.utf8ByteSize - byteSize stop.rest + stop.past
  (text.toUTF8.toList.take index).foldl Position.next ⟨1, 0⟩

/-- A fault with its line and column. -/
def Stop.describe (stop : Stop) (text : String) : String :=
  let place := stop.position text
  stop.fault.message ++ " at line " ++ toString place.line ++ " column " ++ toString place.column

end DurableWorkflow.Json
