import Sundial.Text.Position

/-!
# Faults of JSON documents

A fault has a cause and a place. The reader works with offsets in bytes of UTF-8, and a place is
told by line and column: the lines that end before the offset, and the bytes since the last of them.
-/

set_option autoImplicit false

namespace Sundial

/-- Why a document is not the JSON that is asked for. -/
inductive JsonFault where
  /-- The document ends where a value is still to come. -/
  | unendedValue
  | unendedObject
  | unendedString
  /-- A word that begins like a literal is another word. -/
  | unknownWord
  | valueExpected
  | colonExpected
  | commaExpected
  | keyExpected
  | trailingComma
  | trailingText
  | badEscape
  | controlCharacter
  /-- Half of a surrogate pair in a place where the other half belongs. -/
  | loneSurrogate
  /-- The first half of a surrogate pair with no escape after it. -/
  | unendedPair
  | badNumber
  | numberOutOfRange
  /-- A value of another kind than the one asked for. -/
  | otherKind (found expected : String)
  deriving DecidableEq, Repr

namespace JsonFault

def message : JsonFault → String
  | unendedValue => "EOF while parsing a value"
  | unendedObject => "EOF while parsing an object"
  | unendedString => "EOF while parsing a string"
  | unknownWord => "expected ident"
  | valueExpected => "expected value"
  | colonExpected => "expected \x60:\x60"
  | commaExpected => "expected \x60,\x60 or \x60\x7d\x60"
  | keyExpected => "key must be a string"
  | trailingComma => "trailing comma"
  | trailingText => "trailing characters"
  | badEscape => "invalid escape"
  | controlCharacter => "control character (\\u0000-\\u001F) found while parsing a string"
  | loneSurrogate => "lone leading surrogate in hex escape"
  | unendedPair => "unexpected end of hex escape"
  | badNumber => "invalid number"
  | numberOutOfRange => "number out of range"
  | otherKind found expected => s!"invalid type: {found}, expected {expected}"

end JsonFault

/-- A fault and the number of bytes in front of its place. -/
structure JsonError where
  fault : JsonFault
  offset : Nat
  deriving DecidableEq, Repr

namespace JsonError

/-- The lines that end in the first `n` bytes, and the bytes after the last of them, counted on
from `line` and `column`. -/
def place (line column : Nat) : List Char → Nat → Nat × Nat
  | [], n => (line, column + n)
  | c :: cs, n =>
    if n = 0 then (line, column)
    else if n < c.utf8Size then (line, column + n)
    else if c = '\n' then place (line + 1) 0 cs (n - 1)
    else place line (column + c.utf8Size) cs (n - c.utf8Size)

/-- The fault with its place in the document. -/
def text (document : String) (e : JsonError) : String :=
  let (line, column) := place 1 0 document.toList e.offset
  s!"{e.fault.message} at line {line} column {column}"

end JsonError

/-- The part of a document that is not read yet, and the bytes in front of it. -/
structure Cursor where
  rest : List Char
  offset : Nat
  deriving DecidableEq, Repr

namespace Cursor

/-- Steps over the next character. -/
def next (c : Cursor) : Cursor :=
  match c.rest with
  | [] => c
  | d :: rest => ⟨rest, c.offset + d.utf8Size⟩

/-- A fault found by looking at the byte in front. -/
def peeked {α : Type} (c : Cursor) (fault : JsonFault) : Except JsonError α :=
  .error ⟨fault, if c.rest.isEmpty then c.offset else c.offset + 1⟩

/-- A fault found in what is already read. -/
def passed {α : Type} (c : Cursor) (fault : JsonFault) : Except JsonError α :=
  .error ⟨fault, c.offset⟩

/-- The cursor behind the first `n` characters, which are of one byte each. -/
def skip (c : Cursor) (n : Nat) : Cursor := ⟨c.rest.drop n, c.offset + n⟩

def isBlank (c : Char) : Bool := c = ' ' || c = '\n' || c = '\t' || c = '\r'

/-- Steps over the blanks that JSON allows between its parts. -/
def skipBlanks (c : Cursor) : Cursor :=
  c.skip (c.rest.takeWhile isBlank).length

end Cursor

end Sundial
