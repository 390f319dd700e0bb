import Sundial.FormulaSet.Order
import Sundial.Json.Literal

/-!
# Reading formula sets

A formula set is a JSON object whose values are strings. The members keep their order; a key that
occurs again keeps its first place and takes the last text.
-/

set_option autoImplicit false

namespace Sundial

namespace FormulaSet

open JsonLiteral

/-- The rest of a literal word. -/
def wordFault (kind expected : String) : List Char → Cursor → JsonError
  | [], c => ⟨.otherKind kind expected, c.offset⟩
  | w :: ws, c =>
    if c.rest.isEmpty then ⟨.unendedValue, c.offset⟩
    else if c.rest.head? = some w then wordFault kind expected ws c.next
    else ⟨.unknownWord, c.offset + 1⟩

def kindFault {α : Type} (expected : String) (kind : α → String) :
    Except JsonError (α × Cursor) → JsonError
  | .ok (a, c) => ⟨.otherKind (kind a) expected, c.offset⟩
  | .error e => e

/-- What is wrong with a value that is not what is expected. Words, numbers and strings are read to
their end first. -/
def valueFault (expected : String) (c : Cursor) : JsonError :=
  match c.rest with
  | [] => ⟨.unendedValue, c.offset⟩
  | d :: _ =>
    if d = 'n' then wordFault "null" expected "ull".toList c.next
    else if d = 't' then wordFault "boolean \x60true\x60" expected "rue".toList c.next
    else if d = 'f' then wordFault "boolean \x60false\x60" expected "alse".toList c.next
    else if d = '-' then kindFault expected Numeral.text (number true c.next)
    else if d.isDigit then kindFault expected Numeral.text (number false c)
    else if d = '"' then kindFault expected (fun s => "string " ++ Text.outlineQuoted s) (string c)
    else if d = '[' then ⟨.otherKind "sequence" expected, c.offset⟩
    else if d = '\x7b' then ⟨.otherKind "map" expected, c.offset⟩
    else ⟨.valueExpected, c.offset + 1⟩

/-- The colon and the value of a member. -/
def memberText (c : Cursor) : Except JsonError (String × Cursor) :=
  let c := c.skipBlanks
  match c.rest with
  | ':' :: _ =>
    let c := c.next.skipBlanks
    match c.rest with
    | '"' :: _ => string c
    | _ => .error (valueFault "a string" c)
  | [] => c.peeked .unendedObject
  | _ => c.peeked .colonExpected

/-- The members of an object up to its closing brace. Each takes up at least one character, so the
length of the document bounds their number. -/
def members : Nat → FormulaSet → Cursor → Except JsonError (FormulaSet × Cursor)
  | 0, _, c => c.passed .unendedObject
  | bound + 1, set, c => do
    let (key, c) ← string c
    let (text, c) ← memberText c
    let set := set.put key text
    let c := c.skipBlanks
    match c.rest with
    | '\x7d' :: _ => .ok (set, c.next)
    | ',' :: _ =>
      let c := c.next.skipBlanks
      match c.rest with
      | '"' :: _ => members bound set c
      | '\x7d' :: _ => c.peeked .trailingComma
      | [] => c.peeked .unendedValue
      | _ => c.peeked .keyExpected
    | [] => c.peeked .unendedObject
    | _ => c.peeked .commaExpected

/-- An object from its opening brace on. -/
def object (c : Cursor) : Except JsonError (FormulaSet × Cursor) :=
  let c := c.next.skipBlanks
  match c.rest with
  | '\x7d' :: _ => .ok (.empty, c.next)
  | '"' :: _ => members c.rest.length .empty c
  | [] => c.peeked .unendedObject
  | _ => c.peeked .keyExpected

/-- A whole document. -/
def ofDocument (document : String) : Except JsonError FormulaSet :=
  let c := Cursor.skipBlanks ⟨document.toList, 0⟩
  match c.rest with
  | '\x7b' :: _ => do
    let (set, c) ← object c
    let c := c.skipBlanks
    if c.rest.isEmpty then .ok set else c.peeked .trailingText
  | _ => .error (valueFault "a map" c)

/-- Reads a set; the message of a failure tells the place in the document. -/
def read (document : String) : Except String FormulaSet :=
  (ofDocument document).mapError (JsonError.text document)

end FormulaSet

end Sundial
