import Sundial.Number.Text
import Sundial.Text.Escape
import Sundial.Text.Layout

/-!
# Writing JSON

A JSON value is written over several lines, two blanks deeper for each level. `JsonText` is the text
of a value for every depth. Numbers that JSON cannot write are null.
-/

set_option autoImplicit false

namespace Sundial

/-- A number in a JSON document. -/
def jsonNumber (x : Float) : String :=
  if x.isFinite then numberText .json x else "null"

/-- The text of a value at a depth of nesting. The first line is not indented. -/
def JsonText := Nat → String

namespace JsonText

def string (s : String) : JsonText := fun _ => Text.jsonQuoted s
def number (x : Float) : JsonText := fun _ => jsonNumber x
def whole (n : Nat) : JsonText := fun _ => toString n
def boolean (b : Bool) : JsonText := fun _ => if b then "true" else "false"

def enclosed (opening closing : String) (parts : List JsonText) : JsonText := fun depth =>
  if parts.isEmpty then opening ++ closing
  else
    opening ++ "\n" ++
      ",\n".intercalate (parts.map fun p => Text.spaces (2 * (depth + 1)) ++ p (depth + 1)) ++
      "\n" ++ Text.spaces (2 * depth) ++ closing

def object (fields : List (String × JsonText)) : JsonText :=
  enclosed "\x7b" "\x7d"
    (fields.map fun f => fun depth => Text.jsonQuoted f.1 ++ ": " ++ f.2 depth)

def array (items : List JsonText) : JsonText :=
  enclosed "[" "]" items

/-- A whole document. -/
def document (j : JsonText) : String := j 0

end JsonText

end Sundial
