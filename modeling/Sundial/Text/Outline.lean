import Sundial.Text.Layout

/-!
# Outlines

An outline shows nested records over several lines: a head, then one line or more per part, each
four blanks deeper and ended by a comma. An outline is its text for every depth.
-/

set_option autoImplicit false

namespace Sundial.Text

/-- The text of a record at a depth of nesting. The first line is not indented. -/
def Outline := Nat → String

namespace Outline

def indent (depth : Nat) : String := spaces (4 * depth)

def atom (s : String) : Outline := fun _ => s

/-- Parts between an opening and a closing mark. -/
def enclosed (opening closing : String) (parts : List Outline) : Outline := fun depth =>
  opening ++ "\n" ++
    String.join (parts.map fun p => indent (depth + 1) ++ p (depth + 1) ++ ",\n") ++
    indent depth ++ closing

/-- A record with named fields. -/
def record (head : String) (fields : List (String × Outline)) : Outline :=
  enclosed (head ++ " \x7b") "\x7d" (fields.map fun f => fun depth => f.1 ++ ": " ++ f.2 depth)

/-- A head with unnamed parts in parentheses. -/
def wrapped (head : String) (parts : List Outline) : Outline :=
  enclosed (head ++ "(") ")" parts

def list (items : List Outline) : Outline :=
  if items.isEmpty then atom "[]" else enclosed "[" "]" items

end Outline

end Sundial.Text
