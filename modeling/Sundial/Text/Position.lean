/-!
# Positions in a text

A position is a line and a column, both counted from one. Only a line feed starts a new line, and
every other character, whatever its width, takes one column. `Position.advance` is the position
after a piece of text; it is additive in the text (`advance_append`).
-/

set_option autoImplicit false

namespace Sundial

structure Position where
  line : Nat
  column : Nat
  deriving DecidableEq, Repr

namespace Position

/-- The place of a text's first character. -/
def start : Position := ⟨1, 1⟩

/-- The position after one character. -/
def step (p : Position) (c : Char) : Position :=
  if c = '\n' then ⟨p.line + 1, 1⟩ else ⟨p.line, p.column + 1⟩

/-- The position after a piece of text that begins at `p`. -/
def advance (p : Position) (cs : List Char) : Position :=
  cs.foldl step p

@[simp] theorem advance_nil (p : Position) : p.advance [] = p := rfl

@[simp] theorem advance_cons (p : Position) (c : Char) (cs : List Char) :
    p.advance (c :: cs) = (p.step c).advance cs := rfl

theorem advance_append (p : Position) (as bs : List Char) :
    p.advance (as ++ bs) = (p.advance as).advance bs :=
  List.foldl_append

/-- `line:column`, as messages write a position. -/
def text (p : Position) : String :=
  s!"{p.line}:{p.column}"

end Position

end Sundial
