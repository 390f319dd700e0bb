import Sundial.Formula.Tree

/-!
# References between formulas

The keys that a formula refers to, anywhere in its tree, in the order of their first occurrence.
-/

set_option autoImplicit false

namespace Sundial.Formula

mutual

/-- The key of every reference, repetitions included, in reading order. -/
def mentions : Formula → List String
  | reference _ key => [key]
  | binary _ _ left right | condition _ _ left right => mentions left ++ mentions right
  | call _ _ args | customSpan _ args => mentionsAll args
  | ifThen _ c t => mentions c ++ mentions t
  | ifElse _ c t e => mentions c ++ mentions t ++ mentions e
  | primitive .. | duration .. | number .. | string .. | direction .. | span ..
  | circumstance .. => []

def mentionsAll : List Formula → List String
  | [] => []
  | a :: rest => mentions a ++ mentionsAll rest

end

/-- The list without later repetitions. -/
def firstOccurrences : List String → List String
  | [] => []
  | k :: ks => k :: (firstOccurrences ks).filter (· ≠ k)

def references (f : Formula) : List String := firstOccurrences (mentions f)

theorem mem_firstOccurrences {k : String} {ks : List String} :
    k ∈ firstOccurrences ks ↔ k ∈ ks := by
  induction ks with
  | nil => rfl
  | cons x xs ih =>
    simp only [firstOccurrences, List.mem_cons, List.mem_filter, ih, decide_eq_true_eq]
    by_cases h : k = x <;> simp [h]

theorem nodup_firstOccurrences (ks : List String) : (firstOccurrences ks).Nodup := by
  induction ks with
  | nil => exact List.nodup_nil
  | cons x xs ih =>
    refine List.nodup_cons.2 ⟨fun h => ?_, ih.sublist List.filter_sublist⟩
    simpa using (List.mem_filter.1 h).2

/-- A key is referred to exactly if some reference in the tree names it. -/
theorem mem_references {k : String} {f : Formula} : k ∈ references f ↔ k ∈ mentions f :=
  mem_firstOccurrences

end Sundial.Formula
