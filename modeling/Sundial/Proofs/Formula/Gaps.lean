import Sundial.Proofs.Formula.Scanning

/-!
# Gaps between tokens

What may stand between the tokens of a text: blanks, line comments with the line feed that ends
them, and block comments. Only at the end of the text a comment may be left open. The lexer passes
over gaps and nothing else (`isGap_splitGap`), and over every gap (`tokensFrom_gap`).
-/

set_option autoImplicit false

namespace Sundial

/-- What closes a block comment. -/
def commentEnd : List Char := ['*', '/']

/-- Blanks and comments, one after another. A comment that nothing closes needs the end of the
text behind it. -/
inductive IsGap (atEnd : Prop) : List Char → Prop where
  | nil : IsGap atEnd []
  | blank {c : Char} {cs : List Char} (hc : Text.isBlank c = true) (h : IsGap atEnd cs) :
      IsGap atEnd (c :: cs)
  | line {body cs : List Char} (hbody : '\n' ∉ body) (h : IsGap atEnd cs) :
      IsGap atEnd ('/' :: '/' :: (body ++ '\n' :: cs))
  | block {body cs : List Char} (hbody : ¬commentEnd <:+: body) (h : IsGap atEnd cs) :
      IsGap atEnd ('/' :: '*' :: (body ++ '*' :: '/' :: cs))
  | openLine {body : List Char} (hend : atEnd) (hbody : '\n' ∉ body) :
      IsGap atEnd ('/' :: '/' :: body)
  | openBlock {body : List Char} (hend : atEnd) (hbody : ¬commentEnd <:+: body) :
      IsGap atEnd ('/' :: '*' :: body)

variable {atEnd : Prop} {gap body cs : List Char} {c : Char}

theorem IsGap.mono {atEnd' : Prop} (h : IsGap atEnd gap) (himp : atEnd → atEnd') :
    IsGap atEnd' gap := by
  induction h with
  | nil => exact .nil
  | blank hc _ ih => exact .blank hc ih
  | line hbody _ ih => exact .line hbody ih
  | block hbody _ ih => exact .block hbody ih
  | openLine hend hbody => exact .openLine (himp hend) hbody
  | openBlock hend hbody => exact .openBlock (himp hend) hbody

theorem IsGap.of_blanks (h : ∀ c ∈ cs, Text.isBlank c = true) : IsGap atEnd cs := by
  induction cs with
  | nil => exact .nil
  | cons c cs ih =>
    rw [List.forall_mem_cons] at h
    exact .blank h.1 (ih h.2)

/-! ## What the lexer passes over -/

/-- How a gap starts that the lexer is in the middle of. -/
def GapState.opening : GapState → List Char
  | blank => []
  | lineComment => ['/', '/']
  | blockComment => ['/', '*']

/-- One more character in a line comment. -/
theorem IsGap.cons_line (h : IsGap atEnd ('/' :: '/' :: gap)) (hc : c ≠ '\n') :
    IsGap atEnd ('/' :: '/' :: c :: gap) := by
  generalize hgap : '/' :: '/' :: gap = whole at h
  cases h with
  | nil => cases hgap
  | blank hblank =>
    obtain ⟨rfl, -⟩ := List.cons.inj hgap
    exact absurd hblank (by decide)
  | @line body cs hbody h =>
    obtain ⟨-, hgap⟩ := List.cons.inj hgap
    obtain ⟨-, rfl⟩ := List.cons.inj hgap
    have hmore : '\n' ∉ c :: body := by simp [hc.symm, hbody]
    exact .line hmore h
  | openLine hend hbody =>
    obtain ⟨-, hgap⟩ := List.cons.inj hgap
    obtain ⟨-, rfl⟩ := List.cons.inj hgap
    have hmore : '\n' ∉ c :: gap := by simp [hc.symm, hbody]
    exact .openLine hend hmore
  | block | openBlock =>
    obtain ⟨-, hgap⟩ := List.cons.inj hgap
    cases hgap

/-- A character in front of a comment's text does not close the comment unless the text goes on
with a slash. -/
theorem not_commentEnd_infix_cons (hbody : ¬commentEnd <:+: body)
    (hc : c = '*' → body.head? ≠ some '/') : ¬commentEnd <:+: c :: body := by
  rw [List.infix_cons_iff]
  rintro (⟨rest, hrest⟩ | hinfix)
  · obtain ⟨rfl, rfl⟩ := List.cons.inj hrest
    exact hc rfl rfl
  · exact hbody hinfix

/-- One more character in a block comment. -/
theorem IsGap.cons_block (h : IsGap atEnd ('/' :: '*' :: gap))
    (hc : c = '*' → gap.head? ≠ some '/') : IsGap atEnd ('/' :: '*' :: c :: gap) := by
  generalize hgap : '/' :: '*' :: gap = whole at h
  cases h with
  | nil => cases hgap
  | blank hblank =>
    obtain ⟨rfl, -⟩ := List.cons.inj hgap
    exact absurd hblank (by decide)
  | @block body cs hbody h =>
    obtain ⟨-, hgap⟩ := List.cons.inj hgap
    obtain ⟨-, rfl⟩ := List.cons.inj hgap
    have hmore : ¬commentEnd <:+: c :: body := by
      refine not_commentEnd_infix_cons hbody fun hstar => ?_
      have hhead := hc hstar
      cases body with
      | nil => simp
      | cons d body => simpa using hhead
    exact .block hmore h
  | openBlock hend hbody =>
    obtain ⟨-, hgap⟩ := List.cons.inj hgap
    obtain ⟨-, rfl⟩ := List.cons.inj hgap
    exact .openBlock hend (not_commentEnd_infix_cons hbody hc)
  | line | openLine =>
    obtain ⟨-, hgap⟩ := List.cons.inj hgap
    cases hgap

/-- What the lexer passes over is a gap, and an open comment only if nothing is left behind it. -/
theorem isGap_splitGap (s : GapState) (cs : List Char) :
    IsGap ((splitGap s cs).2 = []) (s.opening ++ (splitGap s cs).1) := by
  fun_induction splitGap s cs with
  | case1 s =>
    cases s with
    | blank => exact .nil
    | lineComment => exact .openLine rfl (by simp)
    | blockComment => exact .openBlock rfl (by simp [commentEnd])
  | case2 cs gap rest heq ih | case3 cs gap rest heq ih =>
    rw [heq] at ih
    exact ih
  | case4 c cs _ _ hblank gap rest heq ih =>
    rw [heq] at ih
    exact .blank hblank ih
  | case5 => exact .nil
  | case6 c cs gap rest heq ih =>
    rw [heq] at ih
    by_cases hc : c = '\n'
    · subst hc
      exact .line (List.not_mem_nil : '\n' ∉ []) ih
    · rw [if_neg hc] at ih
      exact ih.cons_line hc
  | case7 cs gap rest heq ih =>
    rw [heq] at ih
    exact .block (by simp [commentEnd] : ¬commentEnd <:+: []) ih
  | case8 c cs hclose gap rest heq ih =>
    have hcs := gap_append .blockComment cs
    rw [heq] at ih hcs
    refine ih.cons_block fun hstar hslash => ?_
    obtain ⟨gap', rfl⟩ := List.head?_eq_some_iff.1 hslash
    exact hclose (gap' ++ rest) hstar hcs.symm

theorem isGap_of_splitGap {rest : List Char} (h : splitGap .blank cs = (gap, rest)) :
    IsGap (rest = []) gap ∧ cs = gap ++ rest := by
  have hgap := isGap_splitGap .blank cs
  have hcs := gap_append .blank cs
  rw [h] at hgap hcs
  exact ⟨hgap, hcs.symm⟩

/-! ## What stands between tokens -/

theorem splitGap_line (hbody : '\n' ∉ body) (cs : List Char) :
    splitGap .lineComment (body ++ '\n' :: cs) =
      (body ++ '\n' :: (splitGap .blank cs).1, (splitGap .blank cs).2) := by
  induction body with
  | nil => rfl
  | cons c body ih =>
    rw [List.mem_cons, not_or] at hbody
    rw [List.cons_append, splitGap, if_neg (Ne.symm hbody.1), ih hbody.2]
    rfl

theorem splitGap_block (hbody : ¬commentEnd <:+: body) (cs : List Char) :
    splitGap .blockComment (body ++ '*' :: '/' :: cs) =
      (body ++ '*' :: '/' :: (splitGap .blank cs).1, (splitGap .blank cs).2) := by
  induction body with
  | nil => rfl
  | cons c body ih =>
    rw [List.infix_cons_iff, not_or] at hbody
    have hopen : ∀ rest, c = '*' → body ++ '*' :: '/' :: cs = '/' :: rest → False := by
      rintro rest rfl hrest
      cases body with
      | nil => cases hrest
      | cons d body =>
        obtain ⟨rfl, -⟩ := List.cons.inj hrest
        exact hbody.1 ⟨body, rfl⟩
    rw [List.cons_append, splitGap, ih hbody.2]
    · rfl
    · exact hopen

/-- A gap between tokens is passed over, and whatever of a gap comes behind it. -/
theorem splitGap_gap (h : IsGap False gap) (cs : List Char) :
    splitGap .blank (gap ++ cs) = (gap ++ (splitGap .blank cs).1, (splitGap .blank cs).2) := by
  induction h with
  | nil => rfl
  | blank hc _ ih => rw [List.cons_append, splitGap_blank hc, ih, List.cons_append]
  | @line body gap hbody _ ih =>
    have hassoc : '/' :: '/' :: (body ++ '\n' :: gap) ++ cs =
        '/' :: '/' :: (body ++ '\n' :: (gap ++ cs)) := by simp
    rw [hassoc, splitGap, splitGap_line hbody, ih]
    simp
  | @block body gap hbody _ ih =>
    have hassoc : '/' :: '*' :: (body ++ '*' :: '/' :: gap) ++ cs =
        '/' :: '*' :: (body ++ '*' :: '/' :: (gap ++ cs)) := by simp
    rw [hassoc, splitGap, splitGap_block hbody, ih]
    simp
  | openLine hend | openBlock hend => exact hend.elim

/-- A text starts with one gap only, up to what is no gap. -/
theorem gap_unique {gap' cs' : List Char} (h : IsGap False gap) (h' : IsGap False gap')
    (hcs : splitGap .blank cs = ([], cs)) (hcs' : splitGap .blank cs' = ([], cs'))
    (htext : gap ++ cs = gap' ++ cs') : gap = gap' ∧ cs = cs' := by
  have hgap := splitGap_gap h cs
  have hgap' := splitGap_gap h' cs'
  rw [hcs] at hgap
  rw [hcs', ← htext, hgap] at hgap'
  simpa using hgap'

/-- The tokens behind a gap are those of the text that is left of it. -/
theorem tokensFrom_gap (h : IsGap False gap) (pos : Position) (cs : List Char) :
    tokensFrom pos (gap ++ cs) = tokensFrom (pos.advance gap) cs := by
  have hgap := splitGap_gap h cs
  rcases hcs : splitGap .blank cs with ⟨inner, _ | ⟨c, tail⟩⟩
  · rw [hcs] at hgap
    rw [tokensFrom_of_end hgap, tokensFrom_of_end hcs, Position.advance_append]
  · rw [hcs] at hgap
    rw [tokensFrom_of_gap hgap, tokensFrom_of_gap hcs, Position.advance_append]

end Sundial
