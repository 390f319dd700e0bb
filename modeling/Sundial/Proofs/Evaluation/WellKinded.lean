import Mathlib.Data.List.Basic
import Sundial.Evaluation.Evaluate
import Sundial.Formula.Checking
import Sundial.Proofs.Formula.Shape

/-!
# Formulas whose kinds fit

`WellKinded` says once, with a rule for each form of formula, where the kinds of its parts fit
together, as far as checking sees to it: a formula without static faults is well-kinded
(`wellKinded_of_faults`). Of the operands of an operation checking refuses some, but not all that
the operator does not accept; those that are left are the `misfit?` ones.
-/

set_option autoImplicit false

namespace Sundial

/-- A kind whose values the relation compares. -/
def Relation.Compares (relation : Relation) (k : ValueKind) : Prop :=
  k = .number ∨ k = .duration ∨ (k = .string ∧ relation.isEquality = true)

namespace Formula

inductive WellKinded : Formula → Prop
  | primitive (pos : Position) (event : Primitive) : WellKinded (primitive pos event)
  | duration (pos : Position) (minutes : Float) (literal : String) :
      WellKinded (duration pos minutes literal)
  | number (pos : Position) (value : Float) : WellKinded (number pos value)
  | string (pos : Position) (value : String) : WellKinded (string pos value)
  | reference (pos : Position) (key : String) : WellKinded (reference pos key)
  | circumstance (pos : Position) (v : Circumstance) : WellKinded (circumstance pos v)
  | binary (pos : Position) (op : Operator) (left right : Formula) (hl : WellKinded left)
      (hr : WellKinded right) (hop : operatorFaults pos op left.kind right.kind = []) :
      WellKinded (binary pos op left right)
  | ifThen (pos : Position) (c t : Formula) (hc : WellKinded c) (ht : WellKinded t)
      (hboolean : c.kind = .boolean) : WellKinded (ifThen pos c t)
  | ifElse (pos : Position) (c t e : Formula) (hc : WellKinded c) (ht : WellKinded t)
      (he : WellKinded e) (hboolean : c.kind = .boolean) (hsame : e.kind = t.kind) :
      WellKinded (ifElse pos c t e)
  | connective (pos : Position) (relation : Relation) (left right : Formula)
      (hlogical : relation.isLogical = true) (hl : WellKinded left) (hr : WellKinded right)
      (hleft : left.kind = .boolean) (hright : right.kind = .boolean) :
      WellKinded (condition pos relation left right)
  | comparison (pos : Position) (relation : Relation) (left right : Formula)
      (hlogical : relation.isLogical = false) (hl : WellKinded left) (hr : WellKinded right)
      (hsame : left.kind = right.kind) (hcompares : relation.Compares left.kind) :
      WellKinded (condition pos relation left right)
  | solar (pos dirPos : Position) (degrees : Formula) (d : Direction) (hd : WellKinded degrees)
      (hnumber : degrees.kind = .number) :
      WellKinded (call pos .solar [degrees, direction dirPos d])
  | spanHour (pos basePos : Position) (hours : Formula) (b : DaySpan) (hh : WellKinded hours)
      (hnumber : hours.kind = .number) :
      WellKinded (call pos .proportionalHours [hours, span basePos b])
  | customHour (pos basePos : Position) (hours first second : Formula) (hh : WellKinded hours)
      (hf : WellKinded first) (hs : WellKinded second) (hnumber : hours.kind = .number)
      (hstart : first.kind = .time) (hend : second.kind = .time) :
      WellKinded (call pos .proportionalHours [hours, customSpan basePos [first, second]])
  | midpoint (pos : Position) (first second : Formula) (hf : WellKinded first)
      (hs : WellKinded second) (hfirst : first.kind = .time) (hsecond : second.kind = .time) :
      WellKinded (call pos .midpoint [first, second])

/-! ## What each rule of the check asks for -/

variable {scope : Scope} {f : Formula} {inside : List SemanticError}

theorem kindFaults_eq_nil {wanted : ValueKind} {fault : ValueKind → SemanticFault} :
    kindFaults f wanted fault = [] ↔ f.kind = wanted := by
  rw [kindFaults]
  split <;> simp_all

/-- A literal needs no further look: it is a number. -/
theorem of_numberFaults {P : Formula → Prop} {argument : NumberArgument}
    (h : numberFaults argument f inside = []) (hliteral : ∀ pos value, P (number pos value))
    (hf : inside = [] → P f) : P f ∧ f.kind = .number := by
  cases f with
  | number pos value => exact ⟨hliteral pos value, rfl⟩
  | _ =>
    obtain ⟨hinside, hkind⟩ := List.append_eq_nil_iff.1 h
    exact ⟨hf hinside, kindFaults_eq_nil.1 hkind⟩

theorem exists_direction_of_faults (h : directionFaults f inside = []) :
    ∃ pos d, f = direction pos d := by
  cases f with
  | direction pos d => exact ⟨pos, d, rfl⟩
  | _ => cases h

theorem exists_span_of_faults (h : baseFaults f inside = []) : ∃ pos b, f = span pos b := by
  cases f with
  | span pos b => exact ⟨pos, b, rfl⟩
  | _ => cases h

theorem compares_of_comparisonFaults {pos : Position} {relation : Relation} {left right : ValueKind}
    (h : comparisonFaults pos relation left right = []) :
    left = right ∧ relation.Compares left := by
  unfold comparisonFaults at h
  by_cases hsame : left = right
  · subst hsame
    refine ⟨rfl, ?_⟩
    cases left with
    | number => exact .inl rfl
    | duration => exact .inr (.inl rfl)
    | string =>
      cases hequality : relation.isEquality with
      | true => exact .inr (.inr ⟨rfl, hequality⟩)
      | false => simp [hequality] at h
    | time | boolean => simp at h
  · rw [if_pos hsame] at h
    cases h

/-- The faults of circumstances come in addition to those of the comparison. -/
theorem compares_of_relationFaults {pos : Position} {relation : Relation} {left right : Formula}
    (hr : relation.isLogical = false) (h : relationFaults pos relation left right = []) :
    left.kind = right.kind ∧ relation.Compares left.kind := by
  rw [relationFaults, if_neg (by simp [hr])] at h
  split at h
  · exact compares_of_comparisonFaults h
  next hne => exact absurd h hne

theorem boolean_of_relationFaults {pos : Position} {relation : Relation} {left right : Formula}
    (hr : relation.isLogical = true) (h : relationFaults pos relation left right = []) :
    left.kind = .boolean ∧ right.kind = .boolean := by
  rw [relationFaults, if_pos hr] at h
  simpa [List.flatMap_eq_nil_iff] using h

/-! ## Checked formulas -/

/-- The operands of an operation are of kinds that its operator accepts. -/
def operandsFit : Formula → Bool
  | binary _ op left right => (op.resultKind? left.kind right.kind).isSome
  | _ => true

/-- What an operation fails with if its operator does not accept its operands. -/
def misfit? : Formula → Option RuntimeError
  | binary pos op left right =>
    match op.resultKind? left.kind right.kind with
    | some _ => none
    | none => some ⟨.badOperands op left.kind right.kind, pos⟩
  | _ => none

theorem misfit?_eq_none (h : f.operandsFit = true) : f.misfit? = none := by
  cases f with
  | binary pos op left right =>
    obtain ⟨k, hk⟩ := Option.isSome_iff_exists.1 h
    rw [misfit?, hk]
  | _ => rfl

theorem wellKinded_of_faults (f : Formula) (h : faults scope f = []) : WellKinded f := by
  -- Along evaluation, as it goes from a call straight to the bounds of its base.
  induction f using eval.induct with
  | case1 pos event => exact .primitive pos event
  | case2 pos minutes literal => exact .duration pos minutes literal
  | case3 pos value => exact .number pos value
  | case4 pos value => exact .string pos value
  | case5 pos key => exact .reference pos key
  | case6 | case7 | case8 =>
    rw [faults] at h
    cases h
  | case9 pos v => exact .circumstance pos v
  | case10 pos op left right ihl ihr =>
    simp only [faults, List.append_eq_nil_iff] at h
    exact .binary pos op left right (ihl h.1.1) (ihr h.1.2) h.2
  | case11 pos c t ihc iht =>
    simp only [faults, List.append_eq_nil_iff, kindFaults_eq_nil] at h
    exact .ifThen pos c t (ihc h.1.1) (iht h.2) h.1.2
  | case12 pos c t e ihc iht ihe =>
    simp only [faults, List.append_eq_nil_iff, kindFaults_eq_nil] at h
    obtain ⟨⟨⟨⟨hcondition, hboolean⟩, hthen⟩, helse⟩, hsame⟩ := h
    exact .ifElse pos c t e (ihc hcondition) (iht hthen) (ihe helse) hboolean hsame
  | case13 pos relation left right hlogical ihl ihr =>
    simp only [faults, List.append_eq_nil_iff] at h
    obtain ⟨hleft, hright⟩ := boolean_of_relationFaults hlogical h.2
    exact .connective pos relation left right hlogical (ihl h.1.1) (ihr h.1.2) hleft hright
  | case14 pos relation left right hlogical ihl ihr =>
    simp only [faults, List.append_eq_nil_iff] at h
    rw [Bool.not_eq_true] at hlogical
    obtain ⟨hsame, hcompares⟩ := compares_of_relationFaults hlogical h.2
    exact .comparison pos relation left right hlogical (ihl h.1.1) (ihr h.1.2) hsame hcompares
  | case15 pos degrees crossing ih =>
    simp only [faults, List.append_eq_nil_iff] at h
    obtain ⟨hd, hnumber⟩ := of_numberFaults h.1 .number ih
    obtain ⟨dirPos, d, rfl⟩ := exists_direction_of_faults h.2
    exact .solar pos dirPos degrees d hd hnumber
  | case16 pos hours basePos first second ihh ihf ihs =>
    simp only [faults, boundFaults, List.append_eq_nil_iff, kindFaults_eq_nil] at h
    obtain ⟨hh, hnumber⟩ := of_numberFaults h.1 .number ihh
    obtain ⟨-, ⟨hfirst, hstart⟩, ⟨hsecond, hend⟩, -⟩ := h.2
    exact .customHour pos basePos hours first second hh (ihf hfirst) (ihs hsecond)
      hnumber hstart hend
  | case17 pos hours base hbase ih =>
    cases base with
    | customSpan basePos bounds =>
      simp only [faults, List.append_eq_nil_iff] at h
      by_cases hlength : bounds.length = 2
      · obtain ⟨first, second, rfl⟩ := List.length_eq_two.1 hlength
        exact absurd rfl (hbase basePos first second)
      · rw [if_neg hlength] at h
        cases h.2.1
    | span basePos b =>
      simp only [faults, List.append_eq_nil_iff] at h
      obtain ⟨hh, hnumber⟩ := of_numberFaults h.1 .number ih
      exact .spanHour pos basePos hours b hh hnumber
    | _ =>
      simp only [faults, List.append_eq_nil_iff] at h
      obtain ⟨basePos, b, hspan⟩ := exists_span_of_faults h.2
      cases hspan
  | case18 pos first second ihf ihs =>
    simp only [faults, List.append_eq_nil_iff, kindFaults_eq_nil] at h
    exact .midpoint pos first second (ihf h.1.1) (ihs h.2.1) h.1.2 h.2.2
  | case19 pos function args h₁ h₂ h₃ h₄ =>
    rw [faults] at h
    · cases h
    · exact h₁
    · exact fun hours basePos bounds => h₃ hours (customSpan basePos bounds)
    · exact h₃
    · exact h₄

/-- What is below a well-kinded formula is well-kinded as well, words in argument places aside. -/
theorem WellKinded.nodes (h : WellKinded f) :
    ∀ g ∈ f.nodes, WellKinded g ∨ g.isPlaceWord = true := by
  induction h with
  | binary pos op left right hl hr hop ihl ihr =>
    exact forall_nodes_binary.2 ⟨.inl (.binary pos op left right hl hr hop), ihl, ihr⟩
  | ifThen pos c t hc ht hboolean ihc iht =>
    exact forall_nodes_ifThen.2 ⟨.inl (.ifThen pos c t hc ht hboolean), ihc, iht⟩
  | ifElse pos c t e hc ht he hboolean hsame ihc iht ihe =>
    exact forall_nodes_ifElse.2 ⟨.inl (.ifElse pos c t e hc ht he hboolean hsame), ihc, iht, ihe⟩
  | connective pos relation left right hlogical hl hr hleft hright ihl ihr =>
    exact forall_nodes_condition.2
      ⟨.inl (.connective pos relation left right hlogical hl hr hleft hright), ihl, ihr⟩
  | comparison pos relation left right hlogical hl hr hsame hcompares ihl ihr =>
    exact forall_nodes_condition.2
      ⟨.inl (.comparison pos relation left right hlogical hl hr hsame hcompares), ihl, ihr⟩
  | solar pos dirPos degrees d hd hnumber ih =>
    refine forall_nodes_call.2 ⟨.inl (.solar pos dirPos degrees d hd hnumber), ?_⟩
    simpa [Formula.nodes, isPlaceWord] using ih
  | spanHour pos basePos hours b hh hnumber ih =>
    refine forall_nodes_call.2 ⟨.inl (.spanHour pos basePos hours b hh hnumber), ?_⟩
    simpa [Formula.nodes, isPlaceWord] using ih
  | customHour pos basePos hours first second hh hf hs hnumber hstart hend ihh ihf ihs =>
    refine forall_nodes_call.2
      ⟨.inl (.customHour pos basePos hours first second hh hf hs hnumber hstart hend), ?_⟩
    simp only [List.forall_mem_cons, forall_nodes_customSpan]
    exact ⟨ihh, ⟨.inr rfl, ihf, ihs, by simp⟩, by simp⟩
  | midpoint pos first second hf hs hfirst hsecond ihf ihs =>
    refine forall_nodes_call.2 ⟨.inl (.midpoint pos first second hf hs hfirst hsecond), ?_⟩
    simpa using ⟨ihf, ihs⟩
  | _ =>
    rw [Formula.nodes, List.forall_mem_singleton]
    · exact .inl (by constructor)
    all_goals simp

end Formula

end Sundial
