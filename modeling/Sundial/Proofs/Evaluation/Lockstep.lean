import Sundial.Proofs.Evaluation.Afresh
import Sundial.Proofs.Evaluation.Steps
import Sundial.Proofs.Formula.Shape

/-!
# Evaluation with and without memory, step by step

Evaluation with what is known and evaluation without memory take the same steps, apart from the
questions to the sky, the references and the calls. A relation between computations that goes along
with the steps therefore relates the two evaluations of a formula, as soon as it does so at the
formula's references and calls: `Lockstep.eval`. What is to be shown of one evaluation alone is a
relation that does not look at the other. The steps of a formula are at the positions of its nodes,
and only there the relation is asked to hold.
-/

set_option autoImplicit false

namespace Sundial

open Evaluating

/-- The relation holds between the steps of both evaluations at the positions with the property, and
is kept when computations follow one another. No step but a reference fails for want of a time. -/
structure Lockstep (P : Position → Prop)
    (R : ∀ {α : Type}, Evaluating α → Evaluating α → Prop) : Prop where
  value : ∀ {α : Type} (a : α), R (pure a) (pure a)
  andThen : ∀ {α β : Type} {m m' : Evaluating α} {k k' : α → Evaluating β},
    R m m' → (∀ a, R (k a) (k' a)) → R (m >>= k) (m' >>= k')
  fault : ∀ {α : Type} {cause : RuntimeFault} (pos : Position), P pos →
    cause.isUndefinedReference = false → R (fail cause pos : Evaluating (Option α)) (fail cause pos)
  primitive : ∀ p pos, P pos → R (primitive p pos) (Afresh.primitive p pos)
  circumstance : ∀ v, R (circumstance v) (Afresh.circumstance v)
  solarTime : ∀ degrees direction pos, P pos →
    R (solarTime degrees direction pos) (Afresh.solarTime degrees direction pos)

namespace Lockstep

variable {P : Position → Prop} {R : ∀ {α : Type}, Evaluating α → Evaluating α → Prop}
  {α β : Type} {pos : Position}

/-! ## Derived steps -/

theorem settled (hR : Lockstep P R) {m : Position → Evaluating (Option α)} (h : Settles m)
    (hpos : P pos) : R (m pos) (m pos) := by
  rcases h with ⟨a, h⟩ | ⟨cause, hcause, h⟩
  · rw [h]
    exact hR.value _
  · rw [h]
    exact hR.fault pos hpos hcause

/-- An operand is checked the same way on both sides. -/
theorem operand (hR : Lockstep P R) {expect : Position → Option Value → Evaluating (Option α)}
    (h : Expects expect) (hpos : P pos) (v : Option Value) : R (expect pos v) (expect pos v) := by
  cases v with
  | none =>
    rw [h.none]
    exact hR.value _
  | some v => exact hR.settled (h.some v) hpos

theorem hour (hR : Lockstep P R) (ends : Option (Time × Time)) (count : Option Float)
    (hpos : P pos) :
    R (match count, ends with
        | some count, some ends => hourTime ends count pos
        | _, _ => pure none)
      (match count, ends with
        | some count, some ends => hourTime ends count pos
        | _, _ => pure none) := by
  cases count <;> cases ends
  case some.some count ends => exact hR.settled (settles_hourTime ends count) hpos
  all_goals exact hR.value _

theorem span (hR : Lockstep P R) (b : DaySpan) (hpos : P pos) :
    R (spanEnds b pos) (Afresh.spanEnds b pos) := by
  apply hR.andThen (hR.primitive .sunrise pos hpos)
  intro rise
  apply hR.andThen (hR.primitive .sunset pos hpos)
  intro set
  cases rise <;> cases set
  case some.some rise set =>
    have hset := hR.settled (settles_shift set b.margin) hpos
    apply hR.andThen (hR.settled (settles_shift rise (-b.margin)) hpos)
    intro start
    cases start <;> exact hR.andThen hset fun _ => hR.value _
  all_goals exact hR.value _

theorem direction (hR : Lockstep P R) {f : Formula} (hpos : P f.pos) :
    R (directionOf f) (directionOf f) := by
  cases f with
  | direction => exact hR.value _
  | _ => exact hR.fault _ hpos rfl

/-! ## Formulas -/

open Formula

/-- What is asked of the nodes of a formula: that the relation holds at the references, and at the
calls for whatever is computed in them. -/
def Meets (R : ∀ {α : Type}, Evaluating α → Evaluating α → Prop) : Formula → Prop
  | reference pos key => R (reference pos key).eval (reference pos key).evalAfresh
  | call pos function args => ∀ m m' : Evaluating (Option Time), R m m' →
      (call pos function args).evalAfresh = Afresh.call (call pos function args).text m' →
      R (throughResults (call pos function args).text m) (call pos function args).evalAfresh
  | _ => True

section Calls

variable {a b c : Formula} {basePos : Position}

theorem solar (hR : Lockstep P R) (h : Meets R (call pos .solar [a, b]))
    (hposa : P a.pos) (hposb : P b.pos) (ha : R a.eval a.evalAfresh) :
    R (call pos .solar [a, b]).eval (call pos .solar [a, b]).evalAfresh := by
  rw [Formula.eval]
  refine h _ _ ?_ (by rw [evalAfresh])
  refine hR.andThen ha fun v => hR.andThen (hR.operand (expects_number _) hposa v) fun x => ?_
  apply hR.andThen (hR.direction hposb)
  intro d
  cases x <;> cases d
  case some.some x d => exact hR.solarTime x d _ hposa
  all_goals exact hR.value _

theorem customHour (hR : Lockstep P R)
    (h : Meets R (call pos .proportionalHours [a, customSpan basePos [b, c]]))
    (hposa : P a.pos) (hposb : P b.pos) (hposc : P c.pos)
    (ha : R a.eval a.evalAfresh) (hb : R b.eval b.evalAfresh) (hc : R c.eval c.evalAfresh) :
    R (call pos .proportionalHours [a, customSpan basePos [b, c]]).eval
      (call pos .proportionalHours [a, customSpan basePos [b, c]]).evalAfresh := by
  rw [Formula.eval]
  refine h _ _ ?_ (by rw [evalAfresh])
  refine hR.andThen ha fun v => hR.andThen (hR.operand (expects_number _) hposa v) fun count => ?_
  refine hR.andThen hb fun v => hR.andThen (hR.operand (expects_time _) hposb v) fun start => ?_
  refine hR.andThen hc fun v => hR.andThen (hR.operand (expects_time _) hposc v) fun finish => ?_
  cases count <;> cases start <;> cases finish
  case some.some.some count start finish =>
    exact hR.settled (settles_hourTime (start, finish) count) hposa
  all_goals exact hR.value _

/-- A base without two bounds of its own is a named span, or fails. -/
theorem baseHour (hR : Lockstep P R) (h : Meets R (call pos .proportionalHours [a, b]))
    (hb : ∀ basePos first second, b = customSpan basePos [first, second] → False)
    (hposa : P a.pos) (hposb : P b.pos) (ha : R a.eval a.evalAfresh) :
    R (call pos .proportionalHours [a, b]).eval
      (call pos .proportionalHours [a, b]).evalAfresh := by
  rw [Formula.eval]
  · refine h _ _ ?_ (by rw [evalAfresh]; exact hb)
    refine hR.andThen ha fun v => hR.andThen (hR.operand (expects_number _) hposa v) fun count => ?_
    cases b with
    | span basePos d => exact hR.andThen (hR.span d hposb) fun ends => hR.hour ends count hposa
    | _ => exact hR.andThen (hR.fault _ hposb rfl) fun ends => hR.hour ends count hposa
  · exact hb

theorem midpoint (hR : Lockstep P R) (h : Meets R (call pos .midpoint [a, b]))
    (hposa : P a.pos) (hposb : P b.pos) (ha : R a.eval a.evalAfresh) (hb : R b.eval b.evalAfresh) :
    R (call pos .midpoint [a, b]).eval (call pos .midpoint [a, b]).evalAfresh := by
  rw [Formula.eval]
  refine h _ _ ?_ (by rw [evalAfresh])
  refine hR.andThen ha fun v => hR.andThen (hR.operand (expects_time _) hposa v) fun first => ?_
  refine hR.andThen hb fun v => hR.andThen (hR.operand (expects_time _) hposb v) fun second => ?_
  cases first <;> cases second
  all_goals exact hR.value _

end Calls

/-- The relation holds between the two evaluations of a formula whose nodes meet what is asked, if
they are at positions with the property. -/
theorem eval (hR : Lockstep P R) (f : Formula) (h : ∀ g ∈ f.nodes, P g.pos ∧ Meets R g) :
    R f.eval f.evalAfresh := by
  induction f using eval.induct with
  | case1 pos event =>
    have hpos := (h _ (self_mem_nodes _)).1
    rw [Formula.eval, evalAfresh]
    exact hR.andThen (hR.primitive event pos hpos) fun _ => hR.value _
  | case2 | case3 | case4 => exact hR.value _
  | case5 pos key => exact (h _ (self_mem_nodes _)).2
  | case6 | case7 | case8 => exact hR.fault _ (h _ (self_mem_nodes _)).1 rfl
  | case9 pos v =>
    rw [Formula.eval, evalAfresh]
    exact hR.andThen (hR.circumstance v) fun _ => hR.value _
  | case10 pos op left right ihl ihr =>
    obtain ⟨⟨hpos, -⟩, hl, hr⟩ := forall_nodes_binary.1 h
    rw [Formula.eval, evalAfresh]
    apply hR.andThen (ihl hl)
    intro l
    apply hR.andThen (ihr hr)
    intro r
    cases l <;> cases r
    case some.some l r => exact hR.settled (settles_operate op l r) hpos
    all_goals exact hR.value _
  | case11 pos c t ihc iht =>
    obtain ⟨⟨hpos, -⟩, hc, ht⟩ := forall_nodes_ifThen.1 h
    rw [Formula.eval, evalAfresh]
    apply hR.andThen (ihc hc)
    intro v
    rcases v with _ | v
    · exact hR.value _
    cases v with
    | boolean b =>
      cases b with
      | true => exact iht ht
      | false => exact hR.fault _ hpos rfl
    | _ => exact hR.fault _ (hc _ (self_mem_nodes c)).1 rfl
  | case12 pos c t e ihc iht ihe =>
    obtain ⟨-, hc, ht, he⟩ := forall_nodes_ifElse.1 h
    rw [Formula.eval, evalAfresh]
    apply hR.andThen (ihc hc)
    intro v
    rcases v with _ | v
    · exact hR.value _
    cases v with
    | boolean b =>
      cases b with
      | true => exact iht ht
      | false => exact ihe he
    | _ => exact hR.fault _ (hc _ (self_mem_nodes c)).1 rfl
  | case13 pos relation left right hlogical ihl ihr =>
    obtain ⟨-, hl, hr⟩ := forall_nodes_condition.1 h
    have hposl := (hl _ (self_mem_nodes left)).1
    have hposr := (hr _ (self_mem_nodes right)).1
    rw [Formula.eval, evalAfresh, if_pos hlogical, if_pos hlogical]
    refine hR.andThen (ihl hl) fun l => ?_
    refine hR.andThen (hR.operand (expects_boolean _) hposl l) fun l => ?_
    rcases l with _ | l
    · exact hR.value _
    -- A left side that decides the answer leaves the right side out.
    dsimp only
    split
    · exact hR.value _
    split
    · exact hR.value _
    · refine hR.andThen (ihr hr) fun r => ?_
      exact hR.andThen (hR.operand (expects_boolean _) hposr r) fun _ => hR.value _
  | case14 pos relation left right hlogical ihl ihr =>
    obtain ⟨⟨hpos, -⟩, hl, hr⟩ := forall_nodes_condition.1 h
    rw [Formula.eval, evalAfresh, if_neg hlogical, if_neg hlogical]
    apply hR.andThen (ihl hl)
    intro l
    apply hR.andThen (ihr hr)
    intro r
    cases l <;> cases r
    case some.some l r => exact hR.settled (settles_compare relation l r) hpos
    all_goals exact hR.value _
  | case15 pos degrees crossing ih =>
    obtain ⟨⟨-, hcall⟩, hargs⟩ := forall_nodes_call.1 h
    have hpos := fun a ha => (hargs a ha a (self_mem_nodes a)).1
    exact hR.solar hcall (hpos degrees (by simp)) (hpos crossing (by simp))
      (ih (hargs _ (by simp)))
  | case16 pos hours basePos first second ihh ihf ihs =>
    obtain ⟨⟨-, hcall⟩, hargs⟩ := forall_nodes_call.1 h
    obtain ⟨-, hbounds⟩ := forall_nodes_customSpan.1
      (hargs (customSpan basePos [first, second]) (by simp))
    have hpos := fun a ha => (hbounds a ha a (self_mem_nodes a)).1
    exact hR.customHour hcall (hargs hours (by simp) hours (self_mem_nodes hours)).1
      (hpos first (by simp)) (hpos second (by simp)) (ihh (hargs _ (by simp)))
      (ihf (hbounds first (by simp))) (ihs (hbounds second (by simp)))
  | case17 pos hours base hbase ih =>
    obtain ⟨⟨-, hcall⟩, hargs⟩ := forall_nodes_call.1 h
    have hpos := fun a ha => (hargs a ha a (self_mem_nodes a)).1
    exact hR.baseHour hcall hbase (hpos hours (by simp)) (hpos base (by simp))
      (ih (hargs _ (by simp)))
  | case18 pos first second ihf ihs =>
    obtain ⟨⟨-, hcall⟩, hargs⟩ := forall_nodes_call.1 h
    have hpos := fun a ha => (hargs a ha a (self_mem_nodes a)).1
    exact hR.midpoint hcall (hpos first (by simp)) (hpos second (by simp))
      (ihf (hargs _ (by simp))) (ihs (hargs _ (by simp)))
  | case19 pos function args h₁ h₂ h₃ h₄ =>
    obtain ⟨⟨hpos, hcall⟩, -⟩ := forall_nodes_call.1 h
    rw [Formula.eval]
    · refine hcall _ _ (hR.fault _ hpos rfl) ?_
      rw [evalAfresh]
      all_goals assumption
    all_goals assumption

end Lockstep

end Sundial
