import Sundial.Proofs.Evaluation.Effects
import Sundial.Proofs.Evaluation.WellKinded

/-!
# Well-kinded formulas keep to their kinds

The value of a well-kinded formula is of the formula's kind, and what can go wrong in its evaluation
is what checking cannot foresee: the sun, the times, and arithmetic. `Yields` says both of a
computation, and that it does not come to nothing without a fault.
-/

set_option autoImplicit false

namespace Sundial

/-- The fault lies in the day, the place, the times or the numbers, not in the formula's form. -/
def RuntimeFault.isUnforeseeable : RuntimeFault → Bool
  | undefinedReference _ | absentPrimitive .. | absentAngle .. | divisionByZero
  | offsetOutOfRange _ | hourOutOfRange _ | undefinedNumber | falseCondition => true
  | _ => false

namespace Evaluating

variable {α β : Type} {P : α → Prop} {Q : β → Prop}

/-! ## Computations with values of one sort -/

/-- From the first state to the second the faults have been added, none of them foreseeable but the
listed ones. -/
def Adds (misfits : List RuntimeError) (e e' : Evaluator) (added : List RuntimeError) : Prop :=
  e'.context.faults = e.context.faults ++ added ∧
    ∀ x ∈ added, x.cause.isUnforeseeable = true ∨ x ∈ misfits

variable {misfits : List RuntimeError}

theorem Adds.none {e e' : Evaluator} (h : e'.context.faults = e.context.faults) :
    Adds misfits e e' [] :=
  ⟨h.trans (List.append_nil _).symm, fun _ hx => absurd hx List.not_mem_nil⟩

theorem Adds.trans {e e' e'' : Evaluator} {added added' : List RuntimeError}
    (h : Adds misfits e e' added) (h' : Adds misfits e' e'' added') : Adds misfits e e'' (added ++ added') :=
  ⟨by rw [h'.1, h.1, List.append_assoc], List.forall_mem_append.2 ⟨h.2, h'.2⟩⟩

/-- The computation has a value with the property, or adds a fault; it adds none that is
foreseeable but the listed ones. -/
def Yields (misfits : List RuntimeError) (P : α → Prop) (m : Evaluating (Option α)) : Prop :=
  ∀ e, ∃ added, Adds misfits e (m.run e).2 added ∧ (∀ a, (m.run e).1 = some a → P a) ∧
    ((m.run e).1 = none → added ≠ [])

/-- The computation has no value, and adds no fault that is foreseeable but the listed ones. -/
def Fails (misfits : List RuntimeError) (m : Evaluating (Option α)) : Prop :=
  ∀ e, (m.run e).1 = none ∧ ∃ added, Adds misfits e (m.run e).2 added

/-- The computation adds no fault. -/
def Silent (m : Evaluating α) : Prop := ∀ e, (m.run e).2.context.faults = e.context.faults

theorem yields_pure {a : α} (h : P a) : Yields misfits P (pure (some a)) :=
  fun _ => ⟨[], .none rfl, fun _ ha => Option.some.inj ha ▸ h, fun ha => by cases ha⟩

theorem yields_expected {cause : RuntimeFault} {pos : Position}
    (h : cause.isUnforeseeable = true ∨ ⟨cause, pos⟩ ∈ misfits) :
    Yields misfits P (fail cause pos) := by
  refine fun e => ⟨[⟨cause, pos⟩], ⟨rfl, ?_⟩, ?_, fun _ => List.cons_ne_nil _ _⟩
  · exact List.forall_mem_singleton.2 h
  · intro a ha
    cases ha

theorem yields_fail {cause : RuntimeFault} (h : cause.isUnforeseeable = true) (pos : Position) :
    Yields misfits P (fail cause pos) :=
  yields_expected (.inl h)

theorem fails_none : Fails misfits (pure none : Evaluating (Option α)) :=
  fun _ => ⟨rfl, [], .none rfl⟩

variable {m : Evaluating (Option α)} {k : Option α → Evaluating (Option β)}

theorem Yields.bind (h : Yields misfits P m) (hk : ∀ a, P a → Yields misfits Q (k (some a)))
    (hnone : Fails misfits (k none)) : Yields misfits Q (m >>= k) := by
  intro e
  obtain ⟨added, hadds, hvalue, hfault⟩ := h e
  rw [run_bind]
  cases hm : (m.run e).1 with
  | none =>
    obtain ⟨hrun, added', hadds'⟩ := hnone (m.run e).2
    refine ⟨added ++ added', hadds.trans hadds', fun b hb => ?_, fun _ => ?_⟩
    · rw [hrun] at hb
      cases hb
    · simp [hfault hm]
  | some a =>
    obtain ⟨added', hadds', hvalue', hfault'⟩ := hk a (hvalue a hm) (m.run e).2
    exact ⟨added ++ added', hadds.trans hadds', hvalue', fun hb => by simp [hfault' hb]⟩

theorem Yields.bind_fails (h : Yields misfits P m) (hk : ∀ a, P a → Fails misfits (k (some a)))
    (hnone : Fails misfits (k none)) : Fails misfits (m >>= k) := by
  intro e
  obtain ⟨added, hadds, hvalue, -⟩ := h e
  rw [run_bind]
  cases hm : (m.run e).1 with
  | none =>
    obtain ⟨hrun, added', hadds'⟩ := hnone (m.run e).2
    exact ⟨hrun, added ++ added', hadds.trans hadds'⟩
  | some a =>
    obtain ⟨hrun, added', hadds'⟩ := hk a (hvalue a hm) (m.run e).2
    exact ⟨hrun, added ++ added', hadds.trans hadds'⟩

theorem yields_ite {p : Prop} [Decidable p] {m m' : Evaluating (Option α)}
    (h : Yields misfits P m) (h' : Yields misfits P m') : Yields misfits P (if p then m else m') := by
  by_cases hp : p
  · rwa [if_pos hp]
  · rwa [if_neg hp]

theorem Silent.yields_bind {m : Evaluating α} {k : α → Evaluating (Option β)} (h : Silent m)
    (hk : ∀ a, Yields misfits Q (k a)) : Yields misfits Q (m >>= k) := by
  intro e
  obtain ⟨added, hadds, hvalue⟩ := hk (m.run e).1 (m.run e).2
  exact ⟨added, (Adds.none (h e)).trans hadds, hvalue⟩

theorem silent_pure (a : α) : Silent (pure a) := fun _ => rfl

theorem Silent.bind {m : Evaluating α} {k : α → Evaluating β} (h : Silent m)
    (hk : ∀ a, Silent (k a)) : Silent (m >>= k) :=
  fun e => (hk (m.run e).1 (m.run e).2).trans (h e)

/-! ## Steps -/

theorem silent_context : Silent context := fun _ => rfl

theorem silent_record (name : String) (v : Value) : Silent (record name v) := fun _ => rfl

theorem silent_remember (key : String) (t : Time) : Silent (remember key t) := fun _ => rfl

theorem silent_keepResult (call : String) (t : Time) : Silent (keepResult call t) := fun _ => rfl

theorem silent_sunTimes : Silent sunTimes := fun e => e.context.sunTimes_faults

theorem silent_crossings (degrees : Float) : Silent (crossings degrees) :=
  fun e => e.context.crossings_faults degrees

theorem silent_moment (p : Primitive) : Silent (moment p) := moment_faults p

theorem silent_circumstance (v : Circumstance) : Silent (circumstance v) := by
  refine silent_context.bind fun c => ?_
  cases v with
  | dayLength => exact silent_sunTimes.bind fun _ => silent_pure _
  | _ => exact silent_pure _

theorem kind_circumstance (v : Circumstance) (e : Evaluator) :
    ((circumstance v).run e).1.kind = v.kind := by
  cases v <;> rfl

/-- Times are all of one kind, so that there is nothing to say of their values. -/
abbrev YieldsAny (misfits : List RuntimeError) (m : Evaluating (Option α)) : Prop :=
  Yields misfits (fun _ => True) m

theorem yields_primitive (p : Primitive) (pos : Position) :
    YieldsAny misfits (Evaluating.primitive p pos) := by
  refine (silent_moment p).yields_bind fun t => ?_
  cases t with
  | some t =>
    refine (silent_remember _ _).yields_bind fun _ => (silent_record _ _).yields_bind fun _ => ?_
    exact yields_pure trivial
  | none => exact silent_context.yields_bind fun c => yields_fail rfl pos

theorem yields_shift (t : Time) (minutes : Float) (pos : Position) :
    YieldsAny misfits (shift t minutes pos) := by
  unfold shift
  cases t.addMinutes? minutes with
  | some moved => exact yields_pure trivial
  | none => exact yields_fail rfl pos

theorem yields_shiftValue (t : Time) (minutes : Float) (pos : Position) :
    Yields misfits (fun v => v.kind = .time) (shiftValue t minutes pos) :=
  (yields_shift t minutes pos).bind (fun _ _ => yields_pure rfl) fails_none

theorem yields_hourTime (ends : Time × Time) (count : Float) (pos : Position) :
    YieldsAny misfits (hourTime ends count pos) := by
  unfold hourTime
  cases ends.1.proportionalHour? ends.2 count with
  | some t => exact yields_pure trivial
  | none => exact yields_fail rfl pos

theorem yields_solarTime (degrees : Float) (d : Direction) (pos : Position) :
    YieldsAny misfits (solarTime degrees d pos) := by
  refine (silent_crossings degrees).yields_bind fun a => ?_
  cases (if d.isMorning then a.ascending else a.descending) with
  | some t => exact yields_pure trivial
  | none => exact silent_context.yields_bind fun c => yields_fail rfl pos

theorem yields_spanEnds (b : DaySpan) (pos : Position) : YieldsAny misfits (spanEnds b pos) := by
  have hset : YieldsAny misfits (primitive .sunset pos) := yields_primitive .sunset pos
  refine (yields_primitive .sunrise pos).bind (fun rise _ => ?_)
    (hset.bind_fails (fun _ _ => fails_none) fails_none)
  refine hset.bind (fun set _ => ?_) fails_none
  have hfinish : YieldsAny misfits (shift set b.margin pos) := yields_shift set b.margin pos
  refine (yields_shift rise (-b.margin) pos).bind (fun start _ => ?_)
    (hfinish.bind_fails (fun _ _ => fails_none) fails_none)
  exact hfinish.bind (fun finish _ => yields_pure trivial) fails_none

/-- The result of a call is a time, whether it is known or computed. -/
theorem yields_throughResults {m : Evaluating (Option Time)} (h : YieldsAny misfits m)
    (call : String) :
    Yields misfits (fun v => v.kind = .time) (throughResults call m) := by
  refine silent_context.yields_bind fun c => ?_
  cases c.result? call with
  | some t => exact (silent_record _ _).yields_bind fun _ => yields_pure rfl
  | none =>
    refine h.bind (fun t _ => ?_) fails_none
    refine (silent_keepResult _ _).yields_bind fun _ => (silent_record _ _).yields_bind fun _ => ?_
    exact yields_pure rfl

/-! ## Operands -/

/-- A value of the kind is an operand, and without a value there is none. -/
structure Takes (kind : ValueKind) (expect : Option Value → Evaluating (Option α)) : Prop where
  none : expect none = pure none
  some : ∀ v, v.kind = kind → ∃ a, expect (some v) = pure (some a)

theorem takes_number (slot : Slot) (pos : Position) : Takes .number (expectNumber slot pos) := by
  refine ⟨rfl, fun v hv => ?_⟩
  cases v with
  | number x => exact ⟨x, rfl⟩
  | _ => cases hv

theorem takes_time (slot : Slot) (pos : Position) : Takes .time (expectTime slot pos) := by
  refine ⟨rfl, fun v hv => ?_⟩
  cases v with
  | time t => exact ⟨t, rfl⟩
  | _ => cases hv

theorem takes_boolean (relation : Relation) (pos : Position) :
    Takes .boolean (expectBoolean relation pos) := by
  refine ⟨rfl, fun v hv => ?_⟩
  cases v with
  | boolean b => exact ⟨b, rfl⟩
  | _ => cases hv

section Operands

variable {expect : Option Value → Evaluating (Option α)} {kind : ValueKind}
  {n : Evaluating (Option Value)}

theorem Yields.bind_expect (hexpect : Takes kind expect)
    (h : Yields misfits (fun v => v.kind = kind) n) (hk : ∀ a, Yields misfits Q (k (some a))) (hnone : Fails misfits (k none)) :
    Yields misfits Q (n >>= fun v => expect v >>= k) := by
  refine h.bind (fun v hv => ?_) ?_
  · obtain ⟨a, ha⟩ := hexpect.some v hv
    rw [ha]
    exact hk a
  · rw [hexpect.none]
    exact hnone

/-- What follows fails on its own, whatever the operand. -/
theorem Fails.bind_expect (hexpect : Takes kind expect)
    (h : Yields misfits (fun v => v.kind = kind) n) (hk : ∀ a, Fails misfits (k a)) :
    Fails misfits (n >>= fun v => expect v >>= k) := by
  refine h.bind_fails (fun v hv => ?_) ?_
  · obtain ⟨a, ha⟩ := hexpect.some v hv
    rw [ha]
    exact hk (some a)
  · rw [hexpect.none]
    exact hk none

end Operands

theorem yields_operate {op : Operator} {l r : Value} {kind : ValueKind}
    (h : op.resultKind? l.kind r.kind = some kind) (pos : Position) :
    Yields misfits (fun v => v.kind = kind) (operate op pos l r) := by
  cases l <;> cases r <;> cases op <;> cases h
  all_goals first
    | exact yields_pure rfl
    | exact yields_shiftValue _ _ pos
    | exact yields_ite (yields_fail rfl pos) (yields_pure rfl)

theorem operate_of_none {op : Operator} {l r : Value} (h : op.resultKind? l.kind r.kind = none)
    (pos : Position) : operate op pos l r = fail (.badOperands op l.kind r.kind) pos := by
  cases l <;> cases r <;> cases op
  all_goals first
    | rfl
    | cases h

theorem yields_compareNumbers {relation : Relation} (h : relation.isLogical = false)
    (pos : Position) (a b : Float) :
    Yields misfits (fun v => v.kind = .boolean) (compareNumbers relation pos a b) := by
  refine yields_ite (yields_fail rfl pos) ?_
  cases relation <;> cases h
  all_goals exact yields_pure rfl

theorem yields_compare {relation : Relation} (h : relation.isLogical = false) {l r : Value}
    (hsame : l.kind = r.kind) (hcompares : relation.Compares l.kind) (pos : Position) :
    Yields misfits (fun v => v.kind = .boolean) (compare relation pos l r) := by
  cases l with
  | number a =>
    cases r with
    | number b => exact yields_compareNumbers h pos a b
    | _ => cases hsame
  | duration a =>
    cases r with
    | duration b => exact yields_compareNumbers h pos a b
    | _ => cases hsame
  | string a =>
    cases r with
    | string b =>
      have hequality : relation.isEquality = true := by
        simpa [Relation.Compares, Value.kind] using hcompares
      cases relation <;> cases hequality
      all_goals exact yields_pure rfl
    | _ => cases hsame
  | time | boolean => simp [Relation.Compares, Value.kind] at hcompares

end Evaluating

open Evaluating

namespace Formula

variable {misfits : List RuntimeError}

/-- Evaluating a well-kinded formula gives a value of its kind, or faults that are unforeseeable or
come from operands that an operator does not accept. -/
theorem yields_eval {f : Formula} (h : WellKinded f)
    (hmisfits : ∀ g ∈ f.nodes, ∀ x, g.misfit? = some x → x ∈ misfits) :
    Yields misfits (fun v => v.kind = f.kind) f.eval := by
  induction h with
  | primitive pos event =>
    rw [eval]
    exact (yields_primitive event pos).bind (fun _ _ => yields_pure rfl) fails_none
  | duration | number | string => exact yields_pure rfl
  | reference pos key =>
    rw [eval]
    refine silent_context.yields_bind fun c => ?_
    cases c.time? key with
    | some t => exact (silent_record _ _).yields_bind fun _ => yields_pure rfl
    | none => exact yields_fail rfl pos
  | circumstance pos v =>
    rw [eval]
    intro e
    refine ⟨[], .none (silent_circumstance v e), fun a ha => ?_, fun ha => by cases ha⟩
    rw [← Option.some.inj ha]
    exact kind_circumstance v e
  | binary pos op left right hl hr hop ihl ihr =>
    obtain ⟨hmisfit, hleft, hright⟩ := forall_nodes_binary.1 hmisfits
    have hl := ihl hleft
    have hr := ihr hright
    rw [eval, kind]
    refine hl.bind (fun l hlkind => ?_) (hr.bind_fails (fun _ _ => fails_none) fails_none)
    refine hr.bind (fun r hrkind => ?_) fails_none
    rw [← hlkind, ← hrkind]
    cases hk : op.resultKind? l.kind r.kind with
    | some k => exact yields_operate hk pos
    | none =>
      dsimp only
      rw [operate_of_none hk]
      apply yields_expected
      exact .inr (hmisfit _ (by rw [misfit?, ← hlkind, ← hrkind, hk]))
  | ifThen pos c t hc ht hboolean ihc iht =>
    obtain ⟨-, hcondition, hthen⟩ := forall_nodes_ifThen.1 hmisfits
    rw [eval, kind]
    refine (ihc hcondition).bind (fun v hv => ?_) fails_none
    rw [hboolean] at hv
    cases v with
    | boolean b =>
      cases b with
      | true => exact iht hthen
      | false => exact yields_fail rfl pos
    | _ => cases hv
  | ifElse pos c t e hc ht he hboolean hsame ihc iht ihe =>
    obtain ⟨-, hcondition, hthen, helse⟩ := forall_nodes_ifElse.1 hmisfits
    rw [eval, kind]
    refine (ihc hcondition).bind (fun v hv => ?_) fails_none
    rw [hboolean] at hv
    rw [hsame] at ihe
    cases v with
    | boolean b =>
      cases b with
      | true => exact iht hthen
      | false => exact ihe helse
    | _ => cases hv
  | connective pos relation left right hlogical hl hr hleft hright ihl ihr =>
    obtain ⟨-, hleftNodes, hrightNodes⟩ := forall_nodes_condition.1 hmisfits
    have hl := ihl hleftNodes
    have hr := ihr hrightNodes
    rw [hleft] at hl
    rw [hright] at hr
    rw [eval, if_pos hlogical]
    refine .bind_expect (takes_boolean _ _) hl (fun l => ?_) fails_none
    refine yields_ite (yields_pure rfl) (yields_ite (yields_pure rfl) ?_)
    exact .bind_expect (takes_boolean _ _) hr (fun r => yields_pure rfl) fails_none
  | comparison pos relation left right hlogical hl hr hsame hcompares ihl ihr =>
    obtain ⟨-, hleftNodes, hrightNodes⟩ := forall_nodes_condition.1 hmisfits
    have hr := ihr hrightNodes
    rw [eval, if_neg (by simp [hlogical])]
    refine (ihl hleftNodes).bind (fun l hleft => ?_)
      (hr.bind_fails (fun _ _ => fails_none) fails_none)
    refine hr.bind (fun r hright => ?_) fails_none
    refine yields_compare hlogical ?_ ?_ pos
    · rw [hleft, hright, hsame]
    · rwa [hleft]
  | solar pos dirPos degrees d hd hnumber ih =>
    obtain ⟨-, hargs⟩ := forall_nodes_call.1 hmisfits
    have hdegrees := ih (hargs degrees (by simp))
    rw [hnumber] at hdegrees
    rw [eval]
    refine yields_throughResults ?_ _
    refine .bind_expect (takes_number _ _) hdegrees (fun x => ?_) fails_none
    exact yields_solarTime x d degrees.pos
  | spanHour pos basePos hours b hh hnumber ih =>
    obtain ⟨-, hargs⟩ := forall_nodes_call.1 hmisfits
    have hcount := ih (hargs hours (by simp))
    rw [hnumber] at hcount
    have hends : YieldsAny misfits (spanEnds b basePos) := yields_spanEnds b basePos
    rw [eval]
    · refine yields_throughResults ?_ _
      refine .bind_expect (takes_number _ _) hcount (fun count => ?_)
        (hends.bind_fails (fun _ _ => fails_none) fails_none)
      exact hends.bind (fun ends _ => yields_hourTime ends count hours.pos) fails_none
    · simp
  | customHour pos basePos hours first second hh hf hs hnumber hstart hend ihh ihf ihs =>
    obtain ⟨-, hargs⟩ := forall_nodes_call.1 hmisfits
    obtain ⟨-, hbounds⟩ := forall_nodes_customSpan.1
      (hargs (customSpan basePos [first, second]) (by simp))
    have hcount := ihh (hargs hours (by simp))
    have hfirst := ihf (hbounds first (by simp))
    have hsecond := ihs (hbounds second (by simp))
    rw [hnumber] at hcount
    rw [hstart] at hfirst
    rw [hend] at hsecond
    rw [eval]
    refine yields_throughResults ?_ _
    refine .bind_expect (takes_number _ _) hcount (fun count => ?_)
      (.bind_expect (takes_time _ _) hfirst fun _ =>
        .bind_expect (takes_time _ _) hsecond fun _ => fails_none)
    refine .bind_expect (takes_time _ _) hfirst (fun start => ?_)
      (.bind_expect (takes_time _ _) hsecond fun _ => fails_none)
    exact .bind_expect (takes_time _ _) hsecond
      (fun finish => yields_hourTime (start, finish) count hours.pos) fails_none
  | midpoint pos first second hf hs hfirst hsecond ihf ihs =>
    obtain ⟨-, hargs⟩ := forall_nodes_call.1 hmisfits
    have hf := ihf (hargs first (by simp))
    have hs := ihs (hargs second (by simp))
    rw [hfirst] at hf
    rw [hsecond] at hs
    rw [eval]
    refine yields_throughResults ?_ _
    refine .bind_expect (takes_time _ _) hf (fun a => ?_)
      (.bind_expect (takes_time _ _) hs fun _ => fails_none)
    exact .bind_expect (takes_time _ _) hs (fun b => yields_pure trivial) fails_none

/-- A time is the outcome unless there are faults, and without a time there are some. -/
theorem outcome_error {pos : Position} {v : Option Value} {added faults : List RuntimeError}
    (hv : ∀ a, v = some a → a.kind = .time) (hnone : v = none → added ≠ [])
    (h : outcome pos v added = .error faults) : faults = added := by
  cases v with
  | none =>
    cases added with
    | nil => exact absurd rfl (hnone rfl)
    | cons x added => exact (Except.error.inj h).symm
  | some a =>
    cases a with
    | time t =>
      cases added with
      | nil => cases h
      | cons x added => exact (Except.error.inj h).symm
    | _ => cases hv _ rfl

theorem expected_of_run {f : Formula} (hf : WellKinded f) (htime : f.kind = .time)
    (hmisfits : ∀ g ∈ f.nodes, ∀ x, g.misfit? = some x → x ∈ misfits) {e : Evaluator}
    {faults : List RuntimeError} (h : (Evaluator.run e f).1 = .error faults) :
    ∀ x ∈ faults, x.cause.isUnforeseeable = true ∨ x ∈ misfits := by
  obtain ⟨added, ⟨hadded, hexpected⟩, hvalue, hnone⟩ := yields_eval hf hmisfits e.started
  have hall : (f.eval.run e.started).2.context.faults = added := hadded
  rw [Evaluator.run_fst, hall] at h
  rw [outcome_error (fun a ha => (hvalue a ha).trans htime) hnone h]
  exact hexpected

/-- A word in an argument place has no value of its own. -/
theorem eval_placeWord {g : Formula} (hg : g.isPlaceWord = true) (e : Evaluator) :
    (g.eval.run e).1 = none := by
  cases g with
  | direction | span | customSpan => rfl
  | _ => cases hg

/-- The parts of a well-kinded formula have values of their own kind only. -/
theorem kind_eval {f g : Formula} (hf : WellKinded f) (hg : g ∈ f.nodes) {e : Evaluator} {v : Value}
    (hv : (g.eval.run e).1 = some v) : v.kind = g.kind := by
  rcases hf.nodes g hg with hkinded | hword
  · have hmisfits : ∀ h ∈ g.nodes, ∀ x, h.misfit? = some x → x ∈ g.nodes.filterMap misfit? :=
      fun h hh x hx => List.mem_filterMap.2 ⟨h, hh, hx⟩
    obtain ⟨-, -, hvalue, -⟩ := yields_eval hkinded hmisfits e
    exact hvalue v hv
  · rw [eval_placeWord hword] at hv
    cases hv

/-- In a checked formula whose operations have operands that fit, every part has values of its own
kind only, and an evaluation has no faults but unforeseeable ones. -/
theorem kind_eval_of_check {scope : Scope} {f : Formula} (hcheck : check scope f = [])
    (hfit : ∀ g ∈ f.nodes, g.operandsFit = true) :
    (∀ g ∈ f.nodes, ∀ e v, (g.eval.run e).1 = some v → v.kind = g.kind) ∧
      ∀ c faults, (f.evaluate c).1 = .error faults →
        ∀ x ∈ faults, x.cause.isUnforeseeable = true := by
  obtain ⟨hfaults, htime⟩ := List.append_eq_nil_iff.1 hcheck
  have hf : WellKinded f := wellKinded_of_faults f hfaults
  have hmisfits : ∀ g ∈ f.nodes, ∀ x, g.misfit? = some x → x ∈ ([] : List RuntimeError) := by
    intro g hg x hx
    rw [misfit?_eq_none (hfit g hg)] at hx
    cases hx
  refine ⟨fun g hg e v hv => kind_eval hf hg hv, fun c faults h x hx => ?_⟩
  rcases expected_of_run hf (kindFaults_eq_nil.1 htime) hmisfits h x hx with hx | hx
  · exact hx
  · cases hx

/-- The fixed offset stands in for the angle where the angle may be missing. -/
def guardedDawn : Formula :=
  ifElse ⟨1, 1⟩
    (condition ⟨1, 5⟩ .greater (circumstance ⟨1, 5⟩ .latitude) (number ⟨1, 16⟩ 60.0))
    (binary ⟨1, 22⟩ .sub (primitive ⟨1, 22⟩ .sunrise) (duration ⟨1, 32⟩ 72.0 "72min"))
    (call ⟨1, 49⟩ .solar [number ⟨1, 55⟩ 16.1, direction ⟨1, 61⟩ .beforeSunrise])

theorem kind_eval_guardedDawn :
    (∀ g ∈ guardedDawn.nodes, ∀ e v, (g.eval.run e).1 = some v → v.kind = g.kind) ∧
      ∀ c faults, (guardedDawn.evaluate c).1 = .error faults →
        ∀ x ∈ faults, x.cause.isUnforeseeable = true :=
  kind_eval_of_check (show check ⟨[], none⟩ guardedDawn = [] by decide +kernel)
    (List.all_eq_true.1 (by decide +kernel))

end Formula

end Sundial
