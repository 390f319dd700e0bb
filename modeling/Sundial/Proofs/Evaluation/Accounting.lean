import Sundial.Proofs.Evaluation.KindSoundness
import Sundial.Proofs.Evaluation.Messages
import Sundial.Proofs.Evaluation.Repeating

/-!
# Missing values are accounted for

An evaluation goes on after a fault, and so the faults have to tell whether there is a value. They
do: the walk of a formula adds faults behind those that are there, and it has no value exactly if it
adds some. So a run gives a time exactly if the walk does, it never fails without a fault, and it
never has to say that there was no value: `eval_accounts`.
-/

set_option autoImplicit false

namespace Sundial

/-- From the first state to the second the faults have been added, all of them of nodes. -/
structure Evaluator.Added (e e' : Evaluator) (added : List RuntimeError) : Prop where
  faults : e'.context.faults = e.context.faults ++ added
  ofNodes : ∀ x ∈ added, x.cause.isOfNode = true

namespace Evaluator.Added

variable {e e' e'' : Evaluator} {added added' : List RuntimeError}

theorem nothing (h : e'.context.faults = e.context.faults) : Added e e' [] :=
  ⟨h.trans (List.append_nil _).symm, fun _ hx => absurd hx List.not_mem_nil⟩

theorem trans (h : Added e e' added) (h' : Added e' e'' added') :
    Added e e'' (added ++ added') :=
  ⟨by rw [h'.faults, h.faults, List.append_assoc],
    List.forall_mem_append.2 ⟨h.ofNodes, h'.ofNodes⟩⟩

end Evaluator.Added

open Evaluator (Added)

namespace Evaluating

variable {α β γ : Type}

/-! ## Computations that account for what they leave out -/

/-- The computation does nothing to the faults but add faults of nodes. -/
def Appends (m : Evaluating α) : Prop := ∀ e, ∃ added, Added e (m.run e).2 added

/-- The computation has no value exactly if it adds faults. -/
def Accounts (m : Evaluating (Option α)) : Prop :=
  ∀ e, ∃ added, Added e (m.run e).2 added ∧ ((m.run e).1 = none ↔ added ≠ [])

/-- The computation has no value, and may add faults. It follows on one that has added some. -/
def Forgoes (m : Evaluating (Option α)) : Prop := Never m ∧ Appends m

theorem Accounts.appends {m : Evaluating (Option α)} (h : Accounts m) : Appends m := by
  intro e
  obtain ⟨added, hadded, -⟩ := h e
  exact ⟨added, hadded⟩

theorem Silent.appends {m : Evaluating α} (h : Silent m) : Appends m :=
  fun e => ⟨[], .nothing (h e)⟩

theorem accounts_pure (a : α) : Accounts (pure (some a)) :=
  fun _ => ⟨[], .nothing rfl, by simp⟩

theorem accounts_fail {cause : RuntimeFault} (h : cause.isOfNode = true) (pos : Position) :
    Accounts (fail cause pos : Evaluating (Option α)) :=
  fun _ => ⟨[⟨cause, pos⟩], ⟨rfl, List.forall_mem_singleton.2 h⟩, by simp⟩

theorem accounts_ite {p : Prop} [Decidable p] {m m' : Evaluating (Option α)} (h : Accounts m)
    (h' : Accounts m') : Accounts (if p then m else m') := by
  by_cases hp : p
  · rwa [if_pos hp]
  · rwa [if_neg hp]

theorem forgoes_none : Forgoes (pure none : Evaluating (Option α)) :=
  ⟨never_none, (silent_pure none).appends⟩

theorem Appends.bind {m : Evaluating α} {k : α → Evaluating β} (h : Appends m)
    (hk : ∀ a, Appends (k a)) : Appends (m >>= k) := by
  intro e
  obtain ⟨added, hadded⟩ := h e
  obtain ⟨added', hadded'⟩ := hk (m.run e).1 (m.run e).2
  exact ⟨added ++ added', hadded.trans hadded'⟩

theorem Appends.bind_forgoes {m : Evaluating α} {k : α → Evaluating (Option β)} (h : Appends m)
    (hk : ∀ a, Forgoes (k a)) : Forgoes (m >>= k) :=
  ⟨never_bind fun a => (hk a).1, h.bind fun a => (hk a).2⟩

theorem Silent.bind_accounts {m : Evaluating α} {k : α → Evaluating (Option β)} (h : Silent m)
    (hk : ∀ a, Accounts (k a)) : Accounts (m >>= k) := by
  intro e
  obtain ⟨added, hadded, hvalue⟩ := hk (m.run e).1 (m.run e).2
  exact ⟨added, (Added.nothing (h e)).trans hadded, hvalue⟩

/-- One computation after another. Without a value of the first there is none at all, though what
follows may add to the faults. -/
theorem Accounts.bind {m : Evaluating (Option α)} {k : Option α → Evaluating (Option β)}
    (h : Accounts m) (hk : ∀ a, Accounts (k (some a))) (hnone : Forgoes (k none)) :
    Accounts (m >>= k) := by
  intro e
  obtain ⟨added, hadded, hvalue⟩ := h e
  rw [run_bind]
  cases hm : (m.run e).1 with
  | none =>
    obtain ⟨added', hadded'⟩ := hnone.2 (m.run e).2
    have hsome : added ≠ [] := hvalue.1 hm
    exact ⟨added ++ added', hadded.trans hadded', by simp [hnone.1 (m.run e).2, hsome]⟩
  | some a =>
    obtain ⟨added', hadded', hvalue'⟩ := hk a (m.run e).2
    obtain rfl : added = [] := by
      by_contra hne
      rw [hvalue.2 hne] at hm
      cases hm
    exact ⟨added', hadded.trans hadded', hvalue'⟩

/-! ## Operands -/

/-- A missing operand has been accounted for, and a value that does not fit is. -/
structure Checks (expect : Option Value → Evaluating (Option α)) : Prop where
  none : expect none = pure none
  some : ∀ v, Accounts (expect (some v))

theorem checks_time (slot : Slot) (pos : Position) : Checks (expectTime slot pos) := by
  refine ⟨rfl, fun v => ?_⟩
  cases v with
  | time t => exact accounts_pure t
  | _ => exact accounts_fail rfl pos

theorem checks_number (slot : Slot) (pos : Position) : Checks (expectNumber slot pos) := by
  refine ⟨rfl, fun v => ?_⟩
  cases v with
  | number x => exact accounts_pure x
  | _ => exact accounts_fail rfl pos

theorem checks_boolean (relation : Relation) (pos : Position) :
    Checks (expectBoolean relation pos) := by
  refine ⟨rfl, fun v => ?_⟩
  cases v with
  | boolean b => exact accounts_pure b
  | _ => exact accounts_fail rfl pos

section Operands

variable {expect : Option Value → Evaluating (Option α)} {n : Evaluating (Option Value)}
  {k : Option α → Evaluating (Option β)}

theorem Checks.appends (h : Checks expect) (v : Option Value) : Appends (expect v) := by
  cases v with
  | none =>
    rw [h.none]
    exact forgoes_none.2
  | some v => exact (h.some v).appends

theorem Accounts.bind_expect (hn : Accounts n) (h : Checks expect)
    (hk : ∀ a, Accounts (k (some a))) (hnone : Forgoes (k none)) :
    Accounts (n >>= fun v => expect v >>= k) := by
  refine hn.bind (fun v => (h.some v).bind hk hnone) ?_
  rw [h.none]
  exact hnone

/-- The operand is evaluated for its faults. -/
theorem Appends.bind_expect (hn : Appends n) (h : Checks expect) (hk : ∀ a, Forgoes (k a)) :
    Forgoes (n >>= fun v => expect v >>= k) :=
  hn.bind_forgoes fun v => (h.appends v).bind_forgoes hk

end Operands

/-! ## Steps -/

theorem accounts_primitive (p : Primitive) (pos : Position) : Accounts (primitive p pos) := by
  refine (silent_moment p).bind_accounts fun t => ?_
  cases t with
  | some t =>
    refine (silent_remember _ _).bind_accounts fun _ => (silent_record _ _).bind_accounts fun _ => ?_
    exact accounts_pure t
  | none => exact silent_context.bind_accounts fun c => accounts_fail rfl pos

theorem accounts_shift (t : Time) (minutes : Float) (pos : Position) :
    Accounts (shift t minutes pos) := by
  unfold shift
  cases t.addMinutes? minutes with
  | some moved => exact accounts_pure moved
  | none => exact accounts_fail rfl pos

theorem accounts_shiftValue (t : Time) (minutes : Float) (pos : Position) :
    Accounts (shiftValue t minutes pos) :=
  (accounts_shift t minutes pos).bind (fun _ => accounts_pure _) forgoes_none

theorem accounts_hourTime (ends : Time × Time) (count : Float) (pos : Position) :
    Accounts (hourTime ends count pos) := by
  unfold hourTime
  cases ends.1.proportionalHour? ends.2 count with
  | some t => exact accounts_pure t
  | none => exact accounts_fail rfl pos

/-- The ends are looked for even if there is no count of hours. -/
theorem accounts_hourOf {n : Evaluating (Option Value)} {m : Evaluating (Option (Time × Time))}
    (hn : Accounts n) (hm : Accounts m) (pos : Position) :
    Accounts (do
      let count ← expectNumber .hourCount pos (← n)
      let ends ← m
      match count, ends with
      | some count, some ends => hourTime ends count pos
      | _, _ => return none) := by
  refine hn.bind_expect (checks_number _ _) (fun count => ?_)
    (hm.appends.bind_forgoes fun _ => forgoes_none)
  exact hm.bind (fun ends => accounts_hourTime ends count pos) forgoes_none

theorem accounts_solarTime (degrees : Float) (d : Direction) (pos : Position) :
    Accounts (solarTime degrees d pos) := by
  refine (silent_crossings degrees).bind_accounts fun a => ?_
  cases (if d.isMorning then a.ascending else a.descending) with
  | some t => exact accounts_pure t
  | none => exact silent_context.bind_accounts fun c => accounts_fail rfl pos

/-- Both ends are looked for, and both are moved, even if the first one fails. -/
theorem accounts_spanEnds (b : DaySpan) (pos : Position) : Accounts (spanEnds b pos) := by
  have hset : Accounts (primitive .sunset pos) := accounts_primitive .sunset pos
  refine (accounts_primitive .sunrise pos).bind (fun rise => ?_)
    (hset.appends.bind_forgoes fun _ => forgoes_none)
  refine hset.bind (fun set => ?_) forgoes_none
  have hfinish : Accounts (shift set b.margin pos) := accounts_shift set b.margin pos
  refine (accounts_shift rise (-b.margin) pos).bind (fun start => ?_)
    (hfinish.appends.bind_forgoes fun _ => forgoes_none)
  exact hfinish.bind (fun finish => accounts_pure (start, finish)) forgoes_none

theorem accounts_directionOf (f : Formula) : Accounts (directionOf f) := by
  cases f with
  | direction pos d => exact accounts_pure d
  | _ => exact accounts_fail rfl _

/-- A result that is known needs no accounting. -/
theorem accounts_throughResults {m : Evaluating (Option Time)} (h : Accounts m) (call : String) :
    Accounts (throughResults call m) := by
  refine silent_context.bind_accounts fun c => ?_
  cases c.result? call with
  | some t => exact (silent_record _ _).bind_accounts fun _ => accounts_pure _
  | none =>
    refine h.bind (fun t => ?_) forgoes_none
    refine (silent_keepResult _ _).bind_accounts fun _ => (silent_record _ _).bind_accounts fun _ => ?_
    exact accounts_pure _

theorem accounts_operate (op : Operator) (pos : Position) (l r : Value) :
    Accounts (operate op pos l r) := by
  cases l <;> cases r <;> cases op
  all_goals first
    | exact accounts_pure _
    | exact accounts_fail rfl pos
    | exact accounts_shiftValue _ _ pos
    | exact accounts_ite (accounts_fail rfl pos) (accounts_pure _)

theorem accounts_compareNumbers (relation : Relation) (pos : Position) (a b : Float) :
    Accounts (compareNumbers relation pos a b) := by
  refine accounts_ite (accounts_fail rfl pos) ?_
  cases holds? relation a b with
  | some answer => exact accounts_pure _
  | none => exact accounts_fail rfl pos

theorem accounts_compare (relation : Relation) (pos : Position) (l r : Value) :
    Accounts (compare relation pos l r) := by
  cases l <;> cases r
  case number.number a b | duration.duration a b => exact accounts_compareNumbers relation pos a b
  case string.string a b =>
    cases relation
    case equal | notEqual => exact accounts_pure _
    all_goals exact accounts_fail rfl pos
  all_goals exact accounts_fail rfl pos

end Evaluating

open Evaluating

namespace Formula

/-- The walk of any formula has no value exactly if it adds faults. -/
theorem accounts_eval (f : Formula) : Accounts f.eval := by
  induction f using eval.induct with
  | case1 pos event =>
    rw [eval]
    exact (accounts_primitive event pos).bind (fun _ => accounts_pure _) forgoes_none
  | case2 | case3 | case4 => exact accounts_pure _
  | case5 pos key =>
    rw [eval]
    refine silent_context.bind_accounts fun c => ?_
    cases c.time? key with
    | some t => exact (silent_record _ _).bind_accounts fun _ => accounts_pure _
    | none => exact accounts_fail rfl pos
  | case6 | case7 | case8 => exact accounts_fail rfl _
  | case9 pos v =>
    rw [eval]
    exact (silent_circumstance v).bind_accounts fun _ => accounts_pure _
  | case10 pos op left right ihl ihr =>
    rw [eval]
    refine ihl.bind (fun l => ?_) (ihr.appends.bind_forgoes fun _ => forgoes_none)
    exact ihr.bind (fun r => accounts_operate op pos l r) forgoes_none
  | case11 pos c t ihc iht =>
    rw [eval]
    refine ihc.bind (fun v => ?_) forgoes_none
    cases v with
    | boolean b =>
      cases b with
      | true => exact iht
      | false => exact accounts_fail rfl pos
    | _ => exact accounts_fail rfl c.pos
  | case12 pos c t e ihc iht ihe =>
    rw [eval]
    refine ihc.bind (fun v => ?_) forgoes_none
    cases v with
    | boolean b =>
      cases b with
      | true => exact iht
      | false => exact ihe
    | _ => exact accounts_fail rfl c.pos
  | case13 pos relation left right hlogical ihl ihr =>
    rw [eval, if_pos hlogical]
    refine ihl.bind_expect (checks_boolean _ _) (fun l => ?_) forgoes_none
    -- A left side that decides the answer leaves the right side and its faults out.
    refine accounts_ite (accounts_pure _) (accounts_ite (accounts_pure _) ?_)
    exact ihr.bind_expect (checks_boolean _ _) (fun r => accounts_pure _) forgoes_none
  | case14 pos relation left right hlogical ihl ihr =>
    rw [eval, if_neg hlogical]
    refine ihl.bind (fun l => ?_) (ihr.appends.bind_forgoes fun _ => forgoes_none)
    exact ihr.bind (fun r => accounts_compare relation pos l r) forgoes_none
  | case15 pos degrees crossing ih =>
    rw [eval]
    refine accounts_throughResults ?_ _
    have hdirection := accounts_directionOf crossing
    refine ih.bind_expect (checks_number _ _) (fun x => ?_)
      (hdirection.appends.bind_forgoes fun _ => forgoes_none)
    exact hdirection.bind (fun d => accounts_solarTime x d degrees.pos) forgoes_none
  | case16 pos hours basePos first second ihh ihf ihs =>
    rw [eval]
    refine accounts_throughResults ?_ _
    refine ihh.bind_expect (checks_number _ _) (fun count => ?_)
      (ihf.appends.bind_expect (checks_time _ _) fun _ =>
        ihs.appends.bind_expect (checks_time _ _) fun _ => forgoes_none)
    refine ihf.bind_expect (checks_time _ _) (fun start => ?_)
      (ihs.appends.bind_expect (checks_time _ _) fun _ => forgoes_none)
    exact ihs.bind_expect (checks_time _ _)
      (fun finish => accounts_hourTime (start, finish) count hours.pos) forgoes_none
  | case17 pos hours base hbase ih =>
    rw [eval]
    · refine accounts_throughResults ?_ _
      cases base with
      | span basePos b => exact accounts_hourOf ih (accounts_spanEnds b basePos) hours.pos
      | _ => exact accounts_hourOf ih (accounts_fail rfl _) hours.pos
    · exact hbase
  | case18 pos first second ihf ihs =>
    rw [eval]
    refine accounts_throughResults ?_ _
    refine ihf.bind_expect (checks_time _ _) (fun a => ?_)
      (ihs.appends.bind_expect (checks_time _ _) fun _ => forgoes_none)
    exact ihs.bind_expect (checks_time _ _) (fun b => accounts_pure _) forgoes_none
  | case19 pos function args h₁ h₂ h₃ h₄ =>
    rw [eval]
    · exact accounts_throughResults (accounts_fail rfl pos) _
    all_goals assumption

/-- With a fault for every missing value, an outcome that is no time has the faults of the walk, or
says of the value that it is no time. -/
theorem cause_of_outcome {pos : Position} {v : Option Value} {faults es : List RuntimeError}
    (hnone : v = none → faults ≠ []) (h : outcome pos v faults = .error es) :
    ∀ x ∈ es, x ∈ faults ∨ ∃ v, x.cause = .notTime v := by
  unfold outcome at h
  split at h <;> cases h
  next => exact fun x hx => .inl hx
  next v _ _ =>
    refine List.forall_mem_append.2 ⟨fun x hx => .inl hx, ?_⟩
    exact List.forall_mem_singleton.2 (.inr ⟨v, rfl⟩)
  next => exact absurd rfl (hnone rfl)
  next => exact fun x hx => .inl hx

/-- The walk of a formula only adds to the faults, and it has no value exactly if it adds some. So a
run gives a time exactly if the walk gives one, a run that fails has a fault, and none of its faults
is that there was no value. -/
theorem eval_accounts (f : Formula) (e : Evaluator) :
    (∃ added, (f.eval.run e).2.context.faults = e.context.faults ++ added ∧
        ((f.eval.run e).1 = none ↔ added ≠ [])) ∧
      (∀ t, (e.run f).1 = .ok t ↔ (f.eval.run e.started).1 = some (.time t)) ∧
      ∀ es, (e.run f).1 = .error es →
        es ≠ [] ∧ ∀ x ∈ es, x.cause.message ≠ RuntimeFault.noValue.message := by
  obtain ⟨added, hadded, hnone⟩ := f.accounts_eval e
  obtain ⟨found, hfound, hvalue⟩ := f.accounts_eval e.started
  have hfaults : (f.eval.run e.started).2.context.faults = found := hfound.faults
  rw [Evaluator.run_fst, hfaults]
  refine ⟨⟨added, hadded.faults, hnone⟩, fun t => ?_, fun es hes => ?_⟩
  · rw [outcome_eq_ok]
    refine ⟨And.left, fun ht => ⟨ht, ?_⟩⟩
    by_contra hne
    rw [hvalue.2 hne] at ht
    cases ht
  · refine ⟨(mem_of_outcome hes).1, fun x hx => RuntimeFault.message_ne_noValue ?_⟩
    rintro hcause
    rcases cause_of_outcome hvalue.1 hes x hx with hx | ⟨v, hv⟩
    · have hnode := hfound.ofNodes x hx
      rw [hcause] at hnode
      cases hnode
    · rw [hcause] at hv
      cases hv

end Formula

end Sundial
