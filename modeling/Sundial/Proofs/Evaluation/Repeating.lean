import Sundial.Proofs.Evaluation.Afresh
import Sundial.Proofs.Evaluation.Steps
import Sundial.Proofs.Formula.Shape
import Sundial.Proofs.Ledger

/-!
# Values last

A formula that has a value has it again as long as the date, the place and the sky stay and no time
is lost or changed: `repeats_evalAfresh`. The second evaluation adds no fault and no time, and it
does not matter at which positions the formula was read.
-/

set_option autoImplicit false

namespace Sundial

open Evaluating

variable {α β : Type}

/-! ## Later contexts -/

/-- The later context is on the same date at the same place under the same sky, and has all the
times of the earlier one. -/
structure Context.Continues (c c' : Context) : Prop where
  date : c'.date = c.date
  place : c'.place = c.place
  sky : c'.sky = c.sky
  times : ∀ key t, c.time? key = some t → c'.time? key = some t

namespace Context.Continues

variable {c c' c'' : Context}

theorem refl (c : Context) : Continues c c := ⟨rfl, rfl, rfl, fun _ _ h => h⟩

theorem trans (h : Continues c c') (h' : Continues c' c'') : Continues c c'' where
  date := h'.date.trans h.date
  place := h'.place.trans h.place
  sky := h'.sky.trans h.sky
  times key t ht := h'.times key t (h.times key t ht)

end Context.Continues

open Context (Continues)

namespace Evaluating

/-! ## Computations that repeat themselves -/

/-- The computation has no value, whatever the state. -/
def Never (m : Evaluating (Option α)) : Prop := ∀ e, (m.run e).1 = none

theorem never_none : Never (pure none : Evaluating (Option α)) := fun _ => rfl

theorem never_fail (cause : RuntimeFault) (pos : Position) :
    Never (fail cause pos : Evaluating (Option α)) := fun _ => rfl

theorem never_bind {m : Evaluating β} {k : β → Evaluating (Option α)} (h : ∀ b, Never (k b)) :
    Never (m >>= k) := fun e => h (m.run e).1 (m.run e).2

/-- If the first computation has a value, it keeps what the context says, and in every later context
the second one has the same value and changes nothing. -/
def Repeats (m m' : Evaluating (Option α)) : Prop :=
  ∀ e a, (m.run e).1 = some a → Continues e.context (m.run e).2.context ∧
    ∀ e', Continues (m.run e).2.context e'.context →
      (m'.run e').1 = some a ∧ (m'.run e').2.context = e'.context

variable {m m' : Evaluating (Option α)}

theorem repeats_pure (a : α) : Repeats (pure (some a)) (pure (some a)) :=
  fun e _ h => ⟨.refl e.context, fun _ _ => ⟨h, rfl⟩⟩

theorem Never.repeats (h : Never m) : Repeats m m' := by
  intro e a ha
  rw [h e] at ha
  cases ha

theorem Settles.repeats {m : Position → Evaluating (Option α)} (h : Settles m)
    (pos pos' : Position) : Repeats (m pos) (m pos') := by
  rcases h with ⟨a, h⟩ | ⟨cause, -, h⟩
  · rw [h, h]
    exact repeats_pure a
  · rw [h]
    exact (never_fail cause pos).repeats

/-- One computation after another; without a value of the first there is none at all. -/
theorem Repeats.bind {k k' : Option α → Evaluating (Option β)} (h : Repeats m m')
    (hk : ∀ a, Repeats (k (some a)) (k' (some a))) (hnone : Never (k none)) :
    Repeats (m >>= k) (m' >>= k') := by
  intro e b hb
  rw [run_bind] at hb ⊢
  cases hm : (m.run e).1 with
  | none =>
    rw [hm, hnone] at hb
    cases hb
  | some a =>
    rw [hm] at hb
    obtain ⟨hcontinues, hagain⟩ := h e a hm
    obtain ⟨hcontinues', hagain'⟩ := hk a (m.run e).2 b hb
    refine ⟨hcontinues.trans hcontinues', fun e' he' => ?_⟩
    obtain ⟨ha, hcontext⟩ := hagain e' (hcontinues'.trans he')
    obtain ⟨hb', hcontext'⟩ := hagain' (m'.run e').2 (by rw [hcontext]; exact he')
    rw [run_bind, ha]
    exact ⟨hb', hcontext'.trans hcontext⟩

theorem Repeats.ite {p : Prop} [Decidable p] {n n' : Evaluating (Option α)} (h : Repeats m m')
    (h' : Repeats n n') : Repeats (if p then m else n) (if p then m' else n') := by
  by_cases hp : p
  · rwa [if_pos hp, if_pos hp]
  · rwa [if_neg hp, if_neg hp]

/-- A formula whose value is an operand of what follows. -/
theorem Repeats.bind_expect {γ : Type} {expect : Position → Option Value → Evaluating (Option γ)}
    (hexpect : Expects expect) {n n' : Evaluating (Option Value)} (h : Repeats n n')
    {pos pos' : Position} {k k' : Option γ → Evaluating (Option β)}
    (hk : ∀ a, Repeats (k (some a)) (k' (some a))) (hnone : Never (k none)) :
    Repeats (n >>= fun v => expect pos v >>= k) (n' >>= fun v => expect pos' v >>= k') := by
  refine h.bind (fun v => ?_) ?_
  · exact ((hexpect.some v).repeats pos pos').bind hk hnone
  · rw [hexpect.none]
    exact hnone

/-- The computation only asks for what later contexts say as well. -/
def Asks (m : Evaluating α) : Prop :=
  ∀ e, (m.run e).2 = e ∧ ∀ e', Continues e.context e'.context → (m.run e').1 = (m.run e).1

theorem Asks.bind_repeats {m : Evaluating α} {k k' : α → Evaluating (Option β)} (h : Asks m)
    (hk : ∀ a, Repeats (k a) (k' a)) : Repeats (m >>= k) (m >>= k') := by
  intro e b hb
  rw [run_bind, (h e).1] at hb ⊢
  obtain ⟨hcontinues, hagain⟩ := hk _ e b hb
  refine ⟨hcontinues, fun e' he' => ?_⟩
  rw [run_bind, (h e').1, (h e).2 e' (hcontinues.trans he')]
  exact hagain e' he'

theorem Asks.map {m : Evaluating α} (h : Asks m) (f : α → β) :
    Asks (m >>= fun a => pure (f a)) := by
  intro e
  refine ⟨(h e).1, fun e' he' => ?_⟩
  rw [run_bind, run_bind, run_pure, run_pure, (h e).2 e' he']

/-- The date, the place and the sky are the same in later contexts. -/
theorem asks_context (f : Date → Place → Sky → α) :
    Asks (context >>= fun c => pure (f c.date c.place c.sky)) := by
  intro e
  refine ⟨rfl, fun e' h => ?_⟩
  change f e'.context.date e'.context.place e'.context.sky = _
  rw [h.date, h.place, h.sky]
  rfl

/-- What was remembered is there already the second time. -/
theorem repeats_remember (key : String) (t : Time) (h : Repeats m m') :
    Repeats (remember key t >>= fun _ => m) (remember key t >>= fun _ => m') := by
  intro e a ha
  obtain ⟨hcontinues, hagain⟩ := h { e with context := e.context.remember key t } a ha
  have hkept : Continues e.context (e.context.remember key t) :=
    ⟨rfl, rfl, rfl, fun _ _ hk => Ledger.get?_putNew_of_get? hk key t⟩
  refine ⟨hkept.trans hcontinues, fun e' he' => ?_⟩
  have hthere := hcontinues.times key _
    ((Ledger.get?_putNew e.context.times key key t).trans (if_pos rfl))
  have hsame : e'.context.remember key t = e'.context := by
    rw [Context.remember, Ledger.putNew_of_get? (he'.times key _ hthere)]
  have hrun := hagain { e' with context := e'.context.remember key t } (by rw [hsame]; exact he')
  exact ⟨hrun.1, hrun.2.trans hsame⟩

/-- Entering a value in the breakdown makes no difference. -/
theorem repeats_record {name name' : String} {v v' : Value} (h : Repeats m m') :
    Repeats (record name v >>= fun _ => m) (record name' v' >>= fun _ => m') :=
  fun _ a ha => ⟨(h _ a ha).1, fun _ he' => (h _ a ha).2 _ he'⟩

end Evaluating

/-! ## Questions and primitives -/

namespace Afresh

@[simp] theorem run_sunTimes (e : Evaluator) :
    sunTimes.run e = (e.context.sky.sunTimes e.context.date e.context.place, e) := rfl

@[simp] theorem run_crossings (degrees : Float) (e : Evaluator) : (crossings degrees).run e =
    (e.context.sky.crossings e.context.date e.context.place degrees, e) := rfl

theorem asks_sunTimes : Asks sunTimes := asks_context fun date place sky => sky.sunTimes date place

theorem asks_crossings (degrees : Float) : Asks (crossings degrees) :=
  asks_context fun date place sky => sky.crossings date place degrees

theorem asks_moment (p : Primitive) : Asks (moment p) := by
  unfold moment
  cases p.twilight? with
  | some twilight => exact (asks_crossings twilight.1).map _
  | none => exact asks_sunTimes.map _

theorem asks_circumstance (v : Circumstance) : Asks (circumstance v) := by
  cases v with
  | latitude => exact asks_context fun _ place _ => Value.number place.latitude
  | longitude => exact asks_context fun _ place _ => Value.number place.longitude
  | elevation => exact asks_context fun _ place _ => Value.number place.elevation
  | dayLength =>
    exact asks_context fun date place sky => Value.duration (sky.sunTimes date place).dayLength
  | month => exact asks_context fun date _ _ => Value.number (Float.ofNat date.month)
  | season =>
    exact asks_context fun date place _ =>
      Value.string (Season.ofMonth date.month place.latitude).name

theorem repeats_primitive (p : Primitive) (pos pos' : Position) :
    Repeats (primitive p pos) (primitive p pos') := by
  refine (asks_moment p).bind_repeats fun t => ?_
  cases t with
  | none => exact (never_bind fun c => never_fail _ _).repeats
  | some t => exact repeats_remember p.name t (repeats_record (repeats_pure t))

theorem repeats_solarTime (degrees : Float) (direction : Direction) (pos pos' : Position) :
    Repeats (solarTime degrees direction pos) (solarTime degrees direction pos') := by
  refine (asks_crossings degrees).bind_repeats fun a => ?_
  cases (if direction.isMorning then a.ascending else a.descending) with
  | none => exact (never_bind fun c => never_fail _ _).repeats
  | some t => exact repeats_pure t

theorem repeats_spanEnds (b : DaySpan) (pos pos' : Position) :
    Repeats (spanEnds b pos) (spanEnds b pos') := by
  refine (repeats_primitive .sunrise pos pos').bind (fun rise => ?_) ?_
  · refine (repeats_primitive .sunset pos pos').bind (fun set => ?_) never_none
    refine ((settles_shift rise (-b.margin)).repeats pos pos').bind (fun start => ?_) ?_
    · exact ((settles_shift set b.margin).repeats pos pos').bind (fun finish => repeats_pure _)
        never_none
    · exact never_bind fun _ => never_none
  · exact never_bind fun _ => never_none

theorem never_call {m : Evaluating (Option Time)} (h : Never m) (name : String) :
    Never (call name m) := by
  intro e
  rw [call, run_bind, h e]
  rfl

theorem repeats_call {m m' : Evaluating (Option Time)} (h : Repeats m m') (name name' : String) :
    Repeats (call name m) (call name' m') :=
  h.bind (fun _ => repeats_record (repeats_pure _)) never_none

end Afresh

/-! ## Formulas -/

theorem repeats_directionOf {f g : Formula} (h : f.unplaced = g.unplaced) :
    Repeats (directionOf f) (directionOf g) := by
  cases f with
  | direction =>
    cases g <;> cases h
    exact repeats_pure _
  | _ => exact (never_fail _ _).repeats

namespace Formula

/-- A reference that was found is found later on. -/
theorem repeats_reference (key : String) (pos pos' : Position) :
    Repeats (reference pos key).evalAfresh (reference pos' key).evalAfresh := by
  intro e a ha
  rw [evalAfresh, run_context_bind] at ha ⊢
  cases htime : e.context.time? key with
  | none =>
    rw [htime] at ha
    cases ha
  | some t =>
    rw [htime] at ha
    refine ⟨.refl e.context, fun e' he' => ?_⟩
    rw [evalAfresh, run_context_bind, he'.times key t htime]
    exact ⟨ha, rfl⟩

/-! ### Calls -/

section Calls

variable {a a' b b' c c' : Formula} (pos pos' basePos basePos' : Position)

theorem repeats_solar (ha : Repeats a.evalAfresh a'.evalAfresh) (hb : b.unplaced = b'.unplaced) :
    Repeats (call pos .solar [a, b]).evalAfresh (call pos' .solar [a', b']).evalAfresh := by
  rw [evalAfresh, evalAfresh]
  refine Afresh.repeats_call ?_ _ _
  refine .bind_expect (expects_number _) ha (fun x => ?_) (never_bind fun _ => never_none)
  exact (repeats_directionOf hb).bind (fun d => Afresh.repeats_solarTime x d _ _) never_none

theorem repeats_customHour (ha : Repeats a.evalAfresh a'.evalAfresh)
    (hb : Repeats b.evalAfresh b'.evalAfresh) (hc : Repeats c.evalAfresh c'.evalAfresh) :
    Repeats (call pos .proportionalHours [a, customSpan basePos [b, c]]).evalAfresh
      (call pos' .proportionalHours [a', customSpan basePos' [b', c']]).evalAfresh := by
  rw [evalAfresh, evalAfresh]
  refine Afresh.repeats_call ?_ _ _
  refine .bind_expect (expects_number _) ha (fun count => ?_)
    (never_bind fun _ => never_bind fun _ => never_bind fun _ => never_bind fun _ => never_none)
  refine .bind_expect (expects_time _) hb (fun start => ?_)
    (never_bind fun _ => never_bind fun _ => never_none)
  exact .bind_expect (expects_time _) hc
    (fun finish => (settles_hourTime (start, finish) count).repeats _ _) never_none

theorem repeats_spanHour (ha : Repeats a.evalAfresh a'.evalAfresh) (d : DaySpan) :
    Repeats (call pos .proportionalHours [a, span basePos d]).evalAfresh
      (call pos' .proportionalHours [a', span basePos' d]).evalAfresh := by
  rw [evalAfresh, evalAfresh]
  · refine Afresh.repeats_call ?_ _ _
    refine .bind_expect (expects_number _) ha (fun count => ?_) (never_bind fun _ => never_none)
    exact (Afresh.repeats_spanEnds d _ _).bind
      (fun ends => (settles_hourTime ends count).repeats _ _) never_none
  all_goals simp

theorem repeats_midpoint (ha : Repeats a.evalAfresh a'.evalAfresh)
    (hb : Repeats b.evalAfresh b'.evalAfresh) :
    Repeats (call pos .midpoint [a, b]).evalAfresh (call pos' .midpoint [a', b']).evalAfresh := by
  rw [evalAfresh, evalAfresh]
  refine Afresh.repeats_call ?_ _ _
  refine .bind_expect (expects_time _) ha (fun first => ?_)
    (never_bind fun _ => never_bind fun _ => never_none)
  exact .bind_expect (expects_time _) hb (fun second => repeats_pure _) never_none

end Calls

/-- Two formulas that differ in positions only have the same values, now and later. -/
theorem repeats_evalAfresh (f : Formula) :
    ∀ g : Formula, f.unplaced = g.unplaced → Repeats f.evalAfresh g.evalAfresh := by
  induction f using evalAfresh.induct with
  | case1 pos event =>
    intro g h
    cases g <;> cases h
    rw [evalAfresh, evalAfresh]
    exact (Afresh.repeats_primitive event _ _).bind (fun _ => repeats_pure _) never_none
  | case2 | case3 | case4 =>
    intro g h
    cases g <;> cases h
    exact repeats_pure _
  | case5 pos key =>
    intro g h
    cases g <;> cases h
    exact repeats_reference key _ _
  | case6 pos d => exact fun _ _ => (never_fail _ _).repeats
  | case7 pos b => exact fun _ _ => (never_fail _ _).repeats
  | case8 pos bounds => exact fun _ _ => (never_fail _ _).repeats
  | case9 pos v =>
    intro g h
    cases g <;> cases h
    rw [evalAfresh, evalAfresh]
    exact (Afresh.asks_circumstance v).bind_repeats fun _ => repeats_pure _
  | case10 pos op left right ihl ihr =>
    intro g h
    cases g <;> simp only [unplaced, reduceCtorEq, binary.injEq, true_and] at h
    obtain ⟨rfl, hl, hr⟩ := h
    rw [evalAfresh, evalAfresh]
    refine (ihl _ hl).bind (fun l => ?_) (never_bind fun _ => never_none)
    exact (ihr _ hr).bind (fun r => (settles_operate op l r).repeats _ _) never_none
  | case11 pos c t ihc iht =>
    intro g h
    cases g <;> simp only [unplaced, reduceCtorEq, ifThen.injEq, true_and] at h
    rw [evalAfresh, evalAfresh]
    refine (ihc _ h.1).bind (fun v => ?_) never_none
    cases v with
    | boolean b =>
      cases b with
      | true => exact iht _ h.2
      | false => exact (never_fail _ _).repeats
    | _ => exact (never_fail _ _).repeats
  | case12 pos c t e ihc iht ihe =>
    intro g h
    cases g <;> simp only [unplaced, reduceCtorEq, ifElse.injEq, true_and] at h
    rw [evalAfresh, evalAfresh]
    refine (ihc _ h.1).bind (fun v => ?_) never_none
    cases v with
    | boolean b =>
      cases b with
      | true => exact iht _ h.2.1
      | false => exact ihe _ h.2.2
    | _ => exact (never_fail _ _).repeats
  | case13 pos relation left right hr ihl ihr =>
    intro g h
    cases g <;> simp only [unplaced, reduceCtorEq, condition.injEq, true_and] at h
    obtain ⟨rfl, hl, hr'⟩ := h
    rw [evalAfresh, evalAfresh, if_pos hr, if_pos hr]
    refine .bind_expect (expects_boolean relation) (ihl _ hl) (fun l => ?_) never_none
    refine (repeats_pure _).ite ((repeats_pure _).ite ?_)
    exact .bind_expect (expects_boolean relation) (ihr _ hr') (fun r => repeats_pure _) never_none
  | case14 pos relation left right hr ihl ihr =>
    intro g h
    cases g <;> simp only [unplaced, reduceCtorEq, condition.injEq, true_and] at h
    obtain ⟨rfl, hl, hr'⟩ := h
    rw [evalAfresh, evalAfresh, if_neg hr, if_neg hr]
    refine (ihl _ hl).bind (fun l => ?_) (never_bind fun _ => never_none)
    exact (ihr _ hr').bind (fun r => (settles_compare relation l r).repeats _ _) never_none
  | case15 pos degrees crossing ih =>
    intro g h
    obtain ⟨pos', degrees', crossing', rfl, hd, hc⟩ := exists_call_of_unplaced h
    exact repeats_solar pos pos' (ih _ hd) hc
  | case16 pos hours basePos first second ihh ihf ihs =>
    intro g h
    obtain ⟨pos', hours', base', rfl, hh, hb⟩ := exists_call_of_unplaced h
    obtain ⟨basePos', first', second', rfl, hf, hs⟩ := exists_customSpan_of_unplaced hb
    exact repeats_customHour pos pos' basePos basePos' (ihh _ hh) (ihf _ hf) (ihs _ hs)
  | case17 pos hours base hbase ih =>
    intro g h
    obtain ⟨pos', hours', base', rfl, hh, hb⟩ := exists_call_of_unplaced h
    cases base with
    | span basePos d =>
      cases base' <;> cases hb
      exact repeats_spanHour pos pos' basePos _ (ih _ hh) d
    | _ =>
      rw [evalAfresh]
      · refine (Afresh.never_call (never_bind fun _ => never_bind fun count => ?_) _).repeats
        exact fun _ => by cases count <;> rfl
      · exact hbase
  | case18 pos first second ihf ihs =>
    intro g h
    obtain ⟨pos', first', second', rfl, hf, hs⟩ := exists_call_of_unplaced h
    exact repeats_midpoint pos pos' (ihf _ hf) (ihs _ hs)
  | case19 pos function args h₁ h₂ h₃ h₄ =>
    intro g h
    rw [evalAfresh]
    · exact Never.repeats fun _ => rfl
    all_goals assumption

end Formula

end Sundial
