import Sundial.Proofs.Evaluation.Steps
import Sundial.Proofs.Ledger
import Sundial.Proofs.Printing.RoundTrip

/-!
# What an evaluation goes through

`Formula.resolve` follows a formula through a successful evaluation and writes down the primitives,
references and calls in it, each with its time, as soon as the time is found. Nothing that was found
before is looked up: a call that comes twice is computed twice, and written down twice with all that
is in it. Only the times of references are kept, as primitives add to them.

Whatever was resolved once is resolved in the same way later on, with no time and no step that was
not there before: `recurring_resolve`.
-/

set_option autoImplicit false

namespace Sundial

open Evaluating

variable {α β : Type}

/-- The times that references resolve to, and the steps so far in the order of their completion. -/
structure Trace where
  times : Ledger String Time
  steps : List (String × Value)

/-- A computation along a trace; without a result there is no value. -/
abbrev Resolving := StateT Trace Option

namespace Resolving

/-- What a step of an evaluation gives on the day of the context, if it gives anything. -/
def given (c : Context) (m : Evaluating (Option α)) : Resolving α :=
  fun s => (m.run ⟨c, none⟩).1.map fun a => (a, s)

/-- The time of a reference. -/
def lookUp (key : String) : Resolving Time := fun s => (s.times.get? key).map fun t => (t, s)

def remember (key : String) (t : Time) : Resolving Unit :=
  modify fun s => { s with times := s.times.putNew key t }

/-- Writes a step down. -/
def complete (name : String) (v : Value) : Resolving Unit :=
  modify fun s => { s with steps := s.steps ++ [(name, v)] }

def primitive (c : Context) (p : Primitive) : Resolving Time := do
  let t ← given c (moment p)
  remember p.name t
  complete p.name (.time t)
  return t

/-- The ends of a named span. -/
def spanEnds (c : Context) (b : DaySpan) : Resolving (Time × Time) := do
  let rise ← primitive c .sunrise
  let set ← primitive c .sunset
  let start ← given c (shift rise (-b.margin) .start)
  let finish ← given c (shift set b.margin .start)
  return (start, finish)

/-- A call, complete when its time is computed. -/
def call (name : String) (compute : Resolving Time) : Resolving Value := do
  let t ← compute
  complete name (.time t)
  return .time t

end Resolving

open Resolving

/-- Resolves a formula on the day of the context. -/
def Formula.resolve (c : Context) : Formula → Resolving Value
  | primitive _ event => return .time (← Resolving.primitive c event)
  | duration _ minutes _ => return .duration minutes
  | number _ value => return .number value
  | string _ value => return .string value
  | reference _ key => do
    let t ← lookUp key
    complete ("@" ++ key) (.time t)
    return .time t
  | direction _ _ => failure
  | span _ _ => failure
  | customSpan _ _ => failure
  | circumstance _ v => given c (some <$> Evaluating.circumstance v)
  | binary _ op left right => do
    let l ← resolve c left
    let r ← resolve c right
    given c (operate op .start l r)
  | ifThen _ b t => do
    match ← resolve c b with
    | .boolean true => resolve c t
    | _ => failure
  | ifElse _ b t e => do
    match ← resolve c b with
    | .boolean true => resolve c t
    | .boolean false => resolve c e
    | _ => failure
  | condition _ relation left right =>
    if relation.isLogical then do
      let l ← given c (expectBoolean relation .start (some (← resolve c left)))
      if relation = .both ∧ l = false then return .boolean false
      else if relation = .either ∧ l = true then return .boolean true
      else return .boolean (← given c (expectBoolean relation .start (some (← resolve c right))))
    else do
      let l ← resolve c left
      let r ← resolve c right
      given c (compare relation .start l r)
  | call pos .solar [degrees, crossing] =>
    Resolving.call (text (call pos .solar [degrees, crossing])) do
      let x ← given c (expectNumber .solarDegrees .start (some (← resolve c degrees)))
      let d ← given c (directionOf crossing)
      given c (solarTime x d .start)
  | call pos .proportionalHours [hours, customSpan basePos [first, second]] =>
    let base := customSpan basePos [first, second]
    Resolving.call (text (call pos .proportionalHours [hours, base])) do
      let count ← given c (expectNumber .hourCount .start (some (← resolve c hours)))
      let start ← given c (expectTime .boundStart .start (some (← resolve c first)))
      let finish ← given c (expectTime .boundEnd .start (some (← resolve c second)))
      given c (hourTime (start, finish) count .start)
  | call pos .proportionalHours [hours, base] =>
    Resolving.call (text (call pos .proportionalHours [hours, base])) do
      let count ← given c (expectNumber .hourCount .start (some (← resolve c hours)))
      let ends ← match base with
        | span _ b => Resolving.spanEnds c b
        | _ => failure
      given c (hourTime ends count .start)
  | call pos .midpoint [first, second] =>
    Resolving.call (text (call pos .midpoint [first, second])) do
      let a ← given c (expectTime (.midpointArgument 1) .start (some (← resolve c first)))
      let b ← given c (expectTime (.midpointArgument 2) .start (some (← resolve c second)))
      return a.midpoint b
  | call _ _ _ => failure

/-! ## Later traces -/

namespace Trace

variable {s s' s'' : Trace}

/-- The later trace has all the times and all the steps of the earlier one. -/
structure Later (s s' : Trace) : Prop where
  times : ∀ key t, s.times.get? key = some t → s'.times.get? key = some t
  steps : ∀ x ∈ s.steps, x ∈ s'.steps

theorem Later.refl (s : Trace) : Later s s := ⟨fun _ _ h => h, fun _ h => h⟩

theorem Later.trans (h : Later s s') (h' : Later s' s'') : Later s s'' where
  times key t ht := h'.times key t (h.times key t ht)
  steps x hx := h'.steps x (h.steps x hx)

/-- The times are the same, and all that was added was there before. -/
structure Again (s s' : Trace) : Prop where
  times : s'.times = s.times
  steps : ∃ xs, s'.steps = s.steps ++ xs ∧ ∀ x ∈ xs, x ∈ s.steps

theorem Again.refl (s : Trace) : Again s s := ⟨rfl, [], by simp⟩

theorem Again.later (h : Again s s') : Later s s' := by
  obtain ⟨htimes, xs, hsteps, -⟩ := h
  refine ⟨fun key t ht => by rwa [htimes], fun x hx => ?_⟩
  rw [hsteps]
  exact List.mem_append_left xs hx

theorem Again.mem_steps (h : Again s s') {x : String × Value} : x ∈ s'.steps ↔ x ∈ s.steps := by
  obtain ⟨-, xs, hsteps, hxs⟩ := h
  rw [hsteps, List.mem_append]
  exact ⟨fun hx => hx.elim id (hxs x), .inl⟩

theorem Again.trans (h : Again s s') (h' : Again s' s'') : Again s s'' := by
  obtain ⟨ys, hys, hmem⟩ := h'.steps
  obtain ⟨xs, hxs, hmem'⟩ := h.steps
  refine ⟨h'.times.trans h.times, xs ++ ys, by rw [hys, hxs, List.append_assoc], fun x hx => ?_⟩
  rcases List.mem_append.1 hx with hx | hx
  · exact hmem' x hx
  · exact h.mem_steps.1 (hmem x hx)

end Trace

open Trace

namespace Resolving

/-! ## Computations that recur -/

/-- What the computation gives it gives again along every later trace, adding nothing new. -/
def Recurs (m : Resolving α) : Prop :=
  ∀ s a s₁, m.run s = some (a, s₁) → Later s s₁ ∧
    ∀ s', Later s₁ s' → ∃ s'', m.run s' = some (a, s'') ∧ Again s' s''

variable {m : Resolving α}

theorem recurs_pure (a : α) : Recurs (pure a : Resolving α) := by
  intro s b s₁ h
  cases h
  exact ⟨.refl s, fun s' _ => ⟨s', rfl, .refl s'⟩⟩

theorem recurs_failure : Recurs (failure : Resolving α) := by
  intro s a s₁ h
  cases h

theorem run_bind_eq_some {k : α → Resolving β} {s s' : Trace} {b : β} :
    (m >>= k).run s = some (b, s') ↔
      ∃ a s₁, m.run s = some (a, s₁) ∧ (k a).run s₁ = some (b, s') := by
  simp [StateT.run_bind, Option.bind_eq_some_iff]

theorem Recurs.bind {k : α → Resolving β} (h : Recurs m) (hk : ∀ a, Recurs (k a)) :
    Recurs (m >>= k) := by
  intro s b s₂ hb
  obtain ⟨a, s₁, ha, hb⟩ := run_bind_eq_some.1 hb
  obtain ⟨hlater, hagain⟩ := h s a s₁ ha
  obtain ⟨hlater', hagain'⟩ := hk a s₁ b s₂ hb
  refine ⟨hlater.trans hlater', fun s' hs' => ?_⟩
  obtain ⟨u, hu, hsame⟩ := hagain s' (hlater'.trans hs')
  obtain ⟨v, hv, hsame'⟩ := hagain' u (hs'.trans hsame.later)
  exact ⟨v, run_bind_eq_some.2 ⟨a, u, hu, hv⟩, hsame.trans hsame'⟩

theorem Recurs.ite {p : Prop} [Decidable p] {m' : Resolving α} (h : Recurs m) (h' : Recurs m') :
    Recurs (if p then m else m') := by
  split
  · exact h
  · exact h'

theorem run_given_eq_some {c : Context} {n : Evaluating (Option α)} {s s' : Trace} {a : α} :
    (given c n).run s = some (a, s') ↔ (n.run ⟨c, none⟩).1 = some a ∧ s = s' := by
  simp [given, StateT.run]

theorem recurs_given (c : Context) (n : Evaluating (Option α)) : Recurs (given c n) := by
  intro s a s₁ h
  obtain ⟨ha, rfl⟩ := run_given_eq_some.1 h
  exact ⟨.refl s, fun s' _ => ⟨s', run_given_eq_some.2 ⟨ha, rfl⟩, .refl s'⟩⟩

theorem run_lookUp_eq_some {key : String} {s s' : Trace} {t : Time} :
    (lookUp key).run s = some (t, s') ↔ s.times.get? key = some t ∧ s = s' := by
  simp [lookUp, StateT.run]

theorem recurs_lookUp (key : String) : Recurs (lookUp key) := by
  intro s t s₁ h
  obtain ⟨ht, rfl⟩ := run_lookUp_eq_some.1 h
  refine ⟨.refl s, fun s' hs' => ?_⟩
  exact ⟨s', run_lookUp_eq_some.2 ⟨hs'.times key t ht, rfl⟩, .refl s'⟩

theorem recurs_remember (key : String) (t : Time) : Recurs (remember key t) := by
  intro s a s₁ h
  cases h
  refine ⟨⟨fun _ _ h => Ledger.get?_putNew_of_get? h key t, fun _ h => h⟩, fun s' hs' => ?_⟩
  -- Whatever time was there before, there is one now.
  have hthere := hs'.times key _ ((Ledger.get?_putNew s.times key key t).trans (if_pos rfl))
  exact ⟨_, rfl, Ledger.putNew_of_get? hthere t, [], by simp⟩

theorem recurs_complete (name : String) (v : Value) : Recurs (complete name v) := by
  intro s a s₁ h
  cases h
  refine ⟨⟨fun _ _ h => h, fun _ h => List.mem_append_left _ h⟩, fun s' hs' => ?_⟩
  have hthere := hs'.steps (name, v) (List.mem_append_right _ (List.mem_singleton.2 rfl))
  exact ⟨_, rfl, rfl, [(name, v)], rfl, List.forall_mem_singleton.2 hthere⟩

theorem recurs_primitive (c : Context) (p : Primitive) : Recurs (primitive c p) :=
  (recurs_given c _).bind fun t => (recurs_remember p.name t).bind fun _ =>
    (recurs_complete p.name (.time t)).bind fun _ => recurs_pure t

theorem recurs_spanEnds (c : Context) (b : DaySpan) : Recurs (spanEnds c b) :=
  (recurs_primitive c _).bind fun _ => (recurs_primitive c _).bind fun _ =>
    (recurs_given c _).bind fun _ => (recurs_given c _).bind fun _ => recurs_pure _

theorem recurs_call (name : String) {compute : Resolving Time} (h : Recurs compute) :
    Recurs (call name compute) :=
  h.bind fun t => (recurs_complete name (.time t)).bind fun _ => recurs_pure _

end Resolving

namespace Formula

/-- A formula that was resolved is resolved to the same value from then on. -/
theorem recurs_resolve (c : Context) (f : Formula) : Recurs (f.resolve c) := by
  induction f using eval.induct with
  | case1 pos event => exact (recurs_primitive c event).bind fun _ => recurs_pure _
  | case2 | case3 | case4 => exact recurs_pure _
  | case5 pos key =>
    exact (recurs_lookUp key).bind fun t => (recurs_complete _ _).bind fun _ => recurs_pure _
  | case6 | case7 | case8 => exact recurs_failure
  | case9 pos v => exact recurs_given c _
  | case10 pos op left right ihl ihr =>
    exact ihl.bind fun _ => ihr.bind fun _ => recurs_given c _
  | case11 pos b t ihb iht =>
    refine ihb.bind fun v => ?_
    split
    · exact iht
    · exact recurs_failure
  | case12 pos b t e ihb iht ihe =>
    refine ihb.bind fun v => ?_
    split
    · exact iht
    · exact ihe
    · exact recurs_failure
  | case13 pos relation left right hr ihl ihr =>
    rw [resolve, if_pos hr]
    refine ihl.bind fun l => (recurs_given c _).bind fun l => (recurs_pure _).ite ?_
    exact (recurs_pure _).ite (ihr.bind fun _ => (recurs_given c _).bind fun _ => recurs_pure _)
  | case14 pos relation left right hr ihl ihr =>
    rw [resolve, if_neg hr]
    exact ihl.bind fun _ => ihr.bind fun _ => recurs_given c _
  | case15 pos degrees crossing ih =>
    refine recurs_call _ (ih.bind fun _ => (recurs_given c _).bind fun _ => ?_)
    exact (recurs_given c _).bind fun _ => recurs_given c _
  | case16 pos hours basePos first second ihh ihf ihs =>
    rw [resolve]
    refine recurs_call _ (ihh.bind fun _ => (recurs_given c _).bind fun _ => ?_)
    refine ihf.bind fun _ => (recurs_given c _).bind fun _ => ?_
    exact ihs.bind fun _ => (recurs_given c _).bind fun _ => recurs_given c _
  | case17 pos hours base hbase ih =>
    rw [resolve]
    · refine recurs_call _ (ih.bind fun _ => (recurs_given c _).bind fun _ => ?_)
      split
      · exact (recurs_spanEnds c _).bind fun _ => recurs_given c _
      · exact recurs_failure.bind fun _ => recurs_given c _
    · exact hbase
  | case18 pos first second ihf ihs =>
    refine recurs_call _ (ihf.bind fun _ => (recurs_given c _).bind fun _ => ?_)
    exact ihs.bind fun _ => (recurs_given c _).bind fun _ => recurs_pure _
  | case19 pos function args h₁ h₂ h₃ h₄ =>
    rw [resolve]
    · exact recurs_failure
    all_goals assumption

/-! ## Positions do not matter -/

theorem given_directionOf_unplaced (c : Context) (f : Formula) :
    given c (directionOf f.unplaced) = given c (directionOf f) := by
  cases f <;> rfl

/-- A base has bounds of its own wherever it was read. -/
theorem exists_customSpan_of_unplaced_eq {base first second : Formula} {pos : Position}
    (h : base.unplaced = customSpan pos [first, second]) :
    ∃ pos' first' second', base = customSpan pos' [first', second'] := by
  cases base <;> simp only [unplaced, reduceCtorEq, customSpan.injEq] at h
  next pos' bounds =>
    match bounds with
    | [] | [_] | _ :: _ :: _ :: _ => simp at h
    | [first', second'] => exact ⟨pos', first', second', rfl⟩

theorem resolve_unplaced (c : Context) (f : Formula) : f.unplaced.resolve c = f.resolve c := by
  induction f using eval.induct with
  | case1 | case2 | case3 | case4 | case5 | case6 | case7 | case8 | case9 => rfl
  | case10 pos op left right ihl ihr => rw [unplaced, resolve, resolve, ihl, ihr]
  | case11 pos b t ihb iht => rw [unplaced, resolve, resolve, ihb, iht]
  | case12 pos b t e ihb iht ihe => rw [unplaced, resolve, resolve, ihb, iht, ihe]
  | case13 pos relation left right hr ihl ihr | case14 pos relation left right hr ihl ihr =>
    rw [unplaced, resolve, resolve, ihl, ihr]
  | case15 pos degrees crossing ih =>
    have htext := text_unplaced (call pos .solar [degrees, crossing])
    simp only [unplaced, unplacedAll] at htext ⊢
    rw [resolve, resolve, htext, ih, given_directionOf_unplaced]
  | case16 pos hours basePos first second ihh ihf ihs =>
    have htext := text_unplaced
      (call pos .proportionalHours [hours, customSpan basePos [first, second]])
    simp only [unplaced, unplacedAll] at htext ⊢
    rw [resolve, resolve, htext, ihh, ihf, ihs]
  | case17 pos hours base hbase ih =>
    have htext := text_unplaced (call pos .proportionalHours [hours, base])
    simp only [unplaced, unplacedAll] at htext ⊢
    rw [resolve, resolve, htext, ih]
    · cases base <;> rfl
    · exact hbase
    · intro pos' first second h
      obtain ⟨basePos, first', second', rfl⟩ := exists_customSpan_of_unplaced_eq h
      exact hbase basePos first' second' rfl
  | case18 pos first second ihf ihs =>
    have htext := text_unplaced (call pos .midpoint [first, second])
    simp only [unplaced, unplacedAll] at htext ⊢
    rw [resolve, resolve, htext, ihf, ihs]
  | case19 pos function args h₁ h₂ h₃ h₄ =>
    match args with
    | [] | [_] | _ :: _ :: _ :: _ => simp [resolve]
    | [a, b] =>
      cases function with
      | solar => exact (h₁ a b rfl rfl).elim
      | proportionalHours => exact (h₃ a b rfl rfl).elim
      | midpoint => exact (h₄ a b rfl rfl).elim

/-- Formulas with one text have one value. -/
theorem resolve_eq_of_text {f g : Formula} (hf : Legible .expression f)
    (hg : Legible .expression g) (h : f.text = g.text) (c : Context) :
    f.resolve c = g.resolve c := by
  rw [← resolve_unplaced c f, unplaced_eq_of_text hf hg h, resolve_unplaced]

end Formula

end Sundial
