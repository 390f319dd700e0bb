import Sundial.Proofs.Evaluation.Effects
import Sundial.Proofs.Evaluation.Repeating
import Sundial.Proofs.Evaluation.Resolving

/-!
# Evaluations leave their trace

An evaluation that has a value goes through the steps that `Formula.resolve` writes down, though
calls that come again are not computed again and steps that come again are not entered again: it
`Follows` the trace, and its breakdown lists the steps of the trace.
-/

set_option autoImplicit false

namespace Sundial

open Evaluating

variable {α β : Type}

/-! ## Answers of a day -/

/-- What an evaluation can learn of its date and place. -/
structure Day where
  date : Date
  place : Place
  sun : SunTimes
  crossings : Float → Crossings

namespace Context

/-- The day of the context: what is known of the sky, and what it answers if it is asked. -/
def day (c : Context) : Day where
  date := c.date
  place := c.place
  sun := c.sun.getD (c.sky.sunTimes c.date c.place)
  crossings degrees := (c.angles.get? degrees.toBits).getD (c.sky.crossings c.date c.place degrees)

variable (c : Context) (degrees : Float)

theorem sunTimes_fst : c.sunTimes.1 = c.day.sun := by
  rw [sunTimes, day]
  cases c.sun <;> rfl

theorem crossings_fst : (c.crossings degrees).1 = c.day.crossings degrees := by
  simp only [crossings, day]
  cases c.angles.get? degrees.toBits <;> rfl

/-- The answer that is kept is the answer. -/
theorem day_sunTimes : c.sunTimes.2.day = c.day := by
  cases hs : c.sun with
  | some s => rw [sunTimes, hs]
  | none => simp [sunTimes_of_none hs, day, hs]

/-- An angle is given by its bits. -/
theorem day_crossings : (c.crossings degrees).2.day = c.day := by
  cases ha : c.angles.get? degrees.toBits with
  | some a => rw [crossings, ha]
  | none =>
    rw [crossings_of_none ha]
    simp only [day, Ledger.get?_put, Day.mk.injEq, true_and]
    funext degrees'
    split_ifs with hbits
    · have hsame : degrees = degrees' := by
        rw [← Binary64.ofBits_toBits degrees, hbits, Binary64.ofBits_toBits]
      rw [← hsame, ha]
      rfl
    · rfl

end Context

/-- The later state differs from the earlier one in faults and in what is known of the sky only. -/
structure Evaluator.Learns (e e' : Evaluator) : Prop where
  day : e'.context.day = e.context.day
  times : e'.context.times = e.context.times
  results : e'.context.results = e.context.results
  breakdown : e'.breakdown = e.breakdown

namespace Evaluator.Learns

variable {e e' e'' : Evaluator}

theorem refl (e : Evaluator) : Learns e e := ⟨rfl, rfl, rfl, rfl⟩

theorem trans (h : Learns e e') (h' : Learns e' e'') : Learns e e'' where
  day := h'.day.trans h.day
  times := h'.times.trans h.times
  results := h'.results.trans h.results
  breakdown := h'.breakdown.trans h.breakdown

end Evaluator.Learns

open Evaluator (Learns)

namespace Evaluating

/-- On one day both computations have one value, and they do not go beyond asking the sky. -/
def Looks (m m' : Evaluating α) : Prop :=
  ∀ e e' : Evaluator, e.context.day = e'.context.day → (m.run e).1 = (m'.run e').1 ∧
    Learns e (m.run e).2 ∧ Learns e' (m'.run e').2

theorem looks_pure (a : α) : Looks (pure a) (pure a) := fun e e' _ => ⟨rfl, .refl e, .refl e'⟩

theorem Looks.bind {m m' : Evaluating α} {k k' : α → Evaluating β} (h : Looks m m')
    (hk : ∀ a, Looks (k a) (k' a)) : Looks (m >>= k) (m' >>= k') := by
  intro e e' hday
  obtain ⟨hvalue, hlearns, hlearns'⟩ := h e e' hday
  have hlater : (m.run e).2.context.day = (m'.run e').2.context.day := by
    rw [hlearns.day, hday, hlearns'.day]
  rw [run_bind, run_bind, ← hvalue]
  obtain ⟨hnext, hmore, hmore'⟩ := hk (m.run e).1 _ _ hlater
  exact ⟨hnext, hlearns.trans hmore, hlearns'.trans hmore'⟩

theorem looks_context {k k' : Context → Evaluating α}
    (h : ∀ c c' : Context, c.day = c'.day → Looks (k c) (k' c')) :
    Looks (context >>= k) (context >>= k') :=
  fun e e' hday => h e.context e'.context hday e e' hday

theorem looks_fail (cause cause' : RuntimeFault) (pos pos' : Position) :
    Looks (fail cause pos : Evaluating (Option α)) (fail cause' pos') :=
  fun _ _ _ => ⟨rfl, ⟨rfl, rfl, rfl, rfl⟩, ⟨rfl, rfl, rfl, rfl⟩⟩

theorem looks_sunTimes : Looks sunTimes sunTimes := by
  have hlearns : ∀ e : Evaluator, Learns e (sunTimes.run e).2 := fun e => by
    refine ⟨e.context.day_sunTimes, ?_, ?_, rfl⟩
    · exact e.context.sunTimes_times
    · change e.context.sunTimes.2.results = _
      rw [Context.sunTimes]
      cases e.context.sun <;> rfl
  refine fun e e' hday => ⟨?_, hlearns e, hlearns e'⟩
  change e.context.sunTimes.1 = e'.context.sunTimes.1
  rw [Context.sunTimes_fst, Context.sunTimes_fst, hday]

theorem looks_crossings (degrees : Float) : Looks (crossings degrees) (crossings degrees) := by
  have hlearns : ∀ e : Evaluator, Learns e ((crossings degrees).run e).2 := fun e => by
    refine ⟨e.context.day_crossings degrees, ?_, ?_, rfl⟩
    · exact e.context.crossings_times degrees
    · change (e.context.crossings degrees).2.results = _
      rw [Context.crossings]
      cases e.context.angles.get? degrees.toBits <;> rfl
  refine fun e e' hday => ⟨?_, hlearns e, hlearns e'⟩
  change (e.context.crossings degrees).1 = (e'.context.crossings degrees).1
  rw [Context.crossings_fst, Context.crossings_fst, hday]

theorem Settles.looks {m : Position → Evaluating (Option α)} (h : Settles m)
    (pos pos' : Position) : Looks (m pos) (m pos') := by
  rcases h with ⟨a, h⟩ | ⟨cause, -, h⟩
  · rw [h, h]
    exact looks_pure _
  · rw [h, h]
    exact looks_fail _ _ _ _

theorem looks_moment (p : Primitive) : Looks (moment p) (moment p) := by
  unfold moment
  cases p.twilight? with
  | some twilight => exact (looks_crossings _).bind fun _ => looks_pure _
  | none => exact looks_sunTimes.bind fun _ => looks_pure _

theorem looks_circumstance (v : Circumstance) : Looks (circumstance v) (circumstance v) := by
  refine looks_context fun c c' h => ?_
  have hdate : c.date = c'.date := congrArg Day.date h
  have hplace : c.place = c'.place := congrArg Day.place h
  rw [hdate, hplace]
  cases v with
  | dayLength => exact looks_sunTimes.bind fun _ => looks_pure _
  | _ => exact looks_pure _

theorem looks_solarTime (degrees : Float) (direction : Direction) (pos pos' : Position) :
    Looks (solarTime degrees direction pos) (solarTime degrees direction pos') := by
  refine (looks_crossings degrees).bind fun a => ?_
  cases (if direction.isMorning then a.ascending else a.descending) with
  | some t => exact looks_pure _
  | none => exact looks_context fun c c' _ => looks_fail _ _ _ _

theorem looks_directionOf (f : Formula) : Looks (directionOf f) (directionOf f) := by
  cases f with
  | direction => exact looks_pure _
  | _ => exact looks_fail _ _ _ _

end Evaluating

/-! ## Evaluations and traces -/

open Resolving Trace

/-- The breakdown has one entry for each name among the steps, in the order in which the names first
come, with the value that every step of the name has. -/
structure Ledger.Lists (b : Breakdown) (steps : List (String × Value)) : Prop where
  keys : b.keys = (steps.map Prod.fst).eraseDups
  values : ∀ x ∈ steps, b.get? x.1 = some x.2

namespace Ledger.Lists

variable {b : Breakdown} {steps xs : List (String × Value)} {name : String} {v : Value}

theorem again (h : b.Lists steps) (hxs : ∀ x ∈ xs, x ∈ steps) : b.Lists (steps ++ xs) where
  keys := by
    have hnothing : (xs.map Prod.fst).removeAll (steps.map Prod.fst) = [] := by
      refine List.filter_eq_nil_iff.2 fun k hk => ?_
      obtain ⟨x, hx, rfl⟩ := List.mem_map.1 hk
      simpa using ⟨x.2, hxs x hx⟩
    rw [h.keys, List.map_append, List.eraseDups_append, hnothing]
    exact (List.append_nil _).symm
  values x hx := h.values x ((List.mem_append.1 hx).elim id (hxs x))

/-- A step is entered under its name, unless the name has come before with the same value. -/
theorem putNew (h : b.Lists steps) (hsame : ∀ x ∈ steps, x.1 = name → x.2 = v) :
    Lists (b.putNew name v) (steps ++ [(name, v)]) := by
  by_cases hmem : name ∈ steps.map Prod.fst
  · obtain ⟨x, hx, rfl⟩ := List.mem_map.1 hmem
    obtain rfl := hsame x hx rfl
    rw [Ledger.putNew_of_get? (h.values x hx)]
    exact h.again (List.forall_mem_singleton.2 hx)
  · have hkey : name ∉ b.keys := by
      rw [h.keys, List.mem_eraseDups]
      exact hmem
    have hput : b.putNew name v = b.put name v := by
      rw [Ledger.putNew, Ledger.contains, if_neg (by simpa using hkey)]
    have hnew : [name].removeAll (steps.map Prod.fst) = [name] := by
      simpa [List.removeAll] using hmem
    rw [hput]
    refine ⟨?_, List.forall_mem_append.2 ⟨fun x hx => ?_, by simp⟩⟩
    · rw [Ledger.keys_put, if_neg hkey, h.keys, List.map_append, List.eraseDups_append]
      change _ = _ ++ ([name].removeAll _).eraseDups
      rw [hnew]
      rfl
    · have hne : name ≠ x.1 := by
        rintro rfl
        exact hmem (List.mem_map_of_mem hx)
      rw [Ledger.get?_put, if_neg hne]
      exact h.values x hx

end Ledger.Lists

/-- From the trace on, the formula is resolved to the value, with nothing new. -/
def Found (c : Context) (s : Trace) (f : Formula) (v : Value) : Prop :=
  ∀ s', Later s s' → ∃ s'', (f.resolve c).run s' = some (v, s'') ∧ Again s' s''

theorem Found.mono {c : Context} {s s' : Trace} {f : Formula} {v : Value} (h : Found c s f v)
    (hs : Later s s') : Found c s' f v :=
  fun u hu => h u (hs.trans hu)

/-- What a formula was resolved to is found for every formula with its text. -/
theorem found_of_run {c : Context} {s₀ s : Trace} {f g : Formula} {v : Value}
    (hf : Legible .expression f) (hg : Legible .expression g) (htext : f.text = g.text)
    (h : (f.resolve c).run s₀ = some (v, s)) : Found c s g v := by
  rw [Found, ← f.resolve_eq_of_text hf hg htext]
  exact (f.recurs_resolve c s₀ v s h).2

/-- The evaluation is where the trace is: its breakdown lists the steps without repetitions, the
results that it knows are among them, and what the steps have found stays found. -/
structure Traced (c : Context) (e : Evaluator) (s : Trace) : Prop where
  day : e.context.day = c.day
  times : e.context.times = s.times
  results : ∀ name t, e.context.result? name = some t → (name, .time t) ∈ s.steps
  breakdown : ∃ b : Breakdown, e.breakdown = some b ∧ b.Lists s.steps
  found : ∀ x ∈ s.steps, ∀ f, Legible .expression f → f.text = x.1 → Found c s f x.2

namespace Traced

variable {c : Context} {e e' : Evaluator} {s s' : Trace}

theorem learns (h : Traced c e s) (hlearns : Learns e e') : Traced c e' s where
  day := hlearns.day.trans h.day
  times := hlearns.times.trans h.times
  results name t ht := by
    rw [Context.result?, hlearns.results] at ht
    exact h.results name t ht
  breakdown := by
    rw [hlearns.breakdown]
    exact h.breakdown
  found := h.found

/-- A trace that has only gone over its own steps again is as good. -/
theorem again (h : Traced c e s) (hs : Again s s') : Traced c e s' where
  day := h.day
  times := h.times.trans hs.times.symm
  results name t ht := hs.mem_steps.2 (h.results name t ht)
  breakdown := by
    obtain ⟨b, hb, hlists⟩ := h.breakdown
    obtain ⟨xs, hxs, hmem⟩ := hs.steps
    rw [hxs]
    exact ⟨b, hb, hlists.again hmem⟩
  found x hx f hf hname := (h.found x (hs.mem_steps.1 hx) f hf hname).mono hs.later

theorem remember (h : Traced c e s) (key : String) (t : Time) :
    Traced c { e with context := e.context.remember key t }
      { s with times := s.times.putNew key t } where
  day := h.day
  times := congrArg (·.putNew key t) h.times
  results := h.results
  breakdown := h.breakdown
  found x hx f hf hname := (h.found x hx f hf hname).mono
    ⟨fun _ _ hk => Ledger.get?_putNew_of_get? hk key t, fun _ hx => hx⟩

/-- A known result is a step. -/
theorem keepResult (h : Traced c e s) {call : String} {t : Time}
    (hstep : (call, .time t) ∈ s.steps) :
    Traced c { e with context := e.context.keepResult call t } s where
  day := h.day
  times := h.times
  results name u hu := by
    rw [Context.result?, Context.keepResult, Ledger.get?_put] at hu
    split_ifs at hu with hname
    · rw [← hname, ← Option.some.inj hu]
      exact hstep
    · exact h.results name u hu
  breakdown := h.breakdown
  found := h.found

/-- The step of a formula that was resolved is entered, unless it was entered before: then with the
same value. -/
theorem complete (h : Traced c e s) {f : Formula} (hf : Legible .expression f) {s₀ : Trace}
    {v : Value}
    (hrun : (f.resolve c).run s₀ = some (v, { s with steps := s.steps ++ [(f.text, v)] })) :
    Traced c { e with breakdown := e.breakdown.map fun b => b.putNew f.text v }
      { s with steps := s.steps ++ [(f.text, v)] } where
  day := h.day
  times := h.times
  results name t ht := List.mem_append_left _ (h.results name t ht)
  breakdown := by
    obtain ⟨b, hb, hlists⟩ := h.breakdown
    refine ⟨b.putNew f.text v, by rw [hb]; rfl, hlists.putNew fun x hx hname => ?_⟩
    -- Both an earlier step of that name and this one tell what the formula is resolved to now.
    obtain ⟨_, hearlier, -⟩ := h.found x hx f hf hname.symm
      { s with steps := s.steps ++ [(f.text, v)] }
      ⟨fun _ _ ht => ht, fun _ hx => List.mem_append_left _ hx⟩
    obtain ⟨_, hnow, -⟩ := found_of_run hf hf rfl hrun _ (.refl _)
    exact (Prod.mk.inj (Option.some.inj (hearlier.symm.trans hnow))).1
  found x hx g hg hname := by
    rcases List.mem_append.1 hx with hx | hx
    · exact (h.found x hx g hg hname).mono ⟨fun _ _ ht => ht, fun _ hx => List.mem_append_left _ hx⟩
    · obtain rfl := List.mem_singleton.1 hx
      exact found_of_run hf hg hname.symm hrun

/-- Entering a step that is listed changes nothing. -/
theorem enterAgain (h : Traced c e s) {x : String × Value} (hx : x ∈ s.steps) :
    Traced c { e with breakdown := e.breakdown.map fun b => b.putNew x.1 x.2 } s where
  day := h.day
  times := h.times
  results := h.results
  breakdown := by
    obtain ⟨b, hb, hlists⟩ := h.breakdown
    refine ⟨b, ?_, hlists⟩
    rw [hb, Option.map_some, Ledger.putNew_of_get? (hlists.values x hx)]
  found := h.found

end Traced

/-- Where the evaluation has a value, the trace has it as well, and both go on together. -/
def Follows (c : Context) (m : Evaluating (Option α)) (n : Resolving α) : Prop :=
  ∀ e s a, Traced c e s → (m.run e).1 = some a →
    ∃ s', n.run s = some (a, s') ∧ Traced c (m.run e).2 s'

section Follows

variable {c : Context} {m : Evaluating (Option α)} {n : Resolving α}

theorem follows_pure (a : α) : Follows c (pure (some a)) (pure a) := by
  intro e s b h hb
  cases hb
  exact ⟨s, rfl, h⟩

theorem Evaluating.Never.follows (h : Never m) : Follows c m n := by
  intro e s a _ ha
  rw [h e] at ha
  cases ha

theorem Evaluating.Looks.follows {m' : Evaluating (Option α)} (h : Looks m m') :
    Follows c m (given c m') := by
  intro e s a ht ha
  obtain ⟨hvalue, hlearns, -⟩ := h e ⟨c, none⟩ ht.day
  exact ⟨s, run_given_eq_some.2 ⟨hvalue.symm.trans ha, rfl⟩, ht.learns hlearns⟩

/-- One after the other; without a value of the first there is none at all. -/
theorem Follows.bind {k : Option α → Evaluating (Option β)} {k' : α → Resolving β}
    (h : Follows c m n) (hk : ∀ a, Follows c (k (some a)) (k' a)) (hnone : Never (k none)) :
    Follows c (m >>= k) (n >>= k') := by
  intro e s b ht hb
  rw [run_bind] at hb ⊢
  cases hm : (m.run e).1 with
  | none =>
    rw [hm, hnone] at hb
    cases hb
  | some a =>
    rw [hm] at hb
    obtain ⟨s₁, hs₁, ht₁⟩ := h e s a ht hm
    obtain ⟨s₂, hs₂, ht₂⟩ := hk a (m.run e).2 s₁ b ht₁ hb
    exact ⟨s₂, run_bind_eq_some.2 ⟨a, s₁, hs₁, hs₂⟩, ht₂⟩

/-- A formula whose value is an operand of what follows. -/
theorem Follows.bind_expect {γ : Type} {expect : Position → Option Value → Evaluating (Option γ)}
    (hexpect : Expects expect) {m : Evaluating (Option Value)} {n : Resolving Value}
    (h : Follows c m n) {pos : Position} {k : Option γ → Evaluating (Option β)}
    {k' : γ → Resolving β} (hk : ∀ a, Follows c (k (some a)) (k' a)) (hnone : Never (k none)) :
    Follows c (m >>= fun v => expect pos v >>= k)
      (n >>= fun v => given c (expect .start (some v)) >>= k') := by
  refine h.bind (fun v => ?_) ?_
  · exact (((hexpect.some v).looks pos .start).follows).bind hk hnone
  · rw [hexpect.none]
    exact hnone

theorem Follows.ite {p : Prop} [Decidable p] {m' : Evaluating (Option α)} {n' : Resolving α}
    (h : Follows c m n) (h' : Follows c m' n') :
    Follows c (if p then m else m') (if p then n else n') := by
  by_cases hp : p
  · rwa [if_pos hp, if_pos hp]
  · rwa [if_neg hp, if_neg hp]

/-! ### Steps -/

/-- A primitive is remembered and entered under its name. -/
theorem follows_primitive (p : Primitive) (pos : Position) :
    Follows c (Evaluating.primitive p pos) (Resolving.primitive c p) := by
  intro e s t ht hrun
  rw [Evaluating.primitive, run_bind] at hrun ⊢
  cases hm : ((moment p).run e).1 with
  | none =>
    rw [hm] at hrun
    cases hrun
  | some t' =>
    rw [hm] at hrun
    obtain rfl : t' = t := Option.some.inj hrun
    obtain ⟨s₁, hs₁, ht₁⟩ := (looks_moment p).follows e s t' ht hm
    have hresolve : (Resolving.primitive c p).run s = some (t',
        { times := s₁.times.putNew p.name t', steps := s₁.steps ++ [(p.name, .time t')] }) :=
      run_bind_eq_some.2 ⟨t', s₁, hs₁, rfl⟩
    have hformula := run_bind_eq_some (k := fun t => pure (Value.time t)).2 ⟨t', _, hresolve, rfl⟩
    exact ⟨_, hresolve, (ht₁.remember p.name t').complete (.primitive .start p) hformula⟩

theorem follows_reference {pos : Position} {key : String}
    (hf : Legible .expression (.reference pos key)) :
    Follows c (Formula.reference pos key).eval ((Formula.reference pos key).resolve c) := by
  intro e s v ht hrun
  rw [Formula.eval, run_context_bind] at hrun ⊢
  cases htime : e.context.time? key with
  | none =>
    rw [htime] at hrun
    cases hrun
  | some t =>
    rw [htime] at hrun
    obtain rfl := Option.some.inj hrun
    have hlookUp : (lookUp key).run s = some (t, s) :=
      run_lookUp_eq_some.2 ⟨by rw [← ht.times]; exact htime, rfl⟩
    have hresolve : ((Formula.reference pos key).resolve c).run s =
        some (.time t, { s with steps := s.steps ++ [("@" ++ key, .time t)] }) :=
      run_bind_eq_some.2 ⟨t, s, hlookUp, rfl⟩
    exact ⟨_, hresolve, ht.complete hf hresolve⟩

/-- A call whose result is known was gone through before, and one whose result is not known is
computed and kept. -/
theorem follows_throughResults {f : Formula} (hf : Legible .expression f)
    {m : Evaluating (Option Time)} {n : Resolving Time} (hm : Follows c m n)
    (hresolve : f.resolve c = Resolving.call f.text n) :
    Follows c (throughResults f.text m) (f.resolve c) := by
  intro e s v ht hrun
  rw [throughResults, run_context_bind] at hrun ⊢
  cases hresult : e.context.result? f.text with
  | some t =>
    rw [hresult] at hrun
    obtain rfl := Option.some.inj hrun
    have hstep := ht.results f.text t hresult
    obtain ⟨s', hs', hagain⟩ := ht.found _ hstep f hf rfl s (.refl s)
    exact ⟨s', hs', (ht.enterAgain hstep).again hagain⟩
  | none =>
    rw [hresult] at hrun
    rw [run_bind] at hrun ⊢
    cases hvalue : (m.run e).1 with
    | none =>
      rw [hvalue] at hrun
      cases hrun
    | some t =>
      rw [hvalue] at hrun
      obtain rfl := Option.some.inj hrun
      obtain ⟨s₁, hs₁, ht₁⟩ := hm e s t ht hvalue
      have hcall : (f.resolve c).run s =
          some (.time t, { s₁ with steps := s₁.steps ++ [(f.text, .time t)] }) := by
        rw [hresolve]
        exact run_bind_eq_some.2 ⟨t, s₁, hs₁, rfl⟩
      exact ⟨_, hcall, (ht₁.complete hf hcall).keepResult (List.mem_append_right _ (by simp))⟩

theorem follows_spanEnds (b : DaySpan) (pos : Position) :
    Follows c (Evaluating.spanEnds b pos) (Resolving.spanEnds c b) := by
  refine (follows_primitive .sunrise pos).bind (fun rise => ?_) (never_bind fun _ => never_none)
  refine (follows_primitive .sunset pos).bind (fun set => ?_) never_none
  refine ((settles_shift rise (-b.margin)).looks pos .start).follows.bind (fun start => ?_)
    (never_bind fun _ => never_none)
  exact ((settles_shift set b.margin).looks pos .start).follows.bind (fun finish => follows_pure _)
    never_none

theorem follows_spanHour {hours : Evaluating (Option Value)} {count : Resolving Value}
    (h : Follows c hours count) (b : DaySpan) (pos basePos : Position) :
    Follows c
      (do
        let x ← expectNumber .hourCount pos (← hours)
        let ends ← Evaluating.spanEnds b basePos
        match x, ends with
        | some x, some ends => hourTime ends x pos
        | _, _ => return none)
      (do
        let x ← given c (expectNumber .hourCount .start (some (← count)))
        let ends ← Resolving.spanEnds c b
        given c (hourTime ends x .start)) := by
  refine .bind_expect (expects_number _) h (fun x => ?_) (never_bind fun _ => never_none)
  exact (follows_spanEnds b basePos).bind
    (fun ends => ((settles_hourTime ends x).looks pos .start).follows) never_none

end Follows

/-! ## Formulas -/

namespace Formula

def isCondition : Formula → Bool
  | condition .. => true
  | _ => false

/-- Below a legible formula, whatever is no condition could stand where an expression stands. -/
theorem legible_nodes {level : Level} {f : Formula} (h : Legible level f) :
    ∀ g ∈ f.nodes, g.isCondition = false → Legible .expression g := by
  induction h with
  | call pos name as h ih => exact forall_nodes_call.2 ⟨fun _ => .call pos name as h, ih⟩
  | customSpan pos bounds h ih =>
    exact forall_nodes_customSpan.2 ⟨fun _ => .customSpan pos bounds h, ih⟩
  | binary pos op left right hl hr ihl ihr =>
    exact forall_nodes_binary.2 ⟨fun _ => .binary pos op left right hl hr, ihl, ihr⟩
  | compared _ _ _ _ _ _ _ ihl ihr | both _ _ _ _ _ ihl ihr | either _ _ _ _ _ ihl ihr =>
    exact forall_nodes_condition.2 ⟨nofun, ihl, ihr⟩
  | ifThen pos c t hc ht ihc iht =>
    exact forall_nodes_ifThen.2 ⟨fun _ => .ifThen pos c t hc ht, ihc, iht⟩
  | ifElse pos c t e hc ht he ihc iht ihe =>
    exact forall_nodes_ifElse.2 ⟨fun _ => .ifElse pos c t e hc ht he, ihc, iht, ihe⟩
  | bare _ _ ih | oneBoth _ _ ih | oneEither _ _ ih => exact ih
  | _ =>
    refine fun g hg _ => ?_
    rw [List.mem_singleton.1 hg]
    constructor
    try assumption

variable {c : Context}

/-- The evaluation of a formula goes through the steps of its trace. -/
theorem follows_eval (f : Formula)
    (h : ∀ g ∈ f.nodes, g.isCondition = false → Legible .expression g) :
    Follows c f.eval (f.resolve c) := by
  induction f using eval.induct with
  | case1 pos event =>
    rw [eval, resolve]
    exact (follows_primitive event pos).bind (fun t => follows_pure _) never_none
  | case2 | case3 | case4 => exact follows_pure _
  | case5 pos key => exact follows_reference (h _ (self_mem_nodes _) rfl)
  | case6 | case7 | case8 => exact (never_fail _ _).follows
  | case9 pos v => exact ((looks_circumstance v).bind fun x => looks_pure (some x)).follows
  | case10 pos op left right ihl ihr =>
    obtain ⟨-, hl, hr⟩ := forall_nodes_binary.1 h
    rw [eval, resolve]
    refine (ihl hl).bind (fun l => ?_) (never_bind fun _ => never_none)
    exact (ihr hr).bind (fun r => ((settles_operate op l r).looks pos .start).follows) never_none
  | case11 pos b t ihb iht =>
    obtain ⟨-, hb, ht⟩ := forall_nodes_ifThen.1 h
    rw [eval, resolve]
    refine (ihb hb).bind (fun v => ?_) never_none
    cases v with
    | boolean b =>
      cases b with
      | true => exact iht ht
      | false => exact (never_fail _ _).follows
    | _ => exact (never_fail _ _).follows
  | case12 pos b t e ihb iht ihe =>
    obtain ⟨-, hb, ht, he⟩ := forall_nodes_ifElse.1 h
    rw [eval, resolve]
    refine (ihb hb).bind (fun v => ?_) never_none
    cases v with
    | boolean b =>
      cases b with
      | true => exact iht ht
      | false => exact ihe he
    | _ => exact (never_fail _ _).follows
  | case13 pos relation left right hr ihl ihr =>
    obtain ⟨-, hl, hr'⟩ := forall_nodes_condition.1 h
    rw [eval, resolve, if_pos hr, if_pos hr]
    refine .bind_expect (expects_boolean relation) (ihl hl) (fun l => ?_) never_none
    refine (follows_pure _).ite ((follows_pure _).ite ?_)
    exact .bind_expect (expects_boolean relation) (ihr hr') (fun r => follows_pure _) never_none
  | case14 pos relation left right hr ihl ihr =>
    obtain ⟨-, hl, hr'⟩ := forall_nodes_condition.1 h
    rw [eval, resolve, if_neg hr, if_neg hr]
    refine (ihl hl).bind (fun l => ?_) (never_bind fun _ => never_none)
    exact (ihr hr').bind (fun r => ((settles_compare relation l r).looks pos .start).follows)
      never_none
  | case15 pos degrees crossing ih =>
    have hcall := h _ (self_mem_nodes _) rfl
    obtain ⟨-, hargs⟩ := forall_nodes_call.1 h
    rw [eval]
    refine follows_throughResults hcall ?_ (by rw [resolve])
    refine .bind_expect (expects_number _) (ih (hargs _ (by simp))) (fun x => ?_)
      (never_bind fun _ => never_none)
    refine (looks_directionOf crossing).follows.bind (fun d => ?_) never_none
    exact (looks_solarTime x d _ _).follows
  | case16 pos hours basePos first second ihh ihf ihs =>
    have hcall := h _ (self_mem_nodes _) rfl
    obtain ⟨-, hargs⟩ := forall_nodes_call.1 h
    obtain ⟨-, hbounds⟩ := forall_nodes_customSpan.1
      (hargs (customSpan basePos [first, second]) (by simp))
    rw [eval]
    refine follows_throughResults hcall ?_ (by rw [resolve])
    refine .bind_expect (expects_number _) (ihh (hargs _ (by simp))) (fun count => ?_)
      (never_bind fun _ => never_bind fun _ => never_bind fun _ => never_bind fun _ => never_none)
    refine .bind_expect (expects_time _) (ihf (hbounds _ (by simp))) (fun start => ?_)
      (never_bind fun _ => never_bind fun _ => never_none)
    exact .bind_expect (expects_time _) (ihs (hbounds _ (by simp)))
      (fun finish => ((settles_hourTime (start, finish) count).looks _ _).follows) never_none
  | case17 pos hours base hbase ih =>
    have hcall := h _ (self_mem_nodes _) rfl
    obtain ⟨-, hargs⟩ := forall_nodes_call.1 h
    have hhours := ih (hargs _ (by simp))
    rw [eval]
    · refine follows_throughResults hcall ?_ (by rw [resolve]; exact hbase)
      cases base with
      | span basePos b => exact follows_spanHour hhours b _ basePos
      | _ =>
        refine Never.follows (never_bind fun _ => never_bind fun count => ?_)
        exact fun _ => by cases count <;> rfl
    · exact hbase
  | case18 pos first second ihf ihs =>
    have hcall := h _ (self_mem_nodes _) rfl
    obtain ⟨-, hargs⟩ := forall_nodes_call.1 h
    rw [eval]
    refine follows_throughResults hcall ?_ (by rw [resolve])
    refine .bind_expect (expects_time _) (ihf (hargs _ (by simp))) (fun a => ?_)
      (never_bind fun _ => never_bind fun _ => never_none)
    exact .bind_expect (expects_time _) (ihs (hargs _ (by simp))) (fun b => follows_pure _)
      never_none
  | case19 pos function args h₁ h₂ h₃ h₄ =>
    have hcall := h _ (self_mem_nodes _) rfl
    have hresolve : (call pos function args).resolve c =
        Resolving.call (call pos function args).text failure := by
      rw [resolve]
      · rfl
      all_goals assumption
    rw [eval]
    · exact follows_throughResults hcall (never_fail _ _).follows hresolve
    all_goals assumption

end Formula

end Sundial
