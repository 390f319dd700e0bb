import Sundial.Proofs.Evaluation.Afresh
import Sundial.Proofs.Evaluation.Effects
import Sundial.Proofs.Evaluation.Reachable

/-!
# What the outcome of an evaluation hangs on

Without memory the outcome of an evaluation hangs on the date, the place, the sky and the times of
the keys that the formula refers to: `evaluateAfresh_congr`. Other times make no difference, not
even those that the evaluation itself remembers. With memory the same holds in every context in
use: `evaluate_congr`.

Two contexts may also differ in which primitives they have remembered under loose keys. Then a
formula comes to the same in both, or one of them lacks the time of a primitive that the formula
refers to, and reports it (`evaluate_agrees`).
-/

set_option autoImplicit false

namespace Sundial

open Evaluating

theorem Primitive.eq_of_name {p q : Primitive} (h : p.name = q.name) : p = q :=
  Option.some.inj ((ofName?_name p).symm.trans ((congrArg ofName? h).trans (ofName?_name q)))

variable {α β : Type} {loose : String → Prop} {keys : List String}

/-- Among the faults is a reference to a loose key that names a primitive. -/
def Lacks (loose : String → Prop) (faults : List RuntimeError) : Prop :=
  ∃ x ∈ faults, ∃ p : Primitive, loose p.name ∧ x.cause = .undefinedReference p.name

theorem Lacks.mono {faults faults' : List RuntimeError} (h : Lacks loose faults)
    (hsub : ∀ x ∈ faults, x ∈ faults') : Lacks loose faults' := by
  obtain ⟨x, hx, hp⟩ := h
  exact ⟨x, hsub x hx, hp⟩

namespace Context

variable {c c' c'' : Context} {p : Primitive} {key : String} {t : Time}

/-- The moment of the sun's day that a primitive names. -/
def momentOf (c : Context) (p : Primitive) : Option Time :=
  ((Afresh.moment p).run ⟨.new c.date c.place c.sky, none⟩).1

theorem momentOf_congr (h : c'.setting = c.setting) (p : Primitive) :
    c'.momentOf p = c.momentOf p := by
  obtain ⟨hdate, hplace, hsky⟩ := setting_eq_iff.1 h
  rw [momentOf, momentOf, hdate, hplace, hsky]

theorem time?_remember (c : Context) (key k : String) (t : Time) :
    (c.remember key t).time? k =
      if key = k then some ((c.time? key).getD t) else c.time? k :=
  Ledger.get?_putNew c.times key k t

/-! ## Before and after -/

/-- What a computation without memory does to a context: faults are added, and primitives are
remembered. -/
structure Grows (c c' : Context) : Prop where
  setting : c'.setting = c.setting
  faults : ∀ x ∈ c.faults, x ∈ c'.faults
  times : ∀ k, c'.time? k = c.time? k ∨
    c.time? k = none ∧ ∃ p : Primitive, p.name = k ∧ c'.time? k = c.momentOf p

namespace Grows

theorem refl (c : Context) : Grows c c := ⟨rfl, fun _ h => h, fun _ => .inl rfl⟩

theorem trans (h : Grows c c') (h' : Grows c' c'') : Grows c c'' where
  setting := h'.setting.trans h.setting
  faults x hx := h'.faults x (h.faults x hx)
  times k := by
    rcases h'.times k with hsame' | ⟨hnone', p, hp, htime⟩
    · rw [hsame']
      exact h.times k
    · rw [momentOf_congr h.setting] at htime
      rcases h.times k with hsame | ⟨hnone, -⟩
      · exact .inr ⟨hsame ▸ hnone', p, hp, htime⟩
      · exact .inr ⟨hnone, p, hp, htime⟩

theorem fail (c : Context) (x : RuntimeError) : Grows c { c with faults := c.faults ++ [x] } :=
  ⟨rfl, fun _ h => List.mem_append_left _ h, fun _ => .inl rfl⟩

theorem remember (h : c.momentOf p = some t) : Grows c (c.remember p.name t) where
  setting := rfl
  faults _ hx := hx
  times k := by
    rw [time?_remember]
    by_cases hk : p.name = k
    · rw [if_pos hk]
      cases htime : c.time? p.name with
      | some u => exact .inl (by rw [← hk, htime]; rfl)
      | none => exact .inr ⟨hk ▸ htime, p, hk, h.symm⟩
    · exact .inl (if_neg hk)

end Grows

/-- Under the key there is no time, or the one that a primitive was remembered with. -/
def Incidental (c : Context) (key : String) : Prop :=
  c.time? key = none ∨ ∃ p : Primitive, p.name = key ∧ c.time? key = c.momentOf p

theorem Incidental.grows (h : c.Incidental key) (hgrows : Grows c c') : c'.Incidental key := by
  have hmoment := momentOf_congr hgrows.setting
  rcases hgrows.times key with hsame | ⟨-, p, hp, htime⟩
  · rcases h with hnone | ⟨p, hp, htime⟩
    · exact .inl (hsame.trans hnone)
    · exact .inr ⟨p, hp, by rw [hsame, htime, hmoment]⟩
  · exact .inr ⟨p, hp, by rw [htime, hmoment]⟩

theorem Incidental.congr (h : c.Incidental key) (hsetting : c'.setting = c.setting)
    (htimes : c'.times = c.times) : c'.Incidental key := by
  simp only [Incidental, time?, htimes, momentOf_congr hsetting] at h ⊢
  exact h

/-- Contexts with one setting remember a primitive at one moment. -/
theorem Incidental.eq_or_none (h : c.Incidental key) (h' : c'.Incidental key)
    (hsetting : c'.setting = c.setting) : c'.time? key = c.time? key ∨
      ∃ p : Primitive, p.name = key ∧ (c.time? key = none ∨ c'.time? key = none) := by
  rcases h with hnone | ⟨p, rfl, htime⟩
  · rcases h' with hnone' | ⟨p, hp, -⟩
    · exact .inl (hnone'.trans hnone.symm)
    · exact .inr ⟨p, hp, .inl hnone⟩
  · rcases h' with hnone' | ⟨q, hq, htime'⟩
    · exact .inr ⟨p, rfl, .inr hnone'⟩
    · obtain rfl := Primitive.eq_of_name hq
      exact .inl (by rw [htime, htime', momentOf_congr hsetting])

theorem Incidental.getD (h : c.Incidental p.name) (ht : c.momentOf p = some t) :
    (c.time? p.name).getD t = t := by
  rcases h with hnone | ⟨q, hq, htime⟩
  · rw [hnone]
    rfl
  · obtain rfl := Primitive.eq_of_name hq
    rw [htime, ht]
    rfl

/-! ## Side by side -/

/-- Both contexts have the setting and the faults in common, and under each key of the list the same
time or none; under loose keys one of them may have remembered a primitive that the other has
not. -/
structure Matches (loose : String → Prop) (keys : List String) (c c' : Context) : Prop where
  setting : c'.setting = c.setting
  faults : c'.faults = c.faults
  times : ∀ k ∈ keys, c'.time? k = c.time? k ∨ loose k ∧ c.Incidental k ∧ c'.Incidental k

namespace Matches

theorem refl (c : Context) : Matches loose keys c c := ⟨rfl, rfl, fun _ _ => .inl rfl⟩

theorem date (h : Matches loose keys c c') : c'.date = c.date := congrArg Prod.fst h.setting

theorem place (h : Matches loose keys c c') : c'.place = c.place :=
  congrArg (fun s => s.2.1) h.setting

theorem sky (h : Matches loose keys c c') : c'.sky = c.sky := congrArg (fun s => s.2.2) h.setting

theorem fail (h : Matches loose keys c c') (x : RuntimeError) : Matches loose keys
    { c with faults := c.faults ++ [x] } { c' with faults := c'.faults ++ [x] } where
  setting := h.setting
  faults := by rw [h.faults]
  times k hk := (h.times k hk).imp_right fun ⟨hloose, hc, hc'⟩ =>
    ⟨hloose, hc.grows (.fail c x), hc'.grows (.fail c' x)⟩

/-- A primitive is remembered in both contexts, where it is not yet. -/
theorem remember (h : Matches loose keys c c') (ht : c.momentOf p = some t) :
    Matches loose keys (c.remember p.name t) (c'.remember p.name t) where
  setting := h.setting
  faults := h.faults
  times k hk := by
    have ht' : c'.momentOf p = some t := (momentOf_congr h.setting p).trans ht
    rw [time?_remember, time?_remember]
    by_cases hname : p.name = k
    · subst hname
      rw [if_pos rfl, if_pos rfl]
      rcases h.times _ hk with hsame | ⟨-, hc, hc'⟩
      · exact .inl (by rw [hsame])
      · exact .inl (by rw [hc.getD ht, hc'.getD ht'])
    · rw [if_neg hname, if_neg hname]
      exact (h.times k hk).imp_right fun ⟨hloose, hc, hc'⟩ =>
        ⟨hloose, hc.grows (.remember ht), hc'.grows (.remember ht')⟩

end Matches

end Context

open Context (Grows Incidental Matches Reachable Truthful)

/-- In a truthful context a formula comes to what it comes to without memory. -/
theorem Context.Truthful.evaluate_afresh {c c' : Context} {source : String} {f : Formula}
    (h : Truthful c') (hf : Formula.parse source = .ok f) (hsetting : c'.setting = c.setting) :
    (f.evaluate c').1 = (f.evaluateAfresh c.date c.place c.sky c'.times).1 ∧
      (f.evaluate c').2.times = (f.evaluateAfresh c.date c.place c.sky c'.times).2 := by
  obtain ⟨hdate, hplace, hsky⟩ := Context.setting_eq_iff.1 hsetting
  have hlegible := Formula.legible_of_parse hf
  obtain ⟨hresult, htimes, -⟩ := Evaluator.run_eq_evaluateAfresh h hlegible none
  rw [← hdate, ← hplace, ← hsky]
  exact ⟨hresult, htimes⟩

namespace Evaluating

/-- In contexts that match on the keys the computation has the same value, and the contexts match
again, unless the time of a primitive is missing in one of them. -/
structure DependsOn (loose : String → Prop) (keys : List String) (m : Evaluating α) : Prop where
  grows : ∀ e, Grows e.context (m.run e).2.context
  agrees : ∀ e e', Matches loose keys e.context e'.context →
    ((m.run e').1 = (m.run e).1 ∧ Matches loose keys (m.run e).2.context (m.run e').2.context) ∨
      Lacks loose (m.run e).2.context.faults ∨ Lacks loose (m.run e').2.context.faults

theorem dependsOn_pure (a : α) : DependsOn loose keys (pure a) :=
  ⟨fun e => .refl e.context, fun _ _ h => .inl ⟨rfl, h⟩⟩

theorem DependsOn.bind {m : Evaluating α} {k : α → Evaluating β} (h : DependsOn loose keys m)
    (hk : ∀ a, DependsOn loose keys (k a)) : DependsOn loose keys (m >>= k) where
  grows e := (h.grows e).trans ((hk _).grows _)
  agrees e e' he := by
    rw [run_bind, run_bind]
    rcases h.agrees e e' he with ⟨hvalue, hmatches⟩ | hlacks | hlacks
    · rw [hvalue]
      exact (hk _).agrees _ _ hmatches
    · exact .inr (.inl (hlacks.mono ((hk _).grows _).faults))
    · exact .inr (.inr (hlacks.mono ((hk _).grows _).faults))

theorem dependsOn_fail (cause : RuntimeFault) (pos : Position) :
    DependsOn loose keys (fail cause pos : Evaluating (Option α)) :=
  ⟨fun _ => .fail _ _, fun _ _ h => .inl ⟨rfl, h.fail _⟩⟩

theorem dependsOn_record (name : String) (v : Value) : DependsOn loose keys (record name v) :=
  ⟨fun e => .refl e.context, fun _ _ h => .inl ⟨rfl, h⟩⟩

/-- A question to the setting. -/
theorem dependsOn_context {k : Context → Evaluating α}
    (h : ∀ c c', Matches loose keys c c' → k c' = k c ∧ DependsOn loose keys (k c)) :
    DependsOn loose keys (context >>= k) where
  grows e := (h e.context e.context (.refl _)).2.grows e
  agrees e e' he := by
    obtain ⟨hsame, hk⟩ := h e.context e'.context he
    rw [run_context_bind, run_context_bind, hsame]
    exact hk.agrees e e' he

end Evaluating

namespace Afresh

variable {e : Evaluator} {p : Primitive} {t : Time}

theorem dependsOn_sunTimes : DependsOn loose keys sunTimes := by
  apply dependsOn_context
  intro c c' h
  rw [h.date, h.place, h.sky]
  exact ⟨rfl, dependsOn_pure _⟩

theorem dependsOn_crossings (degrees : Float) : DependsOn loose keys (crossings degrees) := by
  apply dependsOn_context
  intro c c' h
  rw [h.date, h.place, h.sky]
  exact ⟨rfl, dependsOn_pure _⟩

/-- Without memory the question for a moment leaves no trace. -/
theorem run_moment (p : Primitive) (e : Evaluator) :
    (moment p).run e = (e.context.momentOf p, e) := by
  cases p <;> rfl

theorem run_primitive_of_some (h : e.context.momentOf p = some t) (pos : Position) :
    ((primitive p pos).run e).1 = some t ∧
      ((primitive p pos).run e).2.context = e.context.remember p.name t := by
  rw [primitive, run_bind, run_moment, h]
  exact ⟨rfl, rfl⟩

theorem run_primitive_of_none (h : e.context.momentOf p = none) (pos : Position) :
    (primitive p pos).run e =
      (fail (.absentPrimitive p e.context.date e.context.place.latitude) pos :
        Evaluating (Option Time)).run e := by
  rw [primitive, run_bind, run_moment, h]
  rfl

theorem dependsOn_primitive (p : Primitive) (pos : Position) :
    DependsOn loose keys (primitive p pos) where
  grows e := by
    cases h : e.context.momentOf p with
    | none =>
      rw [run_primitive_of_none h]
      exact .fail _ _
    | some t =>
      rw [(run_primitive_of_some h pos).2]
      exact .remember h
  agrees e e' he := by
    have hsame := Context.momentOf_congr he.setting p
    left
    cases h : e.context.momentOf p with
    | none =>
      rw [run_primitive_of_none h, run_primitive_of_none (hsame.trans h), he.date, he.place]
      exact ⟨rfl, he.fail _⟩
    | some t =>
      obtain ⟨hvalue, hcontext⟩ := run_primitive_of_some h pos
      obtain ⟨hvalue', hcontext'⟩ := run_primitive_of_some (hsame.trans h) pos
      rw [hvalue, hvalue', hcontext, hcontext']
      exact ⟨rfl, he.remember h⟩

theorem dependsOn_circumstance (v : Circumstance) : DependsOn loose keys (circumstance v) := by
  apply dependsOn_context
  intro c c' h
  rw [h.date, h.place]
  refine ⟨rfl, ?_⟩
  cases v with
  | dayLength => exact dependsOn_sunTimes.bind fun _ => dependsOn_pure _
  | _ => exact dependsOn_pure _

theorem dependsOn_solarTime (degrees : Float) (direction : Direction) (pos : Position) :
    DependsOn loose keys (solarTime degrees direction pos) := by
  apply (dependsOn_crossings degrees).bind
  intro a
  cases (if direction.isMorning then a.ascending else a.descending) with
  | some t => exact dependsOn_pure _
  | none =>
    apply dependsOn_context
    intro c c' h
    rw [h.date, h.place]
    exact ⟨rfl, dependsOn_fail _ _⟩

theorem dependsOn_call {m : Evaluating (Option Time)} (h : DependsOn loose keys m)
    (name : String) : DependsOn loose keys (call name m) := by
  apply h.bind
  intro t
  cases t with
  | some t => exact (dependsOn_record _ _).bind fun _ => dependsOn_pure _
  | none => exact dependsOn_pure _

theorem lockstep_dependsOn (loose : String → Prop) (keys : List String) :
    Lockstep (fun _ => True) fun _ m => DependsOn loose keys m where
  value := dependsOn_pure
  andThen := DependsOn.bind
  fault pos _ _ := dependsOn_fail _ pos
  primitive p pos _ := dependsOn_primitive p pos
  circumstance := dependsOn_circumstance
  solarTime degrees direction pos _ := dependsOn_solarTime degrees direction pos

end Afresh

namespace Formula

section References

variable {e : Evaluator} {key : String} {t : Time}

theorem run_reference_of_some (h : e.context.time? key = some t) (pos : Position) :
    ((reference pos key).evalAfresh.run e).1 = some (.time t) ∧
      ((reference pos key).evalAfresh.run e).2.context = e.context := by
  rw [evalAfresh, run_context_bind, h]
  exact ⟨rfl, rfl⟩

theorem run_reference_of_none (h : e.context.time? key = none) (pos : Position) :
    (reference pos key).evalAfresh.run e =
      (fail (.undefinedReference key) pos : Evaluating (Option Value)).run e := by
  rw [evalAfresh, run_context_bind, h]

/-- A reference without a time is reported. -/
theorem lacks_reference {p : Primitive} (hloose : loose p.name)
    (h : e.context.time? p.name = none) (pos : Position) :
    Lacks loose ((reference pos p.name).evalAfresh.run e).2.context.faults := by
  rw [run_reference_of_none h]
  exact ⟨_, List.mem_append_right _ (List.mem_singleton.2 rfl), p, hloose, rfl⟩

theorem dependsOn_reference (pos : Position) (h : key ∈ keys) :
    DependsOn loose keys (reference pos key).evalAfresh where
  grows e := by
    cases ht : e.context.time? key with
    | none =>
      rw [run_reference_of_none ht]
      exact .fail _ _
    | some t =>
      rw [(run_reference_of_some ht pos).2]
      exact .refl _
  agrees e e' he := by
    have hsame : e'.context.time? key = e.context.time? key →
        ((reference pos key).evalAfresh.run e').1 = ((reference pos key).evalAfresh.run e).1 ∧
          Matches loose keys ((reference pos key).evalAfresh.run e).2.context
            ((reference pos key).evalAfresh.run e').2.context := by
      intro hsame
      cases ht : e.context.time? key with
      | none =>
        rw [run_reference_of_none ht, run_reference_of_none (hsame.trans ht)]
        exact ⟨rfl, he.fail _⟩
      | some t =>
        obtain ⟨hvalue, hcontext⟩ := run_reference_of_some ht pos
        obtain ⟨hvalue', hcontext'⟩ := run_reference_of_some (hsame.trans ht) pos
        rw [hvalue, hvalue', hcontext, hcontext']
        exact ⟨rfl, he⟩
    -- Where the contexts differ, one of them has not remembered the primitive and says so.
    rcases he.times key h with htime | ⟨hloose, hc, hc'⟩
    · exact .inl (hsame htime)
    · rcases hc.eq_or_none hc' he.setting with htime | ⟨p, rfl, hnone | hnone⟩
      · exact .inl (hsame htime)
      · exact .inr (.inl (lacks_reference hloose hnone pos))
      · exact .inr (.inr (lacks_reference hloose hnone pos))

end References

/-- A formula that refers to nothing but the keys depends on nothing else. -/
theorem dependsOn_evalAfresh (f : Formula) (h : ∀ k ∈ f.references, k ∈ keys) :
    DependsOn loose keys f.evalAfresh := by
  apply (Afresh.lockstep_dependsOn loose keys).eval
  refine fun g hg => ⟨trivial, ?_⟩
  cases g with
  | reference pos key => exact dependsOn_reference pos (h key (mem_references_of_nodes hg))
  | call =>
    intro _ m hm heval
    rw [heval]
    exact Afresh.dependsOn_call hm _
  | _ => trivial

section Outcomes

variable (f : Formula) (date : Date) (place : Place) (sky : Sky) {times times' : Ledger String Time}

/-- With the same times for its references, up to primitives that are remembered under loose keys, a
formula comes to the same time or the same faults, or such a primitive is missing. -/
theorem evaluateAfresh_agrees
    (h : Matches loose f.references { Context.new date place sky with times := times }
      { Context.new date place sky with times := times' }) :
    (f.evaluateAfresh date place sky times').1 = (f.evaluateAfresh date place sky times).1 ∨
      (∃ es, (f.evaluateAfresh date place sky times).1 = .error es ∧ Lacks loose es) ∨
      ∃ es, (f.evaluateAfresh date place sky times').1 = .error es ∧ Lacks loose es := by
  have hreported : ∀ v (faults : List RuntimeError), Lacks loose faults →
      ∃ es, outcome f.pos v faults = .error es ∧ Lacks loose es := by
    rintro v faults ⟨x, hx, hp⟩
    obtain ⟨es, hes, hmem⟩ := exists_of_outcome f.pos v (List.ne_nil_of_mem hx)
    exact ⟨es, hes, x, hmem x hx, hp⟩
  have hdepends : DependsOn loose f.references f.evalAfresh :=
    f.dependsOn_evalAfresh fun k hk => hk
  rcases hdepends.agrees ⟨_, none⟩ ⟨_, none⟩ h with ⟨hvalue, hafter⟩ | hlacks | hlacks
  · exact .inl (congrArg₂ (outcome f.pos) hvalue hafter.faults)
  · exact .inr (.inl (hreported _ _ hlacks))
  · exact .inr (.inr (hreported _ _ hlacks))

/-- With the same times for its references, where there are any, a formula comes to the same time or
the same faults. -/
theorem evaluateAfresh_congr (h : ∀ k ∈ f.references, times'.get? k = times.get? k) :
    (f.evaluateAfresh date place sky times').1 = (f.evaluateAfresh date place sky times).1 := by
  have hmatches : Matches (fun _ => False) f.references
      { Context.new date place sky with times := times }
      { Context.new date place sky with times := times' } :=
    ⟨rfl, rfl, fun k hk => .inl (h k hk)⟩
  have hnone : ∀ es, ¬Lacks (fun _ => False) es := fun es ⟨_, _, _, hloose, _⟩ => hloose
  rcases f.evaluateAfresh_agrees date place sky hmatches with hsame | ⟨es, -, hlacks⟩ |
    ⟨es, -, hlacks⟩
  · exact hsame
  · exact absurd hlacks (hnone es)
  · exact absurd hlacks (hnone es)

end Outcomes

/-! ## Contexts in use -/

variable {c c' : Context} {source : String} {f : Formula}

/-- **The references of a formula are all that it reads of the times.** In two contexts in use with
the same setting a formula comes to the same time or the same faults, if the contexts have the same
times for its references. -/
theorem evaluate_congr (hc : Reachable c) (hc' : Reachable c') (hf : parse source = .ok f)
    (hsetting : c'.setting = c.setting) (htimes : ∀ k ∈ f.references, c'.time? k = c.time? k) :
    (f.evaluate c').1 = (f.evaluate c).1 := by
  obtain ⟨hdate, hplace, hsky⟩ : c'.date = c.date ∧ c'.place = c.place ∧ c'.sky = c.sky := by
    simpa [Context.setting] using hsetting
  have hlegible := legible_of_parse hf
  have hrun := (Evaluator.run_eq_evaluateAfresh hc.truthful hlegible none).1
  have hrun' := (Evaluator.run_eq_evaluateAfresh hc'.truthful hlegible none).1
  rw [hdate, hplace, hsky] at hrun'
  exact hrun'.trans ((f.evaluateAfresh_congr _ _ _ htimes).trans hrun.symm)

/-- In truthful contexts with one setting a formula comes to the same, if the contexts have the same
times for its references up to primitives that are remembered under loose keys, unless one of them
lacks such a primitive. -/
theorem evaluate_agrees (hc : Truthful c) (hc' : Truthful c') (hf : parse source = .ok f)
    (hsetting : c'.setting = c.setting)
    (htimes : ∀ k ∈ f.references,
      c'.time? k = c.time? k ∨ loose k ∧ c.Incidental k ∧ c'.Incidental k) :
    (f.evaluate c').1 = (f.evaluate c).1 ∨
      (∃ es, (f.evaluate c).1 = .error es ∧ Lacks loose es) ∨
      ∃ es, (f.evaluate c').1 = .error es ∧ Lacks loose es := by
  have hmatches : Matches loose f.references
      { Context.new c.date c.place c.sky with times := c.times }
      { Context.new c.date c.place c.sky with times := c'.times } := by
    refine ⟨rfl, rfl, fun k hk => (htimes k hk).imp_right ?_⟩
    rintro ⟨hloose, hinc, hinc'⟩
    exact ⟨hloose, hinc.congr rfl rfl, hinc'.congr hsetting.symm rfl⟩
  rw [(hc.evaluate_afresh hf rfl).1, (hc'.evaluate_afresh hf hsetting).1]
  exact f.evaluateAfresh_agrees c.date c.place c.sky hmatches

/-- What an evaluation remembers are moments of primitives. -/
theorem incidental_evaluate (hc : Truthful c) (hf : parse source = .ok f) {key : String}
    (h : c.Incidental key) : (f.evaluate c).2.Incidental key := by
  have hdepends : DependsOn (fun _ => False) f.references f.evalAfresh :=
    f.dependsOn_evalAfresh fun k hk => hk
  have hgrows := hdepends.grows ⟨{ Context.new c.date c.place c.sky with times := c.times }, none⟩
  have hstart : Context.Incidental { Context.new c.date c.place c.sky with times := c.times } key :=
    h.congr rfl rfl
  exact (hstart.grows hgrows).congr ((f.setting_evaluate c).trans hgrows.setting.symm)
    (hc.evaluate_afresh hf rfl).2

/-- A day on which the end of a fast is known. -/
def fastDay : Context := steadyDay.insert "fast" ⟨61200, 0⟩

/-- The result of the call is known the second time, and another sunset is stored. -/
theorem evaluate_fast_again : ∃ f, parse "midpoint(@fast, sunset)" = .ok f ∧
    f.references = ["fast"] ∧
    (f.evaluate (f.evaluate (fastDay.insert "sunset" ⟨0, 0⟩)).2).1 = (f.evaluate fastDay).1 := by
  have hparse : (parse "midpoint(@fast, sunset)").toOption.map references = some ["fast"] := by
    decide +kernel
  obtain ⟨f, hf, hreferences⟩ := exists_parse hparse
  have hfast : Reachable fastDay := .step (.new _ _ _) (.insert _ _ _)
  have hagain : Reachable (f.evaluate (fastDay.insert "sunset" ⟨0, 0⟩)).2 :=
    .step (.step hfast (.insert _ _ _)) (.evaluate _ _ _ hf)
  refine ⟨f, hf, hreferences, evaluate_congr hfast hagain hf ?_ ?_⟩
  · rw [f.setting_evaluate]
    rfl
  · rw [hreferences, List.forall_mem_singleton]
    exact (f.kept_evaluate _ "fast").time? rfl

/-- A call that no text is read as: three hours that are written `1h`. -/
def forgedMidpoint : Formula :=
  call ⟨1, 1⟩ .midpoint [ifElse ⟨1, 10⟩
    (condition ⟨1, 14⟩ .greater (duration ⟨1, 14⟩ 180.0 "1h") (duration ⟨1, 19⟩ 120.0 "2h"))
    (primitive ⟨1, 25⟩ .sunrise) (primitive ⟨1, 42⟩ .sunset), primitive ⟨1, 52⟩ .sunset]

/-- After a formula that is read from no text one that is can come to another time, without any
references: a result is known for the text of the call. -/
theorem evaluate_after_forgedMidpoint : ∃ f,
    parse "midpoint(if (1h > 2h) \x7b sunrise \x7d else \x7b sunset \x7d, sunset)" = .ok f ∧
    f.references = [] ∧ (forgedMidpoint.evaluate steadyDay).2.setting = steadyDay.setting ∧
    (f.evaluate (forgedMidpoint.evaluate steadyDay).2).1 ≠ (f.evaluate steadyDay).1 := by
  have hparse : (parse
      "midpoint(if (1h > 2h) \x7b sunrise \x7d else \x7b sunset \x7d, sunset)").toOption.map (fun f =>
      (f.references, decide ((f.evaluate (forgedMidpoint.evaluate steadyDay).2).1.toOption =
        (f.evaluate steadyDay).1.toOption))) = some ([], false) := by
    decide +kernel
  obtain ⟨f, hf, htold⟩ := exists_parse hparse
  obtain ⟨hreferences, hdiffers⟩ := Prod.mk.inj htold
  refine ⟨f, hf, hreferences, forgedMidpoint.setting_evaluate steadyDay, fun hsame => ?_⟩
  exact of_decide_eq_false hdiffers (congrArg Except.toOption hsame)

end Formula

end Sundial
