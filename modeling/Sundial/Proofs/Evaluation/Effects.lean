import Mathlib.Logic.Relation
import Sundial.Proofs.Evaluation.Lockstep
import Sundial.Proofs.Ledger

/-!
# What an evaluation does to its context

An evaluation changes its context in five ways only: it adds a fault, asks the sky for the sun's day
or for crossings, remembers a primitive, or keeps the result of a call. `performs_eval` says so of
every formula, whatever its value. So date, place and sky stay, a key keeps its time unless it had
none and names a primitive (`kept_evaluate`), and only references without a time are reported to be
undefined (`undefined_of_evaluate`).
-/

set_option autoImplicit false

namespace Sundial

open Evaluating

variable {α β : Type} {keys : List String}

/-- A fault that the context gives reason for: a reference that is reported to be undefined is one
of the keys, and there is no time for it. -/
def Context.Explains (keys : List String) (c : Context) (x : RuntimeError) : Prop :=
  ∀ k, x.cause = .undefinedReference k → k ∈ keys ∧ c.time? k = none

/-- One change of the context in an evaluation that refers to the keys. A primitive is remembered at
the moment that was found for it. -/
inductive Context.Effect (keys : List String) : Context → Context → Prop
  | fail (c : Context) (x : RuntimeError) (h : c.Explains keys x) :
      Effect keys c { c with faults := c.faults ++ [x] }
  | sunTimes (c : Context) : Effect keys c c.sunTimes.2
  | crossings (c : Context) (degrees : Float) : Effect keys c (c.crossings degrees).2
  | primitive (e : Evaluator) (p : Primitive) (t : Time) (h : ((moment p).run e).1 = some t) :
      Effect keys e.context (((moment p).run e).2.context.remember p.name t)
  | keepResult (c : Context) (call : String) (t : Time) : Effect keys c (c.keepResult call t)

open Context (Effect)

/-- No reason is needed for a fault that is about something else. -/
theorem Context.explains_of_eq_false {c : Context} {x : RuntimeError}
    (h : x.cause.isUndefinedReference = false) : c.Explains keys x := by
  intro k hk
  rw [hk] at h
  cases h

namespace Evaluating

/-- The context comes out with effects of evaluation only. -/
def Performs (keys : List String) (m : Evaluating α) : Prop :=
  ∀ e, Relation.ReflTransGen (Effect keys) e.context (m.run e).2.context

theorem performs_pure (a : α) : Performs keys (pure a) := fun _ => .refl

theorem performs_context : Performs keys context := fun _ => .refl

theorem performs_record (name : String) (v : Value) : Performs keys (record name v) :=
  fun _ => .refl

theorem performs_fail {cause : RuntimeFault} (pos : Position)
    (h : cause.isUndefinedReference = false) :
    Performs keys (fail cause pos : Evaluating (Option α)) :=
  fun _ => .single (.fail _ _ (Context.explains_of_eq_false h))

theorem performs_keepResult (call : String) (t : Time) : Performs keys (keepResult call t) :=
  fun _ => .single (.keepResult _ _ _)

theorem performs_sunTimes : Performs keys sunTimes := fun _ => .single (.sunTimes _)

theorem performs_crossings (degrees : Float) : Performs keys (crossings degrees) :=
  fun _ => .single (.crossings _ _)

theorem Performs.bind {m : Evaluating α} {k : α → Evaluating β} (h : Performs keys m)
    (hk : ∀ a, Performs keys (k a)) : Performs keys (m >>= k) := by
  intro e
  rw [run_bind]
  exact (h e).trans (hk _ _)

theorem performs_moment (p : Primitive) : Performs keys (moment p) := by
  unfold moment
  cases p.twilight? with
  | some twilight => exact (performs_crossings _).bind fun _ => performs_pure _
  | none => exact performs_sunTimes.bind fun _ => performs_pure _

theorem performs_primitive (p : Primitive) (pos : Position) : Performs keys (primitive p pos) := by
  intro e
  rw [primitive, run_bind]
  cases ht : ((moment p).run e).1 with
  | none => exact (performs_moment p e).tail (.fail _ _ (Context.explains_of_eq_false rfl))
  | some t => exact .single (.primitive e p t ht)

theorem performs_circumstance (v : Circumstance) : Performs keys (circumstance v) := by
  apply performs_context.bind
  intro c
  cases v with
  | dayLength => exact performs_sunTimes.bind fun _ => performs_pure _
  | _ => exact performs_pure _

theorem performs_solarTime (degrees : Float) (direction : Direction) (pos : Position) :
    Performs keys (solarTime degrees direction pos) := by
  apply (performs_crossings degrees).bind
  intro a
  cases (if direction.isMorning then a.ascending else a.descending) with
  | some t => exact performs_pure _
  | none => exact performs_context.bind fun _ => performs_fail _ rfl

theorem performs_throughResults {m : Evaluating (Option Time)} (h : Performs keys m)
    (call : String) : Performs keys (throughResults call m) := by
  apply performs_context.bind
  intro c
  cases c.result? call with
  | some t => exact (performs_record _ _).bind fun _ => performs_pure _
  | none =>
    apply h.bind
    intro t
    cases t with
    | none => exact performs_pure _
    | some t =>
      exact (performs_keepResult _ _).bind fun _ => (performs_record _ _).bind fun _ =>
        performs_pure _

theorem lockstep_performs (keys : List String) :
    Lockstep (fun _ => True) fun m _ => Performs keys m where
  value := performs_pure
  andThen := Performs.bind
  fault pos _ := performs_fail pos
  primitive p pos _ := performs_primitive p pos
  circumstance := performs_circumstance
  solarTime degrees direction pos _ := performs_solarTime degrees direction pos

theorem performs_reference (pos : Position) {key : String} (h : key ∈ keys) :
    Performs keys (Formula.reference pos key).eval := by
  intro e
  rw [Formula.eval, run_context_bind]
  cases ht : e.context.time? key with
  | some t => exact .refl
  | none =>
    refine .single (.fail _ _ ?_)
    rintro k ⟨⟩
    exact ⟨h, ht⟩

end Evaluating

/-- Every change in the evaluation of a formula is one of the effects. -/
theorem Formula.performs_eval (f : Formula) : Performs f.references f.eval := by
  apply (lockstep_performs f.references).eval
  refine fun g hg => ⟨trivial, ?_⟩
  cases g with
  | reference pos key => exact performs_reference pos (mem_references_of_nodes hg)
  | call => exact fun m _ hm _ => performs_throughResults hm _
  | _ => trivial

/-! ## What stays -/

namespace Context

/-- The key has the time that it had, or it had none and names a primitive. -/
def Kept (c c' : Context) (key : String) : Prop :=
  c'.time? key = c.time? key ∨ c.time? key = none ∧ ∃ p : Primitive, p.name = key

variable {c c' c'' : Context} {key : String} {t : Time}

theorem Kept.trans (h : Kept c c' key) (h' : Kept c' c'' key) : Kept c c'' key := by
  rcases h with h | h
  · rw [Kept, ← h]
    exact h'
  · exact .inr h

/-- A time that is there is kept. -/
theorem Kept.time? (h : Kept c c' key) (ht : c.time? key = some t) : c'.time? key = some t := by
  rcases h with h | ⟨hnone, -⟩
  · rw [h, ht]
  · rw [hnone] at ht
    cases ht

theorem time?_insert (c : Context) (key k : String) (t : Time) :
    (c.insert key t).time? k = if key = k then some t else c.time? k := by
  rw [Context.time?, Context.insert, Ledger.get?_put]
  rfl

@[simp] theorem sunTimes_times (c : Context) : c.sunTimes.2.times = c.times := by
  rw [sunTimes]
  cases c.sun <;> rfl

@[simp] theorem crossings_times (c : Context) (degrees : Float) :
    (c.crossings degrees).2.times = c.times := by
  rw [crossings]
  cases c.angles.get? degrees.toBits <;> rfl

@[simp] theorem sunTimes_faults (c : Context) : c.sunTimes.2.faults = c.faults := by
  rw [sunTimes]
  cases c.sun <;> rfl

@[simp] theorem crossings_faults (c : Context) (degrees : Float) :
    (c.crossings degrees).2.faults = c.faults := by
  rw [crossings]
  cases c.angles.get? degrees.toBits <;> rfl

/-- The date, the place and the sky. -/
def setting (c : Context) : Date × Place × Sky := (c.date, c.place, c.sky)

theorem setting_eq_iff : c'.setting = c.setting ↔
    c'.date = c.date ∧ c'.place = c.place ∧ c'.sky = c.sky := by
  simp [setting]

@[simp] theorem sunTimes_setting (c : Context) : c.sunTimes.2.setting = c.setting := by
  rw [sunTimes]
  cases c.sun <;> rfl

@[simp] theorem crossings_setting (c : Context) (degrees : Float) :
    (c.crossings degrees).2.setting = c.setting := by
  rw [crossings]
  cases c.angles.get? degrees.toBits <;> rfl

end Context

open Context (Kept)

@[simp] theorem Evaluating.moment_times (p : Primitive) (e : Evaluator) :
    ((moment p).run e).2.context.times = e.context.times := by
  rw [moment]
  cases p.twilight? with
  | some twilight => exact Context.crossings_times _ _
  | none => exact Context.sunTimes_times _

@[simp] theorem Evaluating.moment_setting (p : Primitive) (e : Evaluator) :
    ((moment p).run e).2.context.setting = e.context.setting := by
  rw [moment]
  cases p.twilight? with
  | some twilight => exact Context.crossings_setting _ _
  | none => exact Context.sunTimes_setting _

@[simp] theorem Evaluating.moment_faults (p : Primitive) (e : Evaluator) :
    ((moment p).run e).2.context.faults = e.context.faults := by
  rw [moment]
  cases p.twilight? with
  | some twilight => exact Context.crossings_faults _ _
  | none => exact Context.sunTimes_faults _

namespace Context.Effect

variable {c c' : Context}

theorem setting (h : Effect keys c c') : c'.setting = c.setting := by
  cases h with
  | fail | keepResult => rfl
  | sunTimes => exact sunTimes_setting c
  | crossings => exact crossings_setting c _
  | primitive e p => exact Evaluating.moment_setting p e

theorem kept (h : Effect keys c c') (key : String) : Kept c c' key := by
  cases h with
  | fail | keepResult => exact .inl rfl
  | sunTimes => exact .inl (by rw [time?, time?, sunTimes_times])
  | crossings => exact .inl (by rw [time?, time?, crossings_times])
  | primitive e p =>
    rw [Kept, time?, time?, remember, moment_times]
    cases hname : e.context.times.get? p.name with
    | some there => exact .inl (by rw [Ledger.putNew_of_get? hname])
    | none =>
      by_cases hkey : p.name = key
      · exact .inr ⟨hkey ▸ hname, p, hkey⟩
      · exact .inl (by rw [Ledger.putNew_of_none hname, Ledger.get?_put, if_neg hkey])

theorem setting_of_reflTransGen (h : Relation.ReflTransGen (Effect keys) c c') :
    c'.setting = c.setting := by
  induction h with
  | refl => rfl
  | tail _ heffect ih => exact heffect.setting.trans ih

theorem kept_of_reflTransGen (h : Relation.ReflTransGen (Effect keys) c c') (key : String) :
    Kept c c' key := by
  induction h with
  | refl => exact .inl rfl
  | tail _ heffect ih => exact ih.trans (heffect.kept key)

/-- Faults are added, and the context gives reason for them. -/
theorem faults (h : Effect keys c c') : ∀ x ∈ c'.faults, x ∈ c.faults ∨ c.Explains keys x := by
  intro x hx
  cases h with
  | fail _ y hexplains =>
    rcases List.mem_append.1 hx with hx | hx
    · exact .inl hx
    · obtain rfl := List.mem_singleton.1 hx
      exact .inr hexplains
  | keepResult => exact .inl hx
  | sunTimes => exact .inl (by rwa [sunTimes_faults] at hx)
  | crossings => exact .inl (by rwa [crossings_faults] at hx)
  | primitive e p => exact .inl (by rwa [remember, moment_faults] at hx)

/-- The context at the start gives reason for all faults that come, as no time is lost. -/
theorem faults_of_reflTransGen (h : Relation.ReflTransGen (Effect keys) c c') :
    ∀ x ∈ c'.faults, x ∈ c.faults ∨ c.Explains keys x := by
  induction h with
  | refl => exact fun x hx => .inl hx
  | tail hbefore heffect ih =>
    intro x hx
    rcases heffect.faults x hx with hx | hexplains
    · exact ih x hx
    · refine .inr fun k hk => ?_
      obtain ⟨hkey, hnone⟩ := hexplains k hk
      refine ⟨hkey, Option.eq_none_iff_forall_ne_some.2 fun t ht => ?_⟩
      have hkept := (kept_of_reflTransGen hbefore k).time? ht
      rw [hkept] at hnone
      cases hnone

end Context.Effect

namespace Formula

/-- A whole evaluation stays on its date at its place under its sky. -/
theorem setting_evaluate (f : Formula) (c : Context) : (f.evaluate c).2.setting = c.setting := by
  have heffects := f.performs_eval (Evaluator.started ⟨c, none⟩)
  have hsetting := Effect.setting_of_reflTransGen heffects
  exact hsetting

/-- A whole evaluation changes no time, and adds times under the names of primitives only. -/
theorem kept_evaluate (f : Formula) (c : Context) (key : String) : Kept c (f.evaluate c).2 key := by
  have heffects := f.performs_eval (Evaluator.started ⟨c, none⟩)
  have hkept := Effect.kept_of_reflTransGen heffects key
  exact hkept

theorem outcome_eq_ok {pos : Position} {v : Option Value} {faults : List RuntimeError} {t : Time} :
    outcome pos v faults = .ok t ↔ v = some (.time t) ∧ faults = [] := by
  unfold outcome
  split <;> simp_all

/-- The faults of an outcome, of which there are some, are those of the walk, and perhaps that there
is no time, which is said of the formula as a whole. -/
theorem mem_of_outcome {pos : Position} {v : Option Value} {faults es : List RuntimeError}
    (h : outcome pos v faults = .error es) : es ≠ [] ∧
      ∀ x ∈ es, x ∈ faults ∨ x.pos = pos ∧ x.cause.isUndefinedReference = false := by
  unfold outcome at h
  split at h <;> cases h
  next hne => exact ⟨hne, fun x hx => .inl hx⟩
  next =>
    refine ⟨List.append_ne_nil_of_right_ne_nil _ (List.cons_ne_nil _ _), fun x hx => ?_⟩
    rcases List.mem_append.1 hx with hx | hx
    · exact .inl hx
    · obtain rfl := List.mem_singleton.1 hx
      exact .inr ⟨rfl, rfl⟩
  next =>
    refine ⟨List.cons_ne_nil _ _, fun x hx => ?_⟩
    obtain rfl := List.mem_singleton.1 hx
    exact .inr ⟨rfl, rfl⟩
  next hne => exact ⟨hne, fun x hx => .inl hx⟩

/-- Faults of the walk are faults of the outcome. -/
theorem exists_of_outcome (pos : Position) (v : Option Value) {faults : List RuntimeError}
    (h : faults ≠ []) : ∃ es, outcome pos v faults = .error es ∧ ∀ x ∈ faults, x ∈ es := by
  obtain ⟨x, xs, rfl⟩ := List.exists_cons_of_ne_nil h
  cases v with
  | none => exact ⟨_, rfl, fun y hy => hy⟩
  | some a =>
    cases a with
    | time t => exact ⟨_, rfl, fun y hy => hy⟩
    | _ => exact ⟨_, rfl, fun y hy => List.mem_append_left _ hy⟩

/-- In any context, whatever is stored or known, a reference that is reported to be undefined is one
of the formula, and the context had no time for it. -/
theorem undefined_of_evaluate {f : Formula} {c : Context} {es : List RuntimeError}
    (h : (f.evaluate c).1 = .error es) :
    ∀ x ∈ es, ∀ k, x.cause = .undefinedReference k → k ∈ f.references ∧ c.time? k = none := by
  intro x hx k hk
  change (Evaluator.run ⟨c, none⟩ f).1 = _ at h
  rw [Evaluator.run_fst] at h
  have heffects := f.performs_eval (Evaluator.started ⟨c, none⟩)
  rcases (mem_of_outcome h).2 x hx with hfault | ⟨-, hother⟩
  · rcases Effect.faults_of_reflTransGen heffects x hfault with hstart | hexplains
    · cases hstart
    · exact hexplains k hk
  · rw [hk] at hother
    cases hother

end Formula

end Sundial
