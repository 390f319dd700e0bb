import Sundial.Proofs.Evaluation.Dependence
import Sundial.Proofs.Evaluation.Operations

/-!
# What an evaluation leaves behind

An evaluation may fail at any point, and what it has remembered by then stays. It leaves the times as
they were, in their order, followed by moments of primitives under their names: `evaluate_leaves`.
-/

set_option autoImplicit false

namespace Sundial

open Context (Effect KnowsSky Operation)
open Evaluating (run_bind)

namespace Context

variable {keys : List String} {c c' c'' : Context} {p : Primitive} {t : Time}

/-- The time is the sky's for a primitive that has the name, which no time was stored under. -/
structure Newfound (c : Context) (name : String) (t : Time) : Prop where
  absent : c.time? name = none
  moment : ∃ p : Primitive, p.name = name ∧ c.momentOf p = some t

/-- The later context has the times of the earlier one, in their order, and then times of primitives
that the earlier one had none for. -/
structure Extends (c c' : Context) : Prop where
  setting : c'.setting = c.setting
  times : ∃ added, c'.times.entries = c.times.entries ++ added ∧
    ∀ e ∈ added, c.Newfound e.1 e.2

namespace Extends

/-- Where the times stay, there is nothing to add. -/
theorem of_times (hsetting : c'.setting = c.setting) (htimes : c'.times = c.times) :
    Extends c c' :=
  ⟨hsetting, [], by rw [htimes, List.append_nil], by simp⟩

theorem time?_of_some (h : Extends c c') {key : String} (ht : c.time? key = some t) :
    c'.time? key = some t := by
  obtain ⟨added, hentries, -⟩ := h.times
  have hmem : (key, t) ∈ c'.times.entries := by
    rw [hentries]
    exact List.mem_append_left _ (Ledger.mem_of_get? ht)
  exact Ledger.get?_of_mem _ hmem

/-- What is newfound later on was so from the start. -/
theorem newfound (h : Extends c c') {name : String} (hnew : c'.Newfound name t) :
    c.Newfound name t where
  absent := by
    refine Option.eq_none_iff_forall_ne_some.2 fun u hu => ?_
    have hthere := h.time?_of_some hu
    rw [hnew.absent] at hthere
    cases hthere
  moment := by
    obtain ⟨p, hp, hmoment⟩ := hnew.moment
    exact ⟨p, hp, by rw [← momentOf_congr h.setting, hmoment]⟩

theorem trans (h : Extends c c') (h' : Extends c' c'') : Extends c c'' where
  setting := h'.setting.trans h.setting
  times := by
    obtain ⟨added, hentries, hadded⟩ := h.times
    obtain ⟨added', hentries', hadded'⟩ := h'.times
    refine ⟨added ++ added', by rw [hentries', hentries, List.append_assoc], ?_⟩
    intro e he
    rcases List.mem_append.1 he with he | he
    · exact hadded e he
    · exact h.newfound (hadded' e he)

/-- A primitive is added if its name has no time yet. -/
theorem remember (ht : c.momentOf p = some t) : Extends c (c.remember p.name t) where
  setting := rfl
  times := by
    rw [Context.remember]
    cases habsent : c.times.get? p.name with
    | some u => exact ⟨[], by rw [Ledger.putNew_of_get? habsent, List.append_nil], by simp⟩
    | none =>
      have hnew : p.name ∉ c.times.entries.map Prod.fst := by
        intro hmem
        obtain ⟨u, hu⟩ := (Ledger.mem_keys c.times).1 hmem
        rw [habsent] at hu
        cases hu
      refine ⟨[(p.name, t)], ?_, List.forall_mem_singleton.2 ⟨habsent, p, rfl, ht⟩⟩
      rw [Ledger.putNew_of_none habsent]
      exact Ledger.putEntry_of_notMem hnew t

end Extends

/-- A context that knows the sky finds the moments that the sky gives. -/
theorem KnowsSky.run_moment (h : KnowsSky c) (p : Primitive) (breakdown : Option Breakdown) :
    ((Evaluating.moment p).run ⟨c, breakdown⟩).1 = c.momentOf p := by
  have hsun : (Evaluating.sunTimes.run ⟨c, breakdown⟩).1 =
      (Afresh.sunTimes.run ⟨.new c.date c.place c.sky, none⟩).1 := h.sunTimes.1
  have hcrossings : ∀ degrees, ((Evaluating.crossings degrees).run ⟨c, breakdown⟩).1 =
      ((Afresh.crossings degrees).run ⟨.new c.date c.place c.sky, none⟩).1 :=
    fun degrees => (h.crossings degrees).1
  rw [momentOf, Evaluating.moment, Afresh.moment]
  cases p.twilight? with
  | some twilight =>
    dsimp only
    rw [run_bind, run_bind, hcrossings]
    rfl
  | none =>
    dsimp only
    rw [run_bind, run_bind, hsun]
    rfl

theorem KnowsSky.extends_effect (h : KnowsSky c) (heffect : Effect keys c c') : Extends c c' := by
  cases heffect with
  | fail | keepResult => exact .of_times rfl rfl
  | sunTimes => exact .of_times (sunTimes_setting c) (sunTimes_times c)
  | crossings _ degrees => exact .of_times (crossings_setting c degrees) (crossings_times c degrees)
  | primitive e p t ht =>
    have hasked : Extends e.context ((Evaluating.moment p).run e).2.context :=
      .of_times (Evaluating.moment_setting p e) (Evaluating.moment_times p e)
    refine hasked.trans (.remember ?_)
    rw [momentOf_congr hasked.setting, ← h.run_moment p e.breakdown]
    exact ht

theorem KnowsSky.extends_effects (h : KnowsSky c)
    (heffects : Relation.ReflTransGen (Effect keys) c c') : Extends c c' := by
  induction heffects with
  | refl => exact .of_times rfl rfl
  | tail hbefore heffect ih => exact ih.trans ((h.effects hbefore).extends_effect heffect)

end Context

namespace Formula

/-- **What an evaluation leaves behind.** In every context in use a formula is evaluated, or fails to
be, with these traces: the date, the place and the sky are the same, there are no faults, and behind
the times that there were, in their order, are newfound ones. -/
theorem evaluate_leaves (date : Date) (place : Place) (sky : Sky) (ops : List Operation)
    (f : Formula) :
    let c := (Context.new date place sky).after ops
    let c' := (f.evaluate c).2
    c'.date = c.date ∧ c'.place = c.place ∧ c'.sky = c.sky ∧ c.faults = [] ∧ c'.faults = [] ∧
      ∃ added, c'.times.entries = c.times.entries ++ added ∧ ∀ e ∈ added, c.Newfound e.1 e.2 := by
  intro c c'
  have hfaults : c.faults = [] := Context.faults_after rfl ops
  have hstarted : (Evaluator.started ⟨c, none⟩).context = c := by
    rw [Evaluator.started, ← hfaults]
  have heffects := f.performs_eval (Evaluator.started ⟨c, none⟩)
  rw [hstarted] at heffects
  have hextends := (Context.knowsSky_after date place sky ops).extends_effects heffects
  obtain ⟨hdate, hplace, hsky⟩ := Context.setting_eq_iff.1 hextends.setting
  exact ⟨hdate, hplace, hsky, hfaults, rfl, hextends.times⟩

/-- A call that fails for its second argument has remembered the first. -/
example : ((call ⟨1, 1⟩ .midpoint [primitive ⟨1, 10⟩ .sunrise, reference ⟨1, 19⟩ "slow"]).evaluate
    (steadyDay.insert "fast" ⟨61200, 0⟩)).2.times.entries =
      [("fast", ⟨61200, 0⟩), ("sunrise", ⟨21600, 0⟩)] := by
  decide +kernel

end Formula

end Sundial
