import Sundial.Sky.Ephemeris
import Sundial.Proofs.Evaluation.Caching
import Sundial.Proofs.FormulaSet.Keys

/-!
# Contexts in use

A context is used step by step: times are stored, the date or the place changes, the sky is asked,
formulas and sets of formulas are evaluated. Every context that is reached in this way is truthful,
so what it knows makes no difference to an evaluation (`evaluate_eq_evaluateAfresh`).
-/

set_option autoImplicit false

namespace Sundial

open Context (Truthful Continues Agrees)

variable {c c' : Context} {f : Formula} {source : String}

/-! ## Whole evaluations -/

/-- Faults of an evaluation in progress are not knowledge. -/
theorem Context.Truthful.withFaults (h : Truthful c) (faults : List RuntimeError) :
    Truthful { c with faults := faults } :=
  h.continues ⟨rfl, rfl, rfl, fun _ _ ht => ht⟩ rfl rfl rfl

/-- A whole evaluation in a truthful context gives what an evaluation without memory gives, and the
context is truthful afterwards. -/
theorem Evaluator.run_eq_evaluateAfresh (h : Truthful c) (hf : Legible .expression f)
    (breakdown : Option Breakdown) :
    (Evaluator.run ⟨c, breakdown⟩ f).1 = (f.evaluateAfresh c.date c.place c.sky c.times).1 ∧
      (Evaluator.run ⟨c, breakdown⟩ f).2.context.times =
        (f.evaluateAfresh c.date c.place c.sky c.times).2 ∧
      Truthful (Evaluator.run ⟨c, breakdown⟩ f).2.context := by
  have hsim := Formula.sim_eval f (Formula.callLegible_nodes hf)
  have hstart : Agrees (Evaluator.started ⟨c, breakdown⟩).context
      { Context.new c.date c.place c.sky with times := c.times } := ⟨h.withFaults [], rfl⟩
  obtain ⟨hvalue, hagrees⟩ := hsim (Evaluator.started ⟨c, breakdown⟩) ⟨_, none⟩ hstart
  refine ⟨?_, hagrees.times.symm, hagrees.truthful.withFaults []⟩
  rw [Evaluator.run_fst]
  exact congrArg₂ (Formula.outcome f.pos) hvalue hagrees.faults.symm

theorem Context.Truthful.evaluate (h : Truthful c) (hf : Formula.parse source = .ok f) :
    Truthful (f.evaluate c).2 :=
  (Evaluator.run_eq_evaluateAfresh h (Formula.legible_of_parse hf) none).2.2

theorem Context.Truthful.evaluateWithBreakdown (h : Truthful c)
    (hf : Formula.parse source = .ok f) : Truthful (f.evaluateWithBreakdown c).2 :=
  (Evaluator.run_eq_evaluateAfresh h (Formula.legible_of_parse hf) (some .empty)).2.2

/-! ## Formula sets -/

theorem Context.Truthful.evaluateText (h : Truthful c) (text : String) :
    Truthful (FormulaSet.evaluateText text c).2 := by
  rw [FormulaSet.evaluateText]
  cases hf : Formula.parse text with
  | error ds => exact h
  | ok f => exact h.evaluate hf

theorem Context.Truthful.insert (h : Truthful c) (key : String) (t : Time) :
    Truthful (c.insert key t) :=
  h.withoutResults _

theorem Context.Truthful.evaluateKeys (set : FormulaSet) (keys : List String) (h : Truthful c) :
    Truthful (set.evaluateKeys keys c).2 := by
  induction keys generalizing c with
  | nil => exact h
  | cons key keys ih =>
    cases hget : set.get? key with
    | none =>
      rw [FormulaSet.evaluateKeys_of_none hget]
      exact ih h
    | some text =>
      have htext := h.evaluateText text
      rw [FormulaSet.evaluateKeys_cons hget]
      cases (FormulaSet.evaluateText text c).1 with
      | error ds => exact htext
      | ok t => exact ih (htext.insert key t)

theorem Context.Truthful.evaluateSet (h : Truthful c) (set : FormulaSet) :
    Truthful (set.evaluate c).2 := by
  cases horder : set.order with
  | error keys =>
    rw [FormulaSet.evaluate_of_cycle horder]
    exact h
  | ok order =>
    rw [FormulaSet.evaluate_eq_collect horder]
    exact h.evaluateKeys set order

/-! ## Steps and runs -/

namespace Context

/-- One use of a context. Formulas come from texts. -/
inductive Step : Context → Context → Prop
  | insert (c : Context) (key : String) (t : Time) : Step c (c.insert key t)
  | remember (c : Context) (key : String) (t : Time) : Step c (c.remember key t)
  | seed (c : Context) (entries : List (String × Time)) : Step c (c.seed entries)
  | clearTimes (c : Context) : Step c c.clearTimes
  | setDate (c : Context) (date : Date) : Step c (c.setDate date)
  | setPlace (c : Context) (place : Place) : Step c (c.setPlace place)
  | sunTimes (c : Context) : Step c c.sunTimes.2
  | crossings (c : Context) (degrees : Float) : Step c (c.crossings degrees).2
  | evaluate (c : Context) (source : String) (f : Formula) (hf : Formula.parse source = .ok f) :
      Step c (f.evaluate c).2
  | evaluateWithBreakdown (c : Context) (source : String) (f : Formula)
      (hf : Formula.parse source = .ok f) : Step c (f.evaluateWithBreakdown c).2
  | evaluateSet (c : Context) (set : FormulaSet) : Step c (set.evaluate c).2

/-- The context comes from a new one in some number of steps. -/
inductive Reachable : Context → Prop
  | new (date : Date) (place : Place) (sky : Sky) : Reachable (new date place sky)
  | step {c c' : Context} (h : Reachable c) (hs : Step c c') : Reachable c'

theorem Step.truthful (hs : Step c c') (h : Truthful c) : Truthful c' := by
  cases hs with
  | insert key t => exact h.insert key t
  | remember key t => exact h.remember key t
  | seed | clearTimes => exact h.withoutResults _
  | setDate | setPlace => exact .of_forgotten rfl rfl rfl
  | sunTimes => exact h.sunTimes.2
  | crossings degrees => exact (h.crossings degrees).2
  | evaluate source f hf => exact h.evaluate hf
  | evaluateWithBreakdown source f hf => exact h.evaluateWithBreakdown hf
  | evaluateSet set => exact h.evaluateSet set

theorem Reachable.truthful (h : Reachable c) : Truthful c := by
  induction h with
  | new => exact .of_forgotten rfl rfl rfl
  | step _ hs ih => exact hs.truthful ih

end Context

open Context (Reachable)

namespace Formula

/-- In every context in use a formula evaluates as if nothing were known but the times: to the same
time or the same faults, and with the same times afterwards. -/
theorem evaluate_eq_evaluateAfresh (hc : Reachable c) (hf : parse source = .ok f) :
    (f.evaluate c).1 = (f.evaluateAfresh c.date c.place c.sky c.times).1 ∧
      (f.evaluate c).2.times = (f.evaluateAfresh c.date c.place c.sky c.times).2 := by
  have hrun := Evaluator.run_eq_evaluateAfresh hc.truthful (legible_of_parse hf) none
  exact ⟨hrun.1, hrun.2.1⟩

/-- A call whose result is known the second time. -/
def midday : Formula :=
  call ⟨1, 1⟩ .midpoint [primitive ⟨1, 10⟩ .sunrise, primitive ⟨1, 19⟩ .sunset]

def equinox : Context := .new (.ofNumbers 2026 3 20) ⟨31.8, 35.2, 800.0, 7200⟩ .computed

theorem evaluate_midday_again : ∃ f c, parse midday.text = .ok f ∧ c = (f.evaluate equinox).2 ∧
    (f.evaluate c).1 = (f.evaluateAfresh c.date c.place c.sky c.times).1 ∧
    (f.evaluate c).2.times = (f.evaluateAfresh c.date c.place c.sky c.times).2 := by
  have hlegible : Legible .expression midday := by
    refine .call _ _ _ (List.forall_mem_cons.2 ⟨.primitive _ _, ?_⟩)
    exact List.forall_mem_singleton.2 (.primitive _ _)
  have hreprintable : ∀ g ∈ midday.nodes, g.reprintable = true := List.all_eq_true.1 rfl
  obtain ⟨f, hf⟩ := (parse_text_of_legible hlegible).1.2 hreprintable
  have hreachable : Reachable (f.evaluate equinox).2 :=
    .step (.new _ _ _) (.evaluate equinox midday.text f hf)
  exact ⟨f, _, hf, rfl, evaluate_eq_evaluateAfresh hreachable hf⟩

end Formula

/-! ## A steady day -/

/-- A sky in which the sun rises and sets at the same instants whatever is asked. -/
def steadySky : Sky where
  sunTimes _ _ := ⟨some ⟨21600, 0⟩, some ⟨64800, 0⟩, none, none, ⟨43200, 0⟩, ⟨0, 0⟩, 720.0⟩
  crossings _ _ _ := ⟨none, none⟩

def steadyDay : Context := .new (.ofNumbers 2026 3 20) ⟨31.8, 35.2, 800.0, 7200⟩ steadySky

end Sundial
