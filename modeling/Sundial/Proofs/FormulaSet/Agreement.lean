import Sundial.Proofs.FormulaSet.Meaning

/-!
# Evaluating a set again

Two truthful contexts are alike if they have one setting and the same times. Evaluating a set in
them comes to the same, and they are alike afterwards (`Alike.evaluateSet`).
-/

set_option autoImplicit false

namespace Sundial

open Context (Truthful)

variable {set : FormulaSet} {c c' : Context} {key text : String}

/-- Both contexts are truthful, and they have the setting and the times in common. -/
structure Context.Alike (c c' : Context) : Prop where
  truthful : Truthful c
  truthful' : Truthful c'
  setting : c'.setting = c.setting
  times : c'.times = c.times

namespace Context.Alike

theorem insert (h : Alike c c') (key : String) (t : Time) :
    Alike (c.insert key t) (c'.insert key t) where
  truthful := h.truthful.insert key t
  truthful' := h.truthful'.insert key t
  setting := h.setting
  times := congrArg (fun times => times.put key t) h.times

theorem evaluateText (h : Alike c c') (text : String) :
    (FormulaSet.evaluateText text c').1 = (FormulaSet.evaluateText text c).1 ∧
      Alike (FormulaSet.evaluateText text c).2 (FormulaSet.evaluateText text c').2 := by
  cases hparse : Formula.parse text with
  | error ds =>
    rw [FormulaSet.evaluateText, FormulaSet.evaluateText, hparse]
    exact ⟨rfl, h⟩
  | ok f =>
    obtain ⟨hresult, htimes⟩ := h.truthful.evaluate_afresh hparse rfl
    obtain ⟨hresult', htimes'⟩ := h.truthful'.evaluate_afresh hparse h.setting
    rw [h.times] at hresult' htimes'
    refine ⟨?_, h.truthful.evaluateText text, h.truthful'.evaluateText text, ?_, ?_⟩
    · rw [FormulaSet.evaluateText_of_parse hparse, FormulaSet.evaluateText_of_parse hparse]
      exact congrArg (Except.mapError _) (hresult'.trans hresult.symm)
    · rw [FormulaSet.setting_evaluateText, FormulaSet.setting_evaluateText, h.setting]
    · rw [FormulaSet.evaluateText_of_parse hparse, FormulaSet.evaluateText_of_parse hparse]
      exact htimes'.trans htimes.symm

theorem evaluateKeys (h : Alike c c') (set : FormulaSet) (keys : List String) :
    (set.evaluateKeys keys c').1 = (set.evaluateKeys keys c).1 ∧
      Alike (set.evaluateKeys keys c).2 (set.evaluateKeys keys c').2 := by
  induction keys generalizing c c' with
  | nil => exact ⟨rfl, h⟩
  | cons key keys ih =>
    cases hget : set.get? key with
    | none =>
      rw [FormulaSet.evaluateKeys_of_none hget, FormulaSet.evaluateKeys_of_none hget]
      exact ih h
    | some text =>
      obtain ⟨hresult, hafter⟩ := h.evaluateText text
      rw [FormulaSet.evaluateKeys_cons hget, FormulaSet.evaluateKeys_cons hget, hresult]
      cases (FormulaSet.evaluateText text c).1 with
      | error ds => exact ⟨rfl, hafter⟩
      | ok t => exact ih (hafter.insert key t)

theorem evaluateSet (h : Alike c c') (set : FormulaSet) :
    (set.evaluate c').1 = (set.evaluate c).1 ∧ Alike (set.evaluate c).2 (set.evaluate c').2 := by
  cases horder : set.order with
  | error keys =>
    rw [FormulaSet.evaluate_of_cycle horder, FormulaSet.evaluate_of_cycle horder]
    exact ⟨rfl, h⟩
  | ok order =>
    obtain ⟨hresult, hafter⟩ := h.evaluateKeys set order
    rw [FormulaSet.evaluate_of_order horder, FormulaSet.evaluate_of_order horder, hresult]
    refine ⟨?_, hafter⟩
    cases (set.evaluateKeys order c).1 with
    | error e => rfl
    | ok _ => simp only [FormulaSet.resultsIn, hafter.times]

/-- When its times are forgotten a truthful context is like one in which nothing is known. -/
theorem clearTimes (h : Truthful c) : Alike (.new c.date c.place c.sky) c.clearTimes :=
  ⟨.of_forgotten rfl rfl rfl, h.withoutResults _, rfl, rfl⟩

end Context.Alike

end Sundial
