import Sundial.Proofs.Evaluation.Effects
import Sundial.Proofs.Evaluation.Reachable
import Sundial.Proofs.FormulaSet.Steps

/-!
# What a context knows of the sky

A context may also be used freely: any formula is evaluated in it, whether a text was read or not,
and any time is kept as the result of a call. Then its call results can be anything. What it knows
of the sky is still what the sky answers (`Used.knowsSky`): every use asks the sky for it or forgets
it.
-/

set_option autoImplicit false

namespace Sundial

open Context (Effect Step Truthful)

variable {keys : List String} {c c' : Context}

namespace Context

/-- The answers of the sky that the context knows are those that the sky gives. -/
structure KnowsSky (c : Context) : Prop where
  sun : ∀ s, c.sun = some s → s = c.sky.sunTimes c.date c.place
  angles : ∀ degrees a, c.angles.get? degrees.toBits = some a →
    a = c.sky.crossings c.date c.place degrees

namespace KnowsSky

theorem of_forgotten (hsun : c.sun = none) (hangles : c.angles = .empty) : KnowsSky c where
  sun s h := by simp [hsun] at h
  angles degrees a h := by simp [hangles] at h

/-- Without call results there is nothing else to be wrong about. -/
theorem truthful (h : KnowsSky c) : Truthful { c with results := .empty } :=
  ⟨h.sun, h.angles, fun _ _ ht => by cases ht⟩

theorem sunTimes (h : KnowsSky c) :
    c.sunTimes.1 = c.sky.sunTimes c.date c.place ∧ KnowsSky c.sunTimes.2 := by
  obtain ⟨hanswer, hafter⟩ := h.truthful.sunTimes
  have hsame : ({ c with results := .empty } : Context).sunTimes =
      (c.sunTimes.1, { c.sunTimes.2 with results := .empty }) := by
    obtain ⟨date, place, sky, sun, angles, times, results, faults, asked⟩ := c
    cases sun <;> rfl
  rw [hsame] at hanswer hafter
  exact ⟨hanswer, hafter.sun, hafter.angles⟩

theorem crossings (h : KnowsSky c) (degrees : Float) :
    (c.crossings degrees).1 = c.sky.crossings c.date c.place degrees ∧
      KnowsSky (c.crossings degrees).2 := by
  obtain ⟨hanswer, hafter⟩ := h.truthful.crossings degrees
  have hsame : ({ c with results := .empty } : Context).crossings degrees =
      ((c.crossings degrees).1, { (c.crossings degrees).2 with results := .empty }) := by
    obtain ⟨date, place, sky, sun, angles, times, results, faults, asked⟩ := c
    simp only [Context.crossings]
    cases angles.get? degrees.toBits <;> rfl
  rw [hsame] at hanswer hafter
  exact ⟨hanswer, hafter.sun, hafter.angles⟩

theorem moment (h : KnowsSky c) (p : Primitive) (breakdown : Option Breakdown) :
    KnowsSky ((Evaluating.moment p).run ⟨c, breakdown⟩).2.context := by
  rw [Evaluating.moment]
  cases p.twilight? with
  | some twilight => exact (h.crossings twilight.1).2
  | none => exact h.sunTimes.2

theorem effect (h : KnowsSky c) (heffect : Effect keys c c') : KnowsSky c' := by
  cases heffect with
  | fail | keepResult => exact ⟨h.sun, h.angles⟩
  | sunTimes => exact h.sunTimes.2
  | crossings => exact (h.crossings _).2
  | primitive e p =>
    have hmoment := h.moment p e.breakdown
    exact ⟨hmoment.sun, hmoment.angles⟩

theorem effects (h : KnowsSky c) (heffects : Relation.ReflTransGen (Effect keys) c c') :
    KnowsSky c' := by
  induction heffects with
  | refl => exact h
  | tail _ heffect ih => exact ih.effect heffect

theorem run (h : KnowsSky c) (f : Formula) (breakdown : Option Breakdown) :
    KnowsSky (Evaluator.run ⟨c, breakdown⟩ f).2.context := by
  have hstarted : KnowsSky (Evaluator.started ⟨c, breakdown⟩).context := ⟨h.sun, h.angles⟩
  have hafter := hstarted.effects (f.performs_eval (Evaluator.started ⟨c, breakdown⟩))
  exact ⟨hafter.sun, hafter.angles⟩

end KnowsSky

end Context

/-! ## Formula sets -/

namespace FormulaSet

variable {P : Context → Prop}

/-- What single evaluations and stored times keep is kept by the evaluation of the keys. -/
theorem evaluateKeys_induction (set : FormulaSet) (keys : List String)
    (hevaluate : ∀ (f : Formula) (c : Context), P c → P (f.evaluate c).2)
    (hinsert : ∀ (key : String) (t : Time) (c : Context), P c → P (c.insert key t)) (h : P c) :
    P (set.evaluateKeys keys c).2 := by
  induction keys generalizing c with
  | nil => exact h
  | cons key keys ih =>
    cases hget : set.get? key with
    | none =>
      rw [evaluateKeys_of_none hget]
      exact ih h
    | some text =>
      have htext : P (evaluateText text c).2 := by
        rw [evaluateText]
        cases Formula.parse text with
        | error ds => exact h
        | ok f => exact hevaluate f c h
      rw [evaluateKeys_cons hget]
      cases (evaluateText text c).1 with
      | error ds => exact htext
      | ok t => exact ih (hinsert key t _ htext)

theorem evaluate_induction (set : FormulaSet)
    (hevaluate : ∀ (f : Formula) (c : Context), P c → P (f.evaluate c).2)
    (hinsert : ∀ (key : String) (t : Time) (c : Context), P c → P (c.insert key t)) (h : P c) :
    P (set.evaluate c).2 := by
  cases horder : set.order with
  | error left =>
    rw [evaluate_of_cycle horder]
    exact h
  | ok order =>
    rw [evaluate_eq_collect horder]
    exact evaluateKeys_induction set order hevaluate hinsert h

end FormulaSet

/-! ## Free use -/

namespace Context

/-- One use of a context, with any formulas and any call results. -/
inductive Use : Context → Context → Prop
  | step {c c' : Context} (h : Step c c') : Use c c'
  | keepResult (c : Context) (call : String) (t : Time) : Use c (c.keepResult call t)
  | evaluate (c : Context) (f : Formula) : Use c (f.evaluate c).2
  | evaluateWithBreakdown (c : Context) (f : Formula) : Use c (f.evaluateWithBreakdown c).2

/-- The context comes from a new one in some number of uses. -/
inductive Used : Context → Prop
  | new (date : Date) (place : Place) (sky : Sky) : Used (new date place sky)
  | use {c c' : Context} (h : Used c) (huse : Use c c') : Used c'

theorem KnowsSky.step (h : KnowsSky c) (hs : Step c c') : KnowsSky c' := by
  cases hs with
  | insert | remember | seed | clearTimes => exact ⟨h.sun, h.angles⟩
  | setDate | setPlace => exact .of_forgotten rfl rfl
  | sunTimes => exact h.sunTimes.2
  | crossings degrees => exact (h.crossings degrees).2
  | evaluate source f => exact h.run f none
  | evaluateWithBreakdown source f => exact h.run f (some .empty)
  | evaluateSet set =>
    exact set.evaluate_induction (fun f _ hc => hc.run f none)
      (fun _ _ _ hc => ⟨hc.sun, hc.angles⟩) h

theorem KnowsSky.use (h : KnowsSky c) (huse : Use c c') : KnowsSky c' := by
  cases huse with
  | step hs => exact h.step hs
  | keepResult => exact ⟨h.sun, h.angles⟩
  | evaluate f => exact h.run f none
  | evaluateWithBreakdown f => exact h.run f (some .empty)

theorem Used.knowsSky (h : Used c) : KnowsSky c := by
  induction h with
  | new => exact .of_forgotten rfl rfl
  | use _ huse ih => exact ih.use huse

end Context

end Sundial
