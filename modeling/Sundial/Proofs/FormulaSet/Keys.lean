import Sundial.FormulaSet.Evaluate

/-!
# Evaluating keys

The results that `collect` has entered decide nothing: what the evaluation of keys does to the
context, and how it fails, is the same whatever they are (`evaluateKeys_of_collect`). `evaluateKeys`
is what is left of it without them.
-/

set_option autoImplicit false

namespace Sundial.FormulaSet

/-- What evaluating the keys comes to, the results left out. -/
def evaluateKeys (set : FormulaSet) (keys : List String) (c : Context) :
    Except SetFault Unit × Context :=
  ((set.collect keys .empty c).1.map fun _ => (), (set.collect keys .empty c).2)

variable {set : FormulaSet} {c : Context} {key text : String} {keys order : List String}
  {results : Ledger String Time}

theorem collect_of_none (hget : set.get? key = none) (keys : List String)
    (results : Ledger String Time) (c : Context) :
    set.collect (key :: keys) results c = set.collect keys results c := by
  rw [collect, hget]

theorem collect_cons (hget : set.get? key = some text) (keys : List String)
    (results : Ledger String Time) (c : Context) :
    set.collect (key :: keys) results c =
      match (evaluateText text c).1 with
      | .ok t => set.collect keys (results.put key t) ((evaluateText text c).2.insert key t)
      | .error ds => (.error (.formula key ds), (evaluateText text c).2) := by
  rw [collect, hget]
  dsimp only
  rcases evaluateText text c with ⟨ds | t, c'⟩ <;> rfl

/-- Whatever results have been entered, the keys come to the same, and so does the context. -/
theorem evaluateKeys_of_collect (set : FormulaSet) (keys : List String)
    (results : Ledger String Time) (c : Context) :
    set.evaluateKeys keys c =
      ((set.collect keys results c).1.map fun _ => (), (set.collect keys results c).2) := by
  have hsame : ∀ results' : Ledger String Time,
      ((set.collect keys results' c).1.map fun _ => (), (set.collect keys results' c).2) =
        ((set.collect keys results c).1.map fun _ => (), (set.collect keys results c).2) := by
    induction keys generalizing results c with
    | nil => exact fun _ => rfl
    | cons key keys ih =>
      intro results'
      cases hget : set.get? key with
      | none =>
        rw [collect_of_none hget, collect_of_none hget]
        exact ih results c results'
      | some text =>
        rw [collect_cons hget, collect_cons hget]
        cases (evaluateText text c).1 with
        | error ds => rfl
        | ok t => exact ih _ _ _
  exact hsame .empty

/-- Keys that are not in the set are passed over. -/
theorem evaluateKeys_of_none (hget : set.get? key = none) (keys : List String) (c : Context) :
    set.evaluateKeys (key :: keys) c = set.evaluateKeys keys c := by
  rw [evaluateKeys, collect_of_none hget, evaluateKeys]

theorem evaluateKeys_cons (hget : set.get? key = some text) (keys : List String) (c : Context) :
    set.evaluateKeys (key :: keys) c =
      match (evaluateText text c).1 with
      | .ok t => set.evaluateKeys keys ((evaluateText text c).2.insert key t)
      | .error ds => (.error (.formula key ds), (evaluateText text c).2) := by
  rw [evaluateKeys, collect_cons hget]
  cases (evaluateText text c).1 with
  | error ds => rfl
  | ok t => exact (evaluateKeys_of_collect set keys _ _).symm

/-! ## Whole sets -/

theorem evaluate_of_cycle (horder : set.order = .error keys) (c : Context) :
    set.evaluate c = (.error (.cycle keys), c) := by
  rw [evaluate, horder]

/-- A set that has an order is evaluated along it. -/
theorem evaluate_eq_collect (horder : set.order = .ok order) (c : Context) :
    set.evaluate c = ((set.collect order .empty c).1.map set.arrange,
      (set.evaluateKeys order c).2) := by
  rw [evaluate, horder]
  dsimp only [evaluateKeys]
  rcases set.collect order .empty c with ⟨e | results, c'⟩ <;> rfl

end Sundial.FormulaSet
