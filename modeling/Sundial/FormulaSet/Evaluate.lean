import Sundial.Evaluation.Evaluate
import Sundial.FormulaSet.Order

/-!
# Evaluating a formula set

The formulas of a set are evaluated in dependency order. Each result is stored in the context under
its key, where later formulas find it, and entered among the results, which are put into the order
of the set at the end. The first formula that fails ends the evaluation.
-/

set_option autoImplicit false

namespace Sundial

inductive SetFault where
  /-- The formulas cannot be ordered. -/
  | cycle (keys : List String)
  | formula (key : String) (diagnostics : List Diagnostic)
  deriving DecidableEq

def SetFault.message : SetFault → String
  | cycle keys => FormulaSet.cycleText keys
  | formula key ds => s!"formula '{key}' failed:\n{Diagnostics.text ds}"

namespace FormulaSet

/-- Evaluates a text; a failure quotes it. -/
def evaluateText (text : String) (c : Context) : Except (List Diagnostic) Time × Context :=
  match Formula.parse text with
  | .error ds => (.error ds, c)
  | .ok f =>
    let (r, c') := f.evaluate c
    (r.mapError fun es => Diagnostics.withSource text (es.map Located.diagnostic), c')

/-- Evaluates the formulas with the given keys, one after another, and enters their times among the
results. -/
def collect (set : FormulaSet) :
    List String → Ledger String Time → Context → Except SetFault (Ledger String Time) × Context
  | [], results, c => (.ok results, c)
  | key :: keys, results, c =>
    match set.get? key with
    | none => collect set keys results c
    | some text =>
      match evaluateText text c with
      | (.ok t, c') => collect set keys (results.put key t) (c'.insert key t)
      | (.error ds, c') => (.error (.formula key ds), c')

/-- The results of the keys of the set, in its order. -/
def arrange (set : FormulaSet) (results : Ledger String Time) : Ledger String Time :=
  .ofList (set.keys.filterMap fun k => (results.get? k).map fun t => (k, t))

/-- Evaluates a set. -/
def evaluate (set : FormulaSet) (c : Context) : Except SetFault (Ledger String Time) × Context :=
  match set.order with
  | .error keys => (.error (.cycle keys), c)
  | .ok order =>
    match collect set order .empty c with
    | (.error e, c') => (.error e, c')
    | (.ok results, c') => (.ok (set.arrange results), c')

end FormulaSet

end Sundial
