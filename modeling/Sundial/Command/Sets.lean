import Sundial.Command.Formulas

/-!
# Commands on formula sets

Evaluating all formulas of a set, and printing the order in which they are evaluated.
-/

set_option autoImplicit false

namespace Sundial

namespace Command

/-- The formulas of a set that fail their checks, with what they fail. -/
def invalidMembers (set : FormulaSet) : List (String × List Diagnostic) :=
  (set.entries.map fun e => (e.1, (Formula.judge ⟨set.keys, some e.1⟩ e.2).diagnostics)).filter
    fun m => !m.2.isEmpty

def resultLines (results : Ledger String Time) : List String :=
  let width := nameWidth results.keys
  results.entries.map fun e => Text.padRight width e.1 ++ "  " ++ e.2.clockText

def resultsJson (c : Context) (results : Ledger String Time) : JsonText :=
  .object [("date", .string c.date.text), ("location", c.place.json),
    ("results", .object (results.entries.map fun e => (e.1, .string e.2.text)))]

/-- Evaluates a set all of whose formulas pass their checks. -/
def batch (path : String) (setting : Setting) (asJson : Bool) : Script Unit := do
  let set ← Script.formulaSet path
  let invalid := invalidMembers set
  if !invalid.isEmpty then
    .failWith 1 (String.join (invalid.map fun m => memberReport m.1 m.2))
  let c ← setting.context
  match set.evaluate c with
  | (.error e, _) => .failWith 1 e.report
  | (.ok results, c) =>
    if asJson then .printLine (resultsJson c results).document
    else printAll (resultLines results)

def order (path : String) : Script Unit := do
  let set ← Script.formulaSet path
  match set.order with
  | .ok keys => printAll keys
  | .error keys => .failWith 1 (failureReport (FormulaSet.cycleText keys))

end Command

end Sundial
