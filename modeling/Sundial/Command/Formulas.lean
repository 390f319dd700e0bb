import Sundial.Command.Setting
import Sundial.Command.Source
import Sundial.Evaluation.Summary
import Sundial.Formula.Checking
import Sundial.Formula.Outline

/-!
# Commands on one formula

Listing the tokens of a formula, showing its canonical form, checking it, and evaluating it.
-/

set_option autoImplicit false

namespace Sundial

namespace Command

/-- Ends a script with diagnostics for a text. -/
def refuse {α : Type} (text : String) (ds : List Diagnostic) : Script α :=
  .failWith 1 (Diagnostics.report (Diagnostics.withSource text ds))

/-- The formula of a text that passes all checks, or the end of the script. -/
def checked (scope : Scope) (text : String) : Script Formula :=
  match Formula.judge scope text with
  | ⟨some f, []⟩ => .done f
  | v => refuse text v.diagnostics

/-- Position, kind and literal of a token, in columns. -/
def tokenLine (t : Token) : String :=
  Text.padLeft 3 (toString t.pos.line) ++ ":" ++ Text.padRight 3 (toString t.pos.column) ++ " " ++
    Text.padRight 12 t.kind.name ++ " " ++ t.literal

def printAll : List String → Script Unit
  | [] => .done ()
  | line :: lines => do
    .printLine line
    printAll lines

def listTokens (source : FormulaSource) : Script Unit := do
  let text ← Script.formulaText source
  match tokenize text with
  | .ok ts => printAll (ts.map tokenLine)
  | .error e => refuse text [e.diagnostic]

/-- Canonical text and kind, and the tree if it is asked for. -/
def showParsed (source : FormulaSource) (withTree : Bool) : Script Unit := do
  let text ← Script.formulaText source
  match Formula.parse text with
  | .error ds => refuse text ds
  | .ok f =>
    .printLine f.text
    .printLine (Colour.grey.paint "type:" ++ " " ++ f.kind.name)
    if withTree then .printLine (f.outline 0)

def validate (source : FormulaSource) (scope : Scope) : Script Unit := do
  let text ← Script.formulaText source
  let f ← checked scope text
  .printLine (bold (Colour.green.paint "ok:") ++ s!" formula is valid ({f.kind.name})")

/-- How an evaluation is shown. -/
structure EvaluationView where
  withBreakdown : Bool
  asJson : Bool

/-- Evaluates a formula, with the breakdown if it is asked for. -/
def evaluated (f : Formula) (withBreakdown : Bool) (c : Context) :
    Except (List RuntimeError) (Time × Option Breakdown) :=
  if withBreakdown then (f.evaluateWithBreakdown c).1.map fun r => (r.1, some r.2)
  else (f.evaluate c).1.map fun t => (t, none)

/-- Greatest size of the given names in bytes. -/
def nameWidth (names : List String) : Nat :=
  (names.map String.utf8ByteSize).foldl max 0

/-- The steps of an evaluation, one per line. -/
def breakdownLines (steps : Breakdown) : List String :=
  let width := nameWidth steps.keys
  steps.entries.map fun e =>
    "  " ++ Colour.grey.paint (Text.padRight width e.1) ++ "  " ++ e.2.text

/-- An evaluation as a JSON document. -/
def evaluationJson (text : String) (c : Context) (result : Time) (steps : Option Breakdown) :
    JsonText :=
  .object ([("formula", .string (Text.trim text)), ("date", .string c.date.text),
    ("location", c.place.json), ("result", .string result.text)] ++
    (steps.map fun s =>
      [("breakdown", JsonText.object (s.entries.map fun e => (e.1, e.2.json)))]).getD [])

/-- Evaluates a formula set first, if there is one; the keys it makes known. -/
def preparedKeys (path : Option String) (c : Context) : Script (List String × Context) :=
  match path with
  | none => .done ([], c)
  | some path => do
    let set ← Script.formulaSet path
    match set.evaluate c with
    | (.ok results, c) => return (results.keys, c)
    | (.error e, _) => .failWith 1 e.report

def evaluate (source : FormulaSource) (setting : Setting) (set : Option String)
    (view : EvaluationView) : Script Unit := do
  let text ← Script.formulaText source
  let c ← setting.context
  let (keys, c) ← preparedKeys set c
  let f ← checked ⟨keys, none⟩ text
  match evaluated f view.withBreakdown c with
  | .error es => refuse text (es.map Located.diagnostic)
  | .ok (result, steps) =>
    if view.asJson then .printLine (evaluationJson text c result steps).document
    else
      .printLine result.clockText
      printAll ((steps.map breakdownLines).getD [])

end Command

end Sundial
