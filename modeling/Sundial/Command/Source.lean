import Sundial.Command.Arguments
import Sundial.Command.Report
import Sundial.Command.Script
import Sundial.FormulaSet.Reader

/-!
# Where formulas come from

A formula stands on the command line, in a file or on the input; a formula set stands in a file.
-/

set_option autoImplicit false

namespace Sundial

inductive FormulaSource where
  | inline (text : String)
  | file (path : String)
  | input
  deriving DecidableEq, Repr

namespace FormulaSource

def options : List OptionName := [.lettered "file" 'f']

/-- The source that a command line names: at most one of a text and a file. -/
def read (a : Arguments) : Except UsageFault FormulaSource := do
  match ← a.single?, a.value? "file" with
  | some _, some path => .error (.unexpected path)
  | some text, none => return .inline text
  | none, some path => return .file path
  | none, none => return .input

end FormulaSource

namespace Script

/-- The text of a file; a failure is told with the path. -/
def readFile (path : String) : Script (Except String String) := do
  let found : Bool ← request (.pathExists path)
  if found then
    let r : Except FileFault String ← request (.readFile path)
    return r.mapError fun e => s!"Failed to read {path}: {e.message}"
  else
    return .error s!"File not found: {path}"

/-- The text of a formula, or the end of the script. -/
def formulaText : FormulaSource → Script String
  | .inline text => done text
  | .file path => do orFail 1 failureReport (← readFile path)
  | .input => request .readInput

/-- What a formula set's document says, told with the path if it says nothing. -/
def readSet (path document : String) : Except String FormulaSet :=
  (FormulaSet.read document).mapError fun e => s!"Invalid formula set {path}: {e}"

/-- The formula set of a file, or the end of the script. -/
def formulaSet (path : String) : Script FormulaSet := do
  orFail 1 failureReport ((← readFile path).bind (readSet path))

end Script

end Sundial
