import Sundial.Command.Style
import Sundial.Diagnostic
import Sundial.FormulaSet.Evaluate
import Sundial.Text.Search

/-!
# Reports of failure

How the commands show diagnostics: a coloured header, the place, the source line with a mark below,
and a hint. A diagnostic that brings no hint gets a general one for its kind of message.
-/

set_option autoImplicit false

namespace Sundial

/-- Advice for a kind of message, with an example for most. -/
structure Advice where
  /-- The message contains one of these. -/
  cues : List String
  help : String
  example? : Option String

/-- All general advice; the first that fits is given. -/
def Advice.all : List Advice := [
  ⟨["expected ')'", "missing ')'"], "Check that every '(' has a matching ')'.",
    some "Example: solar(16.1, before_sunrise)"⟩,
  ⟨["expected '\x7b'", "expected '\x7d'"], "Conditional branches are wrapped in braces.",
    some "Example: if (latitude > 40) \x7b sunrise \x7d else \x7b sunset \x7d"⟩,
  ⟨["after expression"], "A formula is a single expression.",
    some "Join values with an operator: sunrise + 10min"⟩,
  ⟨["cannot compare"],
    "Compare numbers with numbers, durations with durations, strings with strings.", none⟩,
  ⟨["division by zero"], "You cannot divide by zero.",
    some "Example: (sunset - sunrise) / 12"⟩,
  ⟨["must be a Time"], "Times come from primitives, functions and @references.",
    some "Durations like 72min are added to a time: sunrise - 72min"⟩]

def Advice.fits (message : String) (a : Advice) : Bool :=
  a.cues.any fun cue => Text.occursIn cue message

def helpMark : String := "💡 Help:"

def Advice.text (a : Advice) : String :=
  Colour.yellow.paint (helpMark ++ " " ++ a.help) ++ "\n" ++
    (a.example?.map fun e => "    " ++ Colour.grey.paint e ++ "\n").getD ""

namespace Diagnostic

/-- The source line and a mark below the column. -/
def markedLine (line column : Nat) (context : String) : String :=
  let gutter := Text.padLeft 3 (toString line) ++ " | "
  let mark := Text.spaces gutter.length ++ Text.spaces (column - 1) ++ "^"
  "     |\n" ++ Colour.grey.paint gutter ++ context ++ "\n" ++
    Colour.red.paint mark ++ Colour.red.paint " error here" ++ "\n     |\n"

/-- Header, place and hint of a diagnostic. -/
def report (d : Diagnostic) : String :=
  let header := bold (Colour.red.paint d.stage.label) ++ ": " ++ Colour.red.paint d.message ++ "\n"
  let place := match d.line, d.column with
    | some line, some column =>
      s!"  --> line {line}, column {column}\n" ++ (d.context.map (markedLine line column)).getD ""
    | _, _ => ""
  let help := match d.hint with
    | some hint => Colour.yellow.paint helpMark ++ " " ++ Colour.yellow.paint hint ++ "\n"
    | none => ((Advice.all.find? (Advice.fits d.message)).map Advice.text).getD ""
  header ++ place ++ help

end Diagnostic

/-- The reports of several diagnostics, a blank line between any two. -/
def Diagnostics.report (ds : List Diagnostic) : String :=
  "\n".intercalate (ds.map Diagnostic.report)

/-- A failure that belongs to no place in a formula. -/
def failureReport (message : String) : String :=
  bold (Colour.red.paint "error") ++ ": " ++ Colour.red.paint message ++ "\n"

/-- The diagnostics of one formula of a set. -/
def memberReport (key : String) (ds : List Diagnostic) : String :=
  Colour.grey.paint "in formula" ++ " " ++ bold key ++ "\n" ++ Diagnostics.report ds

def SetFault.report : SetFault → String
  | cycle keys => failureReport (FormulaSet.cycleText keys)
  | formula key ds => memberReport key ds

end Sundial
