import Sundial.Text.Layout
import Sundial.Text.Lines
import Sundial.Text.Position

/-!
# Diagnostics

A diagnostic is what a formula's author is told: the stage that found the problem, a message, and
where known a place, the source line there and a hint. The stages themselves work with faults, one
type of causes each; `Located.diagnostic` words a fault. Lists of diagnostics can be given their
source lines, written one per line, or rendered as blocks that point into the source.
-/

set_option autoImplicit false

namespace Sundial

/-- The stage of the work on a formula that found a problem. -/
inductive Stage where
  /-- The text is not a formula. -/
  | parsing
  /-- The formula breaks a rule that needs no evaluation to check. -/
  | checking
  /-- The formula has no time on this date at this place. -/
  | evaluation
  deriving DecidableEq, Repr

namespace Stage

def name : Stage → String
  | parsing => "syntax"
  | checking => "semantic"
  | evaluation => "runtime"

def label : Stage → String
  | parsing => "Syntax error"
  | checking => "Semantic error"
  | evaluation => "Runtime error"

def ofName? (s : String) : Option Stage :=
  [parsing, checking, evaluation].find? fun k => k.name = s

end Stage

structure Diagnostic where
  stage : Stage
  message : String
  line : Option Nat
  column : Option Nat
  /-- The source line that `line` names. -/
  context : Option String
  hint : Option String
  deriving DecidableEq, Repr

/-- Causes of failure, with their wording. -/
class Fault (ε : Type) where
  stage : Stage
  message : ε → String
  hint : ε → Option String

/-- A cause at the position it is reported for. -/
structure Located (ε : Type) where
  cause : ε
  pos : Position
  deriving DecidableEq, Repr

def Located.diagnostic {ε : Type} [Fault ε] (f : Located ε) : Diagnostic where
  stage := Fault.stage ε
  message := Fault.message f.cause
  line := some f.pos.line
  column := some f.pos.column
  context := none
  hint := Fault.hint f.cause

namespace Diagnostic

/-- The message and its place, if it has one. -/
def text (d : Diagnostic) : String :=
  match d.line, d.column with
  | some line, some column => s!"{d.message} at {line}:{column}"
  | _, _ => d.message

/-- Fills in the source line of a diagnostic that names a line and has none yet. -/
def withSource (source : String) (d : Diagnostic) : Diagnostic :=
  match d.context, d.line with
  | none, some line => { d with context := Text.line? source line }
  | _, _ => d

/-- The source line with a mark under the column. -/
def pointer (line column : Nat) (context : String) : String :=
  let gutter := s!"{Text.padLeft 3 (toString line)} | "
  s!"    |\n{gutter}{context}\n{Text.spaces (gutter.length - 2)}| {Text.spaces (column - 1)}^\n"

/-- Header, place, source line with a pointer, and hint, each as far as known. -/
def render (d : Diagnostic) : String :=
  let place := match d.line, d.column with
    | some line, some column =>
      s!"  --> line {line}, column {column}\n" ++ (d.context.map (pointer line column)).getD ""
    | _, _ => ""
  let help := (d.hint.map fun h => s!"  = help: {h}\n").getD ""
  s!"{d.stage.label}: {d.message}\n{place}{help}"

end Diagnostic

namespace Diagnostics

def withSource (source : String) (ds : List Diagnostic) : List Diagnostic :=
  ds.map (Diagnostic.withSource source)

/-- One line per diagnostic: stage, message and place. -/
def text (ds : List Diagnostic) : String :=
  "\n".intercalate (ds.map fun d => s!"{d.stage.name}: {d.text}")

/-- The rendered blocks, a blank line between any two. -/
def render (ds : List Diagnostic) : String :=
  "\n".intercalate (ds.map Diagnostic.render)

end Diagnostics

end Sundial
