import Sundial.Command.Benchmark
import Sundial.Command.Dialogue
import Sundial.Command.Sets
import Sundial.Command.Tidy
import Sundial.Command.World
import Sundial.Text.Lines

/-!
# Programs

What a command line asks for: a script that runs to its end, or a dialogue. `Program.runIn` runs it
in a world in memory and gives the exit code and what is left of the world.
-/

set_option autoImplicit false

namespace Sundial

inductive Program where
  | script (s : Script Unit)
  /-- A dialogue, once its context is known. -/
  | dialogue (s : Script Context)

/-- The tools that there are. -/
inductive Tool where
  /-- Commands on formulas and formula sets. -/
  | formulas
  /-- Tidying formula files. -/
  | tidy
  /-- Timing the work on formula sets. -/
  | benchmark
  deriving DecidableEq, Repr

namespace Tool

def all : List Tool := [formulas, tidy, benchmark]

def name : Tool → String
  | formulas => "zman"
  | tidy => "zman-fmt"
  | benchmark => "zman-bench"

def ofName? (s : String) : Option Tool := all.find? fun t => t.name = s

end Tool

namespace Program

/-- The keys of a list, divided by commas and perhaps over several options. -/
def splitKeys (values : List String) : List String :=
  values.flatMap fun v => v.splitOn ","

/-- A command on formulas: its name and its arguments. -/
def ofCommand (env : Environment) (name : String) (args : List String) :
    Except UsageFault Program := do
  match name with
  | "tokens" =>
    let a ← Arguments.read FormulaSource.options args
    return .script (Command.listTokens (← FormulaSource.read a))
  | "parse" =>
    let a ← Arguments.read (FormulaSource.options ++ [.switch "tree"]) args
    return .script (Command.showParsed (← FormulaSource.read a) (a.has "tree"))
  | "validate" =>
    let a ← Arguments.read (FormulaSource.options ++ [.valued "key", .valued "keys"]) args
    let scope : Scope := ⟨splitKeys (a.values "keys"), a.value? "key"⟩
    return .script (Command.validate (← FormulaSource.read a) scope)
  | "eval" =>
    let a ← Arguments.read (FormulaSource.options ++ Setting.options ++
      [.valued "formulas", .switch "breakdown", .switch "json"]) args
    return .script (Command.evaluate (← FormulaSource.read a) (← Setting.read env a)
      (a.value? "formulas") ⟨a.has "breakdown", a.has "json"⟩)
  | "batch" =>
    let a ← Arguments.read (Setting.options ++ [.switch "json"]) args
    return .script (Command.batch (← a.single "<FILE>") (← Setting.read env a) (a.has "json"))
  | "order" =>
    let a ← Arguments.read [] args
    return .script (Command.order (← a.single "<FILE>"))
  | "repl" =>
    let a ← Arguments.read Setting.options args
    a.noPlain
    return .dialogue (← Setting.read env a).context
  | name => .error (.unknownCommand name)

def ofArguments (env : Environment) : Tool → List String → Except UsageFault Program
  | .formulas, name :: args => ofCommand env name args
  | .formulas, [] => .error (.missing "<COMMAND>")
  | .tidy, args => .ok (.script (Tidy.script args))
  | .benchmark, args => (Benchmark.Plan.read args).map fun p => .script (Benchmark.script p)

/-- The end of a program whose command line is refused. -/
def refusal (e : UsageFault) : Script Unit := .failWith 2 (e.message ++ "\n")

/-- The program for a command line. -/
def ofCommandLine (env : Environment) (tool : Tool) (args : List String) : Program :=
  match ofArguments env tool args with
  | .ok p => p
  | .error e => .script (refusal e)

/-- The exit code of a script. -/
def exitCode {α : Type} : Except Nat α → Nat
  | .ok _ => 0
  | .error code => code

/-- A whole conversation on the lines of the world's input. -/
def converse (d : Dialogue) (w : World) : World :=
  let said := Dialogue.banner :: d.transcript (Text.inputLines w.input)
  said.foldl (fun w s => w.print s.1 s.2) { w with input := "" }

def runIn : Program → World → Nat × World
  | script s, w =>
    let (r, w) := s.runIn w
    (exitCode r, w)
  | dialogue s, w =>
    match s.runIn w with
    | (.ok c, w) => (0, converse (.new c) w)
    | (.error code, w) => (code, w)

end Program

end Sundial
