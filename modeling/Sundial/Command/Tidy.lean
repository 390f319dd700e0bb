import Sundial.Command.Script
import Sundial.Formula.Parser
import Sundial.Formula.Printer

/-!
# Tidying formula files

A formula file is tidy if it holds the canonical text of its formula and a line feed. The command
prints the tidy text, writes it back, or tells whether the file is tidy already.
-/

set_option autoImplicit false

namespace Sundial

/-- The tidy text of a formula. -/
def tidy (source : String) : Except (List Diagnostic) String :=
  (Formula.parse source).map fun f => f.text ++ "\n"

namespace Tidy

def usage : String := "Usage: zman-fmt [--check|--write] <formula-file>\n"

/-- What is to be done with the tidy text. Checking goes before writing. -/
structure Task where
  check : Bool
  write : Bool
  path : Option String
  deriving DecidableEq, Repr

/-- Switches up to the first other argument, which is the path; what follows is not looked at. -/
def Task.read : List String → Task
  | [] => ⟨false, false, none⟩
  | s :: rest =>
    if s = "--check" then { Task.read rest with check := true }
    else if s = "--write" then { Task.read rest with write := true }
    else ⟨false, false, some s⟩

/-- A text with carriage returns taken away in front of line feeds. -/
def unixLines : List Char → List Char
  | [] => []
  | c :: cs => if c = '\r' ∧ cs.head? = some '\n' then unixLines cs else c :: unixLines cs

def isTidy (source tidied : String) : Bool :=
  unixLines tidied.toList = unixLines source.toList

def fileFault (path : String) (e : FileFault) : String := s!"{path}: {e.message}\n"

def perform (task : Task) (path : String) : Script Unit := do
  let content : Except FileFault String ← Script.request (.readFile path)
  let source ← Script.orFail 1 (fileFault path) content
  let tidied ← Script.orFail 1 (fun ds => Diagnostics.render ds ++ "\n") (tidy source)
  if task.check then
    if isTidy source tidied then .printLine s!"{path}: ok"
    else .failWith 1 s!"{path}: not formatted\n"
  else if task.write then
    let written : Except FileFault Unit ← Script.request (.writeFile path tidied)
    Script.orFail 1 (fileFault path) written
  else .print .output tidied

/-- The command for a command line. -/
def script (args : List String) : Script Unit :=
  if args.isEmpty || args.any fun a => a = "-h" || a = "--help" then .failWith 2 usage
  else
    let task := Task.read args
    match task.path with
    | none => .failWith 2 "zman-fmt: no input file\n"
    | some path => perform task path

end Tidy

end Sundial
