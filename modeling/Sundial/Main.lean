import Std.Time.Zoned
import Sundial.Command.Program

/-!
# The command line

Runs the program for a command line on the real files, clock, input and output. The first argument
may name the tool; without it the command is one on formulas.
-/

set_option autoImplicit false

namespace Sundial

namespace CommandLine

/-- Refusals by their numbers, worded alike whichever call meets them. -/
def knownFaults : List (Nat × FileFault) :=
  [(2, .missing), (13, .refused 13 "Permission denied"), (17, .occupied), (20, .notDirectory),
    (21, .isDirectory), (36, .nameTooLong)]

/-- The refusal with a number, which some calls give with a minus sign. -/
def refusal (n : UInt32) (reason : String) : FileFault :=
  let number := n.toInt32.toInt.natAbs
  (knownFaults.lookup number).getD (.refused number reason)

/-- What the system says about a file operation that it refuses. -/
def fileFault : IO.Error → FileFault
  | .alreadyExists _ n reason | .otherError n reason | .resourceBusy n reason
  | .resourceVanished n reason | .unsupportedOperation n reason | .hardwareFault n reason
  | .unsatisfiedConstraints n reason | .illegalOperation n reason | .protocolError n reason
  | .timeExpired n reason | .interrupted _ n reason | .noFileOrDirectory _ n reason
  | .invalidArgument _ n reason | .permissionDenied _ n reason | .resourceExhausted _ n reason
  | .inappropriateType _ n reason | .noSuchThing _ n reason => refusal n reason
  | .unexpectedEof | .userError _ => .notText

def attempt {α : Type} (act : IO α) : IO (Except FileFault α) := do
  return (← act.toBaseIO).mapError fileFault

/-- The names in a directory below the working directory, or anywhere for an absolute path. -/
def namesIn (path : String) : IO (List String) := do
  let entries ← ((← IO.currentDir) / path).readDir
  return (entries.map fun e => e.fileName).toList

def isThere (path : String) : IO Bool := do
  if path = "" then return false else ((← IO.currentDir) / path).pathExists

def isDirectory (path : String) : IO Bool := do
  ((← IO.currentDir) / path).isDir

/-- Makes a directory, and what leads to it if that is missing. -/
partial def makeDirectories (path : String) : IO (Except FileFault Unit) := do
  if path = "" then return .ok ()
  match ← attempt (IO.FS.createDir path) with
  | .ok () => return .ok ()
  | .error e =>
    if ← isDirectory path then return .ok ()
    else match Benchmark.parent? path with
      | none => return .error e
      | some parent =>
        if e ≠ .missing then return .error e
        match ← makeDirectories parent with
        | .ok () => attempt (IO.FS.createDir path)
        | .error e => return .error e

def localDate : IO Date := do
  let d ← Std.Time.PlainDate.now
  return .ofNumbers d.year d.month.toNat d.day.toNat

def clockTime : IO Time := do
  let t ← Std.Time.Timestamp.now
  return ⟨t.toNanosecondsSinceUnixEpoch.toInt, 0⟩

def printOn : Channel → String → IO Unit
  | .output, text => do
    let out ← IO.getStdout
    out.putStr text
    out.flush
  | .errors, text => IO.eprint text

/-- Answers a request from the system. -/
def answer : (r : Request) → IO r.Answer
  | .readFile path => attempt (IO.FS.readFile path)
  | .pathExists path => isThere path
  | .listDirectory path => attempt (namesIn path)
  | .writeFile path text => attempt (IO.FS.writeFile path text)
  | .makeDirectories path => makeDirectories path
  | .readInput => do (← IO.getStdin).readToEnd
  | .today => localDate
  | .now => clockTime
  | .stopwatch => IO.monoNanosNow
  | .print channel text => printOn channel text

/-- Runs a script; its value, or the exit code it stops with. -/
def run {α : Type} : Script α → IO (Except Nat α)
  | .done a => pure (.ok a)
  | .stop code => pure (.error code)
  | .ask r next => do
    let a ← answer r
    run (next a)

def say (said : List Said) : IO Unit :=
  said.forM fun s => printOn s.1 s.2

/-- Answers lines until the dialogue or the input ends. -/
partial def converse (d : Dialogue) : IO Unit := do
  say [d.prompt]
  let text ← (← IO.getStdin).getLine
  if text = "" then say [Dialogue.line ("\n" ++ Dialogue.farewell)]
  else
    let a := d.answer text
    say a.said
    match a.next with
    | some d => converse d
    | none => pure ()

def runProgram : Program → IO Nat
  | .script s => do return Program.exitCode (← run s)
  | .dialogue s => do
    match ← run s with
    | .ok c =>
      say [Dialogue.banner]
      converse (.new c)
      return 0
    | .error code => return code

/-- The variables that stand in for options. -/
def environment : IO Environment :=
  Setting.options.filterMapM fun o => do
    let name := Setting.variableName o.name
    return (← IO.getEnv name).map fun value => (name, value)

/-- The tool that the first argument names, and the arguments for it. -/
def chooseTool : List String → Tool × List String
  | [] => (.formulas, [])
  | s :: rest =>
    match Tool.ofName? s with
    | some t => (t, rest)
    | none => (.formulas, s :: rest)

end CommandLine

end Sundial

/-- The exit code of the program for the arguments. -/
def main (args : List String) : IO UInt32 := do
  let (tool, args) := Sundial.CommandLine.chooseTool args
  let env ← Sundial.CommandLine.environment
  let code ← Sundial.CommandLine.runProgram (Sundial.Program.ofCommandLine env tool args)
  return code.toUInt32
