import Sundial.Command.Folder

/-!
# Running scripts in memory

A world answers the requests of a script from a folder, an input, a date and a time, and keeps what
is printed. Its stopwatch stands still.
-/

set_option autoImplicit false

namespace Sundial

structure World where
  folder : Folder
  input : String
  today : Date
  now : Time
  output : String
  errors : String

namespace World

/-- A world in which nothing is printed yet. -/
def new (folder : Folder) (input : String) (today : Date) : World :=
  ⟨folder.withInput input, input, today, .ofMidnight today 0, "", ""⟩

def print (w : World) : Channel → String → World
  | .output, text => { w with output := w.output ++ text }
  | .errors, text => { w with errors := w.errors ++ text }

/-- The world with a changed folder, if the change is possible. -/
def change (w : World) (r : Except FileFault Folder) : Except FileFault Unit × World :=
  match r with
  | .ok d => (.ok (), { w with folder := d })
  | .error e => (.error e, w)

def answer (w : World) : (r : Request) → r.Answer × World
  | .readFile path => (w.folder.read path, w)
  | .pathExists path => (w.folder.has path, w)
  | .listDirectory path => (w.folder.list path, w)
  | .writeFile path text => w.change (w.folder.write path text)
  | .makeDirectories path => w.change (w.folder.makeDirectories path)
  | .readInput => (w.input, { w with input := "" })
  | .today => (w.today, w)
  | .now => (w.now, w)
  | .stopwatch => ((0 : Nat), w)
  | .print channel text => ((), w.print channel text)

end World

/-- Runs a script; its value, or the exit code it stops with. -/
def Script.runIn {α : Type} : Script α → World → Except Nat α × World
  | done a, w => (.ok a, w)
  | stop code, w => (.error code, w)
  | ask r next, w =>
    let (a, w) := w.answer r
    (next a).runIn w

end Sundial
