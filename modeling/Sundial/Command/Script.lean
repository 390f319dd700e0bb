import Sundial.Calendar.Time

/-!
# Scripts

A script is a command's dealings with its surroundings: it makes one request after another, each
depending on the answers so far, and ends with a value or stops with an exit code. What answers the
requests is left open, so the same script runs on a folder in memory and on a real one.
-/

set_option autoImplicit false

namespace Sundial

/-- Why a file or a directory cannot be used. -/
inductive FileFault where
  /-- The system's refusal, by its number. -/
  | refused (number : Nat) (reason : String)
  /-- The content of the file is no text. -/
  | notText
  deriving DecidableEq, Repr

namespace FileFault

def missing : FileFault := refused 2 "No such file or directory"
def occupied : FileFault := refused 17 "File exists"
def notDirectory : FileFault := refused 20 "Not a directory"
def isDirectory : FileFault := refused 21 "Is a directory"
def nameTooLong : FileFault := refused 36 "File name too long"

def message : FileFault → String
  | refused number reason => s!"{reason} (os error {number})"
  | notText => "stream did not contain valid UTF-8"

end FileFault

/-- Where a text is printed. -/
inductive Channel where
  | output
  | errors
  deriving DecidableEq, Repr

/-- What a script can ask for. -/
inductive Request where
  | readFile (path : String)
  /-- Something stands at the path. -/
  | pathExists (path : String)
  /-- The names in a directory. -/
  | listDirectory (path : String)
  | writeFile (path text : String)
  /-- A directory with all that lead to it; one that is there already is left as it is. -/
  | makeDirectories (path : String)
  /-- All of the input. -/
  | readInput
  /-- The date on the local calendar. -/
  | today
  /-- The time, in UTC. -/
  | now
  /-- Nanoseconds since some moment in the past. -/
  | stopwatch
  | print (channel : Channel) (text : String)

def Request.Answer : Request → Type
  | readFile _ => Except FileFault String
  | pathExists _ => Bool
  | listDirectory _ => Except FileFault (List String)
  | writeFile _ _ => Except FileFault Unit
  | makeDirectories _ => Except FileFault Unit
  | readInput => String
  | today => Date
  | now => Time
  | stopwatch => Nat
  | print _ _ => Unit

inductive Script (α : Type) where
  | done (a : α)
  /-- Ends everything with an exit code. -/
  | stop (code : Nat)
  | ask (request : Request) (next : request.Answer → Script α)

namespace Script

variable {α β : Type}

def bind : Script α → (α → Script β) → Script β
  | done a, f => f a
  | stop code, _ => stop code
  | ask r next, f => ask r fun a => (next a).bind f

instance : Monad Script where
  pure := done
  bind := bind

/-- A single request. -/
def request (r : Request) : Script r.Answer := ask r done

/-- Prints a text as it is. -/
def print (channel : Channel) (text : String) : Script Unit := request (.print channel text)

/-- Prints a line. -/
def printLine (text : String) : Script Unit := print .output (text ++ "\n")

/-- Prints a report of failure and stops. -/
def failWith (code : Nat) (report : String) : Script α := do
  print .errors report
  stop code

/-- The value of a result, or the end of the script with a report. -/
def orFail {ε : Type} (code : Nat) (report : ε → String) : Except ε α → Script α
  | .ok a => done a
  | .error e => failWith code (report e)

end Script

end Sundial
