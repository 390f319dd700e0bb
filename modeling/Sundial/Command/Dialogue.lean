import Sundial.Command.Script
import Sundial.Command.Session

/-!
# Dialogues

A dialogue reads lines and answers each. A line that begins with a colon is an instruction to the
session, and other lines are formulas, which go on over several lines until their parentheses and
braces are closed. `Dialogue.answer` takes one line; `Dialogue.transcript` is a whole conversation.
-/

set_option autoImplicit false

namespace Sundial

/-- A text that is printed on a channel. -/
abbrev Said := Channel × String

structure Dialogue where
  session : Session
  /-- The lines of a formula that is not finished. -/
  pending : String

/-- What is said to a line, and how the dialogue goes on; it ends if there is no next state. -/
structure Answer where
  said : List Said
  next : Option Dialogue

/-- Instructions to a session. -/
inductive Instruction where
  | quit
  | help
  | define (rest : String)
  | change (rest : String)
  | listKeys
  | showContext
  | reset
  | unknown

/-- Reads a line that begins with a colon. -/
def Instruction.read (line : String) : Instruction :=
  let (word, rest) := Text.cutBlank line
  let rest := Text.trim rest
  match word with
  | ":quit" | ":q" | ":exit" => quit
  | ":help" | ":h" => help
  | ":let" => define rest
  | ":set" => change rest
  | ":keys" => listKeys
  | ":ctx" => showContext
  | ":reset" => reset
  | _ => unknown

namespace Dialogue

def new (c : Context) : Dialogue := ⟨.new c, ""⟩

def line (text : String) : Said := (.output, text ++ "\n")

def complaint (report : String) : Said := (.errors, report)

/-! ## Texts -/

def banner : Said :=
  line (Colour.green.paint (bold "Zman REPL. Type :help for help, :quit to exit."))

def prompt (d : Dialogue) : Said :=
  (.output, Colour.cyan.paint (if d.pending = "" then "zman> " else "... > "))

def farewell : String := "Goodbye."

/-- The instructions and what they do. -/
def instructionHelp : List (String × String) := [
  (":let key = formula", "Define a named formula"),
  (":set lat|lon|elev|tz|date <value>", "Change the context"),
  (":keys", "List defined formulas and their times"),
  (":ctx", "Show the date, location and sun times"),
  (":reset", "Forget every defined formula"),
  (":help", "Show this help"),
  (":quit", "Exit the REPL")]

def help : List Said :=
  [line (bold "Commands:")] ++
    instructionHelp.map (fun h => line ("  " ++ Colour.yellow.paint h.1 ++ "  " ++ h.2)) ++
    [line ("Anything else is evaluated as a formula. " ++
      "Unclosed ( or \x7b continues on the next line.")]

/-- Every key with its time and text. -/
def keyLines (s : Session) : List Said :=
  if s.formulas.isEmpty then [line (faint "<no formulas>")]
  else s.formulas.entries.map fun e =>
    let time := ((s.context.time? e.1).map Time.clockText).getD "--:--:--"
    line (Colour.yellow.paint e.1 ++ " = " ++ Colour.brightBlue.paint time ++ "  " ++
      Colour.grey.paint e.2)

/-- Date, place, sunrise and sunset. -/
def contextLines (s : Session) : List Said × Session :=
  let p := s.context.place
  let (sun, c) := s.context.sunTimes
  let shown (t : Option Time) := (t.map Time.clockText).getD "none"
  let field (name content : String) := line (Colour.yellow.paint name ++ ": " ++ content)
  ([field "date" s.context.date.text,
    field "location" (fixedText 4 p.latitude ++ ", " ++ fixedText 4 p.longitude ++ "  " ++
      plainText p.elevation ++ " m  UTC" ++ offsetText p.offset),
    field "sunrise" (shown sun.sunrise),
    field "sunset" (shown sun.sunset)], { s with context := c })

/-! ## Answers -/

/-- The key of a definition: a word, with an at sign in front or without. -/
def keyOf (s : String) : String :=
  String.ofList ((Text.trim s).toList.dropWhile (· = '@'))

def isKey (key : String) : Bool :=
  key ≠ "" && key.toList.all fun c => c.isAlphanum || c = '_'

def answerDefine (s : Session) (rest : String) : List Said × Session :=
  match Text.cutAt '=' rest with
  | none => ([complaint (failureReport "usage: :let key = formula")], s)
  | some (key, text) =>
    let key := keyOf key
    if !isKey key then ([complaint (failureReport s!"invalid formula key '{key}'")], s)
    else match s.define key (Text.trim text) with
      | (.ok (some t), s) =>
        ([line (Colour.yellow.paint key ++ " = " ++ Colour.brightBlue.paint t.clockText)], s)
      | (.ok none, s) => ([], s)
      | (.error e, s) => ([complaint e.report], s)

def answerChange (s : Session) (rest : String) : List Said × Session :=
  let (field, value) := Text.cutBlank rest
  match Session.Change.read field (Text.trim value) with
  | .error message => ([complaint (failureReport message)], s)
  | .ok c =>
    match s.change c with
    | (.ok (), s) => contextLines s
    | (.error e, s) =>
      let (said, s) := contextLines s
      (complaint e.report :: said, s)

/-- Goes on with a session, nothing pending. -/
def goOn (r : List Said × Session) : Answer := ⟨r.1, some ⟨r.2, ""⟩⟩

def answerInstruction (s : Session) : Instruction → Answer
  | .quit => ⟨[line farewell], none⟩
  | .help => goOn (help, s)
  | .define rest => goOn (answerDefine s rest)
  | .change rest => goOn (answerChange s rest)
  | .listKeys => goOn (keyLines s, s)
  | .showContext => goOn (contextLines s)
  | .reset => goOn ([line (Colour.yellow.paint "Formulas cleared.")], s.reset)
  | .unknown => goOn ([line (Colour.red.paint "Unknown command. Type :help.")], s)

/-- Evaluates a finished formula. -/
def answerFormula (s : Session) (text : String) : Answer :=
  match s.evaluate text with
  | (.ok t, s) => goOn ([line (Colour.brightBlue.paint t.clockText)], s)
  | (.error e, s) => goOn ([complaint e.report], s)

/-- Answers a line, which brings its line feed along. -/
def answer (d : Dialogue) (text : String) : Answer :=
  let trimmed := Text.trim text
  if d.pending = "" ∧ trimmed = "" then ⟨[], some d⟩
  else if d.pending = "" ∧ trimmed.startsWith ":" then
    answerInstruction d.session (Instruction.read trimmed)
  else
    let pending := d.pending ++ text
    if isComplete pending then answerFormula d.session pending
    else ⟨[], some { d with pending := pending }⟩

/-- All that is said to the given lines, the prompts included. -/
def transcript (d : Dialogue) : List String → List Said
  | [] => [d.prompt, line ("\n" ++ farewell)]
  | text :: texts =>
    let a := d.answer text
    d.prompt :: a.said ++ (match a.next with
      | some d => transcript d texts
      | none => [])

end Dialogue

end Sundial
