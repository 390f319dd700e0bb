import Sundial.Calendar.Reader
import Sundial.Text.Search

/-!
# Arguments

An argument is an option or stands for itself. An option is written `--name value`, `--name=value`,
`-n value` or `-nvalue`; a switch has no value. What follows `--` stands for itself. Options may
stand anywhere, and a value is taken as it is, even if it looks like an option.
-/

set_option autoImplicit false

namespace Sundial

/-- An option that a command knows. -/
structure OptionName where
  name : String
  letter : Option Char
  /-- The option has no value. -/
  isSwitch : Bool

namespace OptionName

def valued (name : String) : OptionName := ⟨name, none, false⟩
def lettered (name : String) (letter : Char) : OptionName := ⟨name, some letter, false⟩
def switch (name : String) : OptionName := ⟨name, none, true⟩

end OptionName

/-- Arguments by kind, each kind in the order of the command line. -/
structure Arguments where
  options : List (String × String)
  plain : List String
  deriving Repr

/-- Why a command line is refused. -/
inductive UsageFault where
  | unknownOption (text : String)
  | valueMissing (name : String)
  | unwantedValue (name : String)
  | unexpected (text : String)
  | missing (what : String)
  | badValue (name value reason : String)
  | unknownCommand (text : String)
  deriving DecidableEq, Repr

def UsageFault.message : UsageFault → String
  | unknownOption text | unexpected text => s!"error: unexpected argument '{text}' found"
  | valueMissing name => s!"error: a value is required for '--{name}' but none was supplied"
  | unwantedValue name => s!"error: unexpected value for '--{name}' found; no more were expected"
  | missing what => s!"error: the following required argument was not provided: {what}"
  | badValue name value reason => s!"error: invalid value '{value}' for '--{name}': {reason}"
  | unknownCommand text => s!"error: unrecognized subcommand '{text}'"

namespace Arguments

def empty : Arguments := ⟨[], []⟩

def addOption (name value : String) (a : Arguments) : Arguments :=
  { a with options := (name, value) :: a.options }

def addPlain (text : String) (a : Arguments) : Arguments :=
  { a with plain := text :: a.plain }

/-- How an argument begins. -/
inductive Shape where
  | plain
  /-- All further arguments are plain. -/
  | divider
  | long (name : String) (value : Option String)
  | short (letter : Char) (value : Option String)

def Shape.ofText (s : String) : Shape :=
  match s.toList with
  | '-' :: '-' :: [] => divider
  | '-' :: '-' :: rest =>
    match Text.cutAt '=' (String.ofList rest) with
    | some (name, value) => long name (some value)
    | none => long (String.ofList rest) none
  | '-' :: letter :: [] => short letter none
  | '-' :: letter :: '=' :: value => short letter (some (String.ofList value))
  | '-' :: letter :: value => short letter (some (String.ofList value))
  | _ => plain

/-- The option that an argument begins with, and the value it brings. -/
def find? (known : List OptionName) : Shape → Option (OptionName × Option String)
  | .long name value => (known.find? fun o => o.name = name).map fun o => (o, value)
  | .short letter value => (known.find? fun o => o.letter = some letter).map fun o => (o, value)
  | .plain | .divider => none

def read (known : List OptionName) : List String → Except UsageFault Arguments
  | [] => .ok empty
  | s :: rest =>
    match Shape.ofText s with
    | .plain => (read known rest).map (addPlain s)
    | .divider => .ok { empty with plain := rest }
    | shape =>
      match find? known shape, rest with
      | none, _ => .error (.unknownOption s)
      | some (o, value), rest =>
        if o.isSwitch then
          if value.isSome then .error (.unwantedValue o.name)
          else (read known rest).map (addOption o.name "")
        else match value, rest with
          | some value, rest => (read known rest).map (addOption o.name value)
          | none, value :: rest => (read known rest).map (addOption o.name value)
          | none, [] => .error (.valueMissing o.name)

/-- The value of an option. -/
def value? (a : Arguments) (name : String) : Option String := a.options.lookup name

/-- The values of an option that may be repeated. -/
def values (a : Arguments) (name : String) : List String :=
  (a.options.filter fun o => o.1 = name).map Prod.snd

def has (a : Arguments) (name : String) : Bool := (a.value? name).isSome

/-- At most one plain argument. -/
def single? (a : Arguments) : Except UsageFault (Option String) :=
  match a.plain with
  | [] => .ok none
  | [s] => .ok (some s)
  | _ :: s :: _ => .error (.unexpected s)

/-- Exactly one plain argument. -/
def single (a : Arguments) (what : String) : Except UsageFault String := do
  match ← a.single? with
  | some s => .ok s
  | none => .error (.missing what)

/-- No plain argument. -/
def noPlain (a : Arguments) : Except UsageFault Unit :=
  match a.plain with
  | [] => .ok ()
  | s :: _ => .error (.unexpected s)

end Arguments

/-- Variables of the environment by their names. -/
abbrev Environment := List (String × String)

/-- The value of an option, or else of a variable, or else the given one. -/
def readSetting {α : Type} (name : String) (read : String → Except String α) (preset : α)
    (given : Option String) : Except UsageFault α :=
  match given with
  | none => .ok preset
  | some text =>
    match read text with
    | .ok a => .ok a
    | .error reason => .error (.badValue name text reason)

def readNumber (s : String) : Except String Float :=
  match Number.read? s with
  | some x => .ok x
  | none => .error "invalid float literal"

/-- A whole number from `low` up to but not including `high`. -/
def readWhole (low high : Int) (s : String) : Except String Int :=
  match Number.readInt? s with
  | some n => if low ≤ n ∧ n < high then .ok n else .error "number out of range"
  | none => .error "invalid digit found in string"

end Sundial
