import Sundial.Formula.Token
import Sundial.Text.EditDistance

/-!
# The words of formulas

Every word that formulas know belongs to one table: primitives, functions, directions, bases,
circumstances that conditions compare, and the two keywords. `classify` gives the token kind of a
word, and `closestWord` the known word that a misspelt one most resembles.
-/

set_option autoImplicit false

namespace Sundial

/-- A named instant of the sun's day. -/
inductive Primitive where
  | sunrise
  | sunset
  | solarNoon
  | solarMidnight
  | visibleSunrise
  | visibleSunset
  | civilDawn
  | civilDusk
  | nauticalDawn
  | nauticalDusk
  | astronomicalDawn
  | astronomicalDusk
  deriving DecidableEq, Repr

namespace Primitive

def all : List Primitive :=
  [sunrise, sunset, solarNoon, solarMidnight, visibleSunrise, visibleSunset, civilDawn, civilDusk,
   nauticalDawn, nauticalDusk, astronomicalDawn, astronomicalDusk]

def name : Primitive → String
  | sunrise => "sunrise"
  | sunset => "sunset"
  | solarNoon => "solar_noon"
  | solarMidnight => "solar_midnight"
  | visibleSunrise => "visible_sunrise"
  | visibleSunset => "visible_sunset"
  | civilDawn => "civil_dawn"
  | civilDusk => "civil_dusk"
  | nauticalDawn => "nautical_dawn"
  | nauticalDusk => "nautical_dusk"
  | astronomicalDawn => "astronomical_dawn"
  | astronomicalDusk => "astronomical_dusk"

def ofName? (s : String) : Option Primitive := all.find? fun p => p.name = s

/-- For a twilight, the sun's depression in degrees and whether it is the morning's. -/
def twilight? : Primitive → Option (Float × Bool)
  | civilDawn => some (6.0, true)
  | civilDusk => some (6.0, false)
  | nauticalDawn => some (12.0, true)
  | nauticalDusk => some (12.0, false)
  | astronomicalDawn => some (18.0, true)
  | astronomicalDusk => some (18.0, false)
  | _ => none

theorem ofName?_name (p : Primitive) : ofName? p.name = some p := by
  cases p <;> decide

end Primitive

/-- A function that formulas can call. -/
inductive BuiltIn where
  | solar
  | proportionalHours
  | midpoint
  deriving DecidableEq, Repr

namespace BuiltIn

def name : BuiltIn → String
  | solar => "solar"
  | proportionalHours => "proportional_hours"
  | midpoint => "midpoint"

/-- The names a function can be called by; the first one is its name. -/
def names : BuiltIn → List String
  | proportionalHours => ["proportional_hours", "shaos"]
  | f => [f.name]

def all : List BuiltIn := [solar, proportionalHours, midpoint]

def ofName? (s : String) : Option BuiltIn := all.find? fun f => f.names.contains s

def signature : BuiltIn → String
  | solar => "solar(degrees, direction)"
  | proportionalHours => "proportional_hours(hours, base)"
  | midpoint => "midpoint(time, time)"

theorem ofName?_name (f : BuiltIn) : ofName? f.name = some f := by
  cases f <;> decide

end BuiltIn

/-- Which crossing of a solar angle is meant. -/
inductive Direction where
  | beforeSunrise
  | afterSunset
  | beforeNoon
  | afterNoon
  deriving DecidableEq, Repr

namespace Direction

def all : List Direction := [beforeSunrise, afterSunset, beforeNoon, afterNoon]

def name : Direction → String
  | beforeSunrise => "before_sunrise"
  | afterSunset => "after_sunset"
  | beforeNoon => "before_noon"
  | afterNoon => "after_noon"

def ofName? (s : String) : Option Direction := all.find? fun d => d.name = s

/-- The sun is rising. -/
def isMorning : Direction → Bool
  | beforeSunrise | beforeNoon => true
  | afterSunset | afterNoon => false

theorem ofName?_name (d : Direction) : ofName? d.name = some d := by
  cases d <;> decide

end Direction

/-- A span of the day that reaches equally far beyond sunrise and sunset. -/
inductive DaySpan where
  | gra
  | mga
  | mga90
  | mga120
  deriving DecidableEq, Repr

namespace DaySpan

def all : List DaySpan := [gra, mga, mga90, mga120]

def name : DaySpan → String
  | gra => "gra"
  | mga => "mga"
  | mga90 => "mga_90"
  | mga120 => "mga_120"

def ofName? (s : String) : Option DaySpan := all.find? fun b => b.name = s

/-- Minutes from the start to sunrise, and from sunset to the end. -/
def margin : DaySpan → Float
  | gra => 0.0
  | mga => 72.0
  | mga90 => 90.0
  | mga120 => 120.0

theorem ofName?_name (b : DaySpan) : ofName? b.name = some b := by
  cases b <;> decide

end DaySpan

/-- The word for a base that names its own start and end. -/
def customWord : String := "custom"

/-- What a condition can compare: where and when the formula is evaluated. -/
inductive Circumstance where
  | latitude
  | longitude
  | elevation
  | dayLength
  | month
  | season
  deriving DecidableEq, Repr

namespace Circumstance

def all : List Circumstance := [latitude, longitude, elevation, dayLength, month, season]

def name : Circumstance → String
  | latitude => "latitude"
  | longitude => "longitude"
  | elevation => "elevation"
  | dayLength => "day_length"
  | month => "month"
  | season => "season"

def ofName? (s : String) : Option Circumstance := all.find? fun v => v.name = s

theorem ofName?_name (v : Circumstance) : ofName? v.name = some v := by
  cases v <;> decide

end Circumstance

namespace Vocabulary

def functionWords : List String := BuiltIn.all.flatMap BuiltIn.names
def baseWords : List String := DaySpan.all.map DaySpan.name ++ [customWord]
def ifKeyword : String := "if"
def elseKeyword : String := "else"

/-- The token kind of a word; an unknown word is just a word. -/
def classify (w : String) : TokenKind :=
  if w = ifKeyword then .ifWord
  else if w = elseKeyword then .elseWord
  else if (Primitive.ofName? w).isSome then .primitive
  else if functionWords.contains w then .function
  else if (Direction.ofName? w).isSome then .direction
  else if baseWords.contains w then .base
  else if (Circumstance.ofName? w).isSome then .circumstance
  else .word

/-- Every known word, table after table. -/
def allWords : List String :=
  Primitive.all.map Primitive.name ++ functionWords ++ Direction.all.map Direction.name ++
    baseWords ++ Circumstance.all.map Circumstance.name ++ [ifKeyword, elseKeyword]

/-- The first of the nearest words. -/
def nearest (distance : String → Nat) : List String → Option String
  | [] => none
  | w :: ws => match nearest distance ws with
    | some v => if distance v < distance w then some v else some w
    | none => some w

/-- How many edits away a word may be: a third of the length, but one at least and three at
most. -/
def editLimit (w : String) : Nat := max 1 (min 3 (w.utf8ByteSize / 3))

/-- The known word nearest to `w`, the case of ASCII letters aside, if it is within the limit. -/
def closestWord (w : String) : Option String :=
  let lower := String.ofList (w.toList.map Char.toLower)
  let distance := Text.editDistance lower
  nearest distance (allWords.filter fun v => distance v ≤ editLimit lower)

end Vocabulary

end Sundial
