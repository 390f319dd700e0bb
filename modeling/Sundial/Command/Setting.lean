import Sundial.Command.Arguments
import Sundial.Command.Script
import Sundial.Evaluation.Context
import Sundial.Json.Writer
import Sundial.Sky.Ephemeris

/-!
# Date and place of a command

The options that say where and when formulas are evaluated. What no option gives is taken from the
environment. Without either the place is Jerusalem and the date is today.
-/

set_option autoImplicit false

namespace Sundial

structure Setting where
  place : Place
  /-- Today if none. -/
  date : Option Date

namespace Setting

def options : List OptionName :=
  ["latitude", "longitude", "elevation", "timezone", "date"].map OptionName.valued

/-- The variable that stands in for an option. -/
def variableName (option : String) : String :=
  "ZMAN_" ++ option.toUpper

def read (env : Environment) (a : Arguments) : Except UsageFault Setting := do
  let given (name : String) := (a.value? name).or (env.lookup (variableName name))
  let latitude ← readSetting "latitude" readNumber 31.7683 (given "latitude")
  let longitude ← readSetting "longitude" readNumber 35.2137 (given "longitude")
  let elevation ← readSetting "elevation" readNumber 0.0 (given "elevation")
  let offset ← readSetting "timezone" readOffset 7200 (given "timezone")
  let date ← readSetting "date" (fun s => (Date.read s).map some) none (given "date")
  return ⟨⟨latitude, longitude, elevation, offset⟩, date⟩

/-- A fresh context for the date and place. -/
def context (s : Setting) : Script Context := do
  let date ← match s.date with
    | some date => pure date
    | none => Script.request .today
  return .new date s.place .computed

end Setting

/-- A place as a part of a JSON document. -/
def Place.json (p : Place) : JsonText :=
  .object [("latitude", .number p.latitude), ("longitude", .number p.longitude),
    ("elevation", .number p.elevation), ("timezone", .string (offsetText p.offset))]

end Sundial
