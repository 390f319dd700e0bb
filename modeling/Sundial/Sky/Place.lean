import Sundial.Calendar.Time

/-!
# Places and the sun's day

What the sky answers for a date and a place: the fixed times of the sun's day, and the crossings of
a depression angle. `Sky` is any source of such answers. A rise or a crossing is absent where the
sun does not reach the height on that date. What is reckoned from times alone, midpoints, shifts and
proportional hours, is left to no sky: it is the same under all of them (`Time.midpoint`,
`Time.addMinutes?`, `Time.proportionalHour?`).
-/

set_option autoImplicit false

namespace Sundial

/-- A place on the earth and the UTC offset its clocks show. -/
structure Place where
  /-- Degrees, north positive. -/
  latitude : Float
  /-- Degrees, east positive. -/
  longitude : Float
  /-- Metres above the sea. -/
  elevation : Float
  /-- Seconds east of UTC. -/
  offset : Int

structure SunTimes where
  sunrise : Option Time
  sunset : Option Time
  /-- Rise and set as seen from the place's elevation. -/
  visibleSunrise : Option Time
  visibleSunset : Option Time
  solarNoon : Time
  solarMidnight : Time
  /-- Minutes from sunrise to sunset: none in polar night, a whole day under the midnight sun. -/
  dayLength : Float

/-- The morning and the evening crossing of a height. -/
structure Crossings where
  ascending : Option Time
  descending : Option Time

/-- A source of answers about the sun. It answers these two questions and has no other part in an
evaluation; a source that brought its own way of reckoning with times is not one of these. -/
structure Sky where
  sunTimes : Date → Place → SunTimes
  /-- The crossings of the height that many degrees below the horizon. -/
  crossings : Date → Place → Float → Crossings

/-- Names of the seasons. -/
inductive Season where
  | winter
  | spring
  | summer
  | autumn
  deriving DecidableEq, Repr

namespace Season

def name : Season → String
  | winter => "winter"
  | spring => "spring"
  | summer => "summer"
  | autumn => "autumn"

/-- The season half a year away. -/
def opposite : Season → Season
  | winter => summer
  | spring => autumn
  | summer => winter
  | autumn => spring

/-- The season of a month in the north; a number that is no month counts as autumn. -/
def northern (month : Nat) : Season :=
  if month = 12 ∨ month = 1 ∨ month = 2 then winter
  else if 3 ≤ month ∧ month ≤ 5 then spring
  else if 6 ≤ month ∧ month ≤ 8 then summer
  else autumn

/-- The season of a month at a latitude; the equator belongs to the north. -/
def ofMonth (month : Nat) (latitude : Float) : Season :=
  if latitude >= 0.0 then northern month else (northern month).opposite

end Season

end Sundial
