import Sundial.Sky.Place

/-!
# The computed sky

The position of the sun after the NOAA solar calculator equations: declination and equation of time
for a moment, hour angles for a zenith, and from these the times of crossings, with one refinement
at the first estimate. Minutes are counted from the date's midnight in UTC, and results are rounded
to whole milliseconds.
-/

set_option autoImplicit false

namespace Sundial.Ephemeris

/-- Zenith angle of the sun's upper limb at rise and set, with standard refraction. -/
def riseZenith : Float := 90.833

/-- In metres. -/
def earthRadius : Float := 6371000.0

/-- The Julian day of the midnight before day number one. -/
def julianOffset : Float := 1721424.5

/-- The Julian day of noon on 1 January 2000. -/
def julianEpoch : Float := 2451545.0

def pi : Float := 3.14159265358979323846

def radians (degrees : Float) : Float := degrees * (pi / 180.0)
def degrees (radians : Float) : Float := radians * (180.0 / pi)

def julianDay (d : Date) : Float := Float.ofInt d.dayNumber + julianOffset

structure SunPosition where
  /-- In degrees. -/
  declination : Float
  /-- In minutes. -/
  equationOfTime : Float

def sunPosition (julian : Float) : SunPosition :=
  let t := (julian - julianEpoch) / 36525.0
  let meanLongitude := Binary64.residue (280.46646 + t * (36000.76983 + t * 0.0003032)) 360
  let meanAnomaly := 357.52911 + t * (35999.05029 - 0.0001537 * t)
  let eccentricity := 0.016708634 - t * (0.000042037 + 0.0000001267 * t)
  let m := radians meanAnomaly
  let center := m.sin * (1.914602 - t * (0.004817 + 0.000014 * t))
    + (2.0 * m).sin * (0.019993 - 0.000101 * t)
    + (3.0 * m).sin * 0.000289
  let trueLongitude := meanLongitude + center
  let omega := radians (125.04 - 1934.136 * t)
  let apparentLongitude := trueLongitude - 0.00569 - 0.00478 * omega.sin
  let meanObliquity :=
    23.0 + (26.0 + (21.448 - t * (46.815 + t * (0.00059 - t * 0.001813))) / 60.0) / 60.0
  let obliquity := radians (meanObliquity + 0.00256 * omega.cos)
  let declination := degrees (obliquity.sin * (radians apparentLongitude).sin).asin
  let tangent := (obliquity / 2.0).tan
  let y := tangent * tangent
  let l := radians meanLongitude
  let equation := y * (2.0 * l).sin - 2.0 * eccentricity * m.sin
    + 4.0 * eccentricity * y * m.sin * (2.0 * l).cos
    - 0.5 * y * y * (4.0 * l).sin
    - 1.25 * eccentricity * eccentricity * (2.0 * m).sin
  ⟨declination, 4.0 * degrees equation⟩

/-- How the sun stands to a zenith angle over a day: it crosses it, with an hour angle in degrees or
a time in minutes, or it stays on one side. -/
inductive Crossing where
  | reached (value : Float)
  | above
  | below

def hourAngle (latitude declination zenith : Float) : Crossing :=
  let lat := radians latitude
  let dec := radians declination
  let cosine := (radians zenith).cos / (lat.cos * dec.cos) - lat.tan * dec.tan
  if cosine > 1.0 then .below
  else if cosine < -1.0 then .above
  else .reached (degrees cosine.acos)

/-- Solar noon for a known equation of time. -/
def noon (longitude equationOfTime : Float) : Float :=
  720.0 - 4.0 * longitude - equationOfTime

def noonMinutes (julian longitude : Float) : Float :=
  let rough := 720.0 - 4.0 * longitude
  noon longitude (sunPosition (julian + rough / 1440.0)).equationOfTime

/-- A better estimate of a crossing from an estimate of it. -/
def refine (julian : Float) (place : Place) (zenith : Float) (rising : Bool) (minutes : Float) :
    Crossing :=
  let sun := sunPosition (julian + minutes / 1440.0)
  match hourAngle place.latitude sun.declination zenith with
  | .reached angle =>
    let noon := noon place.longitude sun.equationOfTime
    .reached (if rising then noon - 4.0 * angle else noon + 4.0 * angle)
  | side => side

/-- The crossing of a zenith angle on one side of noon, refined twice from noon itself. -/
def crossing (date : Date) (place : Place) (zenith : Float) (rising : Bool) : Crossing :=
  let julian := julianDay date
  match refine julian place zenith rising (noonMinutes julian place.longitude) with
  | .reached minutes => refine julian place zenith rising minutes
  | side => side

/-- How far the horizon lies below the level of the eye, in degrees. -/
def horizonDip (elevation : Float) : Float :=
  if elevation <= 0.0 then 0.0
  else degrees (earthRadius / (earthRadius + elevation)).acos

/-- The time that many minutes after the date's midnight, to the millisecond; minutes that are no
number count as none. -/
def timeAt (date : Date) (place : Place) (minutes : Float) : Time :=
  (Time.ofMidnight date place.offset).addMillis (minutes * 60000.0).round.toInt64.toInt

def crossingTime (date : Date) (place : Place) (zenith : Float) (rising : Bool) : Option Time :=
  match crossing date place zenith rising with
  | .reached minutes => some (timeAt date place minutes)
  | _ => none

def millisPerHalfDay : Int := 43200000

def sunTimes (date : Date) (place : Place) : SunTimes :=
  let noon := timeAt date place (noonMinutes (julianDay date) place.longitude)
  let (sunrise, sunset, dayLength) : Option Time × Option Time × Float :=
    match crossing date place riseZenith true, crossing date place riseZenith false with
    | .reached r, .reached s =>
      let rise := timeAt date place r
      let set := timeAt date place s
      (some rise, some set, rise.minutesTo set)
    | .above, _ | _, .above => (none, none, 1440.0)
    | _, _ => (none, none, 0.0)
  let visibleZenith := riseZenith + horizonDip place.elevation
  { sunrise := sunrise
    sunset := sunset
    visibleSunrise := crossingTime date place visibleZenith true
    visibleSunset := crossingTime date place visibleZenith false
    solarNoon := noon
    solarMidnight := noon.addMillis millisPerHalfDay
    dayLength := dayLength }

def crossings (date : Date) (place : Place) (degrees : Float) : Crossings :=
  let zenith := 90.0 + degrees
  ⟨crossingTime date place zenith true, crossingTime date place zenith false⟩

end Sundial.Ephemeris

/-- The sky as the equations give it. -/
def Sundial.Sky.computed : Sundial.Sky :=
  ⟨Sundial.Ephemeris.sunTimes, Sundial.Ephemeris.crossings⟩
