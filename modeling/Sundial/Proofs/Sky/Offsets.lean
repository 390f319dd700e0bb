import Sundial.Sky.Ephemeris

/-!
# Offsets from UTC

A time is an instant shown in some offset, and the offset has no part in reckoning with times. Nor
has the offset of a place a part in where the sun stands: under the computed sky, the answers for
two places that differ in their offsets only are the same instants (`Sky.computed_ignoresOffset`).
-/

set_option autoImplicit false

namespace Sundial

/-! ## Times -/

/-- Both times are one instant, whatever offsets they are shown in. -/
def Time.SameInstant (t t' : Time) : Prop := t'.instant = t.instant

namespace Time.SameInstant

variable {t t' u u' : Time}

theorem refl (t : Time) : SameInstant t t := rfl

theorem addMillis (h : SameInstant t t') (millis : Int) :
    SameInstant (t.addMillis millis) (t'.addMillis millis) :=
  congrArg (· + millis * nanosPerMilli) h

theorem addMillis? (h : SameInstant t t') (millis : Int) :
    Option.Rel SameInstant (t.addMillis? millis) (t'.addMillis? millis) := by
  have hmoved : (t'.addMillis millis).instant = (t.addMillis millis).instant := h.addMillis millis
  simp only [Time.addMillis?, hmoved]
  split
  · exact .some hmoved
  · exact .none

theorem addMinutes? (h : SameInstant t t') (minutes : Float) :
    Option.Rel SameInstant (t.addMinutes? minutes) (t'.addMinutes? minutes) := by
  rw [Time.addMinutes?, Time.addMinutes?]
  cases millisOfMinutes? minutes with
  | none => exact .none
  | some millis => exact h.addMillis? millis

theorem minutesTo (h : SameInstant t t') (hu : SameInstant u u') :
    t'.minutesTo u' = t.minutesTo u := by
  rw [Time.minutesTo, Time.minutesTo, h, hu]

theorem midpoint (h : SameInstant t t') (hu : SameInstant u u') :
    SameInstant (t.midpoint u) (t'.midpoint u') := by
  rw [SameInstant, Time.midpoint, Time.midpoint, h, hu]

theorem proportionalHour? (h : SameInstant t t') (hu : SameInstant u u') (hours : Float) :
    Option.Rel SameInstant (t.proportionalHour? u hours) (t'.proportionalHour? u' hours) := by
  rw [Time.proportionalHour?, Time.proportionalHour?, h.minutesTo hu]
  exact h.addMinutes? _

end Time.SameInstant

open Time (SameInstant)

/-! ## Places and the sky -/

/-- The places differ in nothing but the offset of their clocks. -/
structure Place.SameSpot (p p' : Place) : Prop where
  latitude : p'.latitude = p.latitude
  longitude : p'.longitude = p.longitude
  elevation : p'.elevation = p.elevation

structure SunTimes.SameInstants (s s' : SunTimes) : Prop where
  sunrise : Option.Rel SameInstant s.sunrise s'.sunrise
  sunset : Option.Rel SameInstant s.sunset s'.sunset
  visibleSunrise : Option.Rel SameInstant s.visibleSunrise s'.visibleSunrise
  visibleSunset : Option.Rel SameInstant s.visibleSunset s'.visibleSunset
  solarNoon : SameInstant s.solarNoon s'.solarNoon
  solarMidnight : SameInstant s.solarMidnight s'.solarMidnight
  dayLength : s'.dayLength = s.dayLength

structure Crossings.SameInstants (a a' : Crossings) : Prop where
  ascending : Option.Rel SameInstant a.ascending a'.ascending
  descending : Option.Rel SameInstant a.descending a'.descending

/-- For places that differ in their offsets only the sky answers the same instants. -/
structure Sky.IgnoresOffset (sky : Sky) : Prop where
  sunTimes : ∀ {p p' : Place}, p.SameSpot p' → ∀ date,
    (sky.sunTimes date p).SameInstants (sky.sunTimes date p')
  crossings : ∀ {p p' : Place}, p.SameSpot p' → ∀ date degrees,
    (sky.crossings date p degrees).SameInstants (sky.crossings date p' degrees)

namespace Ephemeris

variable {p p' : Place} {date : Date} {zenith degrees : Float} {rising : Bool}

theorem sameInstant_timeAt (p p' : Place) (date : Date) (minutes : Float) :
    SameInstant (timeAt date p minutes) (timeAt date p' minutes) := rfl

/-- Where the sun stands depends on latitude and longitude. -/
theorem crossing_congr (h : p.SameSpot p') :
    crossing date p' zenith rising = crossing date p zenith rising := by
  have hrefine (julian minutes : Float) :
      refine julian p' zenith rising minutes = refine julian p zenith rising minutes := by
    rw [refine, refine, h.latitude, h.longitude]
  simp only [crossing, hrefine, h.longitude]

theorem sameInstant_crossingTime (h : p.SameSpot p') :
    Option.Rel SameInstant (crossingTime date p zenith rising)
      (crossingTime date p' zenith rising) := by
  rw [crossingTime, crossingTime, crossing_congr h]
  cases crossing date p zenith rising with
  | reached minutes => exact .some (sameInstant_timeAt p p' date minutes)
  | above | below => exact .none

theorem sunTimes_sameInstants (h : p.SameSpot p') :
    (sunTimes date p).SameInstants (sunTimes date p') := by
  have hnoon : SameInstant (timeAt date p (noonMinutes (julianDay date) p.longitude))
      (timeAt date p' (noonMinutes (julianDay date) p'.longitude)) := by
    rw [h.longitude]
    exact sameInstant_timeAt ..
  have hvisible (side : Bool) :
      Option.Rel SameInstant (crossingTime date p (riseZenith + horizonDip p.elevation) side)
        (crossingTime date p' (riseZenith + horizonDip p'.elevation) side) := by
    rw [h.elevation]
    exact sameInstant_crossingTime h
  simp only [sunTimes, crossing_congr h]
  cases crossing date p riseZenith true <;> cases crossing date p riseZenith false
  case reached.reached rise set =>
    have hrise := sameInstant_timeAt p p' date rise
    have hset := sameInstant_timeAt p p' date set
    exact ⟨.some hrise, .some hset, hvisible true, hvisible false, hnoon, hnoon.addMillis _,
      hrise.minutesTo hset⟩
  all_goals exact ⟨.none, .none, hvisible true, hvisible false, hnoon, hnoon.addMillis _, rfl⟩

theorem crossings_sameInstants (h : p.SameSpot p') :
    (crossings date p degrees).SameInstants (crossings date p' degrees) :=
  ⟨sameInstant_crossingTime h, sameInstant_crossingTime h⟩

end Ephemeris

theorem Sky.computed_ignoresOffset : Sky.computed.IgnoresOffset where
  sunTimes h _ := Ephemeris.sunTimes_sameInstants h
  crossings h _ _ := Ephemeris.crossings_sameInstants h

end Sundial
