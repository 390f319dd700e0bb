import Sundial.Calendar.Date
import Sundial.Number.Binary64

/-!
# Times

A time is an instant, in nanoseconds, together with the UTC offset it is shown in. Differences,
shifts and midpoints depend on instants only; the offset comes from the first time. A shift is none
if it leaves the years that dates may have.
-/

set_option autoImplicit false

namespace Sundial

/-- An instant in nanoseconds since 1 January 1970, UTC, shown `offset` seconds east of UTC. -/
structure Time where
  instant : Int
  offset : Int
  deriving DecidableEq, Repr

namespace Time

def nanosPerMilli : Int := 1000000
def nanosPerSecond : Int := 1000000000
def secondsPerDay : Int := 86400
def nanosPerDay : Int := secondsPerDay * nanosPerSecond

/-- The day number of 1 January 1970. -/
def epochDay : Int := 719163

/-- Midnight of a date in UTC, shown in the given offset. -/
def ofMidnight (d : Date) (offset : Int) : Time :=
  ⟨(d.dayNumber - epochDay) * nanosPerDay, offset⟩

def ofMillis (millis offset : Int) : Time := ⟨millis * nanosPerMilli, offset⟩

/-- The instant lies in the years that dates may have. -/
def inRange (instant : Int) : Bool :=
  (Date.least.dayNumber - epochDay) * nanosPerDay ≤ instant &&
    instant < (Date.greatest.dayNumber + 1 - epochDay) * nanosPerDay

def addMillis (t : Time) (millis : Int) : Time :=
  ⟨t.instant + millis * nanosPerMilli, t.offset⟩

/-- The time moved by whole milliseconds, if it stays in range. -/
def addMillis? (t : Time) (millis : Int) : Option Time :=
  let moved := t.addMillis millis
  if inRange moved.instant then some moved else none

/-- Minutes as whole milliseconds, a half away from zero; none unless they are finite and fit in 63
bits. -/
def millisOfMinutes? (minutes : Float) : Option Int :=
  let millis := (minutes * 60000.0).round
  if millis.isFinite && millis.abs < 9223372036854775808.0 then some millis.toInt64.toInt else none

/-- The time moved by a signed number of minutes. -/
def addMinutes? (t : Time) (minutes : Float) : Option Time :=
  (millisOfMinutes? minutes).bind t.addMillis?

/-- Signed minutes from one time to another; what is below a millisecond is dropped. -/
def minutesTo (a b : Time) : Float :=
  Float.ofInt ((b.instant - a.instant).tdiv nanosPerMilli) / 60000.0

/-- The time halfway between two, to the nanosecond below. -/
def midpoint (a b : Time) : Time :=
  ⟨a.instant + (b.instant - a.instant) / 2, a.offset⟩

/-- The time `hours` proportional hours after `start`; the span to `finish` has twelve of them. -/
def proportionalHour? (start finish : Time) (hours : Float) : Option Time :=
  start.addMinutes? (start.minutesTo finish / 12.0 * hours)

/-! ## Text -/

/-- The clock's date and the nanoseconds since its midnight. -/
def clock (t : Time) : Date × Nat :=
  let shown := t.instant + t.offset * nanosPerSecond
  let day := shown.fdiv nanosPerDay
  (⟨day + epochDay⟩, (shown - day * nanosPerDay).toNat)

/-- `hh:mm:ss` from nanoseconds since midnight. -/
def dayTimeText (nanos : Nat) : String :=
  let seconds := nanos / 1000000000
  let two := Text.zeroPad 2
  s!"{two (seconds / 3600)}:{two (seconds / 60 % 60)}:{two (seconds % 60)}"

/-- Hours, minutes and seconds on the clock. -/
def clockText (t : Time) : String := dayTimeText t.clock.2

/-- The part of a second: nothing, or three, six or nine digits, the fewest that are exact. -/
def fractionText (nanos : Nat) : String :=
  let n := nanos % 1000000000
  if n = 0 then ""
  else if n % 1000000 = 0 then "." ++ Text.zeroPad 3 (n / 1000000)
  else if n % 1000 = 0 then "." ++ Text.zeroPad 6 (n / 1000)
  else "." ++ Text.zeroPad 9 n

/-- `Z`, or sign, hours and minutes of the offset, rounded to whole minutes, a half up. -/
def zoneText (offset : Int) : String :=
  if offset = 0 then "Z"
  else
    let minutes := (offset.natAbs + 30) / 60
    (if offset < 0 then "-" else "+") ++
      s!"{Text.zeroPad 2 (minutes / 60)}:{Text.zeroPad 2 (minutes % 60)}"

/-- Date, time of day and offset, in the form of RFC 3339. -/
def text (t : Time) : String :=
  let (date, nanos) := t.clock
  s!"{date.text}T{dayTimeText nanos}{fractionText nanos}{zoneText t.offset}"

end Time

end Sundial
