import Mathlib.Data.Rat.Cast.Order
import Mathlib.Tactic.Linarith
import Sundial.Calendar.Time

/-!
# Midpoints

Half of an odd span has no nanosecond of its own, and a midpoint is rounded. Whichever way spans are
halved, as long as halves are next to the exact ones and in the same order, the midpoint of two
times in range is found without a step that overflows, and it lies where a midpoint should. Times
halve spans downwards: `midpoint_halfway`.
-/

set_option autoImplicit false

namespace Sundial.Time

/-- A way to halve spans of nanoseconds: the half is the exact one or next to it, and a longer span
does not have a shorter half. -/
structure Halving where
  half : Int → Int
  adjacent : ∀ span, |2 * half span - span| ≤ 1
  monotone : ∀ {span longer}, span ≤ longer → half span ≤ half longer

/-- Half of an odd span is the nanosecond below. -/
def Halving.down : Halving where
  half span := span / 2
  adjacent span := abs_le.2 (by omega)
  monotone h := Int.ediv_le_ediv (by decide) h

/-- The time halfway between two, for a way to halve the span between them. -/
def midpointBy (halving : Halving) (a b : Time) : Time :=
  ⟨a.instant + halving.half (b.instant - a.instant), a.offset⟩

theorem midpoint_eq_midpointBy (a b : Time) : a.midpoint b = midpointBy .down a b := rfl

/-- The instant of the time lies in the years that dates may have. -/
def Representable (t : Time) : Prop := inRange t.instant = true

instance (t : Time) : Decidable t.Representable := inferInstanceAs (Decidable (_ = _))

/-! ## Checked steps -/

/-- The longest span between two times: as many milliseconds as fit in 63 bits, either way. -/
def longestSpan : Int := (2 ^ 63 - 1) * nanosPerMilli

/-- A span of nanoseconds, if it is not too long. -/
def span? (nanos : Int) : Option Int := if |nanos| ≤ longestSpan then some nanos else none

/-- The time moved by a span, if it stays in range. -/
def addNanos? (t : Time) (nanos : Int) : Option Time :=
  let moved : Time := ⟨t.instant + nanos, t.offset⟩
  if inRange moved.instant then some moved else none

/-- The midpoint with every step checked: the span between the times, its half, and the time that is
moved by it. -/
def checkedMidpoint? (halving : Halving) (a b : Time) : Option Time := do
  let span ← span? (b.instant - a.instant)
  let half ← span? (halving.half span)
  a.addNanos? half

variable (halving : Halving) {a b c : Time}

/-! ## Where the midpoint lies -/

/-- Twice the midpoint is the sum of both times, up to a nanosecond. -/
theorem two_mul_midpointBy (a b : Time) :
    a.instant + b.instant - 1 ≤ 2 * (midpointBy halving a b).instant ∧
      2 * (midpointBy halving a b).instant ≤ a.instant + b.instant + 1 := by
  have hhalf := abs_le.1 (halving.adjacent (b.instant - a.instant))
  have hmidpoint : (midpointBy halving a b).instant =
    a.instant + halving.half (b.instant - a.instant) := rfl
  omega

theorem le_midpointBy (a b : Time) :
    min a.instant b.instant ≤ (midpointBy halving a b).instant := by
  have htwice := two_mul_midpointBy halving a b
  omega

theorem midpointBy_le (a b : Time) :
    (midpointBy halving a b).instant ≤ max a.instant b.instant := by
  have htwice := two_mul_midpointBy halving a b
  omega

theorem midpointBy_mean (a b : Time) :
    |((midpointBy halving a b).instant : ℚ) - (a.instant + b.instant) / 2| ≤ 1 / 2 := by
  obtain ⟨hlower, hupper⟩ := two_mul_midpointBy halving a b
  have hlower' : (a.instant + b.instant - 1 : ℚ) ≤ 2 * (midpointBy halving a b).instant := by
    exact_mod_cast hlower
  have hupper' : (2 * (midpointBy halving a b).instant : ℚ) ≤ a.instant + b.instant + 1 := by
    exact_mod_cast hupper
  rw [abs_le]
  constructor <;> linarith

theorem midpointBy_swap (a b : Time) :
    |(midpointBy halving a b).instant - (midpointBy halving b a).instant| ≤ 1 := by
  have htwice := two_mul_midpointBy halving a b
  have hswapped := two_mul_midpointBy halving b a
  rw [abs_le]
  omega

theorem midpointBy_mono (a : Time) (h : b.instant ≤ c.instant) :
    (midpointBy halving a b).instant ≤ (midpointBy halving a c).instant :=
  Int.add_le_add_left (halving.monotone (Int.sub_le_sub_right h _)) _

/-! ## Times in range -/

/-- The range is short enough for the span between any two times in it. -/
theorem abs_sub_le_longestSpan (ha : a.Representable) (hb : b.Representable) :
    |b.instant - a.instant| ≤ longestSpan := by
  have hrange : (Date.greatest.dayNumber + 1 - epochDay) * nanosPerDay -
      (Date.least.dayNumber - epochDay) * nanosPerDay ≤ longestSpan := by decide
  simp only [Representable, inRange, Bool.and_eq_true, decide_eq_true_eq] at ha hb
  rw [abs_le]
  omega

theorem representable_of_between (ha : a.Representable) (hb : b.Representable)
    (hle : min a.instant b.instant ≤ c.instant) (hle' : c.instant ≤ max a.instant b.instant) :
    c.Representable := by
  simp only [Representable, inRange, Bool.and_eq_true, decide_eq_true_eq] at ha hb ⊢
  omega

theorem representable_midpointBy (ha : a.Representable) (hb : b.Representable) :
    (midpointBy halving a b).Representable :=
  representable_of_between ha hb (le_midpointBy halving a b) (midpointBy_le halving a b)

/-- No step overflows. -/
theorem checkedMidpoint?_eq (ha : a.Representable) (hb : b.Representable) :
    checkedMidpoint? halving a b = some (midpointBy halving a b) := by
  have hspan := abs_sub_le_longestSpan ha hb
  have hhalf : |halving.half (b.instant - a.instant)| ≤ longestSpan := by
    have hadjacent := abs_le.1 (halving.adjacent (b.instant - a.instant))
    rw [abs_le] at hspan ⊢
    omega
  have hrange : inRange (a.instant + halving.half (b.instant - a.instant)) = true :=
    representable_midpointBy halving ha hb
  simp [checkedMidpoint?, span?, addNanos?, hspan, hhalf, hrange, midpointBy]

/-- The midpoint of two times in range is found without overflow and is in range. It lies between
them, within half a nanosecond of their mean and within a nanosecond of the midpoint the other way
round, and a later second time does not make it earlier. -/
theorem midpoint_halfway (ha : a.Representable) (hb : b.Representable) :
    checkedMidpoint? .down a b = some (a.midpoint b) ∧ (a.midpoint b).Representable ∧
      min a.instant b.instant ≤ (a.midpoint b).instant ∧
      (a.midpoint b).instant ≤ max a.instant b.instant ∧
      |((a.midpoint b).instant : ℚ) - (a.instant + b.instant) / 2| ≤ 1 / 2 ∧
      |(a.midpoint b).instant - (b.midpoint a).instant| ≤ 1 ∧
      ∀ c : Time, c.Representable → b.instant ≤ c.instant →
        (a.midpoint b).instant ≤ (a.midpoint c).instant :=
  ⟨checkedMidpoint?_eq .down ha hb, representable_midpointBy .down ha hb, le_midpointBy .down a b,
    midpointBy_le .down a b, midpointBy_mean .down a b, midpointBy_swap .down a b,
    fun _ _ h => midpointBy_mono .down a h⟩

/-- The first and the last nanosecond of the range, an odd span apart. -/
def earliest : Time := ⟨(Date.least.dayNumber - epochDay) * nanosPerDay, 0⟩
def latest : Time := ⟨(Date.greatest.dayNumber + 1 - epochDay) * nanosPerDay - 1, 7200⟩

theorem midpoint_halfway_extremes : latest.Representable ∧ earliest.Representable ∧
    (earliest.instant - latest.instant) % 2 = 1 ∧
    checkedMidpoint? .down latest earliest = some (latest.midpoint earliest) ∧
    (latest.midpoint earliest).Representable ∧
    earliest.instant ≤ (latest.midpoint earliest).instant ∧
    (latest.midpoint earliest).instant ≤ latest.instant ∧
    |((latest.midpoint earliest).instant : ℚ) - (latest.instant + earliest.instant) / 2| ≤ 1 / 2 ∧
    |(latest.midpoint earliest).instant - (earliest.midpoint latest).instant| ≤ 1 ∧
    ∀ c : Time, c.Representable → earliest.instant ≤ c.instant →
      (latest.midpoint earliest).instant ≤ (latest.midpoint c).instant := by
  have hlatest : latest.Representable := by decide
  have hearliest : earliest.Representable := by decide
  obtain ⟨hsteps, hrange, hlower, hupper, hmean, hswap, hmono⟩ :=
    midpoint_halfway hlatest hearliest
  exact ⟨hlatest, hearliest, by decide, hsteps, hrange, hlower, hupper, hmean, hswap, hmono⟩

end Sundial.Time
