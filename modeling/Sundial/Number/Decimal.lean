import Sundial.Number.Binary64

/-!
# Decimal numbers and the shortest decimal of a binary64 number

A decimal is `digits · 10 ^ exponent`. `Decimal.toFloat` rounds it to the nearest binary64 number.
`shortest` goes the other way: of all decimals that read back to the number it takes one with the
fewest digits, and of those the nearest.
-/

set_option autoImplicit false

namespace Sundial

/-- The number `digits · 10 ^ exponent`. -/
structure Decimal where
  digits : Nat
  exponent : Int
  deriving DecidableEq, Repr

/-- Which of two equally near neighbours is taken. -/
inductive Tie where
  | up
  | even
  deriving DecidableEq, Repr

namespace Decimal

/-- Numerator and denominator. -/
def fraction (d : Decimal) : Nat × Nat :=
  if 0 ≤ d.exponent then (d.digits * Nat.pow 10 d.exponent.toNat, 1)
  else (d.digits, Nat.pow 10 (-d.exponent).toNat)

/-- Above this exponent every nonzero decimal is beyond the largest finite number. -/
def greatestExponent : Int := 310

/-- A decimal below `10 ^ leastMagnitude` is nearer to zero than to the least positive number. -/
def leastMagnitude : Int := -330

/-- The bits of the nearest binary64 number. The first three cases keep exponents of any size from
being written out. -/
def bits (d : Decimal) : Nat :=
  if d.digits = 0 then 0
  else if greatestExponent < d.exponent then Binary64.infinityBits
  else if d.exponent + (Nat.log2 d.digits + 1) < leastMagnitude then 0
  else Binary64.nearestBits d.fraction.1 d.fraction.2

def toFloat (negative : Bool) (d : Decimal) : Float :=
  Float.ofBits (UInt64.ofNat (d.bits + if negative then Nat.pow 2 63 else 0))

/-- The exact decimal of `m · 2 ^ e`. -/
def exact (m : Nat) (e : Int) : Decimal :=
  if 0 ≤ e then ⟨m * Nat.pow 2 e.toNat, 0⟩ else ⟨m * Nat.pow 5 (-e).toNat, e⟩

/-- The number of digits before the point of `m · 2 ^ e`, or minus the number of zeros after the
point, give or take one. -/
def magnitude (m : Nat) (e : Int) : Int :=
  ((Nat.log2 m + e) * 30103).fdiv 100000 + 1

/-- The neighbour of `num / den` on the grid of multiples of `10 ^ exponent` that reads back to
`bits`; of two, the nearer one. -/
def onGrid (tie : Tie) (num den bits : Nat) (exponent : Int) : Option Decimal :=
  let (n, d) := if 0 ≤ exponent then (num, den * Nat.pow 10 exponent.toNat)
    else (num * Nat.pow 10 (-exponent).toNat, den)
  let lower : Decimal := ⟨n / d, exponent⟩
  let upper : Decimal := ⟨n / d + 1, exponent⟩
  let r := n % d
  let preferUpper : Bool := d < 2 * r || (d = 2 * r && (tie = .up || n / d % 2 = 1))
  if lower.bits = bits then
    if preferUpper ∧ upper.bits = bits then some upper else some lower
  else if upper.bits = bits then some upper
  else none

/-- The first grid, from coarse to fine, that has a neighbour which reads back. -/
def firstGrid (tie : Tie) (num den bits : Nat) (magnitude : Int) : Nat → Nat → Option Decimal
  | 0, _ => none
  | left + 1, count =>
    match onGrid tie num den bits (magnitude - count) with
    | some d => some d
    | none => firstGrid tie num den bits magnitude left (count + 1)

/-- Takes zeros off the end of the digits, at most `fuel` of them. -/
def dropZeros : Nat → Decimal → Decimal
  | 0, d => d
  | fuel + 1, d =>
    if d.digits ≠ 0 ∧ d.digits % 10 = 0 then dropZeros fuel ⟨d.digits / 10, d.exponent + 1⟩ else d

/-- The shortest decimal that reads back to `m · 2 ^ e`. Eighteen grids, from one digit to
seventeen with one to spare, always hold one; the exact decimal closes the definition. -/
def shortest (tie : Tie) (m : Nat) (e : Int) : Decimal :=
  let num := m * Nat.pow 2 e.toNat
  let den := Nat.pow 2 (-e).toNat
  match firstGrid tie num den (Binary64.nearestBits num den) (magnitude m e) 19 0 with
  | some d => dropZeros 20 d
  | none => exact m e

end Decimal

end Sundial
