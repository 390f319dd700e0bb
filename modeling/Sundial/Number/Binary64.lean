/-!
# Binary64 numbers, taken apart and put together

`Binary64.ofFloat` reads a number's bits as `±mantissa · 2 ^ exponent`. The other direction,
`nearest`, rounds an exact quotient of whole numbers to the nearest binary64 number, a half to the
even mantissa. Both sides work in whole numbers only, so that text forms and readers built on them
are exact.
-/

set_option autoImplicit false

namespace Sundial

/-- A binary64 number; a finite one stands for `±mantissa · 2 ^ exponent`. -/
inductive Binary64 where
  | finite (negative : Bool) (mantissa : Nat) (exponent : Int)
  | infinite (negative : Bool)
  | nan
  deriving DecidableEq, Repr

namespace Binary64

/-- The exponent of the smallest positive number. -/
def leastExponent : Int := -1074

def ofBits (bits : Nat) : Binary64 :=
  let negative : Bool := bits / Nat.pow 2 63 % 2 = 1
  let field : Nat := bits / Nat.pow 2 52 % Nat.pow 2 11
  let fraction : Nat := bits % Nat.pow 2 52
  if field = 2047 then
    if fraction = 0 then infinite negative else nan
  else if field = 0 then finite negative fraction leastExponent
  else finite negative (Nat.pow 2 52 + fraction) ((field : Int) + (leastExponent - 1))

def ofFloat (x : Float) : Binary64 := ofBits x.toBits.toNat

/-- `num / den` rounded to a whole number, a half to the even neighbour. -/
def roundHalfEven (num den : Nat) : Nat :=
  let q := num / den
  let r := num % den
  if 2 * r < den then q else if den < 2 * r then q + 1 else q + q % 2

theorem roundHalfEven_of_dvd {den k : Nat} (h : 0 < den) : roundHalfEven (k * den) den = k := by
  simp [roundHalfEven, Nat.mul_div_cancel k h, h]

/-- Numerator and denominator of `num / den / 2 ^ e`. -/
def scaled (num den : Nat) (e : Int) : Nat × Nat :=
  if 0 ≤ e then (num, den * Nat.pow 2 e.toNat) else (num * Nat.pow 2 (-e).toNat, den)

/-- The exponent of the last mantissa bit of `num / den`: the mantissa has 53 bits, or fewer if
the exponent cannot be smaller. -/
def unitExponent (num den : Nat) : Int :=
  let top : Int := (Nat.log2 num : Int) - Nat.log2 den
  let (n, d) := scaled num den top
  max leastExponent ((if n < d then top - 1 else top) - 52)

/-- The bits of positive infinity. -/
def infinityBits : Nat := 2047 * Nat.pow 2 52

/-- The bits of the binary64 number nearest to `num / den`. Exponent field and fraction are one
sum, so a mantissa that rounds up to `2 ^ 53` carries into the exponent, and one below `2 ^ 52`
leaves the field at zero. -/
def nearestBits (num den : Nat) : Nat :=
  if num = 0 then 0 else
    let e := unitExponent num den
    let (n, d) := scaled num den e
    min infinityBits ((e - leastExponent).toNat * Nat.pow 2 52 + roundHalfEven n d)

/-- The binary64 number nearest to `±num / den`. -/
def nearest (negative : Bool) (num den : Nat) : Float :=
  Float.ofBits (UInt64.ofNat (nearestBits num den + if negative then Nat.pow 2 63 else 0))

/-- The number is finite and has no fractional part. -/
def isWhole : Binary64 → Bool
  | finite _ m e => 0 ≤ e || m % Nat.pow 2 (-e).toNat = 0
  | _ => false

/-- The remainder of division by a positive whole number, with the sign of the dividend. It is
exact: the remainder of a binary64 number is one. -/
def remainder (x : Float) (n : Nat) : Float :=
  match ofFloat x with
  | finite negative m e =>
    if 0 ≤ e then nearest negative (m * Nat.pow 2 e.toNat % n) 1
    else nearest negative (m % (n * Nat.pow 2 (-e).toNat)) (Nat.pow 2 (-e).toNat)
  | _ => 0.0 / 0.0

/-- The remainder brought into `[0, n)`. -/
def residue (x : Float) (n : Nat) : Float :=
  let r := remainder x n
  if r < 0.0 then r + Float.ofNat n else r

end Binary64

end Sundial
