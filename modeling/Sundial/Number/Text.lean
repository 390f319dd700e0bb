import Sundial.Number.Decimal

/-!
# Numbers as text

A `NumberStyle` says how the shortest decimal of a number is laid out: where positional notation
ends, whether a whole number keeps a point, and which of two equally near decimals is taken.
`fixed` writes a given number of places instead.
-/

set_option autoImplicit false

namespace Sundial

/-- A layout of decimals. `positional` holds the exponents of a first digit that are written
without an exponent; outside of it the exponent follows an `e`. -/
structure NumberStyle where
  positional : Option (Int × Int)
  wholePoint : Bool
  plusSign : Bool
  tie : Tie

namespace NumberStyle

/-- Numbers in formulas and messages: never an exponent, no point in a whole number. -/
def plain : NumberStyle := ⟨none, false, false, .up⟩

/-- Numbers in tree outlines: a point in every positional number, exponents from `10 ^ 16` up and
below `10 ^ -4`. -/
def outline : NumberStyle := ⟨some (-4, 15), true, false, .up⟩

/-- Numbers in JSON documents: exponents with a sign, from `10 ^ 16` up and below `10 ^ -5`. -/
def json : NumberStyle := ⟨some (-5, 15), true, true, .even⟩

end NumberStyle

def zeros (n : Nat) : List Char := List.replicate n '0'

/-- The decimal written with a point, or without one if it is whole. -/
def Decimal.positionalText (point : String) (d : Decimal) : String :=
  let ds := (Nat.repr d.digits).toList
  if 0 ≤ d.exponent then
    String.ofList (ds ++ zeros d.exponent.toNat) ++ point
  else
    let places := (-d.exponent).toNat
    let ds := zeros (places + 1 - ds.length) ++ ds
    String.ofList (ds.take (ds.length - places) ++ '.' :: ds.drop (ds.length - places))

/-- The decimal written with one digit before the point and an exponent. -/
def Decimal.exponentText (plusSign : Bool) (d : Decimal) : String :=
  let ds := (Nat.repr d.digits).toList
  let lead := d.exponent + (ds.length - 1 : Nat)
  let mantissa := match ds with
    | c :: rest@(_ :: _) => c :: '.' :: rest
    | ds => ds
  let sign := if 0 ≤ lead ∧ plusSign then "+" else ""
  String.ofList mantissa ++ "e" ++ sign ++ toString lead

/-- A positive decimal in the given style. -/
def Decimal.text (style : NumberStyle) (d : Decimal) : String :=
  let lead := d.exponent + ((Nat.repr d.digits).length - 1 : Nat)
  let point := if style.wholePoint then ".0" else ""
  match style.positional with
  | some (low, high) =>
    if low ≤ lead ∧ lead ≤ high then d.positionalText point else d.exponentText style.plusSign
  | none => d.positionalText point

def signText (negative : Bool) : String := if negative then "-" else ""

/-- A number in the given style; zero keeps its sign. -/
def numberText (style : NumberStyle) (x : Float) : String :=
  match Binary64.ofFloat x with
  | .nan => "NaN"
  | .infinite negative => signText negative ++ "inf"
  | .finite negative m e =>
    signText negative ++
      if m = 0 then (Decimal.mk 0 0).text style else (Decimal.shortest style.tie m e).text style

/-- A number as formulas and messages write it. -/
def plainText (x : Float) : String := numberText .plain x

/-- A number with `places` digits after the point, rounded from its exact value, a half to the
even neighbour. -/
def fixedText (places : Nat) (x : Float) : String :=
  match Binary64.ofFloat x with
  | .nan => "NaN"
  | .infinite negative => signText negative ++ "inf"
  | .finite negative m e =>
    let scaled := m * Nat.pow 2 e.toNat * Nat.pow 10 places
    let n := Binary64.roundHalfEven scaled (Nat.pow 2 (-e).toNat)
    signText negative ++ (Decimal.mk n (-(places : Int))).positionalText ""

end Sundial
