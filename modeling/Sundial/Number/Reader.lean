import Sundial.Number.Decimal

/-!
# Reading numbers

A number is an optional sign and then digits with at most one point and at least one digit, with an
optional exponent, or one of the words `inf`, `infinity` and `nan` in letters of any case. Nothing
else is a number: no blanks, no separators, no empty text. The value is the nearest binary64 number.
-/

set_option autoImplicit false

namespace Sundial.Number

/-- The value of a run of digits. -/
def digitsValue (ds : List Char) : Nat :=
  ds.foldl (fun n c => n * 10 + (c.toNat - '0'.toNat)) 0

/-- An exponent: an optional sign and at least one digit, to the end of the text. -/
def readExponent? (cs : List Char) : Option Int :=
  let (negative, ds) : Bool × List Char := match cs with
    | '-' :: r => (true, r)
    | '+' :: r => (false, r)
    | r => (false, r)
  if ds ≠ [] ∧ ds.all Char.isDigit then
    some (if negative then -(digitsValue ds : Int) else digitsValue ds)
  else none

/-- The digits after a point, if there is one, and the text behind them. -/
def splitPlaces : List Char → List Char × List Char
  | '.' :: r => (r.takeWhile Char.isDigit, r.dropWhile Char.isDigit)
  | r => ([], r)

/-- An unsigned number in digits. -/
def readDecimal? (cs : List Char) : Option Decimal :=
  let whole := cs.takeWhile Char.isDigit
  let (places, rest) := splitPlaces (cs.dropWhile Char.isDigit)
  let scaled (e : Int) : Decimal := ⟨digitsValue (whole ++ places), e - places.length⟩
  if whole = [] ∧ places = [] then none
  else match rest with
    | [] => some (scaled 0)
    | c :: r => if c = 'e' ∨ c = 'E' then (readExponent? r).map scaled else none

/-- The words for numbers that digits cannot write. -/
def readWord? (cs : List Char) : Option Float :=
  let word := cs.map Char.toLower
  if word = "inf".toList ∨ word = "infinity".toList then some (1.0 / 0.0)
  else if word = "nan".toList then some (0.0 / 0.0)
  else none

def readUnsigned? (negative : Bool) (cs : List Char) : Option Float :=
  match readDecimal? cs with
  | some d => some (d.toFloat negative)
  | none => (readWord? cs).map fun x => if negative then -x else x

/-- The number that the whole text writes. -/
def read? (s : String) : Option Float :=
  match s.toList with
  | '-' :: r => readUnsigned? true r
  | '+' :: r => readUnsigned? false r
  | r => readUnsigned? false r

/-- A whole number: an optional sign and at least one digit. -/
def readInt? (s : String) : Option Int :=
  match s.toList with
  | [] => none
  | cs => readExponent? cs

end Sundial.Number
