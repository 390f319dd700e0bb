import Sundial.Number.Reader
import Sundial.Number.Text
import Sundial.Text.Blank

/-!
# Durations

A duration is written `Nmin`, `Nhr`, `Nh` or `Nh Mmin`, where `N` may have decimal places and `M`
is whole; a minus sign may stand in front. Its value is a number of minutes. `minutesText` writes
minutes in the same forms, rounded to hundredths.
-/

set_option autoImplicit false

namespace Sundial.Duration

/-- A number in digits and points at the front, and the text behind it. -/
def splitNumber? (cs : List Char) : Option (Float × List Char) :=
  let isPart (c : Char) : Bool := c.isDigit || c = '.'
  (Number.readDecimal? (cs.takeWhile isPart)).map fun d => (d.toFloat false, cs.dropWhile isPart)

/-- Whole minutes after an hour mark: at least one blank, a whole number, `min`. -/
def readMinutesPart? : List Char → Option Float
  | [] => none
  | c :: cs =>
    if Text.isBlank c then
      match splitNumber? (cs.dropWhile Text.isBlank) with
      | some (minutes, tail) =>
        if tail = "min".toList ∧ (Binary64.ofFloat minutes).isWhole then some minutes else none
      | none => none
    else none

/-- A duration without a sign and without blanks around it. -/
def readUnsigned? (cs : List Char) : Option Float :=
  match splitNumber? cs with
  | none => none
  | some (value, suffix) =>
    if suffix = "min".toList then some value
    else if suffix = "hr".toList ∨ suffix = "h".toList then some (value * 60.0)
    else match suffix with
      | 'h' :: rest => (readMinutesPart? rest).map fun minutes => value * 60.0 + minutes
      | _ => none

/-- Takes minus signs and blanks off the front. Each sign flips `negative`; a sign that directly
follows another is refused. -/
def dropSigns? (negative : Bool) : List Char → Option (Bool × List Char)
  | [] => some (negative, [])
  | c :: cs =>
    if Text.isBlank c then dropSigns? negative cs
    else if c = '-' then
      if cs.head? = some '-' then none else dropSigns? (!negative) cs
    else some (negative, c :: cs)

/-- The minutes that a text writes, blanks around it aside. -/
def read? (s : String) : Option Float :=
  match dropSigns? false (Text.trimEnd s).toList with
  | none => none
  | some (negative, cs) =>
    (readUnsigned? cs).map fun minutes => if negative then -minutes else minutes

/-- Minutes to the hundredth, as `Hh`, `Hh Mmin` or `Mmin`. -/
def minutesText (minutes : Float) : String :=
  let sign := if minutes < 0.0 then "-" else ""
  let total := (minutes.abs * 100.0).round / 100.0
  let hours := (total / 60.0).floor
  let rest := ((total - hours * 60.0) * 100.0).round / 100.0
  if hours > 0.0 then
    if rest > 0.0 then s!"{sign}{plainText hours}h {plainText rest}min"
    else s!"{sign}{plainText hours}h"
  else s!"{sign}{plainText rest}min"

end Sundial.Duration
