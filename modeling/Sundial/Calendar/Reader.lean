import Sundial.Calendar.Date
import Sundial.Number.Reader
import Sundial.Text.Blank

/-!
# Reading dates and UTC offsets

A date is written `YYYY-MM-DD`. The year may have a sign and then any number of digits; without a
sign it has at most four. Month and day have one or two digits, and blanks may stand before any of
the three numbers. A UTC offset is a number of whole hours, `UTC`, `Z`, or a sign with two digits of
hours and two of minutes, which colons and blanks may divide; what follows is not looked at.
-/

set_option autoImplicit false

namespace Sundial

/-- Why a date or an offset cannot be read. -/
inductive ReadFault where
  | outOfRange
  | invalid
  | tooShort
  | trailing
  deriving DecidableEq, Repr

def ReadFault.message : ReadFault → String
  | outOfRange => "input is out of range"
  | invalid => "input contains invalid characters"
  | tooShort => "premature end of input"
  | trailing => "trailing input"

/-- The number fits in 32 bits with a sign. -/
def isShort (n : Int) : Bool := -2147483648 ≤ n && n < 2147483648

namespace DateReader

/-- Numbers up to this one are held exactly while they are read. -/
def greatestNumber : Nat := 9223372036854775807

/-- Reads at least one digit and at most `most` of them, all there are if `most` is none. -/
def number (most : Option Nat) (cs : List Char) : Except ReadFault (Nat × List Char) :=
  let digits := (most.elim cs cs.take).takeWhile Char.isDigit
  if cs = [] then .error .tooShort
  else if digits = [] then .error .invalid
  else if greatestNumber < Number.digitsValue digits then .error .outOfRange
  else .ok (Number.digitsValue digits, cs.drop digits.length)

/-- Blanks, then a number of at most two digits between `low` and `high`. -/
def field (low high : Nat) (cs : List Char) : Except ReadFault (Nat × List Char) := do
  let (n, rest) ← number (some 2) (cs.dropWhile Text.isBlank)
  if low ≤ n ∧ n ≤ high then .ok (n, rest) else .error .outOfRange

/-- Blanks, then a year. -/
def year (cs : List Char) : Except ReadFault (Int × List Char) := do
  let (y, rest) ← match cs.dropWhile Text.isBlank with
    | '-' :: r => (number none r).map fun (n, rest) => (-(n : Int), rest)
    | '+' :: r => (number none r).map fun (n, rest) => ((n : Int), rest)
    | r => (number (some 4) r).map fun (n, rest) => ((n : Int), rest)
  if isShort y then .ok (y, rest) else .error .outOfRange

/-- The hyphen between two numbers. -/
def hyphen : List Char → Except ReadFault (List Char)
  | [] => .error .tooShort
  | c :: rest => if c = '-' then .ok rest else .error .invalid

/-- A date that takes up the whole text. What stands behind each number passes through `behind`
first, which may take blanks away. -/
def dateWith (behind : List Char → List Char) (cs : List Char) : Except ReadFault Date := do
  let (y, rest) ← year cs
  let (m, rest) ← field 1 12 (← hyphen (behind rest))
  let (d, rest) ← field 1 31 (← hyphen (behind rest))
  if behind rest ≠ [] then .error .trailing
  else match Date.ofNumbers? y m d with
    | some date => .ok date
    | none => .error .outOfRange

/-- A date with no blanks behind its numbers. -/
def date (cs : List Char) : Except ReadFault Date := dateWith id cs

/-- A date that may have blanks on both sides of each number. -/
def spacedDate (cs : List Char) : Except ReadFault Date := dateWith (·.dropWhile Text.isBlank) cs

end DateReader

/-- Reads a date; the message of a failure quotes the text as it was given. -/
def Date.read (s : String) : Except String Date :=
  match DateReader.date (Text.trim s).toList with
  | .ok d => .ok d
  | .error e => .error s!"invalid date '{s}': {e.message} (expected YYYY-MM-DD)"

namespace OffsetReader

/-- The first two bytes of a text, as far as they tell digits from other characters: a character
outside of ASCII fills both. -/
def pair : List Char → Option (Char × Char × List Char)
  | [] => none
  | [c] => if c.toNat < 128 then none else some (c, c, [])
  | c :: d :: rest => some (c, d, rest)

def isSeparator (c : Char) : Bool := c = ':' || Text.isBlank c

/-- Two digits of hours. -/
def hours (cs : List Char) : Except ReadFault (Int × List Char) :=
  match pair cs with
  | none => .error .tooShort
  | some (a, b, rest) =>
    if a.isDigit ∧ b.isDigit then .ok (Number.digitsValue [a, b], rest) else .error .invalid

/-- Two digits of minutes, below sixty. -/
def minutes (cs : List Char) : Except ReadFault Int :=
  match pair cs with
  | none => .error .tooShort
  | some (a, b, _) =>
    if a.isDigit ∧ b.isDigit then
      if '5' < a then .error .outOfRange else .ok (Number.digitsValue [a, b])
    else .error .invalid

/-- A sign, hours and minutes, in seconds east of UTC. -/
def signed (cs : List Char) : Except ReadFault Int := do
  let (negative, rest) ← match cs with
    | [] => .error .tooShort
    | c :: rest =>
      if c = '+' then .ok (false, rest)
      else if c = '-' ∨ c = '\u2212' then .ok (true, rest)
      else .error .invalid
  let (h, rest) ← hours rest
  let m ← minutes (rest.dropWhile isSeparator)
  let seconds := h * 3600 + m * 60
  .ok (if negative then -seconds else seconds)

end OffsetReader

/-- Offsets stay below a day in either direction. -/
def offsetInRange (seconds : Int) : Bool :=
  -86400 < seconds && seconds < 86400

/-- The sign, hours and minutes of a UTC offset, and its seconds if there are any. -/
def offsetText (offset : Int) : String :=
  let sign := if offset < 0 then "-" else "+"
  let n := offset.natAbs
  let clock := s!"{sign}{Text.zeroPad 2 (n / 3600)}:{Text.zeroPad 2 (n / 60 % 60)}"
  if n % 60 = 0 then clock else s!"{clock}:{Text.zeroPad 2 (n % 60)}"

/-- A whole number of hours that fits in 32 bits. -/
def readHours? (s : String) : Option Int :=
  match Number.readInt? s with
  | some n => if isShort n then some n else none
  | none => none

/-- Reads a UTC offset in seconds east of UTC. -/
def readOffset (s : String) : Except String Int :=
  let t := Text.trim s
  if t = "Z" ∨ t.toList.map Char.toLower = "utc".toList then .ok 0
  else match readHours? t with
    | some hours =>
      if offsetInRange (hours * 3600) then .ok (hours * 3600)
      else .error s!"UTC offset out of range: {s}"
    | none =>
      let reason (e : ReadFault) := s!"invalid UTC offset '{s}': {e.message} (expected e.g. +02:00)"
      match OffsetReader.signed t.toList with
      | .ok seconds =>
        if offsetInRange seconds then .ok seconds else .error (reason .outOfRange)
      | .error e => .error (reason e)

end Sundial
