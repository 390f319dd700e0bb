import Sundial.Json.Fault
import Sundial.Json.Writer

/-!
# Literals of JSON documents

Strings and numbers. A string's escapes are read as UTF-16 units, so a character outside of the
basic plane is a pair of escapes. A number is whole as long as its digits fit in 64 bits. Beyond
that, or with a point or an exponent, it is a binary64 number: the digits that fit, scaled by one
correctly rounded power of ten.
-/

set_option autoImplicit false

namespace Sundial

namespace JsonLiteral

/-! ## Strings -/

def hexValue? (c : Char) : Option Nat :=
  if c.isDigit then some (c.toNat - '0'.toNat)
  else if 'a' ≤ c ∧ c ≤ 'f' then some (c.toNat - 'a'.toNat + 10)
  else if 'A' ≤ c ∧ c ≤ 'F' then some (c.toNat - 'A'.toNat + 10)
  else none

/-- The unit that the next four bytes write in hexadecimal. -/
def unit (c : Cursor) : Except JsonError Nat :=
  let four := c.rest.take 4
  let size := (String.ofList four).utf8ByteSize
  if size < 4 then .error ⟨.unendedString, c.offset + size⟩
  else match four.mapM hexValue? with
    | some digits => .ok (digits.foldl (fun n d => n * 16 + d) 0)
    | none => .error ⟨.badEscape, c.offset + 4⟩

def isLeading (n : Nat) : Bool := 0xD800 ≤ n && n ≤ 0xDBFF
def isTrailing (n : Nat) : Bool := 0xDC00 ≤ n && n ≤ 0xDFFF

/-- The character of a surrogate pair. -/
def ofPair (leading trailing : Nat) : Char :=
  .ofNat ((leading - 0xD800) * 0x400 + (trailing - 0xDC00) + 0x10000)

/-- The second half of a surrogate pair, with the escape's own first characters. -/
def trailingUnit (c : Cursor) : Except JsonError Nat :=
  match c.rest with
  | [] => c.passed .unendedString
  | a :: rest =>
    if a ≠ '\\' then c.peeked .unendedPair
    else match rest with
      | [] => c.next.passed .unendedString
      | b :: _ =>
        if b ≠ 'u' then c.next.peeked .unendedPair
        else do
          let n ← unit (c.skip 2)
          if isTrailing n then .ok n else (c.skip 6).passed .loneSurrogate

/-- The characters that stand for others after a backslash. -/
def simpleEscapes : List (Char × Char) :=
  [('"', '"'), ('\\', '\\'), ('/', '/'), ('b', '\x08'), ('f', '\x0c'), ('n', '\n'), ('r', '\r'),
    ('t', '\t')]

/-- The character that an escape writes, and the number of characters after the backslash. -/
def escape (c : Cursor) : Except JsonError (Char × Nat) :=
  match c.rest with
  | [] => c.passed .unendedString
  | a :: _ =>
    if a = 'u' then do
      let n ← unit c.next
      if isTrailing n then (c.skip 5).passed .loneSurrogate
      else if isLeading n then .ok (ofPair n (← trailingUnit (c.skip 5)), 11)
      else .ok (.ofNat n, 5)
    else match simpleEscapes.lookup a with
      | some d => .ok (d, 1)
      | none => c.peeked .badEscape

/-- A string from behind its opening quote to behind its closing one. -/
def stringBody (cs : List Char) (offset : Nat) : Except JsonError (List Char × Cursor) :=
  match cs with
  | [] => .error ⟨.unendedString, offset⟩
  | c :: cs =>
    if c = '"' then .ok ([], ⟨cs, offset + 1⟩)
    else if c = '\\' then
      match escape ⟨cs, offset + 1⟩ with
      | .error e => .error e
      | .ok (d, n) =>
        (stringBody (cs.drop n) (offset + 1 + n)).map fun (ds, rest) => (d :: ds, rest)
    else if c.toNat < 32 then .error ⟨.controlCharacter, offset + 1⟩
    else (stringBody cs (offset + c.utf8Size)).map fun (ds, rest) => (c :: ds, rest)
termination_by cs.length
decreasing_by all_goals simp [List.length_drop]; try omega

/-- A string from its opening quote on. -/
def string (c : Cursor) : Except JsonError (String × Cursor) :=
  (stringBody c.next.rest c.next.offset).map fun (ds, rest) => (String.ofList ds, rest)

/-! ## Numbers -/

/-- A number as it is told by kind. -/
inductive Numeral where
  | whole (n : Int)
  | fractional (x : Float)

def Numeral.text : Numeral → String
  | whole n => s!"integer \x60{n}\x60"
  | fractional x => s!"floating point \x60{jsonNumber x}\x60"

/-- Digits are kept as long as their number stays below this one. -/
def significandLimit : Nat := Nat.pow 2 64

def exponentLimit : Nat := Nat.pow 2 31

/-- Appends digits to a number as long as it stays below the limit; how many, and the number. -/
def keepDigits (limit : Nat) (n : Nat) : List Char → Nat × Nat
  | [] => (0, n)
  | c :: cs =>
    let m := n * 10 + (c.toNat - '0'.toNat)
    if c.isDigit && m < limit then
      let (count, kept) := keepDigits limit m cs
      (count + 1, kept)
    else (0, n)

def digitCount (cs : List Char) : Nat := (cs.takeWhile Char.isDigit).length

def startsWithDigit (cs : List Char) : Bool := (cs.head?.map Char.isDigit).getD false

def powerOfTen (n : Nat) : Float := Decimal.toFloat false ⟨1, n⟩

def greatestPower : Nat := 308

/-- Divides by a power of ten, in steps that are binary64 numbers. -/
def scaleDown (x : Float) (n : Nat) : Float :=
  if n ≤ greatestPower then x / powerOfTen n
  else if x == 0.0 then x
  else scaleDown (x / powerOfTen greatestPower) (n - greatestPower)
termination_by n
decreasing_by simp only [greatestPower] at *; omega

/-- The significand times a power of ten, unless that is too large. -/
def scaled? (significand : Nat) (exponent : Int) : Option Float :=
  let x := Float.ofNat significand
  if exponent < 0 then some (scaleDown x exponent.natAbs)
  else if exponent.toNat ≤ greatestPower then
    let y := x * powerOfTen exponent.toNat
    if y.isInf then none else some y
  else if significand = 0 then some x
  else none

/-- A number as far as it is read: its sign, the digits that fit and the power of ten they need. -/
structure Significand where
  negative : Bool
  digits : Nat
  exponent : Int

def signed (negative : Bool) (x : Float) : Float := if negative then -x else x

/-- The number, with the cursor behind its text. -/
def finish (s : Significand) (c : Cursor) : Except JsonError (Numeral × Cursor) :=
  match scaled? s.digits s.exponent with
  | some x => .ok (.fractional (signed s.negative x), c)
  | none => c.passed .numberOutOfRange

/-- An exponent, from behind its letter. -/
def exponent (s : Significand) (c : Cursor) : Except JsonError (Numeral × Cursor) :=
  let sign := c.rest.head?
  let c := if sign = some '+' ∨ sign = some '-' then c.next else c
  let downward := sign = some '-'
  if c.rest.isEmpty then c.passed .unendedValue
  else if !startsWithDigit c.rest then c.peeked .badNumber
  else
    let (count, n) := keepDigits exponentLimit 0 c.rest
    let behind := c.skip count
    if startsWithDigit behind.rest then
      if s.digits ≠ 0 ∧ ¬downward then (behind.skip 1).passed .numberOutOfRange
      else .ok (.fractional (signed s.negative 0.0), behind.skip (digitCount behind.rest))
    else finish { s with exponent := if downward then s.exponent - n else s.exponent + n } behind

/-- What may follow the digits: an exponent or nothing. -/
def afterDigits (s : Significand) (c : Cursor) : Except JsonError (Numeral × Cursor) :=
  match c.rest with
  | 'e' :: _ | 'E' :: _ => exponent s c.next
  | _ => finish s c

/-- The digits behind a point. -/
def places (s : Significand) (c : Cursor) : Except JsonError (Numeral × Cursor) :=
  let (count, n) := keepDigits significandLimit s.digits c.rest
  let behind := c.skip count
  if count = 0 ∧ ¬startsWithDigit behind.rest then
    behind.peeked (if behind.rest.isEmpty then .unendedValue else .badNumber)
  else
    afterDigits { s with digits := n, exponent := s.exponent - count }
      (behind.skip (digitCount behind.rest))

/-- What may follow the whole digits. -/
def afterWhole (s : Significand) (isLong : Bool) (c : Cursor) :
    Except JsonError (Numeral × Cursor) :=
  match c.rest with
  | '.' :: _ => places s c.next
  | 'e' :: _ | 'E' :: _ => exponent s c.next
  | _ =>
    if isLong then finish s c
    else if ¬s.negative then .ok (.whole s.digits, c)
    else if 1 ≤ s.digits ∧ s.digits ≤ Nat.pow 2 63 then .ok (.whole (-s.digits), c)
    else .ok (.fractional (-(Float.ofNat s.digits)), c)

/-- A number from behind its sign. A zero in front stands alone. -/
def number (negative : Bool) (c : Cursor) : Except JsonError (Numeral × Cursor) :=
  if c.rest.isEmpty then c.passed .unendedValue
  else if !startsWithDigit c.rest then c.peeked .badNumber
  else if c.rest.head? = some '0' then
    if startsWithDigit c.next.rest then c.next.peeked .badNumber
    else afterWhole ⟨negative, 0, 0⟩ false c.next
  else
    let (count, n) := keepDigits significandLimit 0 c.rest
    let behind := c.skip count
    let dropped := digitCount behind.rest
    afterWhole ⟨negative, n, dropped⟩ (dropped ≠ 0) (behind.skip dropped)

end JsonLiteral

end Sundial
