/-!
# Padding

Widths count characters. A text that is longer than the width stays as it is.
-/

set_option autoImplicit false

namespace Sundial.Text

/-- `n` copies of a blank. -/
def spaces (n : Nat) : String :=
  String.ofList (List.replicate n ' ')

/-- Fills up on the right. -/
def padRight (width : Nat) (s : String) : String :=
  s ++ spaces (width - s.length)

/-- Fills up on the left. -/
def padLeft (width : Nat) (s : String) : String :=
  spaces (width - s.length) ++ s

/-- A number with zeros in front, up to `width` digits. -/
def zeroPad (width n : Nat) : String :=
  let ds := Nat.repr n
  String.ofList (List.replicate (width - ds.length) '0') ++ ds

end Sundial.Text
