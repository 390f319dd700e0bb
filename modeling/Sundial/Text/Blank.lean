/-!
# Blank characters

`isBlank` holds of the characters with the Unicode property White_Space. `trim` and its two
halves take blanks off the ends of a text, and `cutBlank` divides a text at its first blank.
-/

set_option autoImplicit false

namespace Sundial.Text

/-- The code points with the property White_Space, as closed ranges. -/
def blankRanges : List (Nat × Nat) :=
  [(0x09, 0x0D), (0x20, 0x20), (0x85, 0x85), (0xA0, 0xA0), (0x1680, 0x1680), (0x2000, 0x200A),
   (0x2028, 0x2029), (0x202F, 0x202F), (0x205F, 0x205F), (0x3000, 0x3000)]

def isBlank (c : Char) : Bool :=
  blankRanges.any fun r => r.1 ≤ c.toNat && c.toNat ≤ r.2

def trimStart (s : String) : String :=
  String.ofList (s.toList.dropWhile isBlank)

def trimEnd (s : String) : String :=
  String.ofList (s.toList.reverse.dropWhile isBlank).reverse

def trim (s : String) : String :=
  trimEnd (trimStart s)

/-- The text before the first blank and the text after it; without a blank, all and nothing. -/
def cutBlank (s : String) : String × String :=
  let head := s.toList.takeWhile fun c => !isBlank c
  (String.ofList head, String.ofList (s.toList.drop (head.length + 1)))

end Sundial.Text
