/-!
# Edit distance

The least number of insertions, deletions and substitutions of one character that turn one text
into another, computed row by row: the row after some characters of the first text holds, for each
prefix of the second, the distance between the two.
-/

set_option autoImplicit false

namespace Sundial.Text

/-- The rest of a row, from the row above and the entry to the left. -/
def rowTail (c : Char) : List Char → List Nat → Nat → List Nat
  | d :: ds, diagonal :: above :: row, left =>
    let entry := min (diagonal + if c = d then 0 else 1) (min (above + 1) (left + 1))
    entry :: rowTail c ds (above :: row) entry
  | _, _, _ => []

/-- The row after one more character of the first text. -/
def nextRow (target : List Char) (row : List Nat) (c : Char) : List Nat :=
  let first := row.headD 0 + 1
  first :: rowTail c target row first

def distanceRow (source target : List Char) : List Nat :=
  source.foldl (nextRow target) (List.range (target.length + 1))

def editDistance (a b : String) : Nat :=
  (distanceRow a.toList b.toList).getLastD 0

end Sundial.Text
