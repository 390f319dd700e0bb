/-!
# Searching a text

`occursIn` finds one text inside another, and `cutAt` divides a text at the first occurrence of a
character.
-/

set_option autoImplicit false

namespace Sundial.Text

/-- Some piece of the second text is the first text. -/
def hasPiece (part : List Char) : List Char → Bool
  | [] => part.isEmpty
  | c :: cs => part.isPrefixOf (c :: cs) || hasPiece part cs

def occursIn (part s : String) : Bool := hasPiece part.toList s.toList

/-- The texts before and after the first `mark`, if there is one. -/
def cutAt (mark : Char) (s : String) : Option (String × String) :=
  match s.toList.dropWhile (· ≠ mark) with
  | [] => none
  | _ :: rest => some (String.ofList (s.toList.takeWhile (· ≠ mark)), String.ofList rest)

end Sundial.Text
