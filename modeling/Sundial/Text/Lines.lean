/-!
# Lines of a text

A text is divided at its line feeds. One carriage return before a line feed, or at the very end of
an ended line, belongs to the line break, and a line feed at the end of the text ends its last line
instead of starting an empty one.
-/

set_option autoImplicit false

namespace Sundial.Text

/-- The pieces between line feeds; there is always one more piece than there are line feeds. -/
def splitFeeds : List Char → List (List Char)
  | [] => [[]]
  | c :: cs =>
    if c = '\n' then [] :: splitFeeds cs
    else match splitFeeds cs with
      | [] => [[c]]
      | l :: ls => (c :: l) :: ls

/-- Takes one carriage return off the end. -/
def dropReturn (line : List Char) : List Char :=
  match line.reverse with
  | '\r' :: rest => rest.reverse
  | _ => line

/-- The lines of a text. A last piece that no line feed ends keeps its carriage return. -/
def endLines : List (List Char) → List (List Char)
  | [] => []
  | [last] => if last = [] then [] else [last]
  | l :: ls => dropReturn l :: endLines ls

def lines (s : String) : List String :=
  (endLines (splitFeeds s.toList)).map String.ofList

/-- The `n`-th line, counted from one; line zero stands for the first. -/
def line? (s : String) (n : Nat) : Option String :=
  (lines s)[n - 1]?

/-- The pieces of a text up to and with each line feed, and what follows the last one. -/
def inputPieces : List Char → List (List Char)
  | [] => []
  | c :: cs =>
    if c = '\n' then [c] :: inputPieces cs
    else match inputPieces cs with
      | [] => [[c]]
      | l :: ls => (c :: l) :: ls

/-- The lines of an input, each with its line feed. -/
def inputLines (s : String) : List String :=
  (inputPieces s.toList).map String.ofList

end Sundial.Text
