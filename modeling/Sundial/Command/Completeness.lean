import Sundial.Formula.Lexer

/-!
# Unfinished input

A piece of input asks for more lines as long as it opens more parentheses or braces than it closes.
A character that is in no token ends the wait, so that it can be reported.
-/

set_option autoImplicit false

namespace Sundial

/-- How many parentheses and braces are open; negative where too many are closed. -/
structure Depth where
  parentheses : Int
  braces : Int
  deriving DecidableEq, Repr

namespace Depth

def zero : Depth := ⟨0, 0⟩

/-- The depth behind a token. -/
def step (d : Depth) : TokenKind → Depth
  | .leftParen => { d with parentheses := d.parentheses + 1 }
  | .rightParen => { d with parentheses := d.parentheses - 1 }
  | .leftBrace => { d with braces := d.braces + 1 }
  | .rightBrace => { d with braces := d.braces - 1 }
  | _ => d

/-- The depth behind the tokens up to the end of the text; none if one of them is illegal. -/
def after (d : Depth) : List Token → Option Depth
  | [] => some d
  | t :: ts =>
    if t.kind = .illegal then none
    else if t.kind = .finish then some d
    else after (d.step t.kind) ts

def isClosed (d : Depth) : Bool := d.parentheses ≤ 0 && d.braces ≤ 0

end Depth

/-- No further line is needed. -/
def isComplete (text : String) : Bool :=
  ((Depth.zero.after (tokens text)).map Depth.isClosed).getD true

end Sundial
