import Sundial.Formula.Tree
import Sundial.Number.Text

/-!
# Canonical text of formulas

The canonical text has one blank around operators and after commas, parentheses only where the
grouping of operators needs them, durations as they were written and numbers in plain digits.
-/

set_option autoImplicit false

namespace Sundial.Formula

/-- An operand needs parentheses if it binds looser than the operator, or as loosely on the right. -/
def needsParens (parent : Operator) (onRight : Bool) : Formula → Bool
  | binary _ op _ _ =>
    op.precedence < parent.precedence || (onRight && op.precedence = parent.precedence)
  | _ => false

def isConditional : Formula → Bool
  | ifThen .. | ifElse .. => true
  | _ => false

/-- The node joins two conditions with `||`. -/
def isEither : Formula → Bool
  | condition _ .either _ _ => true
  | _ => false

def parenthesized (wrap : Bool) (s : String) : String :=
  if wrap then "(" ++ s ++ ")" else s

/-- A string in quotes; quotes and backslashes in it are escaped. -/
def quoted (s : String) : String :=
  "\"" ++ String.ofList (s.toList.flatMap fun c => if c = '"' ∨ c = '\\' then ['\\', c] else [c]) ++
    "\""

def braced (s : String) : String := "\x7b " ++ s ++ " \x7d"

mutual

/-- The canonical text of a formula. -/
def text : Formula → String
  | primitive _ event => event.name
  | call _ function args => function.name ++ "(" ++ argumentsText args ++ ")"
  | binary _ op left right =>
    parenthesized (needsParens op false left) (text left) ++ " " ++ op.symbol ++ " " ++
      parenthesized (needsParens op true right) (text right)
  | duration _ _ literal => literal
  | number _ value => plainText value
  | string _ value => quoted value
  | reference _ key => "@" ++ key
  | direction _ d => d.name
  | span _ b => b.name
  | customSpan _ bounds => customWord ++ "(" ++ argumentsText bounds ++ ")"
  | ifThen _ c t => "if (" ++ text c ++ ") " ++ braced (text t)
  | ifElse _ c t e =>
    "if (" ++ text c ++ ") " ++ braced (text t) ++ " else " ++
      (if isConditional e then text e else braced (text e))
  | condition _ relation left right =>
    parenthesized (relation = .both && isEither left) (text left) ++
      " " ++ relation.symbol ++ " " ++
      parenthesized (relation = .both && isEither right) (text right)
  | circumstance _ v => v.name

/-- The arguments, a comma and a blank between any two. -/
def argumentsText : List Formula → String
  | [] => ""
  | a :: rest => text a ++ laterArgumentsText rest

/-- The arguments after the first, each behind a comma and a blank. -/
def laterArgumentsText : List Formula → String
  | [] => ""
  | a :: rest => ", " ++ text a ++ laterArgumentsText rest

end

end Sundial.Formula
