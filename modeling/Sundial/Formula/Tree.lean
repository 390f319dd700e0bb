import Sundial.Formula.Vocabulary

/-!
# Formulas

A formula is a tree whose nodes carry the position they were read at. Parentheses leave no node. A
base is a named day span or `custom` with its own bounds, and a conditional has one constructor with
and one without an else-branch.
-/

set_option autoImplicit false

namespace Sundial

inductive Operator where
  | add
  | sub
  | mul
  | div
  deriving DecidableEq, Repr

namespace Operator

def symbol : Operator → String
  | add => "+"
  | sub => "-"
  | mul => "*"
  | div => "/"

/-- The higher one binds tighter. -/
def precedence : Operator → Nat
  | add | sub => 1
  | mul | div => 2

def all : List Operator := [add, sub, mul, div]

end Operator

/-- Comparisons, and the two connectives that join them. -/
inductive Relation where
  | greater
  | less
  | greaterEqual
  | lessEqual
  | equal
  | notEqual
  | both
  | either
  deriving DecidableEq, Repr

namespace Relation

def symbol : Relation → String
  | greater => ">"
  | less => "<"
  | greaterEqual => ">="
  | lessEqual => "<="
  | equal => "=="
  | notEqual => "!="
  | both => "&&"
  | either => "||"

def isLogical : Relation → Bool
  | both | either => true
  | _ => false

def isEquality : Relation → Bool
  | equal | notEqual => true
  | _ => false

def all : List Relation :=
  [greater, less, greaterEqual, lessEqual, equal, notEqual, both, either]

end Relation

inductive Formula where
  | primitive (pos : Position) (event : Primitive)
  | call (pos : Position) (function : BuiltIn) (args : List Formula)
  | binary (pos : Position) (op : Operator) (left right : Formula)
  /-- A duration in minutes; `text` is the literal as written. -/
  | duration (pos : Position) (minutes : Float) (text : String)
  | number (pos : Position) (value : Float)
  | string (pos : Position) (value : String)
  /-- The result of another formula. -/
  | reference (pos : Position) (key : String)
  | direction (pos : Position) (direction : Direction)
  | span (pos : Position) (span : DaySpan)
  | customSpan (pos : Position) (bounds : List Formula)
  | ifThen (pos : Position) (condition thenBranch : Formula)
  | ifElse (pos : Position) (condition thenBranch elseBranch : Formula)
  | condition (pos : Position) (relation : Relation) (left right : Formula)
  | circumstance (pos : Position) (circumstance : Circumstance)

namespace Formula

def pos : Formula → Position
  | primitive p _ | call p _ _ | binary p _ _ _ | duration p _ _ | number p _ | string p _
  | reference p _ | direction p _ | span p _ | customSpan p _ | ifThen p _ _ | ifElse p _ _ _
  | condition p _ _ _ | circumstance p _ => p

/-- A binary node stands where its left operand stands. -/
def joined (op : Operator) (left right : Formula) : Formula :=
  binary left.pos op left right

/-- A condition stands where its left side stands. -/
def related (relation : Relation) (left right : Formula) : Formula :=
  condition left.pos relation left right

/-- The node is a direction or a base, which stand only in certain argument places. -/
def isPlaceWord : Formula → Bool
  | direction _ _ | span _ _ | customSpan _ _ => true
  | _ => false

end Formula

end Sundial
