import Sundial.Formula.Tree

/-!
# Kinds of values

Every formula has a static kind of value. `resultKind?` is the table of operand pairs that an
operator accepts; on any other pair `Formula.kind` falls back to the kind of the left operand.
-/

set_option autoImplicit false

namespace Sundial

inductive ValueKind where
  | time
  | duration
  | number
  | boolean
  | string
  deriving DecidableEq, Repr

namespace ValueKind

def name : ValueKind → String
  | time => "Time"
  | duration => "Duration"
  | number => "Number"
  | boolean => "Boolean"
  | string => "String"

def all : List ValueKind := [time, duration, number, boolean, string]

def ofName? (s : String) : Option ValueKind := all.find? fun k => k.name = s

end ValueKind

def Circumstance.kind : Circumstance → ValueKind
  | latitude | longitude | elevation | month => .number
  | dayLength => .duration
  | season => .string

/-- The kind of an operator's result, for the operand pairs that it accepts. -/
def Operator.resultKind? : Operator → ValueKind → ValueKind → Option ValueKind
  | sub, .time, .time => some .duration
  | add, .time, .duration => some .time
  | sub, .time, .duration => some .time
  | add, .duration, .duration => some .duration
  | sub, .duration, .duration => some .duration
  | mul, .duration, .number => some .duration
  | mul, .number, .duration => some .duration
  | div, .duration, .number => some .duration
  | _, .number, .number => some .number
  | _, _, _ => none

namespace Formula

/-- The kind of value that a formula stands for. -/
def kind : Formula → ValueKind
  | primitive .. | reference .. | call .. => .time
  | duration .. => .duration
  | number .. => .number
  | string .. | direction .. | span .. | customSpan .. => .string
  | binary _ op left right => (op.resultKind? left.kind right.kind).getD left.kind
  | ifThen _ _ t => t.kind
  | ifElse _ _ t _ => t.kind
  | condition .. => .boolean
  | circumstance _ v => v.kind

end Formula

end Sundial
