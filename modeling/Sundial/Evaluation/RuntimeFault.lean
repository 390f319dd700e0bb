import Sundial.Diagnostic
import Sundial.Evaluation.Value
import Sundial.Formula.Vocabulary
import Sundial.Formula.Tree

/-!
# Faults of an evaluation

The ways in which a formula has no time on a date at a place, with their wording. The causes after
`falseCondition` come from formulas that checking would refuse.
-/

set_option autoImplicit false

namespace Sundial

/-- A place in a formula that wants one kind of value. -/
inductive Slot where
  | solarDegrees
  | hourCount
  | midpointArgument (index : Nat)
  | boundStart
  | boundEnd
  deriving DecidableEq, Repr

namespace Slot

def name : Slot → String
  | solarDegrees => "solar() degrees"
  | hourCount => "proportional_hours() hours"
  | midpointArgument index => s!"midpoint() argument {index}"
  | boundStart => "custom base start"
  | boundEnd => "custom base end"

def kind : Slot → ValueKind
  | solarDegrees | hourCount => .number
  | _ => .time

end Slot

inductive RuntimeFault where
  | undefinedReference (key : String)
  /-- The sun has no such moment on the date. -/
  | absentPrimitive (primitive : Primitive) (date : Date) (latitude : Float)
  | absentAngle (degrees : Float) (date : Date) (latitude : Float)
  | divisionByZero
  | offsetOutOfRange (minutes : Float)
  | hourOutOfRange (hours : Float)
  /-- A comparison with a number that is none. -/
  | undefinedNumber
  /-- A false condition without an else-branch. -/
  | falseCondition
  | misplacedDirection (direction : Direction)
  | misplacedBase (name : String)
  | argumentCount (function : BuiltIn) (count : Nat)
  | boundCount (count : Nat)
  | directionExpected
  | baseExpected
  | wrongKind (slot : Slot) (found : ValueKind)
  | badOperands (op : Operator) (left right : ValueKind)
  | conditionKind (found : ValueKind)
  | logicalOperand (relation : Relation) (found : ValueKind)
  | orderedStrings
  | incomparable (left right : ValueKind)
  /-- A connective where a comparison sign should be. -/
  | notComparison (relation : Relation)
  | notTime (value : Value)
  | noValue
  deriving DecidableEq

namespace RuntimeFault

def message : RuntimeFault → String
  | undefinedReference key => s!"undefined reference @{key}"
  | absentPrimitive p date latitude =>
    s!"{p.name} does not occur on {date.text} at latitude {plainText latitude}"
  | absentAngle degrees date latitude =>
    s!"the sun does not reach {plainText degrees}° below the horizon on {date.text} " ++
      s!"at latitude {plainText latitude}"
  | divisionByZero => "division by zero"
  | offsetOutOfRange minutes => s!"time offset out of range: {Duration.minutesText minutes}"
  | hourOutOfRange hours => s!"proportional_hours() hour {plainText hours} is out of range"
  | undefinedNumber => "comparison with an undefined number"
  | falseCondition => "condition is false and there is no else branch"
  | misplacedDirection d => s!"direction '{d.name}' is only meaningful inside solar()"
  | misplacedBase name => s!"base '{name}' is only meaningful inside proportional_hours()"
  | argumentCount function count => s!"{function.name}() takes exactly 2 arguments, got {count}"
  | boundCount count => s!"custom base requires exactly 2 arguments: start and end, got {count}"
  | directionExpected => "solar() second argument must be a direction"
  | baseExpected => "proportional_hours() second argument must be a base"
  | wrongKind slot found => s!"{slot.name} must be a {slot.kind.name}, got {found.name}"
  | badOperands op l r => s!"cannot apply '{op.symbol}' to {l.name} and {r.name}"
  | conditionKind found => s!"condition must evaluate to a Boolean, got {found.name}"
  | logicalOperand relation found =>
    s!"'{relation.symbol}' needs Boolean operands, got {found.name}"
  | orderedStrings => "strings can only be compared with == or !="
  | incomparable l r => s!"cannot compare {l.name} with {r.name}"
  | notComparison relation => s!"'{relation.symbol}' is not a comparison"
  | notTime value => s!"formula produced a {value.kind.name} ({value.text}), not a time"
  | noValue => "formula produced no value"

def hint : RuntimeFault → Option String
  | undefinedReference _ =>
    some "referenced formulas must be evaluated before the formulas that use them"
  | absentPrimitive .. => some ("the sun does not reach this position on the date; " ++
      "guard the formula with a latitude condition")
  | absentAngle .. => some "use a smaller angle or a fixed offset for this season"
  | falseCondition => some "add an else branch, e.g. if (...) \x7b ... \x7d else \x7b sunset \x7d"
  | argumentCount function _ => some s!"Usage: {function.signature}"
  | badOperands .add .time .time =>
    some "subtract times to get a duration, or add a duration to a time"
  | _ => none

end RuntimeFault

instance : Fault RuntimeFault where
  stage := .evaluation
  message := RuntimeFault.message
  hint := RuntimeFault.hint

abbrev RuntimeError := Located RuntimeFault

end Sundial
