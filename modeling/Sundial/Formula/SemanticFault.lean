import Sundial.Diagnostic
import Sundial.Formula.Typing
import Sundial.Number.Text

/-!
# Faults of formulas that are not evaluated

The static rules that a formula can break, with their wording.
-/

set_option autoImplicit false

namespace Sundial

/-- A numeric argument of a function and the range of its literals. -/
structure NumberArgument where
  function : BuiltIn
  what : String
  low : Float
  high : Float
  hint : String
  deriving DecidableEq

namespace NumberArgument

def solarDegrees : NumberArgument :=
  ⟨.solar, "degrees", 0.0, 90.0, "Common values: 16.1 (dawn), 8.5 (nightfall)"⟩

def hourCount : NumberArgument :=
  ⟨.proportionalHours, "hours", 0.5, 12.0, "a day has 12 proportional hours"⟩

end NumberArgument

inductive SemanticFault where
  | misplacedDirection (direction : Direction)
  | misplacedBase (name : String)
  /-- The formula refers to its own key. -/
  | selfReference (key : String)
  /-- The key is not among the known ones. -/
  | undefinedReference (key : String) (known : List String)
  | argumentCount (function : BuiltIn) (count : Nat)
  | outOfRange (argument : NumberArgument) (value : Float)
  | numberExpected (argument : NumberArgument) (found : ValueKind)
  | directionExpected
  | baseExpected
  | midpointArgument (index : Nat) (found : ValueKind)
  | boundCount (count : Nat)
  | boundKind (label : String) (found : ValueKind)
  | addedTimes
  /-- A time multiplied (or divided). -/
  | scaledTime (multiplied : Bool)
  | conditionKind (found : ValueKind)
  | branchKinds (thenKind elseKind : ValueKind)
  | logicalOperand (relation : Relation)
  | circumstanceOperand (circumstance : Circumstance) (found : ValueKind)
  | incomparable (left right : ValueKind)
  | orderedStrings
  | uncomparedKind (found : ValueKind)
  /-- The whole formula is not a time. -/
  | notTime (found : ValueKind)
  deriving DecidableEq

namespace SemanticFault

/-- How many known keys a hint lists. -/
def listedKeys : Nat := 5

/-- A comparison in which the circumstance makes sense. -/
def comparisonExample : Circumstance → String
  | .latitude => "e.g. latitude > 40"
  | .longitude => "e.g. longitude < 0"
  | .elevation => "e.g. elevation > 500"
  | .dayLength => "e.g. day_length > 12h"
  | .month => "e.g. month == 12"
  | .season => "e.g. season == \"winter\""

def message : SemanticFault → String
  | misplacedDirection d =>
    s!"direction '{d.name}' can only be used as the second argument of solar()"
  | misplacedBase name =>
    s!"base '{name}' can only be used as the second argument of proportional_hours()"
  | selfReference key => s!"formula cannot reference itself (@{key})"
  | undefinedReference key _ => s!"undefined reference @{key}"
  | argumentCount function count => s!"{function.name}() takes exactly 2 arguments, got {count}"
  | outOfRange a value =>
    s!"{a.function.name}() {a.what} must be between {plainText a.low} and {plainText a.high}, " ++
      s!"got {plainText value}"
  | numberExpected a found => s!"{a.function.name}() {a.what} must be a Number, got {found.name}"
  | directionExpected => "solar() second argument must be a direction"
  | baseExpected => "proportional_hours() second argument must be a base"
  | midpointArgument index found => s!"midpoint() argument {index} must be a Time, got {found.name}"
  | boundCount count => s!"custom base requires exactly 2 arguments: start and end, got {count}"
  | boundKind label found => s!"custom base {label} must be a Time, got {found.name}"
  | addedTimes => "cannot add two times"
  | scaledTime multiplied =>
    let verb := if multiplied then "multiply" else "divide"
    s!"cannot {verb} a time"
  | conditionKind found => s!"condition must be a comparison, got {found.name}"
  | branchKinds t e => s!"if-branch produces {t.name} but else-branch produces {e.name}"
  | logicalOperand relation => s!"'{relation.symbol}' needs a comparison on both sides"
  | circumstanceOperand v found =>
    s!"{v.name} must be compared with a {v.kind.name}, got {found.name}"
  | incomparable l r => s!"cannot compare {l.name} with {r.name}"
  | orderedStrings => "strings can only be compared with == or !="
  | uncomparedKind found => s!"{found.name} values cannot be compared"
  | notTime found => s!"formula must produce a Time, got {found.name}"

def hint : SemanticFault → Option String
  | selfReference _ => some "reference another formula or use a primitive instead"
  | undefinedReference _ known =>
    let listed := ", ".intercalate (known.take listedKeys)
    let more := if listedKeys < known.length then ", ..." else ""
    some ("Available formulas: " ++ listed ++ more)
  | argumentCount function _ => some s!"Usage: {function.signature}"
  | outOfRange a _ => some a.hint
  | directionExpected =>
    some ("one of: " ++ ", ".intercalate (Direction.all.map Direction.name))
  | baseExpected => some "one of: gra, mga, mga_90, mga_120, custom(start, end)"
  | boundCount _ => some "e.g. custom(sunrise - 72min, sunset + 72min)"
  | addedTimes => some ("subtract times to get a duration (sunset - sunrise), " ++
      "or add a duration to a time (sunrise + 30min)")
  | scaledTime _ => some "scale a duration instead, e.g. (sunset - sunrise) / 12"
  | conditionKind _ => some "compare a value, e.g. if (latitude > 40) \x7b ... \x7d"
  | branchKinds _ _ => some "both branches must produce the same kind of value"
  | circumstanceOperand v _ => some (comparisonExample v)
  | notTime _ => some "a formula evaluates to a time of day, e.g. sunrise - 72min"
  | _ => none

end SemanticFault

instance : Fault SemanticFault where
  stage := .checking
  message := SemanticFault.message
  hint := SemanticFault.hint

abbrev SemanticError := Located SemanticFault

end Sundial
