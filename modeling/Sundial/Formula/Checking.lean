import Sundial.Formula.Parser
import Sundial.Formula.SemanticFault

/-!
# Checking formulas

`Formula.faults` lists every static rule that a formula breaks, in reading order: misplaced words,
unknown references, argument counts and ranges, and kinds of operands. `Formula.check` adds the rule
that a formula as a whole is a time.
-/

set_option autoImplicit false

namespace Sundial

/-- The keys that a formula may refer to, and its own key if it is stored under one. Without keys
every reference is taken to be known. -/
structure Scope where
  keys : List String
  own : Option String

namespace Formula

def referenceFaults (scope : Scope) (pos : Position) (key : String) : List SemanticError :=
  if scope.own = some key then [⟨.selfReference key, pos⟩]
  else if !scope.keys.isEmpty && !scope.keys.contains key then
    [⟨.undefinedReference key scope.keys, pos⟩]
  else []

/-- What an operator makes of times. -/
def operatorFaults (pos : Position) (op : Operator) (left right : ValueKind) : List SemanticError :=
  match op with
  | .add => if left = .time ∧ right = .time then [⟨.addedTimes, pos⟩] else []
  | .mul | .div =>
    if left = .time ∨ right = .time then [⟨.scaledTime (op = .mul), pos⟩] else []
  | .sub => []

/-- A circumstance on one side asks for its own kind on the other. -/
def circumstanceFaults (side other : Formula) : List SemanticError :=
  match side with
  | circumstance _ v =>
    if other.kind = v.kind then [] else [⟨.circumstanceOperand v other.kind, other.pos⟩]
  | _ => []

/-- Both sides of a comparison are numbers, both durations, or both strings and tested for
equality. -/
def comparisonFaults (pos : Position) (relation : Relation) (left right : ValueKind) :
    List SemanticError :=
  if left ≠ right then [⟨.incomparable left right, pos⟩]
  else if left = .string ∧ ¬relation.isEquality then [⟨.orderedStrings, pos⟩]
  else if left = .time ∨ left = .boolean then [⟨.uncomparedKind left, pos⟩]
  else []

def relationFaults (pos : Position) (relation : Relation) (left right : Formula) :
    List SemanticError :=
  if relation.isLogical then
    [left, right].flatMap fun side =>
      if side.kind = .boolean then [] else [⟨.logicalOperand relation, side.pos⟩]
  else
    match circumstanceFaults left right ++ circumstanceFaults right left with
    | [] => comparisonFaults pos relation left.kind right.kind
    | found => found

/-- A literal argument lies in its range. -/
def literalFaults (argument : NumberArgument) (pos : Position) (value : Float) :
    List SemanticError :=
  if value < argument.low || argument.high < value then [⟨.outOfRange argument value, pos⟩] else []

def kindFaults (f : Formula) (wanted : ValueKind) (fault : ValueKind → SemanticFault) :
    List SemanticError :=
  if f.kind = wanted then [] else [⟨fault f.kind, f.pos⟩]

/-- A numeric argument: a literal in range, or any formula for a number. `inside` holds the faults
of the argument itself. -/
def numberFaults (argument : NumberArgument) (f : Formula) (inside : List SemanticError) :
    List SemanticError :=
  match f with
  | number pos value => literalFaults argument pos value
  | f => inside ++ kindFaults f .number (.numberExpected argument)

/-- The direction of a solar angle. -/
def directionFaults (f : Formula) (inside : List SemanticError) : List SemanticError :=
  match f with
  | direction .. => []
  | span pos _ | customSpan pos _ => [⟨.directionExpected, pos⟩]
  | f => ⟨.directionExpected, f.pos⟩ :: inside

/-- The base of proportional hours, if it has no bounds of its own. -/
def baseFaults (f : Formula) (inside : List SemanticError) : List SemanticError :=
  match f with
  | span .. => []
  | direction pos _ => [⟨.baseExpected, pos⟩]
  | f => ⟨.baseExpected, f.pos⟩ :: inside

mutual

/-- The rules that a formula breaks, the kind of the whole aside. -/
def faults (scope : Scope) : Formula → List SemanticError
  | primitive .. | duration .. | number .. | string .. | circumstance .. => []
  | direction pos d => [⟨.misplacedDirection d, pos⟩]
  | span pos b => [⟨.misplacedBase b.name, pos⟩]
  | customSpan pos _ => [⟨.misplacedBase customWord, pos⟩]
  | reference pos key => referenceFaults scope pos key
  | call _ .solar [degrees, crossing] =>
    numberFaults .solarDegrees degrees (faults scope degrees) ++
      directionFaults crossing (faults scope crossing)
  | call _ .proportionalHours [hours, customSpan pos bounds] =>
    numberFaults .hourCount hours (faults scope hours) ++
      ((if bounds.length = 2 then [] else [⟨.boundCount bounds.length, pos⟩]) ++
        boundFaults scope ["start", "end"] bounds)
  | call _ .proportionalHours [hours, base] =>
    numberFaults .hourCount hours (faults scope hours) ++ baseFaults base (faults scope base)
  | call _ .midpoint [first, second] =>
    faults scope first ++ kindFaults first .time (.midpointArgument 1) ++
      (faults scope second ++ kindFaults second .time (.midpointArgument 2))
  | call pos function args =>
    ⟨.argumentCount function args.length, pos⟩ :: strayFaults scope args
  | binary pos op left right =>
    faults scope left ++ faults scope right ++ operatorFaults pos op left.kind right.kind
  | ifThen _ c t =>
    faults scope c ++ kindFaults c .boolean .conditionKind ++ faults scope t
  | ifElse _ c t e =>
    faults scope c ++ kindFaults c .boolean .conditionKind ++ faults scope t ++ faults scope e ++
      kindFaults e t.kind (.branchKinds t.kind)
  | condition pos relation left right =>
    faults scope left ++ faults scope right ++ relationFaults pos relation left right

/-- The bounds of a custom base, as many as there are labels. -/
def boundFaults (scope : Scope) : List String → List Formula → List SemanticError
  | label :: labels, bound :: bounds =>
    faults scope bound ++ kindFaults bound .time (.boundKind label) ++
      boundFaults scope labels bounds
  | _, _ => []

/-- Arguments in a wrong number; words that belong in argument places are passed over. -/
def strayFaults (scope : Scope) : List Formula → List SemanticError
  | [] => []
  | a :: rest => (if a.isPlaceWord then [] else faults scope a) ++ strayFaults scope rest

end

/-- Every static rule that a whole formula breaks. -/
def check (scope : Scope) (f : Formula) : List SemanticError :=
  faults scope f ++ kindFaults f .time .notTime

/-- What checking a text gives: the formula if the text is one, and all diagnostics. -/
structure Verdict where
  formula : Option Formula
  diagnostics : List Diagnostic

/-- Reads and checks a text. -/
def judge (scope : Scope) (text : String) : Verdict :=
  match parse text with
  | .ok f => ⟨some f, Diagnostics.withSource text ((check scope f).map Located.diagnostic)⟩
  | .error ds => ⟨none, ds⟩

def Verdict.isValid (v : Verdict) : Bool := v.formula.isSome && v.diagnostics.isEmpty

end Formula

end Sundial
