import Sundial.Evaluation.Context
import Sundial.Formula.Printer

/-!
# Evaluation

`Formula.eval` walks a formula in a context. A node that fails adds a fault to the context and has
no value, and the evaluation of its siblings goes on, so that one run reports every fault it meets.
`Evaluator.run` is a whole evaluation: it gives a time exactly if the walk does. A run may keep a
breakdown of the primitives, references and calls it went through.
-/

set_option autoImplicit false

namespace Sundial

/-- Named intermediate times in the order in which they were first found. -/
abbrev Breakdown := Ledger String Value

/-- The state of an evaluation: the context, and the breakdown if one is kept. -/
structure Evaluator where
  context : Context
  breakdown : Option Breakdown

/-- A step of an evaluation. -/
abbrev Evaluating := StateM Evaluator

namespace Evaluating

variable {α : Type}

/-- Adds a fault; there is no value. -/
def fail (cause : RuntimeFault) (pos : Position) : Evaluating (Option α) := do
  modify fun e => { e with
    context := { e.context with faults := e.context.faults ++ [⟨cause, pos⟩] } }
  return none

def context : Evaluating Context := return (← get).context

/-- Enters a value in the breakdown, unless its name is there already. -/
def record (name : String) (v : Value) : Evaluating Unit :=
  modify fun e => { e with breakdown := e.breakdown.map fun b => b.putNew name v }

def remember (key : String) (t : Time) : Evaluating Unit :=
  modify fun e => { e with context := e.context.remember key t }

def keepResult (call : String) (t : Time) : Evaluating Unit :=
  modify fun e => { e with context := e.context.keepResult call t }

def sunTimes : Evaluating SunTimes :=
  modifyGet fun e => (e.context.sunTimes.1, { e with context := e.context.sunTimes.2 })

def crossings (degrees : Float) : Evaluating Crossings :=
  modifyGet fun e =>
    ((e.context.crossings degrees).1, { e with context := (e.context.crossings degrees).2 })

/-- A value that has to be a time. -/
def expectTime (slot : Slot) (pos : Position) : Option Value → Evaluating (Option Time)
  | none => return none
  | some (.time t) => return some t
  | some v => fail (.wrongKind slot v.kind) pos

/-- A value that has to be a number. -/
def expectNumber (slot : Slot) (pos : Position) : Option Value → Evaluating (Option Float)
  | none => return none
  | some (.number x) => return some x
  | some v => fail (.wrongKind slot v.kind) pos

/-- A value that a connective takes. -/
def expectBoolean (relation : Relation) (pos : Position) :
    Option Value → Evaluating (Option Bool)
  | none => return none
  | some (.boolean b) => return some b
  | some v => fail (.logicalOperand relation v.kind) pos

/-- The moment of the sun's day that a primitive names, if it occurs. -/
def moment (p : Primitive) : Evaluating (Option Time) := do
  match p.twilight? with
  | some (degrees, morning) =>
    let a ← crossings degrees
    return if morning then a.ascending else a.descending
  | none =>
    let sun ← sunTimes
    return match p with
      | .sunrise => sun.sunrise
      | .sunset => sun.sunset
      | .visibleSunrise => sun.visibleSunrise
      | .visibleSunset => sun.visibleSunset
      | .solarNoon => some sun.solarNoon
      | .solarMidnight => some sun.solarMidnight
      | _ => none

/-- A primitive's time, which is remembered under its name. -/
def primitive (p : Primitive) (pos : Position) : Evaluating (Option Time) := do
  match ← moment p with
  | some t =>
    remember p.name t
    record p.name (.time t)
    return some t
  | none =>
    let c ← context
    fail (.absentPrimitive p c.date c.place.latitude) pos

/-- A time moved by minutes. -/
def shift (t : Time) (minutes : Float) (pos : Position) : Evaluating (Option Time) :=
  match t.addMinutes? minutes with
  | some moved => return some moved
  | none => fail (.offsetOutOfRange minutes) pos

def shiftValue (t : Time) (minutes : Float) (pos : Position) : Evaluating (Option Value) :=
  return (← shift t minutes pos).map .time

def arithmetic : Operator → Float → Float → Float
  | .add, a, b => a + b
  | .sub, a, b => a - b
  | .mul, a, b => a * b
  | .div, a, b => a / b

/-- An operator applied to the values of its operands. -/
def operate (op : Operator) (pos : Position) (l r : Value) : Evaluating (Option Value) :=
  match op, l, r with
  | .sub, .time a, .time b => return some (.duration (b.minutesTo a))
  | .add, .time t, .duration d => shiftValue t d pos
  | .sub, .time t, .duration d => shiftValue t (-d) pos
  | .add, .duration a, .duration b => return some (.duration (a + b))
  | .sub, .duration a, .duration b => return some (.duration (a - b))
  | .mul, .duration d, .number n => return some (.duration (d * n))
  | .mul, .number n, .duration d => return some (.duration (d * n))
  | .div, .duration d, .number n =>
    if n == 0.0 then fail .divisionByZero pos else return some (.duration (d / n))
  | op, .number a, .number b =>
    if op = .div && b == 0.0 then fail .divisionByZero pos
    else return some (.number (arithmetic op a b))
  | op, l, r => fail (.badOperands op l.kind r.kind) pos

/-- Whether a relation holds of two numbers that can be ordered; none for a connective. -/
def holds? (relation : Relation) (a b : Float) : Option Bool :=
  match relation with
  | .greater => some (b < a)
  | .less => some (a < b)
  | .greaterEqual => some (b <= a)
  | .lessEqual => some (a <= b)
  | .equal => some (a == b)
  | .notEqual => some (a != b)
  | .both | .either => none

/-- Two numbers compared; one that is no number cannot be. -/
def compareNumbers (relation : Relation) (pos : Position) (a b : Float) :
    Evaluating (Option Value) :=
  if a.isNaN || b.isNaN then fail .undefinedNumber pos
  else match holds? relation a b with
    | some answer => return some (.boolean answer)
    | none => fail (.notComparison relation) pos

def compare (relation : Relation) (pos : Position) (l r : Value) : Evaluating (Option Value) :=
  match l, r with
  | .number a, .number b => compareNumbers relation pos a b
  | .duration a, .duration b => compareNumbers relation pos a b
  | .string a, .string b =>
    match relation with
    | .equal => return some (.boolean (a = b))
    | .notEqual => return some (.boolean (a ≠ b))
    | _ => fail .orderedStrings pos
  | l, r => fail (.incomparable l.kind r.kind) pos

def circumstance (v : Circumstance) : Evaluating Value := do
  let c ← context
  match v with
  | .latitude => return .number c.place.latitude
  | .longitude => return .number c.place.longitude
  | .elevation => return .number c.place.elevation
  | .dayLength => return .duration (← sunTimes).dayLength
  | .month => return .number (Float.ofNat c.date.month)
  | .season => return .string (Season.ofMonth c.date.month c.place.latitude).name

/-- The time of a solar angle in a direction. -/
def solarTime (degrees : Float) (direction : Direction) (pos : Position) :
    Evaluating (Option Time) := do
  let a ← crossings degrees
  match if direction.isMorning then a.ascending else a.descending with
  | some t => return some t
  | none =>
    let c ← context
    fail (.absentAngle degrees c.date c.place.latitude) pos

/-- The ends of a named span. -/
def spanEnds (b : DaySpan) (pos : Position) : Evaluating (Option (Time × Time)) := do
  let rise ← primitive .sunrise pos
  let set ← primitive .sunset pos
  match rise, set with
  | some rise, some set =>
    match ← shift rise (-b.margin) pos with
    | some start => return (← shift set b.margin pos).map fun finish => (start, finish)
    | none =>
      let _ ← shift set b.margin pos
      return none
  | _, _ => return none

/-- A proportional hour of a span. -/
def hourTime (ends : Time × Time) (count : Float) (pos : Position) : Evaluating (Option Time) :=
  match ends.1.proportionalHour? ends.2 count with
  | some t => return some t
  | none => fail (.hourOutOfRange count) pos

/-- The direction that a node names. -/
def directionOf : Formula → Evaluating (Option Direction)
  | .direction _ d => return some d
  | f => fail .directionExpected f.pos

/-- A call whose result may be known. The text of the call names the result. -/
def throughResults (call : String) (compute : Evaluating (Option Time)) :
    Evaluating (Option Value) := do
  match (← context).result? call with
  | some t =>
    record call (.time t)
    return some (.time t)
  | none =>
    match ← compute with
    | some t =>
      keepResult call t
      record call (.time t)
      return some (.time t)
    | none => return none

end Evaluating

open Evaluating

namespace Formula

/-- Evaluates a formula. -/
def eval : Formula → Evaluating (Option Value)
  | primitive pos event => return (← Evaluating.primitive event pos).map .time
  | duration _ minutes _ => return some (.duration minutes)
  | number _ value => return some (.number value)
  | string _ value => return some (.string value)
  | reference pos key => do
    match (← context).time? key with
    | some t =>
      record ("@" ++ key) (.time t)
      return some (.time t)
    | none => fail (.undefinedReference key) pos
  | direction pos d => fail (.misplacedDirection d) pos
  | span pos b => fail (.misplacedBase b.name) pos
  | customSpan pos _ => fail (.misplacedBase customWord) pos
  | circumstance _ v => return some (← Evaluating.circumstance v)
  | binary pos op left right => do
    let l ← eval left
    let r ← eval right
    match l, r with
    | some l, some r => operate op pos l r
    | _, _ => return none
  | ifThen pos c t => do
    match ← eval c with
    | none => return none
    | some (.boolean true) => eval t
    | some (.boolean false) => fail .falseCondition pos
    | some v => fail (.conditionKind v.kind) c.pos
  | ifElse _ c t e => do
    match ← eval c with
    | none => return none
    | some (.boolean true) => eval t
    | some (.boolean false) => eval e
    | some v => fail (.conditionKind v.kind) c.pos
  | condition pos relation left right => do
    if relation.isLogical then
      match ← expectBoolean relation left.pos (← eval left) with
      | none => return none
      | some l =>
        if relation = .both ∧ l = false then return some (.boolean false)
        else if relation = .either ∧ l = true then return some (.boolean true)
        else return (← expectBoolean relation right.pos (← eval right)).map .boolean
    else
      let l ← eval left
      let r ← eval right
      match l, r with
      | some l, some r => compare relation pos l r
      | _, _ => return none
  | call pos .solar [degrees, crossing] =>
    throughResults (text (call pos .solar [degrees, crossing])) do
      let x ← expectNumber .solarDegrees degrees.pos (← eval degrees)
      let d ← directionOf crossing
      match x, d with
      | some x, some d => solarTime x d degrees.pos
      | _, _ => return none
  | call pos .proportionalHours [hours, customSpan basePos [first, second]] =>
    let base := customSpan basePos [first, second]
    throughResults (text (call pos .proportionalHours [hours, base])) do
      let count ← expectNumber .hourCount hours.pos (← eval hours)
      let start ← expectTime .boundStart first.pos (← eval first)
      let finish ← expectTime .boundEnd second.pos (← eval second)
      match count, start, finish with
      | some count, some start, some finish => hourTime (start, finish) count hours.pos
      | _, _, _ => return none
  | call pos .proportionalHours [hours, base] =>
    throughResults (text (call pos .proportionalHours [hours, base])) do
      let count ← expectNumber .hourCount hours.pos (← eval hours)
      let ends ← match base with
        | span basePos b => spanEnds b basePos
        | customSpan basePos bounds => fail (.boundCount bounds.length) basePos
        | base => fail .baseExpected base.pos
      match count, ends with
      | some count, some ends => hourTime ends count hours.pos
      | _, _ => return none
  | call pos .midpoint [first, second] =>
    throughResults (text (call pos .midpoint [first, second])) do
      let a ← expectTime (.midpointArgument 1) first.pos (← eval first)
      let b ← expectTime (.midpointArgument 2) second.pos (← eval second)
      match a, b with
      | some a, some b => return some (a.midpoint b)
      | _, _ => return none
  | call pos function args =>
    throughResults (text (call pos function args)) do
      fail (.argumentCount function args.length) pos

/-- The time that a walk found, or its faults. Without either the formula had no value. -/
def outcome (pos : Position) (v : Option Value) (faults : List RuntimeError) :
    Except (List RuntimeError) Time :=
  match v, faults with
  | some (.time t), [] => .ok t
  | some (.time _), faults => .error faults
  | some v, faults => .error (faults ++ [⟨.notTime v, pos⟩])
  | none, [] => .error [⟨.noValue, pos⟩]
  | none, faults => .error faults

end Formula

namespace Evaluator

/-- Evaluates a whole formula. Afterwards the context holds no faults. -/
def run (e : Evaluator) (f : Formula) : Except (List RuntimeError) Time × Evaluator :=
  let (v, e') := f.eval.run { e with context := { e.context with faults := [] } }
  (Formula.outcome f.pos v e'.context.faults,
    { e' with context := { e'.context with faults := [] } })

end Evaluator

namespace Formula

/-- Evaluates a formula in a context. -/
def evaluate (f : Formula) (c : Context) : Except (List RuntimeError) Time × Context :=
  let (r, e) := Evaluator.run ⟨c, none⟩ f
  (r, e.context)

/-- Evaluates a formula in a context, with the breakdown of a run that succeeds. -/
def evaluateWithBreakdown (f : Formula) (c : Context) :
    Except (List RuntimeError) (Time × Breakdown) × Context :=
  let (r, e) := Evaluator.run ⟨c, some .empty⟩ f
  (r.map fun t => (t, e.breakdown.getD .empty), e.context)

end Formula

end Sundial
