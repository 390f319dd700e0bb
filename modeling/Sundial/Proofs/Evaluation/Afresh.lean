import Sundial.Evaluation.Evaluate

/-!
# Evaluation without memory

The evaluation of a formula as it would be if nothing but the times of references were known: every
question goes to the sky, and every call is computed. `Formula.evalAfresh` does not look at what a
context knows of the sky, nor at the results of earlier calls.
-/

set_option autoImplicit false

namespace Sundial

open Evaluating

namespace Afresh

def sunTimes : Evaluating SunTimes := do
  let c ← context
  return c.sky.sunTimes c.date c.place

def crossings (degrees : Float) : Evaluating Crossings := do
  let c ← context
  return c.sky.crossings c.date c.place degrees

/-- The moment of the sun's day that a primitive names, if it occurs. -/
def moment (p : Primitive) : Evaluating (Option Time) := do
  match p.twilight? with
  | some (degrees, morning) =>
    let a ← crossings degrees
    return if morning then a.ascending else a.descending
  | none =>
    let sun ← sunTimes
    return match p with
      | .sunrise => sun.sunrise
      | .sunset => sun.sunset
      | .visibleSunrise => sun.visibleSunrise
      | .visibleSunset => sun.visibleSunset
      | .solarNoon => some sun.solarNoon
      | .solarMidnight => some sun.solarMidnight
      | _ => none

/-- A primitive's time. It is remembered under its name, where references find it. -/
def primitive (p : Primitive) (pos : Position) : Evaluating (Option Time) := do
  match ← moment p with
  | some t =>
    remember p.name t
    record p.name (.time t)
    return some t
  | none =>
    let c ← context
    fail (.absentPrimitive p c.date c.place.latitude) pos

def circumstance (v : Circumstance) : Evaluating Value := do
  let c ← context
  match v with
  | .latitude => return .number c.place.latitude
  | .longitude => return .number c.place.longitude
  | .elevation => return .number c.place.elevation
  | .dayLength => return .duration (← sunTimes).dayLength
  | .month => return .number (Float.ofNat c.date.month)
  | .season => return .string (Season.ofMonth c.date.month c.place.latitude).name

/-- The time of a solar angle in a direction. -/
def solarTime (degrees : Float) (direction : Direction) (pos : Position) :
    Evaluating (Option Time) := do
  let a ← crossings degrees
  match if direction.isMorning then a.ascending else a.descending with
  | some t => return some t
  | none =>
    let c ← context
    fail (.absentAngle degrees c.date c.place.latitude) pos

/-- The ends of a named span. -/
def spanEnds (b : DaySpan) (pos : Position) : Evaluating (Option (Time × Time)) := do
  let rise ← primitive .sunrise pos
  let set ← primitive .sunset pos
  match rise, set with
  | some rise, some set =>
    match ← shift rise (-b.margin) pos with
    | some start => return (← shift set b.margin pos).map fun finish => (start, finish)
    | none =>
      let _ ← shift set b.margin pos
      return none
  | _, _ => return none

/-- A call, computed whenever it is met. -/
def call (name : String) (compute : Evaluating (Option Time)) : Evaluating (Option Value) := do
  match ← compute with
  | some t =>
    record name (.time t)
    return some (.time t)
  | none => return none

end Afresh

namespace Formula

/-- Evaluates a formula without memory. -/
def evalAfresh : Formula → Evaluating (Option Value)
  | primitive pos event => return (← Afresh.primitive event pos).map .time
  | duration _ minutes _ => return some (.duration minutes)
  | number _ value => return some (.number value)
  | string _ value => return some (.string value)
  | reference pos key => do
    match (← context).time? key with
    | some t =>
      record ("@" ++ key) (.time t)
      return some (.time t)
    | none => fail (.undefinedReference key) pos
  | direction pos d => fail (.misplacedDirection d) pos
  | span pos b => fail (.misplacedBase b.name) pos
  | customSpan pos _ => fail (.misplacedBase customWord) pos
  | circumstance _ v => return some (← Afresh.circumstance v)
  | binary pos op left right => do
    let l ← evalAfresh left
    let r ← evalAfresh right
    match l, r with
    | some l, some r => operate op pos l r
    | _, _ => return none
  | ifThen pos c t => do
    match ← evalAfresh c with
    | none => return none
    | some (.boolean true) => evalAfresh t
    | some (.boolean false) => fail .falseCondition pos
    | some v => fail (.conditionKind v.kind) c.pos
  | ifElse _ c t e => do
    match ← evalAfresh c with
    | none => return none
    | some (.boolean true) => evalAfresh t
    | some (.boolean false) => evalAfresh e
    | some v => fail (.conditionKind v.kind) c.pos
  | condition pos relation left right => do
    if relation.isLogical then
      match ← expectBoolean relation left.pos (← evalAfresh left) with
      | none => return none
      | some l =>
        if relation = .both ∧ l = false then return some (.boolean false)
        else if relation = .either ∧ l = true then return some (.boolean true)
        else return (← expectBoolean relation right.pos (← evalAfresh right)).map .boolean
    else
      let l ← evalAfresh left
      let r ← evalAfresh right
      match l, r with
      | some l, some r => compare relation pos l r
      | _, _ => return none
  | call pos .solar [degrees, crossing] =>
    Afresh.call (text (call pos .solar [degrees, crossing])) do
      let x ← expectNumber .solarDegrees degrees.pos (← evalAfresh degrees)
      let d ← directionOf crossing
      match x, d with
      | some x, some d => Afresh.solarTime x d degrees.pos
      | _, _ => return none
  | call pos .proportionalHours [hours, customSpan basePos [first, second]] =>
    let base := customSpan basePos [first, second]
    Afresh.call (text (call pos .proportionalHours [hours, base])) do
      let count ← expectNumber .hourCount hours.pos (← evalAfresh hours)
      let start ← expectTime .boundStart first.pos (← evalAfresh first)
      let finish ← expectTime .boundEnd second.pos (← evalAfresh second)
      match count, start, finish with
      | some count, some start, some finish => hourTime (start, finish) count hours.pos
      | _, _, _ => return none
  | call pos .proportionalHours [hours, base] =>
    Afresh.call (text (call pos .proportionalHours [hours, base])) do
      let count ← expectNumber .hourCount hours.pos (← evalAfresh hours)
      let ends ← match base with
        | span basePos b => Afresh.spanEnds b basePos
        | customSpan basePos bounds => fail (.boundCount bounds.length) basePos
        | base => fail .baseExpected base.pos
      match count, ends with
      | some count, some ends => hourTime ends count hours.pos
      | _, _ => return none
  | call pos .midpoint [first, second] =>
    Afresh.call (text (call pos .midpoint [first, second])) do
      let a ← expectTime (.midpointArgument 1) first.pos (← evalAfresh first)
      let b ← expectTime (.midpointArgument 2) second.pos (← evalAfresh second)
      match a, b with
      | some a, some b => return some (a.midpoint b)
      | _, _ => return none
  | call pos function args =>
    Afresh.call (text (call pos function args)) do
      fail (.argumentCount function args.length) pos

/-- Evaluates a formula on a date at a place without memory, with the times that references resolve
to, and gives the times as they are afterwards. -/
def evaluateAfresh (f : Formula) (date : Date) (place : Place) (sky : Sky)
    (times : Ledger String Time) : Except (List RuntimeError) Time × Ledger String Time :=
  let (v, e) := f.evalAfresh.run ⟨{ Context.new date place sky with times := times }, none⟩
  (outcome f.pos v e.context.faults, e.context.times)

end Formula

end Sundial
