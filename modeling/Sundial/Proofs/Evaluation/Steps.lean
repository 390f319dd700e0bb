import Sundial.Evaluation.Evaluate

/-!
# Steps of an evaluation

How the steps of an evaluation run. A step that neither reads nor writes the context `Settles`: it
gives a value or fails, and which of the two does not depend on where it stands. Only references
fail for want of a time.
-/

set_option autoImplicit false

namespace Sundial

/-- The state in which a whole evaluation starts: without faults. -/
def Evaluator.started (e : Evaluator) : Evaluator :=
  { e with context := { e.context with faults := [] } }

theorem Evaluator.run_fst (e : Evaluator) (f : Formula) : (e.run f).1 =
    Formula.outcome f.pos (f.eval.run e.started).1 (f.eval.run e.started).2.context.faults := rfl

/-- The time of a reference is missing. -/
def RuntimeFault.isUndefinedReference : RuntimeFault → Bool
  | undefinedReference _ => true
  | _ => false

theorem RuntimeFault.exists_of_isUndefinedReference {cause : RuntimeFault}
    (h : cause.isUndefinedReference = true) : ∃ key, cause = .undefinedReference key := by
  cases cause with
  | undefinedReference key => exact ⟨key, rfl⟩
  | _ => cases h

namespace Evaluating

variable {α β : Type}

@[simp] theorem run_pure (a : α) (e : Evaluator) : (pure a : Evaluating α).run e = (a, e) := rfl

@[simp] theorem run_bind (m : Evaluating α) (k : α → Evaluating β) (e : Evaluator) :
    (m >>= k).run e = (k (m.run e).1).run (m.run e).2 := rfl

@[simp] theorem run_fail (cause : RuntimeFault) (pos : Position) (e : Evaluator) :
    (fail cause pos : Evaluating (Option α)).run e = (none, { e with
      context := { e.context with faults := e.context.faults ++ [⟨cause, pos⟩] } }) := rfl

theorem run_context_bind (k : Context → Evaluating α) (e : Evaluator) :
    (context >>= k).run e = (k e.context).run e := rfl

/-! ## Steps at a position -/

/-- The step gives a value, the same at every position, or fails at the position. -/
def Settles (m : Position → Evaluating (Option α)) : Prop :=
  (∃ a, ∀ pos, m pos = pure (some a)) ∨
    ∃ cause, cause.isUndefinedReference = false ∧ ∀ pos, m pos = fail cause pos

theorem settles_pure (a : α) : Settles fun _ => pure (some a) := .inl ⟨a, fun _ => rfl⟩

theorem settles_fail {cause : RuntimeFault} (h : cause.isUndefinedReference = false) :
    Settles (fail cause : Position → Evaluating (Option α)) :=
  .inr ⟨cause, h, fun _ => rfl⟩

theorem settles_ite {p : Prop} [Decidable p] {m m' : Position → Evaluating (Option α)}
    (h : Settles m) (h' : Settles m') : Settles fun pos => if p then m pos else m' pos := by
  by_cases hp : p
  · simpa only [if_pos hp] using h
  · simpa only [if_neg hp] using h'

/-- An operand: there is none without a value, and of a value the step settles what it is. -/
structure Expects (expect : Position → Option Value → Evaluating (Option α)) : Prop where
  none : ∀ pos, expect pos none = pure none
  some : ∀ v, Settles fun pos => expect pos (some v)

theorem expects_time (slot : Slot) : Expects (expectTime slot) := by
  refine ⟨fun _ => rfl, fun v => ?_⟩
  cases v with
  | time t => exact settles_pure t
  | _ => exact settles_fail rfl

theorem expects_number (slot : Slot) : Expects (expectNumber slot) := by
  refine ⟨fun _ => rfl, fun v => ?_⟩
  cases v with
  | number x => exact settles_pure x
  | _ => exact settles_fail rfl

theorem expects_boolean (relation : Relation) : Expects (expectBoolean relation) := by
  refine ⟨fun _ => rfl, fun v => ?_⟩
  cases v with
  | boolean b => exact settles_pure b
  | _ => exact settles_fail rfl

theorem settles_shift (t : Time) (minutes : Float) : Settles (shift t minutes) := by
  unfold shift
  cases t.addMinutes? minutes with
  | some moved => exact settles_pure moved
  | none => exact settles_fail rfl

theorem settles_shiftValue (t : Time) (minutes : Float) : Settles (shiftValue t minutes) := by
  rcases settles_shift t minutes with ⟨moved, h⟩ | ⟨cause, hcause, h⟩
  · refine .inl ⟨.time moved, fun pos => ?_⟩
    rw [shiftValue, h]
    rfl
  · refine .inr ⟨cause, hcause, fun pos => ?_⟩
    rw [shiftValue, h]
    rfl

theorem settles_hourTime (ends : Time × Time) (count : Float) : Settles (hourTime ends count) := by
  unfold hourTime
  cases ends.1.proportionalHour? ends.2 count with
  | some t => exact settles_pure t
  | none => exact settles_fail rfl

theorem settles_operate (op : Operator) (l r : Value) :
    Settles fun pos => operate op pos l r := by
  cases l <;> cases r <;> cases op
  all_goals first
    | exact settles_pure _
    | exact settles_fail rfl
    | exact settles_shiftValue _ _
    | exact settles_ite (settles_fail rfl) (settles_pure _)

theorem settles_compareNumbers (relation : Relation) (a b : Float) :
    Settles fun pos => compareNumbers relation pos a b := by
  cases relation
  all_goals first
    | exact settles_ite (settles_fail rfl) (settles_pure _)
    | exact settles_ite (settles_fail rfl) (settles_fail rfl)

theorem settles_compare (relation : Relation) (l r : Value) :
    Settles fun pos => compare relation pos l r := by
  cases l <;> cases r
  case string.string a b =>
    cases relation
    case equal | notEqual => exact settles_pure _
    all_goals exact settles_fail rfl
  all_goals first
    | exact settles_compareNumbers relation _ _
    | exact settles_fail rfl

end Evaluating

end Sundial
