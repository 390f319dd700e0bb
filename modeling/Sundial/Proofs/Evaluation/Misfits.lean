import Sundial.Proofs.Evaluation.KindSoundness
import Sundial.Proofs.Evaluation.Reachable

/-!
# Operations that checking overlooks

Checking refuses two times under `+` and a time under `*` or `/`. Other operands that an operator
does not accept are overlooked: they are found when the operation is evaluated. The operations of a
checked formula that fail on their operands are just such ones (`badOperands_of_check`).
-/

set_option autoImplicit false

namespace Sundial

/-- Operands that the operator does not accept although checking does not refuse them. -/
def Operator.Overlooks (op : Operator) (left right : ValueKind) : Prop :=
  op.resultKind? left right = none ∧ ¬(op = .add ∧ left = .time ∧ right = .time) ∧
    ¬((op = .mul ∨ op = .div) ∧ (left = .time ∨ right = .time))

instance (op : Operator) (left right : ValueKind) : Decidable (op.Overlooks left right) :=
  inferInstanceAs (Decidable (_ ∧ _ ∧ _))

namespace Formula

variable {scope : Scope} {f left right : Formula} {op : Operator} {pos : Position}
  {misfits : List RuntimeError}

/-- No operands that an operator accepts are refused. -/
theorem operatorFaults_of_resultKind? {l r k : ValueKind} (h : op.resultKind? l r = some k) :
    operatorFaults pos op l r = [] := by
  cases op <;> cases l <;> cases r <;> cases h
  all_goals rfl

theorem operatorFaults_eq_nil (pos : Position) (op : Operator) (l r : ValueKind) :
    operatorFaults pos op l r = [] ↔ ¬(op = .add ∧ l = .time ∧ r = .time) ∧
      ¬((op = .mul ∨ op = .div) ∧ (l = .time ∨ r = .time)) := by
  cases op <;> simp [operatorFaults]

/-- Checking lets pass what the operator accepts, and what it overlooks. -/
theorem operatorFaults_eq_nil_iff {l r : ValueKind} : operatorFaults pos op l r = [] ↔
    (op.resultKind? l r).isSome = true ∨ op.Overlooks l r := by
  rw [Operator.Overlooks, ← operatorFaults_eq_nil pos]
  cases hk : op.resultKind? l r with
  | none => simp
  | some k => simp [operatorFaults_of_resultKind? hk]

theorem operatorFaults_of_mem_nodes (hf : WellKinded f)
    (hg : binary pos op left right ∈ f.nodes) :
    operatorFaults pos op left.kind right.kind = [] := by
  rcases hf.nodes _ hg with hbinary | hword
  · cases hbinary with
    | binary _ _ _ _ _ _ hop => exact hop
  · cases hword

theorem exists_of_misfit? {g : Formula} {x : RuntimeError} (h : g.misfit? = some x) :
    ∃ op left right, g = binary x.pos op left right ∧
      x.cause = .badOperands op left.kind right.kind ∧
        op.resultKind? left.kind right.kind = none := by
  cases g with
  | binary pos op left right =>
    rw [misfit?] at h
    cases hk : op.resultKind? left.kind right.kind with
    | some k =>
      rw [hk] at h
      cases h
    | none =>
      rw [hk] at h
      obtain rfl := Option.some.inj h
      exact ⟨op, left, right, rfl, rfl, hk⟩
  | _ => cases h

/-- In a checked formula every operation has operands that its operator accepts or overlooks, and
only the latter are ever reported: as the kinds of the operands in the formula, where the operation
stands. -/
theorem badOperands_of_check (hcheck : check scope f = []) :
    (∀ pos op left right, binary pos op left right ∈ f.nodes →
      (op.resultKind? left.kind right.kind).isSome = true ∨
        op.Overlooks left.kind right.kind) ∧
      ∀ c faults, (f.evaluate c).1 = .error faults → ∀ x ∈ faults, ∀ op l r,
        x.cause = .badOperands op l r → ∃ left right, binary x.pos op left right ∈ f.nodes ∧
          left.kind = l ∧ right.kind = r ∧ op.Overlooks l r := by
  obtain ⟨hfaults, htime⟩ := List.append_eq_nil_iff.1 hcheck
  have hf : WellKinded f := wellKinded_of_faults f hfaults
  have hpassed : ∀ pos op left right, binary pos op left right ∈ f.nodes →
      (op.resultKind? left.kind right.kind).isSome = true ∨
        op.Overlooks left.kind right.kind :=
    fun pos op left right hg => operatorFaults_eq_nil_iff.1 (operatorFaults_of_mem_nodes hf hg)
  refine ⟨hpassed, fun c faults h x hx op l r hcause => ?_⟩
  have hmisfits : ∀ g ∈ f.nodes, ∀ x, g.misfit? = some x → x ∈ f.nodes.filterMap misfit? :=
    fun g hg x hx => List.mem_filterMap.2 ⟨g, hg, hx⟩
  rcases expected_of_run hf (kindFaults_eq_nil.1 htime) hmisfits h x hx with hx | hx
  · rw [hcause] at hx
    cases hx
  · obtain ⟨g, hg, hmisfit⟩ := List.mem_filterMap.1 hx
    obtain ⟨op', left, right, rfl, hcause', hnone⟩ := exists_of_misfit? hmisfit
    rw [hcause] at hcause'
    obtain ⟨rfl, rfl, rfl⟩ := RuntimeFault.badOperands.inj hcause'
    refine ⟨left, right, hg, rfl, rfl, ?_⟩
    exact (hpassed _ _ _ _ hg).resolve_left (by simp [hnone])

/-- A number where a duration was meant. -/
def unitless : Formula :=
  binary ⟨1, 1⟩ .add (primitive ⟨1, 1⟩ .sunrise) (number ⟨1, 11⟩ 5.0)

theorem badOperands_unitless : ∃ x : RuntimeError, check ⟨[], none⟩ unitless = [] ∧
    (unitless.evaluate steadyDay).1 = .error [x] ∧ x.cause = .badOperands .add .time .number ∧
      ∃ left right, binary x.pos .add left right ∈ unitless.nodes ∧ left.kind = .time ∧
        right.kind = .number ∧ Operator.add.Overlooks .time .number := by
  have hcheck : check ⟨[], none⟩ unitless = [] := by rfl
  have heval : (unitless.evaluate steadyDay).1 =
      .error [⟨.badOperands .add .time .number, ⟨1, 1⟩⟩] := by rfl
  exact ⟨_, hcheck, heval, rfl,
    (badOperands_of_check hcheck).2 steadyDay _ heval _ List.mem_cons_self _ _ _ rfl⟩

/-- A formula passes the check with operands that its operator does not accept, and fails on them
when it is evaluated. -/
theorem check_unitless : check ⟨[], none⟩ unitless = [] ∧ unitless.operandsFit = false ∧
    (unitless.evaluate steadyDay).1 =
      .error [⟨.badOperands .add .time .number, ⟨1, 1⟩⟩] := by
  refine ⟨?_, ?_, ?_⟩
  · rfl
  · rfl
  · rfl

end Formula

end Sundial
