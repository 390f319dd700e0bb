import Sundial.Proofs.Evaluation.Lockstep
import Sundial.Proofs.Evaluation.Reachable
import Sundial.Proofs.Evaluation.Tracing

/-!
# What a breakdown lists

A breakdown does not meddle with the evaluation that it is kept of, as no step goes by it: every
step is `Blind` to it. And it lists what the evaluation went through, which is the trace that
`Formula.resolve` leaves: `evaluateWithBreakdown_traces`.
-/

set_option autoImplicit false

namespace Sundial

open Evaluating

variable {α β : Type}

/-! ## With and without a breakdown -/

namespace Evaluating

/-- The value and the context afterwards do not depend on the breakdown. -/
def Blind (m : Evaluating α) : Prop :=
  ∀ e e' : Evaluator, e.context = e'.context →
    (m.run e).1 = (m.run e').1 ∧ (m.run e).2.context = (m.run e').2.context

theorem blind_pure (a : α) : Blind (pure a : Evaluating α) := fun _ _ h => ⟨rfl, h⟩

theorem Blind.bind {m : Evaluating α} {k : α → Evaluating β} (h : Blind m)
    (hk : ∀ a, Blind (k a)) : Blind (m >>= k) := by
  intro e e' he
  obtain ⟨hvalue, hcontext⟩ := h e e' he
  rw [run_bind, run_bind, ← hvalue]
  exact hk _ _ _ hcontext

theorem blind_context : Blind context := fun _ _ h => ⟨h, h⟩

/-- A step that changes the context goes by the context. -/
theorem blind_modify (g : Context → Context) :
    Blind (modify fun e => { e with context := g e.context }) :=
  fun _ _ h => ⟨rfl, congrArg g h⟩

theorem blind_ask (g : Context → α × Context) :
    Blind (modifyGet fun e => ((g e.context).1, { e with context := (g e.context).2 })) :=
  fun _ _ h => ⟨congrArg (fun c => (g c).1) h, congrArg (fun c => (g c).2) h⟩

theorem blind_record (name : String) (v : Value) : Blind (record name v) := fun _ _ h => ⟨rfl, h⟩

theorem blind_fail (cause : RuntimeFault) (pos : Position) :
    Blind (fail cause pos : Evaluating (Option α)) :=
  (blind_modify fun c => { c with faults := c.faults ++ [⟨cause, pos⟩] }).bind fun _ => blind_pure _

theorem blind_sunTimes : Blind sunTimes := blind_ask Context.sunTimes

theorem blind_crossings (degrees : Float) : Blind (crossings degrees) :=
  blind_ask fun c => c.crossings degrees

theorem blind_primitive (p : Primitive) (pos : Position) : Blind (primitive p pos) := by
  have hmoment : Blind (moment p) := by
    unfold moment
    cases p.twilight? with
    | some twilight => exact (blind_crossings _).bind fun _ => blind_pure _
    | none => exact blind_sunTimes.bind fun _ => blind_pure _
  refine hmoment.bind fun t => ?_
  cases t with
  | none => exact blind_context.bind fun c => blind_fail _ _
  | some t =>
    refine (blind_modify fun c => c.remember p.name t).bind fun _ => ?_
    exact (blind_record _ _).bind fun _ => blind_pure _

theorem blind_circumstance (v : Circumstance) : Blind (circumstance v) := by
  refine blind_context.bind fun c => ?_
  cases v with
  | dayLength => exact blind_sunTimes.bind fun _ => blind_pure _
  | _ => exact blind_pure _

theorem blind_solarTime (degrees : Float) (direction : Direction) (pos : Position) :
    Blind (solarTime degrees direction pos) := by
  refine (blind_crossings degrees).bind fun a => ?_
  cases (if direction.isMorning then a.ascending else a.descending) with
  | some t => exact blind_pure _
  | none => exact blind_context.bind fun c => blind_fail _ _

theorem blind_throughResults {m : Evaluating (Option Time)} (h : Blind m) (call : String) :
    Blind (throughResults call m) := by
  refine blind_context.bind fun c => ?_
  cases c.result? call with
  | some t => exact (blind_record _ _).bind fun _ => blind_pure _
  | none =>
    refine h.bind fun t => ?_
    cases t with
    | none => exact blind_pure _
    | some t =>
      refine (blind_modify fun c => c.keepResult call t).bind fun _ => ?_
      exact (blind_record _ _).bind fun _ => blind_pure _

theorem lockstep_blind : Lockstep (fun _ => True) fun m _ => Blind m where
  value := blind_pure
  andThen := Blind.bind
  fault pos _ _ := blind_fail _ pos
  primitive p pos _ := blind_primitive p pos
  circumstance := blind_circumstance
  solarTime degrees direction pos _ := blind_solarTime degrees direction pos

end Evaluating

namespace Formula

theorem blind_eval (f : Formula) : Blind f.eval := by
  refine lockstep_blind.eval f fun g _ => ⟨trivial, ?_⟩
  cases g with
  | reference pos key =>
    refine blind_context.bind fun c => ?_
    cases c.time? key with
    | some t => exact (blind_record _ _).bind fun _ => blind_pure _
    | none => exact blind_fail _ _
  | call pos function args => exact fun m _ hm _ => blind_throughResults hm _
  | _ => trivial

/-- Keeping a breakdown changes neither the result of an evaluation nor the context it leaves. -/
theorem evaluateWithBreakdown_blind (f : Formula) (c : Context) :
    ((f.evaluateWithBreakdown c).1.map Prod.fst, (f.evaluateWithBreakdown c).2) = f.evaluate c := by
  obtain ⟨hvalue, hcontext⟩ := f.blind_eval (Evaluator.started ⟨c, some .empty⟩)
    (Evaluator.started ⟨c, none⟩) rfl
  refine Prod.ext ?_ ?_
  · change (((Evaluator.run _ f).1.map _).map _) = (Evaluator.run _ f).1
    rw [Evaluator.run_fst, Evaluator.run_fst, hvalue, hcontext]
    cases outcome f.pos _ _ <;> rfl
  · exact congrArg (fun c : Context => { c with faults := [] }) hcontext

/-! ## The steps of an evaluation -/

/-- A run that gives a time has walked to that time. -/
theorem eval_of_evaluateWithBreakdown {f : Formula} {c : Context} {t : Time} {b : Breakdown}
    (h : (f.evaluateWithBreakdown c).1 = .ok (t, b)) :
    (f.eval.run (Evaluator.started ⟨c, some .empty⟩)).1 = some (.time t) ∧
      (f.eval.run (Evaluator.started ⟨c, some .empty⟩)).2.breakdown.getD .empty = b := by
  change (Evaluator.run ⟨c, some .empty⟩ f).1.map _ = _ at h
  rw [Evaluator.run_fst] at h
  cases houtcome : outcome f.pos (f.eval.run (Evaluator.started ⟨c, some .empty⟩)).1
      (f.eval.run (Evaluator.started ⟨c, some .empty⟩)).2.context.faults with
  | error es =>
    rw [houtcome] at h
    cases h
  | ok t' =>
    rw [houtcome] at h
    obtain ⟨rfl, hb⟩ := Prod.mk.inj (Except.ok.inj h)
    exact ⟨(outcome_eq_ok.1 houtcome).1, hb⟩

/-- A breakdown changes neither the result of an evaluation nor the context that it leaves. If a
formula that was read evaluates to a time where no results are known, its trace comes to the same
time; and the breakdown has one entry for each name in the trace, in the order of first completion,
with the time that the name was resolved to. -/
theorem evaluateWithBreakdown_traces (f : Formula) (c : Context) :
    ((f.evaluateWithBreakdown c).1.map Prod.fst, (f.evaluateWithBreakdown c).2) = f.evaluate c ∧
      ∀ source t b, parse source = .ok f → c.results = .empty →
        (f.evaluateWithBreakdown c).1 = .ok (t, b) →
        ∃ s, (f.resolve c).run ⟨c.times, []⟩ = some (.time t, s) ∧
          b.keys = (s.steps.map Prod.fst).eraseDups ∧ ∀ x ∈ s.steps, b.get? x.1 = some x.2 := by
  refine ⟨f.evaluateWithBreakdown_blind c, fun source t b hf hc h => ?_⟩
  have hstart : Traced c (Evaluator.started ⟨c, some .empty⟩) ⟨c.times, []⟩ := by
    refine ⟨rfl, rfl, fun name u hu => ?_, ⟨.empty, rfl, rfl, by simp⟩, by simp⟩
    rw [Context.result?, Evaluator.started, hc] at hu
    cases hu
  obtain ⟨hvalue, hb⟩ := eval_of_evaluateWithBreakdown h
  have hlegible := legible_nodes (legible_of_parse hf)
  obtain ⟨s, hs, htraced⟩ := follows_eval f hlegible _ _ _ hstart hvalue
  obtain ⟨b', hb', hlists⟩ := htraced.breakdown
  rw [hb', Option.getD_some] at hb
  exact ⟨s, hs, hb ▸ hlists.keys, hb ▸ hlists.values⟩

/-- A call that comes twice, an operand that is cut off and a branch that is not taken. -/
def winding : String :=
  "if (\"a\" == \"a\" || @never > @late) \x7b " ++
    "midpoint(midpoint(@late, sunset), midpoint(@late, sunset)) \x7d else \x7b solar_noon \x7d"

def lateDay : Context := steadyDay.insert "late" ⟨61200, 0⟩

theorem evaluateWithBreakdown_winding : ∃ f t b, parse winding = .ok f ∧
    (f.evaluateWithBreakdown lateDay).1 = .ok (t, b) ∧
    b.keys = ["@late", "sunset", "midpoint(@late, sunset)",
      "midpoint(midpoint(@late, sunset), midpoint(@late, sunset))"] ∧
    ∃ s, (f.resolve lateDay).run ⟨lateDay.times, []⟩ = some (.time t, s) ∧
      b.keys = (s.steps.map Prod.fst).eraseDups ∧ ∀ x ∈ s.steps, b.get? x.1 = some x.2 := by
  let told (f : Formula) := (f.evaluateWithBreakdown lateDay).1.toOption.map fun r => r.2.keys
  have hread : (parse winding).toOption.map told = some (some
      ["@late", "sunset", "midpoint(@late, sunset)",
        "midpoint(midpoint(@late, sunset), midpoint(@late, sunset))"]) := by
    decide +kernel
  obtain ⟨f, hf, htold⟩ := exists_parse hread
  cases hresult : (f.evaluateWithBreakdown lateDay).1 with
  | error es => simp [told, hresult, Except.toOption] at htold
  | ok r =>
    obtain ⟨t, b⟩ := r
    refine ⟨f, t, b, hf, hresult, by simpa [told, hresult, Except.toOption] using htold, ?_⟩
    exact (f.evaluateWithBreakdown_traces lateDay).2 winding t b hf rfl hresult

end Formula

end Sundial
