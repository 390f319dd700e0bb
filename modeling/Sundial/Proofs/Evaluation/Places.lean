import Sundial.Proofs.Evaluation.KindSoundness
import Sundial.Proofs.Grammar.Places

/-!
# The places of faults in an evaluation

Every fault of an evaluation is at a node of the formula: steps fail at the positions that they are
given, and these are positions of nodes. So faults are placed wherever the nodes of the formula are
(`Evaluator.allAt_run`), in every context.
-/

set_option autoImplicit false

namespace Sundial

variable {P : Position → Prop}

namespace Evaluating

variable {α β : Type} {pos : Position}

/-- The computation adds faults at positions with the property only. -/
def FailsAt (P : Position → Prop) (m : Evaluating α) : Prop :=
  ∀ e, AllAt P e.context.faults → AllAt P (m.run e).2.context.faults

theorem Silent.failsAt {m : Evaluating α} (h : Silent m) : FailsAt P m := by
  intro e he
  rwa [h e]

theorem failsAt_pure (a : α) : FailsAt P (pure a) := (silent_pure a).failsAt

theorem failsAt_fail (cause : RuntimeFault) (h : P pos) :
    FailsAt P (fail cause pos : Evaluating (Option α)) :=
  fun _ he => he.append (allAt_single h)

theorem FailsAt.bind {m : Evaluating α} {k : α → Evaluating β} (h : FailsAt P m)
    (hk : ∀ a, FailsAt P (k a)) : FailsAt P (m >>= k) := by
  intro e he
  rw [run_bind]
  exact hk _ _ (h e he)

theorem failsAt_primitive (p : Primitive) (h : P pos) : FailsAt P (primitive p pos) := by
  refine (silent_moment p).failsAt.bind fun t => ?_
  cases t with
  | some t => exact ((silent_remember _ _).bind fun _ => (silent_record _ _).bind fun _ =>
      silent_pure _).failsAt
  | none => exact silent_context.failsAt.bind fun _ => failsAt_fail _ h

theorem failsAt_solarTime (degrees : Float) (direction : Direction) (h : P pos) :
    FailsAt P (solarTime degrees direction pos) := by
  refine (silent_crossings degrees).failsAt.bind fun a => ?_
  cases (if direction.isMorning then a.ascending else a.descending) with
  | some t => exact failsAt_pure _
  | none => exact silent_context.failsAt.bind fun _ => failsAt_fail _ h

theorem failsAt_throughResults {m : Evaluating (Option Time)} (h : FailsAt P m) (call : String) :
    FailsAt P (throughResults call m) := by
  refine silent_context.failsAt.bind fun c => ?_
  cases c.result? call with
  | some t => exact ((silent_record _ _).bind fun _ => silent_pure _).failsAt
  | none =>
    refine h.bind fun t => ?_
    cases t with
    | none => exact failsAt_pure _
    | some t => exact ((silent_keepResult _ _).bind fun _ => (silent_record _ _).bind fun _ =>
        silent_pure _).failsAt

theorem lockstep_failsAt (P : Position → Prop) : Lockstep P fun m _ => FailsAt P m where
  value := failsAt_pure
  andThen := FailsAt.bind
  fault _ hpos _ := failsAt_fail _ hpos
  primitive p _ hpos := failsAt_primitive p hpos
  circumstance v := (silent_circumstance v).failsAt
  solarTime degrees direction _ hpos := failsAt_solarTime degrees direction hpos

theorem failsAt_reference (key : String) (h : P pos) :
    FailsAt P (Formula.reference pos key).eval := by
  rw [Formula.eval]
  refine silent_context.failsAt.bind fun c => ?_
  cases c.time? key with
  | some t => exact ((silent_record _ _).bind fun _ => silent_pure _).failsAt
  | none => exact failsAt_fail _ h

end Evaluating

open Evaluating

variable {f : Formula}

theorem Formula.failsAt_eval (h : f.Placed P) : FailsAt P f.eval := by
  apply (lockstep_failsAt P).eval
  refine fun g hg => ⟨h g hg, ?_⟩
  cases g with
  | reference pos key => exact failsAt_reference key (h _ hg)
  | call => exact fun m _ hm _ => failsAt_throughResults hm _
  | _ => trivial

/-- A run that gives no time has faults, and all of them are where the nodes are. -/
theorem Evaluator.allAt_run (h : f.Placed P) {e : Evaluator} {es : List RuntimeError}
    (herror : (e.run f).1 = .error es) : es ≠ [] ∧ AllAt P es := by
  rw [Evaluator.run_fst] at herror
  obtain ⟨hne, hfound⟩ := Formula.mem_of_outcome herror
  have hwalk : AllAt P (f.eval.run e.started).2.context.faults :=
    Formula.failsAt_eval h e.started allAt_nil
  refine ⟨hne, fun x hx => ?_⟩
  rcases hfound x hx with hfault | ⟨hpos, -⟩
  · exact hwalk x hfault
  · rw [hpos]
    exact h.pos

end Sundial
