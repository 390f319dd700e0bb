import Sundial.Proofs.Evaluation.Lockstep
import Sundial.Proofs.Evaluation.Repeating
import Sundial.Proofs.Printing.RoundTrip

/-!
# What a context knows is true

A context is `Truthful` if what it knows of the sky is what the sky answers, and every call whose
result it knows would be computed to that result. In such a context a formula is evaluated exactly
as without memory (`sim_eval`), and the context stays truthful.
-/

set_option autoImplicit false

namespace Sundial

open Evaluating
open Context (Continues)

variable {α β : Type}

/-! ## Truthful contexts -/

/-- The formula has the value in every later context, and evaluating it changes nothing there. -/
def Lasting (c : Context) (f : Formula) (v : Value) : Prop :=
  ∀ e : Evaluator, Continues c e.context →
    (f.evalAfresh.run e).1 = some v ∧ (f.evalAfresh.run e).2.context = e.context

theorem Lasting.mono {c c' : Context} {f : Formula} {v : Value} (h : Lasting c f v)
    (hc : Continues c c') : Lasting c' f v :=
  fun e he => h e (hc.trans he)

structure Context.Truthful (c : Context) : Prop where
  sun : ∀ s, c.sun = some s → s = c.sky.sunTimes c.date c.place
  angles : ∀ degrees a, c.angles.get? degrees.toBits = some a →
    a = c.sky.crossings c.date c.place degrees
  results : ∀ name t, c.result? name = some t →
    ∀ f, Legible .expression f → f.text = name → Lasting c f (.time t)

open Context (Truthful)

namespace Context.Truthful

variable {c c' : Context}

/-- Nothing known is nothing wrong. -/
theorem of_forgotten (hsun : c.sun = none) (hangles : c.angles = .empty)
    (hresults : c.results = .empty) : Truthful c where
  sun s h := by simp [hsun] at h
  angles degrees a h := by simp [hangles] at h
  results name t h := by simp [result?, hresults] at h

/-- More times do no harm as long as nothing else changes. -/
theorem continues (h : Truthful c) (hc : Continues c c') (hsun : c'.sun = c.sun)
    (hangles : c'.angles = c.angles) (hresults : c'.results = c.results) : Truthful c' where
  sun s hs := by
    rw [hc.date, hc.place, hc.sky]
    exact h.sun s (hsun ▸ hs)
  angles degrees a ha := by
    rw [hc.date, hc.place, hc.sky]
    exact h.angles degrees a (hangles ▸ ha)
  results name t ht f hf hn := by
    rw [result?, hresults] at ht
    exact (h.results name t ht f hf hn).mono hc

/-- The times may change as they like if all results are forgotten. -/
theorem withoutResults (h : Truthful c) (times : Ledger String Time) :
    Truthful { c with times := times, results := .empty } where
  sun := h.sun
  angles := h.angles
  results _ _ ht := by cases ht

theorem remember (h : Truthful c) (key : String) (t : Time) : Truthful (c.remember key t) :=
  h.continues ⟨rfl, rfl, rfl, fun _ _ hk => Ledger.get?_putNew_of_get? hk key t⟩ rfl rfl rfl

theorem sunTimes (h : Truthful c) :
    c.sunTimes.1 = c.sky.sunTimes c.date c.place ∧ Truthful c.sunTimes.2 := by
  rw [Context.sunTimes]
  cases hs : c.sun with
  | some s => exact ⟨h.sun s hs, h⟩
  | none =>
    refine ⟨rfl, ⟨fun s hs' => (Option.some.inj hs').symm, h.angles, fun name t ht f hf hn => ?_⟩⟩
    exact (h.results name t ht f hf hn).mono ⟨rfl, rfl, rfl, fun _ _ hk => hk⟩

/-- An angle is given by its bits. -/
theorem crossings (h : Truthful c) (degrees : Float) :
    (c.crossings degrees).1 = c.sky.crossings c.date c.place degrees ∧
      Truthful (c.crossings degrees).2 := by
  cases ha : c.angles.get? degrees.toBits with
  | some a =>
    rw [Context.crossings, ha]
    exact ⟨h.angles degrees a ha, h⟩
  | none =>
    rw [Context.crossings_of_none ha]
    refine ⟨rfl, ⟨h.sun, fun degrees' a ha' => ?_, fun name t ht f hf hn => ?_⟩⟩
    · rw [Ledger.get?_put] at ha'
      split at ha'
      next hbits =>
        have hsame : degrees = degrees' := by
          rw [← Binary64.ofBits_toBits degrees, hbits, Binary64.ofBits_toBits]
        rw [← Option.some.inj ha', hsame]
      next => exact h.angles degrees' a ha'
    · exact (h.results name t ht f hf hn).mono ⟨rfl, rfl, rfl, fun _ _ hk => hk⟩

end Context.Truthful

/-! ## Computations side by side -/

/-- The context without what it knows of the sky and of calls. -/
def Context.unknowing (c : Context) : Context :=
  { c with sun := none, angles := .empty, results := .empty, asked := [] }

theorem Context.unknowing_sunTimes (c : Context) : c.sunTimes.2.unknowing = c.unknowing := by
  rw [sunTimes]
  cases c.sun <;> rfl

theorem Context.unknowing_crossings (c : Context) (degrees : Float) :
    (c.crossings degrees).2.unknowing = c.unknowing := by
  rw [crossings]
  cases c.angles.get? degrees.toBits <;> rfl

/-- A truthful context, and one that is the same apart from what they know. -/
structure Context.Agrees (c c' : Context) : Prop where
  truthful : Truthful c
  same : c'.unknowing = c.unknowing

open Context (Agrees)

namespace Context.Agrees

variable {c c' : Context}

theorem date (h : Agrees c c') : c'.date = c.date :=
  show c'.unknowing.date = c.unknowing.date by rw [h.same]

theorem place (h : Agrees c c') : c'.place = c.place :=
  show c'.unknowing.place = c.unknowing.place by rw [h.same]

theorem sky (h : Agrees c c') : c'.sky = c.sky :=
  show c'.unknowing.sky = c.unknowing.sky by rw [h.same]

theorem times (h : Agrees c c') : c'.times = c.times :=
  show c'.unknowing.times = c.unknowing.times by rw [h.same]

theorem faults (h : Agrees c c') : c'.faults = c.faults :=
  show c'.unknowing.faults = c.unknowing.faults by rw [h.same]

theorem continues (h : Agrees c c') : Continues c c' :=
  ⟨h.date, h.place, h.sky, fun key t ht => by rwa [time?, h.times]⟩

theorem continues_symm (h : Agrees c c') : Continues c' c :=
  ⟨h.date.symm, h.place.symm, h.sky.symm, fun key t ht => by rwa [time?, ← h.times]⟩

/-- What a call was computed to may be kept under its text. -/
theorem keepResult (h : Agrees c c') {f : Formula}
    (hf : Legible .expression f) {t : Time}
    (ht : ∀ g : Formula, f.unplaced = g.unplaced → Lasting c' g (.time t)) :
    Agrees (c.keepResult f.text t) c' where
  truthful := by
    refine ⟨h.truthful.sun, h.truthful.angles, fun name u hu g hg hname => ?_⟩
    rw [result?, Context.keepResult, Ledger.get?_put] at hu
    have hkept : Continues c (c.keepResult f.text t) := ⟨rfl, rfl, rfl, fun _ _ hk => hk⟩
    split at hu
    next htext =>
      rw [← Option.some.inj hu]
      exact (ht g (Formula.unplaced_eq_of_text hf hg (htext.trans hname.symm))).mono
        (h.continues_symm.trans hkept)
    next => exact (h.truthful.results name u hu g hg hname).mono hkept
  same := h.same

end Context.Agrees

namespace Evaluating

/-- In contexts that agree both computations have the same value, and the contexts agree again. -/
def Sim (m m' : Evaluating α) : Prop :=
  ∀ e e', Agrees e.context e'.context →
    (m.run e).1 = (m'.run e').1 ∧ Agrees (m.run e).2.context (m'.run e').2.context

theorem sim_pure (a : α) : Sim (pure a) (pure a) := fun _ _ h => ⟨rfl, h⟩

theorem Sim.bind {m m' : Evaluating α} {k k' : α → Evaluating β} (h : Sim m m')
    (hk : ∀ a, Sim (k a) (k' a)) : Sim (m >>= k) (m' >>= k') := by
  intro e e' he
  obtain ⟨hvalue, hagrees⟩ := h e e' he
  rw [run_bind, run_bind, ← hvalue]
  exact hk _ _ _ hagrees

theorem sim_context {k k' : Context → Evaluating α}
    (h : ∀ c c', Agrees c c' → Sim (k c) (k' c')) : Sim (context >>= k) (context >>= k') :=
  fun e e' he => h e.context e'.context he e e' he

theorem sim_fail (cause : RuntimeFault) (pos : Position) :
    Sim (fail cause pos : Evaluating (Option α)) (fail cause pos) := by
  refine fun e e' h => ⟨rfl, ?_, ?_⟩
  · exact h.truthful.continues ⟨rfl, rfl, rfl, fun _ _ hk => hk⟩ rfl rfl rfl
  · exact congrArg (fun c => { c with faults := c.faults ++ [(⟨cause, pos⟩ : RuntimeError)] })
      h.same

theorem sim_record (name : String) (v : Value) : Sim (record name v) (record name v) :=
  fun _ _ h => ⟨rfl, h⟩

theorem sim_remember (key : String) (t : Time) : Sim (remember key t) (remember key t) :=
  fun _ _ h => ⟨rfl, h.truthful.remember key t, congrArg (fun c => c.remember key t) h.same⟩

/-- Asking for what may be known already is asking the sky. -/
theorem sim_sunTimes : Sim Evaluating.sunTimes Afresh.sunTimes := by
  intro e e' h
  obtain ⟨hvalue, htruthful⟩ := h.truthful.sunTimes
  refine ⟨?_, htruthful, h.same.trans (Context.unknowing_sunTimes e.context).symm⟩
  rw [Afresh.run_sunTimes, h.date, h.place, h.sky]
  exact hvalue

theorem sim_crossings (degrees : Float) :
    Sim (Evaluating.crossings degrees) (Afresh.crossings degrees) := by
  intro e e' h
  obtain ⟨hvalue, htruthful⟩ := h.truthful.crossings degrees
  refine ⟨?_, htruthful, h.same.trans (Context.unknowing_crossings e.context degrees).symm⟩
  rw [Afresh.run_crossings, h.date, h.place, h.sky]
  exact hvalue

theorem sim_moment (p : Primitive) : Sim (Evaluating.moment p) (Afresh.moment p) := by
  unfold Evaluating.moment Afresh.moment
  cases p.twilight? with
  | some twilight => exact (sim_crossings _).bind fun _ => sim_pure _
  | none => exact sim_sunTimes.bind fun _ => sim_pure _

theorem sim_primitive (p : Primitive) (pos : Position) :
    Sim (Evaluating.primitive p pos) (Afresh.primitive p pos) := by
  refine (sim_moment p).bind fun t => ?_
  cases t with
  | some t => exact (sim_remember _ _).bind fun _ => (sim_record _ _).bind fun _ => sim_pure _
  | none =>
    refine sim_context fun c c' h => ?_
    rw [h.date, h.place]
    exact sim_fail _ _

theorem sim_circumstance (v : Circumstance) :
    Sim (Evaluating.circumstance v) (Afresh.circumstance v) := by
  refine sim_context fun c c' h => ?_
  rw [h.date, h.place]
  cases v with
  | dayLength => exact sim_sunTimes.bind fun _ => sim_pure _
  | _ => exact sim_pure _

theorem sim_solarTime (degrees : Float) (direction : Direction) (pos : Position) :
    Sim (Evaluating.solarTime degrees direction pos) (Afresh.solarTime degrees direction pos) := by
  refine (sim_crossings degrees).bind fun a => ?_
  cases (if direction.isMorning then a.ascending else a.descending) with
  | some t => exact sim_pure _
  | none =>
    refine sim_context fun c c' h => ?_
    rw [h.date, h.place]
    exact sim_fail _ _

theorem lockstep_sim : Lockstep (fun _ => True) @Sim where
  value := sim_pure
  andThen := Sim.bind
  fault pos _ _ := sim_fail _ pos
  primitive p pos _ := sim_primitive p pos
  circumstance := sim_circumstance
  solarTime degrees direction pos _ := sim_solarTime degrees direction pos

/-! ### Calls -/

/-- A call whose result is known has that result, and one whose result is not known is computed. -/
theorem sim_throughResults {f : Formula} (hf : Legible .expression f)
    {m m' : Evaluating (Option Time)} (hm : Sim m m')
    (heval : f.evalAfresh = Afresh.call f.text m') :
    Sim (throughResults f.text m) f.evalAfresh := by
  intro e e' h
  rw [throughResults, run_context_bind]
  cases hresult : e.context.result? f.text with
  | some t =>
    obtain ⟨hvalue, hcontext⟩ := h.truthful.results f.text t hresult f hf rfl e' h.continues
    rw [hvalue, hcontext]
    exact ⟨rfl, h⟩
  | none =>
    obtain ⟨hvalue, hagrees⟩ := hm e e' h
    -- The result is kept for every call with this text, so it has to be theirs as well.
    have hrepeats := fun g hg a ha => f.repeats_evalAfresh g hg e' a ha
    rw [heval, Afresh.call, run_bind] at hrepeats ⊢
    rw [run_bind, hvalue]
    cases ht : (m'.run e').1 with
    | none => exact ⟨rfl, hagrees⟩
    | some t =>
      rw [ht] at hrepeats
      refine ⟨rfl, hagrees.keepResult hf fun g hg => ?_⟩
      exact (hrepeats g hg (.time t) rfl).2

end Evaluating

/-! ## Formulas -/

namespace Formula

/-- The formula, if it is a call, can be written where an expression stands. -/
def CallLegible : Formula → Prop
  | call pos function args => Legible .expression (call pos function args)
  | _ => True

theorem callLegible_nodes {level : Level} {f : Formula} (h : Legible level f) :
    ∀ g ∈ f.nodes, g.CallLegible := by
  induction h with
  | call pos name as h ih => exact forall_nodes_call.2 ⟨.call pos name as h, ih⟩
  | customSpan _ _ _ ih => exact forall_nodes_customSpan.2 ⟨trivial, ih⟩
  | binary _ _ _ _ _ _ ihl ihr => exact forall_nodes_binary.2 ⟨trivial, ihl, ihr⟩
  | compared _ _ _ _ _ _ _ ihl ihr | both _ _ _ _ _ ihl ihr | either _ _ _ _ _ ihl ihr =>
    exact forall_nodes_condition.2 ⟨trivial, ihl, ihr⟩
  | ifThen _ _ _ _ _ ihc iht => exact forall_nodes_ifThen.2 ⟨trivial, ihc, iht⟩
  | ifElse _ _ _ _ _ _ _ ihc iht ihe => exact forall_nodes_ifElse.2 ⟨trivial, ihc, iht, ihe⟩
  | bare _ _ ih | oneBoth _ _ ih | oneEither _ _ ih => exact ih
  | _ => exact fun g hg => by rw [List.mem_singleton.1 hg]; exact trivial

/-- A reference is looked up in the same times. -/
theorem sim_reference (pos : Position) (key : String) :
    Sim (reference pos key).eval (reference pos key).evalAfresh := by
  rw [eval, evalAfresh]
  apply sim_context
  intro c c' h
  rw [Context.time?, Context.time?, h.times]
  cases c.times.get? key with
  | some t => exact (sim_record _ _).bind fun _ => sim_pure _
  | none => exact sim_fail _ _

/-- Evaluation with what is known agrees with evaluation without memory. -/
theorem sim_eval (f : Formula) (h : ∀ g ∈ f.nodes, g.CallLegible) : Sim f.eval f.evalAfresh := by
  apply lockstep_sim.eval
  refine fun g hg => ⟨trivial, ?_⟩
  cases g with
  | reference pos key => exact sim_reference pos key
  | call pos function args => exact fun m m' hm heval => sim_throughResults (h _ hg) hm heval
  | _ => trivial

end Formula

end Sundial
