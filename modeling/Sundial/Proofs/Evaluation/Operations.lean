import Sundial.Proofs.Evaluation.SkyKnowledge

/-!
# Operations on a context

What can be done with a context, as data, so that there are lists of it. After any operations a
context has its sky, no faults, and knows of the sky what the sky answers. Date and place change in
a move only.
-/

set_option autoImplicit false

namespace Sundial

variable {keys : List String} {c c' : Context}

/-- A run stays on its date at its place under its sky, whatever breakdown there is. -/
theorem Evaluator.setting_run (e : Evaluator) (f : Formula) :
    (e.run f).2.context.setting = e.context.setting := by
  have hsetting := Context.Effect.setting_of_reflTransGen (f.performs_eval e.started)
  exact hsetting

namespace Context

/-- What is done with a context. A formula is evaluated without a breakdown, with an empty one, or
with one that earlier formulas have left. -/
inductive Operation where
  | insert (key : String) (t : Time)
  | remember (key : String) (t : Time)
  | seed (entries : List (String × Time))
  | clearTimes
  | setDate (date : Date)
  | setPlace (place : Place)
  | sunTimes
  | crossings (degrees : Float)
  | keepResult (call : String) (t : Time)
  | evaluate (f : Formula) (breakdown : Option Breakdown)
  | evaluateSet (set : FormulaSet)

namespace Operation

def apply (c : Context) : Operation → Context
  | insert key t => c.insert key t
  | remember key t => c.remember key t
  | seed entries => c.seed entries
  | clearTimes => c.clearTimes
  | setDate date => c.setDate date
  | setPlace place => c.setPlace place
  | sunTimes => c.sunTimes.2
  | crossings degrees => (c.crossings degrees).2
  | keepResult call t => c.keepResult call t
  | evaluate f breakdown => (Evaluator.run ⟨c, breakdown⟩ f).2.context
  | evaluateSet set => (set.evaluate c).2

/-- To another date or another place. -/
def moves : Operation → Bool
  | setDate _ => true
  | setPlace _ => true
  | _ => false

end Operation

/-- The context after some operations. -/
def after (c : Context) (ops : List Operation) : Context := ops.foldl Operation.apply c

theorem after_append (c : Context) (ops ops' : List Operation) :
    c.after (ops ++ ops') = (c.after ops).after ops' :=
  List.foldl_append

/-- What each of the operations keeps is kept by all of them. -/
theorem after_induction {P : Context → Prop} {ops : List Operation}
    (hstep : ∀ op ∈ ops, ∀ c, P c → P (op.apply c)) (h : P c) : P (c.after ops) := by
  induction ops generalizing c with
  | nil => exact h
  | cons op ops ih =>
    obtain ⟨hop, hops⟩ := List.forall_mem_cons.1 hstep
    exact ih hops (hop c h)

/-! ## What operations keep -/

/-- Without a move the setting stays. -/
theorem Operation.setting_apply {op : Operation} (h : op.moves = false) (c : Context) :
    (op.apply c).setting = c.setting := by
  cases op with
  | setDate | setPlace => cases h
  | insert | remember | seed | clearTimes | keepResult => rfl
  | sunTimes => exact sunTimes_setting c
  | crossings degrees => exact crossings_setting c degrees
  | evaluate f breakdown => exact Evaluator.setting_run ⟨c, breakdown⟩ f
  | evaluateSet set =>
    exact set.evaluate_induction (fun f c' hc' => (f.setting_evaluate c').trans hc')
      (fun _ _ _ hc' => hc') rfl

theorem Operation.sky_apply (op : Operation) (c : Context) : (op.apply c).sky = c.sky := by
  cases hmoves : op.moves with
  | false => exact (setting_eq_iff.1 (op.setting_apply hmoves c)).2.2
  | true => cases op <;> cases hmoves <;> rfl

theorem sky_after (c : Context) (ops : List Operation) : (c.after ops).sky = c.sky :=
  after_induction (fun op _ c' hc' => (op.sky_apply c').trans hc') rfl

theorem Operation.faults_apply (op : Operation) (h : c.faults = []) : (op.apply c).faults = [] := by
  cases op with
  | insert | remember | seed | clearTimes | setDate | setPlace | keepResult => exact h
  | sunTimes => exact (sunTimes_faults c).trans h
  | crossings degrees => exact (crossings_faults c degrees).trans h
  | evaluate => rfl
  | evaluateSet set =>
    exact set.evaluate_induction (P := fun c => c.faults = []) (fun _ _ _ => rfl)
      (fun _ _ _ hc => hc) h

/-- Between operations there are no faults. -/
theorem faults_after (h : c.faults = []) (ops : List Operation) : (c.after ops).faults = [] :=
  after_induction (P := fun c => c.faults = []) (fun op _ _ hc => op.faults_apply hc) h

theorem KnowsSky.apply (h : KnowsSky c) (op : Operation) : KnowsSky (op.apply c) := by
  cases op with
  | insert key t => exact h.step (.insert c key t)
  | remember key t => exact h.step (.remember c key t)
  | seed entries => exact h.step (.seed c entries)
  | clearTimes => exact h.step (.clearTimes c)
  | setDate date => exact h.step (.setDate c date)
  | setPlace place => exact h.step (.setPlace c place)
  | sunTimes => exact h.step (.sunTimes c)
  | crossings degrees => exact h.step (.crossings c degrees)
  | keepResult call t => exact h.use (.keepResult c call t)
  | evaluate f breakdown => exact h.run f breakdown
  | evaluateSet set => exact h.step (.evaluateSet c set)

theorem knowsSky_after (date : Date) (place : Place) (sky : Sky) (ops : List Operation) :
    KnowsSky ((new date place sky).after ops) :=
  after_induction (fun op _ _ hc => hc.apply op) (.of_forgotten rfl rfl)

end Context

end Sundial
