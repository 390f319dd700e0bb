import Sundial.Proofs.Evaluation.Messages
import Sundial.Proofs.Evaluation.WellKinded
import Sundial.Proofs.FormulaSet.Meaning

/-!
# Checked formula sets

In a checked set every formula is valid with the keys of the set, under its own key. Nothing that a
formula of such a set refers to escapes the check, and the order of the set stores every key before
it is referred to. So evaluating the set never reports a reference that is undefined, in any context
(`evaluate_of_checked`).
-/

set_option autoImplicit false

namespace Sundial

/-! ## Checked formulas -/

namespace Formula

variable {scope : Scope} {f : Formula} {keys : List String}

/-- The formula refers to keys of the list only. -/
def RefersWithin (keys : List String) (f : Formula) : Prop := ∀ k ∈ f.mentions, k ∈ keys

theorem refersWithin_of_mentions (h : f.mentions = []) : f.RefersWithin keys := by
  intro k hk
  rw [h] at hk
  cases hk

theorem mem_keys_of_referenceFaults {pos : Position} {key : String} (hkeys : scope.keys ≠ [])
    (h : referenceFaults scope pos key = []) : key ∈ scope.keys := by
  by_contra hnot
  have hunknown : (!scope.keys.isEmpty && !scope.keys.contains key) = true := by
    simp [hkeys, hnot]
  rw [referenceFaults, if_pos hunknown] at h
  split at h <;> cases h

/-- Checking comes to every reference of a formula, whatever it passes over. -/
theorem refersWithin_of_faults (hkeys : scope.keys ≠ []) (hf : WellKinded f)
    (h : faults scope f = []) : f.RefersWithin scope.keys := by
  induction hf with
  | reference pos key =>
    rw [faults] at h
    exact List.forall_mem_singleton.2 (mem_keys_of_referenceFaults hkeys h)
  | binary pos op left right hl hr hop ihl ihr =>
    simp only [faults, List.append_eq_nil_iff] at h
    exact List.forall_mem_append.2 ⟨ihl h.1.1, ihr h.1.2⟩
  | ifThen pos c t hc ht hboolean ihc iht =>
    simp only [faults, List.append_eq_nil_iff] at h
    exact List.forall_mem_append.2 ⟨ihc h.1.1, iht h.2⟩
  | ifElse pos c t e hc ht he hboolean hsame ihc iht ihe =>
    simp only [faults, List.append_eq_nil_iff] at h
    obtain ⟨⟨⟨⟨hcondition, -⟩, hthen⟩, helse⟩, -⟩ := h
    exact List.forall_mem_append.2
      ⟨List.forall_mem_append.2 ⟨ihc hcondition, iht hthen⟩, ihe helse⟩
  | connective pos relation left right hlogical hl hr hleft hright ihl ihr
  | comparison pos relation left right hlogical hl hr hleft hright ihl ihr =>
    simp only [faults, List.append_eq_nil_iff] at h
    exact List.forall_mem_append.2 ⟨ihl h.1.1, ihr h.1.2⟩
  | solar pos dirPos degrees d hd hnumber ih =>
    simp only [faults, List.append_eq_nil_iff] at h
    have hdegrees := (of_numberFaults h.1 (fun _ _ => refersWithin_of_mentions rfl) ih).1
    simpa [RefersWithin, mentions, mentionsAll] using hdegrees
  | spanHour pos basePos hours b hh hnumber ih =>
    simp only [faults, List.append_eq_nil_iff] at h
    have hhours := (of_numberFaults h.1 (fun _ _ => refersWithin_of_mentions rfl) ih).1
    simpa [RefersWithin, mentions, mentionsAll] using hhours
  | customHour pos basePos hours first second hh hf hs hnumber hstart hend ihh ihf ihs =>
    simp only [faults, boundFaults, List.append_eq_nil_iff] at h
    obtain ⟨hcount, -, ⟨hfirst, -⟩, ⟨hsecond, -⟩, -⟩ := h
    have hhours := (of_numberFaults hcount (fun _ _ => refersWithin_of_mentions rfl) ihh).1
    simpa [RefersWithin, mentions, mentionsAll, or_imp, forall_and] using
      ⟨hhours, ihf hfirst, ihs hsecond⟩
  | midpoint pos first second hf hs hfirst hsecond ihf ihs =>
    simp only [faults, List.append_eq_nil_iff] at h
    simpa [RefersWithin, mentions, mentionsAll, or_imp, forall_and] using
      ⟨ihf h.1.1, ihs h.2.1⟩
  | _ => exact refersWithin_of_mentions rfl

theorem exists_of_isValid {text : String} (h : (judge scope text).isValid = true) :
    ∃ f, parse text = .ok f ∧ check scope f = [] := by
  rw [judge] at h
  cases hparse : parse text with
  | error ds =>
    rw [hparse] at h
    cases h
  | ok f =>
    rw [hparse] at h
    refine ⟨f, rfl, ?_⟩
    simpa [Verdict.isValid, Diagnostics.withSource] using h

end Formula

/-! ## Messages -/

namespace RuntimeFault

/-- The text does not start as the message of an undefined reference does. -/
def StartsElse (s : String) : Prop := ∃ c, s.toList.head? = some c ∧ c ≠ 'u'

theorem startsElse_message {cause : RuntimeFault} (h : cause.isUndefinedReference = false) :
    StartsElse cause.message := by
  obtain ⟨c, hhead, hc, -⟩ := starts_message h
  exact ⟨c, hhead, hc⟩

/-- No other fault has the message of an undefined reference. -/
theorem message_ne_undefinedReference {cause : RuntimeFault}
    (h : cause.isUndefinedReference = false) (key : String) :
    cause.message ≠ (undefinedReference key).message := by
  intro hsame
  obtain ⟨c, hhead, hc⟩ := startsElse_message h
  have hundefined : ("undefined reference @" ++ key).toList.head? = some 'u' := by
    rw [String.toList_append, List.head?_append]
    rfl
  rw [hsame] at hhead
  exact hc (Option.some.inj (hhead.symm.trans hundefined))

end RuntimeFault

/-- A fault of an evaluation other than that a reference is undefined. -/
def Diagnostic.IsOtherFault (d : Diagnostic) : Prop :=
  d.stage = .evaluation ∧ ∀ key, d.message ≠ (RuntimeFault.undefinedReference key).message

theorem Diagnostic.isOtherFault_withSource {text : String} {x : RuntimeError}
    (h : x.cause.isUndefinedReference = false) :
    (Diagnostic.withSource text x.diagnostic).IsOtherFault :=
  ⟨rfl, RuntimeFault.message_ne_undefinedReference h⟩

namespace FormulaSet

variable {set : FormulaSet} {key text : String} {c : Context} {done keys : List String}
  {ds : List Diagnostic}

/-- Every formula of the set is valid with the keys of the set, under its own key. -/
def Checked (set : FormulaSet) : Prop :=
  ∀ key text, set.get? key = some text →
    (Formula.judge ⟨set.keys, some key⟩ text).isValid = true

instance (set : FormulaSet) : Decidable set.Checked :=
  decidable_of_iff (∀ e ∈ set.entries,
      (Formula.judge ⟨set.keys, some e.1⟩ e.2).isValid = true) <| by
    constructor
    · exact fun h key text hget => h (key, text) (Ledger.mem_of_get? hget)
    · exact fun h e he => h e.1 e.2 (set.get?_of_mem he)

theorem Checked.exists_formula (h : set.Checked) (hget : set.get? key = some text) :
    ∃ f, Formula.parse text = .ok f ∧ ∀ r ∈ f.references, r ∈ set.keys := by
  obtain ⟨f, hparse, hcheck⟩ := Formula.exists_of_isValid (h key text hget)
  have hfaults := (List.append_eq_nil_iff.1 hcheck).1
  have hkeys : set.keys ≠ [] := List.ne_nil_of_mem (set.mem_keys.2 ⟨text, hget⟩)
  refine ⟨f, hparse, fun r hr => ?_⟩
  exact Formula.refersWithin_of_faults hkeys (Formula.wellKinded_of_faults f hfaults) hfaults r
    (Formula.mem_references.1 hr)

/-! ## Evaluating checked sets -/

/-- With times for all its references a text comes to other faults only. -/
theorem isOtherFault_of_evaluateText {f : Formula} (hparse : Formula.parse text = .ok f)
    (hstored : ∀ r ∈ f.references, ∃ t, c.time? r = some t)
    (herror : (evaluateText text c).1 = .error ds) : ∀ d ∈ ds, d.IsOtherFault := by
  rw [evaluateText, hparse] at herror
  dsimp only at herror
  cases heval : (f.evaluate c).1 with
  | ok t =>
    rw [heval] at herror
    cases herror
  | error es =>
    rw [heval] at herror
    obtain rfl := Except.error.inj herror
    intro d hd
    simp only [Diagnostics.withSource, List.map_map, List.mem_map] at hd
    obtain ⟨x, hx, rfl⟩ := hd
    apply Diagnostic.isOtherFault_withSource
    by_contra hundefined
    obtain ⟨k, hk⟩ := RuntimeFault.exists_of_isUndefinedReference (by simpa using hundefined)
    obtain ⟨hreference, hnone⟩ := Formula.undefined_of_evaluate heval x hx k hk
    obtain ⟨t, ht⟩ := hstored k hreference
    rw [hnone] at ht
    cases ht

/-- The rest of an order is evaluated to its end, with times for all keys, or to a key that fails for
another reason. -/
theorem Checked.evaluateKeys (h : set.Checked) (hstored : ∀ k ∈ done, ∃ t, c.time? k = some t)
    (hkeys : ∀ k ∈ keys, k ∈ set.keys) (hordered : Ordered set.neededBy (done ++ keys)) :
    (set.evaluateKeys keys c).1 = .ok () ∧
        (∀ k ∈ done ++ keys, ∃ t, (set.evaluateKeys keys c).2.time? k = some t) ∨
      ∃ key ds, (set.evaluateKeys keys c).1 = .error (.formula key ds) ∧
        ∀ d ∈ ds, d.IsOtherFault := by
  induction keys generalizing done c with
  | nil =>
    rw [List.append_nil]
    exact .inl ⟨rfl, hstored⟩
  | cons key keys ih =>
    obtain ⟨text, hget⟩ := set.mem_keys.1 (hkeys key List.mem_cons_self)
    obtain ⟨f, hparse, hwithin⟩ := h.exists_formula hget
    have hready : ∀ r ∈ f.references, ∃ t, c.time? r = some t := by
      intro r hr
      have hrefers : set.Refers key r := ⟨text, f, hget, hparse, hr, hwithin r hr⟩
      exact hstored r (hordered done key keys rfl r (mem_neededBy.2 hrefers))
    rw [evaluateKeys_cons hget]
    cases hresult : (evaluateText text c).1 with
    | error ds => exact .inr ⟨key, ds, rfl, isOtherFault_of_evaluateText hparse hready hresult⟩
    | ok t =>
      have hsnoc : done ++ key :: keys = (done ++ [key]) ++ keys := by simp
      rw [hsnoc] at hordered ⊢
      exact ih (stored_step hstored text key t)
        (fun k hk => hkeys k (List.mem_cons_of_mem _ hk)) hordered

/-- **A checked set has no undefined references**: in whatever context it is evaluated, it answers a
cycle if there is one, and otherwise has results for all its keys or fails at a key for another
reason. -/
theorem evaluate_of_checked (h : set.Checked) (c : Context) :
    set.Cyclic ∧ (∃ left, set.evaluate c = (.error (.cycle left), c)) ∨
      ¬set.Cyclic ∧ ((∃ results, (set.evaluate c).1 = .ok results ∧ results.keys = set.keys) ∨
        ∃ key ds, (set.evaluate c).1 = .error (.formula key ds) ∧
          ∀ d ∈ ds, d.IsOtherFault) := by
  rcases order_cases set with ⟨hcyclic, left, horder⟩ | ⟨hacyclic, order, horder, hperm, hordered⟩
  · exact .inl ⟨hcyclic, left, evaluate_of_cycle horder c⟩
  · refine .inr ⟨hacyclic, ?_⟩
    have hrun := h.evaluateKeys (c := c) (fun k hk => absurd hk List.not_mem_nil)
      (fun k hk => hperm.mem_iff.1 hk) hordered
    rw [evaluate_of_order horder]
    rcases hrun with ⟨hok, hstored⟩ | ⟨key, ds, herror, hother⟩
    · rw [hok]
      exact .inl ⟨_, rfl, keys_results fun k hk => hstored k (hperm.mem_iff.2 hk)⟩
    · rw [herror]
      exact .inr ⟨key, ds, rfl, hother⟩

/-- In the south the condition of the second formula is false. -/
def vigilSet : FormulaSet :=
  .ofList [("vigil", "@dusk - 18min"), ("dusk", "if (latitude > 40) \x7b sunset \x7d")]

/-- The formula that fails is the one referred to, and what was stored for it makes no difference. -/
theorem evaluate_vigilSet : vigilSet.Checked ∧
    ∃ ds, (vigilSet.evaluate (steadyDay.insert "dusk" ⟨0, 0⟩)).1 = .error (.formula "dusk" ds) ∧
      ∀ d ∈ ds, d.IsOtherFault := by
  have hchecked : vigilSet.Checked := by decide +kernel
  have hfails : (match (vigilSet.evaluate (steadyDay.insert "dusk" ⟨0, 0⟩)).1 with
      | .error (.formula key _) => some key
      | _ => none) = some "dusk" := by decide +kernel
  refine ⟨hchecked, ?_⟩
  rcases evaluate_of_checked hchecked (steadyDay.insert "dusk" ⟨0, 0⟩) with
    ⟨-, left, hcycle⟩ | ⟨-, ⟨results, hresults, -⟩ | ⟨key, ds, herror, hother⟩⟩
  · rw [hcycle] at hfails
    cases hfails
  · rw [hresults] at hfails
    cases hfails
  · rw [herror] at hfails
    obtain rfl := Option.some.inj hfails
    exact ⟨ds, herror, hother⟩

end FormulaSet

end Sundial
