import Sundial.Proofs.FormulaSet.Checked

/-!
# Sets in another order

The order in which a set is evaluated follows the references within the set, and beyond that the
order in which its formulas are written. What a key reaches in a context where everything it needs
has been reached is the same in every order, up to one thing: a formula can refer to a primitive by
its name although no key has that name, and such a reference finds a time only if the primitive was
remembered before. Apart from such references the order in which formulas are written makes no
difference (`evaluate_perm`).
-/

set_option autoImplicit false

namespace Sundial

theorem Ledger.get?_of_perm {κ α : Type} [DecidableEq κ] {l l' : Ledger κ α}
    (h : l'.entries.Perm l.entries) (k : κ) : l'.get? k = l.get? k := by
  cases hget : l.get? k with
  | some a => exact l'.get?_of_mem (h.mem_iff.2 (mem_of_get? hget))
  | none =>
    cases hget' : l'.get? k with
    | none => rfl
    | some a =>
      have hfound := l.get?_of_mem (h.mem_iff.1 (mem_of_get? hget'))
      rw [hget] at hfound
      cases hfound

namespace FormulaSet

open Context (Incidental Truthful)

variable {set set' : FormulaSet} {start c c' : Context} {values : String → Time}
  {key text : String} {t : Time} {ds : List Diagnostic} {done keys needed : List String}

/-! ## What keys reach -/

/-- In the context the needed keys have the given times, and under names that are no keys there is
nothing but primitives that were remembered. -/
structure Ready (set : FormulaSet) (start : Context) (values : String → Time)
    (needed : List String) (c : Context) : Prop where
  truthful : Truthful c
  setting : c.setting = start.setting
  stored : ∀ r ∈ needed, c.time? r = some (values r)
  outside : ∀ k, k ∉ set.keys → c.Incidental k

/-- The key's formula comes to the time in a context in which everything that it needs has a time
that is reached. -/
inductive Reaches (set : FormulaSet) (start : Context) : String → Time → Prop
  | intro {key text : String} {t : Time} {c : Context} (values : String → Time)
      (hget : set.get? key = some text) (hready : Ready set start values (set.neededBy key) c)
      (hresult : (evaluateText text c).1 = .ok t)
      (hneeded : ∀ r ∈ set.neededBy key, Reaches set start r (values r)) :
      Reaches set start key t

/-- The key's formula fails in such a context. -/
def Stuck (set : FormulaSet) (start : Context) (key : String) (ds : List Diagnostic) : Prop :=
  ∃ text values c, set.get? key = some text ∧ Ready set start values (set.neededBy key) c ∧
    (∀ r ∈ set.neededBy key, Reaches set start r (values r)) ∧
    (evaluateText text c).1 = .error ds

/-! ## Undefined references -/

/-- Among the diagnostics is one that a reference to the key is undefined. -/
def Unresolved (key : String) (ds : List Diagnostic) : Prop :=
  ∃ d ∈ ds, d.stage = .evaluation ∧ d.message = (RuntimeFault.undefinedReference key).message

theorem message_undefinedReference_inj {k k' : String} (h :
    (RuntimeFault.undefinedReference k).message = (RuntimeFault.undefinedReference k').message) :
    k = k' :=
  (String.append_right_inj "undefined reference @").1 h

theorem unresolved_located {es : List RuntimeError} :
    Unresolved key (Diagnostics.withSource text (es.map Located.diagnostic)) ↔
      ∃ x ∈ es, x.cause = .undefinedReference key := by
  constructor
  · rintro ⟨d, hd, -, hmessage⟩
    simp only [Diagnostics.withSource, List.map_map, List.mem_map] at hd
    obtain ⟨x, hx, rfl⟩ := hd
    refine ⟨x, hx, ?_⟩
    cases hundefined : x.cause.isUndefinedReference with
    | false => exact absurd hmessage (RuntimeFault.message_ne_undefinedReference hundefined key)
    | true =>
      obtain ⟨k, hk⟩ := RuntimeFault.exists_of_isUndefinedReference hundefined
      have hsame := (congrArg RuntimeFault.message hk).symm.trans hmessage
      rw [hk, message_undefinedReference_inj hsame]
  · rintro ⟨x, hx, hcause⟩
    exact ⟨_, List.mem_map_of_mem (List.mem_map_of_mem hx), rfl,
      congrArg RuntimeFault.message hcause⟩

/-- A text that is no formula is not told anything about references. -/
theorem not_unresolved_of_parse (h : Formula.parse text = .error ds) : ¬Unresolved key ds := by
  rintro ⟨d, hd, hstage, -⟩
  rw [Formula.parse] at h
  cases hread : Formula.read text with
  | ok f =>
    rw [hread] at h
    cases h
  | error es =>
    rw [hread] at h
    obtain rfl := Except.error.inj h
    simp only [Diagnostics.withSource, List.map_map, List.mem_map] at hd
    obtain ⟨x, -, rfl⟩ := hd
    cases hstage

/-- A reference that is undefined where a key is stuck is not to a key. -/
theorem Stuck.not_mem_keys {r : String} (h : set.Stuck start key ds) (hr : Unresolved r ds) :
    r ∉ set.keys := by
  obtain ⟨text, values, c, hget, hready, -, hresult⟩ := h
  intro hkey
  cases hparse : Formula.parse text with
  | error ds' =>
    rw [evaluateText, hparse] at hresult
    obtain rfl := Except.error.inj hresult
    exact not_unresolved_of_parse hparse hr
  | ok f =>
    rw [evaluateText_of_parse hparse] at hresult
    cases hrun : (f.evaluate c).1 with
    | ok t =>
      rw [hrun] at hresult
      cases hresult
    | error es =>
      rw [hrun] at hresult
      obtain rfl := Except.error.inj hresult
      obtain ⟨x, hx, hcause⟩ := unresolved_located.1 hr
      obtain ⟨hrefers, hnone⟩ := Formula.undefined_of_evaluate hrun x hx r hcause
      have hneeded : r ∈ set.neededBy key :=
        mem_neededBy.2 ⟨text, f, hget, hparse, hrefers, hkey⟩
      rw [hready.stored r hneeded] at hnone
      cases hnone

/-- The key's formula refers to a primitive by a name that no key has, and is told that there is no
time for it. -/
def MissesPrimitive (set : FormulaSet) (key : String) (ds : List Diagnostic) : Prop :=
  ∃ text f, set.get? key = some text ∧ Formula.parse text = .ok f ∧
    ∃ p : Primitive, p.name ∈ f.references ∧ p.name ∉ set.keys ∧ Unresolved p.name ds

theorem missesPrimitive_of_lacks {f : Formula} {es : List RuntimeError}
    (hget : set.get? key = some text) (hparse : Formula.parse text = .ok f)
    (herror : (f.evaluate c).1 = .error es) (hlacks : Lacks (fun k => k ∉ set.keys) es) :
    ∃ ds, (evaluateText text c).1 = .error ds ∧ set.MissesPrimitive key ds := by
  obtain ⟨x, hx, p, hloose, hcause⟩ := hlacks
  have hrefers := (Formula.undefined_of_evaluate herror x hx p.name hcause).1
  have hresult : (evaluateText text c).1 =
      .error (Diagnostics.withSource text (es.map Located.diagnostic)) := by
    rw [evaluateText_of_parse hparse, herror]
    rfl
  exact ⟨_, hresult, text, f, hget, hparse, p, hrefers, hloose,
    unresolved_located.2 ⟨x, hx, hcause⟩⟩

/-! ## One outcome for each key -/

/-- In two contexts that are ready for a key with the same times its text comes to the same, unless
a primitive is missing in one of them. -/
theorem evaluateText_agrees (h : Ready set start values (set.neededBy key) c)
    (h' : Ready set start values (set.neededBy key) c') (hget : set.get? key = some text) :
    (evaluateText text c').1 = (evaluateText text c).1 ∨
      (∃ ds, (evaluateText text c).1 = .error ds ∧ set.MissesPrimitive key ds) ∨
      ∃ ds, (evaluateText text c').1 = .error ds ∧ set.MissesPrimitive key ds := by
  cases hparse : Formula.parse text with
  | error ds =>
    rw [evaluateText, evaluateText, hparse]
    exact .inl rfl
  | ok f =>
    have htimes : ∀ k ∈ f.references, c'.time? k = c.time? k ∨
        k ∉ set.keys ∧ c.Incidental k ∧ c'.Incidental k := by
      intro k hk
      by_cases hkey : k ∈ set.keys
      · have hneeded : k ∈ set.neededBy key := mem_neededBy.2 ⟨text, f, hget, hparse, hk, hkey⟩
        exact .inl ((h'.stored k hneeded).trans (h.stored k hneeded).symm)
      · exact .inr ⟨hkey, h.outside k hkey, h'.outside k hkey⟩
    rcases Formula.evaluate_agrees h.truthful h'.truthful hparse
      (h'.setting.trans h.setting.symm) htimes with hsame | ⟨es, herror, hlacks⟩ |
      ⟨es, herror, hlacks⟩
    · rw [evaluateText_of_parse hparse, evaluateText_of_parse hparse]
      exact .inl (congrArg (Except.mapError _) hsame)
    · exact .inr (.inl (missesPrimitive_of_lacks hget hparse herror hlacks))
    · exact .inr (.inr (missesPrimitive_of_lacks hget hparse herror hlacks))

theorem Ready.congr {values' : String → Time} (h : Ready set start values needed c)
    (hvalues : ∀ r ∈ needed, values r = values' r) : Ready set start values' needed c where
  truthful := h.truthful
  setting := h.setting
  stored r hr := hvalues r hr ▸ h.stored r hr
  outside := h.outside

/-- A key does not reach two times. -/
theorem Reaches.unique {t' : Time} (h : set.Reaches start key t) (h' : set.Reaches start key t') :
    t = t' := by
  -- Along the first derivation: what the formula needs has one time in both, so its text is
  -- evaluated in contexts that agree, and no primitive is missing as both come to a time.
  induction h generalizing t' with
  | intro values hget hready hresult _ ih =>
    obtain ⟨values', hget', hready', hresult', hneeded'⟩ := h'
    obtain rfl := Option.some.inj (hget.symm.trans hget')
    have hvalues := fun r hr => (ih r hr (hneeded' r hr)).symm
    rcases evaluateText_agrees hready (hready'.congr hvalues) hget with hsame | ⟨ds, herror, -⟩ |
      ⟨ds, herror, -⟩
    · rw [hresult, hresult'] at hsame
      exact (Except.ok.inj hsame).symm
    · rw [hresult] at herror
      cases herror
    · rw [hresult'] at herror
      cases herror

/-- A key that is stuck although it reaches a time misses a primitive. -/
theorem Stuck.missesPrimitive (h : set.Stuck start key ds) (h' : set.Reaches start key t) :
    set.MissesPrimitive key ds := by
  obtain ⟨text, values, c, hget, hready, hneeded, hresult⟩ := h
  obtain ⟨values', hget', hready', hresult', hneeded'⟩ := h'
  obtain rfl := Option.some.inj (hget.symm.trans hget')
  have hvalues := fun r hr => (hneeded' r hr).unique (hneeded r hr)
  rcases evaluateText_agrees (hready'.congr hvalues) hready hget with hsame | ⟨ds', herror, -⟩ |
    ⟨ds', herror, hmisses⟩
  · rw [hresult, hresult'] at hsame
    cases hsame
  · rw [hresult'] at herror
    cases herror
  · rw [hresult] at herror
    obtain rfl := Except.error.inj herror
    exact hmisses

/-! ## Runs -/

/-- How far evaluating a set has come, in any order: the keys that are done have the times that they
reach. -/
structure Underway (set : FormulaSet) (start : Context) (done : List String) (c : Context) :
    Prop where
  truthful : Truthful c
  setting : c.setting = start.setting
  stored : ∀ k ∈ done, ∃ t, c.time? k = some t ∧ set.Reaches start k t
  outside : ∀ k, k ∉ set.keys → c.Incidental k

theorem Underway.ready (h : Underway set start done c) (hneeded : ∀ r ∈ needed, r ∈ done) :
    ∃ values, Ready set start values needed c ∧ ∀ r ∈ needed, set.Reaches start r (values r) := by
  have : Nonempty Time := ⟨⟨0, 0⟩⟩
  have hstored := fun r hr => h.stored r (hneeded r hr)
  choose! values htime hreaches using hstored
  exact ⟨values, ⟨h.truthful, h.setting, htime, h.outside⟩, hreaches⟩

theorem Underway.evaluateText (h : Underway set start done c) (text : String) :
    Underway set start done (evaluateText text c).2 where
  truthful := h.truthful.evaluateText text
  setting := (setting_evaluateText text c).trans h.setting
  stored := stored_evaluateText h.stored text
  outside k hk := by
    have hk := h.outside k hk
    cases hparse : Formula.parse text with
    | error ds =>
      rw [FormulaSet.evaluateText, hparse]
      exact hk
    | ok f =>
      rw [evaluateText_of_parse hparse]
      exact Formula.incidental_evaluate h.truthful hparse hk

theorem Underway.insert (h : Underway set start done c) (hreaches : set.Reaches start key t)
    (hkey : key ∈ set.keys) : Underway set start (done ++ [key]) (c.insert key t) where
  truthful := h.truthful.insert key t
  setting := h.setting
  stored := stored_insert h.stored hreaches
  outside k hk := by
    have hne : key ≠ k := fun hsame => hk (hsame ▸ hkey)
    rw [Incidental, Context.time?_insert, if_neg hne]
    exact h.outside k hk

/-- The rest of an order is evaluated to its end, or up to a key that is stuck. -/
theorem Underway.evaluateKeys (h : Underway set start done c) (hkeys : ∀ k ∈ keys, k ∈ set.keys)
    (hordered : Ordered set.neededBy (done ++ keys)) :
    ∃ reached, Underway set start reached (set.evaluateKeys keys c).2 ∧
      ((set.evaluateKeys keys c).1 = .ok () ∧ reached = done ++ keys ∨
        ∃ key ds, (set.evaluateKeys keys c).1 = .error (.formula key ds) ∧ key ∈ set.keys ∧
          set.Stuck start key ds) := by
  induction keys generalizing done c with
  | nil => exact ⟨done, h, .inl ⟨rfl, (List.append_nil done).symm⟩⟩
  | cons key keys ih =>
    obtain ⟨hkey, hkeys⟩ := List.forall_mem_cons.1 hkeys
    obtain ⟨text, hget⟩ := set.mem_keys.1 hkey
    obtain ⟨values, hready, hneeded⟩ := h.ready (hordered done key keys rfl)
    have hafter := h.evaluateText text
    rw [evaluateKeys_cons hget]
    cases hresult : (FormulaSet.evaluateText text c).1 with
    | error ds =>
      have hstuck : set.Stuck start key ds := ⟨text, values, c, hget, hready, hneeded, hresult⟩
      exact ⟨done, hafter, .inr ⟨key, ds, rfl, hkey, hstuck⟩⟩
    | ok t =>
      have hreaches := Reaches.intro values hget hready hresult hneeded
      have hsnoc : done ++ key :: keys = (done ++ [key]) ++ keys := by simp
      rw [hsnoc] at hordered ⊢
      exact ih (hafter.insert hreaches hkey) hkeys hordered

/-- A set is answered with a cycle, or with times that its keys reach, or with the faults of a key
that is stuck. -/
theorem evaluate_reaches (set : FormulaSet) (date : Date) (place : Place) (sky : Sky) :
    (∀ k, k ∉ set.keys → (set.evaluate (.new date place sky)).2.Incidental k) ∧
    (set.Cyclic ∧ (∃ keys, (set.evaluate (.new date place sky)).1 = .error (.cycle keys)) ∨
      ¬set.Cyclic ∧
        ((∃ results, (set.evaluate (.new date place sky)).1 = .ok results ∧
          ∀ k ∈ set.keys, ∃ t, results.get? k = some t ∧
            set.Reaches (.new date place sky) k t) ∨
        ∃ key ds, (set.evaluate (.new date place sky)).1 = .error (.formula key ds) ∧
          key ∈ set.keys ∧ set.Stuck (.new date place sky) key ds)) := by
  rcases order_cases set with ⟨hcyclic, left, horder⟩ | ⟨hacyclic, order, horder, hperm, hordered⟩
  · rw [evaluate_of_cycle horder]
    exact ⟨fun k _ => .inl rfl, .inl ⟨hcyclic, left, rfl⟩⟩
  · have hstart : Underway set (.new date place sky) [] (.new date place sky) :=
      ⟨.of_forgotten rfl rfl rfl, rfl, fun k hk => absurd hk List.not_mem_nil, fun k _ => .inl rfl⟩
    obtain ⟨reached, hreached, hrun⟩ :=
      hstart.evaluateKeys (fun k hk => hperm.mem_iff.1 hk) hordered
    rw [evaluate_of_order horder]
    refine ⟨hreached.outside, .inr ⟨hacyclic, ?_⟩⟩
    rcases hrun with ⟨hok, hall⟩ | ⟨key, ds, herror, hkey, hstuck⟩
    · rw [hall, List.nil_append] at hreached
      have hstored := fun k hk => hreached.stored k (hperm.mem_iff.2 hk)
      have htimes : ∀ k ∈ set.keys, ∃ t,
          (set.evaluateKeys order (.new date place sky)).2.time? k = some t :=
        fun k hk => (hstored k hk).imp fun t ht => ht.1
      rw [hok]
      refine .inl ⟨_, rfl, fun k hk => ?_⟩
      obtain ⟨t, htime, hreaches⟩ := hstored k hk
      exact ⟨t, (get?_results htimes hk).trans htime, hreaches⟩
    · rw [herror]
      exact .inr ⟨key, ds, rfl, hkey, hstuck⟩

/-- A reference that a run reports as undefined is not to a key. -/
theorem not_mem_keys_of_unresolved {date : Date} {place : Place} {sky : Sky} {r : String}
    (h : (set.evaluate (.new date place sky)).1 = .error (.formula key ds))
    (hr : Unresolved r ds) : r ∉ set.keys := by
  rcases (evaluate_reaches set date place sky).2 with ⟨-, keys, herror⟩ |
    ⟨-, ⟨results, hresults, -⟩ | ⟨key', ds', herror, -, hstuck⟩⟩
  · rw [h] at herror
    cases herror
  · rw [h] at hresults
    cases hresults
  · obtain ⟨rfl, rfl⟩ := SetFault.formula.inj (Except.error.inj (h.symm.trans herror))
    exact hstuck.not_mem_keys hr

/-- After a run there are no times but those of keys and of primitives. -/
theorem key_or_primitive_of_time? {date : Date} {place : Place} {sky : Sky} {k : String}
    (h : (set.evaluate (.new date place sky)).2.time? k = some t) :
    k ∈ set.keys ∨ ∃ p : Primitive, p.name = k := by
  by_cases hk : k ∈ set.keys
  · exact .inl hk
  · rcases (evaluate_reaches set date place sky).1 k hk with hnone | ⟨p, hp, -⟩
    · rw [hnone] at h
      cases h
    · exact .inr ⟨p, hp⟩

/-! ## Sets with the same formulas -/

section Perm

variable (h : set'.entries.Perm set.entries)

include h

theorem mem_keys_of_perm (k : String) : k ∈ set'.keys ↔ k ∈ set.keys := by
  rw [set'.mem_keys, set.mem_keys, Ledger.get?_of_perm h]

theorem refers_of_perm (key other : String) : set'.Refers key other ↔ set.Refers key other := by
  rw [Refers, Refers, Ledger.get?_of_perm h, mem_keys_of_perm h]

theorem cyclic_of_perm : set'.Cyclic ↔ set.Cyclic := by
  have hrefers : set'.Refers = set.Refers :=
    funext fun key => funext fun other => propext (refers_of_perm h key other)
  rw [Cyclic, Cyclic, hrefers]

theorem neededBy_of_perm (key r : String) : r ∈ set'.neededBy key ↔ r ∈ set.neededBy key := by
  rw [mem_neededBy, mem_neededBy, refers_of_perm h]

theorem Ready.of_perm (hready : Ready set' start values (set'.neededBy key) c) :
    Ready set start values (set.neededBy key) c where
  truthful := hready.truthful
  setting := hready.setting
  stored r hr := hready.stored r ((neededBy_of_perm h key r).2 hr)
  outside k hk := hready.outside k fun hk' => hk ((mem_keys_of_perm h k).1 hk')

theorem Reaches.of_perm (hreaches : set'.Reaches start key t) : set.Reaches start key t := by
  induction hreaches with
  | intro values hget hready hresult _ ih =>
    refine .intro values ((Ledger.get?_of_perm h _).symm.trans hget) (hready.of_perm h) hresult ?_
    exact fun r hr => ih r ((neededBy_of_perm h _ r).2 hr)

/-- If the set is evaluated to its end in one order, then in the other as well, to the same times,
or up to a formula that misses a primitive. -/
theorem evaluate_of_perm {date : Date} {place : Place} {sky : Sky} {results : Ledger String Time}
    (hresults : (set.evaluate (.new date place sky)).1 = .ok results) :
    (∃ results', (set'.evaluate (.new date place sky)).1 = .ok results' ∧
      ∀ k ∈ set.keys, ∃ t, results.get? k = some t ∧ results'.get? k = some t) ∨
    ∃ key ds, (set'.evaluate (.new date place sky)).1 = .error (.formula key ds) ∧
      set'.MissesPrimitive key ds := by
  rcases (evaluate_reaches set date place sky).2 with ⟨-, keys, herror⟩ | ⟨hacyclic, hrun⟩
  · rw [hresults] at herror
    cases herror
  rcases hrun with ⟨results₁, hresults₁, htimes⟩ | ⟨key, ds, herror, -⟩
  rotate_left
  · rw [hresults] at herror
    cases herror
  obtain rfl := Except.ok.inj (hresults.symm.trans hresults₁)
  rcases (evaluate_reaches set' date place sky).2 with ⟨hcyclic, -⟩ | ⟨-, hrun'⟩
  · exact absurd ((cyclic_of_perm h).1 hcyclic) hacyclic
  rcases hrun' with ⟨results', hresults', htimes'⟩ | ⟨key, ds, herror', hkey, hstuck⟩
  · refine .inl ⟨results', hresults', fun k hk => ?_⟩
    obtain ⟨t, htime, hreaches⟩ := htimes k hk
    obtain ⟨t', htime', hreaches'⟩ := htimes' k ((mem_keys_of_perm h k).2 hk)
    obtain rfl := hreaches.unique (hreaches'.of_perm h)
    exact ⟨t, htime, htime'⟩
  · -- The other order has passed the key, so that only a missing primitive can be in the way.
    obtain ⟨t, -, hreaches⟩ := htimes key ((mem_keys_of_perm h key).1 hkey)
    exact .inr ⟨key, ds, herror', hstuck.missesPrimitive (hreaches.of_perm h.symm)⟩

end Perm

/-- **The order in which formulas are written makes no difference**, but for names of primitives. On
one date, at one place and under one sky, when nothing is known before, a set and the same formulas
in another order come to the same times, or both fail; or one of them does and the other fails at a
formula that refers to a primitive by a name that is no key, and is told that there is no time for
it. In every order references to keys are defined, and afterwards there are no times but those of
keys and primitives. -/
theorem evaluate_perm (h : set'.entries.Perm set.entries) (date : Date) (place : Place)
    (sky : Sky) :
    ((∃ results results', (set.evaluate (.new date place sky)).1 = .ok results ∧
        (set'.evaluate (.new date place sky)).1 = .ok results' ∧
        ∀ k ∈ set.keys, ∃ t, results.get? k = some t ∧ results'.get? k = some t) ∨
      (∃ e e', (set.evaluate (.new date place sky)).1 = .error e ∧
        (set'.evaluate (.new date place sky)).1 = .error e') ∨
      (∃ results key ds, (set.evaluate (.new date place sky)).1 = .ok results ∧
        (set'.evaluate (.new date place sky)).1 = .error (.formula key ds) ∧
        set'.MissesPrimitive key ds) ∨
      ∃ results key ds, (set'.evaluate (.new date place sky)).1 = .ok results ∧
        (set.evaluate (.new date place sky)).1 = .error (.formula key ds) ∧
        set.MissesPrimitive key ds) ∧
    ∀ s ∈ [set, set'],
      (∀ key ds r, (s.evaluate (.new date place sky)).1 = .error (.formula key ds) →
        Unresolved r ds → r ∉ set.keys) ∧
      ∀ k t, (s.evaluate (.new date place sky)).2.time? k = some t →
        k ∈ set.keys ∨ ∃ p : Primitive, p.name = k := by
  have hnames : ∀ s ∈ [set, set'], ∀ k, k ∈ s.keys ↔ k ∈ set.keys :=
    List.forall_mem_cons.2 ⟨fun k => .rfl, List.forall_mem_singleton.2 (mem_keys_of_perm h)⟩
  refine ⟨?_, fun s hs => ⟨fun key ds r herror hr => ?_, fun k t htime => ?_⟩⟩
  · cases hrun : (set.evaluate (.new date place sky)).1 with
    | ok results =>
      rcases evaluate_of_perm h hrun with ⟨results', hrun', hsame⟩ | ⟨key, ds, hrun', hmisses⟩
      · exact .inl ⟨results, results', rfl, hrun', hsame⟩
      · exact .inr (.inr (.inl ⟨results, key, ds, rfl, hrun', hmisses⟩))
    | error e =>
      cases hrun' : (set'.evaluate (.new date place sky)).1 with
      | error e' => exact .inr (.inl ⟨e, e', rfl, rfl⟩)
      | ok results' =>
        rcases evaluate_of_perm h.symm hrun' with ⟨results, hok, -⟩ | ⟨key, ds, herror, hmisses⟩
        · rw [hrun] at hok
          cases hok
        · exact .inr (.inr (.inr ⟨results', key, ds, rfl, hrun.symm.trans herror, hmisses⟩))
  · rw [← hnames s hs r]
    exact not_mem_keys_of_unresolved herror hr
  · rw [← hnames s hs k]
    exact key_or_primitive_of_time? htime

section Written

def eveningFirst : FormulaSet := .ofList [("dusk", "sunset"), ("candles", "@dusk")]

def eveningLast : FormulaSet := .ofList [("candles", "@dusk"), ("dusk", "sunset")]

/-- The formula that is referred to is evaluated first where it is written last, too. -/
theorem evaluate_eveningSet : eveningLast.entries.Perm eveningFirst.entries ∧
    ∃ results results', (eveningFirst.evaluate steadyDay).1 = .ok results ∧
      (eveningLast.evaluate steadyDay).1 = .ok results' ∧
      ∀ k ∈ eveningFirst.keys, ∃ t, results.get? k = some t ∧ results'.get? k = some t := by
  have hperm : eveningLast.entries.Perm eveningFirst.entries := .swap _ _ _
  have hfirst : (eveningFirst.evaluate steadyDay).1.toOption.isSome = true := by decide +kernel
  have hlast : (eveningLast.evaluate steadyDay).1.toOption.isSome = true := by decide +kernel
  refine ⟨hperm, ?_⟩
  rcases (evaluate_perm hperm _ _ _).1 with hsame | ⟨e, -, herror, -⟩ | ⟨-, key, ds, -, herror, -⟩ |
    ⟨-, key, ds, -, herror, -⟩
  · exact hsame
  · rw [steadyDay, herror] at hfirst
    cases hfirst
  · rw [steadyDay, herror] at hlast
    cases hlast
  · rw [steadyDay, herror] at hfirst
    cases hfirst

def daybreak : FormulaSet := .ofList [("rise", "sunrise"), ("again", "@sunrise")]

def daybreakSwapped : FormulaSet := .ofList [("again", "@sunrise"), ("rise", "sunrise")]

/-- The time of sunrise is remembered when the first formula is evaluated, and only then can the
second refer to it. -/
theorem evaluate_daybreak_swapped : daybreakSwapped.entries.Perm daybreak.entries ∧
    (∃ results, (daybreak.evaluate steadyDay).1 = .ok results) ∧
    ∃ e, (daybreakSwapped.evaluate steadyDay).1 = .error e := by
  have hruns : (daybreak.evaluate steadyDay).1.toOption.isSome = true ∧
      (daybreakSwapped.evaluate steadyDay).1.toOption.isSome = false := by
    decide +kernel
  refine ⟨.swap _ _ _, ?_, ?_⟩
  · cases hrun : (daybreak.evaluate steadyDay).1 with
    | ok results => exact ⟨results, rfl⟩
    | error e =>
      rw [hrun] at hruns
      cases hruns.1
  · cases hrun : (daybreakSwapped.evaluate steadyDay).1 with
    | ok results =>
      rw [hrun] at hruns
      cases hruns.2
    | error e => exact ⟨e, rfl⟩

end Written

end FormulaSet

end Sundial
