import Sundial.Proofs.Evaluation.Dependence
import Sundial.Proofs.FormulaSet.Steps

/-!
# What the keys of a formula set mean

A key means what its formula comes to when every reference in it stands for what the key referred
to means: a time, or the faults of the formula. The meanings hang on the date, the place and the
sky alone. Evaluating a set goes through its order and stores meanings: a settled key has the time
that it means, and no other key is touched, apart from primitives that are remembered. So a whole
evaluation tells what the keys mean, whatever the context knew before (`evaluate_means`).
-/

set_option autoImplicit false

namespace Sundial.FormulaSet

open Context (Kept Reachable Truthful)

variable {set : FormulaSet} {date : Date} {place : Place} {sky : Sky} {key text : String}
  {f : Formula} {t : Time}

/-- Every formula of the set refers to keys of the set only. -/
def Closed (set : FormulaSet) : Prop :=
  ∀ key text f, set.get? key = some text → Formula.parse text = .ok f →
    ∀ r ∈ f.references, r ∈ set.keys

instance (set : FormulaSet) : Decidable set.Closed :=
  decidable_of_iff (∀ e ∈ set.entries,
      ∀ r ∈ ((Formula.parse e.2).toOption.map Formula.references).getD [], r ∈ set.keys) <| by
    constructor
    · intro h key text f hget hparse
      have hentry := h (key, text) (Ledger.mem_of_get? hget)
      rw [hparse] at hentry
      exact hentry
    · intro h e he
      cases hparse : Formula.parse e.2 with
      | error ds => exact fun r hr => absurd hr List.not_mem_nil
      | ok f => exact h e.1 e.2 f (set.get?_of_mem he) hparse

/-- What a formula comes to if its references have the given times and nothing else is known. Its
faults quote the text. -/
def comesTo (date : Date) (place : Place) (sky : Sky) (text : String) (f : Formula)
    (values : String → Time) : Except (List Diagnostic) Time :=
  let times := Ledger.ofList (f.references.map fun r => (r, values r))
  (f.evaluateAfresh date place sky times).1.mapError fun es =>
    Diagnostics.withSource text (es.map Located.diagnostic)

/-- What the formula under a key comes to when every reference stands for the time that its key
means. A key whose formula refers to a failing one means nothing. -/
inductive Means (set : FormulaSet) (date : Date) (place : Place) (sky : Sky) :
    String → Except (List Diagnostic) Time → Prop
  | unread {key text : String} {ds : List Diagnostic} (hget : set.get? key = some text)
      (hparse : Formula.parse text = .error ds) : Means set date place sky key (.error ds)
  | evaluated {key text : String} {f : Formula} (values : String → Time)
      (hget : set.get? key = some text) (hparse : Formula.parse text = .ok f)
      (hvalues : ∀ r ∈ f.references, Means set date place sky r (.ok (values r))) :
      Means set date place sky key (comesTo date place sky text f values)

theorem comesTo_congr {values values' : String → Time}
    (h : ∀ r ∈ f.references, values r = values' r) :
    comesTo date place sky text f values = comesTo date place sky text f values' := by
  have htimes : f.references.map (fun r => (r, values r)) =
      f.references.map fun r => (r, values' r) :=
    List.map_congr_left fun r hr => by rw [h r hr]
  rw [comesTo, comesTo, htimes]

/-- A key does not mean two things. -/
theorem Means.unique {r r' : Except (List Diagnostic) Time}
    (h : set.Means date place sky key r) (h' : set.Means date place sky key r') : r = r' := by
  induction h generalizing r' with
  | unread hget hparse =>
    cases h' with
    | unread hget' hparse' =>
      obtain rfl := Option.some.inj (hget.symm.trans hget')
      rw [hparse] at hparse'
      obtain rfl := Except.error.inj hparse'
      rfl
    | evaluated values' hget' hparse' hvalues' =>
      obtain rfl := Option.some.inj (hget.symm.trans hget')
      rw [hparse] at hparse'
      cases hparse'
  | evaluated values hget hparse hvalues ih =>
    cases h' with
    | unread hget' hparse' =>
      obtain rfl := Option.some.inj (hget.symm.trans hget')
      rw [hparse] at hparse'
      cases hparse'
    | evaluated values' hget' hparse' hvalues' =>
      obtain rfl := Option.some.inj (hget.symm.trans hget')
      obtain rfl := Except.ok.inj (hparse.symm.trans hparse')
      apply comesTo_congr
      intro r hr
      exact Except.ok.inj (ih r hr (hvalues' r hr))

theorem Means.mem_keys {r : Except (List Diagnostic) Time} (h : set.Means date place sky key r) :
    key ∈ set.keys := by
  cases h with
  | unread hget => exact set.mem_keys.2 ⟨_, hget⟩
  | evaluated _ hget => exact set.mem_keys.2 ⟨_, hget⟩

/-- In a list of keys the first that means faults, behind keys that mean times, is no other than
it is. -/
theorem Means.first_unique {before before' after after' : List String} {key' : String}
    {ds ds' : List Diagnostic} (hkey : set.Means date place sky key (.error ds))
    (hkey' : set.Means date place sky key' (.error ds'))
    (hbefore : ∀ k ∈ before, ∃ t, set.Means date place sky k (.ok t))
    (hbefore' : ∀ k ∈ before', ∃ t, set.Means date place sky k (.ok t))
    (h : before ++ key :: after = before' ++ key' :: after') : key = key' ∧ ds = ds' := by
  induction before generalizing before' with
  | nil =>
    cases before' with
    | nil =>
      obtain ⟨rfl, -⟩ := List.cons.inj h
      exact ⟨rfl, Except.error.inj (hkey.unique hkey')⟩
    | cons k before' =>
      obtain ⟨rfl, -⟩ := List.cons.inj h
      obtain ⟨t, ht⟩ := hbefore' key List.mem_cons_self
      cases hkey.unique ht
  | cons k before ih =>
    obtain ⟨hk, hbefore⟩ := List.forall_mem_cons.1 hbefore
    cases before' with
    | nil =>
      obtain ⟨rfl, -⟩ := List.cons.inj h
      obtain ⟨t, ht⟩ := hk
      cases hkey'.unique ht
    | cons k' before' =>
      obtain ⟨-, hrest⟩ := List.cons.inj h
      exact ih hbefore (List.forall_mem_cons.1 hbefore').2 hrest

/-- A key whose references have meanings means what its text comes to with these. -/
theorem exists_means (text : String) (values : String → Time) (keys : List String)
    {found : Option Time} (hget : set.get? key = some text)
    (htext : (Formula.parse text).toOption.map (fun f =>
      (f.references, (comesTo date place sky text f values).toOption)) = some (keys, found))
    (hkeys : ∀ r ∈ keys, set.Means date place sky r (.ok (values r))) :
    ∃ r, set.Means date place sky key r ∧ r.toOption = found := by
  obtain ⟨f, hparse, htold⟩ := Formula.exists_parse htext
  obtain ⟨rfl, rfl⟩ := Prod.mk.inj htold
  exact ⟨_, .evaluated values hget hparse hkeys, rfl⟩

/-- The same for a text that comes to a time. -/
theorem means_of_text (text : String) (values : String → Time) (keys : List String)
    (hget : set.get? key = some text)
    (htext : (Formula.parse text).toOption.map (fun f =>
      (f.references, (comesTo date place sky text f values).toOption)) = some (keys, some t))
    (hkeys : ∀ r ∈ keys, set.Means date place sky r (.ok (values r))) :
    set.Means date place sky key (.ok t) := by
  obtain ⟨r, hmeans, hfound⟩ := exists_means text values keys hget htext hkeys
  cases r with
  | error ds => cases hfound
  | ok u =>
    obtain rfl := Option.some.inj hfound
    exact hmeans

/-! ## Evaluating in order -/

/-- How far evaluating a set has come: the keys that are done have the times that they mean, and
the others are as they were. -/
structure Progress (set : FormulaSet) (start : Context) (done : List String) (c : Context) :
    Prop where
  truthful : Truthful c
  setting : c.setting = start.setting
  stored : ∀ k ∈ done, ∃ t, c.time? k = some t ∧
    set.Means start.date start.place start.sky k (.ok t)
  kept : ∀ k, k ∉ done → Kept start c k

section Progress

variable {start start' c c' : Context} {done keys : List String}

theorem progress_start (h : Truthful c) : Progress set c [] c where
  truthful := h
  setting := rfl
  stored _ hk := absurd hk List.not_mem_nil
  kept _ _ := .inl rfl

theorem Progress.means (h : Progress set start done c) :
    ∀ k ∈ done, ∃ t, set.Means start.date start.place start.sky k (.ok t) := by
  intro k hk
  obtain ⟨t, -, hmeans⟩ := h.stored k hk
  exact ⟨t, hmeans⟩

/-- A text whose references are done comes to what its key means. -/
theorem Progress.means_evaluateText (h : Progress set start done c) (hclosed : set.Closed)
    (hget : set.get? key = some text) (hready : ∀ r ∈ set.neededBy key, r ∈ done) :
    set.Means start.date start.place start.sky key (evaluateText text c).1 := by
  cases hparse : Formula.parse text with
  | error ds =>
    rw [evaluateText, hparse]
    exact .unread hget hparse
  | ok f =>
    have hstored : ∀ r ∈ f.references, ∃ t, c.time? r = some t ∧
        set.Means start.date start.place start.sky r (.ok t) := by
      intro r hr
      have hrefers : set.Refers key r :=
        ⟨text, f, hget, hparse, hr, hclosed key text f hget hparse r hr⟩
      exact h.stored r (hready r (mem_neededBy.2 hrefers))
    have : Nonempty Time := ⟨⟨0, 0⟩⟩
    choose! values htime hmeans using hstored
    have hsame : (f.evaluate c).1 = (f.evaluateAfresh start.date start.place start.sky
        (.ofList (f.references.map fun r => (r, values r)))).1 := by
      refine (h.truthful.evaluate_afresh hparse h.setting).1.trans
        (f.evaluateAfresh_congr _ _ _ ?_).symm
      intro r hr
      have hlisted := Ledger.get?_tabulate (Formula.nodup_firstOccurrences f.mentions) values hr
      exact hlisted.trans (htime r hr).symm
    have hmeaning := Means.evaluated values hget hparse hmeans
    rw [comesTo, ← hsame] at hmeaning
    rw [evaluateText, hparse]
    exact hmeaning

theorem Progress.evaluateText (h : Progress set start done c) (text : String) :
    Progress set start done (evaluateText text c).2 where
  truthful := h.truthful.evaluateText text
  setting := (setting_evaluateText text c).trans h.setting
  stored := stored_evaluateText h.stored text
  kept k hk := (h.kept k hk).trans (kept_evaluateText text c k)

theorem Progress.insert (h : Progress set start done c)
    (hmeans : set.Means start.date start.place start.sky key (.ok t)) :
    Progress set start (done ++ [key]) (c.insert key t) where
  truthful := h.truthful.insert key t
  setting := h.setting
  stored := stored_insert h.stored hmeans
  kept k hk := by
    rw [List.mem_append, not_or, List.mem_singleton] at hk
    rw [Kept, Context.time?_insert, if_neg (Ne.symm hk.2)]
    exact h.kept k hk.1

/-- The rest of an order is evaluated to its end, or up to the first key that means faults. -/
theorem Progress.evaluateKeys (h : Progress set start done c) (hclosed : set.Closed)
    (hkeys : ∀ k ∈ keys, k ∈ set.keys) (hordered : Ordered set.neededBy (done ++ keys)) :
    (set.evaluateKeys keys c).1 = .ok () ∧
        Progress set start (done ++ keys) (set.evaluateKeys keys c).2 ∨
      ∃ before key after ds, keys = before ++ key :: after ∧
        (set.evaluateKeys keys c).1 = .error (.formula key ds) ∧
        set.Means start.date start.place start.sky key (.error ds) ∧
        Progress set start (done ++ before) (set.evaluateKeys keys c).2 := by
  induction keys generalizing done c with
  | nil =>
    rw [List.append_nil]
    exact .inl ⟨rfl, h⟩
  | cons key keys ih =>
    obtain ⟨text, hget⟩ := set.mem_keys.1 (hkeys key List.mem_cons_self)
    have hmeans := h.means_evaluateText hclosed hget (hordered done key keys rfl)
    have hafter := h.evaluateText text
    rw [evaluateKeys_cons hget]
    cases hresult : (FormulaSet.evaluateText text c).1 with
    | error ds =>
      rw [hresult] at hmeans
      exact .inr ⟨[], key, keys, ds, rfl, rfl, hmeans, by simpa using hafter⟩
    | ok t =>
      rw [hresult] at hmeans
      have hsnoc : done ++ key :: keys = (done ++ [key]) ++ keys := by simp
      rw [hsnoc] at hordered ⊢
      rcases ih (hafter.insert hmeans) (fun k hk => hkeys k (List.mem_cons_of_mem _ hk))
        hordered with hok | ⟨before, k, after, ds, hsplit, herror, hfault, hprogress⟩
      · exact .inl hok
      · refine .inr ⟨key :: before, k, after, ds, by rw [hsplit]; rfl, herror, hfault, ?_⟩
        simpa using hprogress

end Progress

/-! ## Whole sets -/

variable {c c' : Context}

/-- Evaluating a set answers a cycle with the context as it was, or follows the order to its end or
to the first key that means faults. -/
theorem evaluate_cases (hclosed : set.Closed) (hc : Truthful c) :
    set.Cyclic ∧ (∃ keys, set.order = .error keys ∧
        set.evaluate c = (.error (.cycle keys), c)) ∨
      ¬set.Cyclic ∧ ∃ order, set.order = .ok order ∧
        ((set.evaluate c).1 = .ok (set.resultsIn (set.evaluate c).2) ∧
          Progress set c set.keys (set.evaluate c).2 ∨
        ∃ before key after ds, order = before ++ key :: after ∧
          (set.evaluate c).1 = .error (.formula key ds) ∧
          set.Means c.date c.place c.sky key (.error ds) ∧
          Progress set c before (set.evaluate c).2) := by
  rcases order_cases set with ⟨hcyclic, left, horder⟩ | ⟨hacyclic, order, horder, hperm, hordered⟩
  · exact .inl ⟨hcyclic, left, horder, evaluate_of_cycle horder c⟩
  · refine .inr ⟨hacyclic, order, horder, ?_⟩
    have hkeys : ∀ k ∈ order, k ∈ set.keys := fun k hk => hperm.mem_iff.1 hk
    rw [evaluate_of_order horder]
    rcases (progress_start hc).evaluateKeys hclosed hkeys hordered with
      ⟨hok, hprogress⟩ | ⟨before, key, after, ds, hsplit, herror, hfault, hprogress⟩
    · rw [List.nil_append] at hprogress
      rw [hok]
      refine .inl ⟨rfl, ?_⟩
      exact ⟨hprogress.truthful, hprogress.setting,
        fun k hk => hprogress.stored k (hperm.mem_iff.2 hk),
        fun k hk => hprogress.kept k fun hmem => hk (hkeys k hmem)⟩
    · rw [herror]
      exact .inr ⟨before, key, after, ds, hsplit, rfl, hfault, by simpa using hprogress⟩

/-- Contexts on one date at one place under one sky give a set the same results, whatever else is
in them. -/
theorem evaluate_fst_eq (hclosed : set.Closed) (hc : Truthful c) (hc' : Truthful c')
    (hsetting : c'.setting = c.setting) : (set.evaluate c').1 = (set.evaluate c).1 := by
  obtain ⟨hdate, hplace, hsky⟩ := Context.setting_eq_iff.1 hsetting
  have hcases' := evaluate_cases hclosed hc'
  rcases evaluate_cases hclosed hc with ⟨hcyclic, keys, horder, heval⟩ |
    ⟨hacyclic, order, horder, hrun⟩
  · rcases hcases' with ⟨-, keys', horder', heval'⟩ | ⟨hacyclic, -⟩
    · obtain rfl := Except.error.inj (horder.symm.trans horder')
      rw [heval, heval']
    · exact absurd hcyclic hacyclic
  rcases hcases' with ⟨hcyclic, -⟩ | ⟨-, order', horder', hrun'⟩
  · exact absurd hcyclic hacyclic
  obtain rfl := Except.ok.inj (horder.symm.trans horder')
  -- The two runs mean the same by every key, so they end in the same way.
  have hsame : ∀ {k r r'}, set.Means c.date c.place c.sky k r →
      set.Means c'.date c'.place c'.sky k r' → r = r' := by
    intro k r r' h h'
    rw [hdate, hplace, hsky] at h'
    exact h.unique h'
  rcases hrun with ⟨hresults, hdone⟩ | ⟨before, key, after, ds, hsplit, herror, hfault, hdone⟩
  · rcases hrun' with ⟨hresults', hdone'⟩ | ⟨-, key', -, ds', -, -, hfault', -⟩
    · rw [hresults, hresults']
      refine congrArg Except.ok (arrange_congr fun k hk => ?_)
      obtain ⟨t, ht, hmeans⟩ := hdone.stored k hk
      obtain ⟨t', ht', hmeans'⟩ := hdone'.stored k hk
      obtain rfl := Except.ok.inj (hsame hmeans hmeans')
      exact ht'.trans ht.symm
    · obtain ⟨t, hmeans⟩ := hdone.means key' hfault'.mem_keys
      cases hsame hmeans hfault'
  · rcases hrun' with ⟨-, hdone'⟩ | ⟨before', key', after', ds', hsplit', herror', hfault', hdone'⟩
    · obtain ⟨t, hmeans⟩ := hdone'.means key hfault.mem_keys
      cases hsame hfault hmeans
    · have hbefore' := hdone'.means
      rw [hdate, hplace, hsky] at hfault' hbefore'
      obtain ⟨rfl, rfl⟩ := hfault.first_unique hfault' hdone.means hbefore'
        (hsplit.symm.trans hsplit')
      rw [herror, herror']

/-- Evaluating a set whose references stay within it tells what its keys mean. It answers a cycle
exactly if there is one, and leaves the context alone then. If all keys mean times, these are the
results, in the order of the set, and they are stored. Otherwise it answers the faults of the first
key in dependency order that means faults; the keys before it have their times stored, and all
others keep what they had. Nothing that the context knew beforehand shows in the results. -/
theorem evaluate_means (hclosed : set.Closed) (hc : Reachable c) :
    ((∃ keys, (set.evaluate c).1 = .error (.cycle keys)) ↔ set.Cyclic) ∧
      (set.Cyclic → (set.evaluate c).2 = c) ∧
      (¬set.Cyclic → ∀ values : String → Time,
        (∀ k ∈ set.keys, set.Means c.date c.place c.sky k (.ok (values k))) →
          (∃ results, (set.evaluate c).1 = .ok results ∧
            results.entries = set.keys.map fun k => (k, values k)) ∧
          ∀ k ∈ set.keys, (set.evaluate c).2.time? k = some (values k)) ∧
      (¬set.Cyclic → (¬∃ values : String → Time,
        ∀ k ∈ set.keys, set.Means c.date c.place c.sky k (.ok (values k))) →
          ∃ before key after ds, set.order = .ok (before ++ key :: after) ∧
            set.Means c.date c.place c.sky key (.error ds) ∧
            (set.evaluate c).1 = .error (.formula key ds) ∧
            (∀ k ∈ before, ∃ t, set.Means c.date c.place c.sky k (.ok t) ∧
              (set.evaluate c).2.time? k = some t) ∧
            ∀ k, k ∉ before → Kept c (set.evaluate c).2 k) ∧
      ∀ c', Reachable c' → c'.setting = c.setting →
        (set.evaluate c').1 = (set.evaluate c).1 := by
  have hsame : ∀ c', Reachable c' → c'.setting = c.setting →
      (set.evaluate c').1 = (set.evaluate c).1 :=
    fun c' hc' hsetting => evaluate_fst_eq hclosed hc.truthful hc'.truthful hsetting
  rcases evaluate_cases hclosed hc.truthful with ⟨hcyclic, keys, -, heval⟩ |
    ⟨hacyclic, order, horder, hrun⟩
  · rw [heval]
    exact ⟨⟨fun _ => hcyclic, fun _ => ⟨keys, rfl⟩⟩, fun _ => rfl, absurd hcyclic,
      absurd hcyclic, by simpa [heval] using hsame⟩
  refine ⟨?_, fun hcyclic => absurd hcyclic hacyclic, fun _ => ?_, fun _ hno => ?_, hsame⟩
  · constructor
    · rintro ⟨keys, hkeys⟩
      rcases hrun with ⟨hresults, -⟩ | ⟨_, _, _, _, -, herror, -⟩
      · rw [hresults] at hkeys
        cases hkeys
      · rw [herror] at hkeys
        cases hkeys
    · exact fun hcyclic => absurd hcyclic hacyclic
  · intro values hvalues
    rcases hrun with ⟨hresults, hdone⟩ | ⟨-, key, -, ds, -, -, hfault, -⟩
    · have htimes : ∀ k ∈ set.keys, (set.evaluate c).2.time? k = some (values k) := by
        intro k hk
        obtain ⟨t, ht, hmeans⟩ := hdone.stored k hk
        rw [ht, Except.ok.inj (hmeans.unique (hvalues k hk))]
      exact ⟨⟨_, hresults, entries_results htimes⟩, htimes⟩
    · cases hfault.unique (hvalues key hfault.mem_keys)
  · rcases hrun with ⟨-, hdone⟩ | ⟨before, key, after, ds, rfl, herror, hfault, hdone⟩
    · have : Nonempty Time := ⟨⟨0, 0⟩⟩
      choose! values _ hmeans using hdone.stored
      exact absurd ⟨values, hmeans⟩ hno
    · refine ⟨before, key, after, ds, horder, hfault, herror, fun k hk => ?_, hdone.kept⟩
      obtain ⟨t, ht, hmeans⟩ := hdone.stored k hk
      exact ⟨t, hmeans, ht⟩

section Dusk

/-- The first formula refers to the second. -/
def candleSet : FormulaSet := .ofList [("candles", "@dusk"), ("dusk", "sunset")]

/-- A time from elsewhere under the key of a formula is replaced before anything refers to it. -/
theorem evaluate_candleSet : candleSet.Closed ∧ Reachable (steadyDay.insert "dusk" ⟨7, 0⟩) ∧
    ∃ results, (candleSet.evaluate (steadyDay.insert "dusk" ⟨7, 0⟩)).1 = .ok results ∧
      results.entries = [("candles", ⟨64800, 0⟩), ("dusk", ⟨64800, 0⟩)] := by
  have hclosed : candleSet.Closed := by decide +kernel
  have hacyclic : ¬candleSet.Cyclic := by decide +kernel
  have hreachable : Reachable (steadyDay.insert "dusk" ⟨7, 0⟩) :=
    .step (.new _ _ _) (.insert _ _ _)
  have hdusk : candleSet.Means steadyDay.date steadyDay.place steadySky "dusk"
      (.ok ⟨64800, 0⟩) :=
    means_of_text "sunset" (fun _ => ⟨64800, 0⟩) [] (by decide +kernel) (by decide +kernel)
      (by simp)
  have hcandles : candleSet.Means steadyDay.date steadyDay.place steadySky "candles"
      (.ok ⟨64800, 0⟩) :=
    means_of_text "@dusk" (fun _ => ⟨64800, 0⟩) ["dusk"] (by decide +kernel) (by decide +kernel)
      (by simpa using hdusk)
  obtain ⟨-, -, htimes, -⟩ := evaluate_means hclosed hreachable
  have hkeys : ∀ k ∈ candleSet.keys, candleSet.Means steadyDay.date steadyDay.place steadySky k
      (.ok ⟨64800, 0⟩) := List.forall_mem_cons.2 ⟨hcandles, List.forall_mem_singleton.2 hdusk⟩
  exact ⟨hclosed, hreachable, (htimes hacyclic (fun _ => ⟨64800, 0⟩) hkeys).1⟩

def guardedSet : FormulaSet := .ofList [("dusk", "midpoint(if(1h>2h)\x7bsunset\x7d,sunset)")]

/-- A call that no text is read as: three hours that are written `1h`. -/
def forgedDusk : Formula :=
  .call ⟨1, 1⟩ .midpoint [.ifThen ⟨1, 10⟩
    (.condition ⟨1, 13⟩ .greater (.duration ⟨1, 13⟩ 180.0 "1h") (.duration ⟨1, 16⟩ 120.0 "2h"))
    (.primitive ⟨1, 20⟩ .sunset), .primitive ⟨1, 28⟩ .sunset]

def afterForgedDusk : Context := (forgedDusk.evaluate steadyDay).2

/-- After a formula that is read from no text a set can have results that its keys do not mean: here
the condition of the only formula is false, but a result is known for the text of the call. -/
theorem evaluate_guardedSet_after_forgedDusk : guardedSet.Closed ∧ ¬guardedSet.Cyclic ∧
    (∃ ds, guardedSet.Means afterForgedDusk.date afterForgedDusk.place afterForgedDusk.sky "dusk"
      (.error ds)) ∧
    ∃ results, (guardedSet.evaluate afterForgedDusk).1 = .ok results := by
  refine ⟨by decide +kernel, by decide +kernel, ?_, ?_⟩
  · have hnone : ∃ r, guardedSet.Means afterForgedDusk.date afterForgedDusk.place
        afterForgedDusk.sky "dusk" r ∧ r.toOption = none :=
      exists_means "midpoint(if(1h>2h)\x7bsunset\x7d,sunset)" (fun _ => ⟨0, 0⟩) []
        (by decide +kernel) (by decide +kernel) (by simp)
    obtain ⟨r, hmeans, hfound⟩ := hnone
    cases r with
    | error ds => exact ⟨ds, hmeans⟩
    | ok t => cases hfound
  · have hresult : (guardedSet.evaluate afterForgedDusk).1.toOption.isSome = true := by
      decide +kernel
    cases heval : (guardedSet.evaluate afterForgedDusk).1 with
    | error e =>
      rw [heval] at hresult
      cases hresult
    | ok results => exact ⟨results, rfl⟩

end Dusk

end Sundial.FormulaSet
