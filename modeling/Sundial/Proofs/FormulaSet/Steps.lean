import Sundial.Proofs.Evaluation.Effects
import Sundial.Proofs.FormulaSet.Keys
import Sundial.Proofs.FormulaSet.Ordering

/-!
# Steps of evaluating a set

How the evaluation of a set goes on with the outcome of one formula, and what each formula leaves in
the context: date, place and sky stay, and a time that is stored stays under its key. What is stored
and what is entered among the results are the same (`get?_collect`), so the results of a set are the
times that the context has for its keys afterwards (`evaluate_of_order`). A set that is evaluated to
its end has a time for every key (`exists_time_of_evaluate`).
-/

set_option autoImplicit false

namespace Sundial.FormulaSet

open Context (Kept)

variable {set : FormulaSet} {c : Context} {key text : String} {done keys order : List String}

/-! ## One formula -/

theorem evaluateText_of_parse {f : Formula} (hparse : Formula.parse text = .ok f) (c : Context) :
    evaluateText text c = ((f.evaluate c).1.mapError fun es =>
      Diagnostics.withSource text (es.map Located.diagnostic), (f.evaluate c).2) := by
  rw [evaluateText, hparse]

/-- Evaluating a text leaves what is stored. -/
theorem kept_evaluateText (text : String) (c : Context) (key : String) :
    Kept c (evaluateText text c).2 key := by
  rw [evaluateText]
  cases Formula.parse text with
  | error ds => exact .inl rfl
  | ok f => exact f.kept_evaluate c key

theorem setting_evaluateText (text : String) (c : Context) :
    (evaluateText text c).2.setting = c.setting := by
  rw [evaluateText]
  cases Formula.parse text with
  | error ds => rfl
  | ok f => exact f.setting_evaluate c

/-! ## What is stored -/

section Stored

variable {good : String → Time → Prop} {t : Time}

theorem stored_evaluateText (h : ∀ k ∈ done, ∃ u, c.time? k = some u ∧ good k u) (text : String) :
    ∀ k ∈ done, ∃ u, (evaluateText text c).2.time? k = some u ∧ good k u := by
  intro k hk
  obtain ⟨u, hu, hgood⟩ := h k hk
  exact ⟨u, (kept_evaluateText text c k).time? hu, hgood⟩

/-- With a good time for one more key, the keys that had good times have them still. -/
theorem stored_insert (h : ∀ k ∈ done, ∃ u, c.time? k = some u ∧ good k u) (hgood : good key t) :
    ∀ k ∈ done ++ [key], ∃ u, (c.insert key t).time? k = some u ∧ good k u := by
  intro k hk
  rw [Context.time?_insert]
  by_cases hkey : key = k
  · exact ⟨t, if_pos hkey, hkey ▸ hgood⟩
  · rw [if_neg hkey]
    have hdone : k ∈ done := by simpa [Ne.symm hkey] using hk
    exact h k hdone

/-- After a formula is evaluated and its time is stored, its key has a time, and so has every key
that had one. -/
theorem stored_step (h : ∀ k ∈ done, ∃ u, c.time? k = some u) (text key : String) (t : Time) :
    ∀ k ∈ done ++ [key], ∃ u, ((evaluateText text c).2.insert key t).time? k = some u := by
  have hstored : ∀ k ∈ done, ∃ u, c.time? k = some u ∧ True := by simpa using h
  simpa using stored_insert (stored_evaluateText hstored text) (trivial : True)

end Stored

/-! ## The keys of an order -/

theorem setting_evaluateKeys (set : FormulaSet) (keys : List String) (c : Context) :
    (set.evaluateKeys keys c).2.setting = c.setting := by
  induction keys generalizing c with
  | nil => rfl
  | cons key keys ih =>
    cases hget : set.get? key with
    | none =>
      rw [evaluateKeys_of_none hget]
      exact ih c
    | some text =>
      rw [evaluateKeys_cons hget]
      cases (evaluateText text c).1 with
      | error ds => exact setting_evaluateText text c
      | ok t => exact (ih _).trans (setting_evaluateText text c)

/-- Keys that are evaluated to their end have times. -/
theorem stored_evaluateKeys (h : ∀ k ∈ done, ∃ u, c.time? k = some u)
    (hkeys : ∀ k ∈ keys, k ∈ set.keys) (hok : (set.evaluateKeys keys c).1 = .ok ()) :
    ∀ k ∈ done ++ keys, ∃ u, (set.evaluateKeys keys c).2.time? k = some u := by
  induction keys generalizing done c with
  | nil =>
    rw [List.append_nil]
    exact h
  | cons key keys ih =>
    obtain ⟨text, hget⟩ := set.mem_keys.1 (hkeys key List.mem_cons_self)
    rw [evaluateKeys_cons hget] at hok ⊢
    cases hresult : (evaluateText text c).1 with
    | error ds =>
      rw [hresult] at hok
      cases hok
    | ok t =>
      rw [hresult] at hok
      have hrest := ih (stored_step h text key t)
        (fun k hk => hkeys k (List.mem_cons_of_mem _ hk)) hok
      simpa using hrest

section Results

variable {results results' : Ledger String Time}

/-- The time of a formula is stored and entered under the same key. -/
theorem entered_step (h : ∀ k ∈ done, ∃ u, c.time? k = some u ∧ results.get? k = some u)
    (text key : String) (t : Time) :
    ∀ k ∈ done ++ [key], ∃ u, ((evaluateText text c).2.insert key t).time? k = some u ∧
      (results.put key t).get? k = some u := by
  intro k hk
  rw [Context.time?_insert, Ledger.get?_put]
  by_cases hkey : key = k
  · exact ⟨t, if_pos hkey, if_pos hkey⟩
  · rw [if_neg hkey, if_neg hkey]
    have hdone : k ∈ done := by simpa [Ne.symm hkey] using hk
    exact stored_evaluateText h text k hdone

/-- Keys that are evaluated to their end have their times among the results as in the context, if
the keys that were done before had them so. -/
theorem get?_collect (h : ∀ k ∈ done, ∃ u, c.time? k = some u ∧ results.get? k = some u)
    (hkeys : ∀ k ∈ keys, k ∈ set.keys) (hok : (set.collect keys results c).1 = .ok results') :
    ∀ k ∈ done ++ keys, results'.get? k = (set.collect keys results c).2.time? k := by
  induction keys generalizing done results c with
  | nil =>
    obtain rfl := Except.ok.inj hok
    intro k hk
    rw [List.append_nil] at hk
    obtain ⟨u, hu, hresult⟩ := h k hk
    exact hresult.trans hu.symm
  | cons key keys ih =>
    obtain ⟨text, hget⟩ := set.mem_keys.1 (hkeys key List.mem_cons_self)
    rw [collect_cons hget] at hok ⊢
    cases htext : (evaluateText text c).1 with
    | error ds =>
      rw [htext] at hok
      cases hok
    | ok t =>
      rw [htext] at hok
      have hrest := ih (entered_step h text key t)
        (fun k hk => hkeys k (List.mem_cons_of_mem _ hk)) hok
      simpa using hrest

end Results

/-! ## Whole sets -/

/-- The times that a context has for the keys of the set, in the order of the set. -/
def resultsIn (set : FormulaSet) (c : Context) : Ledger String Time := set.arrange c.times

theorem arrange_congr {results results' : Ledger String Time}
    (h : ∀ k ∈ set.keys, results'.get? k = results.get? k) :
    set.arrange results' = set.arrange results := by
  rw [arrange, arrange]
  congr 1
  exact List.filterMap_congr fun k hk => by rw [h k hk]

/-- The results of a set are the times that the context has for its keys when it is evaluated. -/
theorem evaluate_of_order (horder : set.order = .ok order) (c : Context) :
    set.evaluate c = ((set.evaluateKeys order c).1.map fun _ =>
      set.resultsIn (set.evaluateKeys order c).2, (set.evaluateKeys order c).2) := by
  have hperm : order.Perm set.keys := perm_of_order horder
  rw [evaluate_eq_collect horder, evaluateKeys]
  cases hrun : (set.collect order .empty c).1 with
  | error e => rfl
  | ok results =>
    have hnone : ∀ k ∈ ([] : List String), ∃ u, c.time? k = some u ∧
        (Ledger.empty : Ledger String Time).get? k = some u :=
      fun k hk => absurd hk List.not_mem_nil
    have hsame := get?_collect hnone (fun k hk => hperm.mem_iff.1 hk) hrun
    have harrange : set.arrange results = set.resultsIn (set.collect order .empty c).2 :=
      arrange_congr fun k hk => hsame k (hperm.mem_iff.2 hk)
    rw [Except.map, Except.map, Except.map, harrange]

theorem setting_evaluate (set : FormulaSet) (c : Context) :
    (set.evaluate c).2.setting = c.setting := by
  cases horder : set.order with
  | error keys => rw [evaluate_of_cycle horder]
  | ok order =>
    rw [evaluate_eq_collect horder]
    exact set.setting_evaluateKeys order c

/-- The results of a set whose keys all have times. -/
theorem entries_results {values : String → Time}
    (h : ∀ k ∈ set.keys, c.time? k = some (values k)) :
    (set.resultsIn c).entries = set.keys.map fun k => (k, values k) := by
  have hfound : (set.keys.filterMap fun k => (c.times.get? k).map fun t => (k, t)) =
      set.keys.map fun k => (k, values k) := by
    rw [← List.filterMap_eq_map]
    apply List.filterMap_congr
    intro k hk
    have htime : c.times.get? k = some (values k) := h k hk
    rw [htime]
    rfl
  rw [resultsIn, arrange, hfound]
  apply Ledger.entries_ofList
  simpa [Function.comp_def, Ledger.keys] using set.nodup

/-- The results of a set whose keys all have times are under all its keys. -/
theorem keys_results (h : ∀ k ∈ set.keys, ∃ t, c.time? k = some t) :
    (set.resultsIn c).keys = set.keys := by
  have : Nonempty Time := ⟨⟨0, 0⟩⟩
  choose! values hvalues using h
  rw [Ledger.keys, entries_results hvalues, List.map_map]
  exact List.map_id _

theorem get?_results (h : ∀ k ∈ set.keys, ∃ t, c.time? k = some t) (hkey : key ∈ set.keys) :
    (set.resultsIn c).get? key = c.time? key := by
  have : Nonempty Time := ⟨⟨0, 0⟩⟩
  choose! values hvalues using h
  have hmem : (key, values key) ∈ (set.resultsIn c).entries := by
    rw [entries_results hvalues]
    exact List.mem_map_of_mem hkey
  rw [hvalues key hkey]
  exact Ledger.get?_of_mem _ hmem

/-- A set that is evaluated to its end has results for all its keys, and they are stored. -/
theorem exists_time_of_evaluate {results : Ledger String Time}
    (h : (set.evaluate c).1 = .ok results) : results.keys = set.keys ∧
      ∀ k ∈ set.keys, ∃ t, results.get? k = some t ∧ (set.evaluate c).2.time? k = some t := by
  rcases order_cases set with ⟨-, left, horder⟩ | ⟨-, order, horder, hperm, -⟩
  · rw [evaluate_of_cycle horder] at h
    cases h
  · rw [evaluate_of_order horder] at h ⊢
    cases hrun : (set.evaluateKeys order c).1 with
    | error e =>
      rw [hrun] at h
      cases h
    | ok _ =>
      rw [hrun] at h
      obtain rfl := Except.ok.inj h
      have hnone : ∀ k ∈ ([] : List String), ∃ t, c.time? k = some t :=
        fun k hk => absurd hk List.not_mem_nil
      have hstored : ∀ k ∈ set.keys, ∃ t, (set.evaluateKeys order c).2.time? k = some t :=
        fun k hk => stored_evaluateKeys hnone (fun k hk => hperm.mem_iff.1 hk) hrun k
          (hperm.mem_iff.2 hk)
      refine ⟨keys_results hstored, fun k hk => ?_⟩
      obtain ⟨t, ht⟩ := hstored k hk
      exact ⟨t, (get?_results hstored hk).trans ht, ht⟩

end Sundial.FormulaSet
