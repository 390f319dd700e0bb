import Sundial.Proofs.FormulaSet.Countdown

/-!
# Formula sets in order

Settling the keys of a set comes to an end with each settled key behind those it needs, and with
what needs a key that is not settled still waiting. So an order that leaves nothing waiting has
every key behind those it refers to, and what is left waiting otherwise are the keys that lead into
cycles (`order_topological`).
-/

set_option autoImplicit false

namespace Sundial.FormulaSet

variable {set : FormulaSet} {key other : String}

/-- What `order` answers, with what settling the keys of the set comes to. -/
theorem order_eq (set : FormulaSet) : ∃ done waiting,
    Settling set.neededBy set.keys done [] waiting ∧
      set.order = if waiting = [] then .ok done else .error (waiting.map Prod.fst) := by
  have hrun := (settling_start set.neededBy set.keys).run set.nodup_neededBy
  rw [List.nil_append] at hrun
  exact ⟨_, _, hrun, order_eq_settle set⟩

section Outcome

variable {done : List String} {waiting : List Waiting}

/-- From a settled key references lead to keys settled earlier. -/
theorem Settling.idxOf_lt (h : Settling set.neededBy set.keys done [] waiting)
    (hkey : key ∈ done) (hrefers : set.Refers key other) :
    other ∈ done ∧ done.idxOf other < done.idxOf key := by
  have hnodup : done.Nodup := by
    have hall := h.perm.nodup_iff.2 set.nodup
    rw [List.append_assoc] at hall
    exact hall.of_append_left
  obtain ⟨before, after, rfl⟩ := List.append_of_mem hkey
  have hother : other ∈ before := h.ordered before key after rfl other (mem_neededBy.2 hrefers)
  refine ⟨List.mem_append_left _ hother, ?_⟩
  have hfresh : key ∉ before := by
    intro hmem
    exact List.disjoint_of_nodup_append hnodup hmem List.mem_cons_self
  rw [List.idxOf_append_of_mem hother, List.idxOf_append_of_notMem hfresh]
  have hlt := List.idxOf_lt_length_of_mem hother
  omega

theorem Settling.idxOf_lt_of_transGen (h : Settling set.neededBy set.keys done [] waiting)
    (hkey : key ∈ done) (hpath : Relation.TransGen set.Refers key other) :
    other ∈ done ∧ done.idxOf other < done.idxOf key := by
  induction hpath with
  | single hrefers => exact h.idxOf_lt hkey hrefers
  | tail _ hrefers ih =>
    obtain ⟨hmem, hlt⟩ := h.idxOf_lt ih.1 hrefers
    exact ⟨hmem, hlt.trans ih.2⟩

/-- Settled keys do not lead into cycles. -/
theorem Settling.not_leadsIntoCycle (h : Settling set.neededBy set.keys done [] waiting)
    (hkey : key ∈ done) : ¬set.LeadsIntoCycle key := by
  rintro ⟨other, hreach, hcycle⟩
  have hother : other ∈ done := by
    rcases Relation.reflTransGen_iff_eq_or_transGen.1 hreach with rfl | hpath
    · exact hkey
    · exact (h.idxOf_lt_of_transGen hkey hpath).1
  exact lt_irrefl _ (h.idxOf_lt_of_transGen hother hcycle).2

/-- What is left waiting refers to something that is left waiting. -/
theorem Settling.exists_refers (h : Settling set.neededBy set.keys done [] waiting)
    (hkey : key ∈ waiting.map Prod.fst) : ∃ r ∈ waiting.map Prod.fst, set.Refers key r := by
  have hwaiting := hkey
  simp only [h.waiting_eq, unsettled, List.mem_map, List.mem_filter] at hwaiting
  obtain ⟨-, ⟨⟨k, -, rfl⟩, hnonempty⟩, rfl⟩ := hwaiting
  have hne : (set.neededBy k).filter (fun r => r ∉ done) ≠ [] := by simpa using hnonempty
  obtain ⟨r, hr⟩ := List.exists_mem_of_ne_nil _ hne
  obtain ⟨hneeded, hnotDone⟩ := List.mem_filter.1 hr
  have hrefers := mem_neededBy.1 hneeded
  refine ⟨r, ?_, hrefers⟩
  have hall := h.perm.mem_iff.2 hrefers.mem_right
  simpa [of_decide_eq_true hnotDone] using hall

theorem Settling.mem_waiting_iff (h : Settling set.neededBy set.keys done [] waiting) :
    key ∈ waiting.map Prod.fst ↔ set.LeadsIntoCycle key := by
  constructor
  · exact leadsIntoCycle_of_forall_mem fun k hk => h.exists_refers hk
  · rintro hleads
    have hkey : key ∈ set.keys := by
      obtain ⟨other, hreach, hcycle⟩ := hleads
      rcases hreach.cases_head with rfl | ⟨_, hrefers, -⟩
      · obtain ⟨_, hrefers, -⟩ := Relation.TransGen.head'_iff.1 hcycle
        exact hrefers.mem_left
      · exact hrefers.mem_left
    have hall := h.perm.mem_iff.2 hkey
    rw [List.append_nil, List.mem_append] at hall
    exact hall.resolve_left fun hdone => h.not_leadsIntoCycle hdone hleads

theorem Settling.waiting_sublist (h : Settling set.neededBy set.keys done [] waiting) :
    (waiting.map Prod.fst).Sublist set.keys := by
  rw [h.waiting_eq, unsettled]
  simpa [Function.comp_def] using (List.filter_sublist (l := set.keys.map fun k =>
    (k, (set.neededBy k).filter fun r => r ∉ done))).map Prod.fst

/-- Something is left waiting exactly if the set is cyclic. -/
theorem Settling.waiting_ne_nil_iff (h : Settling set.neededBy set.keys done [] waiting) :
    waiting ≠ [] ↔ set.Cyclic := by
  constructor
  · intro hne
    obtain ⟨w, hw⟩ := List.exists_mem_of_ne_nil _ hne
    exact (h.mem_waiting_iff.1 (List.mem_map_of_mem hw)).cyclic
  · rintro ⟨k, hcycle⟩ rfl
    simpa using h.mem_waiting_iff.2 ⟨k, .refl, hcycle⟩

end Outcome

/-- A set is cyclic and has no order, or it has an order, with every key behind those it needs. -/
theorem order_cases (set : FormulaSet) :
    set.Cyclic ∧ (∃ left, set.order = .error left) ∨
      ¬set.Cyclic ∧ ∃ keys, set.order = .ok keys ∧ keys.Perm set.keys ∧
        Ordered set.neededBy keys := by
  obtain ⟨done, waiting, h, horder⟩ := order_eq set
  rw [← h.waiting_ne_nil_iff]
  by_cases hwaiting : waiting = []
  · rw [if_pos hwaiting] at horder
    exact .inr ⟨not_not.2 hwaiting, done, horder, by simpa [hwaiting] using h.perm, h.ordered⟩
  · rw [if_neg hwaiting] at horder
    exact .inl ⟨hwaiting, _, horder⟩

/-- An order has every key of the set once. -/
theorem perm_of_order {keys : List String} (h : set.order = .ok keys) : keys.Perm set.keys := by
  rcases order_cases set with ⟨-, left, horder⟩ | ⟨-, keys', horder, hperm, -⟩
  · rw [h] at horder
    cases horder
  · obtain rfl := Except.ok.inj (h.symm.trans horder)
    exact hperm

/-- A set without an order is cyclic, and only such a set. -/
theorem toOption_order_eq_none_iff : set.order.toOption = none ↔ set.Cyclic := by
  rcases order_cases set with ⟨hcyclic, left, horder⟩ | ⟨hacyclic, keys, horder, -⟩
  · rw [horder]
    exact iff_of_true rfl hcyclic
  · rw [horder]
    exact iff_of_false nofun hacyclic

instance (set : FormulaSet) : Decidable set.Cyclic :=
  decidable_of_iff _ toOption_order_eq_none_iff

/-- The keys of a set are ordered exactly if the set has no cycle. An order has every key once and
behind all that its formula refers to; otherwise the answer is the keys that lead into a cycle, in
the order of the set, and there are some. -/
theorem order_topological (set : FormulaSet) :
    ((∃ keys, set.order = .ok keys) ↔ ¬set.Cyclic) ∧
      (∀ keys, set.order = .ok keys → keys.Perm set.keys ∧
        ∀ before key after, keys = before ++ key :: after →
          ∀ r, set.Refers key r → r ∈ before) ∧
      ∀ left, set.order = .error left →
        left ≠ [] ∧ left.Sublist set.keys ∧ ∀ key, key ∈ left ↔ set.LeadsIntoCycle key := by
  obtain ⟨done, waiting, h, horder⟩ := order_eq set
  rw [horder, ← h.waiting_ne_nil_iff]
  by_cases hwaiting : waiting = []
  · rw [if_pos hwaiting]
    have hperm := h.perm
    subst hwaiting
    refine ⟨by simp, ?_, by simp⟩
    intro keys hkeys
    obtain rfl := Except.ok.inj hkeys
    refine ⟨by simpa using hperm, ?_⟩
    intro before key after hsplit r hrefers
    exact h.ordered before key after hsplit r (mem_neededBy.2 hrefers)
  · rw [if_neg hwaiting]
    refine ⟨by simp [hwaiting], by simp, ?_⟩
    intro left hleft
    obtain rfl := Except.error.inj hleft
    exact ⟨by simpa using hwaiting, h.waiting_sublist, fun key => h.mem_waiting_iff⟩

end Sundial.FormulaSet
