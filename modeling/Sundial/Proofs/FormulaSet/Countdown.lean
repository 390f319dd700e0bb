import Sundial.Proofs.FormulaSet.Dependencies
import Sundial.Proofs.FormulaSet.Settling

/-!
# Counting down

The counter of a key is the length of the list of keys that it waits for, and the dependents of a
key are the keys whose lists have it. So lowering the counters of the dependents is taking the
settled key off the lists: counting down settles the keys as `settle` does
(`Settling.countDown_eq`), no counter is lowered that is at zero (`sound_links`), and `order` can be
read off the waiting lists (`order_eq_settle`).
-/

set_option autoImplicit false

namespace Sundial.FormulaSet

variable {needed : String → List String} {keys done queue : List String} {waiting : List Waiting}
  {key : String}

/-! ## Lowering counters -/

/-- All keys have counters above zero when their turn to be lowered comes. -/
def Lowerable : List String → Counters → Prop
  | [], _ => True
  | key :: keys, c => (∃ n, c.get? key = some (n + 1)) ∧ Lowerable keys (c.lower key).2

/-- Counting down from here on lowers no counter that is at zero. -/
inductive Sound (dependents : Ledger String (List String)) : List String → Counters → Prop
  | finished (c : Counters) : Sound dependents [] c
  | settled {key : String} {queue : List String} {c : Counters}
      (h : Lowerable ((dependents.get? key).getD []) c)
      (hrest : Sound dependents
        (queue ++ (Counters.lowerAll ((dependents.get? key).getD []) c).1)
        (Counters.lowerAll ((dependents.get? key).getD []) c).2) :
      Sound dependents (key :: queue) c

theorem lower_tabulate (hkeys : keys.Nodup) (count : String → Nat) (hkey : key ∈ keys)
    (hpos : 0 < count key) :
    Counters.lower (.tabulate keys count) key = (if count key = 1 then [key] else [],
      .tabulate keys (Function.update count key (count key - 1))) := by
  obtain ⟨n, hn⟩ := Nat.exists_eq_add_one.2 hpos
  rw [Counters.lower, Ledger.get?_tabulate hkeys count hkey, ← Ledger.put_tabulate hkeys count hkey,
    hn]
  cases n with
  | zero => rfl
  | succ n => rfl

/-- Lowering the counters of different keys takes one off each, and releases those that had one. -/
theorem lowerAll_tabulate (hkeys : keys.Nodup) {ds : List String} (hds : ds.Nodup)
    (count : String → Nat) (hmem : ∀ d ∈ ds, d ∈ keys) (hpos : ∀ d ∈ ds, 0 < count d) :
    Lowerable ds (.tabulate keys count) ∧
      Counters.lowerAll ds (.tabulate keys count) = (ds.filter fun d => count d = 1,
        .tabulate keys fun k => if k ∈ ds then count k - 1 else count k) := by
  induction ds generalizing count with
  | nil => exact ⟨trivial, by simp [Counters.lowerAll]⟩
  | cons d ds ih =>
    obtain ⟨hd, hds⟩ := List.nodup_cons.1 hds
    rw [List.forall_mem_cons] at hmem hpos
    -- The counters of the other keys are still as they were.
    have hother : ∀ e ∈ ds, Function.update count d (count d - 1) e = count e := by
      intro e he
      have hne : e ≠ d := fun heq => hd (heq ▸ he)
      exact Function.update_of_ne hne _ _
    have hpos' : ∀ e ∈ ds, 0 < Function.update count d (count d - 1) e := fun e he => by
      rw [hother e he]
      exact hpos.2 e he
    obtain ⟨hlowerable, hlowered⟩ := ih hds _ hmem.2 hpos'
    have hlower := lower_tabulate hkeys count hmem.1 hpos.1
    have hget := Ledger.get?_tabulate hkeys count hmem.1
    refine ⟨⟨⟨count d - 1, ?_⟩, ?_⟩, ?_⟩
    · rw [hget, Nat.sub_add_cancel hpos.1]
    · rw [hlower]
      exact hlowerable
    · rw [Counters.lowerAll, hlower]
      dsimp only
      rw [hlowered]
      refine Prod.ext ?_ (Ledger.tabulate_congr fun k _ => ?_)
      · have hfilter : (ds.filter fun e => Function.update count d (count d - 1) e = 1) =
            ds.filter fun e => count e = 1 :=
          List.filter_congr fun e he => by rw [hother e he]
        rw [List.filter_cons, hfilter]
        split <;> simp_all
      · by_cases hk : k = d
        · subst hk
          simp [hd]
        · simp [hk]

/-! ## Counters and waiting lists -/

/-- How many keys a key waits for when some are settled. -/
def left (needed : String → List String) (done : List String) (k : String) : Nat :=
  ((needed k).filter fun r => r ∉ done).length

/-- The keys whose lists have the key. -/
def dependentsOf (needed : String → List String) (keys : List String) (r : String) : List String :=
  keys.filter fun k => r ∈ needed k

/-- While keys are counted down, the counter of a key that waits is the length of its list. -/
theorem Settling.get?_counter (h : Settling needed keys done queue waiting) (hkeys : keys.Nodup)
    {w : Waiting} (hw : w ∈ waiting) :
    (Ledger.tabulate keys (left needed done)).get? w.1 = some w.2.length := by
  simp only [h.waiting_eq, unsettled, List.mem_filter, List.mem_map] at hw
  obtain ⟨⟨k, hk, rfl⟩, -⟩ := hw
  exact Ledger.get?_tabulate hkeys _ hk

/-- Settling a key takes one off the counters of its dependents. -/
theorem left_snoc (hnodup : ∀ k, (needed k).Nodup) (hkey : key ∉ done) {k : String}
    (hk : k ∈ keys) : left needed (done ++ [key]) k =
      if k ∈ dependentsOf needed keys key then left needed done k - 1 else left needed done k := by
  rw [left, ← filter_not_mem_snoc (hnodup k), List.length_erase]
  simp [dependentsOf, left, hk, hkey, List.mem_filter]

theorem left_pos (hkey : key ∉ done) {k : String} (hk : k ∈ dependentsOf needed keys key) :
    0 < left needed done k := by
  have hneeded : key ∈ needed k := by simpa using (List.mem_filter.1 hk).2
  exact List.length_pos_of_mem (List.mem_filter.2 ⟨hneeded, decide_eq_true hkey⟩)

/-- Just the settled key is waited for if one key is waited for and the settled one is needed. -/
theorem waits_for_single (hkey : key ∉ done) (k : String) :
    (needed k).filter (fun r => r ∉ done) = [key] ↔ left needed done k = 1 ∧ key ∈ needed k := by
  have hmem : key ∈ needed k ↔ key ∈ (needed k).filter fun r => r ∉ done := by
    simp [List.mem_filter, hkey]
  rw [hmem, left, List.length_eq_one_iff]
  constructor
  · intro h
    rw [h]
    exact ⟨⟨key, rfl⟩, List.mem_singleton_self key⟩
  · rintro ⟨⟨r, hr⟩, hin⟩
    rw [hr] at hin ⊢
    rw [List.mem_singleton.1 hin]

/-- The dependents that waited for the settled key alone are released. -/
theorem release_fst (hkey : key ∉ done) :
    (release key (unsettled needed keys done)).1 =
      (dependentsOf needed keys key).filter fun k => left needed done k = 1 := by
  have hids : Prod.fst ∘ (fun w : Waiting => (w.1, w.2.erase key)) ∘
      (fun k => (k, (needed k).filter fun r => r ∉ done)) = id := rfl
  simp only [release, divide, unsettled, dependentsOf, List.filter_map, List.map_map, hids,
    List.map_id, List.filter_filter]
  apply List.filter_congr
  intro k _
  rw [Bool.eq_iff_iff]
  simp only [Function.comp_apply, Bool.and_eq_true, decide_eq_true_eq, List.isEmpty_iff,
    Bool.not_eq_true', List.erase_eq_nil_iff, ← waits_for_single hkey]
  cases (needed k).filter fun r => r ∉ done <;> simp

/-! ## Counting down settles -/

section Countdown

variable (hnodup : ∀ k, (needed k).Nodup) (hkeys : keys.Nodup)

include hkeys in
theorem Settling.key_mem (h : Settling needed keys done (key :: queue) waiting) :
    key ∈ keys ∧ key ∉ done := by
  have hall := h.perm.nodup_iff.2 hkeys
  rw [List.append_assoc] at hall
  exact ⟨h.perm.mem_iff.1 (by simp),
    fun hmem => List.disjoint_of_nodup_append hall hmem (by simp)⟩

include hnodup hkeys in
/-- One step: the counters of the dependents are above zero and can be lowered, what comes down to
zero is what `release` finds, and the counters are again the lengths of the lists. -/
theorem Settling.lower_dependents (h : Settling needed keys done (key :: queue) waiting) :
    Lowerable (dependentsOf needed keys key) (.tabulate keys (left needed done)) ∧
      Counters.lowerAll (dependentsOf needed keys key) (.tabulate keys (left needed done)) =
        ((release key waiting).1, .tabulate keys (left needed (done ++ [key]))) := by
  obtain ⟨-, hkey⟩ := h.key_mem hkeys
  obtain ⟨hlowerable, hlowered⟩ := lowerAll_tabulate hkeys (hkeys.filter _) (left needed done)
    (fun k hk => List.mem_of_mem_filter hk) (fun k hk => left_pos hkey hk)
  refine ⟨hlowerable, hlowered.trans (Prod.ext ?_ ?_)⟩
  · rw [h.waiting_eq, release_fst hkey]
    rfl
  · exact Ledger.tabulate_congr fun k hk => (left_snoc hnodup hkey hk).symm

/-- The dependents of all keys. -/
def allDependents (needed : String → List String) (keys : List String) :
    Ledger String (List String) := .tabulate keys (dependentsOf needed keys)

include hkeys in
theorem Settling.dependents_eq (h : Settling needed keys done (key :: queue) waiting) :
    ((allDependents needed keys).get? key).getD [] = dependentsOf needed keys key := by
  rw [allDependents, Ledger.get?_tabulate hkeys _ (h.key_mem hkeys).1]
  rfl

include hnodup hkeys in
/-- Counting down settles the keys in the order of `settle`, and the counters that are left are the
lengths of the lists that are left. -/
theorem Settling.countDown_eq (h : Settling needed keys done queue waiting) :
    countDown (allDependents needed keys) queue (.tabulate keys (left needed done)) =
      ((settle queue waiting).1,
        .tabulate keys (left needed (done ++ (settle queue waiting).1))) := by
  fun_induction settle queue waiting generalizing done with
  | case1 waiting =>
    rw [countDown, List.append_nil]
  | case2 waiting key queue released rest =>
    rename_i ih
    rw [countDown, h.dependents_eq hkeys, (h.lower_dependents hnodup hkeys).2]
    have hrest := ih (h.step hnodup)
    dsimp only
    rw [hrest, List.append_assoc]
    rfl

include hnodup hkeys in
/-- Counting down lowers no counter that is at zero. -/
theorem Settling.sound (h : Settling needed keys done queue waiting) :
    Sound (allDependents needed keys) queue (.tabulate keys (left needed done)) := by
  fun_induction settle queue waiting generalizing done with
  | case1 waiting => exact .finished _
  | case2 waiting key queue released rest =>
    rename_i ih
    obtain ⟨hlowerable, hlowered⟩ := h.lower_dependents hnodup hkeys
    apply Sound.settled <;> rw [h.dependents_eq hkeys]
    · exact hlowerable
    · rw [hlowered]
      exact ih (h.step hnodup)

end Countdown

/-! ## The links of a set -/

/-- What is noted when the keys in `done` have been gone through. -/
def linksOf (needed : String → List String) (keys done : List String) : Links where
  dependents := .tabulate keys (dependentsOf needed done)
  counters := .tabulate keys fun k => if k ∈ done then (needed k).length else 0

theorem links_tabulate_congr {deps deps' : String → List String} {count count' : String → Nat}
    (hdeps : ∀ k ∈ keys, deps k = deps' k) (hcount : ∀ k ∈ keys, count k = count' k) :
    Links.mk (.tabulate keys deps) (.tabulate keys count) =
      ⟨.tabulate keys deps', .tabulate keys count'⟩ := by
  rw [Ledger.tabulate_congr hdeps, Ledger.tabulate_congr hcount]

theorem note_tabulate (hkeys : keys.Nodup) (deps : String → List String) (count : String → Nat)
    {other : String} (hkey : key ∈ keys) (hother : other ∈ keys) :
    Links.note key ⟨.tabulate keys deps, .tabulate keys count⟩ other =
      ⟨.tabulate keys (Function.update deps other (deps other ++ [key])),
        .tabulate keys (Function.update count key (count key + 1))⟩ := by
  rw [Links.note, Ledger.get?_tabulate hkeys deps hother, Ledger.get?_tabulate hkeys count hkey,
    Ledger.put_tabulate hkeys deps hother, Ledger.put_tabulate hkeys count hkey]
  rfl

/-- Noting all that a key waits for makes it the last dependent of each, and counts them. -/
theorem foldl_note_tabulate (hkeys : keys.Nodup) {others : List String} (hothers : others.Nodup)
    (hmem : ∀ r ∈ others, r ∈ keys) (deps : String → List String) (count : String → Nat)
    (hkey : key ∈ keys) :
    others.foldl (Links.note key) ⟨.tabulate keys deps, .tabulate keys count⟩ =
      ⟨.tabulate keys fun r => if r ∈ others then deps r ++ [key] else deps r,
        .tabulate keys (Function.update count key (count key + others.length))⟩ := by
  induction others generalizing deps count with
  | nil => simp
  | cons other others ih =>
    obtain ⟨hother, hothers⟩ := List.nodup_cons.1 hothers
    rw [List.forall_mem_cons] at hmem
    rw [List.foldl_cons, note_tabulate hkeys deps count hkey hmem.1, ih hothers hmem.2]
    apply links_tabulate_congr <;> intro k _
    · by_cases hk : k = other
      · subst hk
        simp [hother]
      · simp [hk]
    · rw [Function.update_idem, Function.update_self, List.length_cons, Nat.add_assoc,
        Nat.add_comm 1]

section Links

variable (hnodup : ∀ k, (needed k).Nodup) (hmem : ∀ k, ∀ r ∈ needed k, r ∈ keys)
  (hkeys : keys.Nodup)

include hnodup hmem hkeys in
/-- Going through one key more. -/
theorem linksOf_snoc (hkey : key ∈ keys) (hnew : key ∉ done) :
    (needed key).foldl (Links.note key) (linksOf needed keys done) =
      linksOf needed keys (done ++ [key]) := by
  rw [linksOf, foldl_note_tabulate hkeys (hnodup key) (hmem key) _ _ hkey]
  apply links_tabulate_congr <;> intro k _
  · simp only [dependentsOf, List.filter_append, List.filter_singleton]
    split <;> simp_all
  · by_cases hk : k = key
    · subst hk
      simp [hnew]
    · simp [hk]

include hnodup hmem hkeys in
theorem foldl_linksOf {rest : List String} (hsplit : done ++ rest = keys) :
    rest.foldl (fun links k => (needed k).foldl (Links.note k) links) (linksOf needed keys done) =
      linksOf needed keys keys := by
  induction rest generalizing done with
  | nil => rw [List.foldl_nil, ← hsplit, List.append_nil]
  | cons key rest ih =>
    have hkey : key ∈ keys := hsplit ▸ List.mem_append_right done List.mem_cons_self
    have hnew : key ∉ done := fun hdone =>
      List.disjoint_of_nodup_append (hsplit ▸ hkeys) hdone List.mem_cons_self
    rw [List.foldl_cons, linksOf_snoc hnodup hmem hkeys hkey hnew]
    exact ih (by simpa using hsplit)

end Links

/-- The dependents of a key are the keys that need it, and its counter is the number of keys that it
needs itself. -/
theorem links_eq (set : FormulaSet) : set.links =
    ⟨allDependents set.neededBy set.keys, .tabulate set.keys (left set.neededBy [])⟩ := by
  have hmem : ∀ k, ∀ r ∈ set.neededBy k, r ∈ set.keys := fun k r hr => (mem_neededBy.1 hr).mem_right
  have hblank : Links.blank set.keys = linksOf set.neededBy set.keys [] := by
    rw [Links.blank, linksOf]
    rfl
  calc set.links
      = (set.entries.map fun e => (e.1, set.needs e.2)).foldl
          (fun links w => w.2.foldl (Links.note w.1) links) (.blank set.keys) := by
        rw [links, List.foldl_map]
    _ = set.keys.foldl (fun links k => (set.neededBy k).foldl (Links.note k) links)
          (linksOf set.neededBy set.keys []) := by
        rw [entries_needs, List.foldl_map, hblank]
    _ = linksOf set.neededBy set.keys set.keys :=
        foldl_linksOf set.nodup_neededBy hmem set.nodup (List.nil_append _)
    _ = _ := links_tabulate_congr (fun _ _ => rfl) fun k hk => by simp [left, hk]

/-! ## Reading the counters -/

theorem ready_tabulate (hkeys : keys.Nodup) :
    Counters.ready (.tabulate keys (left needed [])) =
      (divide (keys.map fun k => (k, needed k))).1 := by
  rw [Counters.ready, Ledger.entries_tabulate hkeys, divide, List.filter_map, List.filter_map,
    List.map_map, List.map_map]
  simp only [Function.comp_def, left, List.not_mem_nil, not_false_eq_true, decide_true,
    List.filter_true, List.length_eq_zero_iff, ← List.isEmpty_iff, Bool.decide_eq_true]

theorem waiting_tabulate (hkeys : keys.Nodup) (done : List String) :
    Counters.waiting (.tabulate keys (left needed done)) =
      (unsettled needed keys done).map Prod.fst := by
  rw [Counters.waiting, Ledger.entries_tabulate hkeys, unsettled, List.filter_map, List.filter_map,
    List.map_map, List.map_map]
  simp only [Function.comp_def, left, List.length_pos_iff, ne_eq, decide_not, ← List.isEmpty_iff,
    Bool.decide_eq_true]

/-- **No counter is lowered below zero** when the keys of a set are counted down. -/
theorem sound_links (set : FormulaSet) :
    Sound set.links.dependents set.links.counters.ready set.links.counters := by
  have hkeys : set.keys.Nodup := set.nodup
  rw [links_eq]
  dsimp only
  rw [ready_tabulate hkeys]
  exact (settling_start set.neededBy set.keys).sound set.nodup_neededBy hkeys

/-- The order of a set is the order in which `settle` goes through its keys, if nothing is left
waiting. -/
theorem order_eq_settle (set : FormulaSet) :
    set.order =
      let start := divide (set.keys.map fun k => (k, set.neededBy k))
      let settled := settle start.1 start.2
      if settled.2 = [] then .ok settled.1 else .error (settled.2.map Prod.fst) := by
  have hkeys : set.keys.Nodup := set.nodup
  have hstart := settling_start set.neededBy set.keys
  have hrun := hstart.run set.nodup_neededBy
  rw [order, links_eq]
  dsimp only
  rw [ready_tabulate hkeys, hstart.countDown_eq set.nodup_neededBy hkeys]
  dsimp only
  rw [waiting_tabulate hkeys, ← hrun.waiting_eq]
  -- Fewer keys than the set has are settled if some are left waiting.
  have hlength := hrun.perm.length_eq
  have hsize : set.size = set.keys.length := (List.length_map _).symm
  generalize settle _ _ = settled at hlength
  obtain ⟨done, waiting⟩ := settled
  simp only [List.nil_append, List.append_nil, List.length_append, List.length_map] at hlength
  dsimp only
  cases waiting with
  | nil =>
    rw [if_neg, if_pos rfl]
    simp only [List.length_nil] at hlength
    omega
  | cons w ws =>
    rw [if_pos, if_neg (List.cons_ne_nil w ws)]
    simp only [List.length_cons] at hlength
    omega

end Sundial.FormulaSet
