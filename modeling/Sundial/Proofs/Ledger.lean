import Mathlib
import Sundial.Ledger

/-!
# Looking up in ledgers

What `get?` finds after each way of writing to a ledger, and how a write is taken back: a value that
was replaced is put into its place again, and a key that was appended is erased.
-/

set_option autoImplicit false

namespace Sundial.Ledger

variable {κ α : Type} [DecidableEq κ] {l : Ledger κ α} {k k' : κ} {a b : α}

theorem contains_eq_isSome (l : Ledger κ α) (k : κ) : l.contains k = (l.get? k).isSome := by
  rw [Bool.eq_iff_iff, contains, keys, List.contains_iff_mem, get?, Option.isSome_map,
    List.find?_isSome]
  simp [List.mem_map]

/-- Entering a key anew changes nothing. -/
theorem putNew_of_get? (h : l.get? k = some b) (a : α) : l.putNew k a = l := by
  rw [putNew, contains_eq_isSome, h]
  rfl

theorem putNew_of_none (h : l.get? k = none) (a : α) : l.putNew k a = l.put k a := by
  rw [putNew, contains_eq_isSome, h]
  rfl

theorem get?_putNew (l : Ledger κ α) (k k' : κ) (a : α) :
    (l.putNew k a).get? k' = if k = k' then some ((l.get? k).getD a) else l.get? k' := by
  cases h : l.get? k with
  | none => rw [putNew_of_none h, get?_put]; rfl
  | some b =>
    rw [putNew_of_get? h]
    split_ifs with hk
    · rw [← hk, h]
      rfl
    · rfl

/-- Entries are not lost when a key is entered that was not there. -/
theorem get?_putNew_of_get? (h : l.get? k' = some b) (k : κ) (a : α) :
    (l.putNew k a).get? k' = some b := by
  rw [get?_putNew]
  split_ifs with hk
  · rw [hk, h]
    rfl
  · exact h

/-- An entry is found under its key, as no other entry has it. -/
theorem get?_of_mem (l : Ledger κ α) {e : κ × α} (h : e ∈ l.entries) : l.get? e.1 = some e.2 := by
  have hnodup := l.nodup
  rw [get?]
  generalize l.entries = es at h hnodup
  induction es with
  | nil => cases h
  | cons x es ih =>
    obtain ⟨hx, hrest⟩ := List.nodup_cons.1 hnodup
    rcases List.mem_cons.1 h with rfl | hmem
    · simp
    · have hne : x.1 ≠ e.1 := fun heq => hx (heq ▸ List.mem_map_of_mem hmem)
      simpa [List.find?_cons, hne] using ih hmem hrest

theorem mem_of_get? (h : l.get? k = some a) : (k, a) ∈ l.entries := by
  obtain ⟨e, hfind, rfl⟩ := Option.map_eq_some_iff.1 h
  have hkey : e.1 = k := by simpa using List.find?_some hfind
  rw [← hkey]
  exact List.mem_of_find?_eq_some hfind

/-! ## Ledgers of lists -/

theorem putEntry_of_notMem {es : List (κ × α)} (h : k ∉ es.map Prod.fst) (a : α) :
    putEntry k a es = es ++ [(k, a)] := by
  induction es with
  | nil => rfl
  | cons e es ih =>
    rw [List.map_cons, List.mem_cons, not_or] at h
    rw [putEntry, if_neg (Ne.symm h.1), ih h.2, List.cons_append]

theorem entries_putAll (l : Ledger κ α) {es : List (κ × α)}
    (h : ((l.entries ++ es).map Prod.fst).Nodup) : (l.putAll es).entries = l.entries ++ es := by
  induction es generalizing l with
  | nil => simp [putAll]
  | cons e es ih =>
    have hnew : e.1 ∉ l.entries.map Prod.fst := by
      intro hmem
      rw [List.map_append] at h
      exact List.disjoint_of_nodup_append h hmem (by simp)
    have hput : (l.put e.1 e.2).entries = l.entries ++ [e] := putEntry_of_notMem hnew e.2
    have hrest := ih (l.put e.1 e.2) (by rw [hput]; simpa using h)
    rw [putAll, List.foldl_cons, ← putAll, hrest, hput, List.append_assoc, List.singleton_append]

/-- A list in which no key comes twice is the ledger's entries. -/
theorem entries_ofList {es : List (κ × α)} (h : (es.map Prod.fst).Nodup) :
    (ofList es).entries = es :=
  entries_putAll empty h

section Tabulate

variable {ks : List κ} {v : κ → α}

theorem entries_tabulate (h : ks.Nodup) (v : κ → α) :
    (tabulate ks v).entries = ks.map fun x => (x, v x) :=
  entries_ofList (by simpa [Function.comp_def] using h)

theorem get?_tabulate (h : ks.Nodup) (v : κ → α) (hk : k ∈ ks) :
    (tabulate ks v).get? k = some (v k) := by
  have hmem : (k, v k) ∈ (tabulate ks v).entries := by
    rw [entries_tabulate h]
    exact List.mem_map_of_mem hk
  exact get?_of_mem _ hmem

theorem tabulate_congr {w : κ → α} (h : ∀ k ∈ ks, w k = v k) : tabulate ks w = tabulate ks v := by
  rw [tabulate, tabulate]
  congr 1
  exact List.map_congr_left fun k hk => by rw [h k hk]

theorem putEntry_map (h : ks.Nodup) (v : κ → α) (hk : k ∈ ks) (a : α) :
    putEntry k a (ks.map fun x => (x, v x)) = ks.map fun x => (x, Function.update v k a x) := by
  induction ks with
  | nil => cases hk
  | cons x xs ih =>
    obtain ⟨hx, hxs⟩ := List.nodup_cons.1 h
    by_cases hkey : x = k
    · subst hkey
      have hrest : (xs.map fun y => (y, Function.update v x a y)) = xs.map fun y => (y, v y) := by
        apply List.map_congr_left
        intro y hy
        have hne : y ≠ x := fun heq => hx (heq ▸ hy)
        rw [Function.update_of_ne hne]
      rw [List.map_cons, List.map_cons, hrest, putEntry, if_pos rfl, Function.update_self]
    · have hmem : k ∈ xs := (List.mem_cons.1 hk).resolve_left (Ne.symm hkey)
      rw [List.map_cons, List.map_cons, putEntry, if_neg hkey, ih hxs hmem,
        Function.update_of_ne hkey]

/-- Replacing one value of the ledger of a function updates the function. -/
theorem put_tabulate (h : ks.Nodup) (v : κ → α) (hk : k ∈ ks) (a : α) :
    (tabulate ks v).put k a = tabulate ks (Function.update v k a) := by
  apply Ledger.ext
  rw [entries_tabulate h, ← putEntry_map h v hk a, ← entries_tabulate h v]
  rfl

end Tabulate

/-! ## Taking a write back -/

theorem putEntry_putEntry (k : κ) (a b : α) (es : List (κ × α)) :
    putEntry k a (putEntry k b es) = putEntry k a es := by
  induction es with
  | nil => simp [putEntry]
  | cons e es ih =>
    by_cases h : e.1 = k
    · simp [putEntry, h]
    · simp [putEntry, h, ih]

/-- An entry that is put where it stands already changes nothing. -/
theorem put_of_get? (h : l.get? k = some a) : l.put k a = l := by
  obtain ⟨es, hnodup⟩ := l
  apply Ledger.ext
  simp only [get?, put] at h ⊢
  clear hnodup
  induction es with
  | nil => cases h
  | cons e es ih =>
    by_cases hk : e.1 = k
    · obtain rfl : e.2 = a := by simpa [hk] using h
      simp [putEntry, ← hk]
    · simp only [List.find?_cons, hk, decide_false] at h
      simp [putEntry, hk, ih h]

/-- A value that was replaced is put back into its place. -/
theorem put_put_of_get? (h : l.get? k = some a) (b : α) : (l.put k b).put k a = l := by
  have hput : (l.put k b).put k a = l.put k a := Ledger.ext (putEntry_putEntry k a b l.entries)
  exact hput.trans (put_of_get? h)

theorem notMem_keys_of_none (h : l.get? k = none) : k ∉ l.keys := by
  rw [← List.contains_iff_mem, ← contains, contains_eq_isSome, h]
  exact Bool.false_ne_true

/-- A key that was appended is erased. -/
theorem erase_put_of_none (h : l.get? k = none) (a : α) : (l.put k a).erase k = l := by
  have hfresh : k ∉ l.entries.map Prod.fst := notMem_keys_of_none h
  have hput : (l.put k a).entries = l.entries ++ [(k, a)] := putEntry_of_notMem hfresh a
  apply Ledger.ext
  calc ((l.put k a).entries.filter fun e => e.1 ≠ k)
      = (l.entries ++ [(k, a)]).filter fun e => e.1 ≠ k := by rw [hput]
    _ = l.entries.filter fun e => e.1 ≠ k := by simp
    _ = l.entries := by
        rw [List.filter_eq_self]
        intro e he
        exact decide_eq_true fun heq => hfresh (heq ▸ List.mem_map_of_mem he)

theorem mem_keys (l : Ledger κ α) : k ∈ l.keys ↔ ∃ a, l.get? k = some a := by
  rw [← List.contains_iff_mem, ← contains, contains_eq_isSome, Option.isSome_iff_exists]

end Sundial.Ledger
