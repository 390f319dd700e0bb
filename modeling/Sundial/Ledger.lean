/-!
# Ledgers

A ledger is a finite map whose entries keep the order in which their keys were first entered.
`put` replaces the value of a key in its place or appends a new entry, `putNew` only appends, and
`erase` closes the gap. No key occurs twice, which is part of the type.
-/

set_option autoImplicit false

namespace Sundial

variable {κ α : Type} [DecidableEq κ]

/-- The entries with `k` set to `a`, in place if `k` occurs and at the end if not. -/
def putEntry (k : κ) (a : α) : List (κ × α) → List (κ × α)
  | [] => [(k, a)]
  | e :: es => if e.1 = k then (k, a) :: es else e :: putEntry k a es

theorem putEntry_keys (k : κ) (a : α) (es : List (κ × α)) :
    (putEntry k a es).map Prod.fst =
      if k ∈ es.map Prod.fst then es.map Prod.fst else es.map Prod.fst ++ [k] := by
  induction es with
  | nil => rfl
  | cons e es ih =>
    by_cases h : e.1 = k
    · simp [putEntry, h]
    · simp only [putEntry, h, if_false, List.map_cons, ih, List.mem_cons, Ne.symm h, false_or]
      split <;> rfl

/-- A map in order of first entry. -/
@[ext]
structure Ledger (κ α : Type) where
  entries : List (κ × α)
  nodup : (entries.map Prod.fst).Nodup

namespace Ledger

def empty : Ledger κ α := ⟨[], List.nodup_nil⟩

def keys (l : Ledger κ α) : List κ := l.entries.map Prod.fst

def size (l : Ledger κ α) : Nat := l.entries.length

def isEmpty (l : Ledger κ α) : Bool := l.entries.isEmpty

def get? (l : Ledger κ α) (k : κ) : Option α :=
  (l.entries.find? fun e => e.1 = k).map Prod.snd

def contains (l : Ledger κ α) (k : κ) : Bool := l.keys.contains k

/-- Sets `k` to `a`; a key already entered keeps its place. -/
def put (l : Ledger κ α) (k : κ) (a : α) : Ledger κ α where
  entries := putEntry k a l.entries
  nodup := by
    rw [putEntry_keys]
    split
    · exact l.nodup
    · rename_i h
      refine List.nodup_append.2 ⟨l.nodup, by simp, ?_⟩
      intro x hx y hy hxy
      rw [List.mem_singleton.1 hy] at hxy
      exact h (hxy ▸ hx)

/-- Enters `a` under `k` unless `k` is entered already. -/
def putNew (l : Ledger κ α) (k : κ) (a : α) : Ledger κ α :=
  if l.contains k then l else l.put k a

def putAll (l : Ledger κ α) (es : List (κ × α)) : Ledger κ α :=
  es.foldl (fun m e => m.put e.1 e.2) l

def ofList (es : List (κ × α)) : Ledger κ α := empty.putAll es

/-- The ledger of a function on keys. -/
def tabulate (ks : List κ) (v : κ → α) : Ledger κ α := ofList (ks.map fun k => (k, v k))

/-- The ledger without `k`; the other entries keep their order. -/
def erase (l : Ledger κ α) (k : κ) : Ledger κ α where
  entries := l.entries.filter fun e => e.1 ≠ k
  nodup := List.Nodup.sublist (List.filter_sublist.map Prod.fst) l.nodup

theorem keys_put (l : Ledger κ α) (k : κ) (a : α) :
    (l.put k a).keys = if k ∈ l.keys then l.keys else l.keys ++ [k] :=
  putEntry_keys k a l.entries

@[simp] theorem get?_empty (k : κ) : (empty : Ledger κ α).get? k = none := rfl

@[simp] theorem get?_put (l : Ledger κ α) (k k' : κ) (a : α) :
    (l.put k a).get? k' = if k = k' then some a else l.get? k' := by
  obtain ⟨es, h⟩ := l
  simp only [get?, put]
  clear h
  induction es with
  | nil => by_cases h : k = k' <;> simp [putEntry, h]
  | cons e es ih =>
    by_cases h : e.1 = k
    · by_cases h' : k = k' <;> simp [putEntry, h, h']
    · by_cases h' : e.1 = k'
      · have hk : ¬k = k' := fun hk => h (h'.trans hk.symm)
        simp [putEntry, h', hk, Ne.symm hk]
      · simpa [putEntry, List.find?_cons, h, h'] using ih

/-- A value that is replaced has its place between the same entries. -/
theorem exists_entries_put (l : Ledger κ α) {k : κ} {b : α} (h : l.get? k = some b) (a : α) :
    ∃ before after, l.entries = before ++ (k, b) :: after ∧
      (l.put k a).entries = before ++ (k, a) :: after := by
  obtain ⟨es, hnodup⟩ := l
  simp only [get?, put] at h ⊢
  clear hnodup
  induction es with
  | nil => cases h
  | cons e es ih =>
    by_cases hk : e.1 = k
    · obtain rfl : e.2 = b := by simpa [hk] using h
      exact ⟨[], es, by simp [← hk], by simp [putEntry, hk]⟩
    · have hrest : (es.find? fun e => e.1 = k).map Prod.snd = some b := by
        simpa [List.find?_cons, hk] using h
      obtain ⟨before, after, hold, hnew⟩ := ih hrest
      exact ⟨e :: before, after, by simp [hold], by simp [putEntry, hk, hnew]⟩

end Ledger

end Sundial
