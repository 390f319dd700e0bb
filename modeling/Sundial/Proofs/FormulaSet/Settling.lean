import Mathlib.Data.List.Nodup
import Sundial.FormulaSet.Order

/-!
# Settling what waits

Every key that is not settled waits for a list of keys. Settling a key takes it off all lists, and
keys whose list becomes empty are released into a queue (`settle`). The queue is followed from step
to step: what is settled, what is queued and what still waits are together all keys, a settled key
stands behind all it needs, and what waits needs just what is not settled (`Settling`).
-/

set_option autoImplicit false

namespace Sundial.FormulaSet

/-! ## Waiting lists -/

/-- A key and the keys it still waits for. -/
abbrev Waiting := String × List String

/-- Divides what waits by whether there is still something to wait for. -/
def divide (waiting : List Waiting) : List String × List Waiting :=
  ((waiting.filter fun w => w.2.isEmpty).map Prod.fst, waiting.filter fun w => !w.2.isEmpty)

/-- After `key` is settled nothing waits for it any more. -/
def release (key : String) (waiting : List Waiting) : List String × List Waiting :=
  divide (waiting.map fun w => (w.1, w.2.erase key))

theorem divide_perm (waiting : List Waiting) :
    ((divide waiting).1 ++ (divide waiting).2.map Prod.fst).Perm (waiting.map Prod.fst) := by
  have hsplit := List.filter_append_perm (fun w : Waiting => w.2.isEmpty) waiting
  simpa [divide] using hsplit.map Prod.fst

theorem release_perm (key : String) (waiting : List Waiting) :
    ((release key waiting).1 ++ (release key waiting).2.map Prod.fst).Perm
      (waiting.map Prod.fst) := by
  have hdivide := divide_perm (waiting.map fun w => (w.1, w.2.erase key))
  simpa [release, Function.comp_def] using hdivide

theorem release_length (key : String) (waiting : List Waiting) :
    (release key waiting).1.length + (release key waiting).2.length = waiting.length := by
  simpa using (release_perm key waiting).length_eq

/-- Settles the keys of a queue one after another; keys that are released join its end. The order
of settling, and what is left waiting. -/
def settle (queue : List String) (waiting : List Waiting) : List String × List Waiting :=
  match queue with
  | [] => ([], waiting)
  | key :: queue =>
    let released := release key waiting
    let rest := settle (queue ++ released.1) released.2
    (key :: rest.1, rest.2)
termination_by queue.length + waiting.length
decreasing_by
  have h := release_length key waiting
  simp only [List.length_append, List.length_cons]
  omega

/-! ## How far settling has come -/

/-- Every key of the list stands behind all that it needs. -/
def Ordered (needed : String → List String) (done : List String) : Prop :=
  ∀ before key after, done = before ++ key :: after → ∀ r ∈ needed key, r ∈ before

/-- The keys with what they need beyond the settled ones, as far as there is something. -/
def unsettled (needed : String → List String) (keys done : List String) : List Waiting :=
  (keys.map fun k => (k, (needed k).filter fun r => r ∉ done)).filter fun w => !w.2.isEmpty

/-- How far settling the keys has come: some are settled, some stand in the queue. -/
structure Settling (needed : String → List String) (keys done queue : List String)
    (waiting : List Waiting) : Prop where
  perm : (done ++ queue ++ waiting.map Prod.fst).Perm keys
  ordered : Ordered needed done
  ready : ∀ k ∈ queue, ∀ r ∈ needed k, r ∈ done
  waiting_eq : waiting = unsettled needed keys done

variable {needed : String → List String} {keys done queue : List String} {waiting : List Waiting}
  {key : String}

theorem ordered_nil : Ordered needed [] := by
  intro before key after h
  simp at h

theorem Ordered.snoc (h : Ordered needed done) (hkey : ∀ r ∈ needed key, r ∈ done) :
    Ordered needed (done ++ [key]) := by
  intro before k after hsplit r hr
  rcases List.eq_nil_or_concat after with rfl | ⟨after, last, rfl⟩
  · obtain ⟨rfl, hlast⟩ := List.append_inj' hsplit rfl
    obtain rfl : key = k := by simpa using hlast
    exact hkey r hr
  · have hsplit' : done ++ [key] = (before ++ k :: after) ++ [last] := by simpa using hsplit
    obtain ⟨hdone, -⟩ := List.append_inj' hsplit' rfl
    exact h before k after hdone r hr

theorem filter_not_mem_snoc (hnodup : (needed key).Nodup) (done : List String) (k : String) :
    ((needed key).filter fun r => r ∉ done).erase k =
      (needed key).filter fun r => r ∉ done ++ [k] := by
  rw [(hnodup.filter _).erase_eq_filter, List.filter_filter]
  apply List.filter_congr
  intro r hr
  rw [Bool.eq_iff_iff]
  simp [and_comm]

theorem unsettled_cons (needed : String → List String) (k : String) (keys done : List String) :
    unsettled needed (k :: keys) done =
      if ((needed k).filter fun r => r ∉ done).isEmpty then unsettled needed keys done
      else (k, (needed k).filter fun r => r ∉ done) :: unsettled needed keys done := by
  rw [unsettled, List.map_cons, List.filter_cons, ← unsettled]
  split <;> simp_all

theorem release_snd_cons (key : String) (w : Waiting) (ws : List Waiting) :
    (release key (w :: ws)).2 =
      if (w.2.erase key).isEmpty then (release key ws).2
      else (w.1, w.2.erase key) :: (release key ws).2 := by
  simp only [release, divide, List.map_cons, List.filter_cons]
  split <;> simp_all

/-- What waits after a key is settled waits for what is not settled then. -/
theorem release_unsettled (hnodup : ∀ k, (needed k).Nodup) (keys done : List String)
    (key : String) :
    (release key (unsettled needed keys done)).2 = unsettled needed keys (done ++ [key]) := by
  induction keys with
  | nil => rfl
  | cons k keys ih =>
    rw [unsettled_cons, unsettled_cons, ← ih, ← filter_not_mem_snoc (hnodup k)]
    cases (needed k).filter fun r => r ∉ done with
    | nil => simp
    | cons r rs => simp [release_snd_cons]

/-- A key that is released needs nothing but what is settled now. -/
theorem mem_done_of_release (hnodup : ∀ k, (needed k).Nodup) {k : String}
    (hk : k ∈ (release key (unsettled needed keys done)).1) {r : String} (hr : r ∈ needed k) :
    r ∈ done ++ [key] := by
  simp only [release, divide, unsettled, List.mem_map, List.mem_filter] at hk
  obtain ⟨-, ⟨⟨-, ⟨⟨k', -, rfl⟩, -⟩, rfl⟩, hempty⟩, rfl⟩ := hk
  rw [List.isEmpty_iff, filter_not_mem_snoc (hnodup k'), List.filter_eq_nil_iff] at hempty
  have hsettled := hempty r hr
  rwa [decide_eq_true_eq, not_not] at hsettled

theorem settling_start (needed : String → List String) (keys : List String) :
    Settling needed keys [] (divide (keys.map fun k => (k, needed k))).1
      (divide (keys.map fun k => (k, needed k))).2 where
  perm := by
    have hdivide := divide_perm (keys.map fun k => (k, needed k))
    simpa [Function.comp_def] using hdivide
  ordered := ordered_nil
  ready k hk r hr := by
    simp only [divide, List.mem_map, List.mem_filter, List.isEmpty_iff] at hk
    obtain ⟨-, ⟨⟨k', -, rfl⟩, hempty⟩, rfl⟩ := hk
    exact hempty ▸ hr
  waiting_eq := by simp [divide, unsettled]

/-- Settling the first key of the queue. -/
theorem Settling.step (hnodup : ∀ k, (needed k).Nodup)
    (h : Settling needed keys done (key :: queue) waiting) :
    Settling needed keys (done ++ [key]) (queue ++ (release key waiting).1)
      (release key waiting).2 where
  perm := by
    refine List.Perm.trans ?_ h.perm
    have hrelease := (release_perm key waiting).append_left (done ++ key :: queue)
    simpa using hrelease
  ordered := h.ordered.snoc (h.ready key List.mem_cons_self)
  ready k hk r hr := by
    rcases List.mem_append.1 hk with hqueue | hreleased
    · exact List.mem_append_left _ (h.ready k (List.mem_cons_of_mem _ hqueue) r hr)
    · rw [h.waiting_eq] at hreleased
      exact mem_done_of_release hnodup hreleased hr
  waiting_eq := by rw [h.waiting_eq, release_unsettled hnodup]

/-- When the queue has run empty all keys are settled but those that wait. -/
theorem Settling.run (hnodup : ∀ k, (needed k).Nodup)
    (h : Settling needed keys done queue waiting) :
    Settling needed keys (done ++ (settle queue waiting).1) [] (settle queue waiting).2 := by
  fun_induction settle queue waiting generalizing done with
  | case1 waiting => simpa using h
  | case2 waiting key queue released rest =>
    rename_i ih
    simpa [rest] using ih (h.step hnodup)

end Sundial.FormulaSet
