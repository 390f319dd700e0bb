import Sundial.Formula.Parser
import Sundial.Formula.References
import Sundial.Ledger

/-!
# The order of a formula set

A formula set is a ledger of formula texts. Its formulas are ordered so that each comes after those
it refers to. Every key has its dependents, which are the keys that refer to it, and a counter of
the keys that it waits for itself. First come the keys that wait for none. When a key is settled the
counters of its dependents are lowered, and those that come down to zero join the queue. A text that
is no formula waits for nothing, and references out of the set do not count. What still waits at the
end leads into a cycle.
-/

set_option autoImplicit false

namespace Sundial

/-- Formula texts by their keys. -/
abbrev FormulaSet := Ledger String String

namespace FormulaSet

/-- The keys of the set that a text refers to. -/
def needs (set : FormulaSet) (text : String) : List String :=
  match Formula.read text with
  | .ok f => f.references.filter set.contains
  | .error _ => []

/-! ## Counters -/

/-- How many keys each key still waits for. -/
abbrev Counters := Ledger String Nat

namespace Counters

/-- The keys that wait for nothing. -/
def ready (c : Counters) : List String := (c.entries.filter fun e => e.2 = 0).map Prod.fst

/-- The keys that wait for something. -/
def waiting (c : Counters) : List String := (c.entries.filter fun e => 0 < e.2).map Prod.fst

/-- One key fewer to wait for, and the key itself if it was the last. A counter that is at zero has
nothing to be taken off. -/
def lower (c : Counters) (key : String) : List String × Counters :=
  match c.get? key with
  | some 1 => ([key], c.put key 0)
  | some (n + 2) => ([], c.put key (n + 1))
  | some 0 | none => ([], c)

/-- Lowers the counters of the keys, one after another; those that came down to zero. -/
def lowerAll : List String → Counters → List String × Counters
  | [], c => ([], c)
  | key :: keys, c =>
    let lowered := c.lower key
    let rest := lowerAll keys lowered.2
    (lowered.1 ++ rest.1, rest.2)

theorem length_waiting_put {c : Counters} {key : String} {n : Nat} (h : c.get? key = some n)
    (m : Nat) : (waiting (c.put key m)).length + (if 0 < n then 1 else 0) =
      c.waiting.length + (if 0 < m then 1 else 0) := by
  obtain ⟨before, after, hold, hnew⟩ := c.exists_entries_put h m
  simp only [waiting, hold, hnew, List.length_map, List.filter_append, List.length_append,
    List.filter_cons, decide_eq_true_eq]
  split <;> split <;> simp only [List.length_cons] <;> omega

theorem lower_length (c : Counters) (key : String) :
    (c.lower key).1.length + (c.lower key).2.waiting.length = c.waiting.length := by
  rw [lower]
  split
  next hget =>
    have hput : (waiting (c.put key 0)).length + 1 = c.waiting.length := length_waiting_put hget 0
    exact (Nat.add_comm _ _).trans hput
  next n hget =>
    have hput : (waiting (c.put key (n + 1))).length + 1 = c.waiting.length + 1 := by
      simpa using length_waiting_put hget (n + 1)
    exact (Nat.zero_add _).trans (Nat.succ.inj hput)
  all_goals exact Nat.zero_add _

/-- A key either waits or is released. -/
theorem lowerAll_length (keys : List String) (c : Counters) :
    (lowerAll keys c).1.length + (lowerAll keys c).2.waiting.length = c.waiting.length := by
  induction keys generalizing c with
  | nil => simp [lowerAll]
  | cons key keys ih =>
    have hlower := c.lower_length key
    have hrest := ih (c.lower key).2
    simp only [lowerAll, List.length_append]
    omega

end Counters

/-- The dependents of every key, and how many keys it waits for. -/
structure Links where
  dependents : Ledger String (List String)
  counters : Counters

namespace Links

def blank (keys : List String) : Links := ⟨.tabulate keys fun _ => [], .tabulate keys fun _ => 0⟩

/-- Notes that `key` waits for `other`. -/
def note (key : String) (links : Links) (other : String) : Links where
  dependents := links.dependents.put other ((links.dependents.get? other).getD [] ++ [key])
  counters := links.counters.put key ((links.counters.get? key).getD 0 + 1)

end Links

/-- The references between the formulas of the set. -/
def links (set : FormulaSet) : Links :=
  set.entries.foldl (fun links e => (set.needs e.2).foldl (Links.note e.1) links) (.blank set.keys)

/-- Settles the keys of a queue one after another; keys that are released join its end. The order
of settling, and the counters that are left. -/
def countDown (dependents : Ledger String (List String)) (queue : List String) (c : Counters) :
    List String × Counters :=
  match queue with
  | [] => ([], c)
  | key :: queue =>
    let lowered := Counters.lowerAll ((dependents.get? key).getD []) c
    let rest := countDown dependents (queue ++ lowered.1) lowered.2
    (key :: rest.1, rest.2)
termination_by queue.length + c.waiting.length
decreasing_by
  have h := Counters.lowerAll_length ((dependents.get? key).getD []) c
  simp only [List.length_append, List.length_cons]
  omega

/-- Every formula of the set after those it refers to, or the keys that lead into a cycle. -/
def order (set : FormulaSet) : Except (List String) (List String) :=
  let links := set.links
  let (order, counters) := countDown links.dependents links.counters.ready links.counters
  if order.length < set.size then .error counters.waiting else .ok order

/-- What is said about keys that cannot be ordered. -/
def cycleText (keys : List String) : String :=
  "circular dependency between formulas: " ++ ", ".intercalate keys

end FormulaSet

end Sundial
