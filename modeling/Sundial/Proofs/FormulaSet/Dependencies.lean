import Mathlib.Data.Fintype.Card
import Mathlib.Logic.Relation
import Mathlib.Order.WellFounded
import Sundial.FormulaSet.Order
import Sundial.Proofs.Formula.Shape
import Sundial.Proofs.Ledger

/-!
# The references of a formula set

The formulas of a set refer to each other. `Refers` is the graph of these references, which are the
references in the trees of the formulas (`refers_iff_nodes`) and the keys that each formula needs
(`mem_neededBy`). `Cyclic` says that the graph has a cycle, and a key leads into a cycle if one can
be reached from it. Among finitely many keys each of which refers to one of them, every key leads
into a cycle.
-/

set_option autoImplicit false

namespace Sundial.FormulaSet

/-- The formula under the first key refers to the second, which is a key of the set as well. A text
that is no formula refers to nothing. -/
def Refers (set : FormulaSet) (key other : String) : Prop :=
  ∃ text f, set.get? key = some text ∧ Formula.parse text = .ok f ∧ other ∈ f.references ∧
    other ∈ set.keys

/-- Some formula refers to itself, directly or through others. -/
def Cyclic (set : FormulaSet) : Prop := ∃ key, Relation.TransGen set.Refers key key

/-- From the key a cycle can be reached. -/
def LeadsIntoCycle (set : FormulaSet) (key : String) : Prop :=
  ∃ other, Relation.ReflTransGen set.Refers key other ∧ Relation.TransGen set.Refers other other

variable {set : FormulaSet} {key other : String}

/-- The graph has an edge for every reference to a key of the set that stands anywhere in the tree
of a formula, and no other edges. -/
theorem refers_iff_nodes : set.Refers key other ↔ ∃ text f pos, set.get? key = some text ∧
    Formula.parse text = .ok f ∧ .reference pos other ∈ f.nodes ∧ other ∈ set.keys := by
  simp only [Refers, Formula.mem_references_iff_nodes, exists_and_left, exists_and_right]

theorem Refers.mem_left (h : set.Refers key other) : key ∈ set.keys := by
  obtain ⟨text, -, hget, -⟩ := h
  exact set.mem_keys.2 ⟨text, hget⟩

theorem Refers.mem_right (h : set.Refers key other) : other ∈ set.keys := by
  obtain ⟨-, -, -, -, -, hmem⟩ := h
  exact hmem

theorem LeadsIntoCycle.cyclic (h : set.LeadsIntoCycle key) : set.Cyclic := by
  obtain ⟨other, -, hcycle⟩ := h
  exact ⟨other, hcycle⟩

/-- If every member of a list refers to a member, all of them lead into cycles. -/
theorem leadsIntoCycle_of_forall_mem {keys : List String}
    (h : ∀ k ∈ keys, ∃ r ∈ keys, set.Refers k r) (hkey : key ∈ keys) :
    set.LeadsIntoCycle key := by
  -- Without a cycle in reach the references would be well-founded on what is in reach.
  by_contra hno
  let Reached := {k // k ∈ keys ∧ Relation.ReflTransGen set.Refers key k}
  let Below : Reached → Reached → Prop := fun a b => Relation.TransGen set.Refers b.1 a.1
  have hfinite : Finite Reached :=
    (List.finite_toSet keys).subset fun k hk => hk.1
  have htrans : IsTrans Reached Below := ⟨fun a b c hab hbc => hbc.trans hab⟩
  have hirrefl : Std.Irrefl Below := ⟨fun a ha => hno ⟨a.1, a.2.2, ha⟩⟩
  have hwf : WellFounded Below := Finite.wellFounded_of_trans_of_irrefl Below
  obtain ⟨k, -, hleast⟩ := hwf.has_min Set.univ ⟨⟨key, hkey, .refl⟩, trivial⟩
  obtain ⟨r, hr, hrefers⟩ := h k.1 k.2.1
  exact hleast ⟨r, hr, k.2.2.tail hrefers⟩ trivial (.single hrefers)

/-! ## What each formula needs -/

/-- The keys of the set that the formula under a key refers to. -/
def neededBy (set : FormulaSet) (key : String) : List String :=
  ((set.get? key).map set.needs).getD []

theorem mem_neededBy : other ∈ set.neededBy key ↔ set.Refers key other := by
  rw [neededBy, Refers]
  cases hget : set.get? key with
  | none => simp
  | some text =>
    cases hread : Formula.read text with
    | error es => simp [needs, hread, Formula.parse, Except.mapError]
    | ok f => simp [needs, hread, Formula.parse, Except.mapError, Ledger.contains]

theorem nodup_neededBy (set : FormulaSet) (key : String) : (set.neededBy key).Nodup := by
  rw [neededBy]
  cases set.get? key with
  | none => exact List.nodup_nil
  | some text =>
    change (set.needs text).Nodup
    rw [needs]
    cases Formula.read text with
    | error es => exact List.nodup_nil
    | ok f => exact (Formula.nodup_firstOccurrences f.mentions).filter _

theorem entries_needs (set : FormulaSet) :
    (set.entries.map fun e => (e.1, set.needs e.2)) = set.keys.map fun k => (k, set.neededBy k) := by
  rw [Ledger.keys, List.map_map]
  apply List.map_congr_left
  intro e he
  simp [neededBy, set.get?_of_mem he]

end Sundial.FormulaSet
