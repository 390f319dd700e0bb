import Mathlib.Logic.Basic
import Sundial.Formula.References

/-!
# The shape of formulas

What a formula is apart from the places it was read at: `unplaced` puts every node at the start of
the text, so two formulas differ in positions only exactly if they agree after it. `nodes` lists a
formula and everything below it, its references among them, and `Formula.inductionOn` is induction
over formulas with the arguments of a node taken as members of a list.
-/

set_option autoImplicit false

namespace Sundial.Formula

mutual

/-- The formula with every node at the start of the text. -/
@[simp] def unplaced : Formula → Formula
  | primitive _ event => primitive .start event
  | call _ function args => call .start function (unplacedAll args)
  | binary _ op left right => binary .start op (unplaced left) (unplaced right)
  | duration _ minutes literal => duration .start minutes literal
  | number _ value => number .start value
  | string _ value => string .start value
  | reference _ key => reference .start key
  | direction _ d => direction .start d
  | span _ b => span .start b
  | customSpan _ bounds => customSpan .start (unplacedAll bounds)
  | ifThen _ c t => ifThen .start (unplaced c) (unplaced t)
  | ifElse _ c t e => ifElse .start (unplaced c) (unplaced t) (unplaced e)
  | condition _ relation left right => condition .start relation (unplaced left) (unplaced right)
  | circumstance _ v => circumstance .start v

@[simp] def unplacedAll : List Formula → List Formula
  | [] => []
  | a :: rest => unplaced a :: unplacedAll rest

end

mutual

/-- The formula and every formula below it, in reading order. -/
def nodes : Formula → List Formula
  | call p function args => call p function args :: nodesAll args
  | customSpan p bounds => customSpan p bounds :: nodesAll bounds
  | binary p op left right => binary p op left right :: (nodes left ++ nodes right)
  | condition p relation left right => condition p relation left right :: (nodes left ++ nodes right)
  | ifThen p c t => ifThen p c t :: (nodes c ++ nodes t)
  | ifElse p c t e => ifElse p c t e :: (nodes c ++ nodes t ++ nodes e)
  | leaf => [leaf]

def nodesAll : List Formula → List Formula
  | [] => []
  | a :: rest => nodes a ++ nodesAll rest

end

theorem self_mem_nodes (f : Formula) : f ∈ f.nodes := by
  cases f <;> exact List.mem_cons_self

def isBinary : Formula → Bool
  | binary .. => true
  | _ => false

/-- Induction over formulas; what is assumed of arguments is assumed of each in the list. -/
@[elab_as_elim]
theorem inductionOn {motive : Formula → Prop}
    (primitive : ∀ pos event, motive (primitive pos event))
    (call : ∀ pos function args, (∀ a ∈ args, motive a) → motive (call pos function args))
    (binary : ∀ pos op left right, motive left → motive right → motive (binary pos op left right))
    (duration : ∀ pos minutes literal, motive (duration pos minutes literal))
    (number : ∀ pos value, motive (number pos value))
    (string : ∀ pos value, motive (string pos value))
    (reference : ∀ pos key, motive (reference pos key))
    (direction : ∀ pos d, motive (direction pos d))
    (span : ∀ pos b, motive (span pos b))
    (customSpan : ∀ pos bounds, (∀ a ∈ bounds, motive a) → motive (customSpan pos bounds))
    (ifThen : ∀ pos c t, motive c → motive t → motive (ifThen pos c t))
    (ifElse : ∀ pos c t e, motive c → motive t → motive e → motive (ifElse pos c t e))
    (condition : ∀ pos relation left right, motive left → motive right →
      motive (condition pos relation left right))
    (circumstance : ∀ pos v, motive (circumstance pos v)) (f : Formula) : motive f :=
  Formula.rec (motive_1 := motive) (motive_2 := fun as => ∀ a ∈ as, motive a)
    primitive call binary duration number string reference direction span customSpan ifThen ifElse
    condition circumstance
    (fun _ h => absurd h List.not_mem_nil)
    (fun _ _ head tail _ h => (List.mem_cons.1 h).elim (fun e => e ▸ head) (tail _)) f

theorem unplacedAll_eq_map (as : List Formula) : unplacedAll as = as.map unplaced := by
  induction as with
  | nil => rfl
  | cons a as ih => rw [unplacedAll, ih, List.map_cons]

/-- Two arguments are two arguments wherever they were read. -/
theorem exists_of_unplacedAll_pair {a b : Formula} {as : List Formula}
    (h : unplacedAll [a, b] = unplacedAll as) :
    ∃ a' b', as = [a', b'] ∧ a.unplaced = a'.unplaced ∧ b.unplaced = b'.unplaced := by
  match as with
  | [] | [_] | _ :: _ :: _ :: _ => simp [unplacedAll] at h
  | [a', b'] =>
    simp only [unplacedAll, List.cons.injEq, and_true] at h
    exact ⟨a', b', rfl, h.1, h.2⟩

/-- A call with two arguments is one wherever it was read. -/
theorem exists_call_of_unplaced {pos : Position} {function : BuiltIn} {a b g : Formula}
    (h : (call pos function [a, b]).unplaced = g.unplaced) :
    ∃ pos' a' b', g = call pos' function [a', b'] ∧
      a.unplaced = a'.unplaced ∧ b.unplaced = b'.unplaced := by
  cases g <;> simp only [unplaced, reduceCtorEq, call.injEq, true_and] at h
  obtain ⟨rfl, hargs⟩ := h
  obtain ⟨a', b', rfl, ha, hb⟩ := exists_of_unplacedAll_pair hargs
  exact ⟨_, a', b', rfl, ha, hb⟩

theorem exists_customSpan_of_unplaced {pos : Position} {a b g : Formula}
    (h : (customSpan pos [a, b]).unplaced = g.unplaced) :
    ∃ pos' a' b', g = customSpan pos' [a', b'] ∧
      a.unplaced = a'.unplaced ∧ b.unplaced = b'.unplaced := by
  cases g <;> simp only [unplaced, reduceCtorEq, customSpan.injEq, true_and] at h
  obtain ⟨a', b', rfl, ha, hb⟩ := exists_of_unplacedAll_pair h
  exact ⟨_, a', b', rfl, ha, hb⟩

section ForallNodes

variable {P : Formula → Prop} {pos : Position} {left right c t e : Formula} {as : List Formula}

theorem forall_nodes_binary {op : Operator} : (∀ g ∈ (binary pos op left right).nodes, P g) ↔
    P (binary pos op left right) ∧ (∀ g ∈ left.nodes, P g) ∧ ∀ g ∈ right.nodes, P g := by
  refine List.forall_mem_cons.trans ?_
  rw [List.forall_mem_append]

theorem forall_nodes_condition {relation : Relation} :
    (∀ g ∈ (condition pos relation left right).nodes, P g) ↔
      P (condition pos relation left right) ∧ (∀ g ∈ left.nodes, P g) ∧ ∀ g ∈ right.nodes, P g := by
  refine List.forall_mem_cons.trans ?_
  rw [List.forall_mem_append]

theorem forall_nodes_ifThen : (∀ g ∈ (ifThen pos c t).nodes, P g) ↔
    P (ifThen pos c t) ∧ (∀ g ∈ c.nodes, P g) ∧ ∀ g ∈ t.nodes, P g := by
  refine List.forall_mem_cons.trans ?_
  rw [List.forall_mem_append]

theorem forall_nodes_ifElse : (∀ g ∈ (ifElse pos c t e).nodes, P g) ↔
    P (ifElse pos c t e) ∧ (∀ g ∈ c.nodes, P g) ∧ (∀ g ∈ t.nodes, P g) ∧
      ∀ g ∈ e.nodes, P g := by
  refine List.forall_mem_cons.trans ?_
  rw [List.forall_mem_append, List.forall_mem_append, and_assoc]

theorem forall_nodesAll : (∀ g ∈ nodesAll as, P g) ↔ ∀ a ∈ as, ∀ g ∈ a.nodes, P g := by
  induction as with
  | nil => simp [nodesAll]
  | cons a as ih => rw [nodesAll, List.forall_mem_append, List.forall_mem_cons, ih]

theorem forall_nodes_call {function : BuiltIn} : (∀ g ∈ (call pos function as).nodes, P g) ↔
    P (call pos function as) ∧ ∀ a ∈ as, ∀ g ∈ a.nodes, P g := by
  refine List.forall_mem_cons.trans ?_
  rw [forall_nodesAll]

theorem forall_nodes_customSpan : (∀ g ∈ (customSpan pos as).nodes, P g) ↔
    P (customSpan pos as) ∧ ∀ a ∈ as, ∀ g ∈ a.nodes, P g := by
  refine List.forall_mem_cons.trans ?_
  rw [forall_nodesAll]

end ForallNodes

/-! ## References -/

/-- The key of a reference. -/
def referredKey? : Formula → Option String
  | reference _ key => some key
  | _ => none

theorem mentionsAll_eq {as : List Formula}
    (h : ∀ a ∈ as, mentions a = a.nodes.filterMap referredKey?) :
    mentionsAll as = (nodesAll as).filterMap referredKey? := by
  induction as with
  | nil => rfl
  | cons a as ih =>
    rw [List.forall_mem_cons] at h
    rw [mentionsAll, nodesAll, List.filterMap_append, h.1, ih h.2]

/-- What a formula mentions are the keys of the references in it, in reading order. -/
theorem mentions_eq (f : Formula) : mentions f = f.nodes.filterMap referredKey? := by
  induction f using inductionOn with
  | call _ _ _ ih | customSpan _ _ ih =>
    simp [mentions, nodes, List.filterMap_cons, referredKey?, mentionsAll_eq ih]
  | binary _ _ _ _ ihl ihr | condition _ _ _ _ ihl ihr =>
    simp [mentions, nodes, List.filterMap_cons, referredKey?, ihl, ihr]
  | ifThen _ _ _ ihc iht => simp [mentions, nodes, List.filterMap_cons, referredKey?, ihc, iht]
  | ifElse _ _ _ _ ihc iht ihe =>
    simp [mentions, nodes, List.filterMap_cons, referredKey?, ihc, iht, ihe]
  | _ => simp [mentions, nodes, referredKey?]

/-- A formula refers to a key exactly if a node of it is a reference to the key. -/
theorem mem_references_iff_nodes {f : Formula} {key : String} :
    key ∈ f.references ↔ ∃ pos, reference pos key ∈ f.nodes := by
  rw [mem_references, mentions_eq, List.mem_filterMap]
  constructor
  · rintro ⟨g, hg, hkey⟩
    cases g with
    | reference pos key' =>
      obtain rfl := Option.some.inj hkey
      exact ⟨pos, hg⟩
    | _ => cases hkey
  · rintro ⟨pos, hg⟩
    exact ⟨_, hg, rfl⟩

theorem mem_references_of_nodes {f : Formula} {pos : Position} {key : String}
    (h : reference pos key ∈ f.nodes) : key ∈ f.references :=
  mem_references_iff_nodes.2 ⟨pos, h⟩

end Sundial.Formula
