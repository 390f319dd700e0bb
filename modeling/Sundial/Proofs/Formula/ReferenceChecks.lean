import Mathlib.Tactic.SplitIfs
import Sundial.Formula.Checking
import Sundial.Proofs.Formula.Shape

/-!
# Which references the check comes to

The check walks through a formula and looks up every reference that it comes to. It comes to all of
them, in calls with a wrong number of arguments and beside misplaced words as well, with one
exception: below a custom base it sees only the two bounds of a base in its own slot, the second of
two arguments of `proportional_hours()`. `sightings` lists the references of a formula in reading
order and marks those, and the reference faults of the check are the faults of the marked ones, in
the same order (`referenceErrors_check`).
-/

set_option autoImplicit false

namespace Sundial

/-- The fault is that of a reference: to the formula itself, or to an unknown key. -/
def SemanticFault.isReference : SemanticFault → Bool
  | selfReference _ | undefinedReference .. => true
  | _ => false

namespace Formula

def isReference : Formula → Bool
  | reference .. => true
  | _ => false

/-- A reference in a formula, and whether the check of the formula comes to it. -/
structure Sighting where
  pos : Position
  key : String
  seen : Bool
  deriving DecidableEq

namespace Sighting

def node (s : Sighting) : Formula := reference s.pos s.key

/-- What the check reports for it. -/
def faults (scope : Scope) (s : Sighting) : List SemanticError :=
  if s.seen then referenceFaults scope s.pos s.key else []

end Sighting

mutual

/-- The references of a formula, in reading order; `seen` tells whether the check comes to the
formula itself. -/
def sightings (seen : Bool) : Formula → List Sighting
  | primitive .. | duration .. | number .. | string .. | circumstance .. | direction ..
  | span .. => []
  | reference pos key => [⟨pos, key, seen⟩]
  | customSpan _ bounds => sightingsAll (fun _ => false) bounds
  | call _ .proportionalHours [hours, customSpan _ bounds] =>
    sightings seen hours ++ sightingsAll (fun i => seen && i < 2) bounds
  | call _ _ args => sightingsAll (fun _ => seen) args
  | binary _ _ left right | condition _ _ left right => sightings seen left ++ sightings seen right
  | ifThen _ c t => sightings seen c ++ sightings seen t
  | ifElse _ c t e => sightings seen c ++ sightings seen t ++ sightings seen e

/-- The references of arguments of which the check comes to the ones at the `seen` indices. -/
def sightingsAll (seen : Nat → Bool) : List Formula → List Sighting
  | [] => []
  | a :: rest => sightings (seen 0) a ++ sightingsAll (fun i => seen (i + 1)) rest

end

/-! ## Every reference is listed -/

/-- Without the marks they are the references among the nodes. -/
theorem map_node_sightings (seen : Bool) (f : Formula) :
    (sightings seen f).map Sighting.node = f.nodes.filter isReference := by
  apply sightings.induct
    (fun seen f => (sightings seen f).map Sighting.node = f.nodes.filter isReference)
    (fun seen args =>
      (sightingsAll seen args).map Sighting.node = (nodesAll args).filter isReference)
  case case9 =>
    intro seen pos bounds ih
    simpa [sightings, nodes, isReference] using ih
  case case10 =>
    intro seen pos hours basePos bounds ihh ihb
    rw [sightings, List.map_append, ihh, ihb]
    simp [nodes, nodesAll, isReference]
  case case11 =>
    intro seen pos function args hslot ih
    rw [sightings, ih]
    · simp [nodes, isReference]
    · exact hslot
  case case12 | case13 =>
    intro seen pos _ left right ihl ihr
    simp [sightings, nodes, isReference, ihl, ihr]
  case case14 =>
    intro seen pos c t ihc iht
    simp [sightings, nodes, isReference, ihc, iht]
  case case15 =>
    intro seen pos c t e ihc iht ihe
    simp [sightings, nodes, isReference, ihc, iht, ihe]
  case case17 =>
    intro seen a rest iha ihrest
    simp [sightingsAll, nodesAll, iha, ihrest]
  all_goals
    intros
    rfl

/-! ## What the check reports -/

/-- The faults of references among all. -/
def referenceErrors (es : List SemanticError) : List SemanticError :=
  es.filter fun e => e.cause.isReference

/-- The faults that the check reports for these references. -/
def reported (scope : Scope) (found : List Sighting) : List SemanticError :=
  found.flatMap (Sighting.faults scope)

variable {scope : Scope} {es es' : List SemanticError} {f : Formula}

@[simp] theorem referenceErrors_append :
    referenceErrors (es ++ es') = referenceErrors es ++ referenceErrors es' :=
  List.filter_append ..

theorem referenceErrors_eq_nil (h : ∀ e ∈ es, e.cause.isReference = false) :
    referenceErrors es = [] := by
  rw [referenceErrors, List.filter_eq_nil_iff]
  intro e he
  rw [h e he]
  exact Bool.false_ne_true

@[simp] theorem reported_append {found found' : List Sighting} :
    reported scope (found ++ found') = reported scope found ++ reported scope found' :=
  List.flatMap_append

theorem referenceErrors_kindFaults {wanted : ValueKind} {fault : ValueKind → SemanticFault}
    (h : ∀ k, (fault k).isReference = false) :
    referenceErrors (kindFaults f wanted fault) = [] := by
  rw [kindFaults]
  split
  · rfl
  · exact referenceErrors_eq_nil (List.forall_mem_singleton.2 (h _))

theorem referenceErrors_referenceFaults (pos : Position) (key : String) :
    referenceErrors (referenceFaults scope pos key) = referenceFaults scope pos key := by
  unfold referenceFaults
  split_ifs <;> rfl

theorem referenceErrors_operatorFaults (pos : Position) (op : Operator) (left right : ValueKind) :
    referenceErrors (operatorFaults pos op left right) = [] := by
  unfold operatorFaults
  cases op <;> dsimp only <;> first | rfl | (split_ifs <;> rfl)

theorem referenceErrors_circumstanceFaults (side other : Formula) :
    referenceErrors (circumstanceFaults side other) = [] := by
  unfold circumstanceFaults
  split
  · split_ifs <;> rfl
  · rfl

theorem referenceErrors_comparisonFaults (pos : Position) (relation : Relation)
    (left right : ValueKind) : referenceErrors (comparisonFaults pos relation left right) = [] := by
  unfold comparisonFaults
  split_ifs <;> rfl

theorem referenceErrors_relationFaults (pos : Position) (relation : Relation)
    (left right : Formula) : referenceErrors (relationFaults pos relation left right) = [] := by
  unfold relationFaults
  split
  · simp only [List.flatMap_cons, List.flatMap_nil, referenceErrors_append]
    split_ifs <;> rfl
  · split
    · exact referenceErrors_comparisonFaults ..
    · rw [referenceErrors_append, referenceErrors_circumstanceFaults,
        referenceErrors_circumstanceFaults, List.append_nil]

/-- The formula `g` stands among the bounds of a custom base of `f`. -/
def BelowBase (f g : Formula) : Prop :=
  ∃ pos bounds, customSpan pos bounds ∈ f.nodes ∧ g ∈ nodesAll bounds

theorem BelowBase.mono {f f' g : Formula} (h : BelowBase f g) (hsub : f.nodes ⊆ f'.nodes) :
    BelowBase f' g := by
  obtain ⟨pos, bounds, hbase, hg⟩ := h
  exact ⟨pos, bounds, hsub hbase, hg⟩

theorem map_node_sightingsAll (seen : Nat → Bool) (args : List Formula) :
    (sightingsAll seen args).map Sighting.node = (nodesAll args).filter isReference := by
  induction args generalizing seen with
  | nil => rfl
  | cons a rest ih => simp [sightingsAll, nodesAll, map_node_sightings, ih]

theorem node_mem_nodesAll {seen : Nat → Bool} {args : List Formula} {s : Sighting}
    (h : s ∈ sightingsAll seen args) : s.node ∈ nodesAll args := by
  have hmem : s.node ∈ (sightingsAll seen args).map Sighting.node := List.mem_map_of_mem h
  rw [map_node_sightingsAll] at hmem
  exact (List.mem_filter.1 hmem).1

theorem nodes_subset_nodesAll {a : Formula} {args : List Formula} (h : a ∈ args) :
    a.nodes ⊆ nodesAll args := by
  induction args with
  | nil => cases h
  | cons b rest ih =>
    rw [nodesAll]
    rcases List.mem_cons.1 h with rfl | hrest
    · exact List.subset_append_left ..
    · exact List.Subset.trans (ih hrest) (List.subset_append_right ..)

/-- The reference is marked as `seen` says, or it is unmarked and below a custom base of `f`. -/
def Sighting.Follows (s : Sighting) (seen : Bool) (f : Formula) : Prop :=
  s.seen = seen ∨ s.seen = false ∧ BelowBase f s.node

theorem Sighting.Follows.mono {s : Sighting} {seen : Bool} {f f' : Formula}
    (h : s.Follows seen f) (hsub : f.nodes ⊆ f'.nodes) : s.Follows seen f' :=
  h.imp_right fun ⟨hunseen, hbelow⟩ => ⟨hunseen, hbelow.mono hsub⟩

theorem Sighting.Follows.unseen {s : Sighting} (h : s.Follows false f) : s.seen = false := by
  rcases h with hunseen | ⟨hunseen, -⟩
  · exact hunseen
  · exact hunseen

theorem follows_of_mem (seen : Bool) (f : Formula) : ∀ s ∈ sightings seen f, s.Follows seen f := by
  apply sightings.induct
    (fun seen f => ∀ s ∈ sightings seen f, s.Follows seen f)
    (fun seen args => ∀ s ∈ sightingsAll seen args, ∃ i, ∃ a ∈ args, s.Follows (seen i) a)
  case case8 =>
    intro seen pos key
    exact List.forall_mem_singleton.2 (.inl rfl)
  case case9 =>
    intro seen pos bounds ih s hs
    rw [sightings] at hs
    have hunseen : s.seen = false := by
      obtain ⟨i, a, ha, hfollows⟩ := ih s hs
      exact hfollows.unseen
    exact .inr ⟨hunseen, pos, bounds, self_mem_nodes _, node_mem_nodesAll hs⟩
  case case10 =>
    intro seen pos hours basePos bounds ihh ihb s hs
    rw [sightings] at hs
    rcases List.mem_append.1 hs with hs | hs
    · refine (ihh s hs).mono ?_
      simp [nodes, nodesAll]
    · obtain ⟨i, a, ha, hfollows⟩ := ihb s hs
      have hbelow : BelowBase (call pos .proportionalHours [hours, customSpan basePos bounds])
          s.node := ⟨basePos, bounds, by simp [nodes, nodesAll], node_mem_nodesAll hs⟩
      rcases hfollows with hseen | ⟨hunseen, -⟩
      · by_cases hi : i < 2
        · exact .inl (by simpa [hi] using hseen)
        · exact .inr ⟨by simpa [hi] using hseen, hbelow⟩
      · exact .inr ⟨hunseen, hbelow⟩
  case case11 =>
    intro seen pos function args hslot ih s hs
    rw [sightings] at hs
    · obtain ⟨i, a, ha, hfollows⟩ := ih s hs
      exact hfollows.mono (List.Subset.trans (nodes_subset_nodesAll ha) (List.subset_cons_self ..))
    · exact hslot
  case case12 | case13 =>
    intro seen pos _ left right ihl ihr
    refine List.forall_mem_append.2
      ⟨fun s hs => (ihl s hs).mono ?_, fun s hs => (ihr s hs).mono ?_⟩
    · simp [nodes]
    · simp [nodes]
  case case14 =>
    intro seen pos c t ihc iht
    refine List.forall_mem_append.2
      ⟨fun s hs => (ihc s hs).mono ?_, fun s hs => (iht s hs).mono ?_⟩
    · simp [nodes]
    · simp [nodes]
  case case15 =>
    intro seen pos c t e ihc iht ihe
    refine List.forall_mem_append.2 ⟨List.forall_mem_append.2
      ⟨fun s hs => (ihc s hs).mono fun g hg => ?_, fun s hs => (iht s hs).mono fun g hg => ?_⟩,
      fun s hs => (ihe s hs).mono fun g hg => ?_⟩
    all_goals simp [nodes, hg]
  case case17 =>
    intro seen a rest iha ihrest s hs
    rcases List.mem_append.1 hs with hs | hs
    · exact ⟨0, a, List.mem_cons_self, iha s hs⟩
    · obtain ⟨i, b, hb, hfollows⟩ := ihrest s hs
      exact ⟨i + 1, b, List.mem_cons_of_mem _ hb, hfollows⟩
  all_goals
    intros
    contradiction

/-! ## The check reports what it sees -/

/-- The check reports nothing of references that it does not come to. -/
theorem reported_unseen (f : Formula) : reported scope (sightings false f) = [] := by
  rw [reported, List.flatMap_eq_nil_iff]
  intro s hs
  rw [Sighting.faults, (follows_of_mem false f s hs).unseen]
  rfl

theorem reported_unseenAll (bounds : List Formula) :
    reported scope (sightingsAll (fun _ => false) bounds) = [] :=
  reported_unseen (customSpan .start bounds)

/-- Words in argument places hold nothing that the check comes to. -/
theorem reported_placeWord {seen : Bool} (h : f.isPlaceWord = true) :
    reported scope (sightings seen f) = [] := by
  cases f with
  | direction pos d => rfl
  | span pos b => rfl
  | customSpan pos bounds => exact reported_unseenAll bounds
  | _ => cases h

section Arguments

variable {inside : List SemanticError}
  (ih : referenceErrors inside = reported scope (sightings true f))
include ih

theorem referenceErrors_numberFaults (argument : NumberArgument) :
    referenceErrors (numberFaults argument f inside) = reported scope (sightings true f) := by
  cases f with
  | number pos value =>
    unfold numberFaults literalFaults
    dsimp only
    split <;> rfl
  | _ =>
    rw [numberFaults, referenceErrors_append, ih, referenceErrors_kindFaults fun _ => rfl,
      List.append_nil]
    simp

theorem referenceErrors_directionFaults :
    referenceErrors (directionFaults f inside) = reported scope (sightings true f) := by
  cases f with
  | direction pos d => rfl
  | span pos b => rfl
  | customSpan pos bounds => exact (reported_unseenAll bounds).symm
  | _ => exact ih

theorem referenceErrors_baseFaults :
    referenceErrors (baseFaults f inside) = reported scope (sightings true f) := by
  cases f with
  | direction pos d => rfl
  | span pos b => rfl
  | _ => exact ih

end Arguments

theorem referenceErrors_faults (scope : Scope) (f : Formula) :
    referenceErrors (faults scope f) = reported scope (sightings true f) := by
  apply faults.induct
    (fun f => referenceErrors (faults scope f) = reported scope (sightings true f))
    (fun args => referenceErrors (strayFaults scope args) =
      reported scope (sightingsAll (fun _ => true) args))
    (fun labels bounds => referenceErrors (boundFaults scope labels bounds) =
      reported scope (sightingsAll (fun i => i < labels.length) bounds))
  case case8 =>
    intro pos bounds
    exact (reported_unseenAll bounds).symm
  case case9 =>
    intro pos key
    rw [faults, referenceErrors_referenceFaults]
    exact (List.append_nil _).symm
  case case10 =>
    intro pos degrees crossing ihd ihc
    rw [faults, referenceErrors_append, referenceErrors_numberFaults ihd,
      referenceErrors_directionFaults ihc]
    simp [sightings, sightingsAll]
  case case11 =>
    intro pos hours basePos bounds ihh ihb
    have hcount : referenceErrors
        (if bounds.length = 2 then [] else [⟨.boundCount bounds.length, basePos⟩]) = [] := by
      split <;> rfl
    rw [faults, referenceErrors_append, referenceErrors_append, referenceErrors_numberFaults ihh,
      hcount, ihb]
    simp [sightings]
  case case12 =>
    intro pos hours base hbase ihh ihb
    rw [faults, referenceErrors_append, referenceErrors_numberFaults ihh,
      referenceErrors_baseFaults ihb, sightings]
    · simp [sightingsAll]
    · intro _ basePos bounds _ hargs
      simp only [List.cons.injEq, and_true] at hargs
      exact hbase basePos bounds hargs.2
    · exact hbase
  case case13 =>
    intro pos first second ihf ihs
    have hkind (i : Nat) (g : Formula) :
        referenceErrors (kindFaults g .time (.midpointArgument i)) = [] :=
      referenceErrors_kindFaults fun _ => rfl
    simp [faults, sightings, sightingsAll, hkind, ihf, ihs]
  case case14 =>
    intro pos function args hsolar hcustom hhours hmidpoint ih
    rw [faults, sightings, ← ih]
    · rfl
    · exact hcustom
    · exact hsolar
    · exact hcustom
    · exact hhours
    · exact hmidpoint
  case case15 =>
    intro pos op left right ihl ihr
    simp [faults, sightings, referenceErrors_operatorFaults, ihl, ihr]
  case case16 =>
    intro pos c t ihc iht
    have hkind : referenceErrors (kindFaults c .boolean .conditionKind) = [] :=
      referenceErrors_kindFaults fun _ => rfl
    simp [faults, sightings, hkind, ihc, iht]
  case case17 =>
    intro pos c t e ihc iht ihe
    have hcondition : referenceErrors (kindFaults c .boolean .conditionKind) = [] :=
      referenceErrors_kindFaults fun _ => rfl
    have hbranch : referenceErrors (kindFaults e t.kind (.branchKinds t.kind)) = [] :=
      referenceErrors_kindFaults fun _ => rfl
    simp [faults, sightings, hcondition, hbranch, ihc, iht, ihe]
  case case18 =>
    intro pos relation left right ihl ihr
    simp [faults, sightings, referenceErrors_relationFaults, ihl, ihr]
  case case20 =>
    intro a rest iha ihrest
    rw [strayFaults, sightingsAll, referenceErrors_append, reported_append, ihrest]
    by_cases hword : a.isPlaceWord = true
    · rw [if_pos hword, reported_placeWord hword]
      rfl
    · rw [if_neg hword, iha]
  case case21 =>
    intro label labels bound bounds ihbound ihbounds
    have hkind : referenceErrors (kindFaults bound .time (.boundKind label)) = [] :=
      referenceErrors_kindFaults fun _ => rfl
    simp [boundFaults, sightingsAll, hkind, ihbound, ihbounds]
  case case22 =>
    intro bounds labels hend
    match labels, bounds with
    | [], bounds =>
      rw [boundFaults]
      · exact (reported_unseenAll bounds).symm
      · exact hend
    | _ :: _, [] => rfl
    | label :: labels, bound :: bounds => exact (hend label labels bound bounds rfl rfl).elim
  all_goals
    intros
    rfl

/-- **What the check says of references**: the faults of those it comes to, in reading order. -/
theorem referenceErrors_check (scope : Scope) (f : Formula) :
    referenceErrors (check scope f) = reported scope (sightings true f) := by
  rw [check, referenceErrors_append, referenceErrors_faults,
    referenceErrors_kindFaults fun _ => rfl, List.append_nil]

theorem exists_of_referenceFaults (pos : Position) {key : String} (hkeys : scope.keys ≠ [])
    (hbarred : scope.own = some key ∨ key ∉ scope.keys) :
    ∃ e ∈ referenceFaults scope pos key, e.pos = pos ∧
      (e.cause = .selfReference key ∨ e.cause = .undefinedReference key scope.keys) := by
  unfold referenceFaults
  split
  next hown => exact ⟨_, List.mem_cons_self, rfl, .inl rfl⟩
  next hown =>
    have hunknown : (!scope.keys.isEmpty && !scope.keys.contains key) = true := by
      simpa [hkeys] using hbarred.resolve_left hown
    rw [if_pos hunknown]
    exact ⟨_, List.mem_cons_self, rfl, .inr rfl⟩

/-- **The references of a formula are checked** wherever they stand, but for bounds of custom bases
out of their slot or in excess: every reference is in the list of sightings, the unmarked ones stand
below custom bases, a marked one that the scope does not allow is reported at its place, and nothing
else is reported of references. -/
theorem check_references (hkeys : scope.keys ≠ []) (f : Formula) :
    (sightings true f).map Sighting.node = f.nodes.filter isReference ∧
      (∀ s ∈ sightings true f, s.seen = false → BelowBase f s.node) ∧
      (∀ s ∈ sightings true f, s.seen = true → scope.own = some s.key ∨ s.key ∉ scope.keys →
        ∃ e ∈ check scope f, e.pos = s.pos ∧
          (e.cause = .selfReference s.key ∨ e.cause = .undefinedReference s.key scope.keys)) ∧
      referenceErrors (check scope f) = reported scope (sightings true f) := by
  refine ⟨map_node_sightings true f, fun s hs hunseen => ?_, fun s hs hseen hbarred => ?_,
    referenceErrors_check scope f⟩
  · rcases follows_of_mem true f s hs with hseen | ⟨-, hbelow⟩
    · rw [hunseen] at hseen
      cases hseen
    · exact hbelow
  · obtain ⟨e, he, hpos, hcause⟩ := exists_of_referenceFaults s.pos hkeys hbarred
    have hreported : e ∈ referenceErrors (check scope f) := by
      rw [referenceErrors_check]
      refine List.mem_flatMap.2 ⟨s, hs, ?_⟩
      rwa [Sighting.faults, if_pos hseen]
    exact ⟨e, (List.mem_filter.1 hreported).1, hpos, hcause⟩

/-- `proportional_hours(@dawn, custom(sunrise, @dusk, @night))` -/
def overfullHours : Formula :=
  call ⟨1, 1⟩ .proportionalHours
    [reference ⟨1, 20⟩ "dawn",
      customSpan ⟨1, 27⟩ [primitive ⟨1, 34⟩ .sunrise, reference ⟨1, 43⟩ "dusk",
        reference ⟨1, 50⟩ "night"]]

/-- The bound in excess is not looked up. -/
theorem check_overfullHours : (⟨["dusk"], none⟩ : Scope).keys ≠ [] ∧
    sightings true overfullHours =
      [⟨⟨1, 20⟩, "dawn", true⟩, ⟨⟨1, 43⟩, "dusk", true⟩, ⟨⟨1, 50⟩, "night", false⟩] ∧
    ∃ e ∈ check ⟨["dusk"], none⟩ overfullHours, e.pos = ⟨1, 20⟩ ∧
      (e.cause = .selfReference "dawn" ∨ e.cause = .undefinedReference "dawn" ["dusk"]) := by
  have hkeys : (⟨["dusk"], none⟩ : Scope).keys ≠ [] := List.cons_ne_nil _ _
  obtain ⟨-, -, hseen, -⟩ := check_references hkeys overfullHours
  have hmem : (⟨⟨1, 20⟩, "dawn", true⟩ : Sighting) ∈ sightings true overfullHours :=
    List.mem_cons_self
  exact ⟨hkeys, rfl, hseen _ hmem rfl (.inr (by decide))⟩

/-- `solar(16, custom(@missing, sunset))` -/
def boundedSolar : Formula :=
  call ⟨1, 1⟩ .solar
    [number ⟨1, 7⟩ 16,
      customSpan ⟨1, 11⟩ [reference ⟨1, 18⟩ "missing", primitive ⟨1, 28⟩ .sunset]]

/-- Below a base that is out of its slot nothing is looked up. -/
theorem check_boundedSolar : reference ⟨1, 18⟩ "missing" ∈ boundedSolar.nodes ∧
    "missing" ∉ ["alos"] ∧
    ∀ e ∈ check ⟨["alos"], none⟩ boundedSolar, e.cause.isReference = false := by
  have hnode : reference ⟨1, 18⟩ "missing" ∈ boundedSolar.nodes := by
    simp [boundedSolar, nodes, nodesAll]
  have hnone : referenceErrors (check ⟨["alos"], none⟩ boundedSolar) = [] := by
    rw [referenceErrors_check]
    rfl
  refine ⟨hnode, by decide, fun e he => ?_⟩
  simpa using List.filter_eq_nil_iff.1 hnone e he

end Formula

end Sundial
