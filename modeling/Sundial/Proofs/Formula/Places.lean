import Sundial.Formula.Checking
import Sundial.Proofs.Evaluation.Places
import Sundial.Proofs.Evaluation.Reachable

/-!
# The places of diagnostics

What is wrong with a text is told in diagnostics, and each of them is placed at a token of the text:
checking finds faults at nodes of the formula only (`allAt_check`), and so does evaluation, and the
nodes of a formula that is read from a text are at the tokens of the text. `diagnostics_placed` is
about all three stages.
-/

set_option autoImplicit false

namespace Sundial

variable {P : Position → Prop}

namespace Formula

variable {scope : Scope} {f left right : Formula} {pos : Position} {inside : List SemanticError}

/-! ## Faults that checking finds -/

theorem allAt_referenceFaults (h : P pos) (key : String) :
    AllAt P (referenceFaults scope pos key) :=
  allAt_ite (allAt_single h) (allAt_ite (allAt_single h) allAt_nil)

theorem allAt_operatorFaults (h : P pos) (op : Operator) (l r : ValueKind) :
    AllAt P (operatorFaults pos op l r) := by
  cases op with
  | sub => exact allAt_nil
  | _ => exact allAt_ite (allAt_single h) allAt_nil

theorem allAt_kindFaults (h : P f.pos) (wanted : ValueKind) (fault : ValueKind → SemanticFault) :
    AllAt P (kindFaults f wanted fault) :=
  allAt_ite allAt_nil (allAt_single h)

theorem allAt_circumstanceFaults (side : Formula) (h : P f.pos) :
    AllAt P (circumstanceFaults side f) := by
  cases side with
  | circumstance => exact allAt_ite allAt_nil (allAt_single h)
  | _ => exact allAt_nil

theorem allAt_comparisonFaults (relation : Relation) (h : P pos) (l r : ValueKind) :
    AllAt P (comparisonFaults pos relation l r) :=
  allAt_ite (allAt_single h) (allAt_ite (allAt_single h) (allAt_ite (allAt_single h) allAt_nil))

theorem allAt_relationFaults (relation : Relation) (h : P pos) (hl : P left.pos)
    (hr : P right.pos) : AllAt P (relationFaults pos relation left right) := by
  have hside : ∀ side : Formula, P side.pos → AllAt P
      (if side.kind = .boolean then [] else
        [(⟨.logicalOperand relation, side.pos⟩ : SemanticError)]) :=
    fun side hside => allAt_ite allAt_nil (allAt_single hside)
  refine allAt_ite ((hside left hl).append ((hside right hr).append allAt_nil)) ?_
  -- A fault about a circumstance stands at the side opposite to it.
  have hcircumstances :=
    (allAt_circumstanceFaults left hr).append (allAt_circumstanceFaults right hl)
  split
  · exact allAt_comparisonFaults relation h _ _
  · exact hcircumstances

theorem allAt_numberFaults (argument : NumberArgument) (h : P f.pos) (hinside : AllAt P inside) :
    AllAt P (numberFaults argument f inside) := by
  cases f with
  | number => exact allAt_ite (allAt_single h) allAt_nil
  | _ => exact hinside.append (allAt_kindFaults h _ _)

theorem allAt_directionFaults (h : P f.pos) (hinside : AllAt P inside) :
    AllAt P (directionFaults f inside) := by
  cases f with
  | direction => exact allAt_nil
  | span | customSpan => exact allAt_single h
  | _ => exact (allAt_single h).append hinside

theorem allAt_baseFaults (h : P f.pos) (hinside : AllAt P inside) :
    AllAt P (baseFaults f inside) := by
  cases f with
  | span => exact allAt_nil
  | direction => exact allAt_single h
  | _ => exact (allAt_single h).append hinside

theorem allAt_boundFaults {bounds : List Formula} (hpos : ∀ b ∈ bounds, P b.pos)
    (h : ∀ b ∈ bounds, AllAt P (faults scope b)) (labels : List String) :
    AllAt P (boundFaults scope labels bounds) := by
  induction bounds generalizing labels with
  | nil => cases labels <;> exact allAt_nil
  | cons bound bounds ih =>
    rw [List.forall_mem_cons] at hpos h
    cases labels with
    | nil => exact allAt_nil
    | cons label labels =>
      exact (h.1.append (allAt_kindFaults hpos.1 _ _)).append (ih hpos.2 h.2 labels)

theorem allAt_strayFaults {args : List Formula} (h : ∀ a ∈ args, AllAt P (faults scope a)) :
    AllAt P (strayFaults scope args) := by
  induction args with
  | nil => exact allAt_nil
  | cons a args ih =>
    rw [List.forall_mem_cons] at h
    exact (allAt_ite allAt_nil h.1).append (ih h.2)

theorem allAt_callFaults {function : BuiltIn} {args : List Formula} (hpos : P pos)
    (hargs : ∀ a ∈ args, a.Placed P)
    (h : ∀ a ∈ args, ∀ g ∈ a.nodes, AllAt P (faults scope g)) :
    AllAt P (faults scope (call pos function args)) := by
  have hself : ∀ a ∈ args, AllAt P (faults scope a) := fun a ha => h a ha a (self_mem_nodes a)
  -- Every function takes two arguments; with any other number the arguments are checked alone.
  by_cases hpair : ∃ a b, args = [a, b]
  · obtain ⟨a, b, rfl⟩ := hpair
    simp only [List.forall_mem_cons] at hargs hself
    obtain ⟨ha, hb, -⟩ := hargs
    obtain ⟨hfaultsa, hfaultsb, -⟩ := hself
    cases function with
    | solar =>
      exact (allAt_numberFaults _ ha.pos hfaultsa).append (allAt_directionFaults hb.pos hfaultsb)
    | midpoint =>
      exact (hfaultsa.append (allAt_kindFaults ha.pos _ _)).append
        (hfaultsb.append (allAt_kindFaults hb.pos _ _))
    | proportionalHours =>
      have hcount := allAt_numberFaults .hourCount ha.pos hfaultsa
      cases b with
      | customSpan basePos bounds =>
        obtain ⟨hbase, hplaced⟩ := forall_nodes_customSpan.1 hb
        obtain ⟨-, hbounds⟩ := forall_nodes_customSpan.1 (h (customSpan basePos bounds) (by simp))
        refine hcount.append ((allAt_ite allAt_nil (allAt_single hbase)).append ?_)
        exact allAt_boundFaults (fun b hb => Placed.pos (hplaced b hb))
          (fun b hb => hbounds b hb b (self_mem_nodes b)) _
      | _ => exact hcount.append (allAt_baseFaults hb.pos hfaultsb)
  · have hnone : ∀ a b, args ≠ [a, b] := fun a b hab => hpair ⟨a, b, hab⟩
    rw [faults]
    · exact (allAt_single hpos).append (allAt_strayFaults hself)
    all_goals
      intros
      apply hnone
      assumption

/-- What checking finds in a formula or below it is at nodes of the formula. -/
theorem allAt_faults (scope : Scope) (h : f.Placed P) :
    ∀ g ∈ f.nodes, AllAt P (faults scope g) := by
  induction f using inductionOn with
  | call pos function args ih =>
    obtain ⟨hpos, hargs⟩ := forall_nodes_call.1 h
    have hfaults := fun a ha => ih a ha (hargs a ha)
    exact forall_nodes_call.2 ⟨allAt_callFaults hpos hargs hfaults, hfaults⟩
  | customSpan pos bounds ih =>
    obtain ⟨hpos, hbounds⟩ := forall_nodes_customSpan.1 h
    exact forall_nodes_customSpan.2 ⟨allAt_single hpos, fun a ha => ih a ha (hbounds a ha)⟩
  | binary pos op left right ihl ihr =>
    obtain ⟨hpos, hl, hr⟩ := forall_nodes_binary.1 h
    refine forall_nodes_binary.2 ⟨?_, ihl hl, ihr hr⟩
    exact ((ihl hl _ (self_mem_nodes left)).append (ihr hr _ (self_mem_nodes right))).append
      (allAt_operatorFaults hpos _ _ _)
  | condition pos relation left right ihl ihr =>
    obtain ⟨hpos, hl, hr⟩ := forall_nodes_condition.1 h
    refine forall_nodes_condition.2 ⟨?_, ihl hl, ihr hr⟩
    exact ((ihl hl _ (self_mem_nodes left)).append (ihr hr _ (self_mem_nodes right))).append
      (allAt_relationFaults _ hpos (Placed.pos hl) (Placed.pos hr))
  | ifThen pos c t ihc iht =>
    obtain ⟨hpos, hc, ht⟩ := forall_nodes_ifThen.1 h
    refine forall_nodes_ifThen.2 ⟨?_, ihc hc, iht ht⟩
    exact ((ihc hc _ (self_mem_nodes c)).append (allAt_kindFaults (Placed.pos hc) _ _)).append
      (iht ht _ (self_mem_nodes t))
  | ifElse pos c t e ihc iht ihe =>
    obtain ⟨hpos, hc, ht, he⟩ := forall_nodes_ifElse.1 h
    refine forall_nodes_ifElse.2 ⟨?_, ihc hc, iht ht, ihe he⟩
    exact ((((ihc hc _ (self_mem_nodes c)).append (allAt_kindFaults (Placed.pos hc) _ _)).append
      (iht ht _ (self_mem_nodes t))).append (ihe he _ (self_mem_nodes e))).append
      (allAt_kindFaults (Placed.pos he) _ _)
  | reference pos key =>
    exact List.forall_mem_singleton.2 (allAt_referenceFaults h.pos key)
  | direction | span => exact List.forall_mem_singleton.2 (allAt_single h.pos)
  | primitive | duration | number | string | circumstance =>
    exact List.forall_mem_singleton.2 allAt_nil

theorem allAt_check (scope : Scope) (h : f.Placed P) : AllAt P (check scope f) :=
  (allAt_faults scope h f (self_mem_nodes f)).append (allAt_kindFaults h.pos _ _)

end Formula

/-! ## Texts -/

/-- There are diagnostics, all of the stage, and each names the place of a token of the text. -/
def Diagnostics.PlacedIn (text : String) (stage : Stage) (ds : List Diagnostic) : Prop :=
  ds ≠ [] ∧ ∀ d ∈ ds, d.stage = stage ∧
    ∃ t ∈ tokens text, d.line = some t.pos.line ∧ d.column = some t.pos.column

open Formula (AtToken)

variable {text : String} {ε : Type} [Fault ε]

theorem Diagnostics.placedIn_located {xs : List (Located ε)} (hne : xs ≠ [])
    (h : AllAt (AtToken (tokens text)) xs) :
    PlacedIn text (Fault.stage ε) (xs.map Located.diagnostic) := by
  refine ⟨fun hnil => hne (List.map_eq_nil_iff.1 hnil), fun d hd => ?_⟩
  obtain ⟨x, hx, rfl⟩ := List.mem_map.1 hd
  obtain ⟨t, ht, hpos⟩ := h x hx
  refine ⟨rfl, t, ht, ?_⟩
  rw [hpos]
  exact ⟨rfl, rfl⟩

/-- Source lines change neither stages nor places. -/
theorem Diagnostics.PlacedIn.withSource {stage : Stage} {ds : List Diagnostic}
    (h : PlacedIn text stage ds) (source : String) :
    PlacedIn text stage (Diagnostics.withSource source ds) := by
  refine ⟨fun hnil => h.1 (List.map_eq_nil_iff.1 hnil), fun d' hd' => ?_⟩
  obtain ⟨d, hd, rfl⟩ := List.mem_map.1 hd'
  rw [Diagnostic.withSource]
  split <;> exact h.2 d hd

namespace Formula

theorem tokens_ne_nil (text : String) : tokens text ≠ [] := by
  rw [tokens, tokensFrom]
  split <;> exact List.cons_ne_nil _ _

/-- The nodes of what is read from a text are at tokens of the text, and so are the faults if it is
not read. -/
theorem read_placed (text : String) :
    (∀ f, read text = .ok f → f.Placed (AtToken (tokens text))) ∧
    ∀ es, read text = .error es → es ≠ [] ∧ AllAt (AtToken (tokens text)) es := by
  rw [read, tokenize]
  cases hfind : (tokens text).find? fun t => t.kind = .illegal with
  | none => exact readTokens_placed (tokens_ne_nil text)
  | some t =>
    refine ⟨?_, ?_⟩
    · rintro _ ⟨⟩
    · rintro _ ⟨⟩
      exact ⟨List.cons_ne_nil _ _, allAt_single ⟨t, List.mem_of_find?_eq_some hfind, rfl⟩⟩

theorem read_of_parse {f : Formula} (h : parse text = .ok f) : read text = .ok f := by
  rw [parse] at h
  cases hread : read text with
  | ok g => simpa [Except.mapError, hread] using h
  | error es => simp [Except.mapError, hread] at h

/-- **Whatever is wrong with a text is told at a token of the text.** A text that is no formula is
refused with parsing diagnostics; a formula that is not valid in its scope has diagnostics of
checking; and an evaluation that gives no time, in whatever context, has diagnostics of evaluation.
There are always some, and all of them are placed at tokens of the text. -/
theorem diagnostics_placed (text : String) (scope : Scope) :
    (∀ ds, parse text = .error ds → judge scope text = ⟨none, ds⟩ ∧
      Diagnostics.PlacedIn text .parsing ds) ∧
    ∀ f, parse text = .ok f →
      (judge scope text).formula = some f ∧
      ((judge scope text).isValid = false →
        Diagnostics.PlacedIn text .checking (judge scope text).diagnostics) ∧
      ∀ c es, (f.evaluate c).1 = .error es →
        Diagnostics.PlacedIn text .evaluation (es.map Located.diagnostic) := by
  obtain ⟨hnodes, hfaults⟩ := read_placed text
  refine ⟨fun ds hparse => ⟨?_, ?_⟩, fun f hparse => ?_⟩
  · rw [judge, hparse]
  · rw [parse] at hparse
    cases hread : read text with
    | ok f =>
      rw [hread] at hparse
      cases hparse
    | error es =>
      rw [hread] at hparse
      obtain rfl := Except.error.inj hparse
      obtain ⟨hne, hall⟩ := hfaults es hread
      exact (Diagnostics.placedIn_located hne hall).withSource text
  · have hplaced := hnodes f (read_of_parse hparse)
    rw [judge, hparse]
    refine ⟨rfl, fun hinvalid => ?_, fun c es herror => ?_⟩
    · have hne : check scope f ≠ [] := by
        rintro hnone
        simp [Verdict.isValid, hnone, Diagnostics.withSource] at hinvalid
      exact (Diagnostics.placedIn_located hne (allAt_check scope hplaced)).withSource text
    · obtain ⟨hne, hall⟩ := Evaluator.allAt_run hplaced herror
      exact Diagnostics.placedIn_located hne hall

/-- One text for each stage: an operand is missing, two times are added, a key has no time. -/
theorem diagnostics_placed_stages :
    (∃ ds, parse "sunrise +" = .error ds ∧ Diagnostics.PlacedIn "sunrise +" .parsing ds) ∧
    ((judge ⟨[], none⟩ "sunrise + sunset").isValid = false ∧
      Diagnostics.PlacedIn "sunrise + sunset" .checking
        (judge ⟨[], none⟩ "sunrise + sunset").diagnostics) ∧
    ∃ f es, parse "@dusk" = .ok f ∧ (f.evaluate steadyDay).1 = .error es ∧
      Diagnostics.PlacedIn "@dusk" .evaluation (es.map Located.diagnostic) := by
  have hrefused : (parse "sunrise +").toOption = none := by decide +kernel
  have hinvalid : (judge ⟨[], none⟩ "sunrise + sunset").isValid = false := by decide +kernel
  have hread : (parse "sunrise + sunset").toOption.isSome = true := by decide +kernel
  have hfails : ((parse "@dusk").toOption.map fun f =>
      (f.evaluate steadyDay).1.toOption) = some none := by decide +kernel
  refine ⟨?_, ⟨hinvalid, ?_⟩, ?_⟩
  · cases hparse : parse "sunrise +" with
    | ok f =>
      rw [hparse] at hrefused
      cases hrefused
    | error ds => exact ⟨ds, rfl, ((diagnostics_placed _ ⟨[], none⟩).1 ds hparse).2⟩
  · cases hparse : parse "sunrise + sunset" with
    | ok f => exact ((diagnostics_placed _ _).2 f hparse).2.1 hinvalid
    | error ds =>
      rw [hparse] at hread
      cases hread
  · cases hparse : parse "@dusk" with
    | ok f =>
      rw [hparse] at hfails
      cases hrun : (f.evaluate steadyDay).1 with
      | ok t =>
        rw [Except.toOption, Option.map_some, hrun] at hfails
        cases hfails
      | error es =>
        exact ⟨f, es, rfl, hrun, ((diagnostics_placed _ ⟨[], none⟩).2 f hparse).2.2 _ es hrun⟩
    | error ds =>
      rw [hparse] at hfails
      cases hfails

end Formula

end Sundial
