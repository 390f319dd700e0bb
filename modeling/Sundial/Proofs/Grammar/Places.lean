import Sundial.Proofs.Grammar.Recognition

/-!
# The places that readers point to

A reader takes positions from the tokens ahead and from the end of the formula, and from nowhere
else: if these have a property, so have the positions of the faults that it reports and of the nodes
that it builds. `Points` says so of one reader, `PointsAt` of all readers at one bound on the depth,
and the induction is on that bound. For a whole list of tokens every fault and every node is placed
at a token (`readTokens_placed`).
-/

set_option autoImplicit false

namespace Sundial

variable {P : Position → Prop}

/-- All faults are at positions with the property. -/
def AllAt {ε : Type} (P : Position → Prop) (xs : List (Located ε)) : Prop := ∀ x ∈ xs, P x.pos

section AllAt

variable {ε : Type} {xs ys : List (Located ε)}

theorem allAt_nil : AllAt P ([] : List (Located ε)) := fun _ hx => absurd hx List.not_mem_nil

theorem allAt_single {x : Located ε} (h : P x.pos) : AllAt P [x] := List.forall_mem_singleton.2 h

theorem AllAt.append (h : AllAt P xs) (h' : AllAt P ys) : AllAt P (xs ++ ys) :=
  List.forall_mem_append.2 ⟨h, h'⟩

theorem allAt_ite {c : Prop} [Decidable c] (h : AllAt P xs) (h' : AllAt P ys) :
    AllAt P (if c then xs else ys) := by
  split
  · exact h
  · exact h'

end AllAt

/-- The tokens ahead, the end and the faults of a reading are at positions with the property. -/
structure Reading.Within (P : Position → Prop) (s : Reading) : Prop where
  ahead : ∀ t ∈ s.ahead, P t.pos
  finish : P s.finish
  faults : AllAt P s.faults

namespace Reading.Within

variable {s : Reading}

theorem next (h : s.Within P) : P s.next.pos := by
  rw [Reading.next]
  cases hahead : s.ahead with
  | nil => exact h.finish
  | cons t ts =>
    refine h.ahead t ?_
    rw [hahead]
    exact List.mem_cons_self

theorem passed (h : s.Within P) : s.passed.Within P :=
  ⟨fun t ht => h.ahead t (List.mem_of_mem_tail ht), h.finish, h.faults⟩

theorem addFault (h : s.Within P) {x : SyntaxError} (hx : P x.pos) :
    ({ s with faults := s.faults ++ [x] } : Reading).Within P :=
  ⟨h.ahead, h.finish, h.faults.append (allAt_single hx)⟩

end Reading.Within

namespace Formula

/-- All nodes of the formula are at positions with the property. -/
def Placed (P : Position → Prop) (f : Formula) : Prop := ∀ g ∈ f.nodes, P g.pos

variable {f left right : Formula}

theorem Placed.pos (h : f.Placed P) : P f.pos := h f (self_mem_nodes f)

theorem placed_joined (op : Operator) (hl : left.Placed P) (hr : right.Placed P) :
    (joined op left right).Placed P :=
  forall_nodes_binary.2 ⟨hl.pos, hl, hr⟩

theorem placed_related (relation : Relation) (hl : left.Placed P) (hr : right.Placed P) :
    (related relation left right).Placed P :=
  forall_nodes_condition.2 ⟨hl.pos, hl, hr⟩

end Formula

open Formula (Placed)

namespace TokenReader

variable {α β : Type} {Q : α → Prop} {R : β → Prop} {p : TokenReader α} {t : Token}
  {pos : Position}

/-! ## Elementary readers -/

/-- From a reading within the positions the reader comes to one, its value has the property, and its
fault is at one of the positions. -/
def Points (P : Position → Prop) (p : TokenReader α) (Q : α → Prop) : Prop :=
  ∀ s : Reading, s.Within P → (p s).2.Within P ∧
    (∀ a, (p s).1 = .ok a → Q a) ∧ ∀ e, (p s).1 = .error e → P e.pos

theorem points_pure {a : α} (h : Q a) : Points P (pure a) Q := by
  refine fun s hs => ⟨hs, ?_, ?_⟩
  · rintro _ ⟨⟩
    exact h
  · rintro _ ⟨⟩

theorem points_fail (cause : SyntaxFault) (h : P pos) :
    Points P (fail cause pos : TokenReader α) Q := by
  refine fun s hs => ⟨hs, ?_, ?_⟩
  · rintro _ ⟨⟩
  · rintro _ ⟨⟩
    exact h

theorem points_peek : Points P peek fun t => P t.pos := by
  refine fun s hs => ⟨hs, ?_, ?_⟩
  · rintro _ ⟨⟩
    exact hs.next
  · rintro _ ⟨⟩

theorem points_peekSecond : Points P peekSecond fun _ => True :=
  fun _ hs => ⟨hs, fun _ _ => trivial, by rintro _ ⟨⟩⟩

theorem points_advance : Points P advance fun _ => True :=
  fun _ hs => ⟨hs.passed, fun _ _ => trivial, by rintro _ ⟨⟩⟩

theorem Points.bind {f : α → TokenReader β} (hp : Points P p Q)
    (hf : ∀ a, Q a → Points P (f a) R) : Points P (p >>= f) R := by
  intro s hs
  obtain ⟨hs', ha, he⟩ := hp s hs
  rcases hps : p s with ⟨e | a, s'⟩ <;> rw [hps] at hs' ha he
  · rw [bind_of_error hps]
    refine ⟨hs', ?_, ?_⟩
    · rintro _ ⟨⟩
    · rintro _ ⟨⟩
      exact he e rfl
  · rw [bind_of_ok hps]
    exact hf a (ha a rfl) s' hs'

theorem points_ite {c : Prop} [Decidable c] {p q : TokenReader α} (hp : Points P p Q)
    (hq : Points P q Q) : Points P (if c then p else q) Q := by
  split
  · exact hp
  · exact hq

theorem points_expect (what : Expectation) : Points P (expect what) fun t => P t.pos :=
  points_peek.bind fun _ ht =>
    points_ite (points_advance.bind fun _ _ => points_pure ht) (points_fail _ ht)

theorem points_lookUp (find : String → Option α) (ht : P t.pos) :
    Points P (lookUp find t) fun _ => True := by
  rw [lookUp]
  split
  · exact points_pure trivial
  · exact points_fail _ ht

theorem points_readNumber (ht : P t.pos) : Points P (readNumber t) fun _ => True := by
  rw [readNumber]
  split
  · exact points_pure trivial
  · exact points_fail _ ht

theorem points_readDuration (text : String) (ht : P t.pos) :
    Points P (readDuration t text) fun _ => True := by
  rw [readDuration]
  split
  · exact points_pure trivial
  · exact points_fail _ ht

theorem mem_of_mem_skipArgument {depth : Nat} {ts : List Token} (h : t ∈ skipArgument depth ts) :
    t ∈ ts := by
  fun_induction skipArgument depth ts with
  | case1 => exact h
  | case2 | case3 => exact h
  | case4 _ u us _ ih | case5 u us _ _ ih | case6 _ u us _ _ _ _ ih =>
    exact List.mem_cons_of_mem _ (ih h)

theorem Points.recover (hp : Points P p Q) :
    Points P (recover p) fun a => ∀ b, a = some b → Q b := by
  intro s hs
  obtain ⟨hs', ha, he⟩ := hp s hs
  simp only [TokenReader.recover]
  rcases hps : p s with ⟨e | a, s'⟩ <;> rw [hps] at hs' ha he
  · have hskipped : ({ s' with ahead := skipArgument 0 s'.ahead } : Reading).Within P :=
      ⟨fun t ht => hs'.ahead t (mem_of_mem_skipArgument ht), hs'.finish, hs'.faults⟩
    refine ⟨hskipped.addFault (he e rfl), ?_, ?_⟩
    · rintro _ ⟨⟩ _ ⟨⟩
    · rintro _ ⟨⟩
  · refine ⟨hs', ?_, ?_⟩
    · rintro _ ⟨⟩ _ ⟨⟩
      exact ha a rfl
    · rintro _ ⟨⟩

theorem points_exhausted : Points P (exhausted : TokenReader α) Q :=
  points_peek.bind fun _ ht => points_fail _ ht

/-! ## Readers of formulas -/

/-- A node without formulas below it is placed where it is itself. -/
theorem points_leaf {f : Formula} (hf : f.nodes = [f]) (h : P f.pos) :
    Points P (pure f) (Placed P) := by
  refine points_pure fun g hg => ?_
  rw [hf] at hg
  rwa [List.mem_singleton.1 hg]

theorem points_negative : Points P negative (Placed P) := by
  refine points_peek.bind fun minus hminus => points_advance.bind fun _ _ => ?_
  refine points_peek.bind fun t ht => ?_
  split
  · exact points_advance.bind fun _ _ => (points_readNumber ht).bind fun _ _ =>
      points_leaf rfl hminus
  · exact points_advance.bind fun _ _ => (points_readDuration _ ht).bind fun _ _ =>
      points_leaf rfl hminus
  · exact points_fail _ hminus

/-- The readers at one bound on the depth take no position from elsewhere. -/
structure PointsAt (P : Position → Prop) (n : Nat) : Prop where
  expression : Points P (expression n) (Placed P)
  sums : ∀ {left}, Placed P left → Points P (sums n left) (Placed P)
  term : Points P (term n) (Placed P)
  products : ∀ {left}, Placed P left → Points P (products n left) (Placed P)
  factor : Points P (factor n) (Placed P)
  call : ∀ {t}, P t.pos → Points P (call n t) (Placed P)
  base : ∀ {t}, P t.pos → Points P (base n t) (Placed P)
  arguments : ∀ {opened} owner, P opened →
    Points P (arguments n opened owner) fun as => ∀ a ∈ as, Placed P a
  argumentList : ∀ {opened} owner, P opened →
    Points P (argumentList n opened owner) fun as => ∀ a ∈ as, Placed P a
  conditional : ∀ {t}, P t.pos → Points P (conditional n t) (Placed P)
  elsePart : ∀ {t c b}, P t.pos → Placed P c → Placed P b →
    Points P (elsePart n t c b) (Placed P)
  either : Points P (eitherCondition n) (Placed P)
  eithers : ∀ {left}, Placed P left → Points P (eithers n left) (Placed P)
  both : Points P (bothCondition n) (Placed P)
  boths : ∀ {left}, Placed P left → Points P (boths n left) (Placed P)
  comparison : Points P (comparison n) (Placed P)

section PointsAt

variable {n : Nat}

theorem points_elsePart (hc : ∀ {t}, P t.pos → Points P (conditional n t) (Placed P))
    (he : Points P (expression n) (Placed P)) {c b : Formula} (ht : P t.pos) (hcond : Placed P c)
    (hthen : Placed P b) : Points P (elsePart n t c b) (Placed P) := by
  have hnodes : ∀ e, Placed P e → Placed P (.ifElse t.pos c b e) :=
    fun e he => Formula.forall_nodes_ifElse.2 ⟨ht, hcond, hthen, he⟩
  refine points_peek.bind fun u _ => points_ite ?_ ?_
  · refine points_advance.bind fun _ _ => points_peek.bind fun next hnext => points_ite ?_ ?_
    · exact points_advance.bind fun _ _ => (hc hnext).bind fun e he => points_pure (hnodes e he)
    · exact (points_expect _).bind fun _ _ => he.bind fun e he => (points_expect _).bind fun _ _ =>
        points_pure (hnodes e he)
  · exact points_pure (Formula.forall_nodes_ifThen.2 ⟨ht, hcond, hthen⟩)

theorem pointsAt_zero : PointsAt P 0 where
  expression := points_exhausted
  sums _ := points_exhausted
  term := points_exhausted
  products _ := points_exhausted
  factor := points_exhausted
  call _ := points_exhausted
  base _ := points_exhausted
  arguments _ _ := points_exhausted
  argumentList _ _ := points_exhausted
  conditional _ := points_exhausted
  elsePart := points_elsePart (fun _ => points_exhausted) points_exhausted
  either := points_exhausted
  eithers _ := points_exhausted
  both := points_exhausted
  boths _ := points_exhausted
  comparison := points_exhausted

theorem PointsAt.succ_factor (h : PointsAt P n) :
    Points P (TokenReader.factor (n + 1)) (Placed P) := by
  refine points_peek.bind fun t ht => ?_
  -- The cases are the kinds of the first token, and what starts with the token is placed there.
  split
  case h_1 =>
    exact points_advance.bind fun _ _ => (points_readNumber ht).bind fun _ _ => points_leaf rfl ht
  case h_2 =>
    exact points_advance.bind fun _ _ => (points_readDuration _ ht).bind fun _ _ =>
      points_leaf rfl ht
  case h_3 | h_7 => exact points_advance.bind fun _ _ => points_leaf rfl ht
  case h_4 => exact points_negative
  case h_5 | h_8 =>
    exact points_advance.bind fun _ _ => (points_lookUp _ ht).bind fun _ _ => points_leaf rfl ht
  case h_6 => exact points_advance.bind fun _ _ => h.call ht
  case h_9 => exact points_advance.bind fun _ _ => h.base ht
  case h_10 =>
    refine points_advance.bind fun _ _ => (points_lookUp _ ht).bind fun v _ => ?_
    refine points_peek.bind fun u _ => points_peekSecond.bind fun k _ => ?_
    exact points_ite
      (points_advance.bind fun _ _ => points_advance.bind fun _ _ => points_leaf rfl ht)
      (points_leaf rfl ht)
  case h_11 => exact points_advance.bind fun _ _ => h.conditional ht
  case h_12 =>
    exact points_advance.bind fun _ _ => h.expression.bind fun _ hf => (points_expect _).bind
      fun _ _ => points_pure hf
  case h_13 | h_14 | h_15 => exact points_fail _ ht

theorem PointsAt.succ_base (h : PointsAt P n) (ht : P t.pos) :
    Points P (TokenReader.base (n + 1) t) (Placed P) := by
  rw [TokenReader.base]
  split
  · refine points_peek.bind fun opening hopening => points_ite ?_ ?_
    · exact points_advance.bind fun _ _ => (h.arguments _ hopening).bind fun as has =>
        points_pure (Formula.forall_nodes_customSpan.2 ⟨ht, has⟩)
    · exact points_pure (Formula.forall_nodes_customSpan.2
        ⟨ht, fun a ha => absurd ha List.not_mem_nil⟩)
  · exact (points_lookUp _ ht).bind fun _ _ => points_leaf rfl ht

theorem PointsAt.succ_argumentList (h : PointsAt P n) {opened : Position} (owner : String)
    (hopened : P opened) : Points P (TokenReader.argumentList (n + 1) opened owner)
      fun as => ∀ a ∈ as, Placed P a := by
  refine h.expression.recover.bind fun a ha => points_peek.bind fun t ht => ?_
  have harguments : ∀ b ∈ a.toList, Placed P b := fun b hb => ha b (Option.mem_toList.1 hb)
  split
  · exact points_advance.bind fun _ _ => (h.argumentList _ hopened).bind fun as has =>
      points_pure (List.forall_mem_append.2 ⟨harguments, has⟩)
  · exact points_advance.bind fun _ _ => points_pure harguments
  · exact points_fail _ hopened
  · exact points_fail _ ht

theorem PointsAt.succ_conditional (h : PointsAt P n) (ht : P t.pos) :
    Points P (TokenReader.conditional (n + 1) t) (Placed P) := by
  rw [conditional_succ]
  exact (points_expect _).bind fun _ _ => h.either.bind fun c hc => (points_expect _).bind
    fun _ _ => (points_expect _).bind fun _ _ => h.expression.bind fun b hb =>
    (points_expect _).bind fun _ _ => h.elsePart ht hc hb

theorem PointsAt.succ_comparison (h : PointsAt P n) :
    Points P (TokenReader.comparison (n + 1)) (Placed P) := by
  refine h.factor.bind fun left hleft => points_peek.bind fun t _ => ?_
  split
  · exact points_pure hleft
  · exact points_advance.bind fun _ _ => h.factor.bind fun right hright =>
      points_pure (Formula.placed_related _ hleft hright)

/-- A chain points to what its left side, its operands and the rest of the chain point to. -/
theorem PointsAt.succ (h : PointsAt P n) : PointsAt P (n + 1) where
  expression := h.term.bind fun _ => h.sums
  sums hleft := by
    refine points_peek.bind fun t _ => ?_
    split
    · exact points_pure hleft
    · exact points_advance.bind fun _ _ => h.term.bind fun _ hright =>
        h.sums (Formula.placed_joined _ hleft hright)
  term := h.factor.bind fun _ => h.products
  products hleft := by
    refine points_peek.bind fun t _ => ?_
    split
    · exact points_pure hleft
    · exact points_advance.bind fun _ _ => h.factor.bind fun _ hright =>
        h.products (Formula.placed_joined _ hleft hright)
  factor := h.succ_factor
  call ht := (points_lookUp _ ht).bind fun _ _ => (points_expect _).bind fun _ hopening =>
    (h.arguments _ hopening).bind fun _ has =>
      points_pure (Formula.forall_nodes_call.2 ⟨ht, has⟩)
  base := h.succ_base
  arguments owner hopened := points_peek.bind fun _ _ => points_ite
    (points_advance.bind fun _ _ => points_pure fun _ ha => absurd ha List.not_mem_nil)
    (h.argumentList owner hopened)
  argumentList := h.succ_argumentList
  conditional := h.succ_conditional
  elsePart := points_elsePart h.succ_conditional (h.term.bind fun _ => h.sums)
  either := h.both.bind fun _ => h.eithers
  eithers hleft := points_peek.bind fun _ _ => points_ite
    (points_advance.bind fun _ _ => h.both.bind fun _ hright =>
      h.eithers (Formula.placed_related _ hleft hright))
    (points_pure hleft)
  both := h.comparison.bind fun _ => h.boths
  boths hleft := points_peek.bind fun _ _ => points_ite
    (points_advance.bind fun _ _ => h.comparison.bind fun _ hright =>
      h.boths (Formula.placed_related _ hleft hright))
    (points_pure hleft)
  comparison := h.succ_comparison

theorem pointsAt (P : Position → Prop) (n : Nat) : PointsAt P n := by
  induction n with
  | zero => exact pointsAt_zero
  | succ n ih => exact ih.succ

end PointsAt

/-- A whole formula points to the tokens and to the end. -/
theorem points_formula : Points P formula (Placed P) := by
  intro s hs
  rw [formula]
  split
  · exact points_fail _ hs.finish s hs
  · have hrun := (pointsAt P (depthBound s.ahead.length)).expression s hs
    split
    next f s' heq =>
      rw [heq] at hrun
      obtain ⟨hs', hf, -⟩ := hrun
      split
      · refine ⟨hs', hf, ?_⟩
        rintro _ ⟨⟩
      next t ts hahead =>
        have ht : P t.pos := hs'.ahead t (by rw [hahead]; exact List.mem_cons_self)
        refine ⟨hs'.addFault ht, hf, ?_⟩
        rintro _ ⟨⟩
    next => exact hrun

end TokenReader

/-! ## Lists of tokens -/

namespace Formula

/-- The position is that of one of the tokens. -/
def AtToken (ts : List Token) (pos : Position) : Prop := ∃ t ∈ ts, t.pos = pos

variable {ts : List Token}

theorem atToken_finish (hts : ts ≠ []) : AtToken ts (cutAtFinish ts).2 := by
  fun_induction cutAtFinish ts with
  | case1 => exact absurd rfl hts
  | case2 t h | case3 t h | case4 t ts _ h => exact ⟨t, List.mem_cons_self, rfl⟩
  | case5 t ts hne h before finish heq ih =>
    obtain ⟨u, hu, hfinish⟩ := ih hne
    rw [heq] at hfinish
    exact ⟨u, List.mem_cons_of_mem _ hu, hfinish⟩

theorem within_start (hts : ts ≠ []) : (start ts).Within (AtToken ts) where
  ahead t ht := by
    rw [start, cutAtFinish_fst] at ht
    exact ⟨t, List.takeWhile_subset _ ht, rfl⟩
  finish := atToken_finish hts
  faults := allAt_nil

/-- Tokens are read as a formula with all its nodes at tokens, or there are faults, and all of them
are at tokens. -/
theorem readTokens_placed (hts : ts ≠ []) :
    (∀ f, readTokens ts = .ok f → f.Placed (AtToken ts)) ∧
    ∀ es, readTokens ts = .error es → es ≠ [] ∧ AllAt (AtToken ts) es := by
  obtain ⟨hs, hf, he⟩ := TokenReader.points_formula _ (within_start hts)
  have hstart : start ts = ⟨(cutAtFinish ts).1, (cutAtFinish ts).2, []⟩ := rfl
  rw [readTokens]
  dsimp only
  rw [← hstart]
  rcases hrun : TokenReader.formula (start ts) with ⟨e | f, s⟩ <;> rw [hrun] at hs hf he
  · refine ⟨?_, ?_⟩
    · rintro _ ⟨⟩
    · rintro _ ⟨⟩
      exact ⟨List.append_ne_nil_of_right_ne_nil _ (List.cons_ne_nil _ _),
        hs.faults.append (allAt_single (he e rfl))⟩
  · dsimp only
    split
    next hfaults =>
      refine ⟨?_, ?_⟩
      · rintro _ ⟨⟩
        exact hf f rfl
      · rintro _ ⟨⟩
    next hfaults =>
      refine ⟨?_, ?_⟩
      · rintro _ ⟨⟩
      · rintro _ ⟨⟩
        exact ⟨fun hnil => hfaults (List.isEmpty_iff.2 hnil), hs.faults⟩

end Formula

end Sundial
