import Sundial.Proofs.Grammar.Spelling
import Sundial.Proofs.Printing.Words

/-!
# Canonical text is in the grammar

The canonical words of a legible formula spell it in the looser grammar of canonical text. They are
words of a formula exactly if every node is `reprintable`: no number is infinite, and no operation
stands bare in a condition.
-/

set_option autoImplicit false

namespace Sundial.Formula

open Word Grammar

/-! ## Formulas whose text can be read back -/

/-- The node does not keep its text from being read back. -/
def reprintable : Formula → Bool
  | number _ x => !x.isInf
  | condition _ _ left right => !left.isBinary && !right.isBinary
  | ifThen _ c _ | ifElse _ c _ _ => !c.isBinary
  | _ => true

/-- Every node of the formula is reprintable. -/
def Reprintable (f : Formula) : Prop := ∀ g ∈ f.nodes, g.reprintable = true

theorem reprintable_binary {pos : Position} {op : Operator} {left right : Formula} :
    Reprintable (binary pos op left right) ↔ Reprintable left ∧ Reprintable right := by
  simp [Reprintable, forall_nodes_binary, reprintable]

theorem reprintable_condition {pos : Position} {relation : Relation} {left right : Formula} :
    Reprintable (condition pos relation left right) ↔
      (left.isBinary = false ∧ Reprintable left) ∧ right.isBinary = false ∧ Reprintable right := by
  simp [Reprintable, forall_nodes_condition, reprintable]
  tauto

theorem reprintable_ifThen {pos : Position} {c t : Formula} :
    Reprintable (ifThen pos c t) ↔ (c.isBinary = false ∧ Reprintable c) ∧ Reprintable t := by
  simp [Reprintable, forall_nodes_ifThen, reprintable, and_assoc]

theorem reprintable_ifElse {pos : Position} {c t e : Formula} :
    Reprintable (ifElse pos c t e) ↔
      (c.isBinary = false ∧ Reprintable c) ∧ Reprintable t ∧ Reprintable e := by
  simp [Reprintable, forall_nodes_ifElse, reprintable, and_assoc]

theorem reprintable_call {pos : Position} {function : BuiltIn} {args : List Formula} :
    Reprintable (call pos function args) ↔ ∀ a ∈ args, Reprintable a := by
  simp only [Reprintable, forall_nodes_call, reprintable, true_and]

theorem reprintable_customSpan {pos : Position} {bounds : List Formula} :
    Reprintable (customSpan pos bounds) ↔ ∀ a ∈ bounds, Reprintable a := by
  simp only [Reprintable, forall_nodes_customSpan, reprintable, true_and]

/-! ## Parentheses around operands -/

/-- The node is a sum or a difference. -/
def isSum : Formula → Bool
  | binary _ op _ _ => op.precedence = 1
  | _ => false

theorem needsParens_sum {op : Operator} (h : op.precedence = 1) (f : Formula) :
    needsParens op false f = false ∧ needsParens op true f = f.isSum := by
  cases f with
  | binary _ op' _ _ => cases op <;> cases op' <;> cases h <;> exact ⟨rfl, rfl⟩
  | _ => exact ⟨rfl, rfl⟩

theorem needsParens_product {op : Operator} (h : op.precedence = 2) (f : Formula) :
    needsParens op false f = f.isSum ∧ needsParens op true f = f.isBinary := by
  cases f with
  | binary _ op' _ _ => cases op <;> cases op' <;> cases h <;> exact ⟨rfl, rfl⟩
  | _ => exact ⟨rfl, rfl⟩

/-! ## Canonical words spell the formula -/

/-- The canonical words spell the formula, in every place of the grammar where it can stand. -/
structure Canonical (f : Formula) : Prop where
  expression : Spells .expression (canonicalWords f) f.unplaced (Reprintable f)
  term : f.isSum = false → Spells .term (canonicalWords f) f.unplaced (Reprintable f)
  factor : f.isBinary = false → Spells .factor (canonicalWords f) f.unplaced (Reprintable f)
  side : Spells .side (canonicalWords f) f.unplaced (f.isBinary = false ∧ Reprintable f)
  conditional : isConditional f = true →
    Spells .conditional (canonicalWords f) f.unplaced (Reprintable f)

theorem Canonical.ofFactor {f : Formula} (hb : f.isBinary = false) (hc : isConditional f = false)
    (h : Spells .factor (canonicalWords f) f.unplaced (Reprintable f)) : Canonical f where
  expression := h.term.expression
  term _ := h.term
  factor _ := h
  side := by
    rw [hb]
    simpa using h.side
  conditional := by simp [hc]

/-! ### Operations -/

theorem Canonical.termOperand {f : Formula} (h : Canonical f) :
    Spells .term (inParens f.isSum (canonicalWords f)) f.unplaced (Reprintable f) := by
  cases hs : f.isSum with
  | false => exact h.term hs
  | true => exact h.expression.group.term

theorem Canonical.factorOperand {f : Formula} (h : Canonical f) :
    Spells .factor (inParens f.isBinary (canonicalWords f)) f.unplaced (Reprintable f) := by
  cases hb : f.isBinary with
  | false => exact h.factor hb
  | true => exact h.expression.group

theorem precedence_eq_one_or_two (op : Operator) : op.precedence = 1 ∨ op.precedence = 2 := by
  cases op <;> decide

theorem canonical_binary {pos : Position} {op : Operator} {left right : Formula}
    (hl : Canonical left) (hr : Canonical right) : Canonical (binary pos op left right) := by
  have hbinary : (binary pos op left right).isBinary ≠ false := Bool.noConfusion
  have hconditional : isConditional (binary pos op left right) ≠ true := Bool.noConfusion
  have hside : False ↔
      (binary pos op left right).isBinary = false ∧ Reprintable (binary pos op left right) :=
    ⟨False.elim, fun h => hbinary h.1⟩
  rcases precedence_eq_one_or_two op with hop | hop
  · have hsum : (binary pos op left right).isSum = true := by simp [isSum, hop]
    have hspells := Spells.sum hop hl.expression hr.termOperand
    rw [← @reprintable_binary pos op, propext hside] at hspells
    refine ⟨?_, fun h => absurd hsum (by simp [h]), fun h => (hbinary h).elim, ?_,
      fun h => (hconditional h).elim⟩
    all_goals rw [canonicalWords, (needsParens_sum hop left).1, (needsParens_sum hop right).2]
    · exact hspells.1
    · exact hspells.2
  · have hspells := Spells.product hop hl.termOperand hr.factorOperand
    rw [← @reprintable_binary pos op, propext hside] at hspells
    have hwords : canonicalWords (binary pos op left right) =
        inParens left.isSum (canonicalWords left) ++
          sign op.kind :: inParens right.isBinary (canonicalWords right) := by
      rw [canonicalWords, (needsParens_product hop left).1, (needsParens_product hop right).2]
    rw [← hwords] at hspells
    exact ⟨hspells.1.expression, fun _ => hspells.1, fun h => (hbinary h).elim, hspells.2,
      fun h => (hconditional h).elim⟩

/-! ### Literals -/

theorem reprintable_leaf {f : Formula} (hn : f.nodes = [f]) (hr : f.reprintable = true) :
    Reprintable f := by
  rw [Reprintable, hn, List.forall_mem_singleton]
  exact hr

/-- A formula of a single word that stands for itself. -/
theorem canonical_leaf {f : Formula} {w : Word} (hw : canonicalWords f = [w])
    (hf : leaf? .canonical w = some f.unplaced) (hk : decide (w.kind ≠ .word) = true)
    (hn : f.nodes = [f])
    (hr : f.reprintable = true) (hb : f.isBinary = false) (hc : isConditional f = false) :
    Canonical f := by
  refine .ofFactor hb hc ?_
  obtain ⟨d, hd, hm, hp⟩ := Spells.leaf hf
  refine ⟨d, hd.trans hw.symm, hm, ?_⟩
  exact ⟨fun _ => reprintable_leaf hn hr, fun _ => hp.2 (of_decide_eq_true hk)⟩

theorem spells_duration {pos : Position} {minutes : Float} {s : String}
    (h : IsDurationText minutes s) :
    Spells .factor (signedWords .duration s) (.duration .start minutes s)
      (Reprintable (duration pos minutes s)) := by
  have hnarrow : (TokenKind.duration ≠ .word) = Reprintable (duration pos minutes s) := by
    simp [Reprintable, nodes, reprintable]
  obtain ⟨hread, literal, hl, rfl | rfl⟩ := h
  · rw [signedWords_digit _ (ne_minus_of_isDigit hl.exists_cons), ← hnarrow]
    exact .leaf (by simp [leaf?, hread])
  · rw [signedWords_minus, ← hnarrow]
    exact .negative (by simp [negative?, hread])

theorem reprintable_number {pos : Position} {x : Float} :
    Reprintable (number pos x) ↔ x.isInf = false := by
  simp [Reprintable, nodes, reprintable]

/-- A number is spelt by the text without the sign, with a minus sign in front if it is negative. -/
theorem spells_signed {pos : Position} {kind : TokenKind} {literal : String} {bits : Nat}
    (hle : bits ≤ Binary64.infinityBits) (negative : Bool)
    (hhead : ∃ c rest, literal.toList = c :: rest ∧ c ≠ '-')
    (hread : leaf? .canonical ⟨kind, literal⟩ = some (.number .start (Binary64.signed false bits)))
    (hneg : negative? .canonical ⟨kind, literal⟩ =
      some (.number .start (-Binary64.signed false bits)))
    (hkind : kind ≠ .word ↔ (Binary64.signed negative bits).isInf = false) :
    Spells .factor (signedWords kind (signText negative ++ literal))
      (.number .start (Binary64.signed negative bits))
      (Reprintable (number pos (Binary64.signed negative bits))) := by
  rw [reprintable_number, ← hkind]
  cases negative with
  | false =>
    rw [signText, if_neg Bool.false_ne_true, String.empty_append, signedWords_digit _ hhead]
    exact .leaf hread
  | true =>
    rw [signText, if_pos rfl, signedWords_minus]
    rw [Binary64.neg_signed hle] at hneg
    exact .negative hneg

theorem spells_number {pos : Position} {x : Float} (h : Binary64.ofFloat x ≠ .nan) :
    Spells .factor (canonicalWords (number pos x)) (.number .start x)
      (Reprintable (number pos x)) := by
  obtain ⟨negative, bits, hle, rfl⟩ := exists_signed h
  rw [canonicalWords]
  rcases Nat.lt_or_eq_of_le hle with hlt | rfl
  · have hfinite : (Binary64.signed negative bits).isInf = false := by
      rw [← Bool.not_eq_true, Binary64.isInf_signed hle]
      exact hlt.ne
    obtain ⟨t, d, ht, hplain, hd, hbits⟩ := plainText_finite hlt negative
    have hread : Number.read? t = some (Binary64.signed false bits) := by
      rw [Number.read?_plain hplain hd, ← hbits]
      rfl
    rw [hfinite, ht]
    refine spells_signed hle negative (ne_minus_of_isDigit hplain.exists_cons) ?_ ?_ ?_
    · simp [leaf?, hread]
    · simp [negative?, hread]
    · simp [hfinite]
  · have hinfinite := (Binary64.isInf_signed hle negative).2 rfl
    rw [hinfinite, plainText_infinite]
    refine spells_signed hle negative ⟨'i', ['n', 'f'], rfl, by decide⟩ rfl rfl ?_
    simp [hinfinite]

/-! ### Calls -/

theorem spells_laterArguments {a : Formula} {as : List Formula} (ha : Canonical a)
    (h : ∀ b ∈ as, Canonical b) :
    Spells .argumentList (canonicalWords a ++ (laterArgumentsWords as ++ [sign .rightParen]))
      (a.unplaced :: unplacedAll as) (∀ b ∈ a :: as, Reprintable b) := by
  induction as generalizing a with
  | nil =>
    rw [List.forall_mem_singleton]
    exact ha.expression.lastArgument
  | cons b as ih =>
    rw [List.forall_mem_cons] at h ⊢
    have hlater := ih h.1 h.2
    simpa [laterArgumentsWords, unplacedAll] using ha.expression.moreArguments hlater

theorem spells_arguments {as : List Formula} (h : ∀ a ∈ as, Canonical a) :
    Spells .arguments (argumentsWords as ++ [sign .rightParen]) (unplacedAll as)
      (∀ a ∈ as, Reprintable a) := by
  cases as with
  | nil => exact ⟨.noArguments, rfl, rfl, by simp [Derivation.Narrow]⟩
  | cons a as =>
    rw [List.forall_mem_cons] at h
    have hlist := (spells_laterArguments h.1 h.2).someArguments
    simpa [argumentsWords, unplacedAll] using hlist

theorem canonical_call {pos : Position} (function : BuiltIn) {args : List Formula}
    (h : ∀ a ∈ args, Canonical a) : Canonical (call pos function args) := by
  refine .ofFactor rfl rfl ?_
  rw [reprintable_call, canonicalWords, unplaced]
  exact .call (BuiltIn.ofName?_name function) (spells_arguments h)

theorem canonical_customSpan {pos : Position} {bounds : List Formula}
    (h : ∀ a ∈ bounds, Canonical a) : Canonical (customSpan pos bounds) := by
  refine .ofFactor rfl rfl ?_
  rw [reprintable_customSpan, canonicalWords, unplaced]
  exact .customCall (spells_arguments h)

/-! ### Conditionals -/

theorem Canonical.ofConditional {f : Formula} (hb : f.isBinary = false)
    (h : Spells .conditional (canonicalWords f) f.unplaced (Reprintable f)) : Canonical f where
  expression := h.branching.term.expression
  term _ := h.branching.term
  factor _ := h.branching
  side := by
    rw [hb]
    simpa using h.branching.side
  conditional _ := h

/-- What the canonical words spell in a place of the level. In a condition an operation is not read
back, as it has no parentheses there. -/
def CanonicalAt : Level → Formula → Prop
  | .expression, f => Canonical f
  | .comparison, f =>
    Spells .comparison (canonicalWords f) f.unplaced (f.isBinary = false ∧ Reprintable f)
  | .both, f => Spells .both (canonicalWords f) f.unplaced (f.isBinary = false ∧ Reprintable f)
  | .either, f => Spells .either (canonicalWords f) f.unplaced (f.isBinary = false ∧ Reprintable f)

theorem canonical_ifThen {pos : Position} {c t : Formula} (hc : CanonicalAt .either c)
    (ht : Canonical t) : Canonical (ifThen pos c t) := by
  refine .ofConditional rfl ?_
  rw [reprintable_ifThen, canonicalWords, unplaced]
  exact .ifThen hc ht.expression

theorem canonical_ifElse {pos : Position} {c t e : Formula}
    (hc : CanonicalAt .either c) (ht : Canonical t) (he : Canonical e) :
    Canonical (ifElse pos c t e) := by
  refine .ofConditional rfl ?_
  rw [reprintable_ifElse, canonicalWords, unplaced]
  cases hcond : isConditional e with
  | false => simpa [inBraces] using Spells.ifElse hc ht.expression he.expression
  | true => simpa [inBraces] using Spells.elseIf hc ht.expression (he.conditional hcond)

/-! ### Conditions -/

theorem isEither_of_legible {f : Formula} (h : Legible .both f) : isEither f = false := by
  cases h with
  | oneBoth _ h =>
    cases h with
    | bare _ h => cases h <;> rfl
    | compared _ relation _ _ hr => cases relation <;> first | rfl | cases hr
  | both => rfl

theorem inParens_relation (relation : Relation) {f : Formula}
    (h : relation = .both → isEither f = false) (ws : List Word) :
    inParens (relation = .both && isEither f) ws = ws := by
  by_cases hr : relation = .both
  · simp [inParens, h hr]
  · simp [inParens, hr]

theorem canonicalWords_condition {pos : Position} {relation : Relation} {left right : Formula}
    (hl : relation = .both → isEither left = false)
    (hr : relation = .both → isEither right = false) :
    canonicalWords (condition pos relation left right) =
      canonicalWords left ++ sign relation.kind :: canonicalWords right := by
  rw [canonicalWords, inParens_relation relation hl, inParens_relation relation hr]

theorem condition_narrow {pos : Position} {relation : Relation} {left right : Formula} :
    ((condition pos relation left right).isBinary = false ∧
      Reprintable (condition pos relation left right)) ↔
      (left.isBinary = false ∧ Reprintable left) ∧ right.isBinary = false ∧ Reprintable right := by
  rw [reprintable_condition]
  simp [isBinary]

/-- The canonical words of a legible formula spell it. -/
theorem canonical_of_legible {level : Level} {f : Formula} (h : Legible level f) :
    CanonicalAt level f := by
  induction h with
  | primitive pos event =>
    exact canonical_leaf rfl (by simp [leaf?, Primitive.ofName?_name, unplaced]) rfl rfl rfl rfl rfl
  | call pos function args _ ih => exact canonical_call function ih
  | binary pos op left right _ _ ihl ihr => exact canonical_binary ihl ihr
  | duration pos minutes s h => exact Canonical.ofFactor rfl rfl (spells_duration h)
  | number pos x h => exact Canonical.ofFactor rfl rfl (spells_number h)
  | string pos s => exact canonical_leaf rfl rfl rfl rfl rfl rfl rfl
  | reference pos key h => exact canonical_leaf rfl rfl rfl rfl rfl rfl rfl
  | direction pos d =>
    exact canonical_leaf rfl (by simp [leaf?, Direction.ofName?_name, unplaced]) rfl rfl rfl rfl rfl
  | span pos b =>
    exact canonical_leaf rfl (by simp [leaf?, DaySpan.ofName?_name, unplaced]) rfl rfl rfl rfl rfl
  | customSpan pos bounds _ ih => exact canonical_customSpan ih
  | ifThen pos c t _ _ ihc iht => exact canonical_ifThen ihc iht
  | ifElse pos c t e _ _ _ ihc iht ihe => exact canonical_ifElse ihc iht ihe
  | circumstance pos v =>
    refine Canonical.ofFactor rfl rfl
      ⟨.circumstance v.name v (Circumstance.ofName?_name v), rfl, rfl, ?_⟩
    exact ⟨fun _ => reprintable_leaf rfl rfl, fun _ => trivial⟩
  | bare f _ ih => exact ih.side.bare
  | compared pos relation left right hr _ _ ihl ihr =>
    have hboth : relation ≠ .both := by
      rintro rfl
      cases hr
    rw [CanonicalAt, canonicalWords_condition (absurd · hboth) (absurd · hboth), condition_narrow]
    exact .compared hr ihl.side ihr.side
  | oneBoth f _ ih => exact ih.oneBoth
  | both pos left right hl hr ihl ihr =>
    rw [CanonicalAt, canonicalWords_condition (fun _ => isEither_of_legible hl)
      (fun _ => isEither_of_legible (.oneBoth _ hr)), condition_narrow]
    exact .both ihl ihr
  | oneEither f _ ih => exact ih.oneEither
  | either pos left right hl hr ihl ihr =>
    have hboth : Relation.either ≠ .both := by decide
    rw [CanonicalAt, canonicalWords_condition (absurd · hboth) (absurd · hboth), condition_narrow]
    exact .either ihl ihr

end Sundial.Formula
