import Sundial.Proofs.Grammar.Widening

/-!
# Building derivations of canonical text

`Spells` says that words have a derivation in the grammar of canonical text, what it stands for, and
when it is narrow. There is one lemma for each way in which such words are put together from shorter
ones; chains are built from the left, with one more operand put behind them each time.
-/

set_option autoImplicit false

namespace Sundial

open Word

namespace Grammar

variable {δ : Dialect}

/-! ## One more operand behind a chain -/

namespace Derivation

/-- One more sum or difference behind the others. -/
@[simp]
def snocSum : Derivation δ .sums → (op : Operator) → op.precedence = 1 → Derivation δ .term →
    Derivation δ .sums
  | noSum, op, h, right => sum op h right noSum
  | sum op' h' first rest, op, h, right => sum op' h' first (rest.snocSum op h right)

@[simp]
def snocProduct : Derivation δ .products → (op : Operator) → op.precedence = 2 →
    Derivation δ .factor → Derivation δ .products
  | noProduct, op, h, right => product op h right noProduct
  | product op' h' first rest, op, h, right => product op' h' first (rest.snocProduct op h right)

@[simp]
def snocEither : Derivation δ .eithers → Derivation δ .both → Derivation δ .eithers
  | noEither, right => orElse right noEither
  | orElse first rest, right => orElse first (rest.snocEither right)

@[simp]
def snocBoth : Derivation δ .boths → Derivation δ .comparison → Derivation δ .boths
  | noBoth, right => andAlso right noBoth
  | andAlso first rest, right => andAlso first (rest.snocBoth right)

section Snoc

variable (op : Operator)

theorem words_snocSum (h : op.precedence = 1) (right : Derivation δ .term) :
    (rest : Derivation δ .sums) →
      (rest.snocSum op h right).words = rest.words ++ sign op.kind :: right.words
  | noSum => by simp [words]
  | sum _ _ _ rest => by simp [words, words_snocSum h right rest]

theorem formula_snocSum (h : op.precedence = 1) (right : Derivation δ .term) (left : Formula) :
    (rest : Derivation δ .sums) → (rest.snocSum op h right).formula left =
      .binary .start op (rest.formula left) right.formula
  | noSum => by simp [formula]
  | sum _ _ _ rest => by simp [formula, formula_snocSum h right _ rest]

theorem narrow_snocSum (h : op.precedence = 1) (right : Derivation δ .term) :
    (rest : Derivation δ .sums) →
      ((rest.snocSum op h right).Narrow ↔ rest.Narrow ∧ right.Narrow)
  | noSum => by simp [Narrow]
  | sum _ _ _ rest => by simp [Narrow, narrow_snocSum h right rest, and_assoc]

theorem words_snocProduct (h : op.precedence = 2) (right : Derivation δ .factor) :
    (rest : Derivation δ .products) →
      (rest.snocProduct op h right).words = rest.words ++ sign op.kind :: right.words
  | noProduct => by simp [words]
  | product _ _ _ rest => by simp [words, words_snocProduct h right rest]

theorem formula_snocProduct (h : op.precedence = 2) (right : Derivation δ .factor)
    (left : Formula) : (rest : Derivation δ .products) →
      (rest.snocProduct op h right).formula left =
        .binary .start op (rest.formula left) right.formula
  | noProduct => by simp [formula]
  | product _ _ _ rest => by simp [formula, formula_snocProduct h right _ rest]

theorem narrow_snocProduct (h : op.precedence = 2) (right : Derivation δ .factor) :
    (rest : Derivation δ .products) →
      ((rest.snocProduct op h right).Narrow ↔ rest.Narrow ∧ right.Narrow)
  | noProduct => by simp [Narrow]
  | product _ _ _ rest => by simp [Narrow, narrow_snocProduct h right rest, and_assoc]

theorem words_snocEither (right : Derivation δ .both) : (rest : Derivation δ .eithers) →
    (rest.snocEither right).words = rest.words ++ sign .either :: right.words
  | noEither => by simp [words]
  | orElse _ rest => by simp [words, words_snocEither right rest]

theorem formula_snocEither (right : Derivation δ .both) (left : Formula) :
    (rest : Derivation δ .eithers) → (rest.snocEither right).formula left =
      .condition .start .either (rest.formula left) right.formula
  | noEither => by simp [formula]
  | orElse _ rest => by simp [formula, formula_snocEither right _ rest]

theorem narrow_snocEither (right : Derivation δ .both) : (rest : Derivation δ .eithers) →
    ((rest.snocEither right).Narrow ↔ rest.Narrow ∧ right.Narrow)
  | noEither => by simp [Narrow]
  | orElse _ rest => by simp [Narrow, narrow_snocEither right rest, and_assoc]

theorem words_snocBoth (right : Derivation δ .comparison) : (rest : Derivation δ .boths) →
    (rest.snocBoth right).words = rest.words ++ sign .both :: right.words
  | noBoth => by simp [words]
  | andAlso _ rest => by simp [words, words_snocBoth right rest]

theorem formula_snocBoth (right : Derivation δ .comparison) (left : Formula) :
    (rest : Derivation δ .boths) → (rest.snocBoth right).formula left =
      .condition .start .both (rest.formula left) right.formula
  | noBoth => by simp [formula]
  | andAlso _ rest => by simp [formula, formula_snocBoth right _ rest]

theorem narrow_snocBoth (right : Derivation δ .comparison) : (rest : Derivation δ .boths) →
    ((rest.snocBoth right).Narrow ↔ rest.Narrow ∧ right.Narrow)
  | noBoth => by simp [Narrow]
  | andAlso _ rest => by simp [Narrow, narrow_snocBoth right rest, and_assoc]

/-- A chain with an operand behind it is no single factor. -/
theorem isFactor_snocSum (first : Derivation δ .term) (rest : Derivation δ .sums)
    (h : op.precedence = 1) (right : Derivation δ .term) :
    (expression first (rest.snocSum op h right)).isFactor = false := by
  cases rest <;> simp [isFactor]

theorem isFactor_snocProduct (first : Derivation δ .factor) (rest : Derivation δ .products)
    (h : op.precedence = 2) (right : Derivation δ .factor) :
    (expression (term first (rest.snocProduct op h right)) noSum).isFactor = false := by
  cases rest <;> simp [isFactor]

end Snoc

end Derivation

/-! ## Spelling -/

/-- In the grammar of canonical text the words spell what they stand for; they are words of a formula
only if `narrow`. -/
def Spells (X : Symbol) (ws : List Word) (m : X.Meaning) (narrow : Prop) : Prop :=
  ∃ d : Derivation .canonical X, d.words = ws ∧ d.formula = m ∧ (d.Narrow ↔ narrow)

section Spells

open Sundial.Grammar.Derivation

variable {ws ws' : List Word} {f g : Formula} {p q : Prop}

theorem Spells.term (h : Spells .factor ws f p) : Spells .term ws f p := by
  obtain ⟨d, rfl, rfl, hp⟩ := h
  exact ⟨.term d .noProduct, by simp [words], rfl, by simp [Narrow, hp]⟩

theorem Spells.expression (h : Spells .term ws f p) : Spells .expression ws f p := by
  obtain ⟨d, rfl, rfl, hp⟩ := h
  exact ⟨.expression d .noSum, by simp [words], rfl, by simp [Narrow, hp]⟩

theorem Spells.group (h : Spells .expression ws f p) :
    Spells .factor (sign .leftParen :: (ws ++ [sign .rightParen])) f p := by
  obtain ⟨d, rfl, rfl, hp⟩ := h
  exact ⟨.group d, rfl, rfl, hp⟩

theorem Spells.side (h : Spells .factor ws f p) : Spells .side ws f p := by
  obtain ⟨d, rfl, rfl, hp⟩ := h
  refine ⟨.expressionSide rfl (ofFactor d), words_ofFactor d, rfl, ?_⟩
  simp [Narrow, ofFactor, isFactor, hp]

theorem Spells.sum {op : Operator} (hop : op.precedence = 1) (h : Spells .expression ws f p)
    (h' : Spells .term ws' g q) :
    Spells .expression (ws ++ sign op.kind :: ws') (.binary .start op f g) (p ∧ q) ∧
      Spells .side (ws ++ sign op.kind :: ws') (.binary .start op f g) False := by
  obtain ⟨d, rfl, rfl, hp⟩ := h
  obtain ⟨right, rfl, rfl, hq⟩ := h'
  cases d with
  | expression first rest =>
    have hw : (Derivation.expression first (rest.snocSum op hop right)).words =
        (Derivation.expression first rest).words ++ sign op.kind :: right.words := by
      rw [words, words_snocSum, words, List.append_assoc]
    have hf := formula_snocSum op hop right first.formula rest
    refine ⟨⟨.expression first (rest.snocSum op hop right), hw, hf, ?_⟩,
      ⟨.expressionSide rfl (.expression first (rest.snocSum op hop right)), hw, hf, ?_⟩⟩
    · rw [← hp, ← hq, Narrow, Narrow, narrow_snocSum, and_assoc]
    · rw [Narrow, isFactor_snocSum]
      simp

theorem Spells.product {op : Operator} (hop : op.precedence = 2) (h : Spells .term ws f p)
    (h' : Spells .factor ws' g q) :
    Spells .term (ws ++ sign op.kind :: ws') (.binary .start op f g) (p ∧ q) ∧
      Spells .side (ws ++ sign op.kind :: ws') (.binary .start op f g) False := by
  obtain ⟨d, rfl, rfl, hp⟩ := h
  obtain ⟨right, rfl, rfl, hq⟩ := h'
  cases d with
  | term first rest =>
    have hw : (Derivation.term first (rest.snocProduct op hop right)).words =
        (Derivation.term first rest).words ++ sign op.kind :: right.words := by
      rw [words, words_snocProduct, words, List.append_assoc]
    have hf := formula_snocProduct op hop right first.formula rest
    refine ⟨⟨.term first (rest.snocProduct op hop right), hw, hf, ?_⟩,
      ⟨.expressionSide rfl (.expression (.term first (rest.snocProduct op hop right)) .noSum),
        ?_, hf, ?_⟩⟩
    · rw [← hp, ← hq, Narrow, Narrow, narrow_snocProduct, and_assoc]
    · rw [← hw]
      exact List.append_nil _
    · rw [Narrow, isFactor_snocProduct]
      simp

theorem Spells.bare (h : Spells .side ws f p) : Spells .comparison ws f p := by
  obtain ⟨d, rfl, rfl, hp⟩ := h
  exact ⟨.bare d, rfl, rfl, hp⟩

theorem Spells.compared {relation : Relation} (hr : relation.isLogical = false)
    (h : Spells .side ws f p) (h' : Spells .side ws' g q) :
    Spells .comparison (ws ++ sign relation.kind :: ws') (.condition .start relation f g)
      (p ∧ q) := by
  obtain ⟨d, rfl, rfl, hp⟩ := h
  obtain ⟨e, rfl, rfl, hq⟩ := h'
  exact ⟨.compared d relation hr e, rfl, rfl, and_congr hp hq⟩

theorem Spells.oneBoth (h : Spells .comparison ws f p) : Spells .both ws f p := by
  obtain ⟨d, rfl, rfl, hp⟩ := h
  exact ⟨.both d .noBoth, by simp [words], rfl, by simp [Narrow, hp]⟩

theorem Spells.both (h : Spells .both ws f p) (h' : Spells .comparison ws' g q) :
    Spells .both (ws ++ sign .both :: ws') (.condition .start .both f g) (p ∧ q) := by
  obtain ⟨d, rfl, rfl, hp⟩ := h
  obtain ⟨right, rfl, rfl, hq⟩ := h'
  cases d with
  | both first rest =>
    refine ⟨.both first (rest.snocBoth right), ?_, formula_snocBoth right _ rest, ?_⟩
    · rw [words, words_snocBoth, words, List.append_assoc]
    · rw [← hp, ← hq, Narrow, Narrow, narrow_snocBoth, and_assoc]

theorem Spells.oneEither (h : Spells .both ws f p) : Spells .either ws f p := by
  obtain ⟨d, rfl, rfl, hp⟩ := h
  exact ⟨.either d .noEither, by simp [words], rfl, by simp [Narrow, hp]⟩

theorem Spells.either (h : Spells .either ws f p) (h' : Spells .both ws' g q) :
    Spells .either (ws ++ sign .either :: ws') (.condition .start .either f g) (p ∧ q) := by
  obtain ⟨d, rfl, rfl, hp⟩ := h
  obtain ⟨right, rfl, rfl, hq⟩ := h'
  cases d with
  | either first rest =>
    refine ⟨.either first (rest.snocEither right), ?_, formula_snocEither right _ rest, ?_⟩
    · rw [words, words_snocEither, words, List.append_assoc]
    · rw [← hp, ← hq, Narrow, Narrow, narrow_snocEither, and_assoc]

/-! ### Factors -/

theorem Spells.leaf {w : Word} (h : leaf? .canonical w = some f) :
    Spells .factor [w] f (w.kind ≠ .word) :=
  ⟨.leaf w f h, rfl, rfl, Iff.rfl⟩

theorem Spells.negative {w : Word} (h : negative? .canonical w = some f) :
    Spells .factor [sign .minus, w] f (w.kind ≠ .word) :=
  ⟨.negative w f h, rfl, rfl, Iff.rfl⟩

theorem Spells.call {s : String} {function : BuiltIn} {args : List Formula}
    (hs : BuiltIn.ofName? s = some function) (h : Spells .arguments ws args p) :
    Spells .factor (⟨.function, s⟩ :: sign .leftParen :: ws) (.call .start function args) p := by
  obtain ⟨d, rfl, rfl, hp⟩ := h
  exact ⟨.call s function hs d, rfl, rfl, hp⟩

theorem Spells.customCall {bounds : List Formula} (h : Spells .arguments ws bounds p) :
    Spells .factor (⟨.base, customWord⟩ :: sign .leftParen :: ws)
      (.customSpan .start bounds) p := by
  obtain ⟨d, rfl, rfl, hp⟩ := h
  exact ⟨.customCall d, rfl, rfl, hp⟩

theorem Spells.branching (h : Spells .conditional ws f p) : Spells .factor ws f p := by
  obtain ⟨d, rfl, rfl, hp⟩ := h
  exact ⟨.branching d, rfl, rfl, hp⟩

/-! ### Arguments -/

theorem Spells.someArguments {as : List Formula} (h : Spells .argumentList ws as p) :
    Spells .arguments ws as p := by
  obtain ⟨d, rfl, rfl, hp⟩ := h
  exact ⟨.someArguments d, rfl, rfl, hp⟩

theorem Spells.lastArgument (h : Spells .expression ws f p) :
    Spells .argumentList (ws ++ [sign .rightParen]) [f] p := by
  obtain ⟨d, rfl, rfl, hp⟩ := h
  exact ⟨.lastArgument d, rfl, rfl, hp⟩

theorem Spells.moreArguments {as : List Formula} (h : Spells .expression ws f p)
    (h' : Spells .argumentList ws' as q) :
    Spells .argumentList (ws ++ sign .comma :: ws') (f :: as) (p ∧ q) := by
  obtain ⟨d, rfl, rfl, hp⟩ := h
  obtain ⟨e, rfl, rfl, hq⟩ := h'
  exact ⟨.moreArguments d e, rfl, rfl, and_congr hp hq⟩

/-! ### Conditionals -/

section Conditionals

variable {c t e : Formula} {cw tw ew : List Word} {pc pt pe : Prop}

theorem Spells.ifThen (hc : Spells .either cw c pc) (ht : Spells .expression tw t pt) :
    Spells .conditional (sign .ifWord :: sign .leftParen :: (cw ++ sign .rightParen ::
      sign .leftBrace :: (tw ++ [sign .rightBrace]))) (.ifThen .start c t) (pc ∧ pt) := by
  obtain ⟨dc, rfl, rfl, hpc⟩ := hc
  obtain ⟨dt, rfl, rfl, hpt⟩ := ht
  refine ⟨.conditional dc dt .noElse, rfl, rfl, ?_⟩
  rw [Narrow, Narrow, hpc, hpt, and_true]

theorem Spells.ifElse (hc : Spells .either cw c pc) (ht : Spells .expression tw t pt)
    (he : Spells .expression ew e pe) :
    Spells .conditional (sign .ifWord :: sign .leftParen :: (cw ++ sign .rightParen ::
      sign .leftBrace :: (tw ++ sign .rightBrace :: sign .elseWord :: sign .leftBrace ::
        (ew ++ [sign .rightBrace])))) (.ifElse .start c t e) (pc ∧ pt ∧ pe) := by
  obtain ⟨dc, rfl, rfl, hpc⟩ := hc
  obtain ⟨dt, rfl, rfl, hpt⟩ := ht
  obtain ⟨de, rfl, rfl, hpe⟩ := he
  exact ⟨.conditional dc dt (.elseBranch de), rfl, rfl, and_congr hpc (and_congr hpt hpe)⟩

theorem Spells.elseIf (hc : Spells .either cw c pc) (ht : Spells .expression tw t pt)
    (he : Spells .conditional ew e pe) :
    Spells .conditional (sign .ifWord :: sign .leftParen :: (cw ++ sign .rightParen ::
      sign .leftBrace :: (tw ++ sign .rightBrace :: sign .elseWord :: ew)))
      (.ifElse .start c t e) (pc ∧ pt ∧ pe) := by
  obtain ⟨dc, rfl, rfl, hpc⟩ := hc
  obtain ⟨dt, rfl, rfl, hpt⟩ := ht
  obtain ⟨de, rfl, rfl, hpe⟩ := he
  exact ⟨.conditional dc dt (.elseIf de), rfl, rfl, and_congr hpc (and_congr hpt hpe)⟩

end Conditionals

end Spells

end Grammar

end Sundial
