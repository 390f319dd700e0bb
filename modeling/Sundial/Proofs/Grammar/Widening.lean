import Sundial.Proofs.Grammar.Unambiguous

/-!
# Canonical text against formulas

Every derivation of a formula is one of canonical text as well: `widen`. The derivations that come
from formulas this way are the `Narrow` ones, those without the word `inf` and with a factor on every
side of a comparison. As canonical text is unambiguous too, its words are those of a formula exactly
if their derivation is narrow.
-/

set_option autoImplicit false

namespace Sundial.Grammar

open Word

namespace Derivation

variable {δ : Dialect}

/-! ## Narrow derivations -/

/-- The expression is a single factor. -/
@[simp]
def isFactor : Derivation δ .expression → Bool
  | expression (term _ noProduct) noSum => true
  | _ => false

/-- The factor, as an expression. -/
def ofFactor (f : Derivation δ .factor) : Derivation δ .expression :=
  expression (term f noProduct) noSum

/-- Nothing in the derivation is peculiar to canonical text. -/
@[simp]
def Narrow : {X : Symbol} → Derivation δ X → Prop
  | _, leaf w _ _ | _, negative w _ _ => w.kind ≠ .word
  | _, expressionSide _ f => f.isFactor = true ∧ f.Narrow
  | _, noSum | _, noProduct | _, circumstance .. | _, circumstanceCall .. | _, custom
  | _, noArguments | _, noElse | _, noEither | _, noBoth => True
  | _, call _ _ _ d | _, customCall d | _, group d | _, branching d | _, someArguments d
  | _, lastArgument d | _, elseIf d | _, elseBranch d | _, bare d | _, factorSide _ d => d.Narrow
  | _, expression d e | _, sum _ _ d e | _, term d e | _, product _ _ d e | _, moreArguments d e
  | _, either d e | _, orElse d e | _, both d e | _, andAlso d e | _, compared d _ _ e =>
    d.Narrow ∧ e.Narrow
  | _, conditional c t e => c.Narrow ∧ t.Narrow ∧ e.Narrow

theorem leaf?_widen {w : Word} {f : Formula} (h : leaf? .formula w = some f) :
    leaf? .canonical w = some f ∧ w.kind ≠ .word := by
  obtain ⟨kind, literal⟩ := w
  cases kind
  case word => exact absurd h (by simp [leaf?])
  all_goals exact ⟨h, by simp⟩

theorem negative?_widen {w : Word} {f : Formula} (h : negative? .formula w = some f) :
    negative? .canonical w = some f ∧ w.kind ≠ .word := by
  obtain ⟨kind, literal⟩ := w
  cases kind
  case word => exact absurd h (by simp [negative?])
  all_goals exact ⟨h, by simp⟩

theorem leaf?_narrow {w : Word} {f : Formula} (h : leaf? .canonical w = some f)
    (hw : w.kind ≠ .word) : leaf? .formula w = some f := by
  obtain ⟨kind, literal⟩ := w
  cases kind
  case word => exact absurd rfl hw
  all_goals exact h

theorem negative?_narrow {w : Word} {f : Formula} (h : negative? .canonical w = some f)
    (hw : w.kind ≠ .word) : negative? .formula w = some f := by
  obtain ⟨kind, literal⟩ := w
  cases kind
  case word => exact absurd rfl hw
  all_goals exact h

/-! ## Formulas as canonical text -/

/-- The derivation of a formula, as one of canonical text. -/
@[simp]
def widen : {X : Symbol} → Derivation .formula X → Derivation .canonical X
  | _, expression first rest => expression first.widen rest.widen
  | _, noSum => noSum
  | _, sum op h right rest => sum op h right.widen rest.widen
  | _, term first rest => term first.widen rest.widen
  | _, noProduct => noProduct
  | _, product op h right rest => product op h right.widen rest.widen
  | _, leaf w f h => leaf w f (leaf?_widen h).1
  | _, negative w f h => negative w f (negative?_widen h).1
  | _, circumstance s v h => circumstance s v h
  | _, circumstanceCall s v h => circumstanceCall s v h
  | _, call s function h args => call s function h args.widen
  | _, custom => custom
  | _, customCall bounds => customCall bounds.widen
  | _, group inner => group inner.widen
  | _, branching d => branching d.widen
  | _, noArguments => noArguments
  | _, someArguments list => someArguments list.widen
  | _, lastArgument a => lastArgument a.widen
  | _, moreArguments a list => moreArguments a.widen list.widen
  | _, conditional c t e => conditional c.widen t.widen e.widen
  | _, noElse => noElse
  | _, elseIf d => elseIf d.widen
  | _, elseBranch e => elseBranch e.widen
  | _, either first rest => either first.widen rest.widen
  | _, noEither => noEither
  | _, orElse right rest => orElse right.widen rest.widen
  | _, both first rest => both first.widen rest.widen
  | _, noBoth => noBoth
  | _, andAlso right rest => andAlso right.widen rest.widen
  | _, bare side => bare side.widen
  | _, compared left relation h right => compared left.widen relation h right.widen
  | _, factorSide _ f => expressionSide rfl (ofFactor f.widen)

theorem words_ofFactor (f : Derivation δ .factor) : (ofFactor f).words = f.words := by
  simp [ofFactor, words]

theorem words_widen {X : Symbol} (d : Derivation .formula X) : d.widen.words = d.words := by
  induction d with
  | factorSide _ f ih => exact (words_ofFactor f.widen).trans ih
  | expressionSide h => cases h
  | _ => simp only [widen, words, *]

theorem formula_widen {X : Symbol} (d : Derivation .formula X) : d.widen.formula = d.formula := by
  induction d with
  | factorSide _ f ih => exact ih
  | expressionSide h => cases h
  | _ => simp only [widen, formula, *]

theorem narrow_widen {X : Symbol} (d : Derivation .formula X) : d.widen.Narrow := by
  induction d with
  | leaf w f h => exact (leaf?_widen h).2
  | negative w f h => exact (negative?_widen h).2
  | factorSide _ f ih => exact ⟨rfl, ⟨ih, trivial⟩, trivial⟩
  | expressionSide h => cases h
  | _ => simp only [widen, Narrow, and_self, *]

theorem exists_ofFactor {d : Derivation δ .expression} (h : d.isFactor = true) :
    ∃ f, d = ofFactor f := by
  match d, h with
  | expression (term f noProduct) noSum, _ => exact ⟨f, rfl⟩

/-- A narrow derivation comes from a formula. -/
theorem exists_widen {X : Symbol} (d : Derivation .canonical X) (h : d.Narrow) :
    ∃ d' : Derivation .formula X, d'.widen = d := by
  induction d with
  | leaf w f hf => exact ⟨leaf w f (leaf?_narrow hf h), rfl⟩
  | negative w f hf => exact ⟨negative w f (negative?_narrow hf h), rfl⟩
  | noSum => exact ⟨noSum, rfl⟩
  | noProduct => exact ⟨noProduct, rfl⟩
  | circumstance s v hv => exact ⟨circumstance s v hv, rfl⟩
  | circumstanceCall s v hv => exact ⟨circumstanceCall s v hv, rfl⟩
  | custom => exact ⟨custom, rfl⟩
  | noArguments => exact ⟨noArguments, rfl⟩
  | noElse => exact ⟨noElse, rfl⟩
  | noEither => exact ⟨noEither, rfl⟩
  | noBoth => exact ⟨noBoth, rfl⟩
  | call s function hf args ih =>
    obtain ⟨args, rfl⟩ := ih h
    exact ⟨call s function hf args, rfl⟩
  | customCall bounds ih =>
    obtain ⟨bounds, rfl⟩ := ih h
    exact ⟨customCall bounds, rfl⟩
  | group inner ih =>
    obtain ⟨inner, rfl⟩ := ih h
    exact ⟨group inner, rfl⟩
  | branching d ih =>
    obtain ⟨d, rfl⟩ := ih h
    exact ⟨branching d, rfl⟩
  | someArguments list ih =>
    obtain ⟨list, rfl⟩ := ih h
    exact ⟨someArguments list, rfl⟩
  | lastArgument a ih =>
    obtain ⟨a, rfl⟩ := ih h
    exact ⟨lastArgument a, rfl⟩
  | elseIf d ih =>
    obtain ⟨d, rfl⟩ := ih h
    exact ⟨elseIf d, rfl⟩
  | elseBranch e ih =>
    obtain ⟨e, rfl⟩ := ih h
    exact ⟨elseBranch e, rfl⟩
  | bare side ih =>
    obtain ⟨side, rfl⟩ := ih h
    exact ⟨bare side, rfl⟩
  | expression first rest ihf ihr =>
    obtain ⟨first, rfl⟩ := ihf h.1
    obtain ⟨rest, rfl⟩ := ihr h.2
    exact ⟨expression first rest, rfl⟩
  | sum op hop right rest ihf ihr =>
    obtain ⟨right, rfl⟩ := ihf h.1
    obtain ⟨rest, rfl⟩ := ihr h.2
    exact ⟨sum op hop right rest, rfl⟩
  | term first rest ihf ihr =>
    obtain ⟨first, rfl⟩ := ihf h.1
    obtain ⟨rest, rfl⟩ := ihr h.2
    exact ⟨term first rest, rfl⟩
  | product op hop right rest ihf ihr =>
    obtain ⟨right, rfl⟩ := ihf h.1
    obtain ⟨rest, rfl⟩ := ihr h.2
    exact ⟨product op hop right rest, rfl⟩
  | moreArguments a list ihf ihr =>
    obtain ⟨a, rfl⟩ := ihf h.1
    obtain ⟨list, rfl⟩ := ihr h.2
    exact ⟨moreArguments a list, rfl⟩
  | conditional c t e ihc iht ihe =>
    obtain ⟨c, rfl⟩ := ihc h.1
    obtain ⟨t, rfl⟩ := iht h.2.1
    obtain ⟨e, rfl⟩ := ihe h.2.2
    exact ⟨conditional c t e, rfl⟩
  | either first rest ihf ihr =>
    obtain ⟨first, rfl⟩ := ihf h.1
    obtain ⟨rest, rfl⟩ := ihr h.2
    exact ⟨either first rest, rfl⟩
  | orElse right rest ihf ihr =>
    obtain ⟨right, rfl⟩ := ihf h.1
    obtain ⟨rest, rfl⟩ := ihr h.2
    exact ⟨orElse right rest, rfl⟩
  | both first rest ihf ihr =>
    obtain ⟨first, rfl⟩ := ihf h.1
    obtain ⟨rest, rfl⟩ := ihr h.2
    exact ⟨both first rest, rfl⟩
  | andAlso right rest ihf ihr =>
    obtain ⟨right, rfl⟩ := ihf h.1
    obtain ⟨rest, rfl⟩ := ihr h.2
    exact ⟨andAlso right rest, rfl⟩
  | compared left relation hr right ihf ihr =>
    obtain ⟨left, rfl⟩ := ihf h.1
    obtain ⟨right, rfl⟩ := ihr h.2
    exact ⟨compared left relation hr right, rfl⟩
  | factorSide hδ => cases hδ
  | expressionSide hδ e ih =>
    obtain ⟨e, rfl⟩ := ih h.2
    have hfactor : e.isFactor = true := by
      obtain ⟨f, hf⟩ := exists_ofFactor h.1
      match e, hf with
      | expression (term _ noProduct) noSum, _ => rfl
    obtain ⟨f, rfl⟩ := exists_ofFactor hfactor
    exact ⟨factorSide rfl f, rfl⟩

/-- The words of canonical text are those of a formula exactly if their derivation is narrow. -/
theorem narrow_iff_exists_words {X : Symbol} (d : Derivation .canonical X) :
    d.Narrow ↔ ∃ d' : Derivation .formula X, d'.words = d.words := by
  refine ⟨fun h => ?_, fun ⟨d', hw⟩ => ?_⟩
  · obtain ⟨d', rfl⟩ := exists_widen d h
    exact ⟨d', (words_widen d').symm⟩
  · have hd : d'.widen = d := words_injective X ((words_widen d').trans hw)
    exact hd ▸ narrow_widen d'

/-- A formula with the words of canonical text is the one that the text stands for. -/
theorem formula_eq_of_words {X : Symbol} {d : Derivation .canonical X}
    {d' : Derivation .formula X} (h : d'.words = d.words) : d'.formula = d.formula := by
  have hd : d'.widen = d := words_injective X ((words_widen d').trans h)
  rw [← hd, formula_widen]

end Derivation

end Sundial.Grammar
