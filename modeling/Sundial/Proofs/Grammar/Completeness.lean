import Sundial.Proofs.Grammar.Reading
import Sundial.Proofs.Grammar.Unambiguous

/-!
# Every sentence is read

A reader that stands before the words of a derivation, followed by a word that cannot go on with it,
yields the formula of the derivation and stands behind it. The bound on the depth of calls that
`Complete` asks for is eight times the number of words and a little more; `depthBound` is above it.
-/

set_option autoImplicit false

namespace Sundial

open Word Grammar Derivation

namespace TokenReader

-- One step of a reader, as long as its bound is not used up.
attribute [local simp] expression sums term products factor call base arguments argumentList
  conditional eitherCondition eithers bothCondition boths comparison

/-- What a conditional does behind its first branch. -/
def elsePart (n : Nat) (t : Token) (c b : Formula) : TokenReader Formula := do
  if (← peek).kind = .elseWord then
    advance
    let next ← peek
    if next.kind = .ifWord then
      advance
      return .ifElse t.pos c b (← conditional n next)
    else
      let _ ← expect .elseStart
      let elseBranch ← expression n
      let _ ← expect .elseEnd
      return .ifElse t.pos c b elseBranch
  else return .ifThen t.pos c b

theorem conditional_succ (n : Nat) (t : Token) :
    conditional (n + 1) t = (do
      let _ ← expect .conditionStart
      let c ← eitherCondition n
      let _ ← expect .conditionEnd
      let _ ← expect .thenStart
      let b ← expression n
      let _ ← expect .thenEnd
      elsePart n t c b) := rfl

/-- The value is the formula, positions aside. -/
def Is (f : Formula) (g : Formula) : Prop := g.unplaced = f

/-- The reader of the symbol reads the derivation wherever it stops, under a large enough bound. -/
def Complete : {X : Symbol} → Derivation .formula X → Prop
  | .expression, d => ∀ n s rest, 8 * d.words.length + 2 ≤ n → s.words = d.words ++ rest →
    Stops .expression rest → Yields (expression n) s rest (Is d.formula)
  | .sums, d => ∀ n s rest left, 8 * d.words.length + 1 ≤ n → s.words = d.words ++ rest →
    Stops .expression rest → Yields (sums n left) s rest (Is (d.formula left.unplaced))
  | .term, d => ∀ n s rest, 8 * d.words.length + 1 ≤ n → s.words = d.words ++ rest →
    Stops .term rest → Yields (term n) s rest (Is d.formula)
  | .products, d => ∀ n s rest left, 8 * d.words.length + 1 ≤ n → s.words = d.words ++ rest →
    Stops .term rest → Yields (products n left) s rest (Is (d.formula left.unplaced))
  | .factor, d => ∀ n s rest, 8 * d.words.length ≤ n → s.words = d.words ++ rest →
    Stops .factor rest → Yields (factor n) s rest (Is d.formula)
  | .arguments, d => ∀ n s rest opened owner, 8 * d.words.length + 2 ≤ n →
    s.words = d.words ++ rest →
    Yields (arguments n opened owner) s rest fun as => as.map Formula.unplaced = d.formula
  | .argumentList, d => ∀ n s rest opened owner, 8 * d.words.length + 1 ≤ n →
    s.words = d.words ++ rest →
    Yields (argumentList n opened owner) s rest fun as => as.map Formula.unplaced = d.formula
  | .conditional, d => ∀ n s rest t, 8 * d.words.length ≤ n + 4 →
    sign .ifWord :: s.words = d.words ++ rest →
    Stops .conditional rest → Yields (conditional n t) s rest (Is d.formula)
  | .otherwise, d => ∀ n s rest t c b, 8 * d.words.length ≤ n → s.words = d.words ++ rest →
    Stops .conditional rest →
    Yields (elsePart n t c b) s rest (Is (d.formula c.unplaced b.unplaced))
  | .either, d => ∀ n s rest, 8 * d.words.length + 3 ≤ n → s.words = d.words ++ rest →
    Stops .either rest → Yields (eitherCondition n) s rest (Is d.formula)
  | .eithers, d => ∀ n s rest left, 8 * d.words.length + 1 ≤ n → s.words = d.words ++ rest →
    Stops .either rest → Yields (eithers n left) s rest (Is (d.formula left.unplaced))
  | .both, d => ∀ n s rest, 8 * d.words.length + 2 ≤ n → s.words = d.words ++ rest →
    Stops .both rest → Yields (bothCondition n) s rest (Is d.formula)
  | .boths, d => ∀ n s rest left, 8 * d.words.length + 1 ≤ n → s.words = d.words ++ rest →
    Stops .both rest → Yields (boths n left) s rest (Is (d.formula left.unplaced))
  | .comparison, d => ∀ n s rest, 8 * d.words.length + 1 ≤ n → s.words = d.words ++ rest →
    Stops .comparison rest → Yields (comparison n) s rest (Is d.formula)
  | .side, d => ∀ n s rest, 8 * d.words.length ≤ n → s.words = d.words ++ rest →
    Stops .factor rest → Yields (factor n) s rest (Is d.formula)

section Factors

variable {n : Nat} {s : Reading} {rest : List Word}

/-- The kind ahead does not go on with a symbol that the text stops at. -/
theorem next_kind_not_mem {X : Symbol} (hs : Stops X s.words) (h : .finish ∉ X.tails) :
    s.next.kind ∉ X.tails := by
  rcases hw : s.words with _ | ⟨w, ws⟩
  · rw [Reading.next_kind_of_nil hw]
    exact h
  · rw [Reading.next_kind hw]
    exact hs w (by rw [hw]; rfl)

theorem yields_readNumber {t : Token} {x : Float} {β : Type} {f : Float → TokenReader β}
    {R : β → Prop} (h : Number.read? t.literal = some x) (hf : Yields (f x) s rest R) :
    Yields (readNumber t >>= f) s rest R := by
  rw [readNumber, h]
  exact hf

theorem yields_readDuration {t : Token} {text : String} {x : Float} {β : Type}
    {f : Float → TokenReader β} {R : β → Prop} (h : Duration.read? text = some x)
    (hf : Yields (f x) s rest R) : Yields (readDuration t text >>= f) s rest R := by
  rw [readDuration, h]
  exact hf

theorem yields_leaf {w : Word} {f : Formula} (h : leaf? .formula w = some f)
    (hw : s.words = w :: rest) : Yields (factor (n + 2)) s rest (Is f) := by
  have hk : s.next.kind = w.kind := Reading.next_kind hw
  have hp := Reading.passed_words hw
  have hc := (leaf?_eq_some h).2
  obtain ⟨k, l⟩ := w
  have hl : k.hasContent = true → s.next.literal = l := Reading.next_literal hw
  rw [factor]
  refine Yields.peek ?_
  cases k <;> simp only [leaf?, Option.map_eq_some_iff, Option.some.injEq, reduceCtorEq] at h <;>
    simp only [hk]
  case number =>
    obtain ⟨x, hx, rfl⟩ := h
    rw [← hl rfl] at hx
    exact Yields.advance (yields_readNumber hx (Yields.pure hp rfl))
  case duration =>
    obtain ⟨x, hx, rfl⟩ := h
    rw [← hl rfl] at hx ⊢
    exact Yields.advance (yields_readDuration hx (Yields.pure hp rfl))
  case string =>
    subst h
    rw [← hl rfl]
    exact Yields.advance (Yields.pure hp rfl)
  case primitive =>
    obtain ⟨p, hx, rfl⟩ := h
    rw [← hl rfl] at hx
    exact Yields.advance (Yields.lookUp hx (Yields.pure hp rfl))
  case reference =>
    subst h
    rw [← hl rfl]
    exact Yields.advance (Yields.pure hp rfl)
  case direction =>
    obtain ⟨p, hx, rfl⟩ := h
    rw [← hl rfl] at hx
    exact Yields.advance (Yields.lookUp hx (Yields.pure hp rfl))
  case base =>
    obtain ⟨b, hx, rfl⟩ := h
    rw [← hl rfl] at hx hc
    have hne : s.next.literal ≠ customWord := fun he => hc (by rw [he])
    refine Yields.advance ?_
    rw [base, if_neg hne]
    exact Yields.lookUp hx (Yields.pure hp rfl)
  case word => simp at h

theorem yields_negative {w : Word} {f : Formula} (h : negative? .formula w = some f)
    (hw : s.words = sign .minus :: w :: rest) : Yields (factor (n + 1)) s rest (Is f) := by
  have hm : s.next.kind = .minus := Reading.next_kind hw
  have hw' := Reading.passed_words hw
  have hk : s.passed.next.kind = w.kind := Reading.next_kind hw'
  have hp := Reading.passed_words hw'
  obtain ⟨k, l⟩ := w
  have hl : k.hasContent = true → s.passed.next.literal = l := Reading.next_literal hw'
  rw [factor]
  refine Yields.peek ?_
  simp only [hm]
  rw [negative]
  refine Yields.peek (Yields.advance (Yields.peek ?_))
  cases k <;> simp only [negative?, Option.map_eq_some_iff, reduceCtorEq] at h <;> simp only [hk]
  case number =>
    obtain ⟨x, hx, rfl⟩ := h
    rw [← hl rfl] at hx
    exact Yields.advance (yields_readNumber hx (Yields.pure hp rfl))
  case duration =>
    obtain ⟨x, hx, rfl⟩ := h
    rw [← hl rfl] at hx ⊢
    exact Yields.advance (yields_readDuration hx (Yields.pure hp rfl))
  case word => simp at h

/-- A circumstance takes the parentheses behind it, but only an empty pair of them. -/
theorem yields_circumstance {l : String} {v : Circumstance} {called : List Word}
    (h : Circumstance.ofName? l = some v)
    (hc : called = [] ∨ called = [sign .leftParen, sign .rightParen])
    (hw : s.words = ⟨.circumstance, l⟩ :: (called ++ rest)) (hs : Stops .factor rest) :
    Yields (factor (n + 1)) s rest (Is (.circumstance .start v)) := by
  have hk : s.next.kind = .circumstance := Reading.next_kind hw
  have hl : s.next.literal = l := Reading.next_literal hw rfl
  have hp := Reading.passed_words hw
  rw [factor]
  refine Yields.peek ?_
  simp only [hk]
  refine Yields.advance (Yields.lookUp (hl ▸ h) (Yields.peek ?_))
  change Yields (ite _ _ _) _ _ _
  rcases hc with rfl | rfl
  · rw [if_neg]
    · exact Yields.pure hp rfl
    · rintro ⟨hopen, -⟩
      rw [List.nil_append] at hp
      exact absurd hopen fun he =>
        next_kind_not_mem (hp.symm ▸ hs) (by decide) (by rw [he]; decide)
  · rw [if_pos]
    · exact Yields.advance (Yields.advance (Yields.pure
        (Reading.passed_words (Reading.passed_words hp)) rfl))
    · refine ⟨Reading.next_kind hp, (Reading.secondKind_eq _).trans ?_⟩
      rw [Reading.passed_words hp]
      rfl

end Factors

theorem sumOperator?_eq_none {k : TokenKind} (h : k ∉ Symbol.sums.tails) :
    sumOperator? k = none := by
  cases k <;> first | rfl | exact absurd (by decide) h

theorem productOperator?_eq_none {k : TokenKind} (h : k ∉ Symbol.products.tails) :
    productOperator? k = none := by
  cases k <;> first | rfl | exact absurd (by decide) h

theorem comparison?_eq_none {k : TokenKind} (h : k ∉ Symbol.comparison.tails) :
    comparison? k = none := by
  cases k <;> first | rfl | exact absurd (by decide) h

theorem words_length_pos {X : Symbol} (d : Derivation .formula X) (h : X.opens = true) :
    1 ≤ d.words.length := by
  obtain ⟨w, ws, hw, -⟩ := d.words_eq_cons h
  rw [hw, List.length_cons]
  omega

/-! ### Sums and products -/

theorem complete_expression {first : Derivation .formula .term} {rest : Derivation .formula .sums}
    (ihf : Complete first) (ihr : Complete rest) : Complete (.expression first rest) := by
  intro n s text hn hw hs
  simp only [words, List.length_append] at hn
  simp only [words, List.append_assoc] at hw
  obtain ⟨n, rfl⟩ := Nat.exists_eq_add_of_le' (show 1 ≤ n by omega)
  rw [TokenReader.expression]
  refine (ihf n s _ (by omega) hw (stops_sums rest hs)).bind fun left s' hl hw' => ?_
  rw [Derivation.formula, ← hl]
  exact ihr n s' text left (by omega) hw' hs

theorem complete_noSum : Complete (.noSum : Derivation .formula .sums) := by
  intro n s text left hn hw hs
  obtain ⟨n, rfl⟩ := Nat.exists_eq_add_of_le' (show 1 ≤ n by omega)
  rw [TokenReader.sums]
  refine Yields.peek ?_
  have hw : s.words = text := hw
  rw [sumOperator?_eq_none (next_kind_not_mem (hw.symm ▸ hs) (by decide))]
  exact Yields.pure hw rfl

theorem complete_sum {op : Operator} (hop : op.precedence = 1) {right : Derivation .formula .term}
    {rest : Derivation .formula .sums} (ihr : Complete right) (ihs : Complete rest) :
    Complete (.sum op hop right rest) := by
  intro n s text left hn hw hs
  simp only [words, List.length_cons, List.length_append] at hn
  simp only [words, List.cons_append, List.append_assoc] at hw
  obtain ⟨n, rfl⟩ := Nat.exists_eq_add_of_le' (show 1 ≤ n by omega)
  rw [TokenReader.sums]
  refine Yields.peek ?_
  rw [sumOperator?_eq_some.2 ⟨Reading.next_kind hw, hop⟩]
  refine Yields.advance ((ihr n _ _ (by omega) (Reading.passed_words hw)
    (stops_sums rest hs)).bind fun r s' hr hw' => ?_)
  rw [Derivation.formula, ← hr]
  exact ihs n s' text (.joined op left r) (by omega) hw' hs

theorem complete_term {first : Derivation .formula .factor} {rest : Derivation .formula .products}
    (ihf : Complete first) (ihr : Complete rest) : Complete (.term first rest) := by
  intro n s text hn hw hs
  have hpos := words_length_pos first rfl
  simp only [words, List.length_append] at hn
  simp only [words, List.append_assoc] at hw
  obtain ⟨n, rfl⟩ := Nat.exists_eq_add_of_le' (show 1 ≤ n by omega)
  rw [TokenReader.term]
  refine (ihf n s _ (by omega) hw (stops_products rest hs)).bind fun left s' hl hw' => ?_
  rw [Derivation.formula, ← hl]
  exact ihr n s' text left (by omega) hw' hs

theorem complete_noProduct : Complete (.noProduct : Derivation .formula .products) := by
  intro n s text left hn hw hs
  obtain ⟨n, rfl⟩ := Nat.exists_eq_add_of_le' (show 1 ≤ n by omega)
  rw [TokenReader.products]
  refine Yields.peek ?_
  have hw : s.words = text := hw
  rw [productOperator?_eq_none (next_kind_not_mem (hw.symm ▸ hs) (by decide))]
  exact Yields.pure hw rfl

theorem complete_product {op : Operator} (hop : op.precedence = 2)
    {right : Derivation .formula .factor} {rest : Derivation .formula .products}
    (ihr : Complete right) (ihs : Complete rest) : Complete (.product op hop right rest) := by
  intro n s text left hn hw hs
  simp only [words, List.length_cons, List.length_append] at hn
  simp only [words, List.cons_append, List.append_assoc] at hw
  obtain ⟨n, rfl⟩ := Nat.exists_eq_add_of_le' (show 1 ≤ n by omega)
  rw [TokenReader.products]
  refine Yields.peek ?_
  rw [productOperator?_eq_some.2 ⟨Reading.next_kind hw, hop⟩]
  refine Yields.advance ((ihr n _ _ (by omega) (Reading.passed_words hw)
    (stops_products rest hs)).bind fun r s' hr hw' => ?_)
  rw [Derivation.formula, ← hr]
  exact ihs n s' text (.joined op left r) (by omega) hw' hs

/-! ### Factors -/

theorem complete_leaf {w : Word} {f : Formula} (hf : leaf? .formula w = some f) :
    Complete (.leaf w f hf) := by
  intro n s text hn hw hs
  obtain ⟨n, rfl⟩ := Nat.exists_eq_add_of_le' (show 2 ≤ n by simp [words] at hn; omega)
  exact yields_leaf hf hw

theorem complete_negative {w : Word} {f : Formula} (hf : negative? .formula w = some f) :
    Complete (.negative w f hf) := by
  intro n s text hn hw hs
  obtain ⟨n, rfl⟩ := Nat.exists_eq_add_of_le' (show 1 ≤ n by simp [words] at hn; omega)
  exact yields_negative hf hw

theorem complete_circumstance {l : String} {v : Circumstance}
    (hv : Circumstance.ofName? l = some v) : Complete (.circumstance l v hv) := by
  intro n s text hn hw hs
  obtain ⟨n, rfl⟩ := Nat.exists_eq_add_of_le' (show 1 ≤ n by simp [words] at hn; omega)
  exact yields_circumstance hv (.inl rfl) hw hs

theorem complete_circumstanceCall {l : String} {v : Circumstance}
    (hv : Circumstance.ofName? l = some v) : Complete (.circumstanceCall l v hv) := by
  intro n s text hn hw hs
  obtain ⟨n, rfl⟩ := Nat.exists_eq_add_of_le' (show 1 ≤ n by simp [words] at hn; omega)
  exact yields_circumstance hv (.inr rfl) hw hs

theorem complete_call {l : String} {function : BuiltIn} (hf : BuiltIn.ofName? l = some function)
    {args : Derivation .formula .arguments} (ih : Complete args) :
    Complete (.call l function hf args) := by
  intro n s text hn hw hs
  simp only [words, List.length_cons] at hn
  simp only [words, List.cons_append] at hw
  obtain ⟨n, rfl⟩ := Nat.exists_eq_add_of_le' (show 2 ≤ n by omega)
  have hk : s.next.kind = .function := Reading.next_kind hw
  have hl : s.next.literal = l := Reading.next_literal hw rfl
  rw [TokenReader.factor]
  refine Yields.peek ?_
  simp only [hk]
  refine Yields.advance ?_
  rw [TokenReader.call]
  refine Yields.lookUp (hl ▸ hf) (Yields.expect _ (Reading.passed_words hw) fun t s' hw' => ?_)
  refine (ih n s' text t.pos _ (by omega) hw').bind fun as s'' has hw'' => ?_
  refine Yields.pure hw'' ?_
  rw [Is, Formula.unplaced, Formula.unplacedAll_eq_map, has]
  rfl

theorem complete_custom : Complete (.custom : Derivation .formula .factor) := by
  intro n s text hn hw hs
  obtain ⟨n, rfl⟩ := Nat.exists_eq_add_of_le' (show 2 ≤ n by simp [words] at hn; omega)
  have hk : s.next.kind = .base := Reading.next_kind hw
  have hl : s.next.literal = customWord := Reading.next_literal hw rfl
  have hp : s.passed.words = text := Reading.passed_words hw
  rw [TokenReader.factor]
  refine Yields.peek ?_
  simp only [hk]
  refine Yields.advance ?_
  rw [TokenReader.base, if_pos hl]
  refine Yields.peek ?_
  rw [if_neg]
  · exact Yields.pure hp rfl
  · exact fun he => next_kind_not_mem (hp.symm ▸ hs) (by decide) (by rw [he]; decide)

theorem complete_customCall {bounds : Derivation .formula .arguments} (ih : Complete bounds) :
    Complete (.customCall bounds) := by
  intro n s text hn hw hs
  simp only [words, List.length_cons] at hn
  simp only [words, List.cons_append] at hw
  obtain ⟨n, rfl⟩ := Nat.exists_eq_add_of_le' (show 2 ≤ n by omega)
  have hk : s.next.kind = .base := Reading.next_kind hw
  have hl : s.next.literal = customWord := Reading.next_literal hw rfl
  have hp := Reading.passed_words hw
  rw [TokenReader.factor]
  refine Yields.peek ?_
  simp only [hk]
  refine Yields.advance ?_
  rw [TokenReader.base, if_pos hl]
  refine Yields.peek ?_
  rw [if_pos (Reading.next_kind_sign hp)]
  refine Yields.advance ((ih n _ text _ _ (by omega) (Reading.passed_words hp)).bind
    fun as s' has hw' => Yields.pure hw' ?_)
  rw [Is, Formula.unplaced, Formula.unplacedAll_eq_map, has]
  rfl

theorem complete_group {inner : Derivation .formula .expression} (ih : Complete inner) :
    Complete (.group inner) := by
  intro n s text hn hw hs
  simp only [words, List.length_cons, List.length_append, List.length_nil] at hn
  simp only [words, List.cons_append, List.append_assoc, List.nil_append] at hw
  obtain ⟨n, rfl⟩ := Nat.exists_eq_add_of_le' (show 1 ≤ n by omega)
  have hk : s.next.kind = .leftParen := Reading.next_kind hw
  rw [TokenReader.factor]
  refine Yields.peek ?_
  simp only [hk]
  refine Yields.advance ((ih n _ _ (by omega) (Reading.passed_words hw)
    (stops_cons (by decide))).bind fun f s' hf hw' => ?_)
  exact Yields.expect _ hw' fun t s'' hw'' => Yields.pure hw'' hf

theorem complete_branching {d : Derivation .formula .conditional} (ih : Complete d) :
    Complete (.branching d) := by
  intro n s text hn hw hs
  have hpos := words_length_pos d rfl
  obtain ⟨ws, hd⟩ := words_conditional d
  simp only [words] at hn
  simp only [words, hd, List.cons_append] at hw
  obtain ⟨n, rfl⟩ := Nat.exists_eq_add_of_le' (show 1 ≤ n by omega)
  have hk : s.next.kind = .ifWord := Reading.next_kind hw
  rw [TokenReader.factor]
  refine Yields.peek ?_
  simp only [hk]
  refine Yields.advance (ih n _ text _ (by omega) ?_ (hs.mono (by decide)))
  rw [hd, Reading.passed_words hw]
  rfl

/-! ### Arguments -/

theorem complete_noArguments : Complete (.noArguments : Derivation .formula .arguments) := by
  intro n s text opened owner hn hw
  obtain ⟨n, rfl⟩ := Nat.exists_eq_add_of_le' (show 1 ≤ n by omega)
  rw [TokenReader.arguments]
  refine Yields.peek ?_
  rw [if_pos (Reading.next_kind_sign hw)]
  exact Yields.advance (Yields.pure (Reading.passed_words hw) rfl)

theorem complete_someArguments {list : Derivation .formula .argumentList} (ih : Complete list) :
    Complete (.someArguments list) := by
  intro n s text opened owner hn hw
  obtain ⟨n, rfl⟩ := Nat.exists_eq_add_of_le' (show 1 ≤ n by omega)
  obtain ⟨w, ws, hl, hk⟩ := list.words_eq_cons rfl
  rw [TokenReader.arguments]
  refine Yields.peek ?_
  rw [if_neg]
  · exact ih n s text opened owner (by simpa [words] using hn) hw
  · rw [words, hl] at hw
    rw [Reading.next_kind hw]
    exact hk

theorem complete_lastArgument {a : Derivation .formula .expression} (ih : Complete a) :
    Complete (.lastArgument a) := by
  intro n s text opened owner hn hw
  simp only [words, List.length_append, List.length_cons, List.length_nil] at hn
  simp only [words, List.append_assoc, List.cons_append, List.nil_append] at hw
  obtain ⟨n, rfl⟩ := Nat.exists_eq_add_of_le' (show 1 ≤ n by omega)
  rw [TokenReader.argumentList]
  refine (ih n s _ (by omega) hw (stops_cons (by decide))).recover.bind ?_
  rintro _ s' ⟨f, rfl, hf⟩ hw'
  have hf : f.unplaced = a.formula := hf
  have hk : s'.next.kind = .rightParen := Reading.next_kind hw'
  refine Yields.peek ?_
  simp only [hk]
  refine Yields.advance (Yields.pure (Reading.passed_words hw') ?_)
  rw [Derivation.formula, ← hf]
  rfl

theorem complete_moreArguments {a : Derivation .formula .expression}
    {list : Derivation .formula .argumentList} (iha : Complete a) (ihl : Complete list) :
    Complete (.moreArguments a list) := by
  intro n s text opened owner hn hw
  simp only [words, List.length_append, List.length_cons] at hn
  simp only [words, List.append_assoc, List.cons_append] at hw
  obtain ⟨n, rfl⟩ := Nat.exists_eq_add_of_le' (show 1 ≤ n by omega)
  rw [TokenReader.argumentList]
  refine (iha n s _ (by omega) hw (stops_cons (by decide))).recover.bind ?_
  rintro _ s' ⟨f, rfl, hf⟩ hw'
  have hf : f.unplaced = a.formula := hf
  have hk : s'.next.kind = .comma := Reading.next_kind hw'
  refine Yields.peek ?_
  simp only [hk]
  refine Yields.advance ((ihl n _ text opened owner (by omega)
    (Reading.passed_words hw')).bind fun as s'' has hw'' => Yields.pure hw'' ?_)
  rw [Derivation.formula, ← hf, ← has]
  rfl

/-! ### Conditionals -/

theorem complete_conditional {c : Derivation .formula .either}
    {t : Derivation .formula .expression} {e : Derivation .formula .otherwise} (ihc : Complete c)
    (iht : Complete t) (ihe : Complete e) : Complete (.conditional c t e) := by
  intro n s text tok hn hw hs
  have hpos := words_length_pos c rfl
  simp only [words, List.length_append, List.length_cons] at hn
  simp only [words, List.append_assoc, List.cons_append, List.cons.injEq, true_and] at hw
  obtain ⟨n, rfl⟩ := Nat.exists_eq_add_of_le' (show 1 ≤ n by omega)
  rw [conditional_succ]
  refine Yields.expect _ hw fun _ s₁ hw => ?_
  refine (ihc n s₁ _ (by omega) hw (stops_cons (by decide))).bind fun fc s₂ hc hw => ?_
  refine Yields.expect _ hw fun _ s₃ hw => Yields.expect _ hw fun _ s₄ hw => ?_
  refine (iht n s₄ _ (by omega) hw (stops_cons (by decide))).bind fun ft s₅ ht hw => ?_
  refine Yields.expect _ hw fun _ s₆ hw => ?_
  rw [Derivation.formula, ← hc, ← ht]
  exact ihe n s₆ text tok fc ft (by omega) hw hs

theorem complete_noElse : Complete (.noElse : Derivation .formula .otherwise) := by
  intro n s text tok fc ft hn hw hs
  have hw : s.words = text := hw
  rw [elsePart]
  refine Yields.peek ?_
  rw [if_neg]
  · exact Yields.pure hw rfl
  · exact fun he => next_kind_not_mem (hw.symm ▸ hs) (by decide) (by rw [he]; decide)

theorem complete_elseIf {d : Derivation .formula .conditional} (ih : Complete d) :
    Complete (.elseIf d) := by
  intro n s text tok fc ft hn hw hs
  obtain ⟨ws, hd⟩ := words_conditional d
  simp only [words, List.length_cons] at hn
  simp only [words, List.cons_append, hd] at hw
  have hp := Reading.passed_words hw
  rw [elsePart]
  refine Yields.peek ?_
  rw [if_pos (Reading.next_kind_sign hw)]
  refine Yields.advance (Yields.peek ?_)
  rw [if_pos (Reading.next_kind_sign hp)]
  refine Yields.advance ((ih n _ text _ (by omega) ?_ hs).bind
    fun e s' he hw' => Yields.pure hw' ?_)
  · rw [hd, Reading.passed_words hp]
    rfl
  · rw [Derivation.formula, ← he]
    rfl

theorem complete_elseBranch {e : Derivation .formula .expression} (ih : Complete e) :
    Complete (.elseBranch e) := by
  intro n s text tok fc ft hn hw hs
  simp only [words, List.length_append, List.length_cons, List.length_nil] at hn
  simp only [words, List.append_assoc, List.cons_append, List.nil_append] at hw
  have hp := Reading.passed_words hw
  rw [elsePart]
  refine Yields.peek ?_
  rw [if_pos (Reading.next_kind_sign hw)]
  refine Yields.advance (Yields.peek ?_)
  rw [if_neg (by rw [Reading.next_kind hp]; decide)]
  refine Yields.expect _ hp fun _ s₁ hw => ?_
  refine (ih n s₁ _ (by omega) hw (stops_cons (by decide))).bind fun f s₂ hf hw => ?_
  refine Yields.expect _ hw fun _ s₃ hw => Yields.pure hw ?_
  rw [Derivation.formula, ← hf]
  rfl

/-! ### Conditions -/

theorem complete_either {first : Derivation .formula .both} {rest : Derivation .formula .eithers}
    (ihf : Complete first) (ihr : Complete rest) : Complete (.either first rest) := by
  intro n s text hn hw hs
  simp only [words, List.length_append] at hn
  simp only [words, List.append_assoc] at hw
  obtain ⟨n, rfl⟩ := Nat.exists_eq_add_of_le' (show 1 ≤ n by omega)
  rw [eitherCondition]
  refine (ihf n s _ (by omega) hw (stops_eithers rest hs)).bind fun left s' hl hw' => ?_
  rw [Derivation.formula, ← hl]
  exact ihr n s' text left (by omega) hw' hs

theorem complete_noEither : Complete (.noEither : Derivation .formula .eithers) := by
  intro n s text left hn hw hs
  obtain ⟨n, rfl⟩ := Nat.exists_eq_add_of_le' (show 1 ≤ n by omega)
  have hw : s.words = text := hw
  rw [TokenReader.eithers]
  refine Yields.peek ?_
  rw [if_neg]
  · exact Yields.pure hw rfl
  · exact fun he => next_kind_not_mem (hw.symm ▸ hs) (by decide) (by rw [he]; decide)

theorem complete_orElse {right : Derivation .formula .both} {rest : Derivation .formula .eithers}
    (ihr : Complete right) (ihs : Complete rest) : Complete (.orElse right rest) := by
  intro n s text left hn hw hs
  simp only [words, List.length_cons, List.length_append] at hn
  simp only [words, List.cons_append, List.append_assoc] at hw
  obtain ⟨n, rfl⟩ := Nat.exists_eq_add_of_le' (show 1 ≤ n by omega)
  rw [TokenReader.eithers]
  refine Yields.peek ?_
  rw [if_pos (Reading.next_kind_sign hw)]
  refine Yields.advance ((ihr n _ _ (by omega) (Reading.passed_words hw)
    (stops_eithers rest hs)).bind fun r s' hr hw' => ?_)
  rw [Derivation.formula, ← hr]
  exact ihs n s' text (.related .either left r) (by omega) hw' hs

theorem complete_both {first : Derivation .formula .comparison}
    {rest : Derivation .formula .boths} (ihf : Complete first) (ihr : Complete rest) :
    Complete (.both first rest) := by
  intro n s text hn hw hs
  simp only [words, List.length_append] at hn
  simp only [words, List.append_assoc] at hw
  obtain ⟨n, rfl⟩ := Nat.exists_eq_add_of_le' (show 1 ≤ n by omega)
  rw [bothCondition]
  refine (ihf n s _ (by omega) hw (stops_boths rest hs)).bind fun left s' hl hw' => ?_
  rw [Derivation.formula, ← hl]
  exact ihr n s' text left (by omega) hw' hs

theorem complete_noBoth : Complete (.noBoth : Derivation .formula .boths) := by
  intro n s text left hn hw hs
  obtain ⟨n, rfl⟩ := Nat.exists_eq_add_of_le' (show 1 ≤ n by omega)
  have hw : s.words = text := hw
  rw [TokenReader.boths]
  refine Yields.peek ?_
  rw [if_neg]
  · exact Yields.pure hw rfl
  · exact fun he => next_kind_not_mem (hw.symm ▸ hs) (by decide) (by rw [he]; decide)

theorem complete_andAlso {right : Derivation .formula .comparison}
    {rest : Derivation .formula .boths} (ihr : Complete right) (ihs : Complete rest) :
    Complete (.andAlso right rest) := by
  intro n s text left hn hw hs
  simp only [words, List.length_cons, List.length_append] at hn
  simp only [words, List.cons_append, List.append_assoc] at hw
  obtain ⟨n, rfl⟩ := Nat.exists_eq_add_of_le' (show 1 ≤ n by omega)
  rw [TokenReader.boths]
  refine Yields.peek ?_
  rw [if_pos (Reading.next_kind_sign hw)]
  refine Yields.advance ((ihr n _ _ (by omega) (Reading.passed_words hw)
    (stops_boths rest hs)).bind fun r s' hr hw' => ?_)
  rw [Derivation.formula, ← hr]
  exact ihs n s' text (.related .both left r) (by omega) hw' hs

theorem complete_bare {side : Derivation .formula .side} (ih : Complete side) :
    Complete (.bare side) := by
  intro n s text hn hw hs
  simp only [words] at hn hw
  obtain ⟨n, rfl⟩ := Nat.exists_eq_add_of_le' (show 1 ≤ n by omega)
  rw [TokenReader.comparison]
  refine (ih n s text (by omega) hw (hs.mono (by decide))).bind fun f s' hf hw' => ?_
  refine Yields.peek ?_
  rw [comparison?_eq_none (next_kind_not_mem (hw'.symm ▸ hs) (by decide))]
  exact Yields.pure hw' hf

theorem complete_compared {left : Derivation .formula .side} {relation : Relation}
    (hr : relation.isLogical = false) {right : Derivation .formula .side} (ihl : Complete left)
    (ihr : Complete right) : Complete (.compared left relation hr right) := by
  intro n s text hn hw hs
  simp only [words, List.length_append, List.length_cons] at hn
  simp only [words, List.append_assoc, List.cons_append] at hw
  obtain ⟨n, rfl⟩ := Nat.exists_eq_add_of_le' (show 1 ≤ n by omega)
  rw [TokenReader.comparison]
  refine (ihl n s _ (by omega) hw (stops_cons fun h => (kind_of_comparison hr).2
    (by revert h; cases relation <;> decide))).bind fun f s' hf hw' => ?_
  refine Yields.peek ?_
  rw [comparison?_eq_some.2 ⟨Reading.next_kind hw', hr⟩]
  refine Yields.advance ((ihr n _ text (by omega) (Reading.passed_words hw')
    (hs.mono (by decide))).bind fun g s'' hg hw'' => Yields.pure hw'' ?_)
  rw [Derivation.formula, ← hf, ← hg]
  rfl

theorem complete_factorSide {hd : Dialect.formula = .formula} {f : Derivation .formula .factor}
    (ih : Complete f) : Complete (.factorSide hd f) := by
  intro n s text hn hw hs
  exact ih n s text hn hw hs

/-! ### All derivations -/

theorem complete {X : Symbol} (d : Derivation .formula X) : Complete d := by
  induction d with
  | expression first rest ihf ihr => exact complete_expression ihf ihr
  | noSum => exact complete_noSum
  | sum op hop right rest ihr ihs => exact complete_sum hop ihr ihs
  | term first rest ihf ihr => exact complete_term ihf ihr
  | noProduct => exact complete_noProduct
  | product op hop right rest ihr ihs => exact complete_product hop ihr ihs
  | leaf w f hf => exact complete_leaf hf
  | negative w f hf => exact complete_negative hf
  | circumstance l v hv => exact complete_circumstance hv
  | circumstanceCall l v hv => exact complete_circumstanceCall hv
  | call l function hf args ih => exact complete_call hf ih
  | custom => exact complete_custom
  | customCall bounds ih => exact complete_customCall ih
  | group inner ih => exact complete_group ih
  | branching d ih => exact complete_branching ih
  | noArguments => exact complete_noArguments
  | someArguments list ih => exact complete_someArguments ih
  | lastArgument a ih => exact complete_lastArgument ih
  | moreArguments a list iha ihl => exact complete_moreArguments iha ihl
  | conditional c t e ihc iht ihe => exact complete_conditional ihc iht ihe
  | noElse => exact complete_noElse
  | elseIf d ih => exact complete_elseIf ih
  | elseBranch e ih => exact complete_elseBranch ih
  | either first rest ihf ihr => exact complete_either ihf ihr
  | noEither => exact complete_noEither
  | orElse right rest ihr ihs => exact complete_orElse ihr ihs
  | both first rest ihf ihr => exact complete_both ihf ihr
  | noBoth => exact complete_noBoth
  | andAlso right rest ihr ihs => exact complete_andAlso ihr ihs
  | bare side ih => exact complete_bare ih
  | compared left relation hr right ihl ihr => exact complete_compared hr ihl ihr
  | factorSide hd f ih => exact complete_factorSide ih
  | expressionSide hd f ih => cases hd

end TokenReader

end Sundial
