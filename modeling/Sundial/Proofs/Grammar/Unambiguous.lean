import Sundial.Proofs.Grammar.Derivation

/-!
# The grammar is unambiguous

A list of words has at most one derivation. The induction needs more than that: two derivations of
one symbol whose words start the same text are the same derivation, if neither of them is followed
by a word that could have made it longer. `Symbol.tails` lists the kinds of those words, and
`Stops` says that a text starts with none of them.
-/

set_option autoImplicit false

namespace Sundial.Grammar

open Word

/-! ## Where a derivation stops -/

/-- The kinds of the words that can make a derivation of the symbol longer. -/
def Symbol.tails : Symbol → List TokenKind
  | factor => [.leftParen, .elseWord]
  | term | products => [.leftParen, .elseWord, .star, .slash]
  | expression | sums | side => [.leftParen, .elseWord, .star, .slash, .plus, .minus]
  | comparison =>
    [.leftParen, .elseWord, .star, .slash, .plus, .minus, .greater, .less, .greaterEqual,
     .lessEqual, .equal, .notEqual]
  | both | boths =>
    [.leftParen, .elseWord, .star, .slash, .plus, .minus, .greater, .less, .greaterEqual,
     .lessEqual, .equal, .notEqual, .both]
  | either | eithers =>
    [.leftParen, .elseWord, .star, .slash, .plus, .minus, .greater, .less, .greaterEqual,
     .lessEqual, .equal, .notEqual, .both, .either]
  | conditional | otherwise => [.elseWord]
  | arguments | argumentList => []

/-- The text does not go on with a word that could make a derivation of the symbol longer. -/
def Stops (X : Symbol) (text : List Word) : Prop :=
  ∀ w ∈ text.head?, w.kind ∉ X.tails

theorem stops_nil (X : Symbol) : Stops X [] := by
  intro w h
  cases h

theorem stops_cons {X : Symbol} {w : Word} {text : List Word} (h : w.kind ∉ X.tails) :
    Stops X (w :: text) := by
  intro v hv
  cases hv
  exact h

theorem Stops.mono {X Y : Symbol} {text : List Word} (h : Stops Y text) (hs : X.tails ⊆ Y.tails) :
    Stops X text :=
  fun w hw hm => h w hw (hs hm)

theorem Stops.head {X : Symbol} {w : Word} {text : List Word} (h : Stops X (w :: text)) :
    w.kind ∉ X.tails :=
  h w rfl

variable {δ : Dialect} {text : List Word}

/-- Arguments end with their parenthesis, whatever comes behind it. -/
theorem stops_arguments {X : Symbol} (text : List Word) (h : X.tails = [] := by rfl) :
    Stops X text := by
  intro w _
  rw [h]
  exact List.not_mem_nil

theorem kind_of_sum {op : Operator} (h : op.precedence = 1) :
    op.kind ∈ Symbol.sums.tails ∧ op.kind ∉ Symbol.term.tails := by
  cases op <;> revert h <;> decide

theorem kind_of_product {op : Operator} (h : op.precedence = 2) :
    op.kind ∈ Symbol.products.tails ∧ op.kind ∉ Symbol.factor.tails := by
  cases op <;> revert h <;> decide

theorem kind_of_comparison {relation : Relation} (h : relation.isLogical = false) :
    relation.kind ∈ Symbol.comparison.tails ∧ relation.kind ∉ Symbol.side.tails := by
  cases relation <;> revert h <;> decide

theorem stops_sums (d : Derivation δ .sums) (h : Stops .expression text) :
    Stops .term (d.words ++ text) := by
  cases d with
  | noSum => exact h.mono (by decide)
  | sum op hop right rest => exact stops_cons (kind_of_sum hop).2

theorem stops_products (d : Derivation δ .products) (h : Stops .term text) :
    Stops .factor (d.words ++ text) := by
  cases d with
  | noProduct => exact h.mono (by decide)
  | product op hop right rest => exact stops_cons (kind_of_product hop).2

theorem stops_eithers (d : Derivation δ .eithers) (h : Stops .either text) :
    Stops .both (d.words ++ text) := by
  cases d with
  | noEither => exact h.mono (by decide)
  | orElse right rest => exact stops_cons (by decide)

theorem stops_boths (d : Derivation δ .boths) (h : Stops .both text) :
    Stops .comparison (d.words ++ text) := by
  cases d with
  | noBoth => exact h.mono (by decide)
  | andAlso right rest => exact stops_cons (by decide)

/-! ## How a derivation starts -/

theorem leaf?_eq_some {w : Word} {f : Formula} (h : leaf? δ w = some f) :
    w.kind ∈ [.number, .duration, .string, .primitive, .reference, .direction, .base, .word] ∧
      w ≠ ⟨.base, customWord⟩ := by
  refine ⟨?_, ?_⟩
  · unfold leaf? at h
    split at h <;> simp_all
  · rintro rfl
    exact absurd h (by simp [leaf?, show DaySpan.ofName? customWord = none by decide])

/-- A symbol that derives no empty text and none that starts with a closing parenthesis. -/
def Symbol.opens : Symbol → Bool
  | sums | products | eithers | boths | otherwise | arguments => false
  | _ => true

namespace Derivation

theorem words_eq_cons {X : Symbol} (d : Derivation δ X) (h : X.opens = true) :
    ∃ w ws, d.words = w :: ws ∧ w.kind ≠ .rightParen := by
  induction d with
  | expression _ _ ih _ | term _ _ ih _ | either _ _ ih _ | both _ _ ih _ | lastArgument _ ih
  | moreArguments _ _ ih _ | compared _ _ _ _ ih _ =>
    obtain ⟨w, ws, hw, hk⟩ := ih rfl
    exact ⟨w, _, by rw [words, hw, List.cons_append], hk⟩
  | branching _ ih | bare _ ih | factorSide _ _ ih | expressionSide _ _ ih =>
    exact ih rfl
  | leaf w f hf =>
    refine ⟨w, [], rfl, fun hk => ?_⟩
    have := (leaf?_eq_some hf).1
    rw [hk] at this
    exact absurd this (by decide)
  | negative | circumstance | circumstanceCall | call | custom | customCall | group | conditional =>
    exact ⟨_, _, rfl, by simp⟩
  | noSum | sum | noProduct | product | noEither | orElse | noBoth | andAlso | noElse | elseIf
  | elseBranch | noArguments | someArguments =>
    cases h

/-- A conditional starts with its `if`. -/
theorem words_conditional (d : Derivation δ .conditional) :
    ∃ ws, d.words = sign .ifWord :: ws := by
  cases d
  exact ⟨_, rfl⟩

end Derivation

/-! ## Which production a factor comes from -/

inductive Production where
  | leaf
  | negative
  | circumstance
  | circumstanceCall
  | call
  | custom
  | customCall
  | group
  | branching

/-- The production of the factor at the start of a text, told from two words. -/
def Production.of : List Word → Production
  | [] => leaf
  | w :: text =>
    let called := (text.head?.map Word.kind) = some .leftParen
    match w.kind with
    | .minus => negative
    | .circumstance => if called then circumstanceCall else circumstance
    | .function => call
    | .leftParen => group
    | .ifWord => branching
    | .base => if w.literal ≠ customWord then leaf else if called then customCall else custom
    | _ => leaf

namespace Derivation

def production : Derivation δ .factor → Production
  | leaf .. => .leaf
  | negative .. => .negative
  | circumstance .. => .circumstance
  | circumstanceCall .. => .circumstanceCall
  | call .. => .call
  | custom => .custom
  | customCall _ => .customCall
  | group _ => .group
  | branching _ => .branching

/-- A text that a factor stops at does not open a parenthesis. -/
theorem not_called (hs : Stops .factor text) : (text.head?.map Word.kind) ≠ some .leftParen := by
  intro h
  obtain ⟨w, hw, hk⟩ := Option.map_eq_some_iff.1 h
  have := hs w hw
  rw [hk] at this
  exact absurd this (by decide)

theorem production_eq (d : Derivation δ .factor) (hs : Stops .factor text) :
    d.production = .of (d.words ++ text) := by
  have hc := not_called hs
  cases d with
  | leaf w f hf =>
    obtain ⟨hk, hw⟩ := leaf?_eq_some hf
    obtain ⟨k, s⟩ := w
    simp only [List.mem_cons, List.not_mem_nil, or_false] at hk
    rcases hk with rfl | rfl | rfl | rfl | rfl | rfl | rfl | rfl <;>
      simp_all [production, words, Production.of]
  | branching d =>
    obtain ⟨ws, h⟩ := words_conditional d
    simp [production, words, Production.of, h]
  | _ => simp [production, words, Production.of, hc]

theorem production_congr (d d' : Derivation δ .factor) {text text' : List Word}
    (h : d.words ++ text = d'.words ++ text') (hs : Stops .factor text)
    (hs' : Stops .factor text') : d.production = d'.production := by
  rw [production_eq d hs, h, ← production_eq d' hs']

/-! ## Unambiguity -/

/-- No other derivation from the symbol starts the same text and stops in it. -/
def Exact {X : Symbol} (d : Derivation δ X) : Prop :=
  ∀ (d' : Derivation δ X) (text text' : List Word), d.words ++ text = d'.words ++ text' →
    Stops X text → Stops X text' → d = d' ∧ text = text'

/-! ### Sums and products -/

theorem exact_expression {first : Derivation δ .term} {rest : Derivation δ .sums}
    (ihf : Exact first) (ihr : Exact rest) : Exact (.expression first rest) := by
  intro d' text text' h hs hs'
  cases d' with
  | expression first' rest' =>
    simp only [words, List.append_assoc] at h
    obtain ⟨rfl, ht⟩ := ihf first' _ _ h (stops_sums rest hs) (stops_sums rest' hs')
    obtain ⟨rfl, rfl⟩ := ihr rest' _ _ ht hs hs'
    exact ⟨rfl, rfl⟩

theorem exact_noSum : Exact (.noSum : Derivation δ .sums) := by
  intro d' text text' h hs hs'
  cases d' with
  | noSum => exact ⟨rfl, h⟩
  | sum op hop right rest =>
    rw [words, List.nil_append] at h
    subst h
    exact absurd (kind_of_sum hop).1 hs.head

theorem exact_sum {op : Operator} (hop : op.precedence = 1) {right : Derivation δ .term}
    {rest : Derivation δ .sums} (ihf : Exact right) (ihr : Exact rest) :
    Exact (.sum op hop right rest) := by
  intro d' text text' h hs hs'
  cases d' with
  | noSum =>
    subst h
    exact absurd (kind_of_sum hop).1 hs'.head
  | sum op' hop' right' rest' =>
    simp only [words, List.cons_append, List.append_assoc, List.cons.injEq, sign_inj] at h
    obtain ⟨hk, h⟩ := h
    obtain rfl := Operator.kind_injective hk
    obtain ⟨rfl, ht⟩ := ihf right' _ _ h (stops_sums rest hs) (stops_sums rest' hs')
    obtain ⟨rfl, rfl⟩ := ihr rest' _ _ ht hs hs'
    exact ⟨rfl, rfl⟩

theorem exact_term {first : Derivation δ .factor} {rest : Derivation δ .products}
    (ihf : Exact first) (ihr : Exact rest) : Exact (.term first rest) := by
  intro d' text text' h hs hs'
  cases d' with
  | term first' rest' =>
    simp only [words, List.append_assoc] at h
    obtain ⟨rfl, ht⟩ := ihf first' _ _ h (stops_products rest hs) (stops_products rest' hs')
    obtain ⟨rfl, rfl⟩ := ihr rest' _ _ ht hs hs'
    exact ⟨rfl, rfl⟩

theorem exact_noProduct : Exact (.noProduct : Derivation δ .products) := by
  intro d' text text' h hs hs'
  cases d' with
  | noProduct => exact ⟨rfl, h⟩
  | product op hop right rest =>
    rw [words, List.nil_append] at h
    subst h
    exact absurd (kind_of_product hop).1 hs.head

theorem exact_product {op : Operator} (hop : op.precedence = 2) {right : Derivation δ .factor}
    {rest : Derivation δ .products} (ihf : Exact right) (ihr : Exact rest) :
    Exact (.product op hop right rest) := by
  intro d' text text' h hs hs'
  cases d' with
  | noProduct =>
    subst h
    exact absurd (kind_of_product hop).1 hs'.head
  | product op' hop' right' rest' =>
    simp only [words, List.cons_append, List.append_assoc, List.cons.injEq, sign_inj] at h
    obtain ⟨hk, h⟩ := h
    obtain rfl := Operator.kind_injective hk
    obtain ⟨rfl, ht⟩ := ihf right' _ _ h (stops_products rest hs) (stops_products rest' hs')
    obtain ⟨rfl, rfl⟩ := ihr rest' _ _ ht hs hs'
    exact ⟨rfl, rfl⟩

/-! ### Factors -/

theorem exact_leaf {w : Word} {f : Formula} (hf : leaf? δ w = some f) : Exact (.leaf w f hf) := by
  intro d' text text' h hs hs'
  have hp := production_congr _ d' h hs hs'
  cases d' with
  | leaf w' f' hf' =>
    simp only [words, List.cons_append, List.nil_append, List.cons.injEq] at h
    obtain ⟨rfl, rfl⟩ := h
    obtain rfl := Option.some.inj (hf.symm.trans hf')
    exact ⟨rfl, rfl⟩
  | _ => cases hp

theorem exact_negative {w : Word} {f : Formula} (hf : negative? δ w = some f) :
    Exact (.negative w f hf) := by
  intro d' text text' h hs hs'
  have hp := production_congr _ d' h hs hs'
  cases d' with
  | negative w' f' hf' =>
    simp only [words, List.cons_append, List.nil_append, List.cons.injEq, true_and] at h
    obtain ⟨rfl, rfl⟩ := h
    obtain rfl := Option.some.inj (hf.symm.trans hf')
    exact ⟨rfl, rfl⟩
  | _ => cases hp

theorem exact_circumstance {s : String} {v : Circumstance} (hv : Circumstance.ofName? s = some v) :
    Exact (.circumstance s v hv : Derivation δ .factor) := by
  intro d' text text' h hs hs'
  have hp := production_congr _ d' h hs hs'
  cases d' with
  | circumstance s' v' hv' =>
    simp only [words, List.cons_append, List.nil_append, List.cons.injEq, Word.mk.injEq,
      true_and] at h
    obtain ⟨rfl, rfl⟩ := h
    obtain rfl := Option.some.inj (hv.symm.trans hv')
    exact ⟨rfl, rfl⟩
  | _ => cases hp

theorem exact_circumstanceCall {s : String} {v : Circumstance}
    (hv : Circumstance.ofName? s = some v) :
    Exact (.circumstanceCall s v hv : Derivation δ .factor) := by
  intro d' text text' h hs hs'
  have hp := production_congr _ d' h hs hs'
  cases d' with
  | circumstanceCall s' v' hv' =>
    simp only [words, List.cons_append, List.nil_append, List.cons.injEq, Word.mk.injEq,
      true_and] at h
    obtain ⟨rfl, rfl⟩ := h
    obtain rfl := Option.some.inj (hv.symm.trans hv')
    exact ⟨rfl, rfl⟩
  | _ => cases hp

theorem exact_call {s : String} {function : BuiltIn} (hf : BuiltIn.ofName? s = some function)
    {args : Derivation δ .arguments} (ih : Exact args) : Exact (.call s function hf args) := by
  intro d' text text' h hs hs'
  have hp := production_congr _ d' h hs hs'
  cases d' with
  | call s' function' hf' args' =>
    simp only [words, List.cons_append, List.cons.injEq, Word.mk.injEq, true_and] at h
    obtain ⟨rfl, h⟩ := h
    obtain rfl := Option.some.inj (hf.symm.trans hf')
    obtain ⟨rfl, rfl⟩ := ih args' _ _ h (stops_arguments text) (stops_arguments text')
    exact ⟨rfl, rfl⟩
  | _ => cases hp

theorem exact_custom : Exact (.custom : Derivation δ .factor) := by
  intro d' text text' h hs hs'
  have hp := production_congr _ d' h hs hs'
  cases d' with
  | custom => exact ⟨rfl, List.tail_eq_of_cons_eq h⟩
  | _ => cases hp

theorem exact_customCall {bounds : Derivation δ .arguments} (ih : Exact bounds) :
    Exact (.customCall bounds) := by
  intro d' text text' h hs hs'
  have hp := production_congr _ d' h hs hs'
  cases d' with
  | customCall bounds' =>
    simp only [words, List.cons_append, List.cons.injEq, true_and] at h
    obtain ⟨rfl, rfl⟩ := ih bounds' _ _ h (stops_arguments text) (stops_arguments text')
    exact ⟨rfl, rfl⟩
  | _ => cases hp

theorem exact_group {inner : Derivation δ .expression} (ih : Exact inner) :
    Exact (.group inner) := by
  intro d' text text' h hs hs'
  have hp := production_congr _ d' h hs hs'
  cases d' with
  | group inner' =>
    simp only [words, List.cons_append, List.append_assoc, List.cons.injEq, true_and,
      List.nil_append] at h
    obtain ⟨rfl, ht⟩ := ih inner' _ _ h (stops_cons (by decide)) (stops_cons (by decide))
    exact ⟨rfl, List.tail_eq_of_cons_eq ht⟩
  | _ => cases hp

theorem exact_branching {d : Derivation δ .conditional} (ih : Exact d) :
    Exact (.branching d) := by
  intro d' text text' h hs hs'
  have hp := production_congr _ d' h hs hs'
  cases d' with
  | branching d' =>
    obtain ⟨rfl, rfl⟩ := ih d' _ _ h (hs.mono (by decide)) (hs'.mono (by decide))
    exact ⟨rfl, rfl⟩
  | _ => cases hp

/-! ### Arguments -/

theorem exact_noArguments : Exact (.noArguments : Derivation δ .arguments) := by
  intro d' text text' h hs hs'
  cases d' with
  | noArguments => exact ⟨rfl, List.tail_eq_of_cons_eq h⟩
  | someArguments list =>
    obtain ⟨w, ws, hw, hk⟩ := list.words_eq_cons rfl
    rw [words, words, hw] at h
    exact absurd (congrArg Word.kind (List.cons.inj h).1).symm hk

theorem exact_someArguments {list : Derivation δ .argumentList} (ih : Exact list) :
    Exact (.someArguments list) := by
  intro d' text text' h hs hs'
  cases d' with
  | noArguments =>
    obtain ⟨w, ws, hw, hk⟩ := list.words_eq_cons rfl
    rw [words, words, hw] at h
    exact absurd (congrArg Word.kind (List.cons.inj h).1) hk
  | someArguments list' =>
    obtain ⟨rfl, rfl⟩ := ih list' _ _ h (stops_arguments text) (stops_arguments text')
    exact ⟨rfl, rfl⟩

theorem exact_lastArgument {a : Derivation δ .expression} (ih : Exact a) :
    Exact (.lastArgument a) := by
  intro d' text text' h hs hs'
  cases d' with
  | lastArgument a' =>
    simp only [words, List.append_assoc, List.cons_append, List.nil_append] at h
    obtain ⟨rfl, ht⟩ := ih a' _ _ h (stops_cons (by decide)) (stops_cons (by decide))
    exact ⟨rfl, List.tail_eq_of_cons_eq ht⟩
  | moreArguments a' list' =>
    simp only [words, List.append_assoc, List.cons_append, List.nil_append] at h
    obtain ⟨-, ht⟩ := ih a' _ _ h (stops_cons (by decide)) (stops_cons (by decide))
    exact absurd (List.cons.inj ht).1 (by decide)

theorem exact_moreArguments {a : Derivation δ .expression} {list : Derivation δ .argumentList}
    (iha : Exact a) (ihl : Exact list) : Exact (.moreArguments a list) := by
  intro d' text text' h hs hs'
  cases d' with
  | lastArgument a' =>
    simp only [words, List.append_assoc, List.cons_append, List.nil_append] at h
    obtain ⟨-, ht⟩ := iha a' _ _ h (stops_cons (by decide)) (stops_cons (by decide))
    exact absurd (List.cons.inj ht).1 (by decide)
  | moreArguments a' list' =>
    simp only [words, List.append_assoc, List.cons_append] at h
    obtain ⟨rfl, ht⟩ := iha a' _ _ h (stops_cons (by decide)) (stops_cons (by decide))
    obtain ⟨rfl, rfl⟩ := ihl list' _ _ (List.cons.inj ht).2 (stops_arguments text)
      (stops_arguments text')
    exact ⟨rfl, rfl⟩

/-! ### Conditionals -/

theorem exact_conditional {c : Derivation δ .either} {t : Derivation δ .expression}
    {e : Derivation δ .otherwise} (ihc : Exact c) (iht : Exact t) (ihe : Exact e) :
    Exact (.conditional c t e) := by
  intro d' text text' h hs hs'
  cases d' with
  | conditional c' t' e' =>
    simp only [words, List.append_assoc, List.cons_append, List.cons.injEq, true_and] at h
    obtain ⟨rfl, ht⟩ := ihc c' _ _ h (stops_cons (by decide)) (stops_cons (by decide))
    obtain ⟨rfl, he⟩ := iht t' _ _ (List.cons.inj (List.cons.inj ht).2).2
      (stops_cons (by decide)) (stops_cons (by decide))
    obtain ⟨rfl, rfl⟩ := ihe e' _ _ (List.cons.inj he).2 hs hs'
    exact ⟨rfl, rfl⟩

theorem exact_noElse : Exact (.noElse : Derivation δ .otherwise) := by
  intro d' text text' h hs hs'
  cases d' with
  | noElse => exact ⟨rfl, h⟩
  | elseIf _ | elseBranch _ =>
    rw [words, List.nil_append] at h
    subst h
    exact absurd (by decide) hs.head

theorem exact_elseIf {d : Derivation δ .conditional} (ih : Exact d) : Exact (.elseIf d) := by
  intro d' text text' h hs hs'
  cases d' with
  | noElse =>
    subst h
    exact absurd (by decide) hs'.head
  | elseIf d' =>
    obtain ⟨rfl, rfl⟩ := ih d' _ _ (List.cons.inj h).2 hs hs'
    exact ⟨rfl, rfl⟩
  | elseBranch e' =>
    obtain ⟨ws, hw⟩ := words_conditional d
    rw [words, words, hw] at h
    exact absurd (List.cons.inj (List.cons.inj h).2).1 (by decide)

theorem exact_elseBranch {e : Derivation δ .expression} (ih : Exact e) :
    Exact (.elseBranch e) := by
  intro d' text text' h hs hs'
  cases d' with
  | noElse =>
    subst h
    exact absurd (by decide) hs'.head
  | elseIf d' =>
    obtain ⟨ws, hw⟩ := words_conditional d'
    rw [words, words, hw] at h
    exact absurd (List.cons.inj (List.cons.inj h).2).1 (by decide)
  | elseBranch e' =>
    simp only [words, List.cons_append, List.append_assoc, List.cons.injEq, true_and,
      List.nil_append] at h
    obtain ⟨rfl, ht⟩ := ih e' _ _ h (stops_cons (by decide)) (stops_cons (by decide))
    exact ⟨rfl, List.tail_eq_of_cons_eq ht⟩

/-! ### Conditions -/

theorem exact_either {first : Derivation δ .both} {rest : Derivation δ .eithers}
    (ihf : Exact first) (ihr : Exact rest) : Exact (.either first rest) := by
  intro d' text text' h hs hs'
  cases d' with
  | either first' rest' =>
    simp only [words, List.append_assoc] at h
    obtain ⟨rfl, ht⟩ := ihf first' _ _ h (stops_eithers rest hs) (stops_eithers rest' hs')
    obtain ⟨rfl, rfl⟩ := ihr rest' _ _ ht hs hs'
    exact ⟨rfl, rfl⟩

theorem exact_noEither : Exact (.noEither : Derivation δ .eithers) := by
  intro d' text text' h hs hs'
  cases d' with
  | noEither => exact ⟨rfl, h⟩
  | orElse right rest =>
    rw [words, List.nil_append] at h
    subst h
    exact absurd (by decide) hs.head

theorem exact_orElse {right : Derivation δ .both} {rest : Derivation δ .eithers}
    (ihf : Exact right) (ihr : Exact rest) : Exact (.orElse right rest) := by
  intro d' text text' h hs hs'
  cases d' with
  | noEither =>
    subst h
    exact absurd (by decide) hs'.head
  | orElse right' rest' =>
    simp only [words, List.cons_append, List.append_assoc, List.cons.injEq, true_and] at h
    obtain ⟨rfl, ht⟩ := ihf right' _ _ h (stops_eithers rest hs) (stops_eithers rest' hs')
    obtain ⟨rfl, rfl⟩ := ihr rest' _ _ ht hs hs'
    exact ⟨rfl, rfl⟩

theorem exact_both {first : Derivation δ .comparison} {rest : Derivation δ .boths}
    (ihf : Exact first) (ihr : Exact rest) : Exact (.both first rest) := by
  intro d' text text' h hs hs'
  cases d' with
  | both first' rest' =>
    simp only [words, List.append_assoc] at h
    obtain ⟨rfl, ht⟩ := ihf first' _ _ h (stops_boths rest hs) (stops_boths rest' hs')
    obtain ⟨rfl, rfl⟩ := ihr rest' _ _ ht hs hs'
    exact ⟨rfl, rfl⟩

theorem exact_noBoth : Exact (.noBoth : Derivation δ .boths) := by
  intro d' text text' h hs hs'
  cases d' with
  | noBoth => exact ⟨rfl, h⟩
  | andAlso right rest =>
    rw [words, List.nil_append] at h
    subst h
    exact absurd (by decide) hs.head

theorem exact_andAlso {right : Derivation δ .comparison} {rest : Derivation δ .boths}
    (ihf : Exact right) (ihr : Exact rest) : Exact (.andAlso right rest) := by
  intro d' text text' h hs hs'
  cases d' with
  | noBoth =>
    subst h
    exact absurd (by decide) hs'.head
  | andAlso right' rest' =>
    simp only [words, List.cons_append, List.append_assoc, List.cons.injEq, true_and] at h
    obtain ⟨rfl, ht⟩ := ihf right' _ _ h (stops_boths rest hs) (stops_boths rest' hs')
    obtain ⟨rfl, rfl⟩ := ihr rest' _ _ ht hs hs'
    exact ⟨rfl, rfl⟩

theorem exact_bare {side : Derivation δ .side} (ih : Exact side) : Exact (.bare side) := by
  intro d' text text' h hs hs'
  cases d' with
  | bare side' =>
    obtain ⟨rfl, rfl⟩ := ih side' _ _ h (hs.mono (by decide)) (hs'.mono (by decide))
    exact ⟨rfl, rfl⟩
  | compared left' relation' hr' right' =>
    simp only [words, List.append_assoc, List.cons_append] at h
    obtain ⟨-, rfl⟩ := ih left' _ _ h (hs.mono (by decide))
      (stops_cons (kind_of_comparison hr').2)
    exact absurd (kind_of_comparison hr').1 hs.head

theorem exact_compared {left : Derivation δ .side} {relation : Relation}
    (hr : relation.isLogical = false) {right : Derivation δ .side} (ihl : Exact left)
    (ihr : Exact right) : Exact (.compared left relation hr right) := by
  intro d' text text' h hs hs'
  cases d' with
  | bare side' =>
    simp only [words, List.append_assoc, List.cons_append] at h
    obtain ⟨-, rfl⟩ := ihl side' _ _ h (stops_cons (kind_of_comparison hr).2)
      (hs'.mono (by decide))
    exact absurd (kind_of_comparison hr).1 hs'.head
  | compared left' relation' hr' right' =>
    simp only [words, List.append_assoc, List.cons_append] at h
    obtain ⟨rfl, ht⟩ := ihl left' _ _ h (stops_cons (kind_of_comparison hr).2)
      (stops_cons (kind_of_comparison hr').2)
    simp only [List.cons.injEq, sign_inj] at ht
    obtain ⟨hk, ht⟩ := ht
    obtain rfl := Relation.kind_injective hk
    obtain ⟨rfl, rfl⟩ := ihr right' _ _ ht (hs.mono (by decide)) (hs'.mono (by decide))
    exact ⟨rfl, rfl⟩

theorem exact_factorSide (hd : δ = .formula) {f : Derivation δ .factor} (ih : Exact f) :
    Exact (.factorSide hd f) := by
  intro d' text text' h hs hs'
  cases d' with
  | factorSide hd' f' =>
    obtain ⟨rfl, rfl⟩ := ih f' _ _ h (hs.mono (by decide)) (hs'.mono (by decide))
    exact ⟨rfl, rfl⟩
  | expressionSide hd' _ => cases hd.symm.trans hd'

theorem exact_expressionSide (hd : δ = .canonical) {f : Derivation δ .expression} (ih : Exact f) :
    Exact (.expressionSide hd f) := by
  intro d' text text' h hs hs'
  cases d' with
  | factorSide hd' _ => cases hd.symm.trans hd'
  | expressionSide hd' f' =>
    obtain ⟨rfl, rfl⟩ := ih f' _ _ h (hs.mono (by decide)) (hs'.mono (by decide))
    exact ⟨rfl, rfl⟩

/-! ### All derivations -/

/-- Two derivations that start one text, neither of which could go on, are the same. -/
theorem exact_derivation {X : Symbol} (d : Derivation δ X) : Exact d := by
  induction d with
  | expression first rest ihf ihr => exact exact_expression ihf ihr
  | noSum => exact exact_noSum
  | sum op hop right rest ihf ihr => exact exact_sum hop ihf ihr
  | term first rest ihf ihr => exact exact_term ihf ihr
  | noProduct => exact exact_noProduct
  | product op hop right rest ihf ihr => exact exact_product hop ihf ihr
  | leaf w f hf => exact exact_leaf hf
  | negative w f hf => exact exact_negative hf
  | circumstance s v hv => exact exact_circumstance hv
  | circumstanceCall s v hv => exact exact_circumstanceCall hv
  | call s function hf args ih => exact exact_call hf ih
  | custom => exact exact_custom
  | customCall bounds ih => exact exact_customCall ih
  | group inner ih => exact exact_group ih
  | branching d ih => exact exact_branching ih
  | noArguments => exact exact_noArguments
  | someArguments list ih => exact exact_someArguments ih
  | lastArgument a ih => exact exact_lastArgument ih
  | moreArguments a list iha ihl => exact exact_moreArguments iha ihl
  | conditional c t e ihc iht ihe => exact exact_conditional ihc iht ihe
  | noElse => exact exact_noElse
  | elseIf d ih => exact exact_elseIf ih
  | elseBranch e ih => exact exact_elseBranch ih
  | either first rest ihf ihr => exact exact_either ihf ihr
  | noEither => exact exact_noEither
  | orElse right rest ihf ihr => exact exact_orElse ihf ihr
  | both first rest ihf ihr => exact exact_both ihf ihr
  | noBoth => exact exact_noBoth
  | andAlso right rest ihf ihr => exact exact_andAlso ihf ihr
  | bare side ih => exact exact_bare ih
  | compared left relation hr right ihl ihr => exact exact_compared hr ihl ihr
  | factorSide hd f ih => exact exact_factorSide hd ih
  | expressionSide hd f ih => exact exact_expressionSide hd ih

/-- A list of words has at most one derivation from a symbol. -/
theorem words_injective (X : Symbol) :
    Function.Injective (words : Derivation δ X → List Word) := by
  intro d d' h
  exact (exact_derivation d d' [] [] (by rw [h]) (stops_nil X) (stops_nil X)).1

end Derivation

end Sundial.Grammar
