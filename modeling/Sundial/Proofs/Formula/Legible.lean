import Sundial.Proofs.Formula.Lexical
import Sundial.Proofs.Grammar.Recognition

/-!
# Formulas that a text can write

A formula that was read from a text has durations, numbers and keys that the lexer takes, and
conditions only where the grammar has them: `Legible level f` says so of a formula that stands where
the grammar has an expression, a comparison, a chain of `&&` or a chain of `||`.
-/

set_option autoImplicit false

namespace Sundial

/-- What a formula stands for in the grammar. -/
inductive Level where
  | expression
  | comparison
  | both
  | either

/-- The text of a duration is a literal of the lexer, with or without a sign, that reads as its
minutes. -/
def IsDurationText (minutes : Float) (text : String) : Prop :=
  Duration.read? text = some minutes ∧
    ∃ literal : String, DurationLiteral literal.toList ∧ (text = literal ∨ text = "-" ++ literal)

inductive Legible : Level → Formula → Prop where
  | primitive (pos : Position) (event : Primitive) : Legible .expression (.primitive pos event)
  | call (pos : Position) (function : BuiltIn) (args : List Formula)
      (h : ∀ a ∈ args, Legible .expression a) : Legible .expression (.call pos function args)
  | binary (pos : Position) (op : Operator) (left right : Formula)
      (hl : Legible .expression left) (hr : Legible .expression right) :
      Legible .expression (.binary pos op left right)
  | duration (pos : Position) (minutes : Float) (text : String) (h : IsDurationText minutes text) :
      Legible .expression (.duration pos minutes text)
  | number (pos : Position) (value : Float) (h : Binary64.ofFloat value ≠ .nan) :
      Legible .expression (.number pos value)
  | string (pos : Position) (value : String) : Legible .expression (.string pos value)
  | reference (pos : Position) (key : String) (h : IsWord key.toList) :
      Legible .expression (.reference pos key)
  | direction (pos : Position) (d : Direction) : Legible .expression (.direction pos d)
  | span (pos : Position) (b : DaySpan) : Legible .expression (.span pos b)
  | customSpan (pos : Position) (bounds : List Formula)
      (h : ∀ a ∈ bounds, Legible .expression a) : Legible .expression (.customSpan pos bounds)
  | ifThen (pos : Position) (c t : Formula) (hc : Legible .either c) (ht : Legible .expression t) :
      Legible .expression (.ifThen pos c t)
  | ifElse (pos : Position) (c t e : Formula) (hc : Legible .either c)
      (ht : Legible .expression t) (he : Legible .expression e) :
      Legible .expression (.ifElse pos c t e)
  | circumstance (pos : Position) (v : Circumstance) :
      Legible .expression (.circumstance pos v)
  | bare (f : Formula) (h : Legible .expression f) : Legible .comparison f
  | compared (pos : Position) (relation : Relation) (left right : Formula)
      (h : relation.isLogical = false) (hl : Legible .expression left)
      (hr : Legible .expression right) : Legible .comparison (.condition pos relation left right)
  | oneBoth (f : Formula) (h : Legible .comparison f) : Legible .both f
  | both (pos : Position) (left right : Formula) (hl : Legible .both left)
      (hr : Legible .comparison right) : Legible .both (.condition pos .both left right)
  | oneEither (f : Formula) (h : Legible .both f) : Legible .either f
  | either (pos : Position) (left right : Formula) (hl : Legible .either left)
      (hr : Legible .both right) : Legible .either (.condition pos .either left right)

/-! ## What derivations of lexical words stand for -/

open Grammar

theorem ofFloat_ne_nan {bits : Nat} (h : bits ≤ Binary64.infinityBits) (negative : Bool) :
    Binary64.ofFloat (Binary64.signed negative bits) ≠ .nan := by
  rw [ofFloat_signed h]
  rcases Nat.lt_or_eq_of_le h with hlt | rfl
  · rw [Binary64.ofBits_finite hlt]
    split <;> simp
  · rw [Binary64.ofBits_infinite]
    simp

/-- A number in digits has no sign, and is a number. -/
theorem read?_of_isLexical {s : String} {x : Float} (h : PlainNumber s.toList)
    (hx : Number.read? s = some x) :
    ∃ bits, bits ≤ Binary64.infinityBits ∧ x = Binary64.signed false bits := by
  obtain ⟨d, hd⟩ := Number.exists_readDecimal? h
  rw [Number.read?_plain h hd] at hx
  exact ⟨d.bits, d.bits_le, (Option.some.inj hx).symm⟩

/-- What the meaning of a symbol has to be for the formulas in it to be legible. -/
def LegibleMeaning : (X : Symbol) → X.Meaning → Prop
  | .expression, f | .term, f | .factor, f | .conditional, f | .side, f => Legible .expression f
  | .sums, g | .products, g => ∀ left, Legible .expression left → Legible .expression (g left)
  | .arguments, as | .argumentList, as => ∀ a ∈ as, Legible .expression a
  | .otherwise, g => ∀ c t, Legible .either c → Legible .expression t → Legible .expression (g c t)
  | .either, f => Legible .either f
  | .eithers, g => ∀ left, Legible .either left → Legible .either (g left)
  | .both, f => Legible .both f
  | .boths, g => ∀ left, Legible .both left → Legible .both (g left)
  | .comparison, f => Legible .comparison f

theorem legible_leaf {w : Word} {f : Formula} (h : leaf? .formula w = some f) (hw : w.IsLexical) :
    Legible .expression f := by
  obtain ⟨k, l⟩ := w
  cases k <;> simp only [leaf?, Option.map_eq_some_iff, Option.some.injEq, reduceCtorEq] at h
  case number =>
    obtain ⟨x, hx, rfl⟩ := h
    obtain ⟨bits, hle, rfl⟩ := read?_of_isLexical hw hx
    exact .number _ _ (ofFloat_ne_nan hle false)
  case duration =>
    obtain ⟨x, hx, rfl⟩ := h
    exact .duration _ _ _ ⟨hx, l, hw, .inl rfl⟩
  case string =>
    subst h
    exact .string _ _
  case primitive =>
    obtain ⟨p, hx, rfl⟩ := h
    exact .primitive _ _
  case reference =>
    subst h
    exact .reference _ _ hw
  case direction =>
    obtain ⟨p, hx, rfl⟩ := h
    exact .direction _ _
  case base =>
    obtain ⟨b, hx, rfl⟩ := h
    exact .span _ _
  case word => simp at h

theorem legible_negative {w : Word} {f : Formula} (h : negative? .formula w = some f)
    (hw : w.IsLexical) : Legible .expression f := by
  obtain ⟨k, l⟩ := w
  cases k <;> simp only [negative?, Option.map_eq_some_iff, reduceCtorEq] at h
  case number =>
    obtain ⟨x, hx, rfl⟩ := h
    obtain ⟨bits, hle, rfl⟩ := read?_of_isLexical hw hx
    rw [Binary64.neg_signed hle]
    exact .number _ _ (ofFloat_ne_nan hle _)
  case duration =>
    obtain ⟨x, hx, rfl⟩ := h
    exact .duration _ _ _ ⟨hx, l, hw, .inr rfl⟩
  case word => simp at h

/-- A derivation of lexical words stands for a legible formula. -/
theorem legible_of_derivation {X : Symbol} (d : Derivation .formula X)
    (hw : ∀ w ∈ d.words, w.IsLexical) : LegibleMeaning X d.formula := by
  induction d with
  | expression first rest ihf ihr | term first rest ihf ihr =>
    simp only [Derivation.words, List.forall_mem_append] at hw
    exact ihr hw.2 _ (ihf hw.1)
  | noSum | noProduct | noEither | noBoth => exact fun _ h => h
  | sum op _ right rest ihr ihs | product op _ right rest ihr ihs =>
    simp only [Derivation.words, List.forall_mem_cons, List.forall_mem_append] at hw
    intro left hl
    exact ihs hw.2.2 _ (.binary _ _ _ _ hl (ihr hw.2.1))
  | leaf w f hf => exact legible_leaf hf (hw w (List.mem_singleton.2 rfl))
  | negative w f hf => exact legible_negative hf (hw w (by simp [Derivation.words]))
  | circumstance | circumstanceCall => exact .circumstance _ _
  | call s function hf args ih =>
    simp only [Derivation.words, List.forall_mem_cons] at hw
    exact .call _ _ _ (ih hw.2.2)
  | custom => exact .customSpan _ _ fun _ h => absurd h List.not_mem_nil
  | customCall bounds ih =>
    simp only [Derivation.words, List.forall_mem_cons] at hw
    exact .customSpan _ _ (ih hw.2.2)
  | group inner ih =>
    simp only [Derivation.words, List.forall_mem_cons, List.forall_mem_append] at hw
    exact ih hw.2.1
  | branching d ih => exact ih hw
  | noArguments => exact fun _ h => absurd h List.not_mem_nil
  | someArguments list ih => exact ih hw
  | lastArgument a ih =>
    simp only [Derivation.words, List.forall_mem_append] at hw
    exact List.forall_mem_singleton.2 (ih hw.1)
  | moreArguments a list iha ihl =>
    simp only [Derivation.words, List.forall_mem_cons, List.forall_mem_append] at hw
    exact List.forall_mem_cons.2 ⟨iha hw.1, ihl hw.2.2⟩
  | conditional c t e ihc iht ihe =>
    simp only [Derivation.words, List.forall_mem_cons, List.forall_mem_append] at hw
    exact ihe hw.2.2.2.2.2.2.2 _ _ (ihc hw.2.2.1) (iht hw.2.2.2.2.2.1)
  | noElse => exact fun _ _ hc ht => .ifThen _ _ _ hc ht
  | elseIf d ih =>
    simp only [Derivation.words, List.forall_mem_cons] at hw
    exact fun _ _ hc ht => .ifElse _ _ _ _ hc ht (ih hw.2)
  | elseBranch e ih =>
    simp only [Derivation.words, List.forall_mem_cons, List.forall_mem_append] at hw
    exact fun _ _ hc ht => .ifElse _ _ _ _ hc ht (ih hw.2.2.1)
  | either first rest ihf ihr =>
    simp only [Derivation.words, List.forall_mem_append] at hw
    exact ihr hw.2 _ (.oneEither _ (ihf hw.1))
  | orElse right rest ihr ihs =>
    simp only [Derivation.words, List.forall_mem_cons, List.forall_mem_append] at hw
    intro left hl
    exact ihs hw.2.2 _ (.either _ _ _ hl (ihr hw.2.1))
  | both first rest ihf ihr =>
    simp only [Derivation.words, List.forall_mem_append] at hw
    exact ihr hw.2 _ (.oneBoth _ (ihf hw.1))
  | andAlso right rest ihr ihs =>
    simp only [Derivation.words, List.forall_mem_cons, List.forall_mem_append] at hw
    intro left hl
    exact ihs hw.2.2 _ (.both _ _ _ hl (ihr hw.2.1))
  | bare side ih => exact .bare _ (ih hw)
  | compared left relation hr right ihl ihr =>
    simp only [Derivation.words, List.forall_mem_cons, List.forall_mem_append] at hw
    exact .compared _ _ _ _ hr (ihl hw.1) (ihr hw.2.2)
  | factorSide _ f ih => exact ih hw
  | expressionSide h _ _ => cases h

end Sundial
