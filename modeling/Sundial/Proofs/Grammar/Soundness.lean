import Sundial.Proofs.Grammar.Completeness

/-!
# What is read is a sentence

A clean run of a reader has a derivation behind it: the words it passed are those of the
derivation, and the value is its formula. Every reader keeps the faults, so that a clean run takes
apart into clean runs; `KeepsAt` and `SoundAt` collect what holds of all of them at one bound on the
depth, and the induction is on that bound.
-/

set_option autoImplicit false

namespace Sundial

open Word Grammar

namespace TokenReader

/-! ## Faults are kept -/

theorem keeps_exhausted {α : Type} : Keeps (exhausted : TokenReader α) :=
  keeps_peek.bind fun _ => keeps_fail _ _

theorem keeps_negative : Keeps negative := by
  refine keeps_peek.bind fun minus => keeps_advance.bind fun _ => keeps_peek.bind fun t => ?_
  split
  · exact keeps_advance.bind fun _ => (keeps_readNumber t).bind fun _ => keeps_pure _
  · exact keeps_advance.bind fun _ => (keeps_readDuration t _).bind fun _ => keeps_pure _
  · exact keeps_fail _ _

/-- A circumstance passes an empty pair of parentheses behind it. -/
theorem keeps_closing (t : Token) (k : TokenKind) (pos : Position) (v : Circumstance) :
    Keeps (do
      if t.kind = .leftParen ∧ k = .rightParen then
        advance
        advance
      return Formula.circumstance pos v : TokenReader Formula) := by
  change Keeps (ite _ _ _)
  split
  · exact keeps_advance.bind fun _ => keeps_advance.bind fun _ => keeps_pure _
  · exact keeps_pure _

theorem keeps_separator {opened : Position} {owner : String} {more : TokenReader (List Formula)}
    (h : Keeps more) (a : Option Formula) (t : Token) :
    Keeps (match t.kind with
      | .comma => do
        advance
        return a.toList ++ (← more)
      | .rightParen => do
        advance
        return a.toList
      | .finish => fail (.unclosedArguments owner) opened
      | _ => fail (.badSeparator owner t) t.pos : TokenReader (List Formula)) := by
  split
  · exact keeps_advance.bind fun _ => h.bind fun _ => keeps_pure _
  · exact keeps_advance.bind fun _ => keeps_pure _
  · exact keeps_fail _ _
  · exact keeps_fail _ _

theorem keeps_compared {factor : TokenReader Formula} (h : Keeps factor) (left : Formula)
    (t : Token) :
    Keeps (match comparison? t.kind with
      | none => return left
      | some relation => do
        advance
        let right ← factor
        return .related relation left right : TokenReader Formula) := by
  split
  · exact keeps_pure _
  · exact keeps_advance.bind fun _ => h.bind fun _ => keeps_pure _

structure KeepsAt (n : Nat) : Prop where
  expression : Keeps (expression n)
  sums : ∀ left, Keeps (sums n left)
  term : Keeps (term n)
  products : ∀ left, Keeps (products n left)
  factor : Keeps (factor n)
  call : ∀ t, Keeps (call n t)
  base : ∀ t, Keeps (base n t)
  arguments : ∀ opened owner, Keeps (arguments n opened owner)
  argumentList : ∀ opened owner, Keeps (argumentList n opened owner)
  conditional : ∀ t, Keeps (conditional n t)
  elsePart : ∀ t c b, Keeps (elsePart n t c b)
  either : Keeps (eitherCondition n)
  eithers : ∀ left, Keeps (eithers n left)
  both : Keeps (bothCondition n)
  boths : ∀ left, Keeps (boths n left)
  comparison : Keeps (comparison n)

section KeepsAt

variable {n : Nat}

theorem keeps_elsePart (hc : ∀ t, Keeps (conditional n t)) (he : Keeps (expression n)) (t : Token)
    (c b : Formula) : Keeps (elsePart n t c b) := by
  refine keeps_peek.bind fun u => ?_
  split
  · refine keeps_advance.bind fun _ => keeps_peek.bind fun next => ?_
    split
    · exact keeps_advance.bind fun _ => (hc next).bind fun _ => keeps_pure _
    · exact (keeps_expect _).bind fun _ => he.bind fun _ => (keeps_expect _).bind fun _ =>
        keeps_pure _
  · exact keeps_pure _

theorem keepsAt_zero : KeepsAt 0 where
  expression := keeps_exhausted
  sums _ := keeps_exhausted
  term := keeps_exhausted
  products _ := keeps_exhausted
  factor := keeps_exhausted
  call _ := keeps_exhausted
  base _ := keeps_exhausted
  arguments _ _ := keeps_exhausted
  argumentList _ _ := keeps_exhausted
  conditional _ := keeps_exhausted
  elsePart := keeps_elsePart (fun _ => keeps_exhausted) keeps_exhausted
  either := keeps_exhausted
  eithers _ := keeps_exhausted
  both := keeps_exhausted
  boths _ := keeps_exhausted
  comparison := keeps_exhausted

theorem KeepsAt.succ_factor (h : KeepsAt n) : Keeps (TokenReader.factor (n + 1)) := by
  refine keeps_peek.bind fun t => ?_
  split
  case h_1 => exact keeps_advance.bind fun _ => (keeps_readNumber t).bind fun _ => keeps_pure _
  case h_2 => exact keeps_advance.bind fun _ => (keeps_readDuration t _).bind fun _ => keeps_pure _
  case h_3 | h_7 => exact keeps_advance.bind fun _ => keeps_pure _
  case h_4 => exact keeps_negative
  case h_5 | h_8 => exact keeps_advance.bind fun _ => (keeps_lookUp _ t).bind fun _ => keeps_pure _
  case h_6 => exact keeps_advance.bind fun _ => h.call t
  case h_9 => exact keeps_advance.bind fun _ => h.base t
  case h_10 =>
    exact keeps_advance.bind fun _ => (keeps_lookUp _ t).bind fun v => keeps_peek.bind fun u =>
      keeps_peekSecond.bind fun k => keeps_closing u k _ v
  case h_11 => exact keeps_advance.bind fun _ => h.conditional t
  case h_12 =>
    exact keeps_advance.bind fun _ => h.expression.bind fun _ => (keeps_expect _).bind fun _ =>
      keeps_pure _
  case h_13 | h_14 | h_15 => exact keeps_fail _ _

theorem KeepsAt.succ_base (h : KeepsAt n) (t : Token) : Keeps (TokenReader.base (n + 1) t) := by
  rw [TokenReader.base]
  split
  · refine keeps_peek.bind fun opening => ?_
    split
    · exact keeps_advance.bind fun _ => (h.arguments _ _).bind fun _ => keeps_pure _
    · exact keeps_pure _
  · exact (keeps_lookUp _ t).bind fun _ => keeps_pure _

theorem KeepsAt.succ_argumentList (h : KeepsAt n) (opened : Position) (owner : String) :
    Keeps (TokenReader.argumentList (n + 1) opened owner) := by
  refine h.expression.recover.bind fun a => keeps_peek.bind fun t => ?_
  split
  · exact keeps_advance.bind fun _ => (h.argumentList _ _).bind fun _ => keeps_pure _
  · exact keeps_advance.bind fun _ => keeps_pure _
  · exact keeps_fail _ _
  · exact keeps_fail _ _

theorem KeepsAt.succ_conditional (h : KeepsAt n) (t : Token) :
    Keeps (TokenReader.conditional (n + 1) t) := by
  rw [conditional_succ]
  exact (keeps_expect _).bind fun _ => h.either.bind fun c => (keeps_expect _).bind fun _ =>
    (keeps_expect _).bind fun _ => h.expression.bind fun b => (keeps_expect _).bind fun _ =>
    h.elsePart t c b

theorem KeepsAt.succ_comparison (h : KeepsAt n) : Keeps (TokenReader.comparison (n + 1)) := by
  refine h.factor.bind fun left => keeps_peek.bind fun t => ?_
  split
  · exact keeps_pure _
  · exact keeps_advance.bind fun _ => h.factor.bind fun _ => keeps_pure _

/-- A chain passes nothing, or an operator, what is on its right and the rest of the chain. -/
theorem KeepsAt.succ (h : KeepsAt n) : KeepsAt (n + 1) where
  expression := h.term.bind h.sums
  sums left := by
    refine keeps_peek.bind fun t => ?_
    split
    · exact keeps_pure _
    · exact keeps_advance.bind fun _ => h.term.bind fun _ => h.sums _
  term := h.factor.bind h.products
  products left := by
    refine keeps_peek.bind fun t => ?_
    split
    · exact keeps_pure _
    · exact keeps_advance.bind fun _ => h.factor.bind fun _ => h.products _
  factor := h.succ_factor
  call t := (keeps_lookUp _ t).bind fun _ => (keeps_expect _).bind fun _ =>
    (h.arguments _ _).bind fun _ => keeps_pure _
  base := h.succ_base
  arguments opened owner := by
    refine keeps_peek.bind fun t => ?_
    split
    · exact keeps_advance.bind fun _ => keeps_pure _
    · exact h.argumentList opened owner
  argumentList := h.succ_argumentList
  conditional := h.succ_conditional
  elsePart := keeps_elsePart h.succ_conditional (h.term.bind h.sums)
  either := h.both.bind h.eithers
  eithers left := by
    refine keeps_peek.bind fun t => ?_
    split
    · exact keeps_advance.bind fun _ => h.both.bind fun _ => h.eithers _
    · exact keeps_pure _
  both := h.comparison.bind h.boths
  boths left := by
    refine keeps_peek.bind fun t => ?_
    split
    · exact keeps_advance.bind fun _ => h.comparison.bind fun _ => h.boths _
    · exact keeps_pure _
  comparison := h.succ_comparison

theorem keepsAt (n : Nat) : KeepsAt n := by
  induction n with
  | zero => exact keepsAt_zero
  | succ n ih => exact ih.succ

end KeepsAt

/-! ## Derivations behind clean runs -/

/-- Between `s` and `s'` stand the words of a derivation whose meaning has the property. -/
def Derives (X : Symbol) (s s' : Reading) (P : X.Meaning → Prop) : Prop :=
  ∃ d : Derivation .formula X, s.words = d.words ++ s'.words ∧ P d.formula

section Words

variable {s s' : Reading} {k : TokenKind}

theorem words_of_sign (h : s.next.kind = k) (hk : k.hasContent = false) (hf : k ≠ .finish) :
    s.words = sign k :: s.passed.words := by
  rw [Reading.words_of_next (h ▸ hf), Token.toWord_of_sign (h ▸ hk), h]

theorem words_of_content (h : s.next.kind = k) (hk : k.hasContent = true) :
    s.words = ⟨k, s.next.literal⟩ :: s.passed.words := by
  have hf : s.next.kind ≠ .finish := by
    intro he
    rw [← h, he] at hk
    exact absurd hk (by decide)
  rw [Reading.words_of_next hf, Token.toWord_of_content (h ▸ hk), h]

theorem Clean.expect_words {what : Expectation} {t : Token}
    (h : Clean (TokenReader.expect what) s t s') :
    s.words = sign what.kind :: s'.words := by
  obtain ⟨rfl, hk⟩ := h.expect
  exact words_of_sign hk (by cases what <;> rfl) (by cases what <;> simp [Expectation.kind])

end Words

/-- What a clean run of each reader has behind it. -/
structure SoundAt (n : Nat) : Prop where
  expression : ∀ {s f s'}, Clean (expression n) s f s' →
    Derives .expression s s' fun g => g = f.unplaced
  sums : ∀ {left s f s'}, Clean (sums n left) s f s' →
    Derives .sums s s' fun g => g left.unplaced = f.unplaced
  term : ∀ {s f s'}, Clean (term n) s f s' → Derives .term s s' fun g => g = f.unplaced
  products : ∀ {left s f s'}, Clean (products n left) s f s' →
    Derives .products s s' fun g => g left.unplaced = f.unplaced
  factor : ∀ {s f s'}, Clean (factor n) s f s' → Derives .factor s s' fun g => g = f.unplaced
  arguments : ∀ {opened owner s as s'}, Clean (arguments n opened owner) s as s' →
    Derives .arguments s s' fun gs => gs = as.map Formula.unplaced
  argumentList : ∀ {opened owner s as s'}, Clean (argumentList n opened owner) s as s' →
    Derives .argumentList s s' fun gs => gs = as.map Formula.unplaced
  call : ∀ {t s f s'}, Clean (call n t) s f s' → ∃ function,
    BuiltIn.ofName? t.literal = some function ∧ ∃ d : Derivation .formula .arguments,
    s.words = sign .leftParen :: (d.words ++ s'.words) ∧
    .call .start function d.formula = f.unplaced
  base : ∀ {t s f s'}, Clean (base n t) s f s' →
    ∃ d : Derivation .formula .factor,
    ⟨.base, t.literal⟩ :: s.words = d.words ++ s'.words ∧ d.formula = f.unplaced
  conditional : ∀ {t s f s'}, Clean (conditional n t) s f s' →
    ∃ d : Derivation .formula .conditional,
    sign .ifWord :: s.words = d.words ++ s'.words ∧ d.formula = f.unplaced
  elsePart : ∀ {t c b s f s'}, Clean (elsePart n t c b) s f s' →
    Derives .otherwise s s' fun g => g c.unplaced b.unplaced = f.unplaced
  either : ∀ {s f s'}, Clean (eitherCondition n) s f s' →
    Derives .either s s' fun g => g = f.unplaced
  eithers : ∀ {left s f s'}, Clean (eithers n left) s f s' →
    Derives .eithers s s' fun g => g left.unplaced = f.unplaced
  both : ∀ {s f s'}, Clean (bothCondition n) s f s' → Derives .both s s' fun g => g = f.unplaced
  boths : ∀ {left s f s'}, Clean (boths n left) s f s' →
    Derives .boths s s' fun g => g left.unplaced = f.unplaced
  comparison : ∀ {s f s'}, Clean (comparison n) s f s' →
    Derives .comparison s s' fun g => g = f.unplaced

theorem not_clean_exhausted {α : Type} {s s' : Reading} {a : α} :
    ¬Clean (exhausted : TokenReader α) s a s' := by
  rw [exhausted, clean_peek_bind]
  exact not_clean_fail

section Sound

variable {n : Nat} {s s' : Reading} {f : Formula}

theorem sound_negative (h : Clean negative s f s') (hm : s.next.kind = .minus) :
    Derives .factor s s' fun g => g = f.unplaced := by
  have hs := words_of_sign hm rfl (by decide)
  rw [negative, clean_peek_bind, clean_advance_bind, clean_peek_bind] at h
  split at h
  next hk =>
    obtain ⟨x, m, hx, h⟩ := (clean_advance_bind.1 h).bind (keeps_readNumber _) fun _ => keeps_pure _
    obtain ⟨rfl, hr⟩ := hx.readNumber
    obtain ⟨rfl, rfl⟩ := clean_pure.1 h
    refine ⟨.negative ⟨.number, s.passed.next.literal⟩ (.number .start (-x)) ?_, ?_, ?_⟩
    · rw [negative?, hr]
      rfl
    · rw [hs, words_of_content hk rfl]
      rfl
    · rfl
  next hk =>
    obtain ⟨x, m, hx, h⟩ :=
      (clean_advance_bind.1 h).bind (keeps_readDuration _ _) fun _ => keeps_pure _
    obtain ⟨rfl, hr⟩ := hx.readDuration
    obtain ⟨rfl, rfl⟩ := clean_pure.1 h
    refine ⟨.negative ⟨.duration, s.passed.next.literal⟩
      (.duration .start x ("-" ++ s.passed.next.literal)) ?_, ?_, ?_⟩
    · rw [negative?, hr]
      rfl
    · rw [hs, words_of_content hk rfl]
      rfl
    · rfl
  next => exact absurd h not_clean_fail

/-- A token that stands for itself. -/
theorem derives_leaf {k : TokenKind} {g : Formula} (hk : s.next.kind = k)
    (hc : k.hasContent = true) (hg : leaf? .formula ⟨k, s.next.literal⟩ = some g)
    (hf : g = f.unplaced) : Derives .factor s s.passed fun g => g = f.unplaced :=
  ⟨.leaf _ g hg, words_of_content hk hc, hf⟩

/-- A token that is read as a whole. -/
theorem sound_leaf {α : Type} {m : TokenReader α} {make : α → Formula} {k : TokenKind}
    (hc : Clean (advance >>= fun _ => m >>= fun x => pure (make x)) s f s') (hm : Keeps m)
    (hk : s.next.kind = k) (hcontent : k.hasContent = true)
    (hread : ∀ x s₁ s₂, Clean m s₁ x s₂ →
      s₂ = s₁ ∧ leaf? .formula ⟨k, s.next.literal⟩ = some (make x).unplaced) :
    Derives .factor s s' fun g => g = f.unplaced := by
  obtain ⟨x, s₁, hx, hc⟩ := (clean_advance_bind.1 hc).bind hm fun _ => keeps_pure _
  obtain ⟨rfl, hleaf⟩ := hread x _ _ hx
  obtain ⟨rfl, rfl⟩ := clean_pure.1 hc
  exact derives_leaf hk hcontent hleaf rfl

theorem sound_circumstance {v : Circumstance} {s₁ : Reading}
    (hk : s.next.kind = .circumstance) (hv : Circumstance.ofName? s.next.literal = some v)
    (hs : s₁ = s.passed ∨
      s.passed.next.kind = .leftParen ∧ s.passed.secondKind = .rightParen ∧
        s₁ = s.passed.passed.passed) :
    Derives .factor s s₁ fun g => g = .circumstance .start v := by
  have hw := words_of_content hk rfl
  rcases hs with rfl | ⟨hopen, hclose, rfl⟩
  · exact ⟨.circumstance _ v hv, hw, rfl⟩
  · refine ⟨.circumstanceCall _ v hv, ?_, rfl⟩
    have hclose : s.passed.passed.next.kind = .rightParen := by
      rw [Reading.next_kind_eq, ← Reading.secondKind_eq]
      exact hclose
    rw [hw, words_of_sign hopen rfl (by decide), words_of_sign hclose rfl (by decide)]
    rfl

theorem SoundAt.succ_factor (h : SoundAt n) (hc : Clean (TokenReader.factor (n + 1)) s f s') :
    Derives .factor s s' fun g => g = f.unplaced := by
  rw [TokenReader.factor, clean_peek_bind] at hc
  split at hc
  case h_1 hk =>
    refine sound_leaf hc (keeps_readNumber _) hk rfl fun x s₁ s₂ hx => ?_
    obtain ⟨rfl, hr⟩ := hx.readNumber
    exact ⟨rfl, by rw [leaf?, hr]; rfl⟩
  case h_2 hk =>
    refine sound_leaf hc (keeps_readDuration _ _) hk rfl fun x s₁ s₂ hx => ?_
    obtain ⟨rfl, hr⟩ := hx.readDuration
    exact ⟨rfl, by rw [leaf?, hr]; rfl⟩
  case h_3 hk =>
    rw [clean_advance_bind] at hc
    obtain ⟨rfl, rfl⟩ := clean_pure.1 hc
    exact derives_leaf hk rfl rfl rfl
  case h_4 hk => exact sound_negative hc hk
  case h_5 hk =>
    refine sound_leaf hc (keeps_lookUp _ _) hk rfl fun x s₁ s₂ hx => ?_
    obtain ⟨rfl, hr⟩ := hx.lookUp
    exact ⟨rfl, by rw [leaf?, hr]; rfl⟩
  case h_6 hk =>
    obtain ⟨function, hl, d, hw, hf⟩ := h.call (clean_advance_bind.1 hc)
    refine ⟨.call _ function hl d, ?_, hf⟩
    rw [words_of_content hk rfl, hw]
    rfl
  case h_7 hk =>
    rw [clean_advance_bind] at hc
    obtain ⟨rfl, rfl⟩ := clean_pure.1 hc
    exact derives_leaf hk rfl rfl rfl
  case h_8 hk =>
    refine sound_leaf hc (keeps_lookUp _ _) hk rfl fun x s₁ s₂ hx => ?_
    obtain ⟨rfl, hr⟩ := hx.lookUp
    exact ⟨rfl, by rw [leaf?, hr]; rfl⟩
  case h_9 hk =>
    obtain ⟨d, hw, hf⟩ := h.base (clean_advance_bind.1 hc)
    exact ⟨d, (words_of_content hk rfl).trans hw, hf⟩
  case h_10 hk =>
    obtain ⟨v, m, hv, hc⟩ := (clean_advance_bind.1 hc).bind (keeps_lookUp _ _) fun v =>
      keeps_peek.bind fun u => keeps_peekSecond.bind fun k => keeps_closing u k _ v
    obtain ⟨rfl, hr⟩ := hv.lookUp
    rw [clean_peek_bind, clean_peekSecond_bind] at hc
    change Clean (ite _ _ _) _ _ _ at hc
    split at hc
    next hp =>
      rw [clean_advance_bind, clean_advance_bind] at hc
      obtain ⟨rfl, rfl⟩ := clean_pure.1 hc
      exact sound_circumstance hk hr (.inr ⟨hp.1, hp.2, rfl⟩)
    next =>
      obtain ⟨rfl, rfl⟩ := clean_pure.1 hc
      exact sound_circumstance hk hr (.inl rfl)
  case h_11 hk =>
    obtain ⟨d, hw, hf⟩ := h.conditional (clean_advance_bind.1 hc)
    exact ⟨.branching d, (words_of_sign hk rfl (by decide)).trans hw, hf⟩
  case h_12 hk =>
    obtain ⟨g, m, hg, hc⟩ := (clean_advance_bind.1 hc).bind (keepsAt n).expression fun _ =>
      (keeps_expect _).bind fun _ => keeps_pure _
    obtain ⟨t, m', ht, hc⟩ := hc.bind (keeps_expect _) fun _ => keeps_pure _
    obtain ⟨rfl, rfl⟩ := clean_pure.1 hc
    obtain ⟨d, hw, hf⟩ := h.expression hg
    refine ⟨.group d, ?_, hf⟩
    rw [words_of_sign hk rfl (by decide), hw, ht.expect_words, Derivation.words]
    simp only [List.cons_append, List.append_assoc, List.nil_append]
    rfl
  case h_13 | h_14 | h_15 => exact absurd hc not_clean_fail

theorem SoundAt.succ_call (h : SoundAt n) {t : Token}
    (hc : Clean (TokenReader.call (n + 1) t) s f s') : ∃ function,
    BuiltIn.ofName? t.literal = some function ∧ ∃ d : Derivation .formula .arguments,
    s.words = sign .leftParen :: (d.words ++ s'.words) ∧
    .call .start function d.formula = f.unplaced := by
  obtain ⟨function, m, hl, hm⟩ := Clean.bind hc (keeps_lookUp _ t) fun _ =>
    (keeps_expect _).bind fun _ => ((keepsAt n).arguments _ _).bind fun _ => keeps_pure _
  obtain ⟨rfl, hr⟩ := hl.lookUp
  obtain ⟨opening, m', ho, hc⟩ := hm.bind (keeps_expect _) fun _ =>
    ((keepsAt n).arguments _ _).bind fun _ => keeps_pure _
  obtain ⟨as, m'', ha, hc⟩ := hc.bind ((keepsAt n).arguments _ _) fun _ => keeps_pure _
  obtain ⟨rfl, rfl⟩ := clean_pure.1 hc
  obtain ⟨d, hw, hf⟩ := h.arguments ha
  refine ⟨function, hr, d, ?_, ?_⟩
  · rw [ho.expect_words, hw]
    rfl
  · rw [hf, Formula.unplaced, Formula.unplacedAll_eq_map]

theorem SoundAt.succ_base (h : SoundAt n) {t : Token}
    (hc : Clean (TokenReader.base (n + 1) t) s f s') : ∃ d : Derivation .formula .factor,
    ⟨.base, t.literal⟩ :: s.words = d.words ++ s'.words ∧ d.formula = f.unplaced := by
  rw [TokenReader.base] at hc
  split at hc
  next hl =>
    rw [hl]
    rw [clean_peek_bind] at hc
    split at hc
    next hopen =>
      rw [clean_advance_bind] at hc
      obtain ⟨as, m, ha, hc⟩ := hc.bind ((keepsAt n).arguments _ _) fun _ => keeps_pure _
      obtain ⟨rfl, rfl⟩ := clean_pure.1 hc
      obtain ⟨d, hw, hf⟩ := h.arguments ha
      refine ⟨.customCall d, ?_, ?_⟩
      · rw [words_of_sign hopen rfl (by decide), hw]
        rfl
      · rw [Derivation.formula, hf, Formula.unplaced, Formula.unplacedAll_eq_map]
    next =>
      obtain ⟨rfl, rfl⟩ := clean_pure.1 hc
      exact ⟨.custom, rfl, rfl⟩
  next hl =>
    obtain ⟨b, m, hb, hm⟩ := hc.bind (keeps_lookUp _ t) fun _ => keeps_pure _
    obtain ⟨rfl, hr⟩ := hb.lookUp
    obtain ⟨rfl, rfl⟩ := clean_pure.1 hm
    exact ⟨.leaf ⟨.base, t.literal⟩ (.span .start b) (by rw [leaf?, hr]; rfl), rfl, rfl⟩

theorem SoundAt.succ_arguments (h : SoundAt n) {opened : Position} {owner : String}
    {as : List Formula} (hc : Clean (TokenReader.arguments (n + 1) opened owner) s as s') :
    Derives .arguments s s' fun gs => gs = as.map Formula.unplaced := by
  rw [TokenReader.arguments, clean_peek_bind] at hc
  split at hc
  next hclose =>
    rw [clean_advance_bind] at hc
    obtain ⟨rfl, rfl⟩ := clean_pure.1 hc
    exact ⟨.noArguments, words_of_sign hclose rfl (by decide), rfl⟩
  next =>
    obtain ⟨d, hw, hf⟩ := h.argumentList hc
    exact ⟨.someArguments d, hw, hf⟩

theorem SoundAt.succ_argumentList (h : SoundAt n) {opened : Position} {owner : String}
    {as : List Formula} (hc : Clean (TokenReader.argumentList (n + 1) opened owner) s as s') :
    Derives .argumentList s s' fun gs => gs = as.map Formula.unplaced := by
  rw [TokenReader.argumentList] at hc
  obtain ⟨a, m, ha, hc⟩ := hc.bind (keepsAt n).expression.recover fun a =>
    keeps_peek.bind fun t => keeps_separator ((keepsAt n).argumentList _ _) a t
  obtain ⟨g, rfl, hg⟩ := ha.recover (keepsAt n).expression
  obtain ⟨d, hw, hf⟩ := h.expression hg
  rw [clean_peek_bind] at hc
  split at hc
  next hk =>
    rw [clean_advance_bind] at hc
    obtain ⟨bs, m', hb, hc⟩ := hc.bind ((keepsAt n).argumentList _ _) fun _ => keeps_pure _
    obtain ⟨rfl, rfl⟩ := clean_pure.1 hc
    obtain ⟨ds, hws, hfs⟩ := h.argumentList hb
    refine ⟨.moreArguments d ds, ?_, ?_⟩
    · rw [hw, words_of_sign hk rfl (by decide), hws, Derivation.words]
      simp only [List.append_assoc, List.cons_append]
    · rw [Derivation.formula, hf, hfs]
      rfl
  next hk =>
    rw [clean_advance_bind] at hc
    obtain ⟨rfl, rfl⟩ := clean_pure.1 hc
    refine ⟨.lastArgument d, ?_, ?_⟩
    · rw [hw, words_of_sign hk rfl (by decide), Derivation.words]
      simp only [List.append_assoc, List.cons_append, List.nil_append]
    · rw [Derivation.formula, hf]
      rfl
  next => exact absurd hc not_clean_fail
  next => exact absurd hc not_clean_fail

theorem SoundAt.succ_conditional (h : SoundAt n) {t : Token}
    (hc : Clean (TokenReader.conditional (n + 1) t) s f s') :
    ∃ d : Derivation .formula .conditional,
    sign .ifWord :: s.words = d.words ++ s'.words ∧ d.formula = f.unplaced := by
  have kept := keepsAt n
  rw [conditional_succ] at hc
  obtain ⟨_, s₁, h₁, hc⟩ := hc.bind (keeps_expect _) fun _ => kept.either.bind fun c =>
    (keeps_expect _).bind fun _ => (keeps_expect _).bind fun _ => kept.expression.bind fun b =>
    (keeps_expect _).bind fun _ => kept.elsePart t c b
  obtain ⟨c, s₂, h₂, hc⟩ := hc.bind kept.either fun c => (keeps_expect _).bind fun _ =>
    (keeps_expect _).bind fun _ => kept.expression.bind fun b => (keeps_expect _).bind fun _ =>
    kept.elsePart t c b
  obtain ⟨_, s₃, h₃, hc⟩ := hc.bind (keeps_expect _) fun _ => (keeps_expect _).bind fun _ =>
    kept.expression.bind fun b => (keeps_expect _).bind fun _ => kept.elsePart t c b
  obtain ⟨_, s₄, h₄, hc⟩ := hc.bind (keeps_expect _) fun _ => kept.expression.bind fun b =>
    (keeps_expect _).bind fun _ => kept.elsePart t c b
  obtain ⟨b, s₅, h₅, hc⟩ := hc.bind kept.expression fun b => (keeps_expect _).bind fun _ =>
    kept.elsePart t c b
  obtain ⟨_, s₆, h₆, h₇⟩ := hc.bind (keeps_expect _) fun _ => kept.elsePart t c b
  obtain ⟨dc, hwc, hfc⟩ := h.either h₂
  obtain ⟨db, hwb, hfb⟩ := h.expression h₅
  obtain ⟨de, hwe, hfe⟩ := h.elsePart h₇
  refine ⟨.conditional dc db de, ?_, ?_⟩
  · rw [h₁.expect_words, hwc, h₃.expect_words, h₄.expect_words, hwb, h₆.expect_words, hwe,
      Derivation.words]
    simp only [List.append_assoc, List.cons_append]
    rfl
  · rw [Derivation.formula, hfc, hfb, hfe]

theorem sound_elsePart {t : Token} {c b : Formula}
    (hi : ∀ {t s f s'}, Clean (TokenReader.conditional n t) s f s' →
      ∃ d : Derivation .formula .conditional,
      sign .ifWord :: s.words = d.words ++ s'.words ∧ d.formula = f.unplaced)
    (he : ∀ {s f s'}, Clean (TokenReader.expression n) s f s' →
      Derives .expression s s' fun g => g = f.unplaced)
    (hc : Clean (TokenReader.elsePart n t c b) s f s') :
    Derives .otherwise s s' fun g => g c.unplaced b.unplaced = f.unplaced := by
  rw [TokenReader.elsePart, clean_peek_bind] at hc
  split at hc
  next hk =>
    rw [clean_advance_bind, clean_peek_bind] at hc
    split at hc
    next hif =>
      rw [clean_advance_bind] at hc
      obtain ⟨e, m, hm, hc⟩ := hc.bind ((keepsAt n).conditional _) fun _ => keeps_pure _
      obtain ⟨rfl, rfl⟩ := clean_pure.1 hc
      obtain ⟨d, hw, hf⟩ := hi hm
      refine ⟨.elseIf d, ?_, ?_⟩
      · rw [words_of_sign hk rfl (by decide), words_of_sign hif rfl (by decide), hw]
        rfl
      · rw [Derivation.formula, hf]
        rfl
    next =>
      obtain ⟨_, m₁, h₁, hc⟩ := hc.bind (keeps_expect _) fun _ =>
        (keepsAt n).expression.bind fun _ => (keeps_expect _).bind fun _ => keeps_pure _
      obtain ⟨e, m₂, h₂, hc⟩ := hc.bind (keepsAt n).expression fun _ =>
        (keeps_expect _).bind fun _ => keeps_pure _
      obtain ⟨_, m₃, h₃, hc⟩ := hc.bind (keeps_expect _) fun _ => keeps_pure _
      obtain ⟨rfl, rfl⟩ := clean_pure.1 hc
      obtain ⟨d, hw, hf⟩ := he h₂
      refine ⟨.elseBranch d, ?_, ?_⟩
      · rw [words_of_sign hk rfl (by decide), h₁.expect_words, hw, h₃.expect_words,
          Derivation.words]
        simp only [List.append_assoc, List.cons_append, List.nil_append]
        rfl
      · rw [Derivation.formula, hf]
        rfl
  next =>
    obtain ⟨rfl, rfl⟩ := clean_pure.1 hc
    exact ⟨.noElse, rfl, rfl⟩

theorem SoundAt.succ_comparison (h : SoundAt n)
    (hc : Clean (TokenReader.comparison (n + 1)) s f s') :
    Derives .comparison s s' fun g => g = f.unplaced := by
  have kept := keepsAt n
  rw [TokenReader.comparison] at hc
  obtain ⟨left, m, hl, hc⟩ := hc.bind kept.factor fun left => keeps_peek.bind fun t =>
    keeps_compared kept.factor left t
  obtain ⟨dl, hwl, hfl⟩ := h.factor hl
  rw [clean_peek_bind] at hc
  split at hc
  next =>
    obtain ⟨rfl, rfl⟩ := clean_pure.1 hc
    exact ⟨.bare (.factorSide rfl dl), hwl, hfl⟩
  next relation hr =>
    obtain ⟨hk, hlog⟩ := comparison?_eq_some.1 hr
    rw [clean_advance_bind] at hc
    obtain ⟨right, m', hm, hc⟩ := hc.bind kept.factor fun _ => keeps_pure _
    obtain ⟨rfl, rfl⟩ := clean_pure.1 hc
    obtain ⟨dr, hwr, hfr⟩ := h.factor hm
    refine ⟨.compared (.factorSide rfl dl) relation hlog (.factorSide rfl dr), ?_, ?_⟩
    · rw [hwl, words_of_sign hk (by cases relation <;> rfl) (by cases relation <;> decide), hwr]
      simp only [Derivation.words, List.append_assoc, List.cons_append]
    · rw [Derivation.formula, Derivation.formula, Derivation.formula, hfl, hfr]
      rfl

theorem SoundAt.succ_expression (h : SoundAt n)
    (hc : Clean (TokenReader.expression (n + 1)) s f s') :
    Derives .expression s s' fun g => g = f.unplaced := by
  obtain ⟨left, m, hl, hr⟩ := Clean.bind hc (keepsAt n).term (keepsAt n).sums
  obtain ⟨d, hw, hf⟩ := h.term hl
  obtain ⟨e, hv, hg⟩ := h.sums hr
  exact ⟨.expression d e, by rw [hw, hv, Derivation.words, List.append_assoc],
    by rw [Derivation.formula, hf, hg]⟩

theorem SoundAt.succ_sums (h : SoundAt n) {left : Formula}
    (hc : Clean (TokenReader.sums (n + 1) left) s f s') :
    Derives .sums s s' fun g => g left.unplaced = f.unplaced := by
  rw [TokenReader.sums, clean_peek_bind] at hc
  split at hc
  next =>
    obtain ⟨rfl, rfl⟩ := clean_pure.1 hc
    exact ⟨.noSum, rfl, rfl⟩
  next op ho =>
    obtain ⟨hk, hp⟩ := sumOperator?_eq_some.1 ho
    rw [clean_advance_bind] at hc
    obtain ⟨right, m, hr, hc⟩ := hc.bind (keepsAt n).term fun _ => (keepsAt n).sums _
    obtain ⟨d, hw, hf⟩ := h.term hr
    obtain ⟨e, hv, hg⟩ := h.sums hc
    refine ⟨.sum op hp d e, ?_, ?_⟩
    · rw [words_of_sign hk (by cases op <;> rfl) (by cases op <;> decide), hw, hv,
        Derivation.words, List.cons_append, List.append_assoc]
    · rw [Derivation.formula, hf]
      exact hg

theorem SoundAt.succ_products (h : SoundAt n) {left : Formula}
    (hc : Clean (TokenReader.products (n + 1) left) s f s') :
    Derives .products s s' fun g => g left.unplaced = f.unplaced := by
  rw [TokenReader.products, clean_peek_bind] at hc
  split at hc
  next =>
    obtain ⟨rfl, rfl⟩ := clean_pure.1 hc
    exact ⟨.noProduct, rfl, rfl⟩
  next op ho =>
    obtain ⟨hk, hp⟩ := productOperator?_eq_some.1 ho
    rw [clean_advance_bind] at hc
    obtain ⟨right, m, hr, hc⟩ := hc.bind (keepsAt n).factor fun _ => (keepsAt n).products _
    obtain ⟨d, hw, hf⟩ := h.factor hr
    obtain ⟨e, hv, hg⟩ := h.products hc
    refine ⟨.product op hp d e, ?_, ?_⟩
    · rw [words_of_sign hk (by cases op <;> rfl) (by cases op <;> decide), hw, hv,
        Derivation.words, List.cons_append, List.append_assoc]
    · rw [Derivation.formula, hf]
      exact hg

theorem SoundAt.succ_eithers (h : SoundAt n) {left : Formula}
    (hc : Clean (TokenReader.eithers (n + 1) left) s f s') :
    Derives .eithers s s' fun g => g left.unplaced = f.unplaced := by
  rw [TokenReader.eithers, clean_peek_bind] at hc
  split at hc
  next hk =>
    rw [clean_advance_bind] at hc
    obtain ⟨right, m, hr, hc⟩ := hc.bind (keepsAt n).both fun _ => (keepsAt n).eithers _
    obtain ⟨d, hw, hf⟩ := h.both hr
    obtain ⟨e, hv, hg⟩ := h.eithers hc
    refine ⟨.orElse d e, ?_, ?_⟩
    · rw [words_of_sign hk rfl (by decide), hw, hv, Derivation.words, List.cons_append,
        List.append_assoc]
    · rw [Derivation.formula, hf]
      exact hg
  next =>
    obtain ⟨rfl, rfl⟩ := clean_pure.1 hc
    exact ⟨.noEither, rfl, rfl⟩

theorem SoundAt.succ_boths (h : SoundAt n) {left : Formula}
    (hc : Clean (TokenReader.boths (n + 1) left) s f s') :
    Derives .boths s s' fun g => g left.unplaced = f.unplaced := by
  rw [TokenReader.boths, clean_peek_bind] at hc
  split at hc
  next hk =>
    rw [clean_advance_bind] at hc
    obtain ⟨right, m, hr, hc⟩ := hc.bind (keepsAt n).comparison fun _ => (keepsAt n).boths _
    obtain ⟨d, hw, hf⟩ := h.comparison hr
    obtain ⟨e, hv, hg⟩ := h.boths hc
    refine ⟨.andAlso d e, ?_, ?_⟩
    · rw [words_of_sign hk rfl (by decide), hw, hv, Derivation.words, List.cons_append,
        List.append_assoc]
    · rw [Derivation.formula, hf]
      exact hg
  next =>
    obtain ⟨rfl, rfl⟩ := clean_pure.1 hc
    exact ⟨.noBoth, rfl, rfl⟩

theorem SoundAt.succ (h : SoundAt n) : SoundAt (n + 1) where
  expression := h.succ_expression
  sums := h.succ_sums
  term hc := by
    obtain ⟨left, m, hl, hr⟩ := Clean.bind hc (keepsAt n).factor (keepsAt n).products
    obtain ⟨d, hw, hf⟩ := h.factor hl
    obtain ⟨e, hv, hg⟩ := h.products hr
    exact ⟨.term d e, by rw [hw, hv, Derivation.words, List.append_assoc],
      by rw [Derivation.formula, hf, hg]⟩
  products := h.succ_products
  factor := h.succ_factor
  arguments := h.succ_arguments
  argumentList := h.succ_argumentList
  call := h.succ_call
  base := h.succ_base
  conditional := h.succ_conditional
  elsePart := sound_elsePart h.succ_conditional h.succ_expression
  either hc := by
    obtain ⟨left, m, hl, hr⟩ := Clean.bind hc (keepsAt n).both (keepsAt n).eithers
    obtain ⟨d, hw, hf⟩ := h.both hl
    obtain ⟨e, hv, hg⟩ := h.eithers hr
    exact ⟨.either d e, by rw [hw, hv, Derivation.words, List.append_assoc],
      by rw [Derivation.formula, hf, hg]⟩
  eithers := h.succ_eithers
  both hc := by
    obtain ⟨left, m, hl, hr⟩ := Clean.bind hc (keepsAt n).comparison (keepsAt n).boths
    obtain ⟨d, hw, hf⟩ := h.comparison hl
    obtain ⟨e, hv, hg⟩ := h.boths hr
    exact ⟨.both d e, by rw [hw, hv, Derivation.words, List.append_assoc],
      by rw [Derivation.formula, hf, hg]⟩
  boths := h.succ_boths
  comparison := h.succ_comparison

theorem soundAt_zero : SoundAt 0 where
  expression h := absurd h not_clean_exhausted
  sums h := absurd h not_clean_exhausted
  term h := absurd h not_clean_exhausted
  products h := absurd h not_clean_exhausted
  factor h := absurd h not_clean_exhausted
  arguments h := absurd h not_clean_exhausted
  argumentList h := absurd h not_clean_exhausted
  call h := absurd h not_clean_exhausted
  base h := absurd h not_clean_exhausted
  conditional h := absurd h not_clean_exhausted
  elsePart := sound_elsePart (fun h => absurd h not_clean_exhausted)
    fun h => absurd h not_clean_exhausted
  either h := absurd h not_clean_exhausted
  eithers h := absurd h not_clean_exhausted
  both h := absurd h not_clean_exhausted
  boths h := absurd h not_clean_exhausted
  comparison h := absurd h not_clean_exhausted

theorem soundAt (n : Nat) : SoundAt n := by
  induction n with
  | zero => exact soundAt_zero
  | succ n ih => exact ih.succ

end Sound

end TokenReader

end Sundial
