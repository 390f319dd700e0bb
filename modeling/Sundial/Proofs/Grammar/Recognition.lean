import Sundial.Proofs.Grammar.Soundness

/-!
# What a list of tokens writes

A list of tokens is read exactly if the words in front of its first end mark have a derivation, and
the formula is the one that the derivation stands for. What comes behind the end mark is not looked
at.
-/

set_option autoImplicit false

namespace Sundial.Formula

open Word Grammar

/-! ## The first end mark -/

/-- The words of the tokens in front of the first end mark. -/
def wordsBeforeFinish (ts : List Token) : List Word :=
  (ts.takeWhile fun t => t.kind ≠ .finish).map Token.toWord

/-- The tokens up to the first end mark, with that mark. -/
def throughFinish : List Token → List Token
  | [] => []
  | t :: ts => if t.kind = .finish then [t] else t :: throughFinish ts

theorem cutAtFinish_fst (ts : List Token) :
    (cutAtFinish ts).1 = ts.takeWhile fun t => t.kind ≠ .finish := by
  fun_induction cutAtFinish ts with
  | case1 => rfl
  | case2 t h | case3 t h => simp [h]
  | case4 t ts _ h => simp [h]
  | case5 t ts _ h before finish heq ih => simpa [h, heq] using ih

theorem cutAtFinish_cons {t : Token} {ts : List Token} (h : t.kind ≠ .finish) (hts : ts ≠ []) :
    cutAtFinish (t :: ts) = (t :: (cutAtFinish ts).1, (cutAtFinish ts).2) := by
  obtain ⟨u, us, rfl⟩ := List.exists_cons_of_ne_nil hts
  rw [cutAtFinish, if_neg h]
  exact List.cons_ne_nil u us

theorem throughFinish_ne_nil {ts : List Token} (h : ts ≠ []) : throughFinish ts ≠ [] := by
  obtain ⟨u, us, rfl⟩ := List.exists_cons_of_ne_nil h
  rw [throughFinish]
  split <;> exact List.cons_ne_nil _ _

theorem cutAtFinish_throughFinish (ts : List Token) :
    cutAtFinish (throughFinish ts) = cutAtFinish ts := by
  fun_induction cutAtFinish ts with
  | case1 => rfl
  | case2 t h | case3 t h => simp [throughFinish, cutAtFinish, h]
  | case4 t ts _ h => simp [throughFinish, cutAtFinish, h]
  | case5 t ts hts h before finish heq ih =>
    rw [throughFinish, if_neg h, cutAtFinish_cons h (throughFinish_ne_nil hts), ih, heq]

/-! ## Reading the tokens -/

open TokenReader

/-- Where the reading of the tokens starts. -/
def start (ts : List Token) : Reading := ⟨(cutAtFinish ts).1, (cutAtFinish ts).2, []⟩

theorem start_words (ts : List Token) : (start ts).words = wordsBeforeFinish ts := by
  rw [Reading.words, start, cutAtFinish_fst, wordsBeforeFinish]

theorem start_ahead_length (ts : List Token) :
    (start ts).ahead.length = (wordsBeforeFinish ts).length := by
  rw [← start_words, Reading.words, List.length_map]

/-- A whole formula is an expression with nothing behind it; a fault is recorded for what is. -/
theorem clean_formula {s s' : Reading} {f : Formula} :
    Clean TokenReader.formula s f s' ↔ s.ahead ≠ [] ∧
      Clean (expression (depthBound s.ahead.length)) s f s' ∧ s'.ahead = [] := by
  simp only [Clean, TokenReader.formula]
  rcases hahead : s.ahead with _ | ⟨t, ts⟩
  · simp [fail]
  · rcases hrun : expression (depthBound (t :: ts).length) s with ⟨e | g, m⟩
    · simp
    · rcases hm : m.ahead with _ | ⟨u, us⟩
      · simp only [hm, Prod.mk.injEq, Except.ok.injEq, ne_eq, reduceCtorEq, not_false_eq_true,
          true_and]
        constructor
        · rintro ⟨⟨rfl, rfl⟩, hfaults⟩
          exact ⟨⟨⟨rfl, rfl⟩, hfaults⟩, hm⟩
        · rintro ⟨h, -⟩
          exact h
      · simp only [hm, Prod.mk.injEq, Except.ok.injEq]
        constructor
        · rintro ⟨⟨rfl, rfl⟩, hfaults⟩
          have hkept := (keepsAt (depthBound (t :: ts).length)).expression s
          rw [hrun] at hkept
          have hle := hkept.length_le
          rw [← hfaults, List.length_append] at hle
          exact absurd hle (by simp)
        · rintro ⟨-, ⟨⟨rfl, rfl⟩, -⟩, hend⟩
          exact absurd (hm.symm.trans hend) (List.cons_ne_nil u us)

/-- Tokens are read by one clean run. -/
theorem readTokens_eq_ok {ts : List Token} {f : Formula} :
    readTokens ts = .ok f ↔ ∃ s, Clean TokenReader.formula (start ts) f s := by
  have hstart : start ts = ⟨(cutAtFinish ts).1, (cutAtFinish ts).2, []⟩ := rfl
  have hfaults : (start ts).faults = [] := rfl
  rw [readTokens]
  dsimp only
  rw [← hstart]
  rcases hrun : TokenReader.formula (start ts) with ⟨e | g, s⟩
  · simp [Clean, hrun]
  · simp only [Clean, hrun, hfaults, Prod.mk.injEq, Except.ok.injEq, and_assoc, exists_and_left,
      exists_eq_left']
    cases s.faults <;> simp

/-- What is read has a derivation. -/
theorem exists_derivation {ts : List Token} {f : Formula} (h : readTokens ts = .ok f) :
    ∃ d : Derivation .formula .expression,
      d.words = wordsBeforeFinish ts ∧ d.formula = f.unplaced := by
  obtain ⟨s, hs⟩ := readTokens_eq_ok.1 h
  obtain ⟨-, hclean, hend⟩ := clean_formula.1 hs
  obtain ⟨d, hw, hd⟩ := (soundAt _).expression hclean
  refine ⟨d, ?_, hd⟩
  rw [← start_words, hw, Reading.words, hend, List.map_nil, List.append_nil]

/-- What has a derivation is read as what that stands for. -/
theorem exists_readTokens {ts : List Token} (d : Derivation .formula .expression)
    (h : d.words = wordsBeforeFinish ts) :
    ∃ f, readTokens ts = .ok f ∧ f.unplaced = d.formula := by
  have hlen : (start ts).ahead.length = d.words.length := by rw [start_ahead_length, h]
  have hdepth : 8 * d.words.length + 2 ≤ depthBound (start ts).ahead.length := by
    rw [hlen, depthBound]
    omega
  obtain ⟨f, s, hrun, hf, hend, hfaults⟩ := complete d _ (start ts) [] hdepth
    (by rw [start_words, h, List.append_nil]) (stops_nil _)
  have hahead : (start ts).ahead ≠ [] := by
    apply List.ne_nil_of_length_pos
    rw [hlen]
    exact words_length_pos d rfl
  refine ⟨f, readTokens_eq_ok.2 ⟨s, clean_formula.2 ⟨hahead, ⟨hrun, hfaults⟩, ?_⟩⟩, hf⟩
  exact List.map_eq_nil_iff.1 hend

/-- Every list of tokens is read exactly as the one derivation of its words says. -/
theorem readTokens_iff_derivation (ts : List Token) :
    (∀ g, (∃ f, readTokens ts = .ok f ∧ f.unplaced = g) ↔
      ∃ d : Derivation .formula .expression, d.words = wordsBeforeFinish ts ∧ d.formula = g) ∧
    Function.Injective (Derivation.words : Derivation .formula .expression → List Word) ∧
    readTokens ts = readTokens (throughFinish ts) := by
  refine ⟨fun g => ⟨?_, ?_⟩, Derivation.words_injective .expression, ?_⟩
  · rintro ⟨f, hf, rfl⟩
    exact exists_derivation hf
  · rintro ⟨d, hw, rfl⟩
    exact exists_readTokens d hw
  · rw [readTokens, readTokens, cutAtFinish_throughFinish]

/-! ## Literals that are readable by themselves -/

/-- The literal of the word is readable on its own, or found in its table. -/
def readableAlone (w : Word) : Bool :=
  match w.kind with
  | .number => (Number.read? w.literal).isSome
  | .duration => (Duration.read? w.literal).isSome
  | .primitive => (Primitive.ofName? w.literal).isSome
  | .function => (BuiltIn.ofName? w.literal).isSome
  | .direction => (Direction.ofName? w.literal).isSome
  | .base => w.literal = customWord || (DaySpan.ofName? w.literal).isSome
  | .circumstance => (Circumstance.ofName? w.literal).isSome
  | _ => true

/-- A minus sign in front of a duration that has one of its own. -/
def doublySigned : List Token :=
  [⟨.minus, "-", ⟨1, 1⟩⟩, ⟨.duration, "-5min", ⟨1, 2⟩⟩, ⟨.finish, "", ⟨1, 7⟩⟩]

/-- It is not enough that the kinds of the words are those of a sentence and that each literal is
readable alone: the sign in front is part of the text of the duration, which takes no second one. -/
theorem doublySigned_refused :
    (∃ d : Derivation .formula .expression,
      d.words.map Word.kind = (wordsBeforeFinish doublySigned).map Word.kind) ∧
    (∀ w ∈ wordsBeforeFinish doublySigned, readableAlone w = true) ∧
    ∀ f, readTokens doublySigned ≠ .ok f := by
  refine ⟨?_, by decide, ?_⟩
  · obtain ⟨f, hf⟩ := Option.isSome_iff_exists.1
      (show (negative? .formula ⟨.duration, "5min"⟩).isSome = true by decide)
    exact ⟨.expression (.term (.negative _ f hf) .noProduct) .noSum, rfl⟩
  · intro f h
    have hok : (readTokens doublySigned).isOk = false := by decide
    rw [h] at hok
    cases hok

end Sundial.Formula
