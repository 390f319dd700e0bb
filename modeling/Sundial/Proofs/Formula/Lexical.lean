import Sundial.Proofs.Formula.Scanning

/-!
# What the lexer gives

Numbers, durations and references have their fixed shapes in every text, and those shapes are what
the lexer takes again wherever they stand.
-/

set_option autoImplicit false

namespace Sundial

/-- The literal of the word has the shape that the lexer takes for the kind. -/
def Word.IsLexical (w : Word) : Prop :=
  match w.kind with
  | .number => PlainNumber w.literal.toList
  | .duration => DurationLiteral w.literal.toList
  | .reference => IsWord w.literal.toList
  | _ => True

theorem all_takeWhile (p : Char → Bool) (cs : List Char) : ∀ c ∈ cs.takeWhile p, p c = true := by
  intro c hc
  have := List.all_takeWhile (p := p) (l := cs)
  rw [List.all_eq_true] at this
  exact this c hc

theorem isDigits_takeWhile {c : Char} (hc : c.isDigit = true) (cs : List Char) :
    IsDigits ((c :: cs).takeWhile Char.isDigit) := by
  refine ⟨?_, all_takeWhile _ _⟩
  rw [List.takeWhile_cons, if_pos hc]
  exact List.cons_ne_nil _ _

theorem plainNumber_splitDigits {c : Char} (hc : c.isDigit = true) (cs : List Char) :
    PlainNumber (splitDigits (c :: cs)).1 := by
  have hwhole := isDigits_takeWhile hc cs
  rw [splitDigits, splitRun]
  dsimp only
  split
  next d rest _ =>
    split
    next hd => exact .places hwhole (isDigits_takeWhile hd rest)
    next => exact .whole hwhole
  next => exact .whole hwhole

/-- What a run leaves over does not go on with the run. -/
theorem head?_dropWhile (p : Char → Bool) (cs : List Char) :
    ∀ c ∈ (cs.dropWhile p).head?, p c = false := by
  intro c hc
  have hhead := List.head?_dropWhile_not p cs
  rwa [hc] at hhead

/-- After an hour mark blanks, digits and the word `min` are taken, or nothing. -/
theorem splitMinutes_cases (cs : List Char) : splitMinutes cs = ([], cs) ∨
    ∃ blanks digits rest, cs = blanks ++ digits ++ "min".toList ++ rest ∧ blanks ≠ [] ∧
      (∀ c ∈ blanks, Text.isBlank c = true) ∧ IsDigits digits ∧
      ∀ c ∈ rest.head?, isWordPart c = false := by
  rw [splitMinutes]
  dsimp only
  by_cases h : (splitRun Text.isBlank cs).1 ≠ [] ∧
      (splitRun Char.isDigit (splitRun Text.isBlank cs).2).1 ≠ [] ∧
      (splitRun isWordPart (splitRun Char.isDigit (splitRun Text.isBlank cs).2).2).1 = "min".toList
  · obtain ⟨hblanks, hdigits, hunit⟩ := h
    refine .inr ⟨(splitRun Text.isBlank cs).1, (splitRun Char.isDigit (splitRun Text.isBlank cs).2).1,
      (splitRun isWordPart (splitRun Char.isDigit (splitRun Text.isBlank cs).2).2).2, ?_, hblanks,
      all_takeWhile _ _, ⟨hdigits, all_takeWhile _ _⟩, head?_dropWhile _ _⟩
    rw [← hunit, List.append_assoc, splitRun_append, List.append_assoc, splitRun_append,
      splitRun_append]
  · exact .inl (if_neg h)

theorem isLexical_splitNumber {c : Char} (hc : c.isDigit = true) (cs : List Char) :
    Word.IsLexical ⟨(splitNumber (c :: cs)).1.kind, (splitNumber (c :: cs)).1.literal⟩ := by
  have hnumber := plainNumber_splitDigits hc cs
  rw [splitNumber]
  generalize splitDigits (c :: cs) = p at hnumber
  obtain ⟨number, rest⟩ := p
  dsimp only at hnumber ⊢
  generalize (if ((rest.head?.map isWordStart).getD false) = true then splitRun isWordPart rest
    else ([], rest)) = q
  obtain ⟨unit, tail⟩ := q
  dsimp only
  split
  next =>
    rw [Word.IsLexical]
    simpa [Lexeme.verbatim] using hnumber
  next =>
    split
    next h =>
      have hu : unit ∈ durationUnits := by
        rcases h with rfl | rfl <;> decide
      simpa [Lexeme.verbatim, Word.IsLexical] using DurationLiteral.plain hnumber hu
    next =>
      split
      next h =>
        subst h
        rcases splitMinutes_cases tail with hm | ⟨blanks, digits, rest, rfl, hb, hb', hd, hr⟩
        · simp only [Word.IsLexical, Lexeme.verbatim, hm, List.append_nil, String.toList_ofList]
          exact .plain hnumber (by decide)
        · simp only [Word.IsLexical, Lexeme.verbatim, splitMinutes_minutes hb hb' hd hr,
            String.toList_ofList]
          exact .minutes hnumber hb hb' hd
      next => trivial

/-- The kinds of tokens without a shape of their own. -/
def TokenKind.isFree (kind : TokenKind) : Bool :=
  kind ≠ .number && kind ≠ .duration && kind ≠ .reference

theorem Word.isLexical_of_isFree {w : Word} (h : w.kind.isFree = true) : w.IsLexical := by
  rw [IsLexical]
  split
  case h_4 => trivial
  all_goals
    rename_i hk
    rw [hk] at h
    cases h

theorem singleKind?_isFree {c : Char} {kind : TokenKind} (h : singleKind? c = some kind) :
    kind.isFree = true := by
  unfold singleKind? at h
  split at h <;> cases h <;> rfl

theorem pairKind?_isFree {c second : Char} {pair alone : TokenKind}
    (h : pairKind? c = some (second, pair, alone)) :
    pair.isFree = true ∧ alone.isFree = true := by
  unfold pairKind? at h
  split at h <;> cases h <;> exact ⟨rfl, rfl⟩

theorem classify_isFree (w : String) : (Vocabulary.classify w).isFree = true := by
  rw [Vocabulary.classify]
  split_ifs <;> rfl

theorem isLexical_read (c : Char) (cs : List Char) :
    Word.IsLexical ⟨(Lexeme.read c cs).1.kind, (Lexeme.read c cs).1.literal⟩ := by
  rw [Lexeme.read]
  split
  next hk => exact Word.isLexical_of_isFree (singleKind?_isFree hk)
  next =>
    split
    next hk =>
      obtain ⟨hpair, halone⟩ := pairKind?_isFree hk
      split
      · split
        · exact Word.isLexical_of_isFree hpair
        · exact Word.isLexical_of_isFree halone
      · exact Word.isLexical_of_isFree halone
    next =>
      split_ifs with hat hstart hquote hdigit hword
      · rcases cs with _ | ⟨d, ds⟩
        · cases hstart
        · have hd : isWordStart d = true := hstart
          have hpart := isWordPart_of_isWordStart hd
          simp only [Word.IsLexical, splitRun, String.toList_ofList, List.takeWhile_cons,
            if_pos hpart]
          exact ⟨d, _, rfl, hd, List.all_takeWhile⟩
      · exact Word.isLexical_of_isFree rfl
      · exact Word.isLexical_of_isFree rfl
      · exact isLexical_splitNumber hdigit cs
      · exact Word.isLexical_of_isFree (classify_isFree _)
      · exact Word.isLexical_of_isFree rfl

theorem isLexical_toWord {t : Token} (h : Word.IsLexical ⟨t.kind, t.literal⟩) :
    t.toWord.IsLexical := by
  by_cases hc : t.kind.hasContent = true
  · rwa [Token.toWord_of_content hc]
  · rw [Token.toWord_of_sign (by simpa using hc)]
    refine Word.isLexical_of_isFree ?_
    revert hc
    rw [Word.sign_kind]
    cases t.kind <;> decide

theorem isLexical_tokensFrom (pos : Position) (cs : List Char) :
    ∀ t ∈ tokensFrom pos cs, t.toWord.IsLexical := by
  induction pos, cs using tokensFrom.induct with
  | case1 pos cs heq =>
    have hgap : splitGap .blank cs = ((splitGap .blank cs).1, []) := Prod.ext rfl heq
    rw [tokensFrom_of_end hgap]
    intro t ht
    rw [List.mem_singleton.1 ht]
    exact Word.isLexical_of_isFree rfl
  | case2 pos cs start c rest heq read ih =>
    have hgap : splitGap .blank cs = ((splitGap .blank cs).1, c :: rest) := Prod.ext rfl heq
    rw [tokensFrom_of_gap hgap]
    intro t ht
    rcases List.mem_cons.1 ht with rfl | ht
    · exact isLexical_toWord (isLexical_read c rest)
    · exact ih t ht

end Sundial
