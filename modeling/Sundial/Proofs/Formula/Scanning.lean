import Sundial.Formula.Lexer
import Sundial.Formula.Printer
import Sundial.Proofs.Grammar.Derivation
import Sundial.Proofs.Number.PlainText

/-!
# What a text scans as

`Scans cs ws` says that the words of a text are `ws`, wherever the text stands. A text is scanned
from the front, one blank or one word at a time; the words that a lexeme could have been longer
than need a text behind them that `Breaks` them off.
-/

set_option autoImplicit false

namespace Sundial

open Word

/-! ## Characters -/

theorem isWordPart_of_isDigit {c : Char} (h : c.isDigit = true) : isWordPart c = true := by
  simp [isWordPart, Char.isAlphanum, h]

theorem isWordPart_of_isWordStart {c : Char} (h : isWordStart c = true) : isWordPart c = true := by
  simp only [isWordStart, isWordPart, Char.isAlphanum, Bool.or_eq_true] at h ⊢
  rcases h with h | h
  · exact .inl (.inl h)
  · exact .inr h

/-- The code points of the characters of words. -/
theorem isWordPart_range {c : Char} (h : isWordPart c = true) : 48 ≤ c.toNat ∧ c.toNat ≤ 122 := by
  simp only [isWordPart, Char.isAlphanum, Char.isAlpha, Char.isUpper, Char.isLower, Char.isDigit,
    Bool.or_eq_true, Bool.and_eq_true, decide_eq_true_eq, UInt32.le_iff_toNat_le, ge_iff_le] at h
  change ((((65 ≤ c.toNat ∧ c.toNat ≤ 90) ∨ (97 ≤ c.toNat ∧ c.toNat ≤ 122)) ∨
    (48 ≤ c.toNat ∧ c.toNat ≤ 57)) ∨ c = '_') at h
  rcases h with ((h | h) | h) | rfl
  · omega
  · omega
  · omega
  · decide

/-- The visible characters of ASCII are no blanks. -/
theorem not_isBlank_of_range {c : Char} (h : 33 ≤ c.toNat ∧ c.toNat ≤ 126) :
    Text.isBlank c = false := by
  simp only [Text.isBlank, Text.blankRanges, List.any_cons, List.any_nil, Bool.or_eq_false_iff,
    Bool.and_eq_false_iff, decide_eq_false_iff_not, and_true]
  and_intros <;> omega

theorem not_isBlank_of_isWordPart {c : Char} (h : isWordPart c = true) :
    Text.isBlank c = false := by
  have hrange := isWordPart_range h
  exact not_isBlank_of_range (by omega)

theorem singleKind?_of_isWordPart {c : Char} (h : isWordPart c = true) : singleKind? c = none := by
  unfold singleKind?
  split <;> first | rfl | exact absurd h (by decide)

theorem pairKind?_of_isWordPart {c : Char} (h : isWordPart c = true) : pairKind? c = none := by
  unfold pairKind?
  split <;> first | rfl | exact absurd h (by decide)

theorem ne_of_isWordPart {c d : Char} (h : isWordPart c = true) (hd : isWordPart d = false) :
    c ≠ d := by
  rintro rfl
  rw [h] at hd
  cases hd

/-! ## Scanning -/

/-- The words of the text, wherever it stands. -/
def Scans (cs : List Char) (ws : List Word) : Prop :=
  ∀ pos, (tokensFrom pos cs).map Token.toWord = ws ++ [sign .finish]

/-- The lexer takes the lexeme from the front of its source, with `rest` behind it. -/
def Lexeme.ReadBefore (l : Lexeme) (rest : List Char) : Prop :=
  ∃ c cs, l.source = c :: cs ∧ splitGap .blank (l.source ++ rest) = ([], l.source ++ rest) ∧
    Lexeme.read c (cs ++ rest) = (l, rest)

/-- The text starts with the source of a lexeme that is the word, with `rest` behind it. -/
def Lexes (source : List Char) (w : Word) (rest : List Char) : Prop :=
  ∃ c cs kind literal, source = c :: cs ∧ splitGap .blank (source ++ rest) = ([], source ++ rest) ∧
    Lexeme.read c (cs ++ rest) = (⟨kind, literal, source⟩, rest) ∧
    (Token.toWord ⟨kind, literal, .start⟩) = w

theorem Lexeme.ReadBefore.lexes {l : Lexeme} {rest : List Char} (h : l.ReadBefore rest) :
    Lexes l.source (Token.toWord ⟨l.kind, l.literal, .start⟩) rest := by
  obtain ⟨c, cs, hsource, hgap, hread⟩ := h
  exact ⟨c, cs, l.kind, l.literal, hsource, hgap, hread, rfl⟩

theorem scans_nil : Scans [] [] := by
  intro pos
  rw [tokensFrom]
  rfl

theorem tokensFrom_of_gap {cs gap tail : List Char} {c : Char}
    (h : splitGap .blank cs = (gap, c :: tail)) (pos : Position) :
    tokensFrom pos cs =
      ⟨(Lexeme.read c tail).1.kind, (Lexeme.read c tail).1.literal, pos.advance gap⟩ ::
        tokensFrom ((pos.advance gap).advance (Lexeme.read c tail).1.source)
          (Lexeme.read c tail).2 := by
  rw [tokensFrom]
  dsimp only
  split
  next heq =>
    rw [h] at heq
    cases heq
  next heq =>
    rw [h] at heq
    obtain ⟨rfl, rfl⟩ := List.cons.inj heq
    rw [h]

theorem tokensFrom_of_end {cs gap : List Char} (h : splitGap .blank cs = (gap, []))
    (pos : Position) : tokensFrom pos cs = [⟨.finish, "", pos.advance gap⟩] := by
  rw [tokensFrom]
  dsimp only
  split
  next => rw [h]
  next heq =>
    rw [h] at heq
    cases heq

/-- A text has all its tokens or, when one of them is illegal, none. -/
theorem tokenize_eq_ok_iff {source : String} {ts : List Token} :
    tokenize source = .ok ts ↔ tokens source = ts ∧ ∀ t ∈ ts, t.kind ≠ .illegal := by
  simp only [tokenize]
  split
  next t hfind =>
    have hillegal : t.kind = .illegal := by simpa using List.find?_some hfind
    refine iff_of_false (by simp) ?_
    rintro ⟨rfl, hlegal⟩
    exact hlegal t (List.mem_of_find?_eq_some hfind) hillegal
  next hfind =>
    have hlegal : ∀ t ∈ tokens source, t.kind ≠ .illegal := by simpa using hfind
    constructor
    · intro hts
      cases hts
      exact ⟨rfl, hlegal⟩
    · rintro ⟨rfl, -⟩
      rfl

theorem splitGap_blank {c : Char} (hc : Text.isBlank c = true) (cs : List Char) :
    splitGap .blank (c :: cs) = (c :: (splitGap .blank cs).1, (splitGap .blank cs).2) := by
  have hslash : c ≠ '/' := by
    rintro rfl
    exact absurd hc (by decide)
  conv_lhs => rw [splitGap.eq_def]
  split
  next heq => cases heq
  next heq => exact absurd (List.cons.inj heq).1 hslash
  next heq => exact absurd (List.cons.inj heq).1 hslash
  next heq =>
    obtain ⟨rfl, rfl⟩ := List.cons.inj heq
    rw [if_pos hc]
  all_goals contradiction

/-- What is neither blank nor the start of a comment is no gap. -/
theorem splitGap_none {c : Char} (hc : Text.isBlank c = false) {cs : List Char}
    (hcomment : c = '/' → ∀ d ∈ cs.head?, d ≠ '/' ∧ d ≠ '*') :
    splitGap .blank (c :: cs) = ([], c :: cs) := by
  rw [splitGap.eq_def]
  split
  next heq => cases heq
  next heq =>
    obtain ⟨rfl, rfl⟩ := List.cons.inj heq
    exact absurd rfl (hcomment rfl '/' rfl).1
  next heq =>
    obtain ⟨rfl, rfl⟩ := List.cons.inj heq
    exact absurd rfl (hcomment rfl '*' rfl).2
  next heq =>
    obtain ⟨rfl, rfl⟩ := List.cons.inj heq
    rw [if_neg (by rw [hc]; exact Bool.false_ne_true)]
  all_goals contradiction

/-- A blank is no part of a word. -/
theorem Scans.blank {cs : List Char} {ws : List Word} (h : Scans cs ws) {c : Char}
    (hc : Text.isBlank c = true) : Scans (c :: cs) ws := by
  intro pos
  have h := h (pos.step c)
  rw [tokensFrom] at h ⊢
  rw [splitGap_blank hc]
  exact h

theorem Scans.word {source rest : List Char} {w : Word} {ws : List Word} (h : Scans rest ws)
    (hw : Lexes source w rest) : Scans (source ++ rest) (w :: ws) := by
  obtain ⟨c, cs, kind, literal, rfl, hgap, hread, rfl⟩ := hw
  intro pos
  have h := h ((pos.advance []).advance (c :: cs))
  rw [List.cons_append] at hgap
  rw [List.cons_append, tokensFrom_of_gap hgap, hread, List.map_cons, h]
  rfl

/-! ## Signs -/

variable {rest : List Char}

theorem readBefore_verbatim (c : Char) (cs : List Char) (kind : TokenKind)
    (hb : Text.isBlank c = false) (hc : c ≠ '/')
    (hread : Lexeme.read c (cs ++ rest) = (.verbatim kind (c :: cs), rest)) :
    (Lexeme.verbatim kind (c :: cs)).ReadBefore rest :=
  ⟨c, cs, rfl, splitGap_none hb fun h => absurd h hc, hread⟩

theorem lexes_verbatim (c : Char) (cs : List Char) (kind : TokenKind)
    (hb : Text.isBlank c = false) (hc : c ≠ '/') (hs : kind.hasContent = false)
    (hread : Lexeme.read c (cs ++ rest) = (.verbatim kind (c :: cs), rest)) :
    Lexes (c :: cs) (sign kind) rest := by
  have hlex := (readBefore_verbatim c cs kind hb hc hread).lexes
  rwa [Token.toWord_of_sign hs] at hlex

/-- The text ends here, or goes on with a blank. -/
def Apart (rest : List Char) : Prop := ∀ c ∈ rest.head?, Text.isBlank c = true

theorem apart_blank : Apart (' ' :: rest) := by
  rintro c hc
  cases hc
  rfl

/-- How the kinds of tokens are written that are always written the same way, keywords aside. -/
def TokenKind.symbol? : TokenKind → Option (List Char)
  | leftParen => some ['(']
  | rightParen => some [')']
  | leftBrace => some ['{']
  | rightBrace => some ['}']
  | comma => some [',']
  | plus => some ['+']
  | minus => some ['-']
  | star => some ['*']
  | slash => some ['/']
  | greater => some ['>']
  | less => some ['<']
  | greaterEqual => some ['>', '=']
  | lessEqual => some ['<', '=']
  | equal => some ['=', '=']
  | notEqual => some ['!', '=']
  | both => some ['&', '&']
  | either => some ['|', '|']
  | _ => none

/-- A blank keeps the start of an operator of two from being read together with what follows. -/
theorem read_alone {c second : Char} {pair alone : TokenKind} (hsingle : singleKind? c = none)
    (hpair : pairKind? c = some (second, pair, alone)) (hsecond : Text.isBlank second = false)
    (hr : Apart rest) : Lexeme.read c rest = (.verbatim alone [c], rest) := by
  rw [Lexeme.read, hsingle, hpair]
  cases rest with
  | nil => rfl
  | cons d rest =>
    have hne : d ≠ second := by
      rintro rfl
      rw [hr d rfl] at hsecond
      cases hsecond
    dsimp only
    rw [if_neg hne]

/-- A blank keeps a slash from starting a comment. -/
theorem readBefore_slash (hr : Apart rest) : (Lexeme.verbatim .slash ['/']).ReadBefore rest := by
  refine ⟨'/', [], rfl, splitGap_none rfl fun _ d hd => ?_, rfl⟩
  have hblank := hr d hd
  constructor <;> rintro rfl <;> cases hblank

theorem readBefore_symbol {kind : TokenKind} {cs : List Char} (h : kind.symbol? = some cs)
    (hr : Apart rest) : (Lexeme.verbatim kind cs).ReadBefore rest := by
  cases kind <;> cases h
  case slash => exact readBefore_slash hr
  case greater | less =>
    exact readBefore_verbatim _ [] _ rfl (by decide) (read_alone rfl rfl rfl hr)
  all_goals exact readBefore_verbatim _ _ _ rfl (by decide) rfl

theorem lexes_symbol {kind : TokenKind} {s : String} (h : kind.symbol? = some s.toList) :
    Lexes s.toList (sign kind) (' ' :: rest) := by
  have hread : (Lexeme.verbatim kind s.toList).ReadBefore (' ' :: rest) :=
    readBefore_symbol h apart_blank
  have hlex := hread.lexes
  rwa [Token.toWord_of_sign] at hlex
  cases kind <;> first | rfl | cases h

theorem lexes_operator (op : Operator) :
    Lexes op.symbol.toList (sign op.kind) (' ' :: rest) := by
  apply lexes_symbol
  cases op <;> rfl

theorem lexes_relation (relation : Relation) :
    Lexes relation.symbol.toList (sign relation.kind) (' ' :: rest) := by
  apply lexes_symbol
  cases relation <;> rfl

/-! ## Words, numbers and durations -/

/-- The text goes on with nothing that a word or a number in front could take in. -/
structure Ends (rest : List Char) : Prop where
  word : ∀ c ∈ rest.head?, isWordPart c = false
  point : ∀ c ∈ rest.head?, c ≠ '.'

/-- The text goes on with nothing that a word, a number or a duration in front could take in. -/
structure Breaks (rest : List Char) : Prop extends Ends rest where
  digits : ∀ c ∈ (rest.dropWhile Text.isBlank).head?, c.isDigit = false

theorem Apart.ends (h : Apart rest) : Ends rest where
  word c hc := by
    by_contra hword
    have hblank := not_isBlank_of_isWordPart (by simpa using hword)
    rw [h c hc] at hblank
    cases hblank
  point c hc := by
    rintro rfl
    cases h '.' hc

/-- A word as the lexer takes it. -/
def IsWord (cs : List Char) : Prop :=
  ∃ c cs', cs = c :: cs' ∧ isWordStart c = true ∧ cs'.all isWordPart = true

theorem IsWord.isWordPart {cs : List Char} (h : IsWord cs) : ∀ c ∈ cs, isWordPart c = true := by
  obtain ⟨c, cs', rfl, hc, hcs⟩ := h
  intro d hd
  rcases List.mem_cons.1 hd with rfl | hd
  · exact isWordPart_of_isWordStart hc
  · exact List.all_eq_true.1 hcs d hd

theorem splitRun_word {cs : List Char} (h : ∀ c ∈ cs, isWordPart c = true)
    (hr : ∀ c ∈ rest.head?, isWordPart c = false) :
    splitRun isWordPart (cs ++ rest) = (cs, rest) := by
  rw [splitRun, takeWhile_run h hr, dropWhile_run h hr]

theorem not_isDigit_of_isWordStart {c : Char} (h : isWordStart c = true) : c.isDigit = false := by
  simp only [isWordStart, Char.isAlpha, Char.isUpper, Char.isLower, Bool.or_eq_true,
    Bool.and_eq_true, decide_eq_true_eq, UInt32.le_iff_toNat_le, ge_iff_le] at h
  change ((65 ≤ c.toNat ∧ c.toNat ≤ 90) ∨ (97 ≤ c.toNat ∧ c.toNat ≤ 122)) ∨ c = '_' at h
  rcases h with h | rfl
  · simp only [Char.isDigit, Bool.and_eq_false_iff, decide_eq_false_iff_not,
      UInt32.le_iff_toNat_le, ge_iff_le]
    change ¬48 ≤ c.toNat ∨ ¬c.toNat ≤ 57
    omega
  · rfl

theorem readBefore_name {cs : List Char} (hs : IsWord cs)
    (hr : ∀ c ∈ rest.head?, isWordPart c = false) :
    (Lexeme.verbatim (Vocabulary.classify (String.ofList cs)) cs).ReadBefore rest := by
  have hword := hs.isWordPart
  obtain ⟨c, cs, rfl, hstart, -⟩ := hs
  have hpart := isWordPart_of_isWordStart hstart
  refine ⟨c, cs, rfl, ?_, ?_⟩
  · exact splitGap_none (not_isBlank_of_isWordPart hpart)
      fun h => absurd h (ne_of_isWordPart hpart (by decide))
  · have hsplit := splitRun_word hword hr
    rw [List.cons_append] at hsplit
    rw [Lexeme.read, singleKind?_of_isWordPart hpart, pairKind?_of_isWordPart hpart]
    dsimp only
    rw [if_neg (ne_of_isWordPart hpart (by decide)), if_neg (ne_of_isWordPart hpart (by decide)),
      if_neg (by rw [not_isDigit_of_isWordStart hstart]; exact Bool.false_ne_true), if_pos hstart,
      hsplit]

theorem lexes_name {s : String} {kind : TokenKind} (hs : IsWord s.toList)
    (hk : Vocabulary.classify s = kind) (hr : ∀ c ∈ rest.head?, isWordPart c = false) :
    Lexes s.toList (Token.toWord ⟨kind, s, .start⟩) rest := by
  have hlex := (readBefore_name hs hr).lexes
  simp only [Lexeme.verbatim, String.ofList_toList, hk] at hlex
  exact hlex

theorem readBefore_reference {key : List Char} (hk : IsWord key)
    (hr : ∀ c ∈ rest.head?, isWordPart c = false) :
    Lexeme.ReadBefore ⟨.reference, String.ofList key, '@' :: key⟩ rest := by
  have hsplit := splitRun_word hk.isWordPart hr
  obtain ⟨c, cs, rfl, hstart, -⟩ := hk
  refine ⟨'@', c :: cs, rfl, ?_, ?_⟩
  · exact splitGap_none rfl fun h => absurd h (by decide)
  · have hhead : (((c :: cs ++ rest).head?.map isWordStart).getD false) = true := hstart
    rw [Lexeme.read]
    change (if (((c :: cs ++ rest).head?.map isWordStart).getD false) = true then _ else _) = _
    rw [if_pos hhead]
    simp only [splitRun, Prod.mk.injEq] at hsplit
    rw [hsplit.1, hsplit.2]

theorem lexes_reference {key : List Char} (hk : IsWord key) (hr : Breaks rest) :
    Lexes ('@' :: key) ⟨.reference, String.ofList key⟩ rest :=
  (readBefore_reference hk hr.word).lexes

/-- The units that end a duration, and the one that minutes may follow. -/
def durationUnits : List (List Char) := ["min".toList, "hr".toList, "h".toList]

/-- A duration as the lexer takes it. -/
inductive DurationLiteral : List Char → Prop where
  | plain {number unit : List Char} (hn : PlainNumber number) (hu : unit ∈ durationUnits) :
      DurationLiteral (number ++ unit)
  | minutes {number blanks digits : List Char} (hn : PlainNumber number) (hb : blanks ≠ [])
      (hb' : ∀ c ∈ blanks, Text.isBlank c = true) (hd : IsDigits digits) :
      DurationLiteral (number ++ "h".toList ++ (blanks ++ digits ++ "min".toList))

theorem DurationLiteral.exists_cons {cs : List Char} (h : DurationLiteral cs) :
    ∃ c rest, cs = c :: rest ∧ c.isDigit = true := by
  cases h with
  | plain hn _ | minutes hn _ _ _ =>
    obtain ⟨c, rest, rfl, hc⟩ := hn.exists_cons
    exact ⟨c, _, rfl, hc⟩

theorem splitDigits_plain {cs : List Char} (h : PlainNumber cs)
    (hd : ∀ c ∈ rest.head?, c.isDigit = false) (hp : ∀ c ∈ rest.head?, c ≠ '.') :
    splitDigits (cs ++ rest) = (cs, rest) := by
  cases h with
  | whole h =>
    rw [splitDigits, splitRun, takeWhile_run h.2 hd, dropWhile_run h.2 hd]
    dsimp only
    split
    next => exact absurd rfl (hp '.' rfl)
    next => rfl
  | @places ds es h h' =>
    obtain ⟨d, es', rfl⟩ := List.exists_cons_of_ne_nil h'.1
    have hpoint : ∀ c ∈ ('.' :: (d :: es' ++ rest)).head?, c.isDigit = false := by
      rintro c hc
      cases hc
      rfl
    rw [List.append_assoc, List.cons_append, splitDigits, splitRun, takeWhile_run h.2 hpoint,
      dropWhile_run h.2 hpoint]
    change (if d.isDigit = true then (ds ++ '.' :: (d :: es' ++ rest).takeWhile Char.isDigit,
      (d :: es' ++ rest).dropWhile Char.isDigit) else _) = _
    rw [if_pos (h'.2 d List.mem_cons_self), takeWhile_run h'.2 hd, dropWhile_run h'.2 hd]

theorem Ends.digit (hr : Ends rest) : ∀ c ∈ rest.head?, c.isDigit = false := by
  intro c hc
  by_contra hd
  have hword := hr.word c hc
  rw [isWordPart_of_isDigit (by simpa using hd)] at hword
  cases hword

theorem splitNumber_number {cs : List Char} (h : PlainNumber cs) (hr : Ends rest) :
    splitNumber (cs ++ rest) = (.verbatim .number cs, rest) := by
  have hunit : ((rest.head?.map isWordStart).getD false) = false := by
    rcases hrest : rest with _ | ⟨c, rest'⟩
    · rfl
    · by_contra hc
      have hword := hr.word c (by rw [hrest]; rfl)
      rw [isWordPart_of_isWordStart (by simpa using hc)] at hword
      cases hword
  rw [splitNumber, splitDigits_plain h hr.digit hr.point]
  simp only [hunit]
  rfl

/-- A unit is read as one word behind the number. -/
theorem splitDigits_unit {number unit : List Char} (h : PlainNumber number)
    (hu : unit ∈ durationUnits) (rest : List Char) :
    splitDigits (number ++ (unit ++ rest)) = (number, unit ++ rest) ∧
      (((unit ++ rest).head?.map isWordStart).getD false) = true ∧
      ∀ c ∈ unit, isWordPart c = true := by
  simp only [durationUnits, List.mem_cons, List.not_mem_nil, or_false] at hu
  rcases hu with rfl | rfl | rfl
  all_goals
    refine ⟨splitDigits_plain h ?_ ?_, rfl, List.all_eq_true.1 (by decide)⟩
    all_goals
      rintro c hc
      cases hc
      decide

/-- Without digits behind them, blanks after an hour mark are not taken. -/
theorem splitMinutes_none (hr : Breaks rest) : splitMinutes rest = ([], rest) := by
  have hdigits : (rest.dropWhile Text.isBlank).takeWhile Char.isDigit = [] := by
    rcases h : rest.dropWhile Text.isBlank with _ | ⟨c, cs⟩
    · rfl
    · rw [List.takeWhile_cons, hr.digits c (by rw [h]; rfl)]
      rfl
  simp [splitMinutes, splitRun, hdigits]

theorem splitMinutes_minutes {blanks digits : List Char} (hb : blanks ≠ [])
    (hb' : ∀ c ∈ blanks, Text.isBlank c = true) (hd : IsDigits digits)
    (hr : ∀ c ∈ rest.head?, isWordPart c = false) :
    splitMinutes (blanks ++ digits ++ "min".toList ++ rest) =
      (blanks ++ digits ++ "min".toList, rest) := by
  have hblank : ∀ c ∈ (digits ++ ("min".toList ++ rest)).head?, Text.isBlank c = false := by
    obtain ⟨d, ds, rfl⟩ := List.exists_cons_of_ne_nil hd.1
    rintro c hc
    cases hc
    exact not_isBlank_of_isWordPart (isWordPart_of_isDigit (hd.2 d List.mem_cons_self))
  have hunit : ∀ c ∈ ("min".toList ++ rest).head?, c.isDigit = false := by
    rintro c hc
    cases hc
    rfl
  have hword : ∀ c ∈ "min".toList, isWordPart c = true := List.all_eq_true.1 (by decide)
  rw [List.append_assoc, List.append_assoc, splitMinutes, splitRun, takeWhile_run hb' hblank,
    dropWhile_run hb' hblank]
  dsimp only
  rw [splitRun, takeWhile_run hd.2 hunit, dropWhile_run hd.2 hunit]
  dsimp only
  rw [splitRun_word hword hr]
  dsimp only
  rw [if_pos ⟨hb, hd.1, rfl⟩]

/-- A number with a unit that no minutes may follow. -/
theorem splitNumber_unit {number unit : List Char} (hn : PlainNumber number)
    (hu : unit = "min".toList ∨ unit = "hr".toList)
    (hr : ∀ c ∈ rest.head?, isWordPart c = false) :
    splitNumber (number ++ (unit ++ rest)) = (.verbatim .duration (number ++ unit), rest) := by
  have hunit : unit ∈ durationUnits := by
    rcases hu with rfl | rfl <;> decide
  obtain ⟨hdigits, hhead, hword⟩ := splitDigits_unit hn hunit rest
  rw [splitNumber, hdigits]
  dsimp only
  rw [if_pos hhead, splitRun_word hword hr]
  dsimp only
  rw [if_pos hu, if_neg]
  rintro rfl
  exact absurd hu (by decide)

/-- A number of hours takes in the minutes that follow. -/
theorem splitNumber_hours {number : List Char} (hn : PlainNumber number)
    (hr : ∀ c ∈ rest.head?, isWordPart c = false) :
    splitNumber (number ++ ("h".toList ++ rest)) =
      (.verbatim .duration (number ++ "h".toList ++ (splitMinutes rest).1),
        (splitMinutes rest).2) := by
  obtain ⟨hdigits, hhead, hword⟩ :=
    splitDigits_unit hn (show "h".toList ∈ durationUnits by decide) rest
  rw [splitNumber, hdigits]
  dsimp only
  rw [if_pos hhead, splitRun_word hword hr]
  dsimp only
  rw [if_neg (by decide), if_neg (by decide), if_pos rfl]

theorem splitNumber_minutes {number blanks digits : List Char} (hn : PlainNumber number)
    (hb : blanks ≠ []) (hb' : ∀ c ∈ blanks, Text.isBlank c = true) (hd : IsDigits digits)
    (hr : ∀ c ∈ rest.head?, isWordPart c = false) :
    splitNumber (number ++ "h".toList ++ (blanks ++ digits ++ "min".toList) ++ rest) =
      (.verbatim .duration (number ++ "h".toList ++ (blanks ++ digits ++ "min".toList)), rest) := by
  have hbreak : ∀ c ∈ (blanks ++ digits ++ "min".toList ++ rest).head?, isWordPart c = false := by
    obtain ⟨b, bs, rfl⟩ := List.exists_cons_of_ne_nil hb
    rintro c hc
    cases hc
    by_contra hword
    have hblank := not_isBlank_of_isWordPart (by simpa using hword)
    rw [hb' b List.mem_cons_self] at hblank
    cases hblank
  have hassoc : number ++ "h".toList ++ (blanks ++ digits ++ "min".toList) ++ rest =
      number ++ ("h".toList ++ (blanks ++ digits ++ "min".toList ++ rest)) := by
    simp only [List.append_assoc]
  rw [hassoc, splitNumber_hours hn hbreak, splitMinutes_minutes hb hb' hd hr]

/-- A duration in whole or broken hours, which minutes may follow. -/
def IsHours (cs : List Char) : Prop := ∃ number, PlainNumber number ∧ cs = number ++ "h".toList

theorem splitNumber_duration {cs : List Char} (h : DurationLiteral cs)
    (hr : ∀ c ∈ rest.head?, isWordPart c = false)
    (hm : IsHours cs → splitMinutes rest = ([], rest)) :
    splitNumber (cs ++ rest) = (.verbatim .duration cs, rest) := by
  cases h with
  | @plain number unit hn hu =>
    rw [List.append_assoc]
    simp only [durationUnits, List.mem_cons, List.not_mem_nil, or_false] at hu
    rcases hu with rfl | rfl | rfl
    · exact splitNumber_unit hn (.inl rfl) hr
    · exact splitNumber_unit hn (.inr rfl) hr
    · rw [splitNumber_hours hn hr, hm ⟨number, hn, rfl⟩, List.append_nil]
  | minutes hn hb hb' hd => exact splitNumber_minutes hn hb hb' hd hr

theorem splitGap_digit {c : Char} (hc : c.isDigit = true) (cs : List Char) :
    splitGap .blank (c :: cs) = ([], c :: cs) := by
  have hpart := isWordPart_of_isDigit hc
  exact splitGap_none (not_isBlank_of_isWordPart hpart)
    fun h => absurd h (ne_of_isWordPart hpart (by decide))

/-- A lexeme that starts with a digit. -/
theorem readBefore_digit {l : Lexeme} (hc : ∃ c rest, l.source = c :: rest ∧ c.isDigit = true)
    (hsplit : splitNumber (l.source ++ rest) = (l, rest)) : l.ReadBefore rest := by
  obtain ⟨c, cs, hsource, hdigit⟩ := hc
  have hpart := isWordPart_of_isDigit hdigit
  refine ⟨c, cs, hsource, ?_, ?_⟩
  · rw [hsource]
    exact splitGap_digit hdigit _
  · rw [Lexeme.read, singleKind?_of_isWordPart hpart, pairKind?_of_isWordPart hpart]
    dsimp only
    rw [if_neg (ne_of_isWordPart hpart (by decide)), if_neg (ne_of_isWordPart hpart (by decide)),
      if_pos hdigit, ← List.cons_append, ← hsource]
    exact hsplit

theorem readBefore_number {cs : List Char} (h : PlainNumber cs) (hr : Ends rest) :
    (Lexeme.verbatim .number cs).ReadBefore rest :=
  readBefore_digit h.exists_cons (splitNumber_number h hr)

theorem readBefore_duration {cs : List Char} (h : DurationLiteral cs)
    (hr : ∀ c ∈ rest.head?, isWordPart c = false)
    (hm : IsHours cs → splitMinutes rest = ([], rest)) :
    (Lexeme.verbatim .duration cs).ReadBefore rest :=
  readBefore_digit h.exists_cons (splitNumber_duration h hr hm)

theorem lexes_number {cs : List Char} (h : PlainNumber cs) (hr : Breaks rest) :
    Lexes cs ⟨.number, String.ofList cs⟩ rest :=
  (readBefore_number h hr.toEnds).lexes

theorem lexes_duration {cs : List Char} (h : DurationLiteral cs) (hr : Breaks rest) :
    Lexes cs ⟨.duration, String.ofList cs⟩ rest :=
  (readBefore_duration h hr.word fun _ => splitMinutes_none hr).lexes

/-! ## Strings -/

/-- A character as it is written in quotes. -/
def escaped (c : Char) : List Char := if c = '"' ∨ c = '\\' then ['\\', c] else [c]

theorem quoted_toList (s : String) :
    (Formula.quoted s).toList = '"' :: (s.toList.flatMap escaped ++ ['"']) := by
  simp only [Formula.quoted, String.toList_append, String.toList_ofList]
  rfl

theorem splitString_escaped (c : Char) (cs : List Char) :
    splitString (escaped c ++ cs) =
      (c :: (splitString cs).1, escaped c ++ (splitString cs).2.1, (splitString cs).2.2) := by
  rw [escaped]
  split
  next h =>
    rcases h with rfl | rfl <;> rfl
  next h =>
    obtain ⟨hquote, hslash⟩ := not_or.1 h
    rw [List.singleton_append, splitString.eq_def]
    split
    next heq => cases heq
    next heq => exact absurd (List.cons.inj heq).1 hquote
    next heq => exact absurd (List.cons.inj heq).1 hslash
    next heq => exact absurd (List.cons.inj heq).1 hslash
    next heq =>
      obtain ⟨rfl, rfl⟩ := List.cons.inj heq
      rfl

theorem splitString_quoted (content rest : List Char) :
    splitString (content.flatMap escaped ++ '"' :: rest) =
      (content, content.flatMap escaped ++ ['"'], rest) := by
  induction content with
  | nil => rfl
  | cons c content ih =>
    rw [List.flatMap_cons, List.append_assoc, splitString_escaped, ih, List.append_assoc]

theorem readBefore_quoted (s : String) :
    Lexeme.ReadBefore ⟨.string, s, (Formula.quoted s).toList⟩ rest := by
  refine ⟨'"', s.toList.flatMap escaped ++ ['"'], quoted_toList s, ?_, ?_⟩
  · dsimp only
    rw [quoted_toList]
    exact splitGap_none rfl fun h => absurd h (by decide)
  · have hsplit := splitString_quoted s.toList rest
    rw [quoted_toList, List.append_assoc, List.singleton_append]
    change ((⟨.string, String.ofList (splitString _).1, '"' :: (splitString _).2.1⟩ : Lexeme),
      (splitString _).2.2) = _
    rw [hsplit, String.ofList_toList]

theorem lexes_quoted (s : String) : Lexes (Formula.quoted s).toList ⟨.string, s⟩ rest :=
  (readBefore_quoted s).lexes

end Sundial
