import Sundial.Proofs.Formula.Gaps
import Sundial.Proofs.Formula.Lexical
import Mathlib.Data.List.Chain

/-!
# Lexing undoes writing

Lexemes written one behind another, with gaps between them that start with a blank, are read back
as they are, with one exception: hours take in the minutes that follow them behind nothing but
blanks. `tokenize_spaced_iff` says that this is the only one.
-/

set_option autoImplicit false

namespace Sundial

variable {rest : List Char}

/-! ## Written lexemes -/

/-- The lexemes of the language, each with the ways to write it. -/
inductive Lexeme.Written : Lexeme → Prop where
  | symbol {kind : TokenKind} {cs : List Char} (h : kind.symbol? = some cs) :
      Written (.verbatim kind cs)
  | word {cs : List Char} (h : IsWord cs) :
      Written (.verbatim (Vocabulary.classify (String.ofList cs)) cs)
  | number {cs : List Char} (h : PlainNumber cs) : Written (.verbatim .number cs)
  | duration {cs : List Char} (h : DurationLiteral cs) : Written (.verbatim .duration cs)
  | reference {key : List Char} (h : IsWord key) :
      Written ⟨.reference, String.ofList key, '@' :: key⟩
  | string (content : String) : Written ⟨.string, content, (Formula.quoted content).toList⟩

/-- A duration that minutes behind it are read together with. -/
def Lexeme.TakesMinutes (l : Lexeme) : Prop :=
  ∃ number, PlainNumber number ∧ l = .verbatim .duration (number ++ "h".toList)

/-- A duration in minutes that hours in front of it take in. -/
def Lexeme.IsMinutes (l : Lexeme) : Prop :=
  ∃ digits, IsDigits digits ∧ l = .verbatim .duration (digits ++ "min".toList)

namespace Lexeme

theorem Written.kind_ne_illegal {l : Lexeme} (h : l.Written) : l.kind ≠ .illegal := by
  cases h with
  | @symbol kind cs h =>
    rintro (rfl : kind = .illegal)
    cases h
  | @word cs h =>
    change Vocabulary.classify (String.ofList cs) ≠ .illegal
    rw [Vocabulary.classify]
    split_ifs <;> exact TokenKind.noConfusion
  | number | duration | reference | string => exact TokenKind.noConfusion

/-- A lexeme with a blank behind it is read as it is, unless it takes in minutes. -/
theorem Written.readBefore {l : Lexeme} (h : l.Written) (hr : Apart rest)
    (hm : l.TakesMinutes → splitMinutes rest = ([], rest)) : l.ReadBefore rest := by
  cases h with
  | symbol h => exact readBefore_symbol h hr
  | word h => exact readBefore_name h hr.ends.word
  | number h => exact readBefore_number h hr.ends
  | duration h =>
    refine readBefore_duration h hr.ends.word ?_
    rintro ⟨number, hn, rfl⟩
    exact hm ⟨number, hn, rfl⟩
  | reference h => exact readBefore_reference h hr.ends.word
  | string content => exact readBefore_quoted content

/-- No lexeme with a blank behind it starts with a gap. -/
theorem Written.splitGap {l : Lexeme} (h : l.Written) (hr : Apart rest) :
    splitGap .blank (l.source ++ rest) = ([], l.source ++ rest) := by
  by_cases hours : l.TakesMinutes
  · obtain ⟨number, hn, rfl⟩ := hours
    obtain ⟨c, cs, rfl, hc⟩ := hn.exists_cons
    exact splitGap_digit hc _
  · obtain ⟨c, cs, -, hgap, -⟩ := h.readBefore hr fun hours' => absurd hours' hours
    exact hgap

/-- What is read from the front of a text depends on nothing but the text. -/
theorem ReadBefore.unique {l l' : Lexeme} {rest' : List Char} (h : l.ReadBefore rest)
    (h' : l'.ReadBefore rest') (htext : l.source ++ rest = l'.source ++ rest') :
    l = l' ∧ rest = rest' := by
  obtain ⟨c, cs, hsource, -, hread⟩ := h
  obtain ⟨c', cs', hsource', -, hread'⟩ := h'
  rw [hsource, hsource', List.cons_append, List.cons_append] at htext
  obtain ⟨rfl, htail⟩ := List.cons.inj htext
  rw [htail, hread'] at hread
  obtain ⟨hl, hrest⟩ := Prod.mk.inj hread
  exact ⟨hl.symm, hrest.symm⟩

end Lexeme

/-! ## Spaced texts -/

/-- A lexeme with the gap in front of it. -/
structure Spaced where
  gap : List Char
  lexeme : Lexeme
  isGap : IsGap False gap
  written : lexeme.Written

/-- What a token says, wherever it stands. -/
def Token.said (t : Token) : TokenKind × String := (t.kind, t.literal)

namespace Spaced

/-- The gap keeps the lexeme from what stands in front. -/
def IsApart (s : Spaced) : Prop := ∃ c cs, s.gap = c :: cs ∧ Text.isBlank c = true

/-- The two are read as one: hours, and minutes behind blanks. -/
def Merges (s t : Spaced) : Prop :=
  s.lexeme.TakesMinutes ∧ (∀ c ∈ t.gap, Text.isBlank c = true) ∧ t.lexeme.IsMinutes

/-- The text of lexemes written one behind another. -/
def text (ss : List Spaced) : List Char := ss.flatMap fun s => s.gap ++ s.lexeme.source

theorem text_cons (s : Spaced) (ss : List Spaced) :
    text (s :: ss) = s.gap ++ (s.lexeme.source ++ text ss) := by
  rw [text, List.flatMap_cons, List.append_assoc]
  rfl

theorem apart_text {ss : List Spaced} (h : ∀ s ∈ ss, s.IsApart) : Apart (text ss) := by
  cases ss with
  | nil => exact fun c hc => absurd hc (by simp [text])
  | cons s ss =>
    obtain ⟨b, bs, hgap, hb⟩ := h s List.mem_cons_self
    intro c hc
    rw [text_cons, hgap] at hc
    cases hc
    exact hb

/-- A number of hours is not read where a number of minutes stands. -/
theorem not_takesMinutes {l : Lexeme} {digits more : List Char} (hd : IsDigits digits)
    (htext : l.source ++ rest = digits ++ ("min".toList ++ more)) : ¬l.TakesMinutes := by
  rintro ⟨number, hn, rfl⟩
  have hhours := (splitDigits_unit hn (show "h".toList ∈ durationUnits by decide) rest).1
  have hminutes :=
    (splitDigits_unit (.whole hd) (show "min".toList ∈ durationUnits by decide) more).1
  rw [Lexeme.verbatim, List.append_assoc] at htext
  rw [htext, hminutes] at hhours
  cases (Prod.mk.inj hhours).2

/-- What hours in front of the text take in are minutes behind blanks. -/
theorem isMinutes_of_text {t : Spaced} {ss : List Spaced} {blanks digits more : List Char}
    (hss : ∀ s ∈ ss, s.IsApart)
    (htext : text (t :: ss) = blanks ++ digits ++ "min".toList ++ more)
    (hb : ∀ c ∈ blanks, Text.isBlank c = true) (hd : IsDigits digits)
    (hr : ∀ c ∈ more.head?, isWordPart c = false) : t.gap = blanks ∧ t.lexeme.IsMinutes := by
  have hapart : Apart (text ss) := apart_text hss
  obtain ⟨d, ds, rfl⟩ := List.exists_cons_of_ne_nil hd.1
  have hdigit : d.isDigit = true := hd.2 d List.mem_cons_self
  rw [text_cons, List.append_assoc, List.append_assoc] at htext
  have hnone : splitGap .blank (d :: ds ++ ("min".toList ++ more)) =
      ([], d :: ds ++ ("min".toList ++ more)) := splitGap_digit hdigit _
  obtain ⟨hgap, hsource⟩ :=
    gap_unique t.isGap (.of_blanks hb) (t.written.splitGap hapart) hnone htext
  have hlexeme : t.lexeme.ReadBefore (text ss) :=
    t.written.readBefore hapart fun h => absurd h (not_takesMinutes hd hsource)
  rw [← List.append_assoc] at hsource
  have hminutes : (Lexeme.verbatim .duration (d :: ds ++ "min".toList)).ReadBefore more := by
    refine readBefore_digit ⟨d, _, rfl, hdigit⟩ ?_
    have hsplit := splitNumber_unit (.whole hd) (.inl rfl) hr
    rwa [← List.append_assoc] at hsplit
  exact ⟨hgap, _, hd, (hlexeme.unique hminutes hsource).1⟩

/-- Hours in front of the text take nothing in exactly if no minutes follow behind blanks. -/
theorem splitMinutes_text_iff {ss : List Spaced} (h : ∀ s ∈ ss, s.IsApart) :
    splitMinutes (text ss) = ([], text ss) ↔
      ∀ t ∈ ss.head?, (∀ c ∈ t.gap, Text.isBlank c = true) → ¬t.lexeme.IsMinutes := by
  cases ss with
  | nil => exact iff_of_true rfl (by simp)
  | cons t ss =>
    have hss : ∀ s ∈ ss, s.IsApart := fun s hs => h s (List.mem_cons_of_mem t hs)
    simp only [List.head?_cons, Option.mem_def, Option.some.injEq, forall_eq']
    constructor
    · rintro hnone hblank ⟨digits, hd, hlexeme⟩
      obtain ⟨b, bs, hgap, -⟩ := h t List.mem_cons_self
      have hminutes := splitMinutes_minutes (hgap ▸ List.cons_ne_nil b bs) hblank hd
        (apart_text hss).ends.word
      have hassoc : text (t :: ss) = t.gap ++ digits ++ "min".toList ++ text ss := by
        rw [text_cons, hlexeme]
        simp only [Lexeme.verbatim, List.append_assoc]
      rw [hassoc, hminutes, hgap] at hnone
      cases (Prod.mk.inj hnone).1
    · intro hsafe
      rcases splitMinutes_cases (text (t :: ss)) with
        hnone | ⟨blanks, digits, more, htext, -, hb, hd, hr⟩
      · exact hnone
      · obtain ⟨rfl, hminutes⟩ := isMinutes_of_text hss htext hb hd hr
        exact absurd hminutes (hsafe hb)

/-- The tokens that the lexemes are meant to be read as. -/
def meant (ss : List Spaced) : List (TokenKind × String) :=
  ss.map (fun s => (s.lexeme.kind, s.lexeme.literal)) ++ [(.finish, "")]

theorem tokensFrom_text_cons {s : Spaced} {ss : List Spaced} {l : Lexeme} {more : List Char}
    (h : l.ReadBefore more) (htext : s.lexeme.source ++ text ss = l.source ++ more)
    (pos : Position) : ∃ pos', (tokensFrom pos (text (s :: ss))).map Token.said =
      (l.kind, l.literal) :: (tokensFrom pos' more).map Token.said := by
  obtain ⟨c, cs, hsource, hgap, hread⟩ := h
  rw [hsource, List.cons_append] at hgap
  rw [text_cons, tokensFrom_gap s.isGap, htext, hsource, List.cons_append, tokensFrom_of_gap hgap,
    hread]
  exact ⟨_, rfl⟩

/-- Hours take in the minutes that follow behind blanks. -/
theorem readBefore_of_merges {s t : Spaced} {ss : List Spaced} (h : s.Merges t)
    (ht : t.IsApart) (hss : ∀ s ∈ ss, s.IsApart) :
    ∃ l : Lexeme, l.ReadBefore (text ss) ∧
      s.lexeme.source ++ text (t :: ss) = l.source ++ text ss ∧ l.literal ≠ s.lexeme.literal := by
  obtain ⟨⟨number, hn, hs⟩, hblank, digits, hd, hm⟩ := h
  obtain ⟨b, bs, hgap, -⟩ := ht
  have hb : t.gap ≠ [] := hgap ▸ List.cons_ne_nil b bs
  refine ⟨.verbatim .duration (number ++ "h".toList ++ (t.gap ++ digits ++ "min".toList)),
    ?_, ?_, ?_⟩
  · exact readBefore_digit (DurationLiteral.minutes hn hb hblank hd).exists_cons
      (splitNumber_minutes hn hb hblank hd (apart_text hss).ends.word)
  · rw [text_cons, hs, hm]
    simp only [Lexeme.verbatim, List.append_assoc]
  · rw [hs]
    simp [Lexeme.verbatim]

/-- The text is read as it is meant exactly if no two lexemes in it merge. -/
theorem tokensFrom_text_iff {ss : List Spaced} (h : ∀ s ∈ ss.tail, s.IsApart) (pos : Position) :
    (tokensFrom pos (text ss)).map Token.said = meant ss ↔ ss.IsChain fun s t => ¬s.Merges t := by
  induction ss generalizing pos with
  | nil => exact iff_of_true (by rw [text, List.flatMap_nil, tokensFrom_of_end rfl]; rfl) .nil
  | cons s ss ih =>
    have hss : ∀ t ∈ ss, t.IsApart := h
    -- A merge spoils the first token; without one the first lexeme is read and the rest remains.
    by_cases hm : ∃ t ∈ ss.head?, s.Merges t
    · obtain ⟨t, ht, hmerges⟩ := hm
      obtain ⟨more, rfl⟩ := List.head?_eq_some_iff.1 ht
      rw [List.forall_mem_cons] at hss
      obtain ⟨l, hread, htext, hne⟩ := readBefore_of_merges hmerges hss.1 hss.2
      obtain ⟨pos', htokens⟩ := tokensFrom_text_cons hread htext pos
      refine iff_of_false (fun heq => ?_) fun hchain => (List.isChain_cons_cons.1 hchain).1 hmerges
      rw [htokens] at heq
      exact hne (Prod.mk.inj (List.cons.inj heq).1).2
    · push Not at hm
      have hnone : s.lexeme.TakesMinutes → splitMinutes (text ss) = ([], text ss) := fun hours =>
        (splitMinutes_text_iff hss).2 fun t ht hblank hminutes => hm t ht ⟨hours, hblank, hminutes⟩
      have hread := s.written.readBefore (apart_text hss) hnone
      obtain ⟨pos', htokens⟩ := tokensFrom_text_cons hread rfl pos
      have htail := ih (fun t ht => hss t (List.mem_of_mem_tail ht)) pos'
      rw [htokens, List.isChain_cons, ← htail]
      simp only [meant, List.map_cons, List.cons_append, List.cons.injEq, true_and]
      exact (and_iff_right hm).symm

theorem legal_of_said {ts : List Token} {ss : List Spaced} (h : ts.map Token.said = meant ss) :
    ∀ t ∈ ts, t.kind ≠ .illegal := by
  intro t ht
  have hsaid : t.said ∈ meant ss := h ▸ List.mem_map_of_mem ht
  rcases List.mem_append.1 hsaid with hlexeme | hfinish
  · obtain ⟨s, -, heq⟩ := List.mem_map.1 hlexeme
    have hkind : s.lexeme.kind = t.kind := (Prod.mk.inj heq).1
    exact hkind ▸ s.written.kind_ne_illegal
  · have hkind : t.kind = .finish := (Prod.mk.inj (List.mem_singleton.1 hfinish)).1
    rw [hkind]
    exact TokenKind.noConfusion

end Spaced

/-- **Lexing undoes writing**: lexemes with gaps between them that start with a blank are read back,
kinds and literals, exactly if nowhere minutes follow hours behind nothing but blanks. -/
theorem tokenize_spaced_iff (ss : List Spaced) (h : ∀ s ∈ ss.tail, s.IsApart) :
    (∃ ts, tokenize (String.ofList (Spaced.text ss)) = .ok ts ∧
        ts.map Token.said = Spaced.meant ss) ↔
      ss.IsChain fun s t => ¬s.Merges t := by
  have htokens : tokens (String.ofList (Spaced.text ss)) = tokensFrom .start (Spaced.text ss) := by
    rw [tokens, String.toList_ofList]
  rw [← Spaced.tokensFrom_text_iff h .start, ← htokens]
  simp only [tokenize_eq_ok_iff]
  constructor
  · rintro ⟨ts, ⟨rfl, -⟩, hsaid⟩
    exact hsaid
  · intro hsaid
    exact ⟨_, ⟨rfl, Spaced.legal_of_said hsaid⟩, hsaid⟩

example : tokenize "2h \t30min" =
    .ok [⟨.duration, "2h \t30min", ⟨1, 1⟩⟩, ⟨.finish, "", ⟨1, 10⟩⟩] := by
  cbv

/-- Hours and minutes with a comment between them, a slash, and a string with a quote and a
backslash in it. -/
def apartHours : List Spaced :=
  [⟨[], .verbatim .duration (['2'] ++ "h".toList), .nil,
      .duration (.plain (.whole (by decide)) (by decide))⟩,
    ⟨' ' :: '/' :: '/' :: (" on foot".toList ++ '\n' :: ['\t']),
      .verbatim .duration (['3', '0'] ++ "min".toList),
      .blank rfl (.line (by decide) (.blank rfl .nil)),
      .duration (.plain (.whole (by decide)) (by decide))⟩,
    ⟨[' '], .verbatim .slash ['/'], .blank rfl .nil, .symbol rfl⟩,
    ⟨'\n' :: '/' :: '*' :: (" *".toList ++ '*' :: '/' :: []),
      ⟨.string, "a \"\\", (Formula.quoted "a \"\\").toList⟩,
      .blank rfl (.block (by decide) .nil), .string _⟩]

theorem tokenize_apartHours : (∀ s ∈ apartHours.tail, s.IsApart) ∧
    ∃ ts, tokenize "2h // on foot\n\t30min /\n/* **/\"a \\\"\\\\\"" = .ok ts ∧ ts.map Token.said =
      [(.duration, "2h"), (.duration, "30min"), (.slash, "/"), (.string, "a \"\\"),
        (.finish, "")] := by
  have hapart : ∀ s ∈ apartHours.tail, s.IsApart := by
    simp only [apartHours, List.tail_cons, List.forall_mem_cons, List.not_mem_nil, false_imp_iff,
      implies_true, and_true]
    exact ⟨⟨_, _, rfl, rfl⟩, ⟨_, _, rfl, rfl⟩, ⟨_, _, rfl, rfl⟩⟩
  refine ⟨hapart, (tokenize_spaced_iff apartHours hapart).2 ?_⟩
  simp only [apartHours, List.isChain_cons_cons, List.isChain_singleton, and_true]
  refine ⟨?_, ?_, ?_⟩
  · rintro ⟨-, hblank, -⟩
    exact absurd (hblank '/' (by decide)) (by decide)
  · rintro ⟨-, -, digits, -, hslash⟩
    cases hslash
  · rintro ⟨⟨number, -, hslash⟩, -, -⟩
    cases hslash

end Sundial
