import Sundial.Proofs.Formula.Legible

/-!
# The words of the canonical text

`canonicalWords` lists the words that the canonical text of a formula is written with, and
`Legible.prints` says that the text scans as them, whatever stands behind it.
-/

set_option autoImplicit false

namespace Sundial

open Word

/-! ## Texts that print words -/

section Prints

variable {cs cs' : List Char} {ws ws' : List Word} {rest : List Char}

/-- In front of any text that breaks it off, the text scans as the words. -/
def Prints (cs : List Char) (ws : List Word) : Prop :=
  ∀ rest vs, Breaks rest → Scans rest vs → Scans (cs ++ rest) (ws ++ vs)

theorem breaks_nil : Breaks [] := by
  refine ⟨⟨?_, ?_⟩, ?_⟩ <;> simp

theorem not_isDigit_of_not_isWordPart {c : Char} (h : isWordPart c = false) :
    c.isDigit = false := by
  by_contra hd
  rw [isWordPart_of_isDigit (by simpa using hd)] at h
  cases h

theorem breaks_cons {c : Char} (hw : isWordPart c = false) (hp : c ≠ '.')
    (hb : Text.isBlank c = false) : Breaks (c :: rest) where
  word := by
    rintro d hd
    cases hd
    exact hw
  point := by
    rintro d hd
    cases hd
    exact hp
  digits := by
    rw [List.dropWhile_cons, hb]
    rintro d hd
    cases hd
    exact not_isDigit_of_not_isWordPart hw

/-- Behind a blank, only digits could still belong to a duration. -/
theorem breaks_blank {c : Char} (hb : Text.isBlank c = false) (hd : c.isDigit = false) :
    Breaks (' ' :: c :: rest) where
  word := by
    rintro d hd
    cases hd
    rfl
  point := by
    rintro d hd
    cases hd
    decide
  digits := by
    rw [List.dropWhile_cons, if_pos (by decide), List.dropWhile_cons, hb]
    rintro d hd'
    cases hd'
    exact hd

theorem prints_word {w : Word} (h : ∀ rest, Breaks rest → Lexes cs w rest) : Prints cs [w] :=
  fun rest _ hr hs => hs.word (h rest hr)

theorem Prints.scans (h : Prints cs ws) : Scans cs ws := by
  have hscan := h [] [] breaks_nil scans_nil
  rwa [List.append_nil, List.append_nil] at hscan

/-- A sign of one character, in front of anything. -/
theorem Scans.single {ws : List Word} (h : Scans rest ws) (c : Char) (kind : TokenKind)
    (hk : singleKind? c = some kind) (hb : Text.isBlank c = false) (hc : c ≠ '/')
    (hs : kind.hasContent = false) : Scans (c :: rest) (sign kind :: ws) := by
  refine h.word (lexes_verbatim c [] kind hb hc hs ?_)
  rw [Lexeme.read, hk]
  rfl

theorem Prints.parens (h : Prints cs ws) :
    Prints ('(' :: (cs ++ [')'])) (sign .leftParen :: (ws ++ [sign .rightParen])) := by
  intro rest vs _ hs
  have hclose := hs.single ')' .rightParen rfl rfl (by decide) rfl
  have hinner := h _ _ (breaks_cons (by decide) (by decide) (by decide)) hclose
  have hopen := hinner.single '(' .leftParen rfl rfl (by decide) rfl
  simpa using hopen

theorem Prints.braces (h : Prints cs ws) :
    Prints ('{' :: ' ' :: (cs ++ [' ', '}'])) (sign .leftBrace :: (ws ++ [sign .rightBrace])) := by
  intro rest vs _ hs
  have hclose := (hs.single '}' .rightBrace rfl rfl (by decide) rfl).blank (c := ' ') rfl
  have hinner := h _ _ (breaks_blank (by decide) (by decide)) hclose
  have hopen := (hinner.blank (c := ' ') rfl).single '{' .leftBrace rfl rfl (by decide) rfl
  simpa using hopen

/-- Two texts with a sign between them, and blanks around it. -/
theorem Prints.infix {sign' : List Char} {w : Word} (h : Prints cs ws) (h' : Prints cs' ws')
    (hsign : ∀ rest, Lexes sign' w (' ' :: rest))
    (hhead : ∀ rest, Breaks (' ' :: (sign' ++ rest))) :
    Prints (cs ++ ' ' :: (sign' ++ ' ' :: cs')) (ws ++ w :: ws') := by
  intro rest vs hr hs
  have hright := ((h' rest vs hr hs).blank (c := ' ') rfl).word (hsign _)
  have hleft := h _ _ (hhead _) (hright.blank (c := ' ') rfl)
  simpa using hleft

end Prints

namespace Formula

/-! ## The words of a formula -/

def inParens (wrap : Bool) (ws : List Word) : List Word :=
  if wrap then sign .leftParen :: (ws ++ [sign .rightParen]) else ws

def inBraces (ws : List Word) : List Word := sign .leftBrace :: (ws ++ [sign .rightBrace])

/-- The words of a text of the kind, which may start with a minus sign. -/
def signedWords (kind : TokenKind) (s : String) : List Word :=
  match s.toList with
  | '-' :: cs => [sign .minus, ⟨kind, String.ofList cs⟩]
  | _ => [⟨kind, s⟩]

mutual

/-- The words that the canonical text is written with. -/
def canonicalWords : Formula → List Word
  | primitive _ event => [⟨.primitive, event.name⟩]
  | call _ function args =>
    ⟨.function, function.name⟩ :: sign .leftParen :: (argumentsWords args ++ [sign .rightParen])
  | binary _ op left right =>
    inParens (needsParens op false left) (canonicalWords left) ++
      sign op.kind :: inParens (needsParens op true right) (canonicalWords right)
  | duration _ _ literal => signedWords .duration literal
  | number _ value => signedWords (if value.isInf then .word else .number) (plainText value)
  | string _ value => [⟨.string, value⟩]
  | reference _ key => [⟨.reference, key⟩]
  | direction _ d => [⟨.direction, d.name⟩]
  | span _ b => [⟨.base, b.name⟩]
  | customSpan _ bounds =>
    ⟨.base, customWord⟩ :: sign .leftParen :: (argumentsWords bounds ++ [sign .rightParen])
  | ifThen _ c t =>
    sign .ifWord :: sign .leftParen ::
      (canonicalWords c ++ sign .rightParen :: inBraces (canonicalWords t))
  | ifElse _ c t e =>
    sign .ifWord :: sign .leftParen ::
      (canonicalWords c ++ sign .rightParen :: (inBraces (canonicalWords t) ++ sign .elseWord ::
        if isConditional e then canonicalWords e else inBraces (canonicalWords e)))
  | condition _ relation left right =>
    inParens (relation = .both && isEither left) (canonicalWords left) ++
      sign relation.kind :: inParens (relation = .both && isEither right) (canonicalWords right)
  | circumstance _ v => [⟨.circumstance, v.name⟩]

def argumentsWords : List Formula → List Word
  | [] => []
  | a :: rest => canonicalWords a ++ laterArgumentsWords rest

/-- The words of the arguments after the first, each behind a comma. -/
def laterArgumentsWords : List Formula → List Word
  | [] => []
  | a :: rest => sign .comma :: (canonicalWords a ++ laterArgumentsWords rest)

end

/-! ## Canonical texts print their words -/

theorem parenthesized_toList (s : String) :
    (parenthesized true s).toList = '(' :: (s.toList ++ [')']) := by
  simp [parenthesized]

theorem braced_toList (s : String) :
    (braced s).toList = '{' :: ' ' :: (s.toList ++ [' ', '}']) := by
  simp [braced]

theorem prints_parenthesized {s : String} {ws : List Word} (wrap : Bool) (h : Prints s.toList ws) :
    Prints (parenthesized wrap s).toList (inParens wrap ws) := by
  cases wrap with
  | false => exact h
  | true =>
    rw [parenthesized_toList]
    exact h.parens

theorem prints_braced {s : String} {ws : List Word} (h : Prints s.toList ws) :
    Prints (braced s).toList (inBraces ws) := by
  rw [braced_toList]
  exact h.braces

theorem prints_name {s : String} {kind : TokenKind} (hc : kind.hasContent = true)
    (hs : IsWord s.toList) (hk : Vocabulary.classify s = kind) : Prints s.toList [⟨kind, s⟩] := by
  refine prints_word fun rest hr => ?_
  rw [← Token.toWord_of_content (t := ⟨kind, s, .start⟩) hc]
  exact lexes_name hs hk hr.word

theorem infix_toList (l symbol r : String) :
    (l ++ " " ++ symbol ++ " " ++ r).toList =
      l.toList ++ ' ' :: (symbol.toList ++ ' ' :: r.toList) := by
  simp

theorem prints_operation {l r : String} {ws ws' : List Word} (op : Operator)
    (h : Prints l.toList ws) (h' : Prints r.toList ws') :
    Prints (l ++ " " ++ op.symbol ++ " " ++ r).toList (ws ++ sign op.kind :: ws') := by
  rw [infix_toList]
  refine h.infix h' (fun rest => lexes_operator op) fun rest => ?_
  cases op <;> exact breaks_blank (by decide) (by decide)

theorem prints_relation {l r : String} {ws ws' : List Word} (relation : Relation)
    (h : Prints l.toList ws) (h' : Prints r.toList ws') :
    Prints (l ++ " " ++ relation.symbol ++ " " ++ r).toList (ws ++ sign relation.kind :: ws') := by
  rw [infix_toList]
  refine h.infix h' (fun rest => lexes_relation relation) fun rest => ?_
  cases relation <;> exact breaks_blank (by decide) (by decide)

/-! ### Signs in front of literals -/

theorem signedWords_minus (kind : TokenKind) (literal : String) :
    signedWords kind ("-" ++ literal) = [sign .minus, ⟨kind, literal⟩] := by
  have hlist : ("-" ++ literal).toList = '-' :: literal.toList := by simp
  rw [signedWords, hlist]
  simp

theorem signedWords_digit (kind : TokenKind) {s : String}
    (h : ∃ c rest, s.toList = c :: rest ∧ c ≠ '-') : signedWords kind s = [⟨kind, s⟩] := by
  obtain ⟨c, rest, hs, hc⟩ := h
  rw [signedWords]
  split
  next heq => exact absurd (List.cons.inj (hs.symm.trans heq)).1 hc
  next => rfl

theorem prints_signed {kind : TokenKind} {s literal : String} (hs : s = literal ∨ s = "-" ++ literal)
    (hc : ∃ c rest, literal.toList = c :: rest ∧ c ≠ '-')
    (h : ∀ rest, Breaks rest → Lexes literal.toList ⟨kind, literal⟩ rest) :
    Prints s.toList (signedWords kind s) := by
  rcases hs with rfl | rfl
  · rw [signedWords_digit kind hc]
    exact prints_word h
  · have hlist : ("-" ++ literal).toList = '-' :: literal.toList := by simp
    rw [signedWords_minus, hlist]
    intro rest vs hr hs
    exact (hs.word (h rest hr)).single '-' .minus rfl rfl (by decide) rfl

theorem ne_minus_of_isDigit {cs : List Char} (h : ∃ c rest, cs = c :: rest ∧ c.isDigit = true) :
    ∃ c rest, cs = c :: rest ∧ c ≠ '-' := by
  obtain ⟨c, rest, hs, hc⟩ := h
  refine ⟨c, rest, hs, ?_⟩
  rintro rfl
  exact absurd hc (by decide)

theorem prints_duration {minutes : Float} {s : String} (h : IsDurationText minutes s) :
    Prints s.toList (signedWords .duration s) := by
  obtain ⟨-, literal, hl, hs⟩ := h
  refine prints_signed hs (ne_minus_of_isDigit hl.exists_cons) fun rest hr => ?_
  have hlex := lexes_duration hl hr
  rwa [String.ofList_toList] at hlex

theorem prints_number {x : Float} (h : Binary64.ofFloat x ≠ .nan) :
    Prints (plainText x).toList
      (signedWords (if x.isInf then .word else .number) (plainText x)) := by
  obtain ⟨negative, bits, hle, rfl⟩ := exists_signed h
  have hsign : ∀ t, signText negative ++ t = t ∨ signText negative ++ t = "-" ++ t := by
    intro t
    cases negative with
    | false => exact .inl (String.empty_append)
    | true => exact .inr rfl
  rcases Nat.lt_or_eq_of_le hle with hlt | rfl
  · have hfinite : (Binary64.signed negative bits).isInf = false := by
      rw [← Bool.not_eq_true, Binary64.isInf_signed hle]
      exact hlt.ne
    obtain ⟨t, d, ht, hplain, -, -⟩ := plainText_finite hlt negative
    rw [hfinite, ht]
    refine prints_signed (hsign t) (ne_minus_of_isDigit hplain.exists_cons) fun rest hr => ?_
    have hlex := lexes_number hplain hr
    rwa [String.ofList_toList] at hlex
  · rw [(Binary64.isInf_signed hle negative).2 rfl, plainText_infinite]
    refine prints_signed (hsign "inf") ⟨'i', ['n', 'f'], rfl, by decide⟩ fun rest hr => ?_
    exact lexes_name ⟨'i', ['n', 'f'], rfl, by decide, by decide⟩ rfl hr.word

/-! ### Arguments -/

theorem breaks_laterArguments (as : List Formula) (rest : List Char) :
    Breaks ((laterArgumentsText as).toList ++ ')' :: rest) := by
  cases as with
  | nil => exact breaks_cons (by decide) (by decide) (by decide)
  | cons a as =>
    rw [laterArgumentsText, String.toList_append, String.toList_append]
    exact breaks_cons (by decide) (by decide) (by decide)

theorem scans_laterArguments {as : List Formula}
    (h : ∀ a ∈ as, Prints (text a).toList (canonicalWords a)) {rest : List Char} {vs : List Word}
    (hs : Scans rest vs) : Scans ((laterArgumentsText as).toList ++ ')' :: rest)
      (laterArgumentsWords as ++ sign .rightParen :: vs) := by
  induction as with
  | nil => exact hs.single ')' .rightParen rfl rfl (by decide) rfl
  | cons a as ih =>
    rw [List.forall_mem_cons] at h
    have hlater := h.1 _ _ (breaks_laterArguments as rest) (ih h.2)
    have hcomma := (hlater.blank (c := ' ') rfl).single ',' .comma rfl rfl (by decide) rfl
    simpa [laterArgumentsText, laterArgumentsWords] using hcomma

theorem scans_arguments {as : List Formula}
    (h : ∀ a ∈ as, Prints (text a).toList (canonicalWords a)) {rest : List Char} {vs : List Word}
    (hs : Scans rest vs) : Scans ((argumentsText as).toList ++ ')' :: rest)
      (argumentsWords as ++ sign .rightParen :: vs) := by
  cases as with
  | nil => exact hs.single ')' .rightParen rfl rfl (by decide) rfl
  | cons a as =>
    rw [List.forall_mem_cons] at h
    have ha := h.1 _ _ (breaks_laterArguments as rest) (scans_laterArguments h.2 hs)
    simpa [argumentsText, argumentsWords] using ha

theorem prints_call {name : String} {kind : TokenKind} {as : List Formula}
    (hc : kind.hasContent = true) (hname : IsWord name.toList)
    (hk : Vocabulary.classify name = kind)
    (h : ∀ a ∈ as, Prints (text a).toList (canonicalWords a)) :
    Prints (name ++ "(" ++ argumentsText as ++ ")").toList
      (⟨kind, name⟩ :: sign .leftParen :: (argumentsWords as ++ [sign .rightParen])) := by
  intro rest vs _ hs
  have hopen := (scans_arguments h hs).single '(' .leftParen rfl rfl (by decide) rfl
  have hcall := prints_name hc hname hk _ _ (breaks_cons (by decide) (by decide) (by decide)) hopen
  simpa using hcall

/-! ### Conditionals -/

theorem lexes_ifKeyword (rest : List Char) : Lexes ['i', 'f'] (sign .ifWord) (' ' :: rest) := by
  refine lexes_name (s := "if") ⟨'i', ['f'], rfl, by decide, by decide⟩ rfl ?_
  rintro c hc
  cases hc
  rfl

theorem lexes_elseKeyword (rest : List Char) :
    Lexes ['e', 'l', 's', 'e'] (sign .elseWord) (' ' :: rest) := by
  refine lexes_name (s := "else") ⟨'e', ['l', 's', 'e'], rfl, by decide, by decide⟩ rfl ?_
  rintro c hc
  cases hc
  rfl

theorem prints_branch {c t : String} {ws ws' : List Word} (h : Prints c.toList ws)
    (h' : Prints t.toList ws') : Prints ("if (" ++ c ++ ") " ++ braced t).toList
      (sign .ifWord :: sign .leftParen :: (ws ++ sign .rightParen :: inBraces ws')) := by
  intro rest vs hr hs
  have hbranch := (prints_braced h' rest vs hr hs).blank (c := ' ') rfl
  have hclose := hbranch.single ')' .rightParen rfl rfl (by decide) rfl
  have hcondition := h _ _ (breaks_cons (by decide) (by decide) (by decide)) hclose
  have hopen := hcondition.single '(' .leftParen rfl rfl (by decide) rfl
  simpa using (hopen.blank (c := ' ') rfl).word (lexes_ifKeyword _)

theorem prints_otherwise {c e : String} {ws ws' : List Word} (h : Prints c.toList ws)
    (h' : Prints e.toList ws') :
    Prints (c ++ " else " ++ e).toList (ws ++ sign .elseWord :: ws') := by
  have hlist : (c ++ " else " ++ e).toList =
      c.toList ++ ' ' :: (['e', 'l', 's', 'e'] ++ ' ' :: e.toList) := by
    simp
  rw [hlist]
  exact h.infix h' lexes_elseKeyword fun rest => breaks_blank (by decide) (by decide)

/-! ### Formulas -/

theorem prints_primitive (p : Primitive) : Prints p.name.toList [⟨.primitive, p.name⟩] := by
  refine prints_name rfl ?_ ?_
  · cases p <;> exact ⟨_, _, rfl, by decide, by decide⟩
  · cases p <;> decide

theorem prints_direction (d : Direction) : Prints d.name.toList [⟨.direction, d.name⟩] := by
  refine prints_name rfl ?_ ?_
  · cases d <;> exact ⟨_, _, rfl, by decide, by decide⟩
  · cases d <;> decide

theorem prints_span (b : DaySpan) : Prints b.name.toList [⟨.base, b.name⟩] := by
  refine prints_name rfl ?_ ?_
  · cases b <;> exact ⟨_, _, rfl, by decide, by decide⟩
  · cases b <;> decide

theorem prints_circumstance (v : Circumstance) :
    Prints v.name.toList [⟨.circumstance, v.name⟩] := by
  refine prints_name rfl ?_ ?_
  · cases v <;> exact ⟨_, _, rfl, by decide, by decide⟩
  · cases v <;> decide

theorem prints_functionCall (function : BuiltIn) {as : List Formula}
    (h : ∀ a ∈ as, Prints (text a).toList (canonicalWords a)) (pos : Position) :
    Prints (text (call pos function as)).toList (canonicalWords (call pos function as)) := by
  rw [text, canonicalWords]
  refine prints_call rfl ?_ ?_ h
  · cases function <;> exact ⟨_, _, rfl, by decide, by decide⟩
  · cases function <;> decide

theorem prints_reference {key : String} (h : IsWord key.toList) :
    Prints ("@" ++ key).toList [⟨.reference, key⟩] := by
  refine prints_word fun rest hr => ?_
  have hlex := lexes_reference h hr
  rw [String.ofList_toList] at hlex
  simpa using hlex

/-- The canonical text of a legible formula prints its canonical words. -/
theorem prints_text {level : Level} {f : Formula} (h : Legible level f) :
    Prints (text f).toList (canonicalWords f) := by
  induction h with
  | primitive _ event => exact prints_primitive event
  | call pos function args _ ih => exact prints_functionCall function ih pos
  | binary _ op _ _ _ _ ihl ihr =>
    rw [text, canonicalWords]
    exact prints_operation op (prints_parenthesized _ ihl) (prints_parenthesized _ ihr)
  | duration _ _ _ h => exact prints_duration h
  | number _ _ h => exact prints_number h
  | string => exact prints_word fun rest _ => lexes_quoted _
  | reference _ _ h => exact prints_reference h
  | direction _ d => exact prints_direction d
  | span _ b => exact prints_span b
  | customSpan _ _ _ ih =>
    rw [text, canonicalWords]
    exact prints_call rfl ⟨'c', _, rfl, by decide, by decide⟩ (by decide) ih
  | ifThen _ _ _ _ _ ihc iht =>
    rw [text, canonicalWords]
    exact prints_branch ihc iht
  | ifElse _ _ _ e _ _ _ ihc iht ihe =>
    have helse : Prints (if isConditional e then text e else braced (text e)).toList
        (if isConditional e then canonicalWords e else inBraces (canonicalWords e)) := by
      split
      · exact ihe
      · exact prints_braced ihe
    rw [text, canonicalWords]
    simpa [List.append_assoc] using prints_otherwise (prints_branch ihc iht) helse
  | circumstance _ v => exact prints_circumstance v
  | bare _ _ ih | oneBoth _ _ ih | oneEither _ _ ih => exact ih
  | compared _ relation _ _ _ _ _ ihl ihr | both _ _ _ _ _ ihl ihr | either _ _ _ _ _ ihl ihr =>
    rw [text, canonicalWords]
    exact prints_relation _ (prints_parenthesized _ ihl) (prints_parenthesized _ ihr)

end Formula

end Sundial
