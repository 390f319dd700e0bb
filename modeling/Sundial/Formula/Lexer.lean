import Sundial.Formula.SyntaxFault
import Sundial.Text.Blank

/-!
# Tokens of a text

A text is cut into gaps and lexemes. A gap is a run of blanks, line comments and block comments; a
lexeme is the source of one token. Every splitter here returns what it takes and what is left, and
the two together are its input (`gap_append`, `Lexeme.read_append`), so the lexemes and gaps of a
text tile it. `tokens` places the lexemes in the text; a lexeme that is no token of the language
gets the kind `illegal`, which `tokenize` refuses.
-/

set_option autoImplicit false

namespace Sundial

/-! ## Gaps -/

/-- What a gap is in the middle of. -/
inductive GapState where
  | blank
  | lineComment
  | blockComment

/-- The gap at the front of a text and what follows it. -/
def splitGap : GapState → List Char → List Char × List Char
  | _, [] => ([], [])
  | .blank, '/' :: '/' :: cs =>
    let (gap, rest) := splitGap .lineComment cs
    ('/' :: '/' :: gap, rest)
  | .blank, '/' :: '*' :: cs =>
    let (gap, rest) := splitGap .blockComment cs
    ('/' :: '*' :: gap, rest)
  | .blank, c :: cs =>
    if Text.isBlank c then
      let (gap, rest) := splitGap .blank cs
      (c :: gap, rest)
    else ([], c :: cs)
  | .lineComment, c :: cs =>
    let (gap, rest) := splitGap (if c = '\n' then .blank else .lineComment) cs
    (c :: gap, rest)
  | .blockComment, '*' :: '/' :: cs =>
    let (gap, rest) := splitGap .blank cs
    ('*' :: '/' :: gap, rest)
  | .blockComment, c :: cs =>
    let (gap, rest) := splitGap .blockComment cs
    (c :: gap, rest)

theorem gap_append (s : GapState) (cs : List Char) :
    (splitGap s cs).1 ++ (splitGap s cs).2 = cs := by
  fun_induction splitGap s cs <;> simp_all

/-! ## Lexemes -/

/-- The source of one token. -/
structure Lexeme where
  kind : TokenKind
  literal : String
  source : List Char

def isWordStart (c : Char) : Bool := c.isAlpha || c = '_'
def isWordPart (c : Char) : Bool := c.isAlphanum || c = '_'

/-- A lexeme whose literal is its source. -/
def Lexeme.verbatim (kind : TokenKind) (source : List Char) : Lexeme :=
  ⟨kind, String.ofList source, source⟩

/-- The longest front of characters with the property, and the rest. -/
def splitRun (p : Char → Bool) (cs : List Char) : List Char × List Char :=
  (cs.takeWhile p, cs.dropWhile p)

@[simp] theorem splitRun_append (p : Char → Bool) (cs : List Char) :
    (splitRun p cs).1 ++ (splitRun p cs).2 = cs :=
  List.takeWhile_append_dropWhile

/-- Digits, and decimal places if a point and a digit follow. -/
def splitDigits (cs : List Char) : List Char × List Char :=
  let (whole, rest) := splitRun Char.isDigit cs
  match rest with
  | '.' :: d :: rest =>
    if d.isDigit then
      let (places, rest) := splitRun Char.isDigit (d :: rest)
      (whole ++ '.' :: places, rest)
    else (whole, '.' :: d :: rest)
  | rest => (whole, rest)

/-- The minutes after an hour mark: blanks, digits and the word `min`. Nothing is taken unless all
three are there. -/
def splitMinutes (cs : List Char) : List Char × List Char :=
  let (blanks, rest) := splitRun Text.isBlank cs
  let (digits, rest) := splitRun Char.isDigit rest
  let (unit, rest) := splitRun isWordPart rest
  if blanks ≠ [] ∧ digits ≠ [] ∧ unit = "min".toList then (blanks ++ digits ++ unit, rest)
  else ([], cs)

/-- A number, or a duration if a unit follows. -/
def splitNumber (cs : List Char) : Lexeme × List Char :=
  let (number, rest) := splitDigits cs
  let (unit, rest) := if (rest.head?.map isWordStart).getD false then splitRun isWordPart rest
    else ([], rest)
  if unit = [] then (.verbatim .number number, rest)
  else if unit = "min".toList ∨ unit = "hr".toList then (.verbatim .duration (number ++ unit), rest)
  else if unit = "h".toList then
    let (minutes, rest) := splitMinutes rest
    (.verbatim .duration (number ++ unit ++ minutes), rest)
  else (.verbatim .illegal (number ++ unit), rest)

/-- The character that an escape stands for. -/
def unescape (c : Char) : Char :=
  if c = 'n' then '\n' else if c = 't' then '\t' else c

/-- The inside of a string after its opening quote: the content, the source with the closing quote,
and the rest. A string that is never closed runs to the end of the text. -/
def splitString : List Char → List Char × List Char × List Char
  | [] => ([], [], [])
  | '"' :: cs => ([], ['"'], cs)
  | ['\\'] => ([], ['\\'], [])
  | '\\' :: c :: cs =>
    let (content, source, rest) := splitString cs
    (unescape c :: content, '\\' :: c :: source, rest)
  | c :: cs =>
    let (content, source, rest) := splitString cs
    (c :: content, c :: source, rest)

/-- The kinds of the tokens of one character. -/
def singleKind? : Char → Option TokenKind
  | '(' => some .leftParen
  | ')' => some .rightParen
  | '{' => some .leftBrace
  | '}' => some .rightBrace
  | ',' => some .comma
  | '+' => some .plus
  | '-' => some .minus
  | '*' => some .star
  | '/' => some .slash
  | _ => none

/-- For a character that may start an operator of two: the second character, the kind of both
together, and the kind of the first alone. -/
def pairKind? : Char → Option (Char × TokenKind × TokenKind)
  | '>' => some ('=', .greaterEqual, .greater)
  | '<' => some ('=', .lessEqual, .less)
  | '=' => some ('=', .equal, .illegal)
  | '!' => some ('=', .notEqual, .illegal)
  | '&' => some ('&', .both, .illegal)
  | '|' => some ('|', .either, .illegal)
  | _ => none

/-- The lexeme that starts with `c`, and what follows it. -/
def Lexeme.read (c : Char) (cs : List Char) : Lexeme × List Char :=
  match singleKind? c with
  | some kind => (.verbatim kind [c], cs)
  | none => match pairKind? c with
    | some (second, pair, alone) => match cs with
      | d :: rest => if d = second then (.verbatim pair [c, d], rest) else (.verbatim alone [c], cs)
      | [] => (.verbatim alone [c], [])
    | none =>
      if c = '@' then
        if (cs.head?.map isWordStart).getD false then
          let (key, rest) := splitRun isWordPart cs
          (⟨.reference, String.ofList key, c :: key⟩, rest)
        else (.verbatim .illegal [c], cs)
      else if c = '"' then
        let (content, source, rest) := splitString cs
        (⟨.string, String.ofList content, c :: source⟩, rest)
      else if c.isDigit then splitNumber (c :: cs)
      else if isWordStart c then
        let (word, rest) := splitRun isWordPart (c :: cs)
        (.verbatim (Vocabulary.classify (String.ofList word)) word, rest)
      else (.verbatim .illegal [c], cs)

/-! ## What the splitters keep -/

theorem splitDigits_append (cs : List Char) : (splitDigits cs).1 ++ (splitDigits cs).2 = cs := by
  have h := splitRun_append Char.isDigit cs
  unfold splitDigits
  generalize splitRun Char.isDigit cs = p at h
  obtain ⟨whole, rest⟩ := p
  dsimp only at h ⊢
  split
  · rename_i d rest
    split
    · have h' := splitRun_append Char.isDigit (d :: rest)
      rw [List.append_assoc, List.cons_append, h', h]
    · exact h
  · exact h

theorem splitMinutes_append (cs : List Char) : (splitMinutes cs).1 ++ (splitMinutes cs).2 = cs := by
  unfold splitMinutes
  dsimp only
  split
  · rw [List.append_assoc, splitRun_append, List.append_assoc, splitRun_append, splitRun_append]
  · rfl

theorem splitNumber_append (cs : List Char) :
    (splitNumber cs).1.source ++ (splitNumber cs).2 = cs := by
  have h := splitDigits_append cs
  unfold splitNumber
  generalize splitDigits cs = p at h
  obtain ⟨number, rest⟩ := p
  dsimp only at h ⊢
  have hu : ∀ b : Bool, (if b then splitRun isWordPart rest else ([], rest)).1 ++
      (if b then splitRun isWordPart rest else ([], rest)).2 = rest := by
    intro b; cases b
    · rfl
    · exact splitRun_append _ _
  have hu := hu ((rest.head?.map isWordStart).getD false)
  generalize (if ((rest.head?.map isWordStart).getD false) = true then splitRun isWordPart rest
    else ([], rest)) = q at hu
  obtain ⟨unit, tail⟩ := q
  dsimp only at hu ⊢
  have hm := splitMinutes_append tail
  split
  · rename_i h0
    simp only [h0, List.nil_append] at hu
    simp only [Lexeme.verbatim, hu, h]
  · split
    · simp only [Lexeme.verbatim, List.append_assoc, hu, h]
    · split
      · simp only [Lexeme.verbatim, List.append_assoc, hm, hu, h]
      · simp only [Lexeme.verbatim, List.append_assoc, hu, h]

theorem splitString_append (cs : List Char) :
    (splitString cs).2.1 ++ (splitString cs).2.2 = cs := by
  fun_induction splitString cs <;> simp_all

theorem Lexeme.read_append (c : Char) (cs : List Char) :
    (Lexeme.read c cs).1.source ++ (Lexeme.read c cs).2 = c :: cs := by
  unfold Lexeme.read
  split
  · rfl
  · split
    · split
      · split <;> rfl
      · rfl
    · split
      · split
        · simp only [List.cons_append, splitRun_append]
        · rfl
      · split
        · simp only [List.cons_append, splitString_append]
        · split
          · exact splitNumber_append _
          · split
            · simp only [Lexeme.verbatim, splitRun_append]
            · rfl

/-! ## Tokens -/

/-- Digits are not lost before the unit: a number's source is never empty if it starts with one. -/
theorem splitDigits_ne_nil {c : Char} {cs : List Char} (h : c.isDigit = true) :
    (splitDigits (c :: cs)).1 ≠ [] := by
  unfold splitDigits splitRun
  rw [List.takeWhile_cons, if_pos h]
  dsimp only
  split
  · split <;> simp
  · simp

theorem splitNumber_source_ne_nil {c : Char} {cs : List Char} (h : c.isDigit = true) :
    (splitNumber (c :: cs)).1.source ≠ [] := by
  have h0 := @splitDigits_ne_nil c cs h
  unfold splitNumber
  dsimp only
  repeat' split
  all_goals simp [Lexeme.verbatim, h0]

/-- A lexeme has at least one character. -/
theorem Lexeme.read_source_ne_nil (c : Char) (cs : List Char) :
    (Lexeme.read c cs).1.source ≠ [] := by
  unfold Lexeme.read
  split
  · simp [Lexeme.verbatim]
  · split
    · split
      · split <;> simp [Lexeme.verbatim]
      · simp [Lexeme.verbatim]
    · split
      · split <;> simp [Lexeme.verbatim]
      · split
        · simp
        · split
          · rename_i h; exact splitNumber_source_ne_nil h
          · split
            · rename_i h
              have hp : isWordPart c = true := by
                simp only [isWordStart, Bool.or_eq_true] at h
                simp only [isWordPart, Char.isAlphanum, Bool.or_eq_true]
                rcases h with h | h
                · exact Or.inl (Or.inl h)
                · exact Or.inr h
              simp [Lexeme.verbatim, splitRun, hp]
            · simp [Lexeme.verbatim]

theorem Lexeme.read_length (c : Char) (cs : List Char) :
    (Lexeme.read c cs).2.length ≤ cs.length := by
  have h := congrArg List.length (Lexeme.read_append c cs)
  have h0 : 0 < (Lexeme.read c cs).1.source.length :=
    List.length_pos_iff.2 (Lexeme.read_source_ne_nil c cs)
  simp only [List.length_append, List.length_cons] at h
  omega

theorem splitGap_length (s : GapState) (cs : List Char) : (splitGap s cs).2.length ≤ cs.length := by
  have h := congrArg List.length (gap_append s cs)
  simp only [List.length_append] at h
  omega

/-- The tokens of a text that begins at `pos`; the last one marks its end. -/
def tokensFrom (pos : Position) (cs : List Char) : List Token :=
  let start := pos.advance (splitGap .blank cs).1
  match _eq : (splitGap .blank cs).2 with
  | [] => [⟨.finish, "", start⟩]
  | c :: rest =>
    let read := Lexeme.read c rest
    ⟨read.1.kind, read.1.literal, start⟩ :: tokensFrom (start.advance read.1.source) read.2
termination_by cs.length
decreasing_by
  have h1 := splitGap_length .blank cs
  have h2 := Lexeme.read_length c rest
  rw [_eq, List.length_cons] at h1
  omega

/-- Every token of a text, illegal ones included. -/
def tokens (text : String) : List Token :=
  tokensFrom .start text.toList

/-- Why an illegal token is refused. -/
def illegalFault (literal : String) : SyntaxFault :=
  if literal = "@" then .keyMissing
  else if ["=", "!", "&", "|"].contains literal then .halfOperator literal
  else if (literal.toList.head?.map Char.isDigit).getD false then .badUnit literal
  else .strayCharacter literal

/-- The tokens of a text, unless one of them is illegal; the first such one is reported. -/
def tokenize (text : String) : Except SyntaxError (List Token) :=
  let ts := tokens text
  match ts.find? fun t => t.kind = .illegal with
  | some t => .error ⟨illegalFault t.literal, t.pos⟩
  | none => .ok ts

end Sundial
