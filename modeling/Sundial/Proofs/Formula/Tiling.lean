import Sundial.Proofs.Formula.Gaps

/-!
# Tokens tile their text

Every token but the last is read from a piece of the text, its source. The sources follow one
another with gaps around them, so that nothing is lost and nothing is read twice, each token stands
where its source starts, and its literal is the source, apart from the mark of a reference and the
quotes and escapes of a string: `tokens_tile`.
-/

set_option autoImplicit false

namespace Sundial

variable {atEnd : Prop} {cs : List Char} {c : Char}

/-! ## Positions -/

/-- The position right behind a text: lines are counted by line feeds, and columns by the characters
behind the last of them. -/
def Position.behind (cs : List Char) : Position :=
  ⟨1 + cs.count '\n', 1 + (cs.reverse.takeWhile (· ≠ '\n')).length⟩

theorem Position.behind_snoc (cs : List Char) (c : Char) :
    behind (cs ++ [c]) = (behind cs).step c := by
  by_cases hc : c = '\n'
  · subst hc
    simp [behind, step, Nat.add_assoc]
  · simp [behind, step, hc, Nat.add_assoc]

theorem Position.behind_append (as bs : List Char) : behind (as ++ bs) = (behind as).advance bs := by
  induction bs generalizing as with
  | nil => simp
  | cons b bs ih => rw [advance_cons, ← behind_snoc, ← ih, List.append_assoc, List.singleton_append]

/-! ## Literals -/

/-- The source of a string behind its opening quote, and what it stands for. The closing quote is
missing only at the end of a text. -/
inductive Quotes (atEnd : Prop) : List Char → List Char → Prop where
  | close : Quotes atEnd ['"'] []
  | unclosed (hend : atEnd) : Quotes atEnd [] []
  | unescaped (hend : atEnd) : Quotes atEnd ['\\'] []
  | escape (c : Char) {source content : List Char} (h : Quotes atEnd source content) :
      Quotes atEnd ('\\' :: c :: source) (unescape c :: content)
  | plain {c : Char} {source content : List Char} (hquote : c ≠ '"') (hescape : c ≠ '\\')
      (h : Quotes atEnd source content) : Quotes atEnd (c :: source) (c :: content)

theorem quotes_splitString (cs : List Char) :
    Quotes ((splitString cs).2.2 = []) (splitString cs).2.1 (splitString cs).1 := by
  fun_induction splitString cs with
  | case1 => exact .unclosed rfl
  | case2 => exact .close
  | case3 => exact .unescaped rfl
  | case4 c cs content source rest heq ih =>
    rw [heq] at ih
    exact .escape c ih
  | case5 c cs hquote hlone hescape content source rest heq ih =>
    rw [heq] at ih
    refine .plain hquote ?_ ih
    rintro rfl
    cases cs with
    | nil => exact hlone rfl rfl
    | cons d cs => exact hescape d cs rfl rfl

/-- The literal is the source, but for the mark of a reference, and for strings, which stand for
their content. -/
def Lexeme.Spelled (atEnd : Prop) (l : Lexeme) : Prop :=
  match l.kind with
  | .reference => l.source = '@' :: l.literal.toList
  | .string => ∃ quoted, l.source = '"' :: quoted ∧ Quotes atEnd quoted l.literal.toList
  | _ => l.source = l.literal.toList

/-- The kinds whose literal is the source. -/
def TokenKind.isVerbatim (kind : TokenKind) : Bool :=
  kind ≠ .finish && kind ≠ .string && kind ≠ .reference

theorem singleKind?_isVerbatim {kind : TokenKind} (h : singleKind? c = some kind) :
    kind.isVerbatim = true := by
  unfold singleKind? at h
  split at h <;> cases h <;> rfl

theorem pairKind?_isVerbatim {second : Char} {pair alone : TokenKind}
    (h : pairKind? c = some (second, pair, alone)) :
    pair.isVerbatim = true ∧ alone.isVerbatim = true := by
  unfold pairKind? at h
  split at h <;> cases h <;> exact ⟨rfl, rfl⟩

theorem classify_isVerbatim (w : String) : (Vocabulary.classify w).isVerbatim = true := by
  rw [Vocabulary.classify]
  split_ifs <;> rfl

namespace Lexeme

/-- The lexeme is no end of the text, and its literal comes from its source. -/
structure Proper (atEnd : Prop) (l : Lexeme) : Prop where
  kind : l.kind ≠ .finish
  spelled : l.Spelled atEnd

theorem proper_verbatim {kind : TokenKind} (h : kind.isVerbatim = true) (source : List Char) :
    (Lexeme.verbatim kind source).Proper atEnd where
  kind := by
    intro hfinish
    rw [show kind = .finish from hfinish] at h
    cases h
  spelled := by
    have hsource : source = (String.ofList source).toList := String.toList_ofList.symm
    cases kind <;> first | exact hsource | cases h

theorem proper_splitNumber (cs : List Char) : (splitNumber cs).1.Proper atEnd := by
  unfold splitNumber
  dsimp only
  split_ifs <;> exact proper_verbatim rfl _

/-- Whatever a text starts with, the lexeme that is read has its literal from its source. -/
theorem proper_read (c : Char) (cs : List Char) :
    (Lexeme.read c cs).1.Proper ((Lexeme.read c cs).2 = []) := by
  rw [Lexeme.read]
  split
  next hk => exact proper_verbatim (singleKind?_isVerbatim hk) _
  next =>
    split
    next hk =>
      obtain ⟨hpair, halone⟩ := pairKind?_isVerbatim hk
      split
      · split
        · exact proper_verbatim hpair _
        · exact proper_verbatim halone _
      · exact proper_verbatim halone _
    next =>
      split_ifs with hat hstart hquote
      · have hsource : c :: (splitRun isWordPart cs).1 =
            '@' :: (String.ofList (splitRun isWordPart cs).1).toList := by
          rw [hat, String.toList_ofList]
        exact ⟨TokenKind.noConfusion, hsource⟩
      · exact proper_verbatim rfl _
      · have hquotes := quotes_splitString cs
        rw [← String.toList_ofList (l := (splitString cs).1)] at hquotes
        exact ⟨TokenKind.noConfusion, _, by rw [hquote], hquotes⟩
      · exact proper_splitNumber _
      · exact proper_verbatim (classify_isVerbatim _) _
      · exact proper_verbatim rfl _

end Lexeme

/-! ## Tiles -/

/-- A token and where its source stands in a text: the characters from `start` up to `stop`. -/
structure Tile where
  token : Token
  start : Nat
  stop : Nat

/-- The characters of a text from one offset up to another. -/
def slice (text : List Char) (start stop : Nat) : List Char := (text.take stop).drop start

theorem slice_append (before middle after : List Char) :
    slice (before ++ (middle ++ after)) before.length (before ++ middle).length = middle := by
  rw [slice, ← List.append_assoc, List.take_left, List.drop_left]

/-- From the offset on a text is made of gaps and of tiles, in turn, up to its end. -/
inductive Tiling (text : List Char) : Nat → List Tile → Prop where
  | finish {offset : Nat} (hgap : IsGap True (text.drop offset)) : Tiling text offset []
  | tile {offset : Nat} {t : Tile} {ts : List Tile}
      (hgap : IsGap False (slice text offset t.start)) (hstart : offset ≤ t.start)
      (hsource : t.start < t.stop) (hstop : t.stop ≤ text.length) (h : Tiling text t.stop ts) :
      Tiling text offset (t :: ts)

/-- The token stands where its source starts in the text, and has its literal from it. -/
structure Tile.Reads (text : List Char) (t : Tile) : Prop where
  pos : t.token.pos = .behind (text.take t.start)
  proper : Lexeme.Proper (t.stop = text.length)
    ⟨t.token.kind, t.token.literal, slice text t.start t.stop⟩

section Tiling

variable {text : List Char} {offset : Nat} {tiles : List Tile}

theorem Tiling.le_start (h : Tiling text offset tiles) : ∀ t ∈ tiles, offset ≤ t.start := by
  induction h with
  | finish => simp
  | tile _ hstart hsource _ _ ih =>
    refine List.forall_mem_cons.2 ⟨hstart, fun t ht => ?_⟩
    have := ih t ht
    omega

/-- Tiles do not overlap, and no two start together. -/
theorem Tiling.pairwise (h : Tiling text offset tiles) :
    tiles.Pairwise fun s t => s.start < t.start ∧ s.stop ≤ t.start := by
  induction h with
  | finish => exact .nil
  | tile _ _ hsource _ h ih =>
    refine .cons (fun t ht => ?_) ih
    have := h.le_start t ht
    omega

/-- There are no more tiles than characters. -/
theorem Tiling.length_le (h : Tiling text offset tiles) (hoffset : offset ≤ text.length) :
    offset + tiles.length ≤ text.length := by
  induction h with
  | finish => simpa using hoffset
  | tile _ hstart hsource hstop _ ih =>
    have := ih hstop
    rw [List.length_cons]
    omega

end Tiling

/-! ### A text put together -/

section Pieces

variable {before gap source after : List Char} {tiles : List Tile}

theorem tiling_gap (before : List Char) (hgap : IsGap True gap) :
    Tiling (before ++ gap) before.length [] := by
  have htail : (before ++ gap).drop before.length = gap := List.drop_left
  rw [← htail] at hgap
  exact .finish hgap

/-- A tile behind a gap, and the tiles behind its source. -/
theorem Tiling.cons (h : Tiling (before ++ gap ++ source ++ after) (before ++ gap ++ source).length
      tiles) (hgap : IsGap False gap) (hsource : source ≠ []) (token : Token) :
    Tiling (before ++ gap ++ source ++ after) before.length
      (⟨token, (before ++ gap).length, (before ++ gap ++ source).length⟩ :: tiles) := by
  have hlength := List.length_pos_iff.2 hsource
  refine .tile ?_ ?_ ?_ ?_ h
  · rw [List.append_assoc (before ++ gap), List.append_assoc before, slice_append]
    exact hgap
  all_goals
    simp only [List.length_append]
    omega

/-- A lexeme that stands in a text where its token says. -/
theorem Lexeme.Proper.reads {l : Lexeme} (h : l.Proper (after = [])) (before : List Char) :
    Tile.Reads (before ++ l.source ++ after)
      ⟨⟨l.kind, l.literal, .behind before⟩, before.length, (before ++ l.source).length⟩ where
  pos := by rw [List.append_assoc, List.take_left]
  proper := by
    have hend : (before ++ l.source).length = (before ++ l.source ++ after).length ↔
        after = [] := by simp
    dsimp only
    rw [hend, List.append_assoc, slice_append]
    exact h

end Pieces

/-! ## Tokens -/

/-- The tokens from a place in a text on tile the text from there. -/
theorem exists_tiling (before cs : List Char) : ∃ tiles : List Tile,
    tokensFrom (.behind before) cs =
        tiles.map Tile.token ++ [⟨.finish, "", .behind (before ++ cs)⟩] ∧
      Tiling (before ++ cs) before.length tiles ∧ ∀ t ∈ tiles, t.Reads (before ++ cs) := by
  generalize hpos : Position.behind before = pos
  induction pos, cs using tokensFrom.induct generalizing before with
  | case1 pos cs heq =>
    have hsplit : splitGap .blank cs = ((splitGap .blank cs).1, []) := Prod.ext rfl heq
    obtain ⟨hgap, hcs⟩ := isGap_of_splitGap hsplit
    rw [List.append_nil] at hcs
    rw [← hcs] at hgap hsplit
    refine ⟨[], ?_, tiling_gap before (hgap.mono fun _ => trivial), by simp⟩
    rw [tokensFrom_of_end hsplit, ← hpos, Position.behind_append]
    rfl
  | case2 pos cs start c rest heq read ih =>
    have hsplit : splitGap .blank cs = ((splitGap .blank cs).1, c :: rest) := Prod.ext rfl heq
    obtain ⟨hgap, hcs⟩ := isGap_of_splitGap hsplit
    have hstart : start = .behind (before ++ (splitGap .blank cs).1) := by
      rw [Position.behind_append, hpos]
    have htokens : tokensFrom pos cs = ⟨read.1.kind, read.1.literal, start⟩ ::
        tokensFrom (start.advance read.1.source) read.2 := tokensFrom_of_gap hsplit pos
    generalize (splitGap .blank cs).1 = gap at hgap hcs hstart
    have hsource : read.1.source ≠ [] := Lexeme.read_source_ne_nil c rest
    have hproper : read.1.Proper (read.2 = []) := Lexeme.proper_read c rest
    have htext : before ++ cs = before ++ gap ++ read.1.source ++ read.2 := by
      rw [hcs, ← Lexeme.read_append c rest]
      simp [read]
    obtain ⟨tiles, htiles, htiling, hreads⟩ := ih (before ++ gap ++ read.1.source)
      (by rw [Position.behind_append, ← hstart])
    rw [htext]
    refine ⟨_ :: tiles, ?_, htiling.cons (hgap.mono fun hnil => by cases hnil) hsource _,
      List.forall_mem_cons.2 ⟨hproper.reads (before ++ gap), hreads⟩⟩
    rw [htokens, htiles, hstart]
    rfl

end Sundial
