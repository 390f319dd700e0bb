import Sundial.Command.Dialogue
import Sundial.Proofs.Grammar.References

/-!
# Finished and unfinished input

A text waits for another line exactly if it opens more parentheses or braces than it closes and has
no illegal token (`isComplete_eq_false_iff`). In the words of a derivation every parenthesis and
every brace that is opened is closed, but for the one parenthesis that arguments close for their
call: `behind_words`. So the text of a formula never waits for another line
(`isComplete_of_parse`).
-/

set_option autoImplicit false

namespace Sundial

open Word Grammar

namespace Depth

variable {d : Depth} {w : Word} {ws vs : List Word}

/-! ## The depth behind words -/

/-- The depth behind the words. -/
def behind (d : Depth) (ws : List Word) : Depth := ws.foldl (fun d w => d.step w.kind) d

@[simp] theorem behind_nil : d.behind [] = d := rfl

@[simp] theorem behind_cons : d.behind (w :: ws) = (d.step w.kind).behind ws := rfl

@[simp] theorem behind_append : d.behind (ws ++ vs) = (d.behind ws).behind vs := List.foldl_append

@[simp] theorem step_operator (op : Operator) : d.step op.kind = d := by
  cases op <;> rfl

@[simp] theorem step_relation (relation : Relation) : d.step relation.kind = d := by
  cases relation <;> rfl

/-- The end mark ends the count, and no other word of the language does. -/
theorem after_of_words {ts : List Token} (h : ts.map Token.toWord = ws ++ [sign .finish])
    (hws : ∀ w ∈ ws, w.kind ≠ .illegal ∧ w.kind ≠ .finish) : d.after ts = some (d.behind ws) := by
  induction ws generalizing ts d with
  | nil =>
    obtain ⟨t, rfl, ht⟩ := List.map_eq_singleton_iff.1 h
    have hkind : t.kind = .finish := congrArg Word.kind ht
    simp [after, hkind]
  | cons w ws ih =>
    obtain ⟨t, ts, rfl, rfl, hts⟩ := List.map_eq_cons_iff.1 h
    obtain ⟨⟨hillegal, hfinish⟩, hws⟩ := List.forall_mem_cons.1 hws
    have hstep : d.after (t :: ts) = (d.step t.kind).after ts :=
      (if_neg hillegal).trans (if_neg hfinish)
    rw [hstep]
    exact ih hts hws

/-! ## Derivations -/

/-- The depth that the words of a symbol lead to: arguments close the parenthesis of their call. -/
def closing (d : Depth) : Symbol → Depth
  | .arguments | .argumentList => d.step .rightParen
  | _ => d

theorem step_leaf {f : Formula} (h : leaf? .formula w = some f) : d.step w.kind = d := by
  obtain ⟨kind, literal⟩ := w
  cases kind <;> first | rfl | cases h

theorem step_negative {f : Formula} (h : negative? .formula w = some f) : d.step w.kind = d := by
  obtain ⟨kind, literal⟩ := w
  cases kind <;> first | rfl | cases h

/-- What a derivation opens it closes. -/
theorem behind_words {X : Symbol} (t : Derivation .formula X) (d : Depth) :
    d.behind t.words = d.closing X := by
  induction t generalizing d with
  | leaf w f h => exact step_leaf h
  | negative w f h => exact step_negative h
  -- What a production opens it closes, but for the parenthesis that arguments close for their call.
  | call | customCall | circumstanceCall | group | conditional | elseBranch | noArguments
  | someArguments | lastArgument | moreArguments | custom | circumstance | elseIf | orElse
  | andAlso => simp_all [closing, step]
  | _ => simp_all [closing]

end Depth

/-! ## Unfinished input -/

/-- How many tokens are of the kind. -/
def countKind (kind : TokenKind) (ts : List Token) : Nat := ts.countP fun t => t.kind = kind

theorem countKind_cons (kind : TokenKind) (t : Token) (ts : List Token) :
    countKind kind (t :: ts) = countKind kind ts + if t.kind = kind then 1 else 0 := by
  simp [countKind, List.countP_cons]

/-- What is open behind the tokens has been opened in them and not closed. -/
theorem Depth.after_eq_some {ts : List Token} {last : Token} (d : Depth)
    (hts : ∀ t ∈ ts, t.kind ≠ .finish) (hlast : last.kind = .finish)
    (hlegal : ∀ t ∈ ts ++ [last], t.kind ≠ .illegal) : d.after (ts ++ [last]) = some
      ⟨d.parentheses + countKind .leftParen (ts ++ [last]) - countKind .rightParen (ts ++ [last]),
        d.braces + countKind .leftBrace (ts ++ [last]) - countKind .rightBrace (ts ++ [last])⟩ := by
  induction ts generalizing d with
  | nil => simp [after, hlast, countKind]
  | cons t ts ih =>
    rw [List.cons_append] at hlegal ⊢
    rw [List.forall_mem_cons] at hts hlegal
    have hstep : d.after (t :: (ts ++ [last])) = (d.step t.kind).after (ts ++ [last]) :=
      (if_neg hlegal.1).trans (if_neg hts.1)
    rw [hstep, ih (d.step t.kind) hts.2 hlegal.2]
    simp only [countKind_cons]
    cases t.kind <;> simp [step] <;> omega

theorem Depth.after_eq_none {ts : List Token} {last : Token} (d : Depth)
    (hts : ∀ t ∈ ts, t.kind ≠ .finish) (h : ∃ t ∈ ts ++ [last], t.kind = .illegal) :
    d.after (ts ++ [last]) = none := by
  induction ts generalizing d with
  | nil =>
    have hlast : last.kind = .illegal := by simpa using h
    simp [after, hlast]
  | cons t ts ih =>
    rw [List.forall_mem_cons] at hts
    rw [List.cons_append, List.exists_mem_cons_iff] at h
    rw [List.cons_append, after, if_neg hts.1]
    split
    · rfl
    next hlegal => exact ih _ hts.2 (h.resolve_left hlegal)

/-- The end mark of a text is its last token and no other. -/
theorem exists_tokens_eq (text : String) : ∃ ts last, tokens text = ts ++ [last] ∧
    last.kind = .finish ∧ ∀ t ∈ ts, t.kind ≠ .finish := by
  obtain ⟨tiles, htokens, -, hreads⟩ := exists_tiling [] text.toList
  refine ⟨tiles.map Tile.token, _, htokens, rfl, ?_⟩
  intro t ht
  obtain ⟨tile, htile, rfl⟩ := List.mem_map.1 ht
  exact (hreads tile htile).proper.kind

/-- The text has no illegal token and opens more parentheses than it closes, or more braces. -/
def LeavesOpen (text : String) : Prop :=
  (∀ t ∈ tokens text, t.kind ≠ .illegal) ∧
    (countKind .rightParen (tokens text) < countKind .leftParen (tokens text) ∨
      countKind .rightBrace (tokens text) < countKind .leftBrace (tokens text))

/-- **A text waits for another line** exactly if it leaves something open. -/
theorem isComplete_eq_false_iff {text : String} : isComplete text = false ↔ LeavesOpen text := by
  obtain ⟨ts, last, htokens, hlast, hts⟩ := exists_tokens_eq text
  rw [isComplete, LeavesOpen, htokens]
  by_cases hlegal : ∀ t ∈ ts ++ [last], t.kind ≠ .illegal
  · rw [Depth.after_eq_some .zero hts hlast hlegal, and_iff_right hlegal]
    simp only [Depth.zero, zero_add, Option.map_some, Depth.isClosed, tsub_le_iff_right,
      Nat.cast_le, Option.getD_some, Bool.and_eq_false_imp, decide_eq_true_eq,
      decide_eq_false_iff_not, not_le]
    omega
  · have hillegal : ∃ t ∈ ts ++ [last], t.kind = .illegal := by
      push Not at hlegal
      exact hlegal
    rw [Depth.after_eq_none .zero hts hillegal]
    exact iff_of_false (by simp) fun h => hlegal h.1

example : isComplete "midpoint(sunrise,\n" = false := by decide +kernel

/-- A line that leaves the formula open is kept, and nothing is said to it. -/
theorem Dialogue.answer_of_leavesOpen {d : Dialogue} {text : String}
    (hline : d.pending = "" → Text.trim text ≠ "" ∧ (Text.trim text).startsWith ":" = false)
    (h : LeavesOpen (d.pending ++ text)) :
    d.answer text = ⟨[], some { d with pending := d.pending ++ text }⟩ := by
  have hcommand : ¬(d.pending = "" ∧ (Text.trim text).startsWith ":" = true) :=
    fun h => Bool.false_ne_true ((hline h.1).2.symm.trans h.2)
  rw [answer]
  dsimp only
  rw [if_neg fun h => (hline h.1).1 h.2, if_neg hcommand, isComplete_eq_false_iff.2 h]
  rfl

/-! ## Finished input -/

/-- A text that is read is finished input: no token is illegal, and all parentheses and braces that
are opened are closed, none too many. -/
theorem Formula.isComplete_of_parse {source : String} {f : Formula} (h : parse source = .ok f) :
    isComplete source = true ∧ Depth.zero.after (tokens source) = some .zero ∧
      ∀ t ∈ tokens source, t.kind ≠ .illegal := by
  obtain ⟨d, -, hwords⟩ := exists_derivation_of_parse h
  obtain ⟨ts, hts, -⟩ := parse_eq_ok.1 h
  obtain ⟨rfl, hlegal⟩ := tokenize_eq_ok_iff.1 hts
  have hafter : Depth.zero.after (tokens source) = some .zero := by
    rw [Depth.after_of_words hwords d.kind_of_mem_words, Depth.behind_words]
    rfl
  refine ⟨?_, hafter, hlegal⟩
  rw [isComplete, hafter]
  rfl

/-- Delimiters in a string and in comments do not count, nor do the parentheses of a circumstance
that is written as a call leave anything open. -/
def hiddenDelimiters : String :=
  "if (elevation() > (800) && \")\" != season) \x7b midpoint(sunrise, (sunset)) /* ( */ \x7d " ++
    "else \x7b sunset // \x7b\n\x7d"

theorem Formula.isComplete_hiddenDelimiters : ∃ f, parse hiddenDelimiters = .ok f ∧
    isComplete hiddenDelimiters = true ∧
    Depth.zero.after (tokens hiddenDelimiters) = some .zero ∧
    ∀ t ∈ tokens hiddenDelimiters, t.kind ≠ .illegal := by
  have hread : (parse hiddenDelimiters).toOption.map (fun _ => ()) = some () := by
    decide +kernel
  obtain ⟨f, hf, -⟩ := exists_parse hread
  exact ⟨f, hf, isComplete_of_parse hf⟩

end Sundial
