import Sundial.Proofs.Formula.Tiling
import Sundial.Proofs.Printing.RoundTrip

/-!
# References in reading order

Every reference token of a text becomes one reference of the formula that the text writes, and the
references of a formula are met in the order of their tokens: `tells_formula` says so of every
derivation. So the keys that a formula refers to can be read off the tokens of its text
(`references_of_parse`).
-/

set_option autoImplicit false

namespace Sundial

open Word Grammar

/-! ## The words of a text -/

/-- A text ends with its only end mark. -/
theorem map_toWord_tokensFrom (pos : Position) (cs : List Char) :
    (tokensFrom pos cs).map Token.toWord =
      Formula.wordsBeforeFinish (tokensFrom pos cs) ++ [sign .finish] := by
  induction pos, cs using tokensFrom.induct with
  | case1 pos cs heq =>
    have hgap : splitGap .blank cs = ((splitGap .blank cs).1, []) := Prod.ext rfl heq
    rw [tokensFrom_of_end hgap]
    rfl
  | case2 pos cs start c rest heq read ih =>
    have hgap : splitGap .blank cs = ((splitGap .blank cs).1, c :: rest) := Prod.ext rfl heq
    have hkind : read.1.kind ≠ .finish := (Lexeme.proper_read c rest).kind
    have hbefore : ∀ t : Token, t.kind = read.1.kind → ∀ ts,
        Formula.wordsBeforeFinish (t :: ts) = t.toWord :: Formula.wordsBeforeFinish ts := by
      intro t ht ts
      simp [Formula.wordsBeforeFinish, ht, hkind]
    rw [tokensFrom_of_gap hgap, List.map_cons, hbefore, List.cons_append, ← ih]
    rfl

namespace Formula

variable {source : String} {f : Formula}

/-- The words of a text that is read, up to the end mark, have a derivation that stands for what is
read. -/
theorem exists_derivation_of_parse (h : parse source = .ok f) :
    ∃ d : Derivation .formula .expression, d.formula = f.unplaced ∧
      (tokens source).map Token.toWord = d.words ++ [sign .finish] := by
  obtain ⟨ts, hts, hread⟩ := parse_eq_ok.1 h
  obtain ⟨rfl, -⟩ := tokenize_eq_ok_iff.1 hts
  obtain ⟨d, hwords, hd⟩ := exists_derivation hread
  refine ⟨d, hd, ?_⟩
  rw [hwords]
  exact map_toWord_tokensFrom _ _

end Formula

/-! ## Keys -/

/-- The keys of the references among the words. -/
def Word.keys (ws : List Word) : List String :=
  (ws.filter fun w => w.kind = .reference).map Word.literal

section Keys

variable {w : Word} {ws vs : List Word}

@[simp] theorem Word.keys_nil : keys [] = [] := rfl

@[simp] theorem Word.keys_append : keys (ws ++ vs) = keys ws ++ keys vs := by
  simp [keys]

@[simp] theorem Word.keys_cons :
    keys (w :: ws) = if w.kind = .reference then w.literal :: keys ws else keys ws := by
  by_cases h : w.kind = .reference <;> simp [keys, h]

/-- The keys of words are those of the reference tokens that they are written with. -/
theorem Word.keys_map_toWord (ts : List Token) : keys (ts.map Token.toWord) =
    (ts.filter fun t => t.kind = .reference).map Token.literal := by
  induction ts with
  | nil => rfl
  | cons t ts ih =>
    obtain ⟨kind, literal, pos⟩ := t
    by_cases h : kind = .reference
    · subst h
      simp [Token.toWord, ih, TokenKind.hasContent]
    · simp [Token.toWord, ih, h]

@[simp] theorem Operator.kind_ne_reference (op : Operator) : op.kind ≠ .reference := by
  cases op <;> decide

@[simp] theorem Relation.kind_ne_reference (relation : Relation) : relation.kind ≠ .reference := by
  cases relation <;> decide

end Keys

/-! ## What derivations mention -/

namespace Formula

/-- What stands for a symbol mentions the keys, behind those of what it is still waiting for. -/
def Tells : (X : Symbol) → X.Meaning → List String → Prop
  | .expression, f, ks | .term, f, ks | .factor, f, ks | .conditional, f, ks | .either, f, ks
  | .both, f, ks | .comparison, f, ks | .side, f, ks => mentions f = ks
  | .sums, g, ks | .products, g, ks | .eithers, g, ks | .boths, g, ks =>
    ∀ left, mentions (g left) = mentions left ++ ks
  | .arguments, as, ks | .argumentList, as, ks => mentionsAll as = ks
  | .otherwise, g, ks => ∀ c t, mentions (g c t) = mentions c ++ mentions t ++ ks

theorem mentions_leaf {w : Word} {g : Formula} (h : leaf? .formula w = some g) :
    mentions g = keys [w] := by
  obtain ⟨kind, literal⟩ := w
  cases kind <;> simp only [leaf?, Option.map_eq_some_iff, Option.some.injEq, reduceCtorEq] at h
  case string | reference =>
    subst h
    simp [mentions]
  case word => simp at h
  all_goals
    obtain ⟨_, -, rfl⟩ := h
    simp [mentions]

theorem mentions_negative {w : Word} {g : Formula} (h : negative? .formula w = some g) :
    mentions g = keys [w] := by
  obtain ⟨kind, literal⟩ := w
  cases kind <;> simp only [negative?, Option.map_eq_some_iff, reduceCtorEq] at h
  case word => simp at h
  all_goals
    obtain ⟨_, -, rfl⟩ := h
    simp [mentions]

/-- What a derivation stands for mentions the keys of its words, one after the other. -/
theorem tells_formula {X : Symbol} (d : Derivation .formula X) :
    Tells X d.formula (keys d.words) := by
  induction d with
  | leaf w g h => exact mentions_leaf h
  | negative w g h =>
    rw [Derivation.words, keys_cons]
    exact mentions_negative h
  | factorSide _ f ih => exact ih
  | expressionSide h => cases h
  | expression first rest ihf ihr | term first rest ihf ihr | either first rest ihf ihr
  | both first rest ihf ihr =>
    simp only [Tells] at ihf ihr ⊢
    simp [ihf, ihr]
  | sum op _ right rest ihr ihs | product op _ right rest ihr ihs =>
    simp only [Tells] at ihr ihs ⊢
    simp [mentions, ihr, ihs]
  | conditional c t e ihc iht ihe =>
    simp only [Tells] at ihc iht ihe ⊢
    simp [ihc, iht, ihe]
  | _ => simp_all [Tells, mentions, mentionsAll]

/-! ## Without positions and repetitions -/

theorem mentionsAll_unplacedAll {as : List Formula}
    (h : ∀ a ∈ as, mentions a.unplaced = mentions a) :
    mentionsAll (unplacedAll as) = mentionsAll as := by
  induction as with
  | nil => rfl
  | cons a as ih =>
    rw [List.forall_mem_cons] at h
    rw [unplacedAll, mentionsAll, mentionsAll, h.1, ih h.2]

theorem mentions_unplaced (f : Formula) : mentions f.unplaced = mentions f := by
  induction f using inductionOn with
  | call _ _ _ ih | customSpan _ _ ih =>
    rw [unplaced, mentions, mentions, mentionsAll_unplacedAll ih]
  | binary _ _ _ _ ihl ihr | condition _ _ _ _ ihl ihr =>
    rw [unplaced, mentions, mentions, ihl, ihr]
  | ifThen _ _ _ ihc iht => rw [unplaced, mentions, mentions, ihc, iht]
  | ifElse _ _ _ _ ihc iht ihe => rw [unplaced, mentions, mentions, ihc, iht, ihe]
  | _ => rfl

theorem firstOccurrences_filter (p : String → Bool) (ks : List String) :
    firstOccurrences (ks.filter p) = (firstOccurrences ks).filter p := by
  induction ks with
  | nil => rfl
  | cons k ks ih =>
    cases hk : p k with
    | true =>
      rw [List.filter_cons_of_pos hk, firstOccurrences, firstOccurrences, ih,
        List.filter_cons_of_pos hk, List.filter_filter, List.filter_filter]
      simp only [Bool.and_comm]
    | false =>
      have hne : ¬p k = true := by simp [hk]
      rw [List.filter_cons_of_neg hne, firstOccurrences, List.filter_cons_of_neg hne, ih,
        List.filter_filter]
      -- What has the property is not `k`, which has it not.
      refine List.filter_congr fun x _ => ?_
      by_cases hx : x = k
      · simp [hx, hk]
      · simp [hx]

theorem firstOccurrences_eq_eraseDups (ks : List String) : firstOccurrences ks = ks.eraseDups := by
  induction hn : ks.length using Nat.strongRecOn generalizing ks with
  | ind n ih =>
    cases ks with
    | nil => rfl
    | cons k ks =>
      have hshorter : (ks.filter fun x => !x == k).length < n := by
        rw [← hn, List.length_cons]
        exact Nat.lt_succ_of_le (List.length_filter_le _ _)
      rw [List.eraseDups_cons, ← ih _ hshorter _ rfl, firstOccurrences_filter, firstOccurrences]
      simp [beq_eq_decide]

/-- The keys that a formula refers to are the literals of the reference tokens in its text, in the
order of the tokens and without later repetitions. -/
theorem references_of_parse {source : String} {f : Formula} (h : parse source = .ok f) :
    f.references =
      (((tokens source).filter fun t => t.kind = .reference).map Token.literal).eraseDups := by
  obtain ⟨d, hd, hwords⟩ := exists_derivation_of_parse h
  have hmentions : mentions f = keys d.words := by
    rw [← mentions_unplaced, ← hd]
    exact tells_formula d
  have hkeys : keys d.words = keys ((tokens source).map Token.toWord) := by
    rw [hwords]
    simp
  rw [references, firstOccurrences_eq_eraseDups, hmentions, hkeys, keys_map_toWord]

/-- References in a condition, in calls, in the bounds of a base and in both branches. What stands
in the string and in the comment is none. -/
def scatteredKeys : String :=
  "if (@b != \"@d\") \x7b midpoint(@a, @b) /* @d */ \x7d " ++
    "else \x7b proportional_hours(@n, custom(@a - 5min, (@c))) \x7d"

theorem references_scatteredKeys :
    ∃ f, parse scatteredKeys = .ok f ∧ f.references = ["b", "a", "n", "c"] := by
  have hread : (parse scatteredKeys).toOption.map (fun _ => ()) = some () := by decide +kernel
  obtain ⟨f, hf, -⟩ := exists_parse hread
  refine ⟨f, hf, ?_⟩
  rw [references_of_parse hf]
  decide +kernel

end Formula

end Sundial
