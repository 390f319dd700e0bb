import Sundial.Proofs.Printing.Canonical

/-!
# Reading canonical text back

A formula that was read from a text has canonical text that is read back exactly if the formula is
`Reprintable`, and then it is read back as the same formula, positions aside.
-/

set_option autoImplicit false

namespace Sundial

open Word Grammar

/-! ## From words to formulas -/

/-- The words of a derivation are words of the language. -/
theorem Grammar.Derivation.kind_of_mem_words {δ : Dialect} {X : Symbol} (d : Derivation δ X) :
    ∀ w ∈ d.words, w.kind ≠ .illegal ∧ w.kind ≠ .finish := by
  have hsign : ∀ op : Operator, op.kind ≠ .illegal ∧ op.kind ≠ .finish := by
    intro op
    cases op <;> decide
  have hrelation : ∀ relation : Relation, relation.kind ≠ .illegal ∧ relation.kind ≠ .finish := by
    intro relation
    cases relation <;> decide
  induction d with
  | leaf w f h =>
    obtain ⟨kind, literal⟩ := w
    rw [Derivation.words, List.forall_mem_singleton]
    cases kind
    case finish | illegal => cases h
    all_goals simp
  | negative w f h =>
    obtain ⟨kind, literal⟩ := w
    rw [Derivation.words, List.forall_mem_cons, List.forall_mem_singleton]
    cases kind
    case finish | illegal => cases h
    all_goals simp
  | _ => simp_all [Derivation.words, or_imp, forall_and]

namespace Formula

/-- A text that scans as words of the language has no illegal token. -/
theorem exists_tokenize {source : String} {ws : List Word} (h : Scans source.toList ws)
    (hk : ∀ w ∈ ws, w.kind ≠ .illegal ∧ w.kind ≠ .finish) :
    ∃ ts, tokenize source = .ok ts ∧ wordsBeforeFinish ts = ws := by
  have hwords : (tokens source).map Token.toWord = ws ++ [sign .finish] := h .start
  refine ⟨tokens source, ?_, ?_⟩
  · refine tokenize_eq_ok_iff.2 ⟨rfl, fun t ht => ?_⟩
    have hmem : t.toWord ∈ ws ++ [sign .finish] := hwords ▸ List.mem_map_of_mem ht
    rcases List.mem_append.1 hmem with hw | hw
    · exact (hk _ hw).1
    · intro hillegal
      have hkind := congrArg Word.kind (List.mem_singleton.1 hw)
      cases hillegal.symm.trans hkind
  · have hbefore :
        ((tokens source).map Token.toWord).takeWhile (fun w => w.kind ≠ .finish) = ws := by
      rw [hwords, List.takeWhile_append_of_pos fun w hw => decide_eq_true (hk w hw).2]
      exact List.append_nil ws
    rw [List.takeWhile_map] at hbefore
    exact hbefore

theorem parse_eq_ok {source : String} {f : Formula} :
    parse source = .ok f ↔ ∃ ts, tokenize source = .ok ts ∧ readTokens ts = .ok f := by
  rw [parse, read]
  rcases tokenize source with e | ts
  · simp [Except.mapError]
  · dsimp only
    rcases hread : readTokens ts with es | g <;> simp [Except.mapError, hread]

/-! ## Positions leave no trace -/

theorem needsParens_unplaced (op : Operator) (onRight : Bool) (f : Formula) :
    needsParens op onRight f.unplaced = needsParens op onRight f := by
  cases f <;> rfl

theorem isConditional_unplaced (f : Formula) : isConditional f.unplaced = isConditional f := by
  cases f <;> rfl

theorem isEither_unplaced (f : Formula) : isEither f.unplaced = isEither f := by
  cases f with
  | condition _ relation _ _ => cases relation <;> rfl
  | _ => rfl

theorem laterArgumentsText_unplaced {as : List Formula} (h : ∀ a ∈ as, text a.unplaced = text a) :
    laterArgumentsText (unplacedAll as) = laterArgumentsText as := by
  induction as with
  | nil => rfl
  | cons a as ih =>
    rw [List.forall_mem_cons] at h
    rw [unplacedAll, laterArgumentsText, laterArgumentsText, h.1, ih h.2]

theorem argumentsText_unplaced {as : List Formula} (h : ∀ a ∈ as, text a.unplaced = text a) :
    argumentsText (unplacedAll as) = argumentsText as := by
  cases as with
  | nil => rfl
  | cons a as =>
    rw [List.forall_mem_cons] at h
    rw [unplacedAll, argumentsText, argumentsText, h.1, laterArgumentsText_unplaced h.2]

/-- The canonical text does not depend on positions. -/
theorem text_unplaced (f : Formula) : text f.unplaced = text f := by
  induction f using inductionOn with
  | call _ _ _ ih | customSpan _ _ ih =>
    rw [unplaced, text, text, argumentsText_unplaced ih]
  | binary _ _ _ _ ihl ihr =>
    rw [unplaced, text, text, needsParens_unplaced, needsParens_unplaced, ihl, ihr]
  | ifThen _ _ _ ihc iht => rw [unplaced, text, text, ihc, iht]
  | ifElse _ _ _ _ ihc iht ihe =>
    rw [unplaced, text, text, isConditional_unplaced, ihc, iht, ihe]
  | condition _ _ _ _ ihl ihr =>
    rw [unplaced, text, text, isEither_unplaced, isEither_unplaced, ihl, ihr]
  | _ => rfl

theorem legible_of_unplacedAll {as : List Formula}
    (h : ∀ b ∈ unplacedAll as, ∀ a, a.unplaced = b → Legible .expression a) :
    ∀ a ∈ as, Legible .expression a := by
  rw [unplacedAll_eq_map] at h
  exact fun a ha => h _ (List.mem_map_of_mem ha) a rfl

theorem legible_of_unplaced {level : Level} {f : Formula} (h : Legible level f.unplaced) :
    Legible level f := by
  generalize hg : f.unplaced = g at h
  induction h generalizing f with
  | bare g _ ih => exact .bare f (ih hg)
  | oneBoth g _ ih => exact .oneBoth f (ih hg)
  | oneEither g _ ih => exact .oneEither f (ih hg)
  | primitive | string | direction | span | circumstance =>
    cases f <;> cases hg
    constructor
  | duration _ _ _ h | number _ _ h | reference _ _ h =>
    cases f <;> cases hg
    constructor
    exact h
  | call _ _ _ _ ih | customSpan _ _ _ ih =>
    cases f <;> cases hg
    constructor
    exact legible_of_unplacedAll fun b hb a ha => ih b hb ha
  | binary _ _ _ _ _ _ ihl ihr =>
    cases f <;> cases hg
    exact .binary _ _ _ _ (ihl rfl) (ihr rfl)
  | ifThen _ _ _ _ _ ihc iht =>
    cases f <;> cases hg
    exact .ifThen _ _ _ (ihc rfl) (iht rfl)
  | ifElse _ _ _ _ _ _ _ ihc iht ihe =>
    cases f <;> cases hg
    exact .ifElse _ _ _ _ (ihc rfl) (iht rfl) (ihe rfl)
  | compared _ _ _ _ hr _ _ ihl ihr =>
    cases f <;> cases hg
    exact .compared _ _ _ _ hr (ihl rfl) (ihr rfl)
  | both _ _ _ _ _ ihl ihr =>
    cases f <;> cases hg
    exact .both _ _ _ (ihl rfl) (ihr rfl)
  | either _ _ _ _ _ ihl ihr =>
    cases f <;> cases hg
    exact .either _ _ _ (ihl rfl) (ihr rfl)

/-- A text is read as a formula if something can be told of the formula. -/
theorem exists_parse {α : Type} {source : String} {told : Formula → α} {a : α}
    (h : (parse source).toOption.map told = some a) : ∃ f, parse source = .ok f ∧ told f = a := by
  cases hparse : parse source with
  | error ds =>
    rw [hparse] at h
    cases h
  | ok f =>
    rw [hparse] at h
    exact ⟨f, rfl, Option.some.inj h⟩

/-- Formulas that were read from a text are legible. -/
theorem legible_of_parse {source : String} {f : Formula} (h : parse source = .ok f) :
    Legible .expression f := by
  obtain ⟨ts, hts, hread⟩ := parse_eq_ok.1 h
  obtain ⟨d, hw, hd⟩ := exists_derivation hread
  apply legible_of_unplaced
  rw [← hd]
  refine legible_of_derivation d fun w hmem => ?_
  rw [hw, wordsBeforeFinish] at hmem
  obtain ⟨t, ht, rfl⟩ := List.mem_map.1 hmem
  have hsource : ts = tokens source := by
    rw [tokenize] at hts
    split at hts
    · cases hts
    · exact (Except.ok.inj hts).symm
  rw [hsource] at ht
  exact isLexical_tokensFrom _ _ t (List.takeWhile_subset _ ht)

/-! ## The round trip -/

/-- Legible formulas with the same canonical text are the same, positions aside. -/
theorem unplaced_eq_of_text {f g : Formula} (hf : Legible .expression f)
    (hg : Legible .expression g) (h : f.text = g.text) : f.unplaced = g.unplaced := by
  obtain ⟨d, hw, hd, -⟩ := (canonical_of_legible hf).expression
  obtain ⟨d', hw', hd', -⟩ := (canonical_of_legible hg).expression
  have hscan := (prints_text hf).scans .start
  rw [h, (prints_text hg).scans .start, List.append_cancel_right_eq, ← hw, ← hw'] at hscan
  rw [← hd, ← hd', Derivation.words_injective .expression hscan]

/-- A text with the canonical words of a legible formula reads as a formula exactly if no number in
it is infinite and no operation stands bare in a condition; and then it reads as that formula. -/
theorem parse_of_scans {f : Formula} (h : Legible .expression f) {source : String}
    (hscans : Scans source.toList (canonicalWords f)) :
    ((∃ t', parse source = .ok t') ↔ ∀ g ∈ f.nodes, g.reprintable = true) ∧
      ∀ t', parse source = .ok t' → t'.unplaced = f.unplaced ∧ t'.text = f.text := by
  obtain ⟨d, hw, hd, hnarrow⟩ := (canonical_of_legible h).expression
  have hkinds := d.kind_of_mem_words
  rw [hw] at hkinds
  obtain ⟨ts, hts, hwords⟩ := exists_tokenize hscans hkinds
  have hread : ∀ t', parse source = .ok t' → t'.unplaced = f.unplaced ∧ d.Narrow := by
    intro t' ht'
    obtain ⟨ts', hts', hread'⟩ := parse_eq_ok.1 ht'
    obtain rfl : ts = ts' := Except.ok.inj (hts.symm.trans hts')
    obtain ⟨d', hw', hd'⟩ := exists_derivation hread'
    have hsame : d'.words = d.words := by rw [hw', hwords, hw]
    refine ⟨?_, d.narrow_iff_exists_words.2 ⟨d', hsame⟩⟩
    rw [← hd', ← hd]
    exact Derivation.formula_eq_of_words hsame
  refine ⟨⟨fun ⟨t', ht'⟩ => hnarrow.1 (hread t' ht').2, fun hr => ?_⟩, fun t' ht' => ?_⟩
  · obtain ⟨d', hw'⟩ := d.narrow_iff_exists_words.1 (hnarrow.2 hr)
    have hsame : d'.words = wordsBeforeFinish ts := by rw [hw', hw, hwords]
    obtain ⟨t', ht', -⟩ := exists_readTokens d' hsame
    exact ⟨t', parse_eq_ok.2 ⟨ts, hts, ht'⟩⟩
  · have hsame := (hread t' ht').1
    exact ⟨hsame, by rw [← text_unplaced, hsame, text_unplaced]⟩

theorem parse_text_of_legible {f : Formula} (h : Legible .expression f) :
    ((∃ t', parse f.text = .ok t') ↔ ∀ g ∈ f.nodes, g.reprintable = true) ∧
      ∀ t', parse f.text = .ok t' → t'.unplaced = f.unplaced ∧ t'.text = f.text :=
  parse_of_scans h (prints_text h).scans

/-- The canonical text of a formula that was read from a text is read back exactly if no number in
the formula is infinite and no operation stands bare in a condition; and what is read back is the
formula, positions aside, whose canonical text is the same again. -/
theorem parse_text_iff {source : String} {t : Formula} (h : parse source = .ok t) :
    ((∃ t', parse t.text = .ok t') ↔ ∀ g ∈ t.nodes, g.reprintable = true) ∧
      ∀ t', parse t.text = .ok t' → t'.unplaced = t.unplaced ∧ t'.text = t.text :=
  parse_text_of_legible (legible_of_parse h)

/-- A text whose canonical text leaves out the parentheses that its condition needs. -/
def bareDifference : String := "if ((sunset - 5min) > sunrise) \x7b sunset \x7d"

def bareDifferenceTokens : List Token :=
  [⟨.ifWord, "if", ⟨1, 1⟩⟩, ⟨.leftParen, "(", ⟨1, 4⟩⟩, ⟨.leftParen, "(", ⟨1, 5⟩⟩,
   ⟨.primitive, "sunset", ⟨1, 6⟩⟩, ⟨.minus, "-", ⟨1, 13⟩⟩, ⟨.duration, "5min", ⟨1, 15⟩⟩,
   ⟨.rightParen, ")", ⟨1, 19⟩⟩, ⟨.greater, ">", ⟨1, 21⟩⟩, ⟨.primitive, "sunrise", ⟨1, 23⟩⟩,
   ⟨.rightParen, ")", ⟨1, 30⟩⟩, ⟨.leftBrace, "\x7b", ⟨1, 32⟩⟩, ⟨.primitive, "sunset", ⟨1, 34⟩⟩,
   ⟨.rightBrace, "\x7d", ⟨1, 41⟩⟩, ⟨.finish, "", ⟨1, 42⟩⟩]

theorem parse_text_bareDifference :
    ∃ t, parse bareDifference = .ok t ∧ ¬∃ t', parse t.text = .ok t' := by
  have htokens : tokenize bareDifference = .ok bareDifferenceTokens := by cbv
  have hnodes : ((readTokens bareDifferenceTokens).toOption.map
      fun t => t.nodes.all reprintable) = some false := by decide +kernel
  rcases hread : readTokens bareDifferenceTokens with es | t
  · rw [hread] at hnodes
    cases hnodes
  · rw [hread] at hnodes
    have hparse : parse bareDifference = .ok t := parse_eq_ok.2 ⟨_, htokens, hread⟩
    refine ⟨t, hparse, fun ht => ?_⟩
    have hall := List.all_eq_true.2 ((parse_text_iff hparse).1.1 ht)
    cases hall.symm.trans (Option.some.inj hnodes)

/-- Formulas that were read from texts have one canonical text exactly if they are the same,
positions aside. This text may be one that cannot be read. -/
theorem text_eq_iff_unplaced_eq {source source' : String} {f g : Formula}
    (hf : parse source = .ok f) (hg : parse source' = .ok g) :
    f.text = g.text ↔ f.unplaced = g.unplaced := by
  constructor
  · intro htext
    exact unplaced_eq_of_text (legible_of_parse hf) (legible_of_parse hg) htext
  · intro hsame
    rw [← text_unplaced f, hsame, text_unplaced]

/-- The formula of `bareDifference` with fewer blanks. -/
def tightDifference : String := "if((sunset-5min)>sunrise)\x7bsunset\x7d"

theorem unplaced_eq_of_tightDifference : ∃ f g, parse bareDifference = .ok f ∧
    parse tightDifference = .ok g ∧ (∀ t, parse f.text ≠ .ok t) ∧ f.text = g.text ∧
      f.unplaced = g.unplaced := by
  let told (f : Formula) := (f.text, (parse f.text).toOption.isSome)
  have hbare : (parse bareDifference).toOption.map told =
      some ("if (sunset - 5min > sunrise) \x7b sunset \x7d", false) := by decide +kernel
  have htight : (parse tightDifference).toOption.map text =
      some "if (sunset - 5min > sunrise) \x7b sunset \x7d" := by decide +kernel
  obtain ⟨f, hf, htold⟩ := exists_parse hbare
  obtain ⟨g, hg, htext⟩ := exists_parse htight
  obtain ⟨hftext, hunread⟩ := Prod.mk.inj htold
  have hsame : f.text = g.text := hftext.trans htext.symm
  refine ⟨f, g, hf, hg, ?_, hsame, (text_eq_iff_unplaced_eq hf hg).1 hsame⟩
  intro t ht
  rw [ht] at hunread
  cases hunread

end Formula

end Sundial
