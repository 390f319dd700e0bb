import Sundial.Proofs.Grammar.References

/-!
# How many parentheses a formula takes

`openings` counts the parentheses that words open. No derivation of a formula opens fewer than its
canonical words do, so a text that is read opens as many as the canonical text at least:
`openings_canonicalWords_le`. Going up a derivation, the pair that an operand is printed with in its
place is `due` as long as the words of the operand have not opened it.
-/

set_option autoImplicit false

namespace Sundial

open Word Grammar

@[simp] theorem Operator.kind_ne_leftParen (op : Operator) : op.kind ≠ .leftParen := by
  cases op <;> decide

@[simp] theorem Relation.kind_ne_leftParen (relation : Relation) : relation.kind ≠ .leftParen := by
  cases relation <;> decide

namespace Word

variable {w : Word} {ws vs : List Word}

/-- The words start with an opening parenthesis. -/
def opens : List Word → Bool
  | [] => false
  | w :: _ => w = sign .leftParen

/-- The parentheses that the words open. A `custom` without parentheses stands for `custom()` and
counts like it. -/
def openings : List Word → Nat
  | [] => 0
  | w :: ws =>
    (if w = sign .leftParen then 1 else 0) +
      (if w = ⟨.base, customWord⟩ && !opens ws then 1 else 0) + openings ws

@[simp] theorem opens_nil : opens [] = false := rfl

@[simp] theorem openings_nil : openings [] = 0 := rfl

theorem opens_append (h : opens vs = false) : opens (ws ++ vs) = opens ws := by
  cases ws with
  | nil => exact h
  | cons => rfl

/-- The parentheses of both parts, where the second has none to offer to a `custom` in front. -/
theorem openings_append (h : opens vs = false) :
    openings (ws ++ vs) = openings ws + openings vs := by
  induction ws with
  | nil => simp
  | cons w ws ih =>
    rw [List.cons_append, openings, openings, opens_append h, ih]
    omega

@[simp] theorem openings_sign (kind : TokenKind) :
    openings (sign kind :: ws) = (if kind = .leftParen then 1 else 0) + openings ws := by
  have hsign : sign kind = ⟨.base, customWord⟩ ↔ False := by simp [sign, customWord]
  rw [openings]
  simp only [sign_inj, hsign]
  rfl

@[simp] theorem opens_sign (kind : TokenKind) :
    opens (sign kind :: ws) = decide (kind = .leftParen) := by
  simp [opens, sign_inj]

/-- Only the word `custom` waits for a parenthesis. -/
theorem openings_content {kind : TokenKind} {s : String} (hk : kind ≠ .leftParen)
    (hb : kind ≠ .base ∨ s ≠ customWord) : openings (⟨kind, s⟩ :: ws) = openings ws := by
  have hparen : (⟨kind, s⟩ : Word) ≠ sign .leftParen := by simp [sign, hk]
  have hcustom : (⟨kind, s⟩ : Word) ≠ ⟨.base, customWord⟩ := by
    rw [Ne, Word.mk.injEq]
    tauto
  simp [openings, hparen, hcustom]

@[simp] theorem openings_customCall :
    openings (⟨.base, customWord⟩ :: sign .leftParen :: ws) = 1 + openings ws := by
  have hcustom : (⟨.base, customWord⟩ : Word) ≠ sign .leftParen := by simp [sign]
  rw [openings, if_neg hcustom]
  simp

end Word

namespace Formula

/-! ## Openings of canonical words -/

variable {ws : List Word}

@[simp] theorem openings_inParens (wrap : Bool) :
    openings (inParens wrap ws) = openings ws + wrap.toNat := by
  cases wrap with
  | false => rfl
  | true =>
    rw [inParens, if_pos rfl, openings_sign, openings_append (by simp)]
    simp
    omega

@[simp] theorem openings_inBraces : openings (inBraces ws) = openings ws := by
  rw [inBraces, openings_sign, openings_append (by simp)]
  simp

theorem openings_signedWords (kind : TokenKind) (s : String)
    (hk : kind ≠ .leftParen ∧ kind ≠ .base) : openings (signedWords kind s) = 0 := by
  rw [signedWords]
  split <;> simp [openings_content hk.1 (.inl hk.2)]

theorem openings_argumentsWords_cons (a : Formula) (as : List Formula) :
    openings (argumentsWords (a :: as)) =
      openings (canonicalWords a) + openings (argumentsWords as) := by
  cases as with
  | nil => simp [argumentsWords, laterArgumentsWords]
  | cons b bs =>
    rw [argumentsWords, laterArgumentsWords, openings_append (by simp)]
    simp [argumentsWords]

theorem openings_binary (pos : Position) (op : Operator) (left right : Formula) :
    openings (canonicalWords (binary pos op left right)) =
      openings (canonicalWords left) + (needsParens op false left).toNat +
        (openings (canonicalWords right) + (needsParens op true right).toNat) := by
  rw [canonicalWords, openings_append (by simp)]
  simp

theorem openings_condition (pos : Position) (relation : Relation) (left right : Formula) :
    openings (canonicalWords (condition pos relation left right)) =
      openings (canonicalWords left) + (relation = .both && isEither left : Bool).toNat +
        (openings (canonicalWords right) + (relation = .both && isEither right : Bool).toNat) := by
  rw [canonicalWords, openings_append (by simp)]
  simp

theorem openings_call (pos : Position) (function : BuiltIn) (args : List Formula) :
    openings (canonicalWords (call pos function args)) = 1 + openings (argumentsWords args) := by
  rw [canonicalWords, openings_content (by decide) (.inl (by decide)), openings_sign,
    openings_append (by simp)]
  simp

theorem openings_customSpan (pos : Position) (bounds : List Formula) :
    openings (canonicalWords (customSpan pos bounds)) = 1 + openings (argumentsWords bounds) := by
  rw [canonicalWords, openings_customCall, openings_append (by simp)]
  simp

theorem openings_ifThen (pos : Position) (c t : Formula) :
    openings (canonicalWords (ifThen pos c t)) =
      1 + (openings (canonicalWords c) + openings (canonicalWords t)) := by
  rw [canonicalWords, openings_sign, openings_sign, openings_append (by simp)]
  simp

theorem openings_ifElse (pos : Position) (c t e : Formula) :
    openings (canonicalWords (ifElse pos c t e)) = 1 + (openings (canonicalWords c) +
      (openings (canonicalWords t) + openings (canonicalWords e))) := by
  have helse :
      openings (if isConditional e then canonicalWords e else inBraces (canonicalWords e)) =
        openings (canonicalWords e) := by
    split <;> simp
  rw [canonicalWords, openings_sign, openings_sign, openings_append (by simp), openings_sign,
    openings_append (by simp), openings_sign, helse]
  simp

/-! ## Openings of derivations -/

/-- The formula stands in the place of the symbol only in parentheses. -/
@[simp] def due : Symbol → Formula → Bool
  | .either, _ => false
  | .term, f => f.isSum || isEither f
  | .factor, f | .conditional, f => f.isBinary || isEither f
  | _, f => isEither f

/-- The parentheses that the canonical words of a formula open in the place of the symbol. -/
def cost (X : Symbol) (f : Formula) : Nat := openings (canonicalWords f) + (due X f).toNat

/-- What stands for a symbol takes so many parentheses at most: the rest of a chain on top of what
it waits for, and an else-branch on top of its condition, the branch in front and the pair that
stands behind `if`. -/
def Takes : (X : Symbol) → X.Meaning → Nat → Prop
  | .expression, f, n => cost .expression f ≤ n
  | .term, f, n => cost .term f ≤ n
  | .factor, f, n => cost .factor f ≤ n
  | .conditional, f, n => cost .conditional f ≤ n
  | .either, f, n => cost .either f ≤ n
  | .both, f, n => cost .both f ≤ n
  | .comparison, f, n => cost .comparison f ≤ n
  | .side, f, n => cost .side f ≤ n
  | .sums, g, n => ∀ left, cost .expression (g left) ≤ cost .expression left + n
  | .products, g, n => ∀ left, cost .term (g left) ≤ cost .term left + n
  | .eithers, g, n => ∀ left, cost .either (g left) ≤ cost .either left + n
  | .boths, g, n => ∀ left, cost .both (g left) ≤ cost .both left + n
  | .arguments, as, n | .argumentList, as, n => openings (argumentsWords as) ≤ n
  | .otherwise, g, n =>
    ∀ c t, cost .conditional (g c t) ≤ 1 + (cost .either c + (cost .expression t + n))

/-! ### Places that ask for less -/

theorem cost_expression_le (f : Formula) : cost .expression f ≤ cost .term f := by
  simp only [cost, due]
  cases f.isSum <;> cases isEither f <;> simp

theorem cost_term_le (f : Formula) : cost .term f ≤ cost .factor f := by
  cases f with
  | binary _ op _ _ => simp [cost, due, isBinary, Bool.toNat_le]
  | _ => exact Nat.le_refl _

theorem cost_side_le (f : Formula) : cost .side f ≤ cost .factor f :=
  (cost_expression_le f).trans (cost_term_le f)

/-- Around a factor stands one pair of parentheses at most. -/
theorem cost_factor_le (f : Formula) : cost .factor f ≤ 1 + cost .expression f := by
  have hdue := Bool.toNat_le (due .factor f)
  simp only [cost] at *
  omega

/-! ### Chains -/

theorem toNat_le_or (b c : Bool) : b.toNat ≤ (b || c).toNat := by
  cases b <;> cases c <;> decide

theorem cost_sum {op : Operator} (h : op.precedence = 1) (left right : Formula) :
    cost .expression (binary .start op left right) ≤ cost .expression left + cost .term right := by
  have hdue : due .expression (binary .start op left right) = false := rfl
  have hright := toNat_le_or right.isSum (isEither right)
  simp only [cost, openings_binary, needsParens_sum h, hdue, Bool.toNat_false]
  simp only [due]
  omega

theorem cost_product {op : Operator} (h : op.precedence = 2) (left right : Formula) :
    cost .term (binary .start op left right) ≤ cost .term left + cost .factor right := by
  have hdue : due .term (binary .start op left right) = false := by simp [due, isSum, isEither, h]
  have hleft := toNat_le_or left.isSum (isEither left)
  have hright := toNat_le_or right.isBinary (isEither right)
  simp only [cost, openings_binary, needsParens_product h, hdue, Bool.toNat_false]
  simp only [due]
  omega

theorem cost_both (left right : Formula) :
    cost .both (condition .start .both left right) ≤ cost .both left + cost .comparison right := by
  simp [cost, due, openings_condition, isEither]

theorem cost_either (left right : Formula) :
    cost .either (condition .start .either left right) ≤ cost .either left + cost .both right := by
  simp only [cost, due, openings_condition, reduceCtorEq, decide_false, Bool.false_and,
    Bool.toNat_false]
  omega

/-- One more link of a chain: it takes what its right operand and the rest of the chain take. -/
theorem cost_link {X Y : Symbol} {join : Formula → Formula → Formula} {chain : Formula → Formula}
    {kind : TokenKind} {right : Formula} {ws rest : List Word}
    (hjoin : ∀ left right, cost X (join left right) ≤ cost X left + cost Y right)
    (hkind : kind ≠ .leftParen) (hright : cost Y right ≤ openings ws) (hopens : opens rest = false)
    (hrest : ∀ left, cost X (chain left) ≤ cost X left + openings rest) (left : Formula) :
    cost X (chain (join left right)) ≤ cost X left + openings (sign kind :: (ws ++ rest)) := by
  have hlink := hjoin left right
  have hchain := hrest (join left right)
  rw [openings_sign, if_neg hkind, openings_append hopens]
  omega

theorem cost_compared {relation : Relation} (h : relation.isLogical = false)
    (left right : Formula) : cost .comparison (condition .start relation left right) ≤
      cost .side left + cost .side right := by
  have hboth : decide (relation = .both) = false := by
    cases relation <;> first | rfl | cases h
  have hdue : due .comparison (condition .start relation left right) = false := by
    cases relation <;> first | rfl | cases h
  simp only [cost, openings_condition, hboth, hdue, Bool.false_and, Bool.toNat_false]
  omega

theorem cost_ifThen (c t : Formula) : cost .conditional (ifThen .start c t) ≤
    1 + (cost .either c + cost .expression t) := by
  have hdue : due .conditional (ifThen .start c t) = false := rfl
  simp only [cost, openings_ifThen, hdue, Bool.toNat_false]
  omega

theorem cost_ifElse (c t e : Formula) : cost .conditional (ifElse .start c t e) ≤
    1 + (cost .either c + (cost .expression t + openings (canonicalWords e))) := by
  have hdue : due .conditional (ifElse .start c t e) = false := rfl
  simp only [cost, openings_ifElse, hdue, Bool.toNat_false]
  omega

/-! ### Derivations -/

theorem openings_span (pos : Position) (b : DaySpan) : openings (canonicalWords (span pos b)) = 0 :=
  openings_content (by decide) (.inr (by cases b <;> decide))

theorem cost_leaf {w : Word} {f : Formula} (h : leaf? .formula w = some f) :
    cost .factor f = 0 := by
  obtain ⟨kind, literal⟩ := w
  cases kind <;> simp only [leaf?, Option.map_eq_some_iff, Option.some.injEq, reduceCtorEq] at h
  case word => simp at h
  case base =>
    obtain ⟨b, -, rfl⟩ := h
    exact openings_span .start b
  case number =>
    obtain ⟨x, -, rfl⟩ := h
    exact openings_signedWords _ _ (by split <;> decide)
  case duration =>
    obtain ⟨minutes, -, rfl⟩ := h
    exact openings_signedWords _ _ (by decide)
  case string | reference =>
    subst h
    exact openings_content (by decide) (.inl (by decide))
  all_goals
    obtain ⟨x, -, rfl⟩ := h
    exact openings_content (by decide) (.inl (by decide))

theorem cost_negative {w : Word} {f : Formula} (h : negative? .formula w = some f) :
    cost .factor f = 0 := by
  obtain ⟨kind, literal⟩ := w
  cases kind <;> simp only [negative?, Option.map_eq_some_iff, reduceCtorEq] at h
  case word => simp at h
  all_goals
    obtain ⟨x, -, rfl⟩ := h
    exact openings_signedWords _ _ (by first | decide | split <;> decide)

theorem cost_circumstance (v : Circumstance) : cost .factor (circumstance .start v) = 0 :=
  openings_content (by decide) (.inl (by decide))

/-- The rest of a chain and an else-branch start with a sign of their own, or are empty. -/
theorem opens_rest {X : Symbol} (d : Derivation .formula X)
    (h : X ∈ [.sums, .products, .eithers, .boths, .otherwise]) : opens d.words = false := by
  cases d
  case noSum | sum | noProduct | product | noEither | orElse | noBoth | andAlso => simp
  case noElse | elseIf | elseBranch => simp
  all_goals simp at h

/-- No derivation opens fewer parentheses than what it stands for takes. -/
theorem takes_openings {X : Symbol} (d : Derivation .formula X) :
    Takes X d.formula (openings d.words) := by
  induction d with
  | leaf w f h =>
    rw [Takes, Derivation.formula, cost_leaf h]
    exact Nat.zero_le _
  | negative w f h =>
    rw [Takes, Derivation.formula, cost_negative h]
    exact Nat.zero_le _
  | circumstance s v | circumstanceCall s v =>
    rw [Takes, Derivation.formula, cost_circumstance]
    exact Nat.zero_le _
  | expression first rest ihf ihr =>
    rw [Derivation.words, openings_append (opens_rest rest (by decide))]
    exact (ihr _).trans (Nat.add_le_add_right ((cost_expression_le _).trans ihf) _)
  | term first rest ihf ihr =>
    rw [Derivation.words, openings_append (opens_rest rest (by decide))]
    exact (ihr _).trans (Nat.add_le_add_right ((cost_term_le _).trans ihf) _)
  | either first rest ihf ihr =>
    rw [Derivation.words, openings_append (opens_rest rest (by decide))]
    exact (ihr _).trans (Nat.add_le_add_right ((Nat.le_add_right _ _).trans ihf) _)
  | both first rest ihf ihr =>
    rw [Derivation.words, openings_append (opens_rest rest (by decide))]
    exact (ihr _).trans (Nat.add_le_add_right ihf _)
  | noSum | noProduct | noEither | noBoth => exact fun left => Nat.le_refl _
  | sum op h right rest ihr ihs =>
    exact cost_link (cost_sum h) op.kind_ne_leftParen ihr (opens_rest rest (by decide)) ihs
  | product op h right rest ihr ihs =>
    exact cost_link (cost_product h) op.kind_ne_leftParen ihr (opens_rest rest (by decide)) ihs
  | orElse right rest ihr ihs =>
    exact cost_link cost_either (by decide) ihr (opens_rest rest (by decide)) ihs
  | andAlso right rest ihr ihs =>
    exact cost_link cost_both (by decide) ihr (opens_rest rest (by decide)) ihs
  | call s function _ args ih =>
    rw [Derivation.words, openings_content (by decide) (.inl (by decide)), openings_sign]
    exact (openings_call .start _ _).trans_le (Nat.add_le_add_left ih 1)
  | custom => exact (openings_customSpan .start []).le
  | customCall bounds ih =>
    rw [Derivation.words, openings_customCall]
    exact (openings_customSpan .start _).trans_le (Nat.add_le_add_left ih 1)
  | group inner ih =>
    rw [Derivation.words, openings_sign, openings_append (by simp)]
    exact (cost_factor_le _).trans (Nat.add_le_add_left (ih.trans (Nat.le_add_right _ _)) 1)
  | branching d ih => exact ih
  | noArguments => exact Nat.zero_le _
  | someArguments list ih => exact ih
  | lastArgument a ih =>
    rw [Derivation.words, openings_append (by simp)]
    rw [Takes, Derivation.formula, openings_argumentsWords_cons]
    exact Nat.add_le_add ((Nat.le_add_right _ _).trans ih) (Nat.zero_le _)
  | moreArguments a list iha ihl =>
    rw [Derivation.words, openings_append (by simp), openings_sign, if_neg (by decide),
      Nat.zero_add]
    rw [Takes, Derivation.formula, openings_argumentsWords_cons]
    exact Nat.add_le_add ((Nat.le_add_right _ _).trans iha) ihl
  | conditional c t e ihc iht ihe =>
    have hotherwise := ihe c.formula t.formula
    rw [Derivation.words, openings_sign, openings_sign, openings_append (by simp), openings_sign,
      openings_sign, openings_append (by simp), openings_sign]
    simp only [Takes, Derivation.formula, reduceCtorEq, if_false, if_true] at *
    omega
  | noElse => exact fun c t => cost_ifThen c t
  | elseIf d ih =>
    intro c t
    have hbranch := (Nat.le_add_right _ _).trans ih
    rw [Derivation.words, openings_sign, if_neg (by decide), Nat.zero_add]
    exact (cost_ifElse c t d.formula).trans (by omega)
  | elseBranch e ih =>
    intro c t
    have hbranch := (Nat.le_add_right _ _).trans ih
    rw [Derivation.words, openings_sign, openings_sign, openings_append (by simp)]
    exact (cost_ifElse c t e.formula).trans (by simp; omega)
  | bare side ih => exact ih
  | compared left relation h right ihl ihr =>
    rw [Derivation.words, openings_append (by simp), openings_sign]
    have hjoin := cost_compared h left.formula right.formula
    simp only [Takes, Derivation.formula] at *
    omega
  | factorSide _ f ih => exact (cost_side_le _).trans ih
  | expressionSide h => cases h

/-! ## Formulas that were read -/

theorem laterArgumentsWords_unplaced {as : List Formula}
    (h : ∀ a ∈ as, canonicalWords a.unplaced = canonicalWords a) :
    laterArgumentsWords (unplacedAll as) = laterArgumentsWords as := by
  induction as with
  | nil => rfl
  | cons a as ih =>
    rw [List.forall_mem_cons] at h
    rw [unplacedAll, laterArgumentsWords, laterArgumentsWords, h.1, ih h.2]

theorem argumentsWords_unplaced {as : List Formula}
    (h : ∀ a ∈ as, canonicalWords a.unplaced = canonicalWords a) :
    argumentsWords (unplacedAll as) = argumentsWords as := by
  cases as with
  | nil => rfl
  | cons a as =>
    rw [List.forall_mem_cons] at h
    rw [unplacedAll, argumentsWords, argumentsWords, h.1, laterArgumentsWords_unplaced h.2]

/-- The canonical words do not depend on positions. -/
theorem canonicalWords_unplaced (f : Formula) : canonicalWords f.unplaced = canonicalWords f := by
  induction f using inductionOn with
  | call _ _ _ ih | customSpan _ _ ih =>
    rw [unplaced, canonicalWords, canonicalWords, argumentsWords_unplaced ih]
  | binary _ _ _ _ ihl ihr =>
    rw [unplaced, canonicalWords, canonicalWords, needsParens_unplaced, needsParens_unplaced, ihl,
      ihr]
  | ifThen _ _ _ ihc iht => rw [unplaced, canonicalWords, canonicalWords, ihc, iht]
  | ifElse _ _ _ _ ihc iht ihe =>
    rw [unplaced, canonicalWords, canonicalWords, isConditional_unplaced, ihc, iht, ihe]
  | condition _ _ _ _ ihl ihr =>
    rw [unplaced, canonicalWords, canonicalWords, isEither_unplaced, isEither_unplaced, ihl, ihr]
  | _ => rfl

/-- Whatever text a formula was read from, it opens as many parentheses as the canonical one. -/
theorem openings_canonicalWords_le {source : String} {f : Formula} {ws : List Word}
    (h : parse source = .ok f) (hscans : Scans source.toList ws) :
    openings (canonicalWords f) ≤ openings ws := by
  obtain ⟨d, hd, hwords⟩ := exists_derivation_of_parse h
  have hws : d.words = ws := List.append_cancel_right (hwords.symm.trans (hscans .start))
  have htakes : cost .expression d.formula ≤ openings d.words := takes_openings d
  rw [← canonicalWords_unplaced, ← hd, ← hws]
  exact (Nat.le_add_right _ _).trans htakes

end Formula

end Sundial
