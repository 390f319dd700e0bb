import Sundial.Proofs.Printing.Openings

/-!
# Canonical parentheses are needed

`operandGroups` finds every pair of parentheses that the canonical text puts around an operand of an
operation, with the text on both sides of it. Without one pair, the text opens one parenthesis less
than the formula takes, so it is not read as this formula any more: `operand_parens_needed`.
-/

set_option autoImplicit false

namespace Sundial.Formula

open Word Grammar

/-! ## Pairs of parentheses -/

def opening (wrap : Bool) : String := if wrap then "(" else ""

def closing (wrap : Bool) : String := if wrap then ")" else ""

theorem parenthesized_eq (wrap : Bool) (s : String) :
    parenthesized wrap s = opening wrap ++ s ++ closing wrap := by
  cases wrap <;> simp [parenthesized, opening, closing]

def leftBrace : String := "\x7b "

def rightBrace : String := " \x7d"

theorem braced_eq (s : String) : braced s = leftBrace ++ s ++ rightBrace := rfl

/-- An else-branch stands in braces, unless it is a conditional. -/
def elseOpening (e : Formula) : String := if isConditional e then "" else leftBrace

def elseClosing (e : Formula) : String := if isConditional e then "" else rightBrace

theorem elseText_eq (e : Formula) : (if isConditional e then text e else braced (text e)) =
    elseOpening e ++ text e ++ elseClosing e := by
  rw [elseOpening, elseClosing]
  split
  · simp
  · exact braced_eq _

/-- An operand in parentheses, and the text in front of the pair and behind it. -/
structure OperandGroup where
  front : String
  operand : Formula
  behind : String

namespace OperandGroup

variable (g : OperandGroup)

/-- The whole text. -/
def text : String := g.front ++ ("(" ++ g.operand.text ++ ")") ++ g.behind

/-- The text without the pair. -/
def bareText : String := g.front ++ g.operand.text ++ g.behind

end OperandGroup

/-- The pairs of a text in a longer one. -/
def groupsBetween (front behind : String) (inner : List OperandGroup) : List OperandGroup :=
  inner.map fun g => ⟨front ++ g.front, g.operand, g.behind ++ behind⟩

/-- The pair around an operand that is printed between the texts, if it has one, and those in it. -/
def groupsAround (front behind : String) (wrap : Bool) (operand : Formula)
    (inner : List OperandGroup) : List OperandGroup :=
  (if wrap then [⟨front, operand, behind⟩] else []) ++
    groupsBetween (front ++ opening wrap) (closing wrap ++ behind) inner

mutual

/-- The pairs of parentheses around operands in the canonical text of a formula. -/
def operandGroups : Formula → List OperandGroup
  | binary _ op left right =>
    let wrapLeft := needsParens op false left
    let wrapRight := needsParens op true right
    let link := " " ++ op.symbol ++ " "
    groupsAround "" (link ++ parenthesized wrapRight (text right)) wrapLeft left
        (operandGroups left) ++
      groupsAround (parenthesized wrapLeft (text left) ++ link) "" wrapRight right
        (operandGroups right)
  | call _ function args => argumentGroups (function.name ++ "(") args
  | customSpan _ bounds => argumentGroups (customWord ++ "(") bounds
  | ifThen _ c t =>
    groupsBetween "if (" (") " ++ braced (text t)) (operandGroups c) ++
      groupsBetween ("if (" ++ text c ++ ") " ++ leftBrace) rightBrace (operandGroups t)
  | ifElse _ c t e =>
    let otherwise := " else " ++ (elseOpening e ++ text e ++ elseClosing e)
    groupsBetween "if (" (") " ++ braced (text t) ++ otherwise) (operandGroups c) ++
      (groupsBetween ("if (" ++ text c ++ ") " ++ leftBrace) (rightBrace ++ otherwise)
          (operandGroups t) ++
        groupsBetween ("if (" ++ text c ++ ") " ++ braced (text t) ++ " else " ++ elseOpening e)
          (elseClosing e) (operandGroups e))
  | condition _ relation left right =>
    let wrapLeft := relation = .both && isEither left
    let wrapRight := relation = .both && isEither right
    let link := " " ++ relation.symbol ++ " "
    groupsBetween (opening wrapLeft)
        (closing wrapLeft ++ (link ++ parenthesized wrapRight (text right)))
        (operandGroups left) ++
      groupsBetween (parenthesized wrapLeft (text left) ++ link ++ opening wrapRight)
        (closing wrapRight) (operandGroups right)
  | _ => []

/-- The pairs in arguments that stand behind the text. -/
def argumentGroups (front : String) : List Formula → List OperandGroup
  | [] => []
  | a :: rest =>
    groupsBetween front (laterArgumentsText rest ++ ")") (operandGroups a) ++
      argumentGroups (front ++ text a ++ ", ") rest

end

/-! ## Places in a text -/

/-- Whatever follows the words, its parentheses count apart from theirs. -/
def Ready (ws : List Word) : Prop := ∀ vs, openings (ws ++ vs) = openings ws + openings vs

section Ready

variable {ws vs : List Word}

theorem ready_nil : Ready [] := fun _ => (Nat.zero_add _).symm

theorem Ready.append (h : Ready ws) (h' : Ready vs) : Ready (ws ++ vs) := by
  intro us
  rw [List.append_assoc, h, h', h, Nat.add_assoc]

theorem ready_sign (kind : TokenKind) : Ready [sign kind] := by
  intro vs
  simp

theorem ready_link (ws : List Word) {kind : TokenKind} (hk : kind ≠ .leftParen) :
    Ready (ws ++ [sign kind]) := by
  intro vs
  rw [List.append_assoc, List.singleton_append, openings_append (by simp [hk]),
    openings_append (by simp [hk])]
  simp
  omega

end Ready

/-- A text printed between the two texts prints its words between the two lists, and parentheses
in these words count apart from those on both sides. -/
structure Hole (front behind : String) (before after : List Word) : Prop where
  prints : ∀ {s : String} {ws : List Word}, Prints s.toList ws →
    Prints (front ++ s ++ behind).toList (before ++ (ws ++ after))
  ready : Ready before
  opens_after : opens after = false

namespace Hole

variable {front behind front' behind' : String} {before after before' after' : List Word}

theorem openings_eq (h : Hole front behind before after) (ws : List Word) :
    openings (before ++ (ws ++ after)) = openings before + (openings ws + openings after) := by
  rw [h.ready, openings_append h.opens_after]

/-- A place in a text that stands in a place itself. -/
theorem comp (h : Hole front behind before after) (h' : Hole front' behind' before' after') :
    Hole (front ++ front') (behind' ++ behind) (before ++ before') (after' ++ after) where
  prints hs := by simpa [String.append_assoc] using h.prints (h'.prints hs)
  ready := h.ready.append h'.ready
  opens_after := (opens_append h.opens_after).trans h'.opens_after

end Hole

variable {s t : String} {ws vs : List Word}

theorem hole_nothing : Hole "" "" [] [] where
  prints hs := by simpa using hs
  ready := ready_nil
  opens_after := rfl

theorem hole_parens : Hole "(" ")" [sign .leftParen] [sign .rightParen] where
  prints hs := by simpa using hs.parens
  ready := ready_sign _
  opens_after := by simp

theorem hole_braces : Hole leftBrace rightBrace [sign .leftBrace] [sign .rightBrace] where
  prints hs := prints_braced hs
  ready := ready_sign _
  opens_after := by simp

/-- Inside of parentheses, or of nothing. -/
theorem exists_hole_opening (wrap : Bool) :
    ∃ before after, Hole (opening wrap) (closing wrap) before after ∧
      ∀ ws, before ++ (ws ++ after) = inParens wrap ws := by
  cases wrap with
  | false => exact ⟨_, _, hole_nothing, fun ws => List.append_nil ws⟩
  | true => exact ⟨_, _, hole_parens, fun ws => rfl⟩

/-- Inside of the braces of an else-branch, if it has any. -/
theorem exists_hole_else (e : Formula) :
    ∃ before after, Hole (elseOpening e) (elseClosing e) before after ∧
      before ++ (canonicalWords e ++ after) =
        if isConditional e then canonicalWords e else inBraces (canonicalWords e) := by
  rw [elseOpening, elseClosing]
  split
  · exact ⟨_, _, hole_nothing, List.append_nil _⟩
  · exact ⟨_, _, hole_braces, rfl⟩

/-! ### Beside a sign -/

/-- Texts on both sides of the link are printed as words on both sides of its sign. -/
def Joins (link : String) (kind : TokenKind) : Prop :=
  ∀ ⦃l r : String⦄ ⦃ws ws' : List Word⦄, Prints l.toList ws → Prints r.toList ws' →
    Prints (l ++ link ++ r).toList (ws ++ sign kind :: ws')

theorem joins_operator (op : Operator) : Joins (" " ++ op.symbol ++ " ") op.kind := by
  intro l r ws ws' hl hr
  simpa [String.append_assoc] using prints_operation op hl hr

theorem joins_relation (relation : Relation) :
    Joins (" " ++ relation.symbol ++ " ") relation.kind := by
  intro l r ws ws' hl hr
  simpa [String.append_assoc] using prints_relation relation hl hr

theorem joins_else : Joins " else " .elseWord := fun _ _ _ _ => prints_otherwise

section Joins

variable {link : String} {kind : TokenKind}

theorem Joins.left (h : Joins link kind) (hk : kind ≠ .leftParen) (ht : Prints t.toList vs) :
    Hole "" (link ++ t) [] (sign kind :: vs) where
  prints hs := by simpa [String.append_assoc] using h hs ht
  ready := ready_nil
  opens_after := by simp [hk]

theorem Joins.right (h : Joins link kind) (hk : kind ≠ .leftParen) (hs : Prints s.toList ws) :
    Hole (s ++ link) "" (ws ++ [sign kind]) [] where
  prints ht := by simpa [String.append_assoc] using h hs ht
  ready := ready_link ws hk
  opens_after := rfl

end Joins

/-! ### In a conditional -/

theorem hole_condition (ht : Prints t.toList vs) :
    Hole "if (" (") " ++ braced t) [sign .ifWord, sign .leftParen]
      (sign .rightParen :: inBraces vs) where
  prints hs := by
    rw [← String.append_assoc]
    exact prints_branch hs ht
  ready := (ready_sign .ifWord).append (ready_sign .leftParen)
  opens_after := by simp

theorem hole_branch (hs : Prints s.toList ws) :
    Hole ("if (" ++ s ++ ") " ++ leftBrace) rightBrace
      (sign .ifWord :: sign .leftParen :: (ws ++ [sign .rightParen, sign .leftBrace]))
      [sign .rightBrace] where
  prints ht := by simpa [braced_eq, inBraces, String.append_assoc] using prints_branch hs ht
  ready := by
    simpa using
      ready_link (sign .ifWord :: sign .leftParen :: (ws ++ [sign .rightParen])) (by decide)
  opens_after := by simp

/-! ### Among arguments -/

/-- The text is read as the words in front of any other, and their parentheses count apart. -/
structure Leads (front : String) (before : List Word) : Prop where
  scans : ∀ {cs : List Char} {vs : List Word}, Scans cs vs →
    Scans (front.toList ++ cs) (before ++ vs)
  ready : Ready before

/-- A name and the parenthesis behind it. -/
theorem leads_name {w : Word} (hs : Prints s.toList [w]) (hw : Ready [w, sign .leftParen]) :
    Leads (s ++ "(") [w, sign .leftParen] where
  scans h := by
    have hopen := h.single '(' .leftParen rfl rfl (by decide) rfl
    simpa using hs _ _ (breaks_cons (by decide) (by decide) (by decide)) hopen
  ready := hw

theorem Leads.comma {front : String} {before : List Word} (h : Leads front before)
    (hs : Prints s.toList ws) : Leads (front ++ s ++ ", ") (before ++ ws ++ [sign .comma]) where
  scans hcs := by
    have hcomma := (hcs.blank (c := ' ') rfl).single ',' .comma rfl rfl (by decide) rfl
    have hfirst := hs _ _ (breaks_cons (by decide) (by decide) (by decide)) hcomma
    simpa [String.append_assoc] using h.scans hfirst
  ready := ready_link _ (by decide)

theorem Leads.hole {front : String} {before : List Word} (h : Leads front before)
    {as : List Formula} (has : ∀ a ∈ as, Prints (text a).toList (canonicalWords a)) :
    Hole front (laterArgumentsText as ++ ")") before
      (laterArgumentsWords as ++ [sign .rightParen]) where
  prints hs := by
    intro rest vs _ hrest
    have hlater := hs _ _ (breaks_laterArguments as rest) (scans_laterArguments has hrest)
    simpa [String.append_assoc] using h.scans hlater
  ready := h.ready
  opens_after := by cases as <;> simp [laterArgumentsWords]

/-! ## Pairs that can be left out -/

/-- The pair stands in the text, which is printed with the words; and without it the text prints
words with one parenthesis less. -/
structure Spares (s : String) (ws : List Word) (g : OperandGroup) : Prop where
  text : g.text = s
  bareText : ∃ vs, Prints g.bareText.toList vs ∧ openings ws = openings vs + 1

section Spares

variable {front behind : String} {before after : List Word} {inner : List OperandGroup}

theorem spares_groupsBetween (hole : Hole front behind before after)
    (h : ∀ g ∈ inner, Spares s ws g) : ∀ g ∈ groupsBetween front behind inner,
      Spares (front ++ s ++ behind) (before ++ (ws ++ after)) g := by
  refine List.forall_mem_map.2 fun g hg => ⟨?_, ?_⟩
  · simp [← (h g hg).text, OperandGroup.text, String.append_assoc]
  · obtain ⟨vs, hprints, hopenings⟩ := (h g hg).bareText
    refine ⟨before ++ (vs ++ after), ?_, ?_⟩
    · simpa [OperandGroup.bareText, String.append_assoc] using hole.prints hprints
    · rw [hole.openings_eq, hole.openings_eq, hopenings]
      omega

/-- The pairs in a text that stands in a place, perhaps in parentheses. -/
theorem spares_wrapped (hole : Hole front behind before after) (wrap : Bool)
    (h : ∀ g ∈ inner, Spares s ws g) :
    ∀ g ∈ groupsBetween (front ++ opening wrap) (closing wrap ++ behind) inner,
      Spares (front ++ parenthesized wrap s ++ behind)
        (before ++ (inParens wrap ws ++ after)) g := by
  obtain ⟨before', after', hinner, hwords⟩ := exists_hole_opening wrap
  rw [← hwords, parenthesized_eq]
  simpa [String.append_assoc] using spares_groupsBetween (hole.comp hinner) h

theorem spares_groupsAround (hole : Hole front behind before after) (wrap : Bool) {f : Formula}
    (hf : Prints f.text.toList (canonicalWords f))
    (h : ∀ g ∈ inner, Spares f.text (canonicalWords f) g) :
    ∀ g ∈ groupsAround front behind wrap f inner,
      Spares (front ++ parenthesized wrap f.text ++ behind)
        (before ++ (inParens wrap (canonicalWords f) ++ after)) g := by
  refine List.forall_mem_append.2 ⟨?_, spares_wrapped hole wrap h⟩
  cases wrap with
  | false => simp
  | true =>
    rw [if_pos rfl, List.forall_mem_singleton]
    refine ⟨by simp [OperandGroup.text, parenthesized], _, hole.prints hf, ?_⟩
    rw [hole.openings_eq, hole.openings_eq, openings_inParens]
    simp
    omega

end Spares

/-! ## Every pair of a formula -/

/-- The formula prints its canonical words, and every pair around an operand can be left out. -/
structure SparesGroups (f : Formula) : Prop where
  prints : Prints f.text.toList (canonicalWords f)
  spares : ∀ g ∈ operandGroups f, Spares f.text (canonicalWords f) g

variable {pos : Position} {left right c t e : Formula}

theorem spares_argumentGroups {front : String} {before : List Word} {as : List Formula}
    (h : ∀ a ∈ as, SparesGroups a) (hfront : Leads front before) :
    ∀ g ∈ argumentGroups front as,
      Spares (front ++ argumentsText as ++ ")")
        (before ++ (argumentsWords as ++ [sign .rightParen])) g := by
  induction as generalizing front before with
  | nil => simp [argumentGroups]
  | cons a as ih =>
    obtain ⟨ha, has⟩ := List.forall_mem_cons.1 h
    refine List.forall_mem_append.2 ⟨?_, fun g hg => ?_⟩
    · have hfirst := spares_groupsBetween (hfront.hole fun b hb => (has b hb).prints) ha.spares
      simpa [argumentsText, argumentsWords, String.append_assoc] using hfirst
    · have hlater := ih has (hfront.comma ha.prints) g hg
      cases as with
      | nil => simp [argumentGroups] at hg
      | cons b bs =>
        simpa [argumentsText, laterArgumentsText, argumentsWords, laterArgumentsWords,
          String.append_assoc] using hlater

theorem spares_binary (op : Operator) (hl : SparesGroups left) (hr : SparesGroups right) :
    ∀ g ∈ operandGroups (binary pos op left right),
      Spares (text (binary pos op left right)) (canonicalWords (binary pos op left right)) g := by
  have hlink := joins_operator op
  have hkind := Operator.kind_ne_leftParen op
  have hleft := hlink.left hkind (prints_parenthesized (needsParens op true right) hr.prints)
  have hright := hlink.right hkind (prints_parenthesized (needsParens op false left) hl.prints)
  refine List.forall_mem_append.2 ⟨?_, ?_⟩
  · simpa [text, canonicalWords, String.append_assoc] using
      spares_groupsAround hleft _ hl.prints hl.spares
  · simpa [text, canonicalWords, String.append_assoc] using
      spares_groupsAround hright _ hr.prints hr.spares

theorem spares_condition (relation : Relation) (hl : SparesGroups left)
    (hr : SparesGroups right) :
    ∀ g ∈ operandGroups (condition pos relation left right),
      Spares (text (condition pos relation left right))
        (canonicalWords (condition pos relation left right)) g := by
  have hlink := joins_relation relation
  have hkind := Relation.kind_ne_leftParen relation
  have hleft := hlink.left hkind
    (prints_parenthesized (relation = .both && isEither right) hr.prints)
  have hright := hlink.right hkind
    (prints_parenthesized (relation = .both && isEither left) hl.prints)
  refine List.forall_mem_append.2 ⟨?_, ?_⟩
  · simpa [text, canonicalWords, String.append_assoc] using spares_wrapped hleft _ hl.spares
  · simpa [text, canonicalWords, String.append_assoc] using spares_wrapped hright _ hr.spares

theorem spares_ifThen (hc : SparesGroups c) (ht : SparesGroups t) :
    ∀ g ∈ operandGroups (ifThen pos c t),
      Spares (text (ifThen pos c t)) (canonicalWords (ifThen pos c t)) g := by
  have hcondition := hole_condition ht.prints
  have hbranch := hole_branch hc.prints
  refine List.forall_mem_append.2 ⟨?_, ?_⟩
  · simpa [text, canonicalWords, String.append_assoc] using
      spares_groupsBetween hcondition hc.spares
  · simpa [text, canonicalWords, braced_eq, inBraces, String.append_assoc] using
      spares_groupsBetween hbranch ht.spares

theorem spares_ifElse (hc : SparesGroups c) (ht : SparesGroups t) (he : SparesGroups e) :
    ∀ g ∈ operandGroups (ifElse pos c t e),
      Spares (text (ifElse pos c t e)) (canonicalWords (ifElse pos c t e)) g := by
  obtain ⟨before, after, hinner, hwords⟩ := exists_hole_else e
  have hotherwise := joins_else.left (by decide) (hinner.prints he.prints)
  have hbranch := hotherwise.comp (hole_branch hc.prints)
  have hcondition := hotherwise.comp (hole_condition ht.prints)
  have helse := (joins_else.right (by decide) (prints_branch hc.prints ht.prints)).comp hinner
  have htext : text (ifElse pos c t e) = "if (" ++ text c ++ ") " ++ braced (text t) ++
      " else " ++ (elseOpening e ++ text e ++ elseClosing e) := by
    rw [text, elseText_eq]
  rw [htext, canonicalWords, ← hwords]
  refine List.forall_mem_append.2 ⟨?_, List.forall_mem_append.2 ⟨?_, ?_⟩⟩
  · simpa [String.append_assoc] using spares_groupsBetween hcondition hc.spares
  · simpa [braced_eq, inBraces, String.append_assoc] using spares_groupsBetween hbranch ht.spares
  · simpa [String.append_assoc] using spares_groupsBetween helse he.spares

theorem leads_function (function : BuiltIn) :
    Leads (function.name ++ "(") [⟨.function, function.name⟩, sign .leftParen] := by
  refine leads_name (prints_name rfl ?_ ?_) fun vs => ?_
  · cases function <;> exact ⟨_, _, rfl, by decide, by decide⟩
  · cases function <;> decide
  · simp [openings_content]

theorem leads_custom :
    Leads (customWord ++ "(") [⟨.base, customWord⟩, sign .leftParen] := by
  refine leads_name (prints_name rfl ⟨'c', _, rfl, by decide, by decide⟩ (by decide)) fun vs => ?_
  simp

/-- Every pair of parentheses around an operand of a legible formula can be left out of its text. -/
theorem spares_of_legible {level : Level} {f : Formula} (h : Legible level f) :
    ∀ g ∈ operandGroups f, Spares f.text (canonicalWords f) g := by
  induction h with
  | call _ function args h ih =>
    simpa [operandGroups, text, canonicalWords] using
      spares_argumentGroups (fun a ha => ⟨prints_text (h a ha), ih a ha⟩) (leads_function function)
  | customSpan _ bounds h ih =>
    simpa [operandGroups, text, canonicalWords] using
      spares_argumentGroups (fun a ha => ⟨prints_text (h a ha), ih a ha⟩) leads_custom
  | binary _ op _ _ hl hr ihl ihr =>
    exact spares_binary op ⟨prints_text hl, ihl⟩ ⟨prints_text hr, ihr⟩
  | ifThen _ _ _ hc ht ihc iht => exact spares_ifThen ⟨prints_text hc, ihc⟩ ⟨prints_text ht, iht⟩
  | ifElse _ _ _ _ hc ht he ihc iht ihe =>
    exact spares_ifElse ⟨prints_text hc, ihc⟩ ⟨prints_text ht, iht⟩ ⟨prints_text he, ihe⟩
  | compared _ relation _ _ _ hl hr ihl ihr =>
    exact spares_condition relation ⟨prints_text hl, ihl⟩ ⟨prints_text hr, ihr⟩
  | both _ _ _ hl hr ihl ihr | either _ _ _ hl hr ihl ihr =>
    exact spares_condition _ ⟨prints_text hl, ihl⟩ ⟨prints_text hr, ihr⟩
  | bare _ _ ih | oneBoth _ _ ih | oneEither _ _ ih => exact ih
  | _ => simp [operandGroups]

/-- No pair of parentheses around an operand is idle: the canonical text without it is not read, or
it is read as another formula. -/
theorem operand_parens_needed {source : String} {f : Formula} (h : parse source = .ok f) :
    ∀ g ∈ operandGroups f, g.text = f.text ∧
      ∀ f', parse g.bareText = .ok f' → f'.unplaced ≠ f.unplaced := by
  intro g hg
  obtain ⟨htext, vs, hprints, hopenings⟩ := spares_of_legible (legible_of_parse h) g hg
  refine ⟨htext, fun f' hparse hsame => ?_⟩
  have hle := openings_canonicalWords_le hparse hprints.scans
  rw [← canonicalWords_unplaced, hsame, canonicalWords_unplaced, hopenings] at hle
  omega

/-- Operands in parentheses on either side and at both precedences; the parentheses around `sunset`
and around the quotient are not canonical. -/
def nestedOperands : String :=
  "midpoint((sunrise - (sunset)) * (2 - 1), sunset - (@n - (5min / 2)))"

theorem operand_parens_needed_nestedOperands : ∃ f, parse nestedOperands = .ok f ∧
    (operandGroups f).map OperandGroup.bareText =
      ["midpoint(sunrise - sunset * (2 - 1), sunset - (@n - 5min / 2))",
       "midpoint((sunrise - sunset) * 2 - 1, sunset - (@n - 5min / 2))",
       "midpoint((sunrise - sunset) * (2 - 1), sunset - @n - 5min / 2)"] ∧
    ∀ g ∈ operandGroups f, g.text = f.text ∧
      ∀ f', parse g.bareText = .ok f' → f'.unplaced ≠ f.unplaced := by
  have hread : (parse nestedOperands).toOption.map
      (fun f => (operandGroups f).map OperandGroup.bareText) =
      some ["midpoint(sunrise - sunset * (2 - 1), sunset - (@n - 5min / 2))",
        "midpoint((sunrise - sunset) * 2 - 1, sunset - (@n - 5min / 2))",
        "midpoint((sunrise - sunset) * (2 - 1), sunset - @n - 5min / 2)"] := by decide +kernel
  obtain ⟨f, hf, hgroups⟩ := exists_parse hread
  exact ⟨f, hf, hgroups, operand_parens_needed hf⟩

end Sundial.Formula
