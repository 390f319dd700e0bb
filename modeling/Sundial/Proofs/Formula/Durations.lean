import Sundial.Formula.Duration
import Sundial.Proofs.Number.PlainText

/-!
# Which texts are durations

A duration without a sign is a number and a unit, or hours and whole minutes (`Unsigned`), where a
number is a run of digits and points that is read as one. Blanks around the text do not count. In
front there may be minus signs, each of them with blanks behind it; two signs are refused where they
touch, and cancel out where they do not: `read?_eq_some_iff`.
-/

set_option autoImplicit false

namespace Sundial

open Text (isBlank)

/-! ## Blanks at the ends -/

/-- Blanks may be taken off the front first or off the end first. -/
theorem dropWhile_dropWhile_reverse {α : Type} (p : α → Bool) (l : List α) :
    ((l.dropWhile p).reverse.dropWhile p).reverse =
      (l.reverse.dropWhile p).reverse.dropWhile p := by
  induction l with
  | nil => rfl
  | cons a l ih =>
    rw [List.reverse_cons, List.dropWhile_append]
    cases hp : p a with
    | true =>
      rw [List.dropWhile_cons_of_pos hp, ih]
      split_ifs with hnil
      · simp [List.isEmpty_iff.1 hnil, hp]
      · simp [hp]
    | false =>
      rw [List.dropWhile_cons_of_neg (by simp [hp])]
      split_ifs with hnil
      · simp [List.dropWhile_append, List.isEmpty_iff.1 hnil, hp]
      · simp [List.dropWhile_append, hnil, hp]

theorem Text.toList_trim (s : String) :
    (Text.trim s).toList = (Text.trimEnd s).toList.dropWhile isBlank := by
  simp only [Text.trim, Text.trimEnd, Text.trimStart, String.toList_ofList]
  exact dropWhile_dropWhile_reverse isBlank s.toList

namespace Duration

/-! ## Numbers -/

/-- A digit or a point. -/
def isPart (c : Char) : Bool := c.isDigit || c = '.'

theorem isPart_iff {c : Char} : isPart c = true ↔ (48 ≤ c.toNat ∧ c.toNat ≤ 57) ∨ c = '.' := by
  simp [isPart, Char.isDigit_iff_toNat]

theorem isBlank_of_isPart {c : Char} (h : isPart c = true) : isBlank c = false := by
  rcases isPart_iff.1 h with h | rfl
  · simp [isBlank, Text.blankRanges]
    omega
  · rfl

theorem toLower_of_isPart {c : Char} (h : isPart c = true) : c.toLower = c := by
  apply Char.toLower_eq_of_not_isUpper
  rcases isPart_iff.1 h with h | rfl
  · intro hupper
    have hletter : 65 ≤ c.toNat := (of_decide_eq_true hupper).1
    omega
  · decide

/-- A run of digits and points that is read as the number. -/
structure Numeral (cs : List Char) (x : Float) : Prop where
  parts : ∀ c ∈ cs, isPart c = true
  read : Number.read? (String.ofList cs) = some x

/-- There is no sign in front of digits and points, and they make none of the words for numbers. -/
theorem read?_of_parts {cs : List Char} (h : ∀ c ∈ cs, isPart c = true) :
    Number.read? (String.ofList cs) = (Number.readDecimal? cs).map (Decimal.toFloat false) := by
  have hunsigned : Number.read? (String.ofList cs) = Number.readUnsigned? false cs := by
    rw [Number.read?, String.toList_ofList]
    split
    next => exact absurd (h '-' List.mem_cons_self) (by decide)
    next => exact absurd (h '+' List.mem_cons_self) (by decide)
    next => rfl
  have hlower : cs.map Char.toLower = cs :=
    (List.map_congr_left fun c hc => toLower_of_isPart (h c hc)).trans (List.map_id cs)
  have hword : Number.readWord? cs = none := by
    have hmem : ∀ w : List Char, (∃ c ∈ w, isPart c = false) → cs ≠ w := by
      rintro w ⟨c, hc, hpart⟩ rfl
      rw [h c hc] at hpart
      cases hpart
    rw [Number.readWord?, hlower, if_neg, if_neg]
    · exact hmem _ ⟨'n', by decide, by decide⟩
    · rintro (hinf | hinf)
      · exact hmem _ ⟨'i', by decide, by decide⟩ hinf
      · exact hmem _ ⟨'i', by decide, by decide⟩ hinf
  rw [hunsigned, Number.readUnsigned?, hword]
  cases Number.readDecimal? cs <;> rfl

theorem numeral_iff {cs : List Char} {x : Float} : Numeral cs x ↔
    (∀ c ∈ cs, isPart c = true) ∧
      (Number.readDecimal? cs).map (Decimal.toFloat false) = some x := by
  constructor
  · rintro ⟨hparts, hread⟩
    exact ⟨hparts, read?_of_parts hparts ▸ hread⟩
  · rintro ⟨hparts, hread⟩
    exact ⟨hparts, (read?_of_parts hparts).trans hread⟩

theorem Numeral.exists_cons {cs : List Char} {x : Float} (h : Numeral cs x) :
    ∃ c rest, cs = c :: rest ∧ isPart c = true := by
  cases cs with
  | nil => cases (numeral_iff.1 h).2
  | cons c rest => exact ⟨c, rest, rfl, h.parts c List.mem_cons_self⟩

/-- A number is the longest run of digits and points in front. -/
theorem splitNumber?_eq_some {cs rest : List Char} {x : Float} :
    splitNumber? cs = some (x, rest) ↔
      ∃ number, cs = number ++ rest ∧ Numeral number x ∧ ∀ c ∈ rest.head?, isPart c = false := by
  have hsplit : splitNumber? cs = (Number.readDecimal? (cs.takeWhile isPart)).map
      fun d => (d.toFloat false, cs.dropWhile isPart) := rfl
  rw [hsplit]
  constructor
  · intro h
    obtain ⟨d, hd, hx⟩ := Option.map_eq_some_iff.1 h
    obtain ⟨rfl, rfl⟩ := Prod.mk.inj hx
    refine ⟨cs.takeWhile isPart, List.takeWhile_append_dropWhile.symm, ?_, ?_⟩
    · exact numeral_iff.2 ⟨fun c hc => List.mem_takeWhile_imp hc, by rw [hd]; rfl⟩
    · intro c hc
      have hhead := List.head?_dropWhile_not isPart cs
      rw [hc] at hhead
      exact hhead
  · rintro ⟨number, rfl, hnumber, hrest⟩
    obtain ⟨hparts, hread⟩ := numeral_iff.1 hnumber
    obtain ⟨d, hd, rfl⟩ := Option.map_eq_some_iff.1 hread
    rw [takeWhile_run hparts hrest, dropWhile_run hparts hrest, hd]
    rfl

/-! ## Durations without a sign -/

/-- A run of blanks. -/
def Blanks (cs : List Char) : Prop := ∀ c ∈ cs, isBlank c = true

/-- A number and its unit, or hours and whole minutes. -/
inductive Unsigned : List Char → Float → Prop where
  | minutes {number : List Char} {x : Float} (h : Numeral number x) :
      Unsigned (number ++ "min".toList) x
  | hours {number unit : List Char} {x : Float} (h : Numeral number x)
      (hunit : unit = "hr".toList ∨ unit = "h".toList) : Unsigned (number ++ unit) (x * 60.0)
  | both {number gap minutes : List Char} {x y : Float} (h : Numeral number x) (hgap : gap ≠ [])
      (hblanks : Blanks gap) (hminutes : Numeral minutes y)
      (hwhole : (Binary64.ofFloat y).isWhole = true) :
      Unsigned (number ++ 'h' :: (gap ++ (minutes ++ "min".toList))) (x * 60.0 + y)

variable {cs : List Char} {x : Float}

theorem readMinutesPart?_eq_some : readMinutesPart? cs = some x ↔
    ∃ gap minutes, cs = gap ++ (minutes ++ "min".toList) ∧ gap ≠ [] ∧ Blanks gap ∧
      Numeral minutes x ∧ (Binary64.ofFloat x).isWhole = true := by
  constructor
  · intro h
    cases cs with
    | nil => cases h
    | cons c cs =>
      rw [readMinutesPart?] at h
      split at h
      next hc =>
        split at h
        next y tail hsplit =>
          split at h
          next hy =>
            obtain rfl := Option.some.inj h
            obtain ⟨minutes, hminutes, hnumeral, -⟩ := splitNumber?_eq_some.1 hsplit
            refine ⟨c :: cs.takeWhile isBlank, minutes, ?_, by simp, ?_, hnumeral, hy.2⟩
            · rw [← hy.1, ← hminutes, List.cons_append, List.takeWhile_append_dropWhile]
            · exact List.forall_mem_cons.2 ⟨hc, fun d hd => List.mem_takeWhile_imp hd⟩
          next => cases h
        next => cases h
      next => cases h
  · rintro ⟨gap, minutes, rfl, hgap, hblanks, hnumeral, hwhole⟩
    obtain ⟨c, gap, rfl⟩ := List.exists_cons_of_ne_nil hgap
    obtain ⟨hc, hgap⟩ := List.forall_mem_cons.1 hblanks
    obtain ⟨d, rest, rfl, hd⟩ := hnumeral.exists_cons
    have hrest : (gap ++ (d :: rest ++ "min".toList)).dropWhile isBlank =
        d :: rest ++ "min".toList :=
      dropWhile_run hgap (by rintro e ⟨⟩; exact isBlank_of_isPart hd)
    have hsplit : splitNumber? (d :: rest ++ "min".toList) = some (x, "min".toList) :=
      splitNumber?_eq_some.2 ⟨_, rfl, hnumeral, by rintro e ⟨⟩; rfl⟩
    rw [List.cons_append, readMinutesPart?, if_pos hc, hrest, hsplit]
    exact if_pos ⟨rfl, hwhole⟩

theorem readUnsigned?_eq_some : readUnsigned? cs = some x ↔ Unsigned cs x := by
  constructor
  · intro h
    rw [readUnsigned?] at h
    split at h
    next => cases h
    next value suffix hsplit =>
      obtain ⟨number, rfl, hnumber, -⟩ := splitNumber?_eq_some.1 hsplit
      split_ifs at h with hmin hhour
      · obtain rfl := Option.some.inj h
        rw [hmin]
        exact .minutes hnumber
      · obtain rfl := Option.some.inj h
        exact .hours hnumber hhour
      · split at h
        next rest =>
          obtain ⟨y, hy, rfl⟩ := Option.map_eq_some_iff.1 h
          obtain ⟨gap, minutes, rfl, hgap, hblanks, hminutes, hwhole⟩ :=
            readMinutesPart?_eq_some.1 hy
          exact .both hnumber hgap hblanks hminutes hwhole
        next => cases h
  · intro h
    cases h with
    | minutes h =>
      rw [readUnsigned?, splitNumber?_eq_some.2 ⟨_, rfl, h, by rintro c ⟨⟩; rfl⟩]
      rfl
    | hours h hunit =>
      rcases hunit with rfl | rfl
      all_goals
        rw [readUnsigned?, splitNumber?_eq_some.2 ⟨_, rfl, h, by rintro c ⟨⟩; rfl⟩]
        rfl
    | @both number gap minutes x y h hgap hblanks hminutes hwhole =>
      have hpart : readMinutesPart? (gap ++ (minutes ++ "min".toList)) = some y :=
        readMinutesPart?_eq_some.2 ⟨gap, minutes, rfl, hgap, hblanks, hminutes, hwhole⟩
      obtain ⟨c, gap, rfl⟩ := List.exists_cons_of_ne_nil hgap
      have hc : c ≠ 'r' := by
        rintro rfl
        exact absurd (hblanks 'r' List.mem_cons_self) (by decide)
      rw [readUnsigned?, splitNumber?_eq_some.2 ⟨_, rfl, h, by rintro c ⟨⟩; rfl⟩]
      dsimp only
      rw [if_neg (by simp), if_neg (by simp [hc])]
      change (readMinutesPart? (c :: gap ++ (minutes ++ "min".toList))).map _ = _
      rw [hpart]
      rfl

/-! ## Signs -/

/-- Minus signs, each with a run of blanks behind it, in front of a text. -/
def signed (gaps : List (List Char)) (body : List Char) : List Char :=
  gaps.foldr (fun gap rest => '-' :: (gap ++ rest)) body

@[simp] theorem signed_nil (body : List Char) : signed [] body = body := rfl

@[simp] theorem signed_cons (gap : List Char) (gaps : List (List Char)) (body : List Char) :
    signed (gap :: gaps) body = '-' :: (gap ++ signed gaps body) := rfl

/-- The gaps are blank, and where a sign follows there is one. -/
structure Apart (gaps : List (List Char)) : Prop where
  blanks : ∀ gap ∈ gaps, Blanks gap
  apart : ∀ gap ∈ gaps.dropLast, gap ≠ []

theorem dropSigns?_blanks {gap : List Char} (h : Blanks gap) (negative : Bool) (cs : List Char) :
    dropSigns? negative (gap ++ cs) = dropSigns? negative cs := by
  induction gap with
  | nil => rfl
  | cons c gap ih =>
    obtain ⟨hc, hgap⟩ := List.forall_mem_cons.1 h
    rw [List.cons_append, dropSigns?, if_pos hc, ih hgap]

/-- Signs that stand apart are taken off, down to a text that begins otherwise. -/
theorem dropSigns?_signed {gaps : List (List Char)} {body : List Char} (h : Apart gaps)
    (hbody : ∀ c ∈ body.head?, isBlank c = false ∧ c ≠ '-') (negative : Bool) :
    dropSigns? negative (signed gaps body) =
      some (negative ^^ decide (gaps.length % 2 = 1), body) := by
  induction gaps generalizing negative with
  | nil =>
    cases body with
    | nil => simp [dropSigns?]
    | cons c body =>
      obtain ⟨hblank, hsign⟩ := hbody c rfl
      simp [dropSigns?, hblank, hsign]
  | cons gap gaps ih =>
    obtain ⟨hgap, hgaps⟩ := List.forall_mem_cons.1 h.blanks
    have hapart : Apart gaps := by
      refine ⟨hgaps, fun g hg => h.apart g ?_⟩
      cases gaps with
      | nil => cases hg
      | cons => exact List.mem_cons_of_mem _ hg
    have hnext : (gap ++ signed gaps body).head? ≠ some '-' := by
      cases gap with
      | cons c gap =>
        rintro ⟨⟩
        exact absurd (hgap '-' List.mem_cons_self) (by decide)
      | nil =>
        cases gaps with
        | nil => exact fun hminus => (hbody '-' hminus).2 rfl
        | cons => exact absurd rfl (h.apart [] List.mem_cons_self)
    rw [signed_cons, dropSigns?, if_neg (by decide), if_pos rfl, if_neg hnext,
      dropSigns?_blanks hgap, ih hapart]
    have hparity : decide ((gaps.length + 1) % 2 = 1) = !decide (gaps.length % 2 = 1) := by
      rw [← decide_not, decide_eq_decide]
      omega
    rw [List.length_cons, hparity]
    cases negative <;> cases decide (gaps.length % 2 = 1) <;> rfl

/-- What is taken off are signs that stand apart. -/
theorem exists_signed_of_dropSigns? {negative sign : Bool} {body : List Char}
    (h : dropSigns? negative cs = some (sign, body)) :
    ∃ gaps, cs.dropWhile isBlank = signed gaps body ∧ Apart gaps ∧
      ∀ c ∈ body.head?, isBlank c = false ∧ c ≠ '-' := by
  induction cs generalizing negative with
  | nil =>
    obtain ⟨-, rfl⟩ := Prod.mk.inj (Option.some.inj h)
    exact ⟨[], rfl, ⟨by simp, by simp⟩, by simp⟩
  | cons c cs ih =>
    rw [dropSigns?] at h
    split_ifs at h with hblank hminus hnext
    · obtain ⟨gaps, hcs, hrest⟩ := ih h
      exact ⟨gaps, by rw [List.dropWhile_cons_of_pos hblank, hcs], hrest⟩
    · obtain ⟨gaps, hcs, hapart, hbody⟩ := ih h
      refine ⟨cs.takeWhile isBlank :: gaps, ?_, ⟨?_, ?_⟩, hbody⟩
      · rw [List.dropWhile_cons_of_neg hblank, signed_cons, ← hcs,
          List.takeWhile_append_dropWhile, hminus]
      · exact List.forall_mem_cons.2 ⟨fun d hd => List.mem_takeWhile_imp hd, hapart.blanks⟩
      · -- A sign that follows does not follow directly.
        cases gaps with
        | nil => simp
        | cons gap gaps =>
          refine List.forall_mem_cons.2 ⟨fun hnil => hnext ?_, hapart.apart⟩
          rw [← List.takeWhile_append_dropWhile (p := isBlank) (l := cs), hnil, hcs]
          rfl
    · obtain ⟨-, rfl⟩ := Prod.mk.inj (Option.some.inj h)
      refine ⟨[], by rw [List.dropWhile_cons_of_neg hblank]; rfl, ⟨by simp, by simp⟩, ?_⟩
      rintro d ⟨⟩
      exact ⟨by simpa using hblank, hminus⟩

/-! ## All durations -/

theorem Unsigned.exists_cons {cs : List Char} (h : Unsigned cs x) :
    ∃ c rest, cs = c :: rest ∧ isPart c = true := by
  cases h with
  | minutes h | hours h | both h =>
    obtain ⟨c, rest, rfl, hc⟩ := h.exists_cons
    exact ⟨c, _, rfl, hc⟩

/-- Blanks in front do not count. -/
theorem dropSigns?_trim (s : String) :
    dropSigns? false (Text.trimEnd s).toList = dropSigns? false (Text.trim s).toList := by
  have hblanks : Blanks ((Text.trimEnd s).toList.takeWhile isBlank) :=
    fun c hc => List.mem_takeWhile_imp hc
  have hdrop := dropSigns?_blanks hblanks false ((Text.trimEnd s).toList.dropWhile isBlank)
  rw [List.takeWhile_append_dropWhile] at hdrop
  rw [Text.toList_trim]
  exact hdrop

/-- **Which texts are durations.** A text is a duration with the value if, blanks around it aside,
it is a duration without a sign behind minus signs that do not touch one another, and each sign
turns the value round. -/
theorem read?_eq_some_iff (s : String) (x : Float) : read? s = some x ↔
    ∃ gaps body minutes, (Text.trim s).toList = signed gaps body ∧ Apart gaps ∧
      Unsigned body minutes ∧ x = if gaps.length % 2 = 1 then -minutes else minutes := by
  rw [read?, dropSigns?_trim]
  constructor
  · intro h
    split at h
    next => cases h
    next negative body hdrop =>
      obtain ⟨minutes, hminutes, rfl⟩ := Option.map_eq_some_iff.1 h
      obtain ⟨gaps, htext, hapart, hbody⟩ := exists_signed_of_dropSigns? hdrop
      have htrim : (Text.trim s).toList = signed gaps body := by
        rw [Text.toList_trim] at htext ⊢
        rwa [List.dropWhile_idempotent] at htext
      rw [htrim, dropSigns?_signed hapart hbody] at hdrop
      obtain ⟨rfl, -⟩ := Prod.mk.inj (Option.some.inj hdrop)
      exact ⟨gaps, body, minutes, htrim, hapart, readUnsigned?_eq_some.1 hminutes, by simp⟩
  · rintro ⟨gaps, body, minutes, htext, hapart, hbody, rfl⟩
    have hhead : ∀ c ∈ body.head?, isBlank c = false ∧ c ≠ '-' := by
      obtain ⟨d, rest, rfl, hd⟩ := hbody.exists_cons
      rintro c ⟨⟩
      refine ⟨isBlank_of_isPart hd, ?_⟩
      rintro rfl
      exact absurd hd (by decide)
    rw [htext, dropSigns?_signed hapart hhead]
    dsimp only
    rw [readUnsigned?_eq_some.2 hbody]
    simp

/-- Two signs with a blank between them are not refused. -/
theorem read?_parted : read? "- -5min" = some 5.0 := by
  decide +kernel

end Duration

end Sundial
