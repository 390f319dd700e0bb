import Sundial.Number.Reader
import Sundial.Proofs.Number.Bits
import Sundial.Proofs.Number.Shortest

/-!
# Numbers written plainly

The plain text of a finite number is an optional minus sign and digits with or without decimal
places, and it reads back to the number.
-/

set_option autoImplicit false

namespace Sundial

/-! ## Runs of characters -/

section Runs

variable {p : Char → Bool} {run rest : List Char}

theorem takeWhile_run (h : ∀ c ∈ run, p c = true) (hr : ∀ c ∈ rest.head?, p c = false) :
    (run ++ rest).takeWhile p = run := by
  rw [List.takeWhile_append_of_pos h]
  cases rest with
  | nil => exact List.append_nil run
  | cons c rest => rw [List.takeWhile_cons, hr c rfl]; exact List.append_nil run

theorem dropWhile_run (h : ∀ c ∈ run, p c = true) (hr : ∀ c ∈ rest.head?, p c = false) :
    (run ++ rest).dropWhile p = rest := by
  rw [List.dropWhile_append_of_pos h]
  cases rest with
  | nil => rfl
  | cons c rest => rw [List.dropWhile_cons, hr c rfl]; rfl

end Runs

/-! ## Digits -/

/-- At least one digit, and nothing else. -/
def IsDigits (cs : List Char) : Prop := cs ≠ [] ∧ ∀ c ∈ cs, c.isDigit = true

instance (cs : List Char) : Decidable (IsDigits cs) :=
  decidable_of_iff (cs ≠ [] ∧ cs.all Char.isDigit = true) (and_congr_right' List.all_eq_true)

/-- Digits, and perhaps a point and more digits. -/
inductive PlainNumber : List Char → Prop where
  | whole {ds : List Char} (h : IsDigits ds) : PlainNumber ds
  | places {ds es : List Char} (h : IsDigits ds) (h' : IsDigits es) : PlainNumber (ds ++ '.' :: es)

theorem PlainNumber.exists_cons {cs : List Char} (h : PlainNumber cs) :
    ∃ c rest, cs = c :: rest ∧ c.isDigit = true := by
  cases h with
  | @whole ds h | @places ds _ h _ =>
    obtain ⟨c, rest, rfl⟩ := List.exists_cons_of_ne_nil h.1
    exact ⟨c, _, rfl, h.2 c List.mem_cons_self⟩

namespace Number

theorem digitsValue_eq (ds : List Char) : digitsValue ds = Nat.ofDigitChars 10 ds 0 := by
  simp only [digitsValue, Nat.ofDigitChars, Nat.mul_comm]

theorem readDecimal?_whole {ds : List Char} (h : IsDigits ds) :
    readDecimal? ds = some ⟨digitsValue ds, 0⟩ := by
  have htake := @takeWhile_run _ _ [] h.2 (by simp)
  have hdrop := @dropWhile_run _ _ [] h.2 (by simp)
  rw [List.append_nil] at htake hdrop
  rw [readDecimal?, htake, hdrop]
  simp [splitPlaces, h.1]

theorem readDecimal?_places {ds es : List Char} (h : IsDigits ds) (h' : IsDigits es) :
    readDecimal? (ds ++ '.' :: es) = some ⟨digitsValue (ds ++ es), -es.length⟩ := by
  have htake := @takeWhile_run _ _ ('.' :: es) h.2 (by simp)
  have hdrop := @dropWhile_run _ _ ('.' :: es) h.2 (by simp)
  have htake' := @takeWhile_run _ _ [] h'.2 (by simp)
  have hdrop' := @dropWhile_run _ _ [] h'.2 (by simp)
  rw [List.append_nil] at htake' hdrop'
  rw [readDecimal?, htake, hdrop]
  simp [splitPlaces, h.1, htake', hdrop']

theorem exists_readDecimal? {cs : List Char} (h : PlainNumber cs) :
    ∃ d, readDecimal? cs = some d := by
  cases h with
  | whole h => exact ⟨_, readDecimal?_whole h⟩
  | places h h' => exact ⟨_, readDecimal?_places h h'⟩

/-- A plain number has no sign to be read first. -/
theorem read?_plain {s : String} {d : Decimal} (h : PlainNumber s.toList)
    (hd : readDecimal? s.toList = some d) : read? s = some (d.toFloat false) := by
  obtain ⟨c, rest, hs, hc⟩ := h.exists_cons
  have hminus : c ≠ '-' := by
    rintro rfl
    exact absurd hc (by decide)
  have hplus : c ≠ '+' := by
    rintro rfl
    exact absurd hc (by decide)
  have hread : read? s = readUnsigned? false s.toList := by
    rw [read?]
    split
    next hcons => exact absurd (List.cons.inj (hs.symm.trans hcons)).1 hminus
    next hcons => exact absurd (List.cons.inj (hs.symm.trans hcons)).1 hplus
    next => rfl
  rw [hread, readUnsigned?, hd]

end Number

/-! ## Decimals without an exponent -/

namespace Decimal

theorem isDigits_repr (n : Nat) : IsDigits (Nat.repr n).toList := by
  rw [Nat.toList_repr]
  exact ⟨Nat.toDigits_ne_nil, fun c h => Nat.isDigit_of_mem_toDigits (by decide) (by decide) h⟩

theorem digitsValue_repr (n : Nat) : Number.digitsValue (Nat.repr n).toList = n := by
  rw [Nat.toList_repr, Number.digitsValue_eq, Nat.ofDigitChars_ten_toDigits]

theorem isDigits_append_zeros {ds : List Char} (h : IsDigits ds) (n : Nat) :
    IsDigits (ds ++ zeros n) := by
  refine ⟨List.append_ne_nil_of_left_ne_nil h.1 _, fun c hc => ?_⟩
  rcases List.mem_append.1 hc with hc | hc
  · exact h.2 c hc
  · rw [List.eq_of_mem_replicate hc]
    rfl

theorem isDigits_zeros_append {ds : List Char} (h : IsDigits ds) (n : Nat) :
    IsDigits (zeros n ++ ds) := by
  refine ⟨List.append_ne_nil_of_right_ne_nil _ h.1, fun c hc => ?_⟩
  rcases List.mem_append.1 hc with hc | hc
  · rw [List.eq_of_mem_replicate hc]
    rfl
  · exact h.2 c hc

theorem digitsValue_append_zeros (ds : List Char) (n : Nat) :
    Number.digitsValue (ds ++ zeros n) = Number.digitsValue ds * 10 ^ n := by
  rw [Number.digitsValue_eq, Number.digitsValue_eq, zeros, Nat.ofDigitChars_append,
    Nat.ofDigitChars_replicate_zero, Nat.mul_comm]

theorem digitsValue_zeros_append (ds : List Char) (n : Nat) :
    Number.digitsValue (zeros n ++ ds) = Number.digitsValue ds := by
  rw [Number.digitsValue_eq, Number.digitsValue_eq, zeros, Nat.ofDigitChars_append,
    Nat.ofDigitChars_replicate_zero, Nat.mul_zero]

/-- The text of a decimal reads back to the decimal or to one of the same value. -/
theorem positionalText_reads (d : Decimal) : PlainNumber (d.positionalText "").toList ∧
    ∃ d', Number.readDecimal? (d.positionalText "").toList = some d' ∧ d'.value = d.value := by
  obtain ⟨digits, exponent⟩ := d
  have hrepr := isDigits_repr digits
  rw [positionalText]
  dsimp only
  split
  next h =>
    obtain ⟨k, rfl⟩ := Int.eq_ofNat_of_zero_le h
    have hds := isDigits_append_zeros hrepr k
    rw [String.append_empty, String.toList_ofList, Int.toNat_natCast]
    refine ⟨.whole hds, _, Number.readDecimal?_whole hds, ?_⟩
    rw [digitsValue_append_zeros, digitsValue_repr, value, value]
    push_cast
    rw [mul_one, zpow_natCast]
  next h =>
    obtain ⟨k, hk⟩ := Int.eq_ofNat_of_zero_le (show 0 ≤ -exponent by omega)
    have hpos : 0 < k := by omega
    rw [hk, Int.toNat_natCast, String.toList_ofList]
    generalize hds : zeros (k + 1 - (Nat.repr digits).toList.length) ++ (Nat.repr digits).toList = ds
    have hdigits : IsDigits ds := hds ▸ isDigits_zeros_append hrepr _
    have hvalue : Number.digitsValue ds = digits := by
      rw [← hds, digitsValue_zeros_append, digitsValue_repr]
    have hlength : k + 1 ≤ ds.length := by
      rw [← hds, List.length_append, zeros, List.length_replicate]
      omega
    have htake : IsDigits (ds.take (ds.length - k)) := by
      refine ⟨List.ne_nil_of_length_pos ?_, fun c hc => hdigits.2 c (List.mem_of_mem_take hc)⟩
      rw [List.length_take]
      omega
    have hdrop : IsDigits (ds.drop (ds.length - k)) := by
      refine ⟨List.ne_nil_of_length_pos ?_, fun c hc => hdigits.2 c (List.mem_of_mem_drop hc)⟩
      rw [List.length_drop]
      omega
    refine ⟨.places htake hdrop, _, Number.readDecimal?_places htake hdrop, ?_⟩
    have hplaces : ds.length - (ds.length - k) = k := by omega
    rw [List.take_append_drop, hvalue, List.length_drop, hplaces,
      value, value, show exponent = -(k : Int) by omega]

end Decimal

/-! ## Numbers -/

open Binary64

theorem exists_signed {x : Float} (h : ofFloat x ≠ nan) :
    ∃ negative bits, bits ≤ infinityBits ∧ x = signed negative bits := by
  have hx : x.toBits.toNat < 2 ^ 64 := x.toBits.toNat_lt
  refine ⟨x.toBits.toNat / 2 ^ 63 = 1, x.toBits.toNat % 2 ^ 63, ?_, ?_⟩
  · by_contra hbits
    apply h
    rw [infinityBits_eq] at hbits
    rw [ofFloat, Binary64.ofBits, show Nat.pow 2 52 = 2 ^ 52 from rfl,
      show Nat.pow 2 11 = 2 ^ 11 from rfl, if_pos (by omega), if_neg (by omega)]
  · rw [signed]
    conv_lhs => rw [← ofBits_toBits x]
    congr 1
    apply UInt64.toNat_inj.1
    rw [UInt64.toNat_ofNat', show Nat.pow 2 63 = 2 ^ 63 from rfl]
    simp only [decide_eq_true_eq]
    split <;> omega

theorem ofFloat_signed {bits : Nat} (h : bits ≤ infinityBits) (negative : Bool) :
    ofFloat (signed negative bits) = Binary64.ofBits (bits + if negative then 2 ^ 63 else 0) := by
  rw [ofFloat, toBits_signed h]

theorem plainText_infinite (negative : Bool) :
    plainText (signed negative infinityBits) = signText negative ++ "inf" := by
  rw [plainText, numberText, ofFloat_signed (Nat.le_refl _), ofBits_infinite]

/-- The plain text of a finite number is a sign and a plain number that reads back to its bits. -/
theorem plainText_finite {bits : Nat} (h : bits < infinityBits) (negative : Bool) :
    ∃ t d, plainText (signed negative bits) = signText negative ++ t ∧ PlainNumber t.toList ∧
      Number.readDecimal? t.toList = some d ∧ d.bits = bits := by
  have hfloat := ofFloat_signed h.le negative
  rcases hb : Binary64.ofBits (bits + if negative then 2 ^ 63 else 0) with ⟨s, m, e⟩ | s | _
  · have hs : s = negative := by
      rw [ofBits_finite h] at hb
      split at hb <;> exact (finite.inj hb).1.symm
    subst hs
    have hbits := nearestBits_finite h hb
    rw [plainText, numberText, hfloat, hb]
    dsimp only
    rcases Nat.eq_zero_or_pos m with rfl | hm
    · rw [if_pos rfl]
      obtain ⟨hplain, d, hread, hvalue⟩ := Decimal.positionalText_reads ⟨0, 0⟩
      refine ⟨_, d, rfl, hplain, hread, ?_⟩
      rw [Decimal.bits_congr hvalue, ← hbits, Nat.zero_mul, nearestBits_zero]
      rfl
    · rw [if_neg hm.ne']
      obtain ⟨hplain, d, hread, hvalue⟩ :=
        Decimal.positionalText_reads (Decimal.shortest NumberStyle.plain.tie m e)
      refine ⟨_, d, rfl, hplain, hread, ?_⟩
      rw [Decimal.bits_congr hvalue, Decimal.shortest_bits _ hm, hbits]
  · rw [ofBits_finite h] at hb
    split at hb <;> cases hb
  · rw [ofBits_finite h] at hb
    split at hb <;> cases hb

/-- Every number that is not infinite is read back from its plain text. -/
theorem read?_plainText {x : Float} (h : ofFloat x ≠ nan) (hx : x.isInf = false) :
    Number.read? (plainText x) = some x := by
  obtain ⟨negative, bits, hle, rfl⟩ := exists_signed h
  have hlt : bits < infinityBits := by
    refine lt_of_le_of_ne hle fun he => ?_
    rw [(isInf_signed hle negative).2 he] at hx
    cases hx
  obtain ⟨t, d, ht, hplain, hread, rfl⟩ := plainText_finite hlt negative
  rw [ht]
  cases negative with
  | false =>
    rw [signText, if_neg Bool.false_ne_true, String.empty_append]
    exact Number.read?_plain hplain hread
  | true =>
    rw [Number.read?, signText, if_pos rfl, String.toList_append]
    change Number.readUnsigned? true t.toList = _
    rw [Number.readUnsigned?, hread]
    rfl

end Sundial
