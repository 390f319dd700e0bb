import Mathlib
import Sundial.Number.Binary64

/-!
# Numbers and their bits

A number is its bits, so long as it is a number at all: going from bits to a number and back loses
nothing but the bits of other encodings of `NaN`, and a minus sign changes the sign bit only.
-/

set_option autoImplicit false

namespace Sundial.Binary64

open Float.Model Float.Model.UnpackedFloat

/-! ## Sign, exponent field and fraction -/

/-- The bit pattern with the three fields. -/
abbrev pattern (s : Sign) (e : BitVec 11) (m : BitVec 52) : BitVec 64 :=
  packComponents Format.binary64 s e m

variable {s : Sign} {e : BitVec 11} {m : BitVec 52}

theorem unpackSign_pattern :
    @unpackSign Format.binary64 (pattern s e m) = s.toBitVec := by
  simp only [unpackSign, packComponents, BitVec.extractLsb]
  ext i hi
  grind

theorem one_append_toNat (m : BitVec 52) : (1#1 ++ m).toNat = 2 ^ 52 + m.toNat := by
  rw [BitVec.toNat_append, ← Nat.shiftLeft_add_eq_or_of_lt m.isLt]
  rfl

theorem sign_ofBitVec_toBitVec (s : Sign) : Sign.ofBitVec s.toBitVec = s := by
  cases s <;> rfl

theorem sign_toBitVec_ofBitVec (b : BitVec 1) : (Sign.ofBitVec b).toBitVec = b := by
  revert b
  decide

theorem exists_pattern (b : BitVec 64) : ∃ s e m, b = pattern s e m := by
  refine ⟨Sign.ofBitVec (@unpackSign Format.binary64 b),
    @unpackExponent Format.binary64 b, @unpackMantissa Format.binary64 b, ?_⟩
  simp only [packComponents, sign_toBitVec_ofBitVec, unpackSign, unpackExponent, unpackMantissa,
    BitVec.extractLsb]
  ext i hi
  grind

/-- What the fields stand for. -/
theorem unpack_pattern :
    UnpackedFloat.unpack Format.binary64 (pattern s e m) =
      if e = -1#11 then if m = 0#52 then .infinity s else .notANumber
      else if e = 0#11 then
        if h : m = 0#52 then .zero s
        else .finite s m.toNat (-1074) (by simpa [BitVec.toNat_pos, BitVec.pos_iff_ne_zero])
      else .finite s (2 ^ 52 + m.toNat) (e.toNat - 1075) (by omega) := by
  have hbias : ((Format.binary64.exponentBias : Nat) : Int) = 1023 := rfl
  have hplaces : ((Format.binary64.mantissaBitsWithoutImplicit : Nat) : Int) = 52 := rfl
  rw [UnpackedFloat.unpack]
  simp only [unpackMantissa_packComponents, unpackExponent_packComponents, unpackSign_pattern,
    sign_ofBitVec_toBitVec, hbias, hplaces, one_append_toNat]
  split
  · rfl
  · split
    next h0 =>
      split
      · rfl
      · simp [h0]
    · simp

theorem eq_neg_one_iff : e = -1#11 ↔ e.toNat = 2047 := by
  rw [← BitVec.toNat_inj]
  rfl

theorem eq_zero_iff {w : Nat} {b : BitVec w} : b = 0#w ↔ b.toNat = 0 := by
  rw [← BitVec.toNat_inj, BitVec.toNat_ofNat, Nat.zero_mod]

/-- Unpacking and packing again keeps every pattern that stands for a number. -/
theorem pack_unpack_pattern (h : e = -1#11 → m = 0#52) :
    UnpackedFloat.pack Format.binary64 (UnpackedFloat.unpack Format.binary64 (pattern s e m)) =
      pattern s e m := by
  have hm : m.toNat < 2 ^ 52 := m.isLt
  have he : e.toNat < 2 ^ 11 := e.isLt
  rw [unpack_pattern]
  split
  next he1 =>
    rw [if_pos (h he1), he1, h he1]
    rfl
  next he1 =>
    rw [eq_neg_one_iff] at he1
    split
    next he0 =>
      split
      next hm0 =>
        rw [he0, hm0]
        rfl
      next hm0 =>
        have hlog : m.toNat.log2 < 52 := (Nat.log2_lt (fun h => hm0 (eq_zero_iff.2 h))).2 hm
        rw [UnpackedFloat.pack]
        simp only [show ((-1074 : Int) + Format.binary64.exponentBias +
          Format.binary64.mantissaBitsWithoutImplicit).toNat = 1 from rfl]
        rw [if_neg (by decide), if_neg (by rw [show Format.binary64.mantissaBits = 53 from rfl]; omega),
          BitVec.ofNat_toNat, BitVec.setWidth_eq, he0]
    next he0 =>
      have hbiased : ((e.toNat : Int) - 1075 + Format.binary64.exponentBias +
          Format.binary64.mantissaBitsWithoutImplicit).toNat = e.toNat := by
        rw [show ((Format.binary64.exponentBias : Nat) : Int) = 1023 from rfl,
          show ((Format.binary64.mantissaBitsWithoutImplicit : Nat) : Int) = 52 from rfl]
        omega
      have hlog : (2 ^ 52 + m.toNat).log2 = 52 := (Nat.log2_eq_iff (by omega)).2 (by omega)
      rw [UnpackedFloat.pack]
      simp only [hbiased, hlog]
      rw [if_neg (by omega), if_pos (by decide), BitVec.ofNat_toNat, BitVec.setWidth_eq]
      congr 1
      rw [← BitVec.toNat_inj, BitVec.toNat_ofNat]
      omega

/-- Negation flips the sign of the pattern. -/
theorem unpack_neg_pattern :
    UnpackedFloat.unpack Format.binary64 (pattern (-s) e m) =
      (UnpackedFloat.unpack Format.binary64 (pattern s e m)).neg := by
  rw [unpack_pattern, unpack_pattern]
  split
  · split <;> rfl
  · split
    · split <;> rfl
    · rfl

theorem pattern_toNat :
    (pattern s e m).toNat = s.toBitVec.toNat * 2 ^ 63 + e.toNat * 2 ^ 52 + m.toNat := by
  have hm : m.toNat < 2 ^ 52 := m.isLt
  have he : e.toNat < 2 ^ 11 := e.isLt
  rw [pattern, packComponents, BitVec.toNat_append, ← Nat.shiftLeft_add_eq_or_of_lt hm,
    BitVec.toNat_append, ← Nat.shiftLeft_add_eq_or_of_lt he, Nat.shiftLeft_eq, Nat.shiftLeft_eq]
  omega

/-! ## From bits to numbers and back -/

theorem ofBits_toBits (x : Float) : Float.ofBits x.toBits = x := by
  obtain ⟨⟨bits, hvalid⟩⟩ := x
  obtain ⟨s, e, m, hbits⟩ := exists_pattern bits.toBitVec
  have hpack : UnpackedFloat.pack Format.binary64
      (UnpackedFloat.unpack Format.binary64 bits.toBitVec) = bits.toBitVec := by
    rw [hbits] at hvalid ⊢
    by_cases h : e = -1#11 ∧ m ≠ 0#52
    · have hnan := hvalid.eq_packedNaN (by simpa using h.1) (by simpa using h.2)
      rw [hnan]
      decide
    · exact pack_unpack_pattern fun he => by_contra fun hm => h ⟨he, hm⟩
  simp only [Float.ofBits, Float.toBits, Float.Model.ofBits, Float.Model.pack, hpack]

theorem infinityBits_eq : infinityBits = 2047 * 2 ^ 52 := rfl

/-- The bits of zero, of a finite number or of an infinite one, with either sign. -/
def isNumber (bits : Nat) : Prop := bits % 2 ^ 63 ≤ infinityBits

theorem toBits_ofBits {b : UInt64} (h : isNumber b.toNat) : (Float.ofBits b).toBits = b := by
  obtain ⟨s, e, m, hb⟩ := exists_pattern b.toBitVec
  have hpack : UnpackedFloat.pack Format.binary64
      (UnpackedFloat.unpack Format.binary64 b.toBitVec) = b.toBitVec := by
    have hm : m.toNat < 2 ^ 52 := m.isLt
    have he : e.toNat < 2 ^ 11 := e.isLt
    rw [isNumber, ← UInt64.toNat_toBitVec, hb, pattern_toNat, infinityBits_eq] at h
    rw [hb]
    refine pack_unpack_pattern fun he => ?_
    rw [eq_neg_one_iff] at he
    rw [eq_zero_iff]
    omega
  simp only [Float.ofBits, Float.toBits, Float.Model.ofBits, Float.Model.pack, hpack]

/-- The number with the bits and the sign; `bits` are those of a positive number. -/
def signed (negative : Bool) (bits : Nat) : Float :=
  Float.ofBits (UInt64.ofNat (bits + if negative then Nat.pow 2 63 else 0))

def sign (negative : Bool) : Sign := if negative then .negative else .positive

theorem signed_eq_pattern {bits : Nat} (h : bits ≤ infinityBits) (negative : Bool) :
    signed negative bits = Float.ofBits (UInt64.ofBitVec
      (pattern (sign negative) (BitVec.ofNat 11 (bits / 2 ^ 52)) (BitVec.ofNat 52 bits))) := by
  rw [infinityBits_eq] at h
  rw [signed]
  congr 1
  apply UInt64.toNat_inj.1
  rw [UInt64.toNat_ofNat', ← UInt64.toNat_toBitVec, UInt64.toBitVec_ofBitVec, pattern_toNat,
    BitVec.toNat_ofNat, BitVec.toNat_ofNat]
  have hpow : Nat.pow 2 63 = 2 ^ 63 := rfl
  cases negative <;> simp only [sign, Sign.toBitVec, hpow, if_true, Bool.false_eq_true, if_false] <;>
    simp <;> omega

theorem unpack_ofBits_pattern (h : e = -1#11 → m = 0#52) :
    (Float.ofBits (UInt64.ofBitVec (pattern s e m))).toModel.unpack =
      UnpackedFloat.unpack Format.binary64 (pattern s e m) := by
  change UnpackedFloat.unpack Format.binary64 (UnpackedFloat.pack Format.binary64
    (UnpackedFloat.unpack Format.binary64 (pattern s e m))) = _
  rw [pack_unpack_pattern h]

theorem neg_signed {bits : Nat} (h : bits ≤ infinityBits) (negative : Bool) :
    -signed negative bits = signed (!negative) bits := by
  have hsign : sign (!negative) = -sign negative := by cases negative <;> rfl
  have hnumber : BitVec.ofNat 11 (bits / 2 ^ 52) = -1#11 → BitVec.ofNat 52 bits = 0#52 := by
    intro he
    rw [infinityBits_eq] at h
    rw [eq_neg_one_iff, BitVec.toNat_ofNat] at he
    rw [eq_zero_iff, BitVec.toNat_ofNat]
    omega
  rw [signed_eq_pattern h, signed_eq_pattern h, hsign]
  change Float.ofModel (Float.Model.pack _) = Float.ofModel (Float.Model.pack _)
  congr 2
  rw [unpack_ofBits_pattern hnumber]
  exact unpack_neg_pattern.symm

theorem toBits_signed {bits : Nat} (h : bits ≤ infinityBits) (negative : Bool) :
    (signed negative bits).toBits.toNat = bits + if negative then 2 ^ 63 else 0 := by
  rw [infinityBits_eq] at h
  have hlt : (bits + if negative then Nat.pow 2 63 else 0) < 2 ^ 64 := by
    have hpow : Nat.pow 2 63 = 2 ^ 63 := rfl
    split <;> omega
  have hnat : (UInt64.ofNat (bits + if negative then Nat.pow 2 63 else 0)).toNat =
      bits + if negative then Nat.pow 2 63 else 0 := by
    rw [UInt64.toNat_ofNat', Nat.mod_eq_of_lt hlt]
  rw [signed, toBits_ofBits, hnat]
  · rfl
  · rw [isNumber, hnat, infinityBits_eq]
    have hpow : Nat.pow 2 63 = 2 ^ 63 := rfl
    split <;> omega

theorem isInf_signed {bits : Nat} (h : bits ≤ infinityBits) (negative : Bool) :
    (signed negative bits).isInf = true ↔ bits = infinityBits := by
  have hfield : BitVec.ofNat 11 (bits / 2 ^ 52) = -1#11 ↔ bits = infinityBits := by
    rw [infinityBits_eq] at h ⊢
    rw [eq_neg_one_iff, BitVec.toNat_ofNat]
    omega
  have hfraction : bits = infinityBits → BitVec.ofNat 52 bits = 0#52 := by
    rintro rfl
    decide
  rw [signed_eq_pattern h, Float.isInf, Float.Model.isInf,
    unpack_ofBits_pattern fun he => hfraction (hfield.1 he), unpack_pattern]
  by_cases hbits : bits = infinityBits
  · rw [if_pos (hfield.2 hbits), if_pos (hfraction hbits)]
    exact iff_of_true rfl hbits
  · rw [if_neg (mt hfield.1 hbits)]
    refine iff_of_false ?_ hbits
    split
    · split <;> exact Bool.false_ne_true
    · exact Bool.false_ne_true

end Sundial.Binary64
