import Mathlib.Algebra.Order.Field.Power
import Mathlib.Data.Int.Log
import Mathlib.Data.Rat.Floor
import Mathlib.Tactic.GCongr
import Mathlib.Tactic.Positivity
import Mathlib.Tactic.Ring
import Sundial.Number.Binary64

/-!
# Rounding to the nearest number

`nearestBits num den` depends on the quotient only (`nearestBits_congr`), and the quotient that a
finite number stands for rounds to that number (`nearestBits_finite`).
-/

set_option autoImplicit false

namespace Sundial.Binary64

/-! ## Whole numbers -/

theorem roundHalfEven_mul (n d : Nat) {k : Nat} (hk : 0 < k) :
    roundHalfEven (n * k) (d * k) = roundHalfEven n d := by
  have hdouble : 2 * (n % d * k) = 2 * (n % d) * k := by ring
  simp only [roundHalfEven, Nat.mul_div_mul_right n d hk, Nat.mul_mod_mul_right, hdouble,
    Nat.mul_lt_mul_right hk]

/-- Rounding looks at the quotient only. -/
theorem roundHalfEven_congr {n d n' d' : Nat} (hd : 0 < d) (hd' : 0 < d') (h : n * d' = n' * d) :
    roundHalfEven n d = roundHalfEven n' d' := by
  rw [← roundHalfEven_mul n d hd', h, ← roundHalfEven_mul n' d' hd, Nat.mul_comm d d']

/-! ## The unit of a quotient -/

variable {num den num' den' : Nat}

theorem scaled_pos (num : Nat) (hden : 0 < den) (e : Int) : 0 < (scaled num den e).2 := by
  rw [scaled]
  split
  · exact Nat.mul_pos hden (Nat.pow_pos (by decide))
  · exact hden

/-- Scaling divides by a power of two. -/
theorem scaled_eq (num : Nat) (hden : 0 < den) (e : Int) :
    ((scaled num den e).1 : ℚ) / (scaled num den e).2 = (num : ℚ) / den / 2 ^ e := by
  have hd : (den : ℚ) ≠ 0 := by exact_mod_cast hden.ne'
  rw [scaled]
  split
  next h =>
    obtain ⟨k, rfl⟩ := Int.eq_ofNat_of_zero_le h
    rw [Int.toNat_natCast, Nat.cast_mul, show Nat.pow 2 k = 2 ^ k from rfl, Nat.cast_pow,
      zpow_natCast, div_div]
    norm_num
  next h =>
    obtain ⟨k, hk⟩ := Int.eq_ofNat_of_zero_le (show 0 ≤ -e by omega)
    obtain rfl : e = -(k : Int) := by omega
    rw [neg_neg, Int.toNat_natCast, Nat.cast_mul, show Nat.pow 2 k = 2 ^ k from rfl, Nat.cast_pow,
      zpow_neg, zpow_natCast, div_inv_eq_mul]
    push_cast
    ring

theorem log2_bounds {n : Nat} (h : 0 < n) :
    (2 : ℚ) ^ (n.log2 : Int) ≤ n ∧ (n : ℚ) < 2 ^ ((n.log2 : Int) + 1) := by
  constructor
  · rw [zpow_natCast]
    exact_mod_cast Nat.log2_self_le h.ne'
  · rw [← Nat.cast_add_one, zpow_natCast]
    exact_mod_cast Nat.lt_log2_self

/-- The logarithms of the parts bound that of the quotient. -/
theorem quotient_bounds (hnum : 0 < num) (hden : 0 < den) :
    (2 : ℚ) ^ ((num.log2 : Int) - den.log2 - 1) < (num : ℚ) / den ∧
      (num : ℚ) / den < 2 ^ ((num.log2 : Int) - den.log2 + 1) := by
  have hd : (0 : ℚ) < den := by exact_mod_cast hden
  obtain ⟨hnl, hnu⟩ := log2_bounds hnum
  obtain ⟨hdl, hdu⟩ := log2_bounds hden
  constructor
  · rw [lt_div_iff₀ hd]
    calc (2 : ℚ) ^ ((num.log2 : Int) - den.log2 - 1) * den
        < 2 ^ ((num.log2 : Int) - den.log2 - 1) * 2 ^ ((den.log2 : Int) + 1) := by gcongr
      _ = 2 ^ (num.log2 : Int) := by
        rw [← zpow_add₀ (by norm_num)]
        congr 1
        ring
      _ ≤ num := hnl
  · rw [div_lt_iff₀ hd]
    calc (num : ℚ) < 2 ^ ((num.log2 : Int) + 1) := hnu
      _ = 2 ^ ((num.log2 : Int) - den.log2 + 1) * 2 ^ (den.log2 : Int) := by
        rw [← zpow_add₀ (by norm_num)]
        congr 1
        ring
      _ ≤ 2 ^ ((num.log2 : Int) - den.log2 + 1) * den := by gcongr

/-- The logarithm is determined by the powers around the quotient. -/
theorem log_eq {r : ℚ} {t : Int} (hl : (2 : ℚ) ^ t ≤ r) (hu : r < 2 ^ (t + 1)) :
    Int.log 2 r = t := by
  have hr : 0 < r := lt_of_lt_of_le (by positivity) hl
  have h1 := (Int.zpow_le_iff_le_log (b := 2) (by decide) hr).1 hl
  have h2 := (Int.lt_zpow_iff_log_lt (b := 2) (by decide) hr).1 hu
  omega

theorem unitExponent_eq (hnum : 0 < num) (hden : 0 < den) :
    unitExponent num den = max leastExponent (Int.log 2 ((num : ℚ) / den) - 52) := by
  obtain ⟨hl, hu⟩ := quotient_bounds hnum hden
  rw [unitExponent]
  dsimp only
  generalize (num.log2 : Int) - den.log2 = top at hl hu ⊢
  have hpos : (0 : ℚ) < (scaled num den top).2 := by exact_mod_cast scaled_pos num hden top
  have hlt : (scaled num den top).1 < (scaled num den top).2 ↔ (num : ℚ) / den < 2 ^ top := by
    rw [← div_lt_one (show (0 : ℚ) < 2 ^ top by positivity), ← scaled_eq num hden, div_lt_one hpos,
      Nat.cast_lt]
  split
  next h =>
    rw [log_eq hl.le (by rw [sub_add_cancel]; exact hlt.1 h)]
  next h =>
    rw [log_eq (not_lt.1 (mt hlt.2 h)) hu]

/-! ## The nearest number -/

theorem cross_of_div_eq (hden : 0 < den) (hden' : 0 < den')
    (h : (num : ℚ) / den = (num' : ℚ) / den') : num * den' = num' * den := by
  have hd : (den : ℚ) ≠ 0 := by exact_mod_cast hden.ne'
  have hd' : (den' : ℚ) ≠ 0 := by exact_mod_cast hden'.ne'
  rw [div_eq_div_iff hd hd'] at h
  exact_mod_cast h

theorem nearestBits_zero (den : Nat) : nearestBits 0 den = 0 := by
  rw [nearestBits, if_pos rfl]

theorem nearestBits_eq (hnum : 0 < num) :
    nearestBits num den = min infinityBits
      ((unitExponent num den - leastExponent).toNat * 2 ^ 52 + roundHalfEven
        (scaled num den (unitExponent num den)).1 (scaled num den (unitExponent num den)).2) := by
  rw [nearestBits, if_neg hnum.ne']
  rfl

/-- The nearest number depends on the quotient only. -/
theorem nearestBits_congr (hden : 0 < den) (hden' : 0 < den')
    (h : (num : ℚ) / den = (num' : ℚ) / den') : nearestBits num den = nearestBits num' den' := by
  have hcross := cross_of_div_eq hden hden' h
  rcases Nat.eq_zero_or_pos num with rfl | hnum
  · obtain rfl : num' = 0 := by
      rw [Nat.zero_mul] at hcross
      exact (Nat.mul_eq_zero.1 hcross.symm).resolve_right hden.ne'
    rw [nearestBits_zero, nearestBits_zero]
  · have hnum' : 0 < num' := by
      refine Nat.pos_of_ne_zero ?_
      rintro rfl
      rw [Nat.zero_mul] at hcross
      exact absurd hcross (Nat.mul_pos hnum hden').ne'
    have hunit : unitExponent num den = unitExponent num' den' := by
      rw [unitExponent_eq hnum hden, unitExponent_eq hnum' hden', h]
    have hround : ∀ e, roundHalfEven (scaled num den e).1 (scaled num den e).2 =
        roundHalfEven (scaled num' den' e).1 (scaled num' den' e).2 := by
      intro e
      refine roundHalfEven_congr (scaled_pos _ hden e) (scaled_pos _ hden' e) ?_
      refine cross_of_div_eq (scaled_pos _ hden e) (scaled_pos _ hden' e) ?_
      rw [scaled_eq num hden, scaled_eq num' hden', h]
    rw [nearestBits_eq hnum, nearestBits_eq hnum', hunit, hround]

/-- At a unit exponent that is known, a quotient of that unit is its own nearest. -/
theorem nearestBits_of_unit {m : Nat} {e : Int} (hnum : 0 < num) (hden : 0 < den)
    (hunit : unitExponent num den = e) (h : (num : ℚ) / den = m * 2 ^ e) :
    nearestBits num den = min infinityBits ((e - leastExponent).toNat * 2 ^ 52 + m) := by
  have hround : roundHalfEven (scaled num den e).1 (scaled num den e).2 = m := by
    have hpos : (0 : ℚ) < 2 ^ e := by positivity
    have hquot : ((scaled num den e).1 : ℚ) / (scaled num den e).2 = ((m : ℕ) : ℚ) / (1 : ℕ) := by
      rw [scaled_eq num hden, h, mul_div_assoc, div_self hpos.ne', mul_one, Nat.cast_one, div_one]
    have hcross := cross_of_div_eq (scaled_pos _ hden e) Nat.one_pos hquot
    rw [Nat.mul_one] at hcross
    rw [hcross, roundHalfEven_of_dvd (scaled_pos _ hden e)]
  rw [nearestBits_eq hnum, hunit, hround]

theorem nearestBits_le (num den : Nat) : nearestBits num den ≤ infinityBits := by
  rw [nearestBits]
  split
  · exact Nat.zero_le _
  · exact Nat.min_le_left _ _

theorem le_roundHalfEven (n d : Nat) : n / d ≤ roundHalfEven n d := by
  rw [roundHalfEven]
  split
  · exact Nat.le_refl _
  · split
    · exact Nat.le_succ _
    · exact Nat.le_add_right _ _

/-- From `2 ^ 1024` on the nearest number is infinite. -/
theorem nearestBits_overflow (hden : 0 < den) (h : (2 : ℚ) ^ (1024 : Int) ≤ num / den) :
    nearestBits num den = infinityBits := by
  have hnum : 0 < num := by
    refine Nat.pos_of_ne_zero ?_
    rintro rfl
    rw [Nat.cast_zero, zero_div] at h
    exact absurd h (not_le.2 (by positivity))
  have hr : (0 : ℚ) < num / den := lt_of_lt_of_le (by positivity) h
  have hlog : 1024 ≤ Int.log 2 ((num : ℚ) / den) :=
    (Int.zpow_le_iff_le_log (by decide) hr).1 (by exact_mod_cast h)
  have hunit : unitExponent num den = Int.log 2 ((num : ℚ) / den) - 52 := by
    rw [unitExponent_eq hnum hden, leastExponent]
    omega
  have hround : 2 ^ 52 ≤ roundHalfEven (scaled num den (unitExponent num den)).1
      (scaled num den (unitExponent num den)).2 := by
    refine le_trans ?_ (le_roundHalfEven _ _)
    have hpos := scaled_pos num hden (unitExponent num den)
    rw [Nat.le_div_iff_mul_le hpos]
    have hquot := scaled_eq num hden (unitExponent num den)
    rw [div_eq_iff (by exact_mod_cast hpos.ne')] at hquot
    have hlow : (2 : ℚ) ^ 52 ≤ num / den / 2 ^ (unitExponent num den) := by
      rw [le_div_iff₀ (by positivity), hunit]
      calc (2 : ℚ) ^ 52 * 2 ^ (Int.log 2 ((num : ℚ) / den) - 52)
          = 2 ^ Int.log 2 ((num : ℚ) / den) := by
            rw [← zpow_natCast, ← zpow_add₀ (by norm_num)]
            congr 1
            push_cast
            ring
        _ ≤ num / den := by exact_mod_cast Int.zpow_log_le_self (b := 2) (by decide) hr
    have hcast : ((2 ^ 52 * (scaled num den (unitExponent num den)).2 : Nat) : ℚ) ≤
        (scaled num den (unitExponent num den)).1 := by
      rw [hquot, Nat.cast_mul]
      gcongr
      exact_mod_cast hlow
    exact_mod_cast hcast
  have hinf : infinityBits = 2047 * 2 ^ 52 := rfl
  have hleast : leastExponent = -1074 := rfl
  rw [nearestBits_eq hnum]
  omega

/-- Below half of the least positive number the nearest number is zero. -/
theorem nearestBits_underflow (hden : 0 < den) (h : (num : ℚ) / den < 2 ^ (-1075 : Int)) :
    nearestBits num den = 0 := by
  rcases Nat.eq_zero_or_pos num with rfl | hnum
  · exact nearestBits_zero den
  have hr : (0 : ℚ) < num / den := by positivity
  have hlog : Int.log 2 ((num : ℚ) / den) < -1075 :=
    (Int.lt_zpow_iff_log_lt (by decide) hr).1 (by exact_mod_cast h)
  have hunit : unitExponent num den = leastExponent := by
    rw [unitExponent_eq hnum hden, leastExponent]
    omega
  have hpos := scaled_pos num hden leastExponent
  have hsmall : 2 * (scaled num den leastExponent).1 < (scaled num den leastExponent).2 := by
    have hquot := scaled_eq num hden leastExponent
    rw [div_eq_iff (by exact_mod_cast hpos.ne')] at hquot
    have hpos' : (0 : ℚ) < (scaled num den leastExponent).2 := by exact_mod_cast hpos
    have hhalf : 2 * ((num : ℚ) / den / 2 ^ leastExponent) < 1 := by
      rw [← mul_div_assoc, div_lt_one (by positivity)]
      calc 2 * ((num : ℚ) / den) < 2 * 2 ^ (-1075 : Int) := by gcongr
        _ = 2 ^ leastExponent := by
          rw [leastExponent, show (-1074 : Int) = 1 + -1075 by ring, zpow_add₀ (by norm_num),
            zpow_one]
    have hcast : ((2 * (scaled num den leastExponent).1 : Nat) : ℚ) <
        (scaled num den leastExponent).2 := by
      push_cast
      rw [hquot, ← mul_assoc]
      exact mul_lt_of_lt_one_left hpos' hhalf
    exact_mod_cast hcast
  have hround : roundHalfEven (scaled num den leastExponent).1
      (scaled num den leastExponent).2 = 0 := by
    have hlt : (scaled num den leastExponent).1 < (scaled num den leastExponent).2 := by omega
    rw [roundHalfEven, Nat.mod_eq_of_lt hlt, if_pos hsmall, Nat.div_eq_of_lt hlt]
  rw [nearestBits_eq hnum, hunit, hround, sub_self]
  simp

/-! ## Finite numbers -/

/-- Mantissa and exponent as a quotient. -/
theorem finite_eq (m : Nat) (e : Int) :
    ((m * Nat.pow 2 e.toNat : Nat) : ℚ) / (Nat.pow 2 (-e).toNat : Nat) = m * 2 ^ e := by
  rcases le_total 0 e with h | h
  · obtain ⟨k, rfl⟩ := Int.eq_ofNat_of_zero_le h
    rw [Int.toNat_natCast, show (-(k : Int)).toNat = 0 by omega, zpow_natCast]
    push_cast
    simp
  · obtain ⟨k, hk⟩ := Int.eq_ofNat_of_zero_le (show 0 ≤ -e by omega)
    obtain rfl : e = -(k : Int) := by omega
    rw [neg_neg, Int.toNat_natCast, show (-(k : Int)).toNat = 0 by omega, zpow_neg, zpow_natCast]
    push_cast
    simp [div_eq_mul_inv]

/-- The two shapes of a finite number: without and with the leading mantissa bit. -/
theorem ofBits_finite {bits : Nat} (hbits : bits < infinityBits) (negative : Bool) :
    ofBits (bits + if negative then 2 ^ 63 else 0) =
      if bits < 2 ^ 52 then finite negative bits leastExponent
      else finite negative (2 ^ 52 + bits % 2 ^ 52) ((bits / 2 ^ 52 : Nat) - 1075) := by
  have hinf : infinityBits = 2047 * 2 ^ 52 := rfl
  rw [hinf] at hbits
  generalize hs : bits + (if negative then 2 ^ 63 else 0) = signed
  have hsign : (signed / Nat.pow 2 63 % 2 = 1) = negative := by
    rw [show Nat.pow 2 63 = 2 ^ 63 from rfl, ← hs]
    cases negative <;> simp <;> omega
  have hfield : signed / Nat.pow 2 52 % Nat.pow 2 11 = bits / 2 ^ 52 := by
    rw [show Nat.pow 2 52 = 2 ^ 52 from rfl, show Nat.pow 2 11 = 2 ^ 11 from rfl, ← hs]
    split <;> omega
  have hfraction : signed % Nat.pow 2 52 = bits % 2 ^ 52 := by
    rw [show Nat.pow 2 52 = 2 ^ 52 from rfl, ← hs]
    split <;> omega
  rw [ofBits, hfield, hfraction, if_neg (by omega), show Nat.pow 2 52 = 2 ^ 52 from rfl]
  simp only [hsign, Bool.decide_eq_true]
  by_cases hlt : bits < 2 ^ 52
  · rw [if_pos hlt, if_pos (by omega), Nat.mod_eq_of_lt hlt]
  · rw [if_neg hlt, if_neg (by omega)]
    rfl

theorem ofBits_infinite (negative : Bool) :
    ofBits (infinityBits + if negative then 2 ^ 63 else 0) = infinite negative := by
  cases negative <;> decide +kernel

/-- What a finite number stands for, as a quotient, is nearest to that number. -/
theorem nearestBits_finite {bits m : Nat} {e : Int} {negative negative' : Bool}
    (hbits : bits < infinityBits)
    (h : ofBits (bits + if negative then 2 ^ 63 else 0) = finite negative' m e) :
    nearestBits (m * Nat.pow 2 e.toNat) (Nat.pow 2 (-e).toNat) = bits := by
  have hden : 0 < Nat.pow 2 (-e).toNat := Nat.pow_pos (by decide)
  have hle : infinityBits = 2047 * 2 ^ 52 := rfl
  rw [ofBits_finite hbits] at h
  rcases Nat.eq_zero_or_pos m with rfl | hm
  · rw [Nat.zero_mul, nearestBits_zero]
    split at h
    · obtain ⟨-, rfl, -⟩ := finite.inj h
      rfl
    · obtain ⟨-, hzero, -⟩ := finite.inj h
      omega
  · have hnum : 0 < m * Nat.pow 2 e.toNat := Nat.mul_pos hm (Nat.pow_pos (by decide))
    have hm' : (0 : ℚ) < m := by exact_mod_cast hm
    split at h
    next hlt =>
      obtain ⟨-, rfl, rfl⟩ := finite.inj h
      have hlog : Int.log 2 ((bits : ℚ) * 2 ^ leastExponent) < 52 + leastExponent := by
        rw [← Int.lt_zpow_iff_log_lt (by decide) (by positivity), Nat.cast_ofNat,
          zpow_add₀ (by norm_num)]
        gcongr
        exact_mod_cast hlt
      rw [nearestBits_of_unit hnum hden (e := leastExponent) _ (finite_eq bits _)]
      · omega
      · rw [unitExponent_eq hnum hden, finite_eq]
        omega
    next hge =>
      obtain ⟨-, rfl, he⟩ := finite.inj h
      have hlow : (2 : ℚ) ^ (52 + e) ≤ ((2 ^ 52 + bits % 2 ^ 52 : Nat) : ℚ) * 2 ^ e := by
        rw [zpow_add₀ (by norm_num)]
        gcongr
        exact_mod_cast Nat.le_add_right (2 ^ 52) (bits % 2 ^ 52)
      have hhigh : ((2 ^ 52 + bits % 2 ^ 52 : Nat) : ℚ) * 2 ^ e < 2 ^ (52 + e + 1) := by
        rw [show 52 + e + 1 = 53 + e by ring, zpow_add₀ (by norm_num)]
        gcongr
        exact_mod_cast (show 2 ^ 52 + bits % 2 ^ 52 < 2 ^ 53 by omega)
      have hleast : leastExponent = -1074 := rfl
      rw [nearestBits_of_unit hnum hden (e := e) _ (finite_eq _ _)]
      · omega
      · rw [unitExponent_eq hnum hden, finite_eq, log_eq hlow hhigh]
        omega

end Sundial.Binary64
