import Mathlib.Tactic.FieldSimp
import Sundial.Number.Text
import Sundial.Proofs.Number.Rounding

/-!
# Shortest decimals read back

`Decimal.bits` is the nearest number to what the decimal stands for (`Decimal.bits_eq`), so decimals
of one value read alike, and `Decimal.shortest` reads back to the number it is taken for.
-/

set_option autoImplicit false

namespace Sundial.Decimal

open Binary64

/-! ## Decimals and their values -/

/-- What the decimal stands for. -/
def value (d : Decimal) : ℚ := d.digits * 10 ^ d.exponent

theorem fraction_pos (d : Decimal) : 0 < d.fraction.2 := by
  rw [fraction]
  split
  · exact Nat.one_pos
  · exact Nat.pow_pos (by decide)

theorem fraction_eq (d : Decimal) : (d.fraction.1 : ℚ) / d.fraction.2 = d.value := by
  rw [fraction, value]
  split
  next h =>
    obtain ⟨k, hk⟩ := Int.eq_ofNat_of_zero_le h
    rw [hk, Int.toNat_natCast, zpow_natCast]
    push_cast
    simp
  next h =>
    obtain ⟨k, hk⟩ := Int.eq_ofNat_of_zero_le (show 0 ≤ -d.exponent by omega)
    rw [hk, Int.toNat_natCast, show d.exponent = -(k : Int) by omega, zpow_neg, zpow_natCast]
    push_cast
    simp [div_eq_mul_inv]

theorem ten_pow_greatest : (2 : ℚ) ^ (1024 : Int) ≤ 10 ^ (310 : Int) := by
  have h : 2 ^ 1024 ≤ 10 ^ 310 := by decide +kernel
  rw [show (1024 : Int) = (1024 : Nat) from rfl, show (310 : Int) = (310 : Nat) from rfl,
    zpow_natCast, zpow_natCast]
  exact_mod_cast h

theorem ten_pow_least : (10 : ℚ) ^ (-330 : Int) < 2 ^ (-1075 : Int) := by
  have h : 2 ^ 1075 < 10 ^ 330 := by decide +kernel
  rw [show (-330 : Int) = -(330 : Nat) from rfl, show (-1075 : Int) = -(1075 : Nat) from rfl,
    zpow_neg, zpow_neg, zpow_natCast, zpow_natCast, inv_lt_inv₀ (by positivity) (by positivity)]
  exact_mod_cast h

/-- The bits are those of the nearest number; the first cases only spare the work. -/
theorem bits_eq {d : Decimal} (h : d.digits ≠ 0) :
    d.bits = nearestBits d.fraction.1 d.fraction.2 := by
  have hdigits : (1 : ℚ) ≤ d.digits := by exact_mod_cast Nat.one_le_iff_ne_zero.2 h
  rw [bits, if_neg h]
  split
  next hgreat =>
    refine (nearestBits_overflow (fraction_pos d) ?_).symm
    rw [fraction_eq, value]
    calc (2 : ℚ) ^ (1024 : Int) ≤ 10 ^ (310 : Int) := ten_pow_greatest
      _ ≤ 10 ^ d.exponent := zpow_le_zpow_right₀ (by norm_num) hgreat.le
      _ ≤ d.digits * 10 ^ d.exponent := le_mul_of_one_le_left (by positivity) hdigits
  next =>
    split
    next hleast =>
      refine (nearestBits_underflow (fraction_pos d) ?_).symm
      rw [fraction_eq, value]
      have hlog : (d.digits : ℚ) < 10 ^ ((d.digits.log2 : Int) + 1) :=
        calc (d.digits : ℚ) < 2 ^ ((d.digits.log2 : Int) + 1) :=
              (log2_bounds (Nat.pos_of_ne_zero h)).2
          _ ≤ 10 ^ ((d.digits.log2 : Int) + 1) :=
              zpow_le_zpow_left₀ (by omega) (by norm_num) (by norm_num)
      calc (d.digits : ℚ) * 10 ^ d.exponent
          < 10 ^ ((d.digits.log2 : Int) + 1) * 10 ^ d.exponent := by gcongr
        _ = 10 ^ (d.exponent + (d.digits.log2 + 1)) := by
          rw [← zpow_add₀ (by norm_num)]
          congr 1
          ring
        _ ≤ 10 ^ (-330 : Int) := zpow_le_zpow_right₀ (by norm_num) (le_of_lt hleast)
        _ < 2 ^ (-1075 : Int) := ten_pow_least
    next => rfl

theorem bits_le (d : Decimal) : d.bits ≤ infinityBits := by
  by_cases h : d.digits = 0
  · rw [bits, if_pos h]
    exact Nat.zero_le _
  · rw [bits_eq h]
    exact nearestBits_le _ _

theorem value_eq_zero {d : Decimal} : d.value = 0 ↔ d.digits = 0 := by
  rw [value, mul_eq_zero, or_iff_left (by positivity), Nat.cast_eq_zero]

/-- Decimals of one value read alike. -/
theorem bits_congr {d d' : Decimal} (h : d.value = d'.value) : d.bits = d'.bits := by
  by_cases hd : d.digits = 0
  · have hd' : d'.digits = 0 := by rwa [← value_eq_zero, ← h, value_eq_zero]
    rw [bits, bits, if_pos hd, if_pos hd']
  · have hd' : d'.digits ≠ 0 := by rwa [Ne, ← value_eq_zero, ← h, value_eq_zero]
    rw [bits_eq hd, bits_eq hd']
    refine nearestBits_congr (fraction_pos d) (fraction_pos d') ?_
    rw [fraction_eq, fraction_eq, h]

/-! ## The shortest decimal -/

theorem onGrid_bits {tie : Tie} {num den target : Nat} {exponent : Int} {d : Decimal}
    (h : onGrid tie num den target exponent = some d) : d.bits = target := by
  unfold onGrid at h
  generalize (if 0 ≤ exponent then (num, den * Nat.pow 10 exponent.toNat)
    else (num * Nat.pow 10 (-exponent).toNat, den)) = p at h
  obtain ⟨n, den⟩ := p
  dsimp only at h
  split at h
  next hlower =>
    split at h
    next hupper =>
      cases h
      exact hupper.2
    next =>
      cases h
      exact hlower
  next =>
    split at h
    next hupper =>
      cases h
      exact hupper
    next => cases h

theorem firstGrid_bits {tie : Tie} {num den target : Nat} {magnitude : Int} {left count : Nat}
    {d : Decimal} (h : firstGrid tie num den target magnitude left count = some d) :
    d.bits = target := by
  induction left generalizing count with
  | zero => cases h
  | succ left ih =>
    rw [firstGrid] at h
    split at h
    next hgrid =>
      cases h
      exact onGrid_bits hgrid
    next => exact ih h

theorem dropZeros_value (fuel : Nat) (d : Decimal) : (dropZeros fuel d).value = d.value := by
  induction fuel generalizing d with
  | zero => rfl
  | succ fuel ih =>
    rw [dropZeros]
    split
    next h =>
      have hten : d.digits = d.digits / 10 * 10 := by omega
      rw [ih, value, value, zpow_add₀ (by norm_num), zpow_one]
      conv_rhs => rw [hten]
      push_cast
      ring
    next => rfl

theorem exact_value (m : Nat) (e : Int) : (exact m e).value = m * 2 ^ e := by
  rw [exact]
  split
  next h =>
    obtain ⟨k, hk⟩ := Int.eq_ofNat_of_zero_le h
    rw [hk, value, Int.toNat_natCast, zpow_natCast, zpow_zero, mul_one, Nat.pow_eq]
    push_cast
    rfl
  next h =>
    obtain ⟨k, hk⟩ := Int.eq_ofNat_of_zero_le (show 0 ≤ -e by omega)
    rw [hk, value, Int.toNat_natCast, show e = -(k : Int) by omega, zpow_neg, zpow_neg,
      zpow_natCast, zpow_natCast, show (10 : ℚ) = 5 * 2 by norm_num, mul_pow, Nat.pow_eq]
    push_cast
    field_simp

/-- The shortest decimal reads back. -/
theorem shortest_bits (tie : Tie) {m : Nat} (hm : 0 < m) (e : Int) :
    (shortest tie m e).bits = nearestBits (m * Nat.pow 2 e.toNat) (Nat.pow 2 (-e).toNat) := by
  rw [shortest]
  split
  next d h => rw [bits_congr (dropZeros_value 20 d), firstGrid_bits h]
  next =>
    have hden : 0 < Nat.pow 2 (-e).toNat := Nat.pow_pos (by decide)
    have hdigits : (exact m e).digits ≠ 0 := by
      rw [Ne, ← value_eq_zero, exact_value]
      positivity
    rw [bits_eq hdigits]
    refine nearestBits_congr (fraction_pos _) hden ?_
    rw [fraction_eq, exact_value, finite_eq]

end Sundial.Decimal
