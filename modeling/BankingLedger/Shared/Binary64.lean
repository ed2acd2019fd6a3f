import BankingLedger.Shared.Rounding
import Mathlib.Data.Int.Log
import Mathlib.Data.Rat.Floor

set_option autoImplicit false

namespace Binary64

open Rounding

-- The exponent of the last place of a number of this size. Below `2 ^ -1022` the places end.
def lastPlace (x : ℚ) : ℤ := max (Int.log 2 x - 52) (-1074)

def unit (x : ℚ) : ℚ := 2 ^ lastPlace x

/-- The nearest double of a number that is not negative and below the largest one, ties to even. -/
def double (x : ℚ) : ℚ := halfEven.toInt (x / unit x) * unit x

variable {x y : ℚ} {n : Nat}

theorem unit_pos (x : ℚ) : 0 < unit x := zpow_pos two_pos _

theorem log_mono (positive : 0 < x) (le : x ≤ y) : Int.log 2 x ≤ Int.log 2 y := Int.log_mono_right positive le

theorem double_zero : double 0 = 0 := by
  have zero : halfEven.toInt ((0 : ℤ) : ℚ) = 0 := Rule.toInt_intCast _ 0
  rw [Int.cast_zero] at zero
  rw [double, zero_div, zero, Int.cast_zero, zero_mul]

theorem double_of_multiple {k : ℤ} (multiple : x = k * unit x) : double x = x := by
  have nonzero := (unit_pos x).ne'
  have quotient : x / unit x = k := by rw [div_eq_iff nonzero, ← multiple]
  rw [double, quotient, Rule.toInt_intCast, ← multiple]

theorem double_nonneg (nonneg : 0 ≤ x) : 0 ≤ double x := by
  have low : (0 : ℤ) ≤ halfEven.toInt (x / unit x) := by
    apply Rule.le_toInt
    rw [Int.cast_zero]
    exact div_nonneg nonneg (unit_pos x).le
  exact mul_nonneg (Int.cast_nonneg low) (unit_pos x).le

theorem double_le {k : ℤ} (le : x ≤ k * unit x) : double x ≤ k * unit x := by
  have below : halfEven.toInt (x / unit x) ≤ k := Rule.toInt_le _ ((div_le_iff₀ (unit_pos x)).mpr le)
  exact mul_le_mul_of_nonneg_right (Int.cast_le.mpr below) (unit_pos x).le

theorem le_double {k : ℤ} (le : k * unit x ≤ x) : k * unit x ≤ double x := by
  have above : k ≤ halfEven.toInt (x / unit x) := Rule.le_toInt _ ((le_div_iff₀ (unit_pos x)).mpr le)
  exact mul_le_mul_of_nonneg_right (Int.cast_le.mpr above) (unit_pos x).le

theorem exists_multiple {e : ℤ} (le : lastPlace x ≤ e) : ∃ k : ℤ, (2 : ℚ) ^ e = k * unit x := by
  refine ⟨2 ^ (e - lastPlace x).toNat, ?_⟩
  have places : ((e - lastPlace x).toNat : ℤ) = e - lastPlace x := Int.toNat_of_nonneg (by omega)
  rw [unit]
  push_cast
  rw [← zpow_natCast, places, ← zpow_add₀ two_ne_zero]
  congr 1
  omega

theorem double_mono (nonneg : 0 ≤ x) (le : x ≤ y) : double x ≤ double y := by
  rcases nonneg.eq_or_lt with rfl | positive
  next =>
    rw [double_zero]
    exact double_nonneg le
  have logs := log_mono positive le
  by_cases same : lastPlace x = lastPlace y
  next =>
    have units : unit x = unit y := by rw [unit, unit, same]
    have quotients : x / unit y ≤ y / unit y := div_le_div_of_nonneg_right le (unit_pos y).le
    rw [double, double, units]
    exact mul_le_mul_of_nonneg_right (Int.cast_le.mpr (Rule.toInt_mono _ quotients)) (unit_pos y).le
  next =>
    -- the power of two below `y` is between them
    have larger : lastPlace y = Int.log 2 y - 52 ∧ lastPlace x ≤ Int.log 2 y ∧ Int.log 2 x < Int.log 2 y := by
      simp only [lastPlace] at same ⊢
      omega
    have between : x < 2 ^ Int.log 2 y := by
      have power := Int.lt_zpow_succ_log_self (b := 2) one_lt_two x
      have exponents : (2 : ℚ) ^ (Int.log 2 x + 1) ≤ 2 ^ Int.log 2 y :=
        zpow_le_zpow_right₀ one_le_two (by omega)
      exact lt_of_lt_of_le (by exact_mod_cast power) exponents
    have below : (2 : ℚ) ^ Int.log 2 y ≤ y := by
      exact_mod_cast Int.zpow_log_le_self (b := 2) one_lt_two (positive.trans_le le)
    obtain ⟨k, multiple⟩ := exists_multiple larger.2.1
    obtain ⟨k', multiple'⟩ := exists_multiple (x := y) (e := Int.log 2 y) (by omega)
    have first : double x ≤ 2 ^ Int.log 2 y := by
      rw [multiple] at between ⊢
      exact double_le between.le
    have second : 2 ^ Int.log 2 y ≤ double y := by
      rw [multiple'] at below ⊢
      exact le_double below
    exact first.trans second

theorem double_two_zpow {e : ℤ} (normal : -1074 ≤ e) : double (2 ^ e) = 2 ^ e := by
  have log : Int.log 2 ((2 : ℚ) ^ e) = e := by exact_mod_cast Int.log_zpow (R := ℚ) one_lt_two e
  obtain ⟨k, multiple⟩ := exists_multiple (x := 2 ^ e) (e := e) (by rw [lastPlace, log]; omega)
  exact double_of_multiple multiple

theorem double_natCast (small : n ≤ 2 ^ 53) : double n = n := by
  rcases small.eq_or_lt with rfl | less
  next => exact_mod_cast double_two_zpow (e := 53) (by norm_num)
  next =>
    have log : Int.log 2 (n : ℚ) ≤ 52 := by
      rw [Int.log_natCast]
      exact_mod_cast Nat.le_of_lt_succ (Nat.log_lt_of_lt_pow' (by norm_num) less)
    have places : lastPlace (n : ℚ) ≤ 0 := by
      rw [lastPlace]
      omega
    obtain ⟨k, multiple⟩ := exists_multiple (x := n) (e := 0) places
    refine double_of_multiple (k := n * k) ?_
    rw [Int.cast_mul, mul_assoc, ← multiple, zpow_zero, mul_one, Int.cast_natCast]

theorem abs_double_sub_le (x : ℚ) : |double x - x| ≤ unit x / 2 := by
  have near : |(halfEven.toInt (x / unit x) : ℚ) - x / unit x| ≤ 1 / 2 := abs_nearest_sub_le _ _
  have scaled : double x - x = (halfEven.toInt (x / unit x) - x / unit x) * unit x := by
    rw [sub_mul, div_mul_cancel₀ _ (unit_pos x).ne', double]
  rw [scaled, abs_mul, abs_of_pos (unit_pos x)]
  calc _ ≤ 1 / 2 * unit x := mul_le_mul_of_nonneg_right near (unit_pos x).le
    _ = unit x / 2 := by ring

theorem unit_le (positive : 0 < x) : unit x ≤ max (x / 2 ^ 52) (1 / 2 ^ 1074) := by
  by_cases normal : -1074 ≤ Int.log 2 x - 52
  next =>
    have below : (2 : ℚ) ^ Int.log 2 x ≤ x := by
      exact_mod_cast Int.zpow_log_le_self (b := 2) one_lt_two positive
    rw [unit, lastPlace, max_eq_left normal, zpow_sub₀ two_ne_zero]
    exact le_max_of_le_left (div_le_div_of_nonneg_right below (by positivity))
  next =>
    rw [unit, lastPlace, max_eq_right (by omega), zpow_neg]
    exact le_max_of_le_right (by rw [one_div]; exact le_rfl)

theorem double_error (nonneg : 0 ≤ x) : |double x - x| ≤ max (x / 2 ^ 53) (1 / 2 ^ 1075) := by
  rcases nonneg.eq_or_lt with rfl | positive
  next =>
    rw [double_zero, sub_zero, abs_zero]
    positivity
  next =>
    have halves : max (x / 2 ^ 53) (1 / 2 ^ 1075) = max (x / 2 ^ 52) (1 / 2 ^ 1074) / 2 := by
      rw [← max_div_div_right (zero_le_two (α := ℚ)), div_div, div_div, ← pow_succ, ← pow_succ]
    rw [halves]
    exact (abs_double_sub_le x).trans (div_le_div_of_nonneg_right (unit_le positive) two_pos.le)

-- What is not too small is rounded by no more than its own share.
theorem double_error_of_normal (normal : x = 0 ∨ 1 / 2 ^ 1022 ≤ x) : |double x - x| ≤ x / 2 ^ 53 := by
  rcases normal with rfl | large
  next => rw [double_zero, sub_zero, abs_zero, zero_div]
  next =>
    have positive : (0 : ℚ) < 1 / 2 ^ 1022 := by positivity
    have share : (1 : ℚ) / 2 ^ 1075 ≤ x / 2 ^ 53 := by
      rw [div_le_div_iff₀ (by positivity) (by positivity)]
      rw [div_le_iff₀ (by positivity)] at large
      calc (1 : ℚ) * 2 ^ 53 ≤ x * 2 ^ 1022 * 2 ^ 53 := mul_le_mul_of_nonneg_right large (by positivity)
        _ = x * 2 ^ 1075 := by rw [mul_assoc, ← pow_add]
    exact (double_error (positive.le.trans large)).trans (max_le le_rfl share)

end Binary64
