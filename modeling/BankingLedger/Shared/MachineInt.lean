import Mathlib.Algebra.Group.Nat.Defs
import Mathlib.Tactic.Common

set_option autoImplicit false

namespace MachineInt

def checkedAdd (a b : Int64) : Option Int64 :=
  if Int64.minValue.toInt ≤ a.toInt + b.toInt ∧ a.toInt + b.toInt ≤ Int64.maxValue.toInt then
    some (a + b)
  else
    none

def checkedSub (a b : Int64) : Option Int64 :=
  if Int64.minValue.toInt ≤ a.toInt - b.toInt ∧ a.toInt - b.toInt ≤ Int64.maxValue.toInt then
    some (a - b)
  else
    none

-- `try_into().unwrap_or(i64::MAX)` of a wider integer.
def clampToMax (n : Int) : Int64 :=
  if Int64.minValue.toInt ≤ n ∧ n ≤ Int64.maxValue.toInt then Int64.ofInt n else Int64.maxValue

def saturatingAdd (a b : Int64) : Int64 :=
  if a.toInt + b.toInt < Int64.minValue.toInt then Int64.minValue
  else if Int64.maxValue.toInt < a.toInt + b.toInt then Int64.maxValue
  else a + b

def InRange (n : Int) : Prop := Int64.minValue.toInt ≤ n ∧ n ≤ Int64.maxValue.toInt

instance (n : Int) : Decidable (InRange n) := inferInstanceAs (Decidable (_ ∧ _))

theorem toInt_ofInt_of_inRange {n : Int} (inside : InRange n) : (Int64.ofInt n).toInt = n := by
  obtain ⟨low, high⟩ := inside
  rw [Int64.toInt_minValue] at low
  rw [Int64.toInt_maxValue] at high
  exact Int64.toInt_ofInt_of_le (by omega) (by omega)

theorem bounds (a : Int64) :
    -9223372036854775808 ≤ a.toInt ∧ a.toInt ≤ 9223372036854775807 := by
  have low := a.le_toInt
  have high := a.toInt_lt
  omega

theorem inRange_toInt (a : Int64) : InRange a.toInt := by
  have := bounds a
  rw [InRange, Int64.toInt_minValue, Int64.toInt_maxValue]
  omega

theorem toInt_add_of_bounds {a b : Int64} (low : -9223372036854775808 ≤ a.toInt + b.toInt)
    (high : a.toInt + b.toInt ≤ 9223372036854775807) : (a + b).toInt = a.toInt + b.toInt := by
  rw [Int64.toInt_add]
  apply Int.bmod_eq_of_le <;> omega

theorem toInt_sub_of_bounds {a b : Int64} (low : -9223372036854775808 ≤ a.toInt - b.toInt)
    (high : a.toInt - b.toInt ≤ 9223372036854775807) : (a - b).toInt = a.toInt - b.toInt := by
  rw [Int64.toInt_sub]
  apply Int.bmod_eq_of_le <;> omega

theorem checkedAdd_eq_some_iff {a b c : Int64} :
    checkedAdd a b = some c ↔
      -9223372036854775808 ≤ a.toInt + b.toInt ∧ a.toInt + b.toInt ≤ 9223372036854775807 ∧
        c = a + b := by
  simp only [checkedAdd, Int64.toInt_minValue, Int64.toInt_maxValue]
  split
  · simp only [Option.some.injEq]
    constructor
    · rintro rfl
      exact ⟨by omega, by omega, rfl⟩
    · rintro ⟨-, -, rfl⟩; rfl
  · simp only [reduceCtorEq, false_iff]; omega

theorem isSome_checkedAdd {a b : Int64} : (checkedAdd a b).isSome ↔
    -9223372036854775808 ≤ a.toInt + b.toInt ∧ a.toInt + b.toInt ≤ 9223372036854775807 := by
  simp only [Option.isSome_iff_exists, checkedAdd_eq_some_iff]
  exact ⟨fun ⟨_, low, high, _⟩ => ⟨low, high⟩, fun ⟨low, high⟩ => ⟨_, low, high, rfl⟩⟩

theorem checkedAdd_toInt {a b c : Int64} (sum : checkedAdd a b = some c) :
    c.toInt = a.toInt + b.toInt := by
  obtain ⟨low, high, rfl⟩ := checkedAdd_eq_some_iff.mp sum
  exact toInt_add_of_bounds low high

theorem checkedAdd_eq_none_iff {a b : Int64} :
    checkedAdd a b = none ↔
      a.toInt + b.toInt < -9223372036854775808 ∨ 9223372036854775807 < a.toInt + b.toInt := by
  simp only [checkedAdd, Int64.toInt_minValue, Int64.toInt_maxValue]
  split <;> simp <;> omega

theorem pos_iff {a : Int64} : 0 < a ↔ 0 < a.toInt := by
  rw [Int64.lt_iff_toInt_lt, Int64.toInt_zero]

theorem nonpos_iff {a : Int64} : a ≤ 0 ↔ a.toInt ≤ 0 := by
  rw [Int64.le_iff_toInt_le, Int64.toInt_zero]

theorem toInt_sub_of_covered {a b : Int64} (positive : 0 < b.toInt) (covered : b.toInt ≤ a.toInt) :
    (a - b).toInt = a.toInt - b.toInt := by
  have := bounds a
  exact toInt_sub_of_bounds (by omega) (by omega)

theorem checkedSub_of_covered {a b : Int64} (positive : 0 < b.toInt) (covered : b.toInt ≤ a.toInt) :
    checkedSub a b = some (a - b) := by
  have := bounds a
  rw [checkedSub, Int64.toInt_minValue, Int64.toInt_maxValue, if_pos (by omega)]

theorem toInt_add_neg {a b : Int64} (positive : 0 < b.toInt) (covered : b.toInt ≤ a.toInt) :
    (a + -b).toInt = a.toInt - b.toInt := by
  rw [← Int64.sub_eq_add_neg]
  exact toInt_sub_of_covered positive covered

-- Below the range a difference wraps around once.
theorem toInt_add_neg_of_wraps {a b : Int64} (wraps : a.toInt - b.toInt < -9223372036854775808) :
    (a + -b).toInt = a.toInt - b.toInt + 18446744073709551616 := by
  have := bounds a
  have := bounds b
  rw [← Int64.sub_eq_add_neg, Int64.toInt_sub, Int.bmod_def]
  split <;> omega

-- Doubling loses nothing below half the range, so a positive value never cancels itself.
theorem add_ne_self {a b : Int64} (positive : 0 < b) : a + b ≠ a ∧ a + -b ≠ a := by
  constructor <;> grind

theorem add_self_ne_zero {a : Int64} (positive : 0 < a.toInt) : a + a ≠ 0 := by
  intro cancelled
  have value : (a + a).toInt = 0 := by rw [cancelled, Int64.toInt_zero]
  have := bounds a
  rw [Int64.toInt_add, Int.bmod_def] at value
  split at value <;> omega

section Unsigned

def mulTrapping (a b : UInt64) : Option UInt64 :=
  if a.toNat * b.toNat < 2 ^ 64 then some (a * b) else none

def powWrapping (a : UInt64) : Nat → UInt64
  | 0 => 1
  | n + 1 => powWrapping a n * a

def powTrapping (a : UInt64) : Nat → Option UInt64
  | 0 => some 1
  | n + 1 => (powTrapping a n).bind fun power => mulTrapping power a

variable {a : UInt64}

theorem toNat_powWrapping (a : UInt64) (n : Nat) : (powWrapping a n).toNat = a.toNat ^ n % 2 ^ 64 := by
  induction n with
  | zero => rfl
  | succ n ih =>
    rw [powWrapping, UInt64.toNat_mul, ih, Nat.mod_mul_mod]
    rfl

-- The powers before the last are smaller, so only the last one can overflow.
theorem powTrapping_eq (positive : 0 < a.toNat) (n : Nat) :
    powTrapping a n = if a.toNat ^ n < 2 ^ 64 then some (powWrapping a n) else none := by
  induction n with
  | zero => rfl
  | succ n ih =>
    have grows : a.toNat ^ n ≤ a.toNat ^ (n + 1) := Nat.pow_le_pow_right positive (Nat.le_succ n)
    rw [powTrapping, ih]
    by_cases fits : a.toNat ^ n < 2 ^ 64
    next =>
      have power : (powWrapping a n).toNat = a.toNat ^ n := by
        rw [toNat_powWrapping, Nat.mod_eq_of_lt fits]
      rw [if_pos fits, Option.bind_some, mulTrapping, power, ← Nat.pow_succ, powWrapping]
    next =>
      rw [if_neg fits, if_neg fun smaller => fits (Nat.lt_of_le_of_lt grows smaller), Option.bind_none]

theorem toNat_min (a b : UInt64) : (min a b).toNat = min a.toNat b.toNat := by
  change (if a ≤ b then a else b).toNat = _
  simp only [UInt64.le_iff_toNat_le]
  split <;> omega

end Unsigned

end MachineInt
