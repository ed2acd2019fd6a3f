import Mathlib.Algebra.Order.Round
import Mathlib.Data.Rat.Floor
import Mathlib.Tactic.FieldSimp
import Mathlib.Tactic.Linarith

set_option autoImplicit false

namespace BoundedDecimal

section Rounding

def roundHalfEven (q : ℚ) : ℤ :=
  if 2 * (q - ⌊q⌋) < 1 then ⌊q⌋
  else if 1 < 2 * (q - ⌊q⌋) then ⌊q⌋ + 1
  else if ⌊q⌋ % 2 = 0 then ⌊q⌋ else ⌊q⌋ + 1

variable {q : ℚ} {n : ℤ}

theorem roundHalfEven_intCast (n : ℤ) : roundHalfEven n = n := by
  simp [roundHalfEven]

theorem floor_le_roundHalfEven (q : ℚ) : ⌊q⌋ ≤ roundHalfEven q := by
  unfold roundHalfEven
  split_ifs <;> omega

theorem roundHalfEven_le_floor_add_one (q : ℚ) : roundHalfEven q ≤ ⌊q⌋ + 1 := by
  unfold roundHalfEven
  split_ifs <;> omega

theorem le_roundHalfEven (below : (n : ℚ) ≤ q) : n ≤ roundHalfEven q :=
  le_trans (Int.le_floor.mpr below) (floor_le_roundHalfEven q)

theorem roundHalfEven_le (above : q ≤ n) : roundHalfEven q ≤ n := by
  rcases above.lt_or_eq with less | same
  next =>
    have floor : ⌊q⌋ < n := Int.floor_lt.mpr less
    have := roundHalfEven_le_floor_add_one q
    omega
  next => rw [same, roundHalfEven_intCast]

theorem natAbs_roundHalfEven_le {bound : ℕ} (within : |q| ≤ bound) : (roundHalfEven q).natAbs ≤ bound := by
  obtain ⟨low, high⟩ := abs_le.mp within
  have below : ((-bound : ℤ) : ℚ) ≤ q := by
    push_cast
    exact low
  have := le_roundHalfEven below
  have := roundHalfEven_le (n := (bound : ℤ)) (by exact_mod_cast high)
  omega

end Rounding

/-- Mantissas are below `bound`, and there are at most `maxScale` decimals. -/
structure Format where
  bound : ℕ
  maxScale : ℕ

structure Dec (F : Format) where
  mantissa : ℤ
  scale : ℕ
  mantissa_lt : mantissa.natAbs < F.bound
  scale_le : scale ≤ F.maxScale
deriving DecidableEq

variable {F : Format}

def Dec.value (d : Dec F) : ℚ := d.mantissa / 10 ^ d.scale

def Dec.ofInt (n : ℤ) (small : n.natAbs < F.bound) : Dec F :=
  { mantissa := n, scale := 0, mantissa_lt := small, scale_le := Nat.zero_le _ }

@[simp] theorem Dec.value_ofInt {n : ℤ} (small : n.natAbs < F.bound) : (Dec.ofInt n small : Dec F).value = n := by
  simp [Dec.ofInt, Dec.value]

def Representable (F : Format) (q : ℚ) : Prop := ∃ d : Dec F, d.value = q

section Representable

variable {k : ℕ}

theorem natCast_pow_ten_pos (k : ℕ) : (0 : ℚ) < 10 ^ k := by positivity

theorem Dec.value_mul_pow (d : Dec F) : d.value * 10 ^ d.scale = d.mantissa :=
  div_mul_cancel₀ _ (natCast_pow_ten_pos d.scale).ne'

theorem representable_intCast_iff {n : ℤ} : Representable F n ↔ n.natAbs < F.bound := by
  constructor
  · rintro ⟨d, same⟩
    have scaled := d.value_mul_pow
    rw [same] at scaled
    have mantissa : d.mantissa = n * 10 ^ d.scale := by exact_mod_cast scaled.symm
    have grows : n.natAbs * 1 ≤ n.natAbs * 10 ^ d.scale := Nat.mul_le_mul_left _ (Nat.one_le_pow _ _ (by decide))
    have small := d.mantissa_lt
    rw [mantissa, Int.natAbs_mul, Int.natAbs_pow] at small
    change n.natAbs * 10 ^ d.scale < F.bound at small
    omega
  · intro small
    exact ⟨.ofInt n small, Dec.value_ofInt small⟩

-- Past the decimals there are, moving the point makes the mantissa longer.
theorem Dec.value_shift_past {d : Dec F} (past : d.scale ≤ k) :
    d.value * 10 ^ k = ((d.mantissa * 10 ^ (k - d.scale) : ℤ) : ℚ) := by
  have split : (10 : ℚ) ^ k = 10 ^ d.scale * 10 ^ (k - d.scale) := by
    rw [← pow_add, Nat.add_sub_cancel' past]
  rw [split, ← mul_assoc, d.value_mul_pow]
  push_cast
  rfl

theorem Dec.value_shift_within {d : Dec F} (within : k ≤ d.scale) :
    d.value * 10 ^ k = d.mantissa / 10 ^ (d.scale - k) := by
  have split : (10 : ℚ) ^ d.scale = 10 ^ (d.scale - k) * 10 ^ k := by
    rw [← pow_add, Nat.sub_add_cancel within]
  rw [Dec.value, split]
  field_simp

theorem Dec.natAbs_shift (d : Dec F) (k : ℕ) :
    (d.mantissa * 10 ^ (k - d.scale)).natAbs = d.mantissa.natAbs * 10 ^ (k - d.scale) := by
  rw [Int.natAbs_mul, Int.natAbs_pow]
  rfl

theorem representable_shift_iff (d : Dec F) (k : ℕ) :
    Representable F (d.value * 10 ^ k) ↔ k ≤ d.scale ∨ d.mantissa.natAbs * 10 ^ (k - d.scale) < F.bound := by
  by_cases within : k ≤ d.scale
  next =>
    refine iff_of_true ?_ (.inl within)
    have scale : d.scale - k ≤ F.maxScale := le_trans (Nat.sub_le _ _) d.scale_le
    exact ⟨⟨d.mantissa, d.scale - k, d.mantissa_lt, scale⟩, (Dec.value_shift_within within).symm⟩
  next =>
    rw [or_iff_right within, Dec.value_shift_past (Nat.le_of_not_le within), representable_intCast_iff,
      d.natAbs_shift]

theorem bound_le_of_not_representable {d : Dec F} (large : ¬Representable F (d.value * 10 ^ k)) :
    (F.bound : ℚ) ≤ |d.value * 10 ^ k| := by
  rw [representable_shift_iff, not_or, Nat.not_lt] at large
  obtain ⟨past, large⟩ := large
  rw [Dec.value_shift_past (Nat.le_of_not_le past), ← Int.cast_abs, ← Int.natCast_natAbs, d.natAbs_shift]
  exact_mod_cast large

end Representable

/-- The operations of a library of such numbers. `none` is a panic. -/
structure Arithmetic (F : Format) where
  mul : Dec F → Dec F → Option (Dec F)
  div : Dec F → Dec F → Option (Dec F)
  round : Dec F → Dec F

/-- Results that the format has are exact, and products past all it has panic. Others may be rounded. -/
structure Arithmetic.Lawful (A : Arithmetic F) : Prop where
  mul_exact : ∀ a b, Representable F (a.value * b.value) →
    ∃ c, A.mul a b = some c ∧ c.value = a.value * b.value
  mul_overflow : ∀ a b, (F.bound : ℚ) ≤ |a.value * b.value| → A.mul a b = none
  div_exact : ∀ a b, b.value ≠ 0 → Representable F (a.value / b.value) →
    ∃ c, A.div a b = some c ∧ c.value = a.value / b.value
  round_value : ∀ a, (A.round a).value = roundHalfEven a.value

section Exact

theorem Dec.abs_value_le (d : Dec F) : |d.value| ≤ d.mantissa.natAbs := by
  have one : (1 : ℚ) ≤ 10 ^ d.scale := one_le_pow₀ (by norm_num)
  have size : ((d.mantissa.natAbs : ℕ) : ℚ) = |(d.mantissa : ℚ)| :=
    (Nat.cast_natAbs d.mantissa).trans Int.cast_abs
  rw [Dec.value, abs_div, abs_of_pos (natCast_pow_ten_pos d.scale), size]
  exact div_le_self (abs_nonneg _) one

theorem Dec.abs_value_lt (d : Dec F) : |d.value| < F.bound :=
  lt_of_le_of_lt d.abs_value_le (by exact_mod_cast d.mantissa_lt)

-- The number with the fewest decimals.
def ofRat? (F : Format) (q : ℚ) : Option (Dec F) :=
  (List.range (F.maxScale + 1)).findSome? fun t =>
    if fits : (q * 10 ^ t).den = 1 ∧ (q * 10 ^ t).num.natAbs < F.bound ∧ t ≤ F.maxScale then
      some { mantissa := (q * 10 ^ t).num, scale := t, mantissa_lt := fits.2.1, scale_le := fits.2.2 }
    else none

theorem value_of_ofRat? {q : ℚ} {d : Dec F} (found : ofRat? F q = some d) : d.value = q := by
  obtain ⟨t, -, here⟩ := List.exists_of_findSome?_eq_some found
  by_cases fits : (q * 10 ^ t).den = 1 ∧ (q * 10 ^ t).num.natAbs < F.bound ∧ t ≤ F.maxScale
  next =>
    rw [dif_pos fits, Option.some.injEq] at here
    subst here
    have whole : ((q * 10 ^ t).num : ℚ) = q * 10 ^ t := Rat.coe_int_num_of_den_eq_one fits.1
    rw [Dec.value, whole, mul_div_cancel_right₀ _ (natCast_pow_ten_pos t).ne']
  next =>
    rw [dif_neg fits] at here
    cases here

theorem ofRat?_of_representable {q : ℚ} (representable : Representable F q) : ∃ d, ofRat? F q = some d := by
  obtain ⟨d, rfl⟩ := representable
  rw [← Option.isSome_iff_exists, ofRat?, List.findSome?_isSome_iff]
  refine ⟨d.scale, List.mem_range.mpr (Nat.lt_succ_of_le d.scale_le), ?_⟩
  have whole := d.value_mul_pow
  have fits : (d.value * 10 ^ d.scale).den = 1 ∧ (d.value * 10 ^ d.scale).num.natAbs < F.bound ∧
      d.scale ≤ F.maxScale := by
    rw [whole, Rat.den_intCast, Rat.num_intCast]
    exact ⟨rfl, d.mantissa_lt, d.scale_le⟩
  rw [dif_pos fits]
  rfl

def mulExactly (a b : Dec F) : Option (Dec F) :=
  if fits : (a.mantissa * b.mantissa).natAbs < F.bound ∧ a.scale + b.scale ≤ F.maxScale then
    some
      { mantissa := a.mantissa * b.mantissa
        scale := a.scale + b.scale
        mantissa_lt := fits.1
        scale_le := fits.2 }
  else ofRat? F (a.value * b.value)

theorem value_of_mulExactly {a b c : Dec F} (product : mulExactly a b = some c) : c.value = a.value * b.value := by
  by_cases fits : (a.mantissa * b.mantissa).natAbs < F.bound ∧ a.scale + b.scale ≤ F.maxScale
  next =>
    rw [mulExactly, dif_pos fits, Option.some.injEq] at product
    subst product
    simp only [Dec.value, Int.cast_mul, pow_add]
    exact (div_mul_div_comm _ _ _ _).symm
  next =>
    rw [mulExactly, dif_neg fits] at product
    exact value_of_ofRat? product

theorem mulExactly_of_representable {a b : Dec F} (representable : Representable F (a.value * b.value)) :
    ∃ c, mulExactly a b = some c := by
  by_cases fits : (a.mantissa * b.mantissa).natAbs < F.bound ∧ a.scale + b.scale ≤ F.maxScale
  next => exact ⟨_, dif_pos fits⟩
  next =>
    rw [mulExactly, dif_neg fits]
    exact ofRat?_of_representable representable

def exactArithmetic (F : Format) : Arithmetic F where
  mul := mulExactly
  div a b := if b.value = 0 then none else ofRat? F (a.value / b.value)
  round a :=
    Dec.ofInt (roundHalfEven a.value) (Nat.lt_of_le_of_lt (natAbs_roundHalfEven_le a.abs_value_le) a.mantissa_lt)

theorem exactArithmetic_lawful (F : Format) : (exactArithmetic F).Lawful where
  mul_exact a b representable := by
    obtain ⟨c, product⟩ := mulExactly_of_representable representable
    exact ⟨c, product, value_of_mulExactly product⟩
  mul_overflow a b large := by
    refine Option.eq_none_iff_forall_ne_some.mpr fun c product => ?_
    rw [← value_of_mulExactly product] at large
    exact absurd c.abs_value_lt (not_lt.mpr large)
  div_exact a b nonzero representable := by
    obtain ⟨c, quotient⟩ := ofRat?_of_representable representable
    exact ⟨c, (if_neg nonzero).trans quotient, value_of_ofRat? quotient⟩
  round_value a := Dec.value_ofInt _

end Exact

end BoundedDecimal
