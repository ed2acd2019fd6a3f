import Mathlib.Algebra.Order.Floor.Ring
import Mathlib.Algebra.Order.Round
import Mathlib.Tactic.Linarith
import Mathlib.Tactic.FieldSimp

set_option autoImplicit false

namespace Rounding

variable {K : Type} [Field K] [LinearOrder K] [IsStrictOrderedRing K] [FloorRing K]

/-- `up n f` takes `n + f` up to `n + 1`. -/
structure Rule (K : Type) [Field K] [LinearOrder K] where
  up : ℤ → K → Bool
  up_zero : ∀ n, up n 0 = false
  up_mono : ∀ n f g, f ≤ g → up n f = true → up n g = true

namespace Rule

variable (r : Rule K) {x y : K} {n : ℤ} {m : ℕ}

def toInt (x : K) : ℤ := if r.up ⌊x⌋ (Int.fract x) then ⌊x⌋ + 1 else ⌊x⌋

theorem toInt_intCast (n : ℤ) : r.toInt (n : K) = n := by
  rw [toInt, Int.fract_intCast, r.up_zero, if_neg Bool.false_ne_true, Int.floor_intCast]

omit [IsStrictOrderedRing K] in
theorem floor_le_toInt (x : K) : ⌊x⌋ ≤ r.toInt x := by
  unfold toInt
  split_ifs <;> omega

omit [IsStrictOrderedRing K] in
theorem toInt_le_floor_add_one (x : K) : r.toInt x ≤ ⌊x⌋ + 1 := by
  unfold toInt
  split_ifs <;> omega

theorem toInt_mono (le : x ≤ y) : r.toInt x ≤ r.toInt y := by
  have floors := Int.floor_mono le
  by_cases same : ⌊x⌋ = ⌊y⌋
  next =>
    have fracts : Int.fract x ≤ Int.fract y := by
      rw [Int.fract, Int.fract, same]
      exact sub_le_sub_right le _
    unfold toInt
    rw [same]
    by_cases up : r.up ⌊y⌋ (Int.fract x) = true
    next => rw [if_pos up, if_pos (r.up_mono _ _ _ fracts up)]
    next =>
      rw [if_neg up]
      split_ifs <;> omega
  next =>
    have low := r.toInt_le_floor_add_one x
    have high := r.floor_le_toInt y
    omega

theorem le_toInt (below : (n : K) ≤ x) : n ≤ r.toInt x := by
  have mono := r.toInt_mono below
  rwa [toInt_intCast] at mono

theorem toInt_le (above : x ≤ (n : K)) : r.toInt x ≤ n := by
  have mono := r.toInt_mono above
  rwa [toInt_intCast] at mono

theorem abs_toInt_sub_lt (x : K) : |(r.toInt x : K) - x| < 1 := by
  have split := Int.floor_add_fract x
  have low := Int.fract_nonneg x
  have high := Int.fract_lt_one x
  rw [abs_lt]
  unfold toInt
  split_ifs with up
  next =>
    have positive : 0 < Int.fract x := by
      refine lt_of_le_of_ne low fun zero => ?_
      rw [← zero, r.up_zero] at up
      cases up
    push_cast
    constructor <;> linarith
  next => constructor <;> linarith

section Scale

def atScale (m : ℕ) (x : K) : K := r.toInt (x * m) / m

theorem atScale_mul (positive : 0 < m) (x : K) : r.atScale m x * m = r.toInt (x * m) :=
  div_mul_cancel₀ _ (Nat.cast_pos.mpr positive).ne'

-- Any rule keeps what has been rounded.
theorem atScale_atScale (r' : Rule K) (positive : 0 < m) (x : K) : r'.atScale m (r.atScale m x) = r.atScale m x := by
  rw [atScale, atScale_mul r positive, toInt_intCast, atScale]

theorem atScale_mono (m : ℕ) (le : x ≤ y) : r.atScale m x ≤ r.atScale m y := by
  have scaled : x * m ≤ y * m := mul_le_mul_of_nonneg_right le (Nat.cast_nonneg m)
  exact div_le_div_of_nonneg_right (Int.cast_le.mpr (r.toInt_mono scaled)) (Nat.cast_nonneg m)

theorem abs_atScale_sub_lt (positive : 0 < m) (x : K) : |r.atScale m x - x| < 1 / m := by
  have unit : (0 : K) < m := Nat.cast_pos.mpr positive
  have scaled := abs_mul (r.atScale m x - x) (m : K)
  rw [abs_of_pos unit, sub_mul, atScale_mul r positive] at scaled
  rw [lt_div_iff₀ unit, ← scaled]
  exact r.abs_toInt_sub_lt (x * m)

end Scale

end Rule

section Directed

def directed (below above : Bool) : Rule K where
  up n f := decide (0 < f) && bif decide (n < 0) then below else above
  up_zero n := by simp
  up_mono n f g le up := by
    simp only [Bool.and_eq_true, decide_eq_true_eq] at up ⊢
    exact ⟨lt_of_lt_of_le up.1 le, up.2⟩

def floor : Rule K := directed false false
def ceil : Rule K := directed true true
def toZero : Rule K := directed true false
def awayFromZero : Rule K := directed false true

variable {below above : Bool} {x : K} {m : ℕ}

theorem directed_toInt (below above : Bool) (x : K) : (directed below above).toInt x =
    if (bif decide (x < 0) then below else above) = true then ⌈x⌉ else ⌊x⌋ := by
  have sign : decide (⌊x⌋ < 0) = decide (x < 0) := by
    rw [decide_eq_decide, Int.floor_lt, Int.cast_zero]
  simp only [Rule.toInt, directed, sign, Bool.and_eq_true, decide_eq_true_eq]
  by_cases whole : 0 < Int.fract x
  next =>
    have apart : x ∉ Set.range Int.cast := fun range => whole.ne' (Int.fract_eq_zero_iff.mpr range)
    rw [(Int.ceil_eq_floor_add_one_iff_notMem x).mpr apart]
    simp only [whole, true_and]
  next =>
    have zero : Int.fract x = 0 := le_antisymm (not_lt.mp whole) (Int.fract_nonneg x)
    have same : ⌈x⌉ = ⌊x⌋ := by
      have split := Int.floor_add_fract x
      rw [zero, add_zero] at split
      rw [← split, Int.ceil_intCast, Int.floor_intCast]
    simp only [whole, false_and, if_false, same, ite_self]

theorem floor_nested (positive : 0 < m) (y : K) : ⌊(⌊y * m⌋ : K) / m⌋ = ⌊y⌋ := by
  rw [Int.floor_div_natCast, Int.floor_intCast, Int.mul_natCast_floor_div_cancel positive.ne']

theorem ceil_nested (positive : 0 < m) (y : K) : ⌈(⌈y * m⌉ : K) / m⌉ = ⌈y⌉ := by
  have mirrored := floor_nested positive (-y)
  rw [neg_mul, Int.floor_neg, Int.cast_neg, neg_div, Int.floor_neg, Int.floor_neg, neg_inj] at mirrored
  exact mirrored

-- Of two directed rules only what they do on the side of the number matters.
theorem directed_atScale_congr {below' above' : Bool}
    (same : (bif decide (x < 0) then below else above) = bif decide (x < 0) then below' else above') (positive : 0 < m) :
    (directed below above : Rule K).atScale m x = (directed below' above').atScale m x := by
  have sign : decide (x * m < 0) = decide (x < 0) := by
    have unit : (0 : K) < m := Nat.cast_pos.mpr positive
    rw [decide_eq_decide]
    constructor
    next => exact fun product => neg_of_mul_neg_left product unit.le
    next => exact fun negative => mul_neg_of_neg_of_pos negative unit
  rw [Rule.atScale, Rule.atScale, directed_toInt, directed_toInt, sign, same]

theorem directed_nested (positive : 0 < m) (y : K) :
    (directed below above).toInt (((directed below above).toInt (y * m) : K) / m) = (directed below above).toInt y := by
  have unit : (0 : K) < m := Nat.cast_pos.mpr positive
  simp only [directed_toInt]
  by_cases negative : y < 0
  next =>
    have product : y * m < 0 := mul_neg_of_neg_of_pos negative unit
    simp only [negative, product, decide_true, cond_true]
    cases below with
    | true =>
      rw [if_pos rfl, if_pos rfl]
      have nested := ceil_nested positive y
      have nonpos : ⌈y * m⌉ ≤ 0 := Int.ceil_le.mpr (by rw [Int.cast_zero]; exact product.le)
      rcases nonpos.lt_or_eq with less | zero
      next =>
        have quotient : (⌈y * m⌉ : K) / m < 0 := div_neg_of_neg_of_pos (by exact_mod_cast less) unit
        rw [decide_eq_true quotient, cond_true, if_pos rfl, nested]
      next =>
        rw [zero, Int.cast_zero, zero_div] at nested ⊢
        rw [Int.ceil_zero, Int.floor_zero, ite_self, ← nested, Int.ceil_zero]
    | false =>
      have low : ⌊y * m⌋ < 0 := Int.floor_lt.mpr (by rw [Int.cast_zero]; exact product)
      have quotient : (⌊y * m⌋ : K) / m < 0 := div_neg_of_neg_of_pos (by exact_mod_cast low) unit
      simp only [Bool.false_eq_true, if_false, decide_eq_true quotient, cond_true, floor_nested positive y]
  next =>
    have product : ¬y * m < 0 := not_lt.mpr (mul_nonneg (not_lt.mp negative) unit.le)
    have kept {k : ℤ} (nonneg : 0 ≤ k) : ¬(k : K) / m < 0 :=
      not_lt.mpr (div_nonneg (Int.cast_nonneg nonneg) unit.le)
    simp only [negative, product, decide_false, cond_false]
    cases above with
    | true =>
      have nonneg : 0 ≤ ⌈y * m⌉ := Int.ceil_nonneg (not_lt.mp product)
      simp only [if_true, decide_eq_false (kept nonneg), cond_false, ceil_nested positive y]
    | false =>
      have nonneg : 0 ≤ ⌊y * m⌋ := Int.floor_nonneg.mpr (not_lt.mp product)
      simp only [Bool.false_eq_true, if_false, decide_eq_false (kept nonneg), cond_false, floor_nested positive y]

theorem directed_atScale_atScale {coarse : ℕ} (positive : 0 < m) (unit : 0 < coarse) (x : K) :
    (directed below above).atScale coarse ((directed below above).atScale (coarse * m) x) =
      (directed below above).atScale coarse x := by
  have nonzero : (coarse : K) ≠ 0 := (Nat.cast_pos.mpr unit).ne'
  have finer : (directed below above).atScale (coarse * m) x * coarse =
      ((directed below above).toInt (x * coarse * m) : K) / m := by
    rw [Rule.atScale, Nat.cast_mul, ← mul_assoc, div_mul_eq_mul_div, mul_comm (coarse : K) m,
      mul_div_mul_right _ _ nonzero]
  rw [Rule.atScale, finer, directed_nested positive, Rule.atScale]

end Directed

section Nearest

def nearest (tie : ℤ → Bool) : Rule K where
  up n f := decide (1 / 2 < f) || decide (f = 1 / 2) && tie n
  up_zero n := by
    have positive : (0 : K) < 1 / 2 := by norm_num
    rw [decide_eq_false positive.not_gt, decide_eq_false positive.ne, Bool.false_and, Bool.or_false]
  up_mono n f g le up := by
    simp only [Bool.or_eq_true, Bool.and_eq_true, decide_eq_true_eq] at up ⊢
    rcases up with more | tied
    next => exact .inl (lt_of_lt_of_le more le)
    next =>
      rcases le.lt_or_eq with less | same
      next => exact .inl (tied.1 ▸ less)
      next => exact .inr (same ▸ tied)

def halfEven : Rule K := nearest fun n => decide (n % 2 = 1)
def halfUp : Rule K := nearest fun n => decide (0 ≤ n)
def halfDown : Rule K := nearest fun n => decide (n < 0)

theorem abs_nearest_sub_le (tie : ℤ → Bool) (x : K) : |((nearest tie).toInt x : K) - x| ≤ 1 / 2 := by
  have split := Int.floor_add_fract x
  have low := Int.fract_nonneg x
  rw [abs_le]
  simp only [Rule.toInt, nearest, Bool.or_eq_true, Bool.and_eq_true, decide_eq_true_eq]
  split_ifs with up
  next =>
    have more : 1 / 2 ≤ Int.fract x := up.elim le_of_lt fun tied => tied.1.ge
    have high := Int.fract_lt_one x
    push_cast
    constructor <;> linarith
  next =>
    have less : Int.fract x ≤ 1 / 2 := not_lt.mp fun more => up (.inl more)
    constructor <;> linarith

end Nearest

section Mirror

def Rule.mirror (r : Rule K) : Rule K where
  up n f := decide (0 < f) && !r.up (-n - 1) (1 - f)
  up_zero n := by simp
  up_mono n f g le up := by
    simp only [Bool.and_eq_true, decide_eq_true_eq, Bool.not_eq_true', ← Bool.not_eq_true] at up ⊢
    exact ⟨lt_of_lt_of_le up.1 le, fun down => up.2 (r.up_mono _ _ _ (sub_le_sub_left le 1) down)⟩

theorem Rule.toInt_neg (r : Rule K) (x : K) : r.toInt (-x) = -r.mirror.toInt x := by
  by_cases whole : Int.fract x = 0
  next =>
    have split := Int.floor_add_fract x
    rw [whole, add_zero] at split
    rw [← split, ← Int.cast_neg, toInt_intCast, toInt_intCast]
  next =>
    have positive : 0 < Int.fract x := lt_of_le_of_ne (Int.fract_nonneg x) (Ne.symm whole)
    have floor : ⌊-x⌋ = -⌊x⌋ - 1 := by
      have split := Int.floor_add_fract x
      have high := Int.fract_lt_one x
      rw [Int.floor_eq_iff]
      push_cast
      constructor <;> linarith
    rw [toInt, Int.fract_neg whole, floor, toInt, mirror]
    simp only [positive, decide_true, Bool.true_and]
    cases r.up (-⌊x⌋ - 1) (1 - Int.fract x) with
    | true =>
      rw [if_pos rfl, Bool.not_true, if_neg Bool.false_ne_true]
      omega
    | false =>
      rw [if_neg Bool.false_ne_true, Bool.not_false, if_pos rfl]
      omega

theorem Rule.toInt_congr {r r' : Rule K} (same : ∀ n f, 0 ≤ f → f < 1 → r.up n f = r'.up n f) (x : K) :
    r.toInt x = r'.toInt x := by
  rw [toInt, same _ _ (Int.fract_nonneg x) (Int.fract_lt_one x), toInt]

theorem directed_toInt_neg (below above : Bool) (x : K) :
    (directed below above).toInt (-x) = -(directed (!above) (!below)).toInt x := by
  rw [Rule.toInt_neg]
  refine congrArg _ (Rule.toInt_congr (fun n f _ high => ?_) x)
  have rest : (0 : K) < 1 - f := sub_pos.mpr high
  have sign : decide (-n - 1 < 0) = !decide (n < 0) := by
    rw [← decide_not, decide_eq_decide]
    omega
  simp only [Rule.mirror, directed, rest, decide_true, Bool.true_and, sign]
  cases decide (n < 0) <;> rfl

theorem nearest_toInt_neg {tie : ℤ → Bool} (odd : ∀ n, tie (-n - 1) = !tie n) (x : K) :
    (nearest tie).toInt (-x) = -(nearest tie).toInt x := by
  rw [Rule.toInt_neg]
  refine congrArg _ (Rule.toInt_congr (fun n f low high => ?_) x)
  simp only [Rule.mirror, nearest, odd]
  rcases lt_trichotomy f (1 / 2) with less | half | more
  next =>
    have far : (1 : K) / 2 < 1 - f := by linarith
    simp only [decide_eq_true far, decide_eq_false less.not_gt, decide_eq_false less.ne, Bool.true_or, Bool.not_true,
      Bool.and_false, Bool.false_and, Bool.or_false]
  next =>
    subst half
    have half : (1 : K) - 1 / 2 = 1 / 2 := by norm_num
    have positive : (0 : K) < 1 / 2 := by norm_num
    rw [half, decide_eq_true positive]
    simp
  next =>
    have near : ¬(1 : K) / 2 < 1 - f := by linarith
    have apart : 1 - f ≠ 1 / 2 := by
      intro same
      linarith
    have positive : 0 < f := by linarith
    simp only [decide_eq_false near, decide_eq_false apart, decide_eq_true positive, decide_eq_true more,
      Bool.false_and, Bool.or_false, Bool.not_false, Bool.and_true, Bool.true_or]

end Mirror

end Rounding
