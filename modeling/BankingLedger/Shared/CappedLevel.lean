import Mathlib.Algebra.BigOperators.Intervals
import Mathlib.Algebra.Order.BigOperators.Group.Finset
import Mathlib.Algebra.Order.Field.Basic
import Mathlib.Tactic.Linarith
import Mathlib.Tactic.Ring

set_option autoImplicit false

namespace CappedLevel

open Finset

variable {F : Type} [Field F] {cap unit first : F} {inflow : Nat → F}

def gained (inflow : Nat → F) (i j : Nat) : F := ∑ l ∈ Ico i j, inflow l

@[simp] theorem gained_self (i : Nat) : gained inflow i i = 0 := by simp [gained]

theorem gained_succ {i j : Nat} (le : i ≤ j) : gained inflow i (j + 1) = gained inflow i j + inflow j :=
  sum_Ico_succ_top le inflow

variable [LinearOrder F]

def level (cap unit : F) (inflow : Nat → F) (first : F) : Nat → F
  | 0 => first
  | k + 1 => min (level cap unit inflow first k - unit + inflow k) cap

variable [IsStrictOrderedRing F]

theorem gained_nonneg (nonneg : ∀ l, 0 ≤ inflow l) (i j : Nat) : 0 ≤ gained inflow i j :=
  sum_nonneg fun l _ => nonneg l

def drainedLevel (cap : F) (drain inflow : Nat → F) (first : F) : Nat → F
  | 0 => first
  | k + 1 => min (drainedLevel cap drain inflow first k - drain k + inflow k) cap

variable {drain : Nat → F}

theorem le_drainedLevel_iff (capped : first ≤ cap) (b : F) (k : Nat) :
    b ≤ drainedLevel cap drain inflow first k ↔
      b + gained drain 0 k ≤ first + gained inflow 0 k ∧
        ∀ i ≤ k, b + gained drain i k ≤ cap + gained inflow i k := by
  induction k generalizing b with
  | zero =>
    simp only [drainedLevel, gained_self, add_zero, Nat.le_zero, forall_eq]
    exact (and_iff_left_of_imp fun enough => enough.trans capped).symm
  | succ k ih =>
    have before := ih (b + drain k - inflow k)
    have step : b ≤ drainedLevel cap drain inflow first k - drain k + inflow k ↔
        b + drain k - inflow k ≤ drainedLevel cap drain inflow first k := by
      constructor <;> intro <;> linarith
    have since (i : Nat) (le : i ≤ k) :
        b + drain k - inflow k + gained drain i k ≤ cap + gained inflow i k ↔
          b + gained drain i (k + 1) ≤ cap + gained inflow i (k + 1) := by
      rw [gained_succ le, gained_succ le]
      constructor <;> intro <;> linarith
    rw [drainedLevel, le_min_iff, step, before, and_assoc]
    refine and_congr ?_ ?_
    next =>
      rw [gained_succ (Nat.zero_le k), gained_succ (Nat.zero_le k)]
      constructor <;> intro <;> linarith
    next =>
      constructor
      next =>
        rintro ⟨earlier, room⟩ i le
        cases Nat.le_or_eq_of_le_succ le with
        | inl less => exact (since i less).mp (earlier i less)
        | inr last =>
          subst last
          simpa using room
      next =>
        intro all
        exact ⟨fun i le => (since i le).mpr (all i (Nat.le_succ_of_le le)), by simpa using all (k + 1) le_rfl⟩

-- A store that starts full is no special case of one that was full in some round.
theorem le_drainedLevel_iff_of_full (b : F) (k : Nat) :
    b ≤ drainedLevel cap drain inflow cap k ↔ ∀ i ≤ k, b + gained drain i k ≤ cap + gained inflow i k :=
  (le_drainedLevel_iff le_rfl b k).trans (and_iff_right_of_imp fun all => all 0 (Nat.zero_le k))

omit [IsStrictOrderedRing F] in
theorem drainedLevel_const (k : Nat) :
    drainedLevel cap (fun _ => unit) inflow first k = level cap unit inflow first k := by
  induction k with
  | zero => rfl
  | succ k ih => rw [drainedLevel, level, ih]

omit [LinearOrder F] [IsStrictOrderedRing F] in
theorem gained_const (i j : Nat) : gained (fun _ => unit) i j = ((j - i : Nat) : F) * unit := by
  rw [gained, sum_const, Nat.card_Ico, nsmul_eq_mul]

theorem le_level_iff (capped : first ≤ cap) (b : F) (k : Nat) :
    b ≤ level cap unit inflow first k ↔
      b + k * unit ≤ first + gained inflow 0 k ∧
        ∀ i ≤ k, b + ((k - i : Nat) : F) * unit ≤ cap + gained inflow i k := by
  rw [← drainedLevel_const, le_drainedLevel_iff capped]
  simp only [gained_const, Nat.sub_zero]

theorem level_le_undrained (nonneg : 0 ≤ unit) (k : Nat) :
    level cap unit inflow first k ≤ level cap 0 inflow first k := by
  induction k with
  | zero => exact le_rfl
  | succ k ih =>
    rw [level, level]
    refine min_le_min_right cap ?_
    linarith

-- Only a full store hides what has been taken out of it.
theorem level_lt_undrained (positive : 0 < unit) {k : Nat} (room : level cap unit inflow first (k + 1) < cap) :
    level cap unit inflow first (k + 1) < level cap 0 inflow first (k + 1) := by
  have before : level cap unit inflow first k ≤ level cap 0 inflow first k := level_le_undrained positive.le k
  have kept : level cap unit inflow first (k + 1) = level cap unit inflow first k - unit + inflow k := by
    cases min_choice (level cap unit inflow first k - unit + inflow k) cap with
    | inl left => exact left
    | inr right => exact absurd right room.ne
  rw [show level cap 0 inflow first (k + 1) = min (level cap 0 inflow first k - 0 + inflow k) cap from rfl,
    lt_min_iff]
  refine ⟨?_, room⟩
  rw [kept]
  linarith

theorem undrained_eq (nonneg : ∀ l, 0 ≤ inflow l) (capped : first ≤ cap) (k : Nat) :
    level cap 0 inflow first k = min (first + gained inflow 0 k) cap := by
  refine eq_of_forall_le_iff fun b => ?_
  rw [le_level_iff capped, le_min_iff]
  simp only [mul_zero, add_zero]
  refine and_congr_right fun _ => ?_
  constructor
  · intro all
    simpa using all k le_rfl
  · intro room i _
    have more := gained_nonneg nonneg i k
    linarith

end CappedLevel
