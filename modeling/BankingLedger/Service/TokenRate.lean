import BankingLedger.Service.TokenBucket
import BankingLedger.Shared.Binary64
import Mathlib.Algebra.BigOperators.Ring.Finset

set_option autoImplicit false

namespace BankingLedger

open Binary64 CappedLevel Finset

namespace TokenBucket

section Rounded

variable (fl : ℚ → ℚ)

-- `elapsed.as_secs_f64()`
def secsWith (nanos : Nat) : ℚ :=
  fl (fl (nanos / 1000000000 : Nat) + fl ((nanos % 1000000000 : Nat) / 1000000000))

def newTokensWith (rate : ℚ) (last now : Nat) : ℚ := fl (secsWith fl (now - last) * max rate 0)

def refillWith (now : Readings) (bucket : TokenBucket) : TokenBucket :=
  { bucket with
    tokens := min (max (fl (bucket.tokens + newTokensWith fl bucket.rate bucket.lastRefill now.elapsed)) 0)
      bucket.capacity.toNat
    lastRefill := now.stored }

def tryConsumeWith (now : Readings) (bucket : TokenBucket) : Bool × TokenBucket :=
  let bucket := bucket.refillWith fl now
  if 1 ≤ bucket.tokens then (true, { bucket with tokens := fl (bucket.tokens - 1) }) else (false, bucket)

theorem seconds_split (nanos : Nat) : ((nanos / 1000000000 : Nat) : ℚ) +
    ((nanos % 1000000000 : Nat) : ℚ) / 1000000000 = (nanos : ℚ) / 1000000000 := by
  rw [eq_div_iff (by norm_num), add_mul, div_mul_cancel₀ _ (by norm_num)]
  exact_mod_cast Nat.div_add_mod' nanos 1000000000

-- Without rounding it is the bucket of exact arithmetic.
theorem tryConsumeWith_id (now : Readings) (bucket : TokenBucket) :
    bucket.tryConsumeWith id now = bucket.tryConsume now := by
  have secs (nanos : Nat) : secsWith id nanos = (nanos : ℚ) / 1000000000 := seconds_split nanos
  have flows : newTokensWith id = newTokens := by
    funext rate last now
    rw [newTokensWith, secs, newTokens, id]
  have refills : bucket.refillWith id now = bucket.refill now := by
    rw [refillWith, flows]
    rfl
  rw [tryConsumeWith, refills]
  rfl

def afterCalls (clock : Nat → Readings) (bucket : TokenBucket) : Nat → TokenBucket
  | 0 => bucket
  | k + 1 => ((afterCalls clock bucket k).tryConsumeWith fl (clock k)).2

def admits (clock : Nat → Readings) (bucket : TokenBucket) (k : Nat) : Bool :=
  ((bucket.afterCalls fl clock k).tryConsumeWith fl (clock k)).1

def admitted (clock : Nat → Readings) (bucket : TokenBucket) (i j : Nat) : Nat :=
  ((Ico i j).filter fun k => bucket.admits fl clock k).card

def inflowWith (clock : Nat → Readings) (bucket : TokenBucket) (k : Nat) : ℚ :=
  newTokensWith fl bucket.rate (clock k).stored (clock (k + 1)).elapsed

def drain (clock : Nat → Readings) (bucket : TokenBucket) (k : Nat) : ℚ := if bucket.admits fl clock k then 1 else 0

def levelAt (clock : Nat → Readings) (bucket : TokenBucket) (k : Nat) : ℚ :=
  ((bucket.afterCalls fl clock k).refillWith fl (clock k)).tokens

/-- Up to `cap` a result is off by no more than `slack`, and what is more than `cap` stays so. -/
structure Rounds (cap slack : ℚ) : Prop where
  near : ∀ x, 0 ≤ x → x ≤ cap → |fl x - x| ≤ slack
  full : ∀ x, cap ≤ x → cap ≤ fl x
  nonneg : ∀ x, 0 ≤ x → 0 ≤ fl x

end Rounded

section Calls

variable {fl : ℚ → ℚ} {clock : Nat → Readings} {bucket : TokenBucket} {i j k : Nat} {cap slack : ℚ}

theorem gained_drain (i j : Nat) : gained (bucket.drain fl clock) i j = bucket.admitted fl clock i j := by
  rw [gained, admitted]
  exact sum_boole _ _

theorem admits_iff_level (k : Nat) : bucket.admits fl clock k = true ↔ 1 ≤ bucket.levelAt fl clock k := by
  simp only [admits, tryConsumeWith, levelAt]
  split <;> simp [*]

theorem afterCalls_kept (k : Nat) :
    (bucket.afterCalls fl clock k).capacity = bucket.capacity ∧ (bucket.afterCalls fl clock k).rate = bucket.rate := by
  induction k with
  | zero => exact ⟨rfl, rfl⟩
  | succ k ih =>
    rw [afterCalls, tryConsumeWith]
    split <;> exact ih

theorem afterCalls_succ (k : Nat) : (bucket.afterCalls fl clock (k + 1)).lastRefill = (clock k).stored ∧
    (bucket.afterCalls fl clock (k + 1)).tokens = if 1 ≤ bucket.levelAt fl clock k then fl (bucket.levelAt fl clock k - 1)
      else bucket.levelAt fl clock k := by
  rw [afterCalls, tryConsumeWith, levelAt]
  split <;> exact ⟨rfl, rfl⟩

theorem levelAt_bounds (k : Nat) :
    0 ≤ bucket.levelAt fl clock k ∧ bucket.levelAt fl clock k ≤ bucket.capacity.toNat := by
  rw [levelAt, refillWith, (afterCalls_kept k).1]
  exact ⟨le_min (le_max_right _ _) (Nat.cast_nonneg _), min_le_right _ _⟩

theorem Rounds.secsWith_nonneg (rounds : Rounds fl cap slack) (nanos : Nat) : 0 ≤ secsWith fl nanos := by
  have whole : 0 ≤ fl (nanos / 1000000000 : Nat) := rounds.nonneg _ (Nat.cast_nonneg _)
  have rest : 0 ≤ fl ((nanos % 1000000000 : Nat) / 1000000000) := rounds.nonneg _ (by positivity)
  exact rounds.nonneg _ (add_nonneg whole rest)

theorem Rounds.newTokensWith_nonneg (rounds : Rounds fl cap slack) (rate : ℚ) (last now : Nat) :
    0 ≤ newTokensWith fl rate last now :=
  rounds.nonneg _ (mul_nonneg (rounds.secsWith_nonneg _) (le_max_right _ 0))

theorem inflowWith_nonneg (rounds : Rounds fl cap slack) (k : Nat) : 0 ≤ bucket.inflowWith fl clock k :=
  rounds.newTokensWith_nonneg _ _ _

theorem exists_error (clock : Nat → Readings) (rounds : Rounds fl bucket.capacity.toNat slack) (nonneg : 0 ≤ slack)
    (k : Nat) :
    ∃ error, |error| ≤ 2 * slack ∧ bucket.levelAt fl clock (k + 1) =
      min (bucket.levelAt fl clock k - bucket.drain fl clock k + (bucket.inflowWith fl clock k + error))
        bucket.capacity.toNat := by
  have bounds : 0 ≤ bucket.levelAt fl clock k ∧ bucket.levelAt fl clock k ≤ bucket.capacity.toNat := levelAt_bounds k
  have next : bucket.levelAt fl clock (k + 1) = min (max (fl ((bucket.afterCalls fl clock (k + 1)).tokens +
      bucket.inflowWith fl clock k)) 0) bucket.capacity.toNat := by
    rw [levelAt, refillWith, (afterCalls_kept (k + 1)).1, (afterCalls_kept (k + 1)).2, (afterCalls_succ k).1]
    rfl
  have left : 0 ≤ (bucket.afterCalls fl clock (k + 1)).tokens ∧ |(bucket.afterCalls fl clock (k + 1)).tokens -
      (bucket.levelAt fl clock k - bucket.drain fl clock k)| ≤ slack := by
    rw [(afterCalls_succ k).2, drain]
    by_cases token : 1 ≤ bucket.levelAt fl clock k
    next =>
      rw [if_pos token, if_pos ((admits_iff_level k).mpr token)]
      have rest : 0 ≤ bucket.levelAt fl clock k - 1 := sub_nonneg.mpr token
      exact ⟨rounds.nonneg _ rest, rounds.near _ rest (by linarith)⟩
    next =>
      rw [if_neg token, if_neg (mt (admits_iff_level k).mp token), sub_zero, sub_self, abs_zero]
      exact ⟨bounds.1, nonneg⟩
  have flows : 0 ≤ bucket.inflowWith fl clock k := inflowWith_nonneg rounds k
  generalize (bucket.afterCalls fl clock (k + 1)).tokens = taken at next left
  have more : 0 ≤ taken + bucket.inflowWith fl clock k := add_nonneg left.1 flows
  rw [next, max_eq_left (rounds.nonneg _ more)]
  rcases le_total (taken + bucket.inflowWith fl clock k) bucket.capacity.toNat with room | full
  next =>
    have near := rounds.near _ more room
    refine ⟨taken - (bucket.levelAt fl clock k - bucket.drain fl clock k) +
      (fl (taken + bucket.inflowWith fl clock k) - (taken + bucket.inflowWith fl clock k)), ?_, ?_⟩
    next =>
      have both := abs_add_le (taken - (bucket.levelAt fl clock k - bucket.drain fl clock k))
        (fl (taken + bucket.inflowWith fl clock k) - (taken + bucket.inflowWith fl clock k))
      linarith [left.2]
    next =>
      congr 1
      ring
  next =>
    refine ⟨taken - (bucket.levelAt fl clock k - bucket.drain fl clock k), by linarith [left.2], ?_⟩
    have whole : bucket.levelAt fl clock k - bucket.drain fl clock k + (bucket.inflowWith fl clock k +
        (taken - (bucket.levelAt fl clock k - bucket.drain fl clock k))) = taken + bucket.inflowWith fl clock k := by ring
    rw [whole, min_eq_right full, min_eq_right (rounds.full _ full)]

-- A new bucket is full when it is first asked.
theorem levelAt_new_zero (now : Nat) (capacity : UInt32) (rate : ℚ) (rounds : Rounds fl capacity.toNat slack) :
    (new now capacity rate).levelAt fl clock 0 = capacity.toNat := by
  have inflow : 0 ≤ newTokensWith fl rate now (clock 0).elapsed := rounds.newTokensWith_nonneg _ _ _
  have full := rounds.full _ (le_add_of_nonneg_right inflow)
  exact min_eq_right (le_max_of_le_left full)

theorem exists_errors (now : Nat) (capacity : UInt32) (rate : ℚ) (clock : Nat → Readings)
    (rounds : Rounds fl capacity.toNat slack) (nonneg : 0 ≤ slack) : ∃ error : Nat → ℚ, (∀ k, |error k| ≤ 2 * slack) ∧ ∀ k,
      (new now capacity rate).levelAt fl clock k =
        drainedLevel (capacity.toNat : ℚ) ((new now capacity rate).drain fl clock)
          (fun k => (new now capacity rate).inflowWith fl clock k + error k) capacity.toNat k := by
  choose error small next using (new now capacity rate).exists_error clock rounds nonneg
  refine ⟨error, small, fun k => ?_⟩
  induction k with
  | zero => exact levelAt_new_zero now capacity rate rounds
  | succ k ih =>
    rw [next, ih]
    rfl

theorem gained_add_error {inflow error : Nat → ℚ} {most : ℚ} (small : ∀ k, |error k| ≤ most) (i k : Nat) :
    |gained (fun k => inflow k + error k) i k - gained inflow i k| ≤ ((k - i : Nat) : ℚ) * most := by
  have errors : gained (fun k => inflow k + error k) i k - gained inflow i k = ∑ l ∈ Ico i k, error l := by
    rw [gained, gained, sum_add_distrib, add_sub_cancel_left]
  rw [errors]
  calc |∑ l ∈ Ico i k, error l| ≤ ∑ l ∈ Ico i k, |error l| := abs_sum_le_sum_abs _ _
    _ ≤ ∑ _l ∈ Ico i k, most := sum_le_sum fun l _ => small l
    _ = ((k - i : Nat) : ℚ) * most := by rw [sum_const, Nat.card_Ico, nsmul_eq_mul]

theorem admits_within (now : Nat) (capacity : UInt32) (rate : ℚ) (rounds : Rounds fl capacity.toNat slack)
    (nonneg : 0 ≤ slack) (clock : Nat → Readings) (k : Nat) :
    ((new now capacity rate).admits fl clock k = true → ∀ i ≤ k,
      1 + ((new now capacity rate).admitted fl clock i k : ℚ) ≤
        capacity.toNat + gained ((new now capacity rate).inflowWith fl clock) i k + ((k - i : Nat) : ℚ) * (2 * slack)) ∧
    ((∀ i ≤ k, 1 + ((new now capacity rate).admitted fl clock i k : ℚ) + ((k - i : Nat) : ℚ) * (2 * slack) ≤
        capacity.toNat + gained ((new now capacity rate).inflowWith fl clock) i k) →
      (new now capacity rate).admits fl clock k = true) := by
  obtain ⟨error, small, levels⟩ := exists_errors now capacity rate clock rounds nonneg
  have admits : (new now capacity rate).admits fl clock k = true ↔ ∀ i ≤ k,
      1 + ((new now capacity rate).admitted fl clock i k : ℚ) ≤ capacity.toNat +
        gained (fun k => (new now capacity rate).inflowWith fl clock k + error k) i k := by
    rw [admits_iff_level, levels, le_drainedLevel_iff_of_full]
    simp only [gained_drain]
  have off (i : Nat) : |gained (fun k => (new now capacity rate).inflowWith fl clock k + error k) i k -
      gained ((new now capacity rate).inflowWith fl clock) i k| ≤ ((k - i : Nat) : ℚ) * (2 * slack) :=
    gained_add_error small i k
  rw [admits]
  constructor
  next =>
    intro all i le
    linarith [all i le, (abs_le.mp (off i)).2]
  next =>
    intro all i le
    linarith [all i le, (abs_le.mp (off i)).1]

end Calls

section Doubles

variable {clock : Nat → Readings} {bucket : TokenBucket} {i k : Nat}

theorem rounds_double (capacity : UInt32) : Rounds double capacity.toNat (capacity.toNat / 2 ^ 53) where
  near x nonneg le := by
    rcases Nat.eq_zero_or_pos capacity.toNat with empty | some
    next =>
      rw [empty, Nat.cast_zero] at le ⊢
      rw [le_antisymm le nonneg, double_zero, sub_zero, abs_zero, zero_div]
    next =>
      have one : (1 : ℚ) ≤ capacity.toNat := Nat.one_le_cast.mpr some
      refine (double_error nonneg).trans (max_le (div_le_div_of_nonneg_right le (by positivity)) ?_)
      calc (1 : ℚ) / 2 ^ 1075 ≤ 1 / 2 ^ 53 :=
          one_div_le_one_div_of_le (by positivity) (pow_le_pow_right₀ one_le_two (by norm_num))
        _ ≤ capacity.toNat / 2 ^ 53 := div_le_div_of_nonneg_right one (by positivity)
  full x le := by
    have small : capacity.toNat ≤ 2 ^ 53 := capacity.toNat_lt.le.trans (by norm_num)
    have mono := double_mono (Nat.cast_nonneg capacity.toNat) le
    rwa [double_natCast small] at mono
  nonneg _ := double_nonneg

theorem double_le_of_normal {x : ℚ} (normal : x = 0 ∨ 1 / 2 ^ 1022 ≤ x) : double x ≤ x * (1 + 1 / 2 ^ 53) := by
  have error := (abs_le.mp (double_error_of_normal normal)).2
  linarith

theorem normal_of_le {x : ℚ} (large : 1 / 2 ^ 30 ≤ x) : x = 0 ∨ 1 / 2 ^ 1022 ≤ x := by
  have small : (1 : ℚ) / 2 ^ 1022 ≤ 1 / 2 ^ 30 :=
    one_div_le_one_div_of_le (by positivity) (pow_le_pow_right₀ one_le_two (by norm_num))
  exact Or.inr (small.trans large)

-- Numbers that are zero or not small are so rounded, and so is what they come to.
theorem double_add_le {a b : ℚ} (left : a = 0 ∨ 1 / 2 ^ 30 ≤ a) (right : b = 0 ∨ 1 / 2 ^ 30 ≤ b) :
    double (double a + double b) ≤ (a + b) * (1 + 1 / 2 ^ 53) ^ 2 := by
  have kept {x : ℚ} (large : x = 0 ∨ 1 / 2 ^ 30 ≤ x) : double x = 0 ∨ 1 / 2 ^ 30 ≤ double x := by
    have power : (2 : ℚ) ^ (-30 : ℤ) = 1 / 2 ^ 30 := by norm_num
    have same : double (1 / 2 ^ 30) = 1 / 2 ^ 30 := by
      rw [← power]
      exact double_two_zpow (by norm_num)
    rcases large with zero | large
    next => exact Or.inl (zero ▸ double_zero)
    next => exact Or.inr (same ▸ double_mono (by positivity) large)
  have above {x : ℚ} (large : x = 0 ∨ 1 / 2 ^ 30 ≤ x) : double x ≤ x * (1 + 1 / 2 ^ 53) :=
    double_le_of_normal (large.elim Or.inl normal_of_le)
  have sum : double a + double b = 0 ∨ 1 / 2 ^ 30 ≤ double a + double b := by
    rcases kept left with zero | large
    next =>
      rw [zero, zero_add]
      exact kept right
    next =>
      have rest : 0 ≤ double b := (kept right).elim (fun zero => zero.ge) fun large => le_trans (by positivity) large
      exact Or.inr (le_add_of_le_of_nonneg large rest)
  calc double (double a + double b) ≤ (double a + double b) * (1 + 1 / 2 ^ 53) := above sum
    _ ≤ (a * (1 + 1 / 2 ^ 53) + b * (1 + 1 / 2 ^ 53)) * (1 + 1 / 2 ^ 53) :=
      mul_le_mul_of_nonneg_right (add_le_add (above left) (above right)) (by positivity)
    _ = (a + b) * (1 + 1 / 2 ^ 53) ^ 2 := by ring

theorem secsWith_double_le (nanos : Nat) :
    secsWith double nanos ≤ (nanos : ℚ) / 1000000000 * (1 + 1 / 2 ^ 53) ^ 2 := by
  have whole : ((nanos / 1000000000 : Nat) : ℚ) = 0 ∨ 1 / 2 ^ 30 ≤ ((nanos / 1000000000 : Nat) : ℚ) := by
    rcases Nat.eq_zero_or_pos (nanos / 1000000000) with none | some
    next => exact Or.inl (by rw [none, Nat.cast_zero])
    next => exact Or.inr (le_trans (by norm_num) (Nat.one_le_cast.mpr some))
  have rest : ((nanos % 1000000000 : Nat) : ℚ) / 1000000000 = 0 ∨
      1 / 2 ^ 30 ≤ ((nanos % 1000000000 : Nat) : ℚ) / 1000000000 := by
    rcases Nat.eq_zero_or_pos (nanos % 1000000000) with none | some
    next => exact Or.inl (by rw [none, Nat.cast_zero, zero_div])
    next =>
      have one : (1 : ℚ) ≤ (nanos % 1000000000 : Nat) := Nat.one_le_cast.mpr some
      rw [div_le_div_iff₀ (by positivity) (by positivity)]
      exact Or.inr (by linarith)
  rw [← seconds_split]
  exact double_add_le whole rest

-- What flows in is rounded three times. The last time the product can be as small as the rate lets it.
theorem newTokensWith_double_le (rate : ℚ) (last now : Nat) : newTokensWith double rate last now ≤
    ((now - last : Nat) : ℚ) / 1000000000 * max rate 0 * (1 + 1 / 2 ^ 51) + 1 / 2 ^ 1075 := by
  have seconds : (0 : ℚ) ≤ ((now - last : Nat) : ℚ) / 1000000000 := by positivity
  have positive : (0 : ℚ) ≤ max rate 0 := le_max_right rate 0
  have nonneg : 0 ≤ secsWith double (now - last) * max rate 0 :=
    mul_nonneg ((rounds_double 0).secsWith_nonneg _) positive
  have product : secsWith double (now - last) * max rate 0 ≤
      ((now - last : Nat) : ℚ) / 1000000000 * max rate 0 * (1 + 1 / 2 ^ 53) ^ 2 := by
    calc _ ≤ ((now - last : Nat) : ℚ) / 1000000000 * (1 + 1 / 2 ^ 53) ^ 2 * max rate 0 :=
          mul_le_mul_of_nonneg_right (secsWith_double_le _) positive
      _ = _ := by ring
  have error := (abs_le.mp (double_error nonneg)).2
  have most := max_le_add_of_nonneg (div_nonneg nonneg (by positivity : (0 : ℚ) ≤ 2 ^ 53))
    (by positivity : (0 : ℚ) ≤ 1 / 2 ^ 1075)
  have exact : 0 ≤ ((now - last : Nat) : ℚ) / 1000000000 * max rate 0 := mul_nonneg seconds positive
  rw [newTokensWith]
  generalize ((now - last : Nat) : ℚ) / 1000000000 * max rate 0 = tokens at product exact
  generalize secsWith double (now - last) * max rate 0 = rounded at product error most
  generalize (1 : ℚ) / 2 ^ 1075 = tiny at error most
  calc double rounded ≤ rounded * (1 + 1 / 2 ^ 53) + tiny := by linarith
    _ ≤ tokens * (1 + 1 / 2 ^ 53) ^ 2 * (1 + 1 / 2 ^ 53) + tiny :=
      add_le_add_left (mul_le_mul_of_nonneg_right product (by positivity)) _
    _ = tokens * (1 + 1 / 2 ^ 53) ^ 3 + tiny := by ring
    _ ≤ tokens * (1 + 1 / 2 ^ 51) + tiny :=
      add_le_add_left (mul_le_mul_of_nonneg_left (by norm_num) exact) _

end Doubles

section Rate

variable {clock : Nat → Readings} {bucket : TokenBucket} {i k : Nat}

def Forward (clock : Nat → Readings) : Prop :=
  ∀ k, (clock k).elapsed ≤ (clock k).stored ∧ (clock k).stored ≤ (clock (k + 1)).elapsed

theorem Forward.stored_le (forward : Forward clock) (le : i ≤ k) : (clock i).stored ≤ (clock k).stored := by
  induction k, le using Nat.le_induction with
  | base => exact le_rfl
  | succ k _ ih => exact ih.trans ((forward k).2.trans (forward (k + 1)).1)

def share (clock : Nat → Readings) (bucket : TokenBucket) (i k : Nat) : ℚ :=
  (((clock k).elapsed - (clock i).stored : Nat) : ℚ) / 1000000000 * max bucket.rate 0 * (1 + 1 / 2 ^ 51) +
    ((k - i : Nat) : ℚ) / 2 ^ 1075

-- The gaps between calls are no longer than the time from the first to the last.
theorem Forward.gained_le (forward : Forward clock) (le : i ≤ k) :
    gained (bucket.inflowWith double clock) i k ≤ bucket.share clock i k := by
  have positive : (0 : ℚ) ≤ max bucket.rate 0 := le_max_right _ _
  induction k, le using Nat.le_induction with
  | base =>
    rw [gained_self, share]
    positivity
  | succ k le ih =>
    have earlier := forward.stored_le le
    have now := forward k
    have flows := newTokensWith_double_le bucket.rate (clock k).stored (clock (k + 1)).elapsed
    have seconds : (((clock k).elapsed - (clock i).stored : Nat) : ℚ) +
        (((clock (k + 1)).elapsed - (clock k).stored : Nat) : ℚ) ≤
          (((clock (k + 1)).elapsed - (clock i).stored : Nat) : ℚ) := by
      rw [← Nat.cast_add]
      exact Nat.cast_le.mpr (by omega)
    have factor : (0 : ℚ) ≤ max bucket.rate 0 / 1000000000 * (1 + 1 / 2 ^ 51) := by positivity
    have spans := mul_le_mul_of_nonneg_right seconds factor
    have calls : ((k + 1 - i : Nat) : ℚ) = ((k - i : Nat) : ℚ) + 1 := by
      rw [Nat.succ_sub le, Nat.cast_succ]
    rw [gained_succ le, inflowWith]
    rw [share] at ih ⊢
    rw [calls]
    generalize gained (bucket.inflowWith double clock) i k = before at ih ⊢
    generalize newTokensWith double bucket.rate (clock k).stored (clock (k + 1)).elapsed = flow at flows ⊢
    generalize (2 : ℚ) ^ 1075 = huge at flows ih ⊢
    generalize (1 : ℚ) + 1 / 2 ^ 51 = rounding at flows ih spans ⊢
    calc before + flow ≤ _ := add_le_add ih flows
      _ = (((clock k).elapsed - (clock i).stored : Nat) + ((clock (k + 1)).elapsed - (clock k).stored : Nat)) *
          (max bucket.rate 0 / 1000000000 * rounding) + (((k - i : Nat) : ℚ) + 1) / huge := by ring
      _ ≤ ((clock (k + 1)).elapsed - (clock i).stored : Nat) * (max bucket.rate 0 / 1000000000 * rounding) +
          (((k - i : Nat) : ℚ) + 1) / huge := add_le_add_left spans _
      _ = _ := by ring

theorem admitted_succ (le : i ≤ k) : (bucket.admitted double clock i (k + 1) : ℚ) =
    bucket.admitted double clock i k + bucket.drain double clock k := by
  rw [← gained_drain, ← gained_drain, gained_succ le]

theorem share_mono (bucket : TokenBucket) (forward : Forward clock) (le : i ≤ k) :
    bucket.share clock i k ≤ bucket.share clock i (k + 1) := by
  have now := forward k
  have positive : (0 : ℚ) ≤ max bucket.rate 0 := le_max_right _ _
  have seconds : (((clock k).elapsed - (clock i).stored : Nat) : ℚ) ≤
      (((clock (k + 1)).elapsed - (clock i).stored : Nat) : ℚ) := Nat.cast_le.mpr (by omega)
  have calls : ((k - i : Nat) : ℚ) ≤ ((k + 1 - i : Nat) : ℚ) := Nat.cast_le.mpr (by omega)
  unfold share
  gcongr

/-- In double precision a call is admitted if, since every earlier one, no more are admitted with it than a full
bucket and what has flowed in, and only then, but for a slack of the roundings in each call between. So from one
call to another no more are admitted than the capacity and the rate times the time between them, up to the same. -/
theorem token_bucket_conforms (now : Nat) (capacity : UInt32) (rate : ℚ) (clock : Nat → Readings) :
    let bucket := new now capacity rate
    let slack : ℚ := (capacity.toNat + 1) / 2 ^ 52
    (∀ k, bucket.admits double clock k = true → ∀ i ≤ k, 1 + (bucket.admitted double clock i k : ℚ) ≤
      capacity.toNat + gained (bucket.inflowWith double clock) i k + ((k - i : Nat) : ℚ) * slack) ∧
    (∀ k, (∀ i ≤ k, 1 + (bucket.admitted double clock i k : ℚ) + ((k - i : Nat) : ℚ) * slack ≤
      capacity.toNat + gained (bucket.inflowWith double clock) i k) → bucket.admits double clock k = true) ∧
    (Forward clock → ∀ i k, i ≤ k → (bucket.admitted double clock i (k + 1) : ℚ) ≤ capacity.toNat +
      ((clock k).elapsed - (clock i).stored : Nat) / 1000000000 * max rate 0 * (1 + 1 / 2 ^ 51) +
        ((k - i : Nat) : ℚ) * slack) := by
  intro bucket slack
  have nonneg : (0 : ℚ) ≤ capacity.toNat / 2 ^ 53 := by positivity
  have within := admits_within now capacity rate (rounds_double capacity) nonneg clock
  have room (i k : Nat) : ((k - i : Nat) : ℚ) * (2 * (capacity.toNat / 2 ^ 53)) + ((k - i : Nat) : ℚ) / 2 ^ 1075 ≤
      ((k - i : Nat) : ℚ) * slack := by
    have small : (1 : ℚ) / 2 ^ 1075 ≤ 1 / 2 ^ 52 :=
      one_div_le_one_div_of_le (by positivity) (pow_le_pow_right₀ one_le_two (by norm_num))
    have calls : (0 : ℚ) ≤ ((k - i : Nat) : ℚ) := Nat.cast_nonneg _
    generalize (2 : ℚ) ^ 1075 = huge at small
    calc _ = ((k - i : Nat) : ℚ) * (capacity.toNat / 2 ^ 52 + 1 / huge) := by ring
      _ ≤ ((k - i : Nat) : ℚ) * (capacity.toNat / 2 ^ 52 + 1 / 2 ^ 52) :=
        mul_le_mul_of_nonneg_left (add_le_add_right small _) calls
      _ = ((k - i : Nat) : ℚ) * slack := by ring
  have less (i k : Nat) : ((k - i : Nat) : ℚ) * (2 * (capacity.toNat / 2 ^ 53)) ≤ ((k - i : Nat) : ℚ) * slack :=
    (le_add_of_nonneg_right (by positivity)).trans (room i k)
  refine ⟨fun k admits i le => ?_, fun k enough => ?_, fun forward i k le => ?_⟩
  next => linarith [(within k).1 admits i le, less i k]
  next =>
    refine (within k).2 fun i le => ?_
    linarith [enough i le, less i k]
  next =>
    have bound (k : Nat) (le : i ≤ k) (before : (bucket.admitted double clock i k : ℚ) ≤ capacity.toNat +
        bucket.share clock i k + ((k - i : Nat) : ℚ) * (2 * (capacity.toNat / 2 ^ 53))) :
        (bucket.admitted double clock i (k + 1) : ℚ) ≤ capacity.toNat + bucket.share clock i k +
          ((k - i : Nat) : ℚ) * (2 * (capacity.toNat / 2 ^ 53)) := by
      have spans : gained (bucket.inflowWith double clock) i k ≤ bucket.share clock i k := forward.gained_le le
      rw [admitted_succ le, drain]
      by_cases admits : bucket.admits double clock k = true
      next =>
        rw [if_pos admits]
        linarith [(within k).1 admits i le]
      next => rwa [if_neg admits, add_zero]
    have all : (bucket.admitted double clock i k : ℚ) ≤ capacity.toNat + bucket.share clock i k +
        ((k - i : Nat) : ℚ) * (2 * (capacity.toNat / 2 ^ 53)) := by
      induction k, le using Nat.le_induction with
      | base =>
        have none : bucket.admitted double clock i i = 0 := by simp [admitted]
        have positive : (0 : ℚ) ≤ max bucket.rate 0 := le_max_right _ _
        rw [none, Nat.cast_zero, share]
        positivity
      | succ k le ih =>
        have calls : ((k - i : Nat) : ℚ) ≤ ((k + 1 - i : Nat) : ℚ) := Nat.cast_le.mpr (by omega)
        have slacks := mul_le_mul_of_nonneg_right calls (by positivity : (0 : ℚ) ≤ 2 * (capacity.toNat / 2 ^ 53))
        linarith [bound k le ih, share_mono bucket forward le]
    have final := bound k le all
    have slacks := room i k
    have same : bucket.rate = rate := rfl
    rw [share, same] at final
    generalize (2 : ℚ) ^ 1075 = huge at final slacks
    linarith

-- Ten calls a second against a rate of two, for ten seconds.
theorem token_bucket_conforms_steady :
    ((new 0 3 2).admitted double (fun k => ⟨k * 100000000, k * 100000000⟩) 0 101 : ℚ) ≤
      (3 : UInt32).toNat + ((10000000000 - 0 : Nat) : ℚ) / 1000000000 * max 2 0 * (1 + 1 / 2 ^ 51) +
        ((100 - 0 : Nat) : ℚ) * (((3 : UInt32).toNat + 1) / 2 ^ 52) := by
  have forward : Forward fun k => ⟨k * 100000000, k * 100000000⟩ := by
    intro k
    change k * 100000000 ≤ k * 100000000 ∧ k * 100000000 ≤ (k + 1) * 100000000
    omega
  exact (token_bucket_conforms 0 3 2 _).2.2 forward 0 100 (Nat.zero_le _)

end Rate

end TokenBucket

end BankingLedger
