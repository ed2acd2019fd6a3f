import BankingLedger.Shared.CappedLevel
import Mathlib.Data.Rat.Cast.Order

set_option autoImplicit false

namespace BankingLedger

open CappedLevel

-- Tokens and rate are rationals where the source has floating point. Instants are counted in nanoseconds.
structure TokenBucket where
  capacity : UInt32
  rate : ℚ
  tokens : ℚ
  lastRefill : Nat
deriving DecidableEq

-- A call reads the clock twice: for `last.elapsed()`, and for the time it stores afterwards.
structure Readings where
  elapsed : Nat
  stored : Nat

namespace TokenBucket

def new (now : Nat) (capacity : UInt32) (ratePerSecond : ℚ) : TokenBucket where
  capacity := capacity
  rate := ratePerSecond
  tokens := capacity.toNat
  lastRefill := now

def newTokens (rate : ℚ) (last now : Nat) : ℚ := ((now - last : Nat) : ℚ) / 1000000000 * max rate 0

def refill (now : Readings) (bucket : TokenBucket) : TokenBucket :=
  { bucket with
    tokens := min (max (bucket.tokens + newTokens bucket.rate bucket.lastRefill now.elapsed) 0)
      bucket.capacity.toNat
    lastRefill := now.stored }

def tryConsume (now : Readings) (bucket : TokenBucket) : Bool × TokenBucket :=
  let bucket := bucket.refill now
  if 1 ≤ bucket.tokens then (true, { bucket with tokens := bucket.tokens - 1 }) else (false, bucket)

-- What `n` rounds of the loop come to. Round `k` reads `clock k`.
def rounds (clock : Nat → Readings) (bucket : TokenBucket) : Nat → Bool × TokenBucket
  | 0 => (true, bucket)
  | n + 1 =>
    match rounds clock bucket n with
    | (true, bucket) => bucket.tryConsume (clock n)
    | (false, bucket) => (false, bucket)

def tryConsumeN (clock : Nat → Readings) (n : UInt32) (bucket : TokenBucket) : Bool × TokenBucket :=
  rounds clock bucket n.toNat

def refills (clock : Nat → Readings) (bucket : TokenBucket) : Nat → TokenBucket
  | 0 => bucket
  | n + 1 => (refills clock bucket n).refill (clock n)

def FailsAt (clock : Nat → Readings) (bucket : TokenBucket) (k : Nat) : Prop :=
  (rounds clock bucket k).1 = true ∧ (rounds clock bucket (k + 1)).1 = false

/-- A call that fails leaves the tokens that refilling alone would have left, and one that finds enough
succeeds. -/
structure AllOrNothing (clock : Nat → Readings) (n : UInt32) (bucket : TokenBucket) : Prop where
  nothing : (bucket.tryConsumeN clock n).1 = false → ∃ k < n.toNat, bucket.FailsAt clock k ∧
    (bucket.tryConsumeN clock n).2.tokens = (bucket.refills clock (k + 1)).tokens
  all : (n.toNat : ℚ) ≤ (bucket.refill (clock 0)).tokens → (bucket.tryConsumeN clock n).1 = true

def inflow (clock : Nat → Readings) (bucket : TokenBucket) (k : Nat) : ℚ :=
  newTokens bucket.rate (clock k).stored (clock (k + 1)).elapsed

/-- There is a token for each of `n` rounds, also where only a full bucket is left of what has flowed in
up to round `i`. -/
def Lasts (clock : Nat → Readings) (bucket : TokenBucket) (n : Nat) : Prop :=
  ∀ j < n,
    1 + (j : ℚ) ≤ (bucket.refill (clock 0)).tokens + gained (bucket.inflow clock) 0 j ∧
      ∀ i ≤ j, 1 + ((j - i : Nat) : ℚ) ≤ bucket.capacity.toNat + gained (bucket.inflow clock) i j

variable {clock : Nat → Readings} {bucket : TokenBucket} {k n : Nat}

section Rounds

theorem newTokens_nonneg (rate : ℚ) (last now : Nat) : 0 ≤ newTokens rate last now :=
  mul_nonneg (div_nonneg (Nat.cast_nonneg _) (by norm_num)) (le_max_right rate 0)

theorem inflow_nonneg (clock : Nat → Readings) (bucket : TokenBucket) (k : Nat) : 0 ≤ bucket.inflow clock k :=
  newTokens_nonneg ..

theorem refill_capped (now : Readings) (bucket : TokenBucket) :
    (bucket.refill now).tokens ≤ bucket.capacity.toNat :=
  min_le_right _ _

def found (clock : Nat → Readings) (bucket : TokenBucket) (k : Nat) : ℚ :=
  level (bucket.capacity.toNat : ℚ) 1 (bucket.inflow clock) (bucket.refill (clock 0)).tokens k

theorem lasts_iff : bucket.Lasts clock n ↔ ∀ j < n, 1 ≤ bucket.found clock j := by
  refine forall₂_congr fun j _ => ?_
  rw [found, le_level_iff (refill_capped _ _)]
  simp only [mul_one]

def holding (clock : Nat → Readings) (bucket : TokenBucket) (tokens : ℚ) (k : Nat) : TokenBucket :=
  { bucket with tokens, lastRefill := (clock k).stored }

def before (clock : Nat → Readings) (bucket : TokenBucket) : Nat → TokenBucket
  | 0 => bucket
  | k + 1 => bucket.holding clock (bucket.found clock k - 1) k

theorem refill_holding (tokens : ℚ) (nonneg : 0 ≤ tokens) :
    (bucket.holding clock tokens k).refill (clock (k + 1)) =
      bucket.holding clock (min (tokens + bucket.inflow clock k) bucket.capacity.toNat) (k + 1) := by
  have more : 0 ≤ tokens + bucket.inflow clock k := add_nonneg nonneg (bucket.inflow_nonneg clock k)
  rw [inflow] at more
  simp only [refill, holding, inflow, max_eq_left more]

theorem refill_before (lasts : ∀ j < k, 1 ≤ bucket.found clock j) :
    (bucket.before clock k).refill (clock k) = bucket.holding clock (bucket.found clock k) k := by
  cases k with
  | zero => rfl
  | succ k =>
    have enough := lasts k (Nat.lt_succ_self k)
    exact refill_holding _ (by linarith)

theorem rounds_of_lasts (lasts : ∀ j < k, 1 ≤ bucket.found clock j) :
    rounds clock bucket k = (true, bucket.before clock k) := by
  induction k with
  | zero => rfl
  | succ k ih =>
    have earlier : ∀ j < k, 1 ≤ bucket.found clock j := fun j less => lasts j (Nat.lt_succ_of_lt less)
    have token : 1 ≤ (bucket.holding clock (bucket.found clock k) k).tokens := lasts k (Nat.lt_succ_self k)
    simp only [rounds, ih earlier, tryConsume, refill_before earlier, if_pos token]
    rfl

theorem rounds_of_empty (lasts : ∀ j < k, 1 ≤ bucket.found clock j) (empty : bucket.found clock k < 1)
    (less : k < n) : rounds clock bucket n = (false, bucket.holding clock (bucket.found clock k) k) := by
  induction n, less using Nat.le_induction with
  | base =>
    have token : ¬1 ≤ (bucket.holding clock (bucket.found clock k) k).tokens := not_le.mpr empty
    simp only [rounds, rounds_of_lasts lasts, tryConsume, refill_before lasts, if_neg token]
  | succ n _ ih => simp only [rounds, ih]

-- The first round without a token, if there is one.
theorem lasts_or_empty (clock : Nat → Readings) (bucket : TokenBucket) (n : Nat) :
    (∀ j < n, 1 ≤ bucket.found clock j) ∨ ∃ k < n, (∀ j < k, 1 ≤ bucket.found clock j) ∧ bucket.found clock k < 1 := by
  induction n with
  | zero => exact .inl fun j less => absurd less (Nat.not_lt_zero j)
  | succ n ih =>
    cases ih with
    | inl lasts =>
      by_cases token : 1 ≤ bucket.found clock n
      next =>
        left
        intro j less
        cases Nat.lt_succ_iff_lt_or_eq.mp less with
        | inl earlier => exact lasts j earlier
        | inr last => exact last ▸ token
      next => exact .inr ⟨n, Nat.lt_succ_self n, lasts, not_le.mp token⟩
    | inr empty =>
      obtain ⟨k, less, rest⟩ := empty
      exact .inr ⟨k, Nat.lt_succ_of_lt less, rest⟩

theorem rounds_succeed_iff : (rounds clock bucket n).1 = true ↔ ∀ j < n, 1 ≤ bucket.found clock j := by
  constructor
  · intro succeeds
    cases bucket.lasts_or_empty clock n with
    | inl lasts => exact lasts
    | inr fails =>
      obtain ⟨k, less, lasts, empty⟩ := fails
      rw [rounds_of_empty lasts empty less] at succeeds
      cases succeeds
  · intro lasts
    rw [rounds_of_lasts lasts]

theorem failsAt_iff :
    bucket.FailsAt clock k ↔ (∀ j < k, 1 ≤ bucket.found clock j) ∧ bucket.found clock k < 1 := by
  rw [FailsAt, rounds_succeed_iff]
  refine and_congr_right fun lasts => ?_
  rw [← Bool.not_eq_true, rounds_succeed_iff]
  constructor
  · intro fails
    by_contra token
    refine fails fun j less => ?_
    cases Nat.lt_succ_iff_lt_or_eq.mp less with
    | inl earlier => exact lasts j earlier
    | inr last => exact last ▸ not_lt.mp token
  · intro empty all
    exact absurd (all k (Nat.lt_succ_self k)) (not_le.mpr empty)

end Rounds

section Refills

def kept (clock : Nat → Readings) (bucket : TokenBucket) (k : Nat) : ℚ :=
  level (bucket.capacity.toNat : ℚ) 0 (bucket.inflow clock) (bucket.refill (clock 0)).tokens k

theorem kept_nonneg (k : Nat) : 0 ≤ bucket.kept clock k := by
  have room : (0 : ℚ) ≤ bucket.capacity.toNat := Nat.cast_nonneg _
  have first : 0 ≤ (bucket.refill (clock 0)).tokens := le_min (le_max_right _ _) room
  rw [kept, undrained_eq (bucket.inflow_nonneg clock) (refill_capped _ _)]
  exact le_min (add_nonneg first (gained_nonneg (bucket.inflow_nonneg clock) 0 k)) room

theorem refills_eq (k : Nat) :
    bucket.refills clock (k + 1) = bucket.holding clock (bucket.kept clock k) k := by
  induction k with
  | zero => rfl
  | succ k ih =>
    rw [refills, ih, refill_holding _ (kept_nonneg k), kept, kept, level, sub_zero]

theorem refills_tokens (exact_clock : ∀ k, (clock k).stored = (clock k).elapsed)
    (started : bucket.lastRefill ≤ (clock 0).elapsed)
    (monotone : ∀ k, (clock k).elapsed ≤ (clock (k + 1)).elapsed) (nonneg : 0 ≤ bucket.tokens) :
    (bucket.refills clock (k + 1)).tokens = (bucket.refill (clock k)).tokens := by
  have since (k : Nat) : bucket.lastRefill ≤ (clock k).elapsed ∧
      newTokens bucket.rate bucket.lastRefill (clock k).elapsed =
        newTokens bucket.rate bucket.lastRefill (clock 0).elapsed + gained (bucket.inflow clock) 0 k := by
    induction k with
    | zero => exact ⟨started, by simp⟩
    | succ k ih =>
      refine ⟨ih.1.trans (monotone k), ?_⟩
      rw [gained_succ (Nat.zero_le k), ← add_assoc, ← ih.2, inflow, exact_clock]
      simp only [newTokens]
      rw [Nat.cast_sub (ih.1.trans (monotone k)), Nat.cast_sub ih.1, Nat.cast_sub (monotone k)]
      ring
  have gains := gained_nonneg (bucket.inflow_nonneg clock) 0 k
  have start := newTokens_nonneg bucket.rate bucket.lastRefill (clock 0).elapsed
  have later := newTokens_nonneg bucket.rate bucket.lastRefill (clock k).elapsed
  rw [refills_eq, holding, kept, undrained_eq (bucket.inflow_nonneg clock) (refill_capped _ _)]
  simp only [refill]
  rw [max_eq_left (add_nonneg nonneg start), max_eq_left (add_nonneg nonneg later), (since k).2,
    ← min_add_add_right, min_assoc, ← add_assoc]
  congr 1
  exact min_eq_right (le_add_of_nonneg_right gains)

end Refills

section Exactness

theorem lasts_one_iff : bucket.Lasts clock 1 ↔ 1 ≤ bucket.found clock 0 := by
  rw [lasts_iff]
  constructor
  · intro once
    exact once 0 Nat.zero_lt_one
  · intro token j less
    rwa [Nat.lt_one_iff.mp less]

theorem lasts_of_enough (enough : (n : ℚ) ≤ (bucket.refill (clock 0)).tokens) : bucket.Lasts clock n := by
  have full := bucket.refill_capped (clock 0)
  intro j less
  have fewer : 1 + (j : ℚ) ≤ n := by
    rw [add_comm]
    exact_mod_cast less
  constructor
  · have gains := gained_nonneg (bucket.inflow_nonneg clock) 0 j
    linarith
  · intro i le
    have gains := gained_nonneg (bucket.inflow_nonneg clock) i j
    have later : ((j - i : Nat) : ℚ) ≤ j := Nat.cast_le.mpr (Nat.sub_le j i)
    linarith

theorem found_lt_refills (token : 1 ≤ bucket.found clock 0) (empty : bucket.found clock (k + 1) < 1) :
    bucket.found clock (k + 1) < (bucket.refills clock (k + 2)).tokens := by
  -- The first round found a token, so the capacity is not what keeps the level down now.
  have room : bucket.found clock (k + 1) < bucket.capacity.toNat :=
    empty.trans_le (token.trans (refill_capped _ _))
  rw [refills_eq]
  exact level_lt_undrained one_pos room

theorem nothing_of_failed_first (empty : bucket.found clock 0 < 1) (some : 0 < n) :
    (rounds clock bucket n).2.tokens = (bucket.refills clock 1).tokens := by
  rw [rounds_of_empty (fun j less => absurd less (Nat.not_lt_zero j)) empty some]
  rfl

end Exactness

/-- A call is all or nothing exactly if the refilled bucket has no token at all for it, or as many as the
call asks for while it goes on. -/
theorem all_or_nothing_iff (clock : Nat → Readings) (n : UInt32) (bucket : TokenBucket) :
    bucket.AllOrNothing clock n ↔ (bucket.Lasts clock 1 → bucket.Lasts clock n.toNat) := by
  rw [lasts_one_iff, lasts_iff]
  constructor
  case mp =>
    intro whole token
    by_contra fails
    have failed : (bucket.tryConsumeN clock n).1 = false := by
      rw [← Bool.not_eq_true, tryConsumeN, rounds_succeed_iff]
      exact fails
    obtain ⟨k, less, fails_at, tokens⟩ := whole.nothing failed
    obtain ⟨lasts, empty⟩ := failsAt_iff.mp fails_at
    rw [tryConsumeN, rounds_of_empty lasts empty less] at tokens
    cases k with
    | zero => exact absurd token (not_le.mpr empty)
    | succ k => exact (found_lt_refills token empty).ne tokens
  case mpr =>
    intro lasts
    constructor
    case nothing =>
      intro failed
      cases bucket.lasts_or_empty clock n.toNat with
      | inl all =>
        rw [tryConsumeN, rounds_of_lasts all] at failed
        cases failed
      | inr fails =>
        obtain ⟨k, less, earlier, empty⟩ := fails
        cases k with
        | zero => exact ⟨0, less, failsAt_iff.mpr ⟨earlier, empty⟩, nothing_of_failed_first empty less⟩
        | succ k => exact absurd (lasts (earlier 0 (Nat.succ_pos k)) (k + 1) less) (not_le.mpr empty)
    case all =>
      intro enough
      rw [tryConsumeN, rounds_succeed_iff, ← lasts_iff]
      exact lasts_of_enough enough

/-- Two tokens are there and three are asked for: the call fails and the two are gone. -/
theorem failed_call_takes_tokens :
    ¬({ capacity := 5, rate := 1, tokens := 2, lastRefill := 0 } : TokenBucket).AllOrNothing
      (fun _ => ⟨0, 0⟩) 3 := by
  intro whole
  obtain ⟨k, less, ⟨_, fails⟩, tokens⟩ := whole.nothing (by decide +kernel)
  have third : ∀ k < 3, (rounds (fun _ => ⟨0, 0⟩)
      { capacity := 5, rate := 1, tokens := 2, lastRefill := 0 } (k + 1)).1 = false → k = 2 := by
    decide +kernel
  obtain rfl := third k less fails
  exact absurd tokens (by decide +kernel)

end TokenBucket

end BankingLedger
