import BankingLedger.Shared.Binary64
import BankingLedger.Shared.OrderStatistics
import Mathlib.Data.Nat.Size
import Mathlib.Data.Rat.Floor
import Mathlib.Tactic.Linarith

set_option autoImplicit false

namespace BankingLedger

open Binary64 OrderStatistics

structure LatencyHistogram where
  buckets : List Nat
  totalCount : Nat
  totalNs : Nat
  minNs : Nat
  maxNs : Nat
  numBuckets : Nat
deriving DecidableEq

-- Of a `usize`.
def leadingZeros (n : Nat) : Nat := 64 - n.size

def bucketOf (numBuckets latencyNs : Nat) : Nat :=
  let micros := latencyNs / 1000
  if micros = 0 then 0
  else
    let bucket := 64 - leadingZeros micros
    min bucket (numBuckets - 1)

-- The shift is one of a release build, past the 64th bucket it starts again.
def upperBound (i : Nat) : UInt64 := if i = 0 then 1000 else (1 <<< UInt64.ofNat i) * 1000

-- `((pct / 100.0) * total as f64).ceil() as usize`
def targetOf (pct : ℚ) (count : Nat) : Nat := min ⌈double (double (pct / 100) * double count)⌉₊ (2 ^ 64 - 1)

/-- The rank without rounding on the way. -/
def rankOf (pct : ℚ) (count : Nat) : Nat := ⌈pct / 100 * count⌉₊

namespace LatencyHistogram

def new (numBuckets : Nat) : LatencyHistogram where
  buckets := List.replicate numBuckets 0
  totalCount := 0
  totalNs := 0
  minNs := 2 ^ 64 - 1
  maxNs := 0
  numBuckets

def bucketFor (latencyNs : Nat) (hist : LatencyHistogram) : Nat := bucketOf hist.numBuckets latencyNs

/-- `none` is the panic of an index out of bounds. -/
def record (latencyNs : Nat) (hist : LatencyHistogram) : Option LatencyHistogram :=
  let bucket := hist.bucketFor latencyNs
  if bucket < hist.buckets.length then
    some
      { hist with
        buckets := hist.buckets.modify bucket (· + 1)
        totalCount := hist.totalCount + 1
        totalNs := (hist.totalNs + latencyNs) % 2 ^ 64
        minNs := min hist.minNs latencyNs
        maxNs := max hist.maxNs latencyNs }
  else none

def recordAll (hist : LatencyHistogram) (latencies : List Nat) : Option LatencyHistogram :=
  latencies.foldlM (fun hist latencyNs => hist.record latencyNs) hist

def percentile (pct : ℚ) (hist : LatencyHistogram) : Option UInt64 :=
  if ¬(0 ≤ pct ∧ pct ≤ 100) then none
  else if hist.totalCount = 0 then none
  else
    match reach (targetOf pct hist.totalCount) 0 0 hist.buckets with
    | some i => some (upperBound i)
    | none => some ((1 <<< UInt64.ofNat (hist.numBuckets - 1)) * 1000)

end LatencyHistogram

section Buckets

variable {numBuckets ns ns' i j : Nat}

theorem bucketOf_zero (small : ns < 1000) : bucketOf numBuckets ns = 0 :=
  if_pos (Nat.div_eq_of_lt small)

theorem bucketOf_of_le (large : 1000 ≤ ns) :
    bucketOf numBuckets ns = min (min 64 (ns / 1000).size) (numBuckets - 1) := by
  have micros : ns / 1000 ≠ 0 := by omega
  rw [bucketOf, if_neg micros, leadingZeros]
  change min (64 - (64 - (ns / 1000).size)) (numBuckets - 1) = _
  omega

theorem bucketOf_lt (positive : 0 < numBuckets) (ns : Nat) : bucketOf numBuckets ns < numBuckets := by
  by_cases small : ns < 1000
  next => rwa [bucketOf_zero small]
  next =>
    rw [bucketOf_of_le (Nat.le_of_not_lt small)]
    omega

theorem bucketOf_mono (le : ns ≤ ns') : bucketOf numBuckets ns ≤ bucketOf numBuckets ns' := by
  by_cases small : ns < 1000
  next =>
    rw [bucketOf_zero small]
    exact Nat.zero_le _
  next =>
    have sizes : (ns / 1000).size ≤ (ns' / 1000).size := Nat.size_le_size (Nat.div_le_div_right le)
    rw [bucketOf_of_le (Nat.le_of_not_lt small), bucketOf_of_le (by omega)]
    omega

theorem toNat_upperBound (few : i < 50) : (upperBound i).toNat = 2 ^ i * 1000 := by
  by_cases first : i = 0
  next =>
    rw [first]
    rfl
  next =>
    have small : 2 ^ i ≤ 2 ^ 49 := Nat.pow_le_pow_right (by decide) (by omega)
    have shift : (UInt64.ofNat i).toNat = i := by
      rw [UInt64.toNat_ofNat']
      omega
    rw [upperBound, if_neg first, UInt64.toNat_mul, UInt64.toNat_shiftLeft, shift, Nat.mod_eq_of_lt (by omega : i < 64)]
    change (1 <<< i % 2 ^ 64) * 1000 % 2 ^ 64 = _
    rw [Nat.one_shiftLeft]
    omega

theorem upperBound_mono (le : i ≤ j) (few : j < 50) : upperBound i ≤ upperBound j := by
  rw [UInt64.le_iff_toNat_le, toNat_upperBound (Nat.lt_of_le_of_lt le few), toNat_upperBound few]
  exact Nat.mul_le_mul_right 1000 (Nat.pow_le_pow_right (by decide) le)

theorem bucketOf_bounds (few : numBuckets ≤ 50) (below : ns < 2 ^ (numBuckets - 1) * 1000) :
    ns < (upperBound (bucketOf numBuckets ns)).toNat ∧
      (upperBound (bucketOf numBuckets ns)).toNat ≤ max 1000 (2 * ns) := by
  by_cases small : ns < 1000
  next =>
    rw [bucketOf_zero small]
    exact ⟨small, Nat.le_max_left _ _⟩
  next =>
    have large := Nat.le_of_not_lt small
    have micros : ns / 1000 < 2 ^ (numBuckets - 1) := by omega
    have size : (ns / 1000).size ≤ numBuckets - 1 := Nat.size_le.mpr micros
    have bucket : bucketOf numBuckets ns = (ns / 1000).size := by
      rw [bucketOf_of_le large]
      omega
    have above : ns / 1000 < 2 ^ (ns / 1000).size := Nat.lt_size_self _
    have positive : 0 < (ns / 1000).size := Nat.size_pos.mpr (by omega)
    have half : 2 ^ ((ns / 1000).size - 1) ≤ ns / 1000 := Nat.lt_size.mp (by omega)
    have double : 2 ^ (ns / 1000).size = 2 ^ ((ns / 1000).size - 1) * 2 := by
      rw [← Nat.pow_succ]
      congr 1
      omega
    rw [bucket, toNat_upperBound (by omega)]
    omega

theorem two_mul_upperBound_le (less : i < j) (few : j < 50) : 2 * (upperBound i).toNat ≤ (upperBound j).toNat := by
  have powers : 2 ^ (i + 1) ≤ 2 ^ j := Nat.pow_le_pow_right (by decide) less
  rw [toNat_upperBound (Nat.lt_trans less few), toNat_upperBound few]
  omega

-- No other bound is within a factor of two.
theorem bounds_iff_bucketOf (few : numBuckets ≤ 50) (below : ns < 2 ^ (numBuckets - 1) * 1000)
    (inside : i < numBuckets) :
    ns < (upperBound i).toNat ∧ (upperBound i).toNat ≤ max 1000 (2 * ns) ↔ i = bucketOf numBuckets ns := by
  have own := bucketOf_bounds few below
  constructor
  next =>
    intro bounds
    have inside' := bucketOf_lt (Nat.zero_lt_of_lt inside) ns
    have least : 1000 ≤ (upperBound i).toNat := by
      have first := upperBound_mono (Nat.zero_le i) (by omega)
      rwa [UInt64.le_iff_toNat_le] at first
    have least' : 1000 ≤ (upperBound (bucketOf numBuckets ns)).toNat := by
      have first := upperBound_mono (Nat.zero_le (bucketOf numBuckets ns)) (by omega)
      rwa [UInt64.le_iff_toNat_le] at first
    rcases Nat.lt_trichotomy i (bucketOf numBuckets ns) with less | same | more
    next =>
      have double := two_mul_upperBound_le less (by omega)
      omega
    next => exact same
    next =>
      have double := two_mul_upperBound_le more (by omega)
      omega
  next =>
    intro same
    rw [same]
    exact own

end Buckets

section Rank

variable {pct pct' : ℚ} {count : Nat}

theorem rankOf_pos (positive : 0 < pct) (some : 0 < count) : 0 < rankOf pct count := by
  have counted : (0 : ℚ) < count := by exact_mod_cast some
  exact Nat.ceil_pos.mpr (by positivity)

theorem rankOf_le (most : pct ≤ 100) : rankOf pct count ≤ count := by
  refine Nat.ceil_le.mpr ?_
  have share : pct / 100 ≤ 1 := by linarith
  have counted : (0 : ℚ) ≤ count := Nat.cast_nonneg count
  calc pct / 100 * count ≤ 1 * count := mul_le_mul_of_nonneg_right share counted
    _ = count := one_mul _

theorem targetOf_mono (nonneg : 0 ≤ pct) (le : pct ≤ pct') (count : Nat) :
    targetOf pct count ≤ targetOf pct' count := by
  have share : 0 ≤ pct / 100 := by linarith
  have shares : double (pct / 100) ≤ double (pct' / 100) := double_mono share (by linarith)
  have counted : 0 ≤ double (count : ℚ) := double_nonneg (Nat.cast_nonneg count)
  have products := double_mono (mul_nonneg (double_nonneg share) counted) (mul_le_mul_of_nonneg_right shares counted)
  exact min_le_min_right _ (Nat.ceil_mono products)

end Rank

namespace LatencyHistogram

variable {numBuckets : Nat} {recorded latencies : List Nat} {hist : LatencyHistogram} {pct : ℚ}

structure Counts (numBuckets : Nat) (recorded : List Nat) (hist : LatencyHistogram) : Prop where
  size : hist.numBuckets = numBuckets
  buckets : hist.buckets = tally (bucketOf numBuckets) numBuckets recorded
  total : hist.totalCount = recorded.length

theorem counts_new (numBuckets : Nat) : Counts numBuckets [] (new numBuckets) where
  size := rfl
  buckets := by simp [new, tally]
  total := rfl

theorem Counts.record (counts : Counts numBuckets recorded hist) (positive : 0 < numBuckets) (latencyNs : Nat) :
    ∃ hist', hist.record latencyNs = some hist' ∧ Counts numBuckets (recorded ++ [latencyNs]) hist' := by
  have inside : bucketOf hist.numBuckets latencyNs < hist.buckets.length := by
    rw [counts.size, counts.buckets, length_tally]
    exact bucketOf_lt positive latencyNs
  refine ⟨_, if_pos inside, counts.size, ?_, ?_⟩
  · rw [tally_concat, ← counts.buckets, ← counts.size]
    rfl
  · rw [List.length_append, ← counts.total]
    rfl

theorem Counts.recordAll (counts : Counts numBuckets recorded hist) (positive : 0 < numBuckets)
    (latencies : List Nat) :
    ∃ hist', hist.recordAll latencies = some hist' ∧ Counts numBuckets (recorded ++ latencies) hist' := by
  induction latencies generalizing recorded hist with
  | nil => exact ⟨hist, rfl, by rwa [List.append_nil]⟩
  | cons latencyNs rest ih =>
    obtain ⟨next, stored, counts⟩ := counts.record positive latencyNs
    obtain ⟨last, others, counts⟩ := ih counts
    refine ⟨last, ?_, by rwa [List.append_cons]⟩
    rw [LatencyHistogram.recordAll, List.foldlM_cons, stored]
    exact others

theorem Counts.sum_buckets (counts : Counts numBuckets recorded hist) (positive : 0 < numBuckets) :
    hist.buckets.sum = hist.totalCount := by
  rw [counts.buckets, counts.total]
  exact sum_tally fun x _ => bucketOf_lt positive x

/-- The bucket in which the samples, counted from the smallest on, come to so many. More than there are
come to the last. -/
def bucketAt (numBuckets : Nat) (latencies : List Nat) (rank : Nat) : Nat :=
  if rank = 0 then 0 else ((ranked latencies rank).map (bucketOf numBuckets)).getD (numBuckets - 1)

theorem bucketAt_of_ranked {rank s : Nat} (positive : 0 < rank) (found : ranked latencies rank = some s) :
    bucketAt numBuckets latencies rank = bucketOf numBuckets s := by
  rw [bucketAt, if_neg positive.ne', found, Option.map_some, Option.getD_some]

theorem bucketAt_of_length_lt {rank : Nat} (more : latencies.length < rank) :
    bucketAt numBuckets latencies rank = numBuckets - 1 := by
  have nothing : ranked latencies rank = none := by
    rw [ranked, List.getElem?_eq_none_iff, length_sort]
    omega
  rw [bucketAt, if_neg (by omega), nothing]
  rfl

theorem bucketAt_lt (positive : 0 < numBuckets) (latencies : List Nat) (rank : Nat) :
    bucketAt numBuckets latencies rank < numBuckets := by
  rcases Nat.eq_zero_or_pos rank with rfl | some
  next => exact positive
  next =>
    by_cases within : rank ≤ latencies.length
    next =>
      obtain ⟨s, found⟩ := exists_ranked some within
      rw [bucketAt_of_ranked some found]
      exact bucketOf_lt positive s
    next =>
      rw [bucketAt_of_length_lt (Nat.lt_of_not_le within)]
      omega

theorem bucketAt_mono (positive : 0 < numBuckets) (latencies : List Nat) {rank rank' : Nat} (le : rank ≤ rank') :
    bucketAt numBuckets latencies rank ≤ bucketAt numBuckets latencies rank' := by
  rcases Nat.eq_zero_or_pos rank with rfl | some
  next => exact Nat.zero_le _
  next =>
    by_cases within : rank' ≤ latencies.length
    next =>
      obtain ⟨s, found⟩ := exists_ranked some (le.trans within)
      obtain ⟨s', found'⟩ := exists_ranked (some.trans_le le) within
      rw [bucketAt_of_ranked some found, bucketAt_of_ranked (some.trans_le le) found']
      exact bucketOf_mono (ranked_mono found found' le)
    next =>
      have inside := bucketAt_lt positive latencies rank
      rw [bucketAt_of_length_lt (Nat.lt_of_not_le within)]
      omega

theorem Counts.reach (counts : Counts numBuckets recorded hist) (positive : 0 < numBuckets) (target : Nat) :
    (OrderStatistics.reach target 0 0 hist.buckets).getD (numBuckets - 1) = bucketAt numBuckets recorded target := by
  rcases Nat.eq_zero_or_pos target with rfl | some
  next =>
    have first : OrderStatistics.reach 0 0 0 hist.buckets = some (0 + 0) :=
      reach_eq (by rwa [counts.buckets, length_tally]) (Nat.zero_le _) fun j less => absurd less (Nat.not_lt_zero j)
    rw [first]
    rfl
  next =>
    by_cases within : target ≤ recorded.length
    next =>
      obtain ⟨s, found⟩ := exists_ranked some within
      rw [counts.buckets, reach_tally (fun _ _ => bucketOf_mono) some found (bucketOf_lt positive s),
        Option.getD_some, bucketAt_of_ranked some found]
    next =>
      have short : 0 + hist.buckets.sum < target := by
        rw [counts.sum_buckets positive, counts.total]
        omega
      rw [reach_eq_none short, Option.getD_none, bucketAt_of_length_lt (Nat.lt_of_not_le within)]

theorem Counts.percentile (counts : Counts numBuckets recorded hist) (least : 2 ≤ numBuckets)
    (some : recorded ≠ []) (above : 0 ≤ pct) (most : pct ≤ 100) :
    hist.percentile pct = .some (upperBound (bucketAt numBuckets recorded (targetOf pct recorded.length))) := by
  have asked : ¬¬(0 ≤ pct ∧ pct ≤ 100) := not_not.mpr ⟨above, most⟩
  have counted : hist.totalCount ≠ 0 := by
    rw [counts.total]
    exact mt List.length_eq_zero_iff.mp some
  have last : upperBound (numBuckets - 1) = (1 <<< UInt64.ofNat (hist.numBuckets - 1)) * 1000 := by
    rw [upperBound, if_neg (by omega), counts.size]
  rw [LatencyHistogram.percentile, if_neg asked, if_neg counted, ← counts.reach (by omega), counts.total, ← last]
  cases OrderStatistics.reach (targetOf pct recorded.length) 0 0 hist.buckets <;> rfl

/-- A percentile of so many percent is more than the sample of that rank, and at most twice that or a microsecond. -/
def BoundsSample (latencies : List Nat) (hist : LatencyHistogram) (pct : ℚ) : Prop :=
  ∃ s v, ranked latencies (rankOf pct latencies.length) = some s ∧ hist.percentile pct = some v ∧
    s < v.toNat ∧ v.toNat ≤ max 1000 (2 * s)

theorem Counts.boundsSample_iff (counts : Counts numBuckets latencies hist) (least : 2 ≤ numBuckets)
    (most : numBuckets ≤ 50) (some : latencies ≠ []) (below : ∀ ns ∈ latencies, ns < 2 ^ (numBuckets - 1) * 1000)
    (above : 0 < pct) (whole : pct ≤ 100) : BoundsSample latencies hist pct ↔
      bucketAt numBuckets latencies (targetOf pct latencies.length) =
        bucketAt numBuckets latencies (rankOf pct latencies.length) := by
  have rank := rankOf_pos above (List.length_pos_iff.mpr some)
  obtain ⟨s, found⟩ := exists_ranked rank (rankOf_le whole)
  have answer := counts.percentile least some above.le whole
  have inside : bucketAt numBuckets latencies (targetOf pct latencies.length) < numBuckets :=
    bucketAt_lt (by omega) latencies _
  rw [bucketAt_of_ranked rank found, ← bounds_iff_bucketOf most (below s (mem_of_ranked found)) inside]
  constructor
  next =>
    rintro ⟨s', v, found', answer', bounds⟩
    rw [found, Option.some.injEq] at found'
    rw [answer, Option.some.injEq] at answer'
    rwa [found', answer']
  next => exact fun bounds => ⟨s, _, found, answer, bounds⟩

/-- Every histogram of recorded latencies counts them all, and its percentiles grow. A percentile is within its
bounds exactly if the rank that is computed in doubles comes to the bucket of the exact rank. -/
theorem percentile_bounds_iff (numBuckets : Nat) (least : 2 ≤ numBuckets) (most : numBuckets ≤ 50)
    (latencies : List Nat) : ∃ hist, (new numBuckets).recordAll latencies = some hist ∧
      hist.buckets.sum = hist.totalCount ∧
      (latencies ≠ [] → (∀ ns ∈ latencies, ns < 2 ^ (numBuckets - 1) * 1000) →
        ∀ pct, 0 < pct → pct ≤ 100 → (BoundsSample latencies hist pct ↔
          bucketAt numBuckets latencies (targetOf pct latencies.length) =
            bucketAt numBuckets latencies (rankOf pct latencies.length))) ∧
      (latencies ≠ [] → ∀ pct pct', 0 < pct → pct ≤ pct' → pct' ≤ 100 →
        ∃ v v', hist.percentile pct = some v ∧ hist.percentile pct' = some v' ∧ v ≤ v') := by
  have positive : 0 < numBuckets := by omega
  obtain ⟨hist, stored, counts⟩ := (counts_new numBuckets).recordAll positive latencies
  rw [List.nil_append] at counts
  refine ⟨hist, stored, counts.sum_buckets positive, ?_, ?_⟩
  · intro some below pct above whole
    exact counts.boundsSample_iff least most some below above whole
  · intro some pct pct' above le whole
    have answer := counts.percentile least some above.le (le.trans whole)
    have answer' := counts.percentile least some (above.le.trans le) whole
    have buckets := bucketAt_mono positive latencies (targetOf_mono above.le le latencies.length)
    have few := Nat.lt_of_lt_of_le (bucketAt_lt positive latencies (targetOf pct' latencies.length)) most
    exact ⟨_, _, answer, answer', upperBound_mono buckets few⟩

theorem percentile_bounds_iff_median : ∃ hist, (new 20).recordAll [7000, 500, 3000] = some hist ∧
    BoundsSample [7000, 500, 3000] hist 50 := by
  obtain ⟨hist, stored, _, bounds, _⟩ := percentile_bounds_iff 20 (by decide) (by decide) [7000, 500, 3000]
  exact ⟨hist, stored, (bounds (by decide) (by decide) 50 (by norm_num) (by norm_num)).mpr (by decide +kernel)⟩

-- Seven in a hundred: as a double `0.07 * 100.0` is more than 7.
theorem seventh_exceeded : ∃ hist,
    (new 20).recordAll (List.replicate 7 0 ++ List.replicate 93 1000000) = some hist ∧
      ¬ BoundsSample (List.replicate 7 0 ++ List.replicate 93 1000000) hist 7 := by
  have positive : 0 < 20 := by decide
  obtain ⟨hist, stored, counts⟩ := (counts_new 20).recordAll positive (List.replicate 7 0 ++ List.replicate 93 1000000)
  rw [List.nil_append] at counts
  refine ⟨hist, stored, ?_⟩
  rw [counts.boundsSample_iff (by decide) (by decide) (by decide) (by decide +kernel) (by norm_num) (by norm_num)]
  decide +kernel

end LatencyHistogram

end BankingLedger
