import BankingLedger.Service.GoldenSignals
import BankingLedger.Shared.Epochs
import BankingLedger.Shared.OrderStatistics
import BankingLedger.Shared.Runs

set_option autoImplicit false

namespace BankingLedger

open FiniteMap Epochs LastEntries Runs
open Advanced (Duration)

namespace SignalCall

variable {F : Type}

def isReset : SignalCall F → Bool
  | reset => true
  | _ => false

def isRequest : SignalCall F → Bool
  | recordRequest .. => true
  | _ => false

def fails : SignalCall F → Bool
  | recordRequest _ isError => isError
  | recordError _ => true
  | _ => false

def inBucket (label : String) : SignalCall F → Bool
  | recordRequest latency _ => latencyBucket latency = label
  | _ => false

def ofCategory (category : String) : SignalCall F → Bool
  | recordError errorType => errorType = category
  | _ => false

def isCheck : SignalCall F → Bool
  | check => true
  | _ => false

def latency? : SignalCall F → Option Duration
  | recordRequest latency _ => some latency
  | _ => none

end SignalCall

open SignalCall

section Specification

variable {F : Type} (floats : SignalFloats F) (slo : ServiceLevelObjective F) (threshold : UInt32) (maxSamples : Nat)
  (past : List (SignalCall F))

-- A window of no samples holds one all the same.
def recentLatencies : List Duration := lastOf (max maxSamples 1) ((epoch isReset past).filterMap latency?)

def percentileOf (pct : F) (samples : List Duration) : Option Duration :=
  OrderStatistics.ranked samples (min (floats.index (samples.length - 1) pct) (samples.length - 1) + 1)

def recentErrorRate : F :=
  let requests := UInt64.ofNat (count isReset isRequest past)
  if requests = 0 then floats.zero else floats.rate (UInt64.ofNat (count isReset fails past)) requests

def foundHealthy : Bool :=
  IncidentDetector.healthy floats slo (recentErrorRate floats past)
    (percentileOf floats floats.p99 (recentLatencies maxSamples past))

def verdicts : List Bool :=
  judged (fun before call => match call with
    | check => some (foundHealthy floats slo maxSamples before)
    | _ => none) [] past

def failuresInARow : Nat := streak id (verdicts floats slo maxSamples past)

-- The count of failures has 32 bits.
def statusAfter (failures : Nat) : IncidentStatus :=
  if threshold.toNat ≤ failures % 2 ^ 32 then .incident
  else if 0 < failures % 2 ^ 32 then .warning
  else .healthy

def CountsOf (labels : String → Bool) (counts : String → Nat) (m : Map String UInt64) : Prop :=
  ∀ key, m.lookup key = if labels key then some (UInt64.ofNat (counts key)) else none

inductive AnsweredAfter : SignalCall F → SignalReply F → Prop where
  | recordRequest (latency : Duration) (isError : Bool) : AnsweredAfter (.recordRequest latency isError) .done
  | recordError (errorType : String) : AnsweredAfter (.recordError errorType) .done
  | reset : AnsweredAfter .reset .done
  | setSaturation (active max : UInt64) : AnsweredAfter (.setSaturation active max) .done
  | errorsByCategory (m : Map String UInt64)
      (counts : CountsOf (fun c => past.any (ofCategory c)) (fun c => count isReset (ofCategory c) past) m) :
      AnsweredAfter .errorsByCategory (.counts m)
  | latencyBucketCounts (m : Map String UInt64)
      (counts : CountsOf bucketLabels.contains (fun label => count isReset (inBucket label) past) m) :
      AnsweredAfter .latencyBucketCounts (.counts m)
  | latencyPercentile (pct : F) :
      AnsweredAfter (.latencyPercentile pct) (.latency (percentileOf floats pct (recentLatencies maxSamples past)))
  | errorRate : AnsweredAfter .errorRate (.rate (recentErrorRate floats past))
  | totalRequests : AnsweredAfter .totalRequests (.total (UInt64.ofNat (count isReset isRequest past)))
  | check : AnsweredAfter .check (.status (statusAfter threshold
      (if foundHealthy floats slo maxSamples past then 0 else failuresInARow floats slo maxSamples past + 1)))

def bump (key : String) (m : Map String UInt64) : Map String UInt64 := m.insert key ((m.lookup key).getD 0 + 1)

structure Collects (s : GoldenSignals) : Prop where
  limit : s.maxSamples = maxSamples
  samples : s.latencySamples = recentLatencies maxSamples past
  requests : s.requestCount = UInt64.ofNat (count isReset isRequest past)
  errors : s.errorCount = UInt64.ofNat (count isReset fails past)
  categories : CountsOf (fun c => past.any (ofCategory c)) (fun c => count isReset (ofCategory c) past)
    s.errorCategories
  buckets : CountsOf bucketLabels.contains (fun label => count isReset (inBucket label) past) s.latencyBuckets

structure FollowsCalls (detector : IncidentDetector F) : Prop where
  objective : detector.slo = slo
  limit : detector.threshold = threshold
  signals : Collects maxSamples past detector.signals
  failures : detector.consecutiveFailures = UInt32.ofNat (failuresInARow floats slo maxSamples past)

end Specification

section Collected

variable {F : Type} {maxSamples : Nat} {past : List (SignalCall F)} {s : GoldenSignals}

theorem latencyBucket_mem (latency : Duration) : bucketLabels.contains (latencyBucket latency) := by
  unfold latencyBucket
  split_ifs <;> decide

theorem CountsOf.zero {labels : String → Bool} {counts : String → Nat} {m : Map String UInt64}
    (before : CountsOf labels counts m) : CountsOf labels (fun _ => 0) (mapValues (fun _ => 0) m) := by
  intro key
  rw [lookup_mapValues, before key]
  split <;> rfl

theorem CountsOf.bumped {labels : String → Bool} {counts : String → Nat} {m : Map String UInt64} {key : String}
    (before : CountsOf labels counts m) (fresh : labels key = false → counts key = 0) :
    CountsOf (fun other => labels other || other = key) (fun other => counts other + if key = other then 1 else 0)
      (bump key m) := by
  intro other
  rw [bump, lookup_insert_eq, before key, before other]
  by_cases same : other = key
  next =>
    subst same
    by_cases known : labels other
    next => simp [known, UInt64.ofNat_add]
    next => simp [known, fresh (by simpa using known)]
  next => simp [same, Ne.symm same]

theorem recentLatencies_concat (call : SignalCall F) : recentLatencies maxSamples (past ++ [call]) =
    if call.isReset then [] else
      match call.latency? with
      | some latency => lastOf (max maxSamples 1) ((epoch isReset past).filterMap latency? ++ [latency])
      | none => recentLatencies maxSamples past := by
  rw [recentLatencies, epoch_concat]
  split
  next => simp
  next =>
    cases found : call.latency? with
    | some latency => simp [List.filterMap_append, found]
    | none => simp [List.filterMap_append, found, recentLatencies]

theorem CountsOf.congr {labels labels' : String → Bool} {counts counts' : String → Nat} {m : Map String UInt64}
    (before : CountsOf labels counts m) (sameLabels : ∀ key, labels' key = labels key)
    (sameCounts : ∀ key, counts' key = counts key) : CountsOf labels' counts' m := by
  intro key
  rw [before key, sameLabels, sameCounts]

theorem ofNat_ite (n : Nat) (grows : Bool) :
    UInt64.ofNat (n + if grows then 1 else 0) = if grows then UInt64.ofNat n + 1 else UInt64.ofNat n := by
  split
  next => exact UInt64.ofNat_add n 1
  next => rfl

theorem pushSample_samples (collects : Collects maxSamples past s) (latency : Duration) (isError : Bool) :
    (s.pushSample latency).latencySamples = recentLatencies maxSamples (past ++ [recordRequest latency isError]) := by
  rw [recentLatencies_concat]
  simp only [GoldenSignals.pushSample, collects.samples, collects.limit]
  exact lastOf_concat_of_makes_room maxSamples _ latency

theorem countBucket_of_counted {counts : String → Nat}
    (counted : CountsOf bucketLabels.contains counts s.latencyBuckets) (latency : Duration) :
    s.countBucket latency = { s with latencyBuckets := bump (latencyBucket latency) s.latencyBuckets } := by
  have found := counted (latencyBucket latency)
  rw [if_pos (latencyBucket_mem latency)] at found
  rw [GoldenSignals.countBucket, bump, found]
  rfl

theorem CountsOf.bumped_bucket {counts : String → Nat} {m : Map String UInt64}
    (counted : CountsOf bucketLabels.contains counts m) (latency : Duration) :
    CountsOf bucketLabels.contains (fun label => counts label + if latencyBucket latency = label then 1 else 0)
      (bump (latencyBucket latency) m) := by
  have known := latencyBucket_mem latency
  apply (counted.bumped fun absent => Bool.noConfusion (known.symm.trans absent)).congr
  next =>
    intro label
    by_cases here : label = latencyBucket latency
    next => rw [here, known, Bool.true_or]
    next => simp [here]
  next => exact fun label => rfl

theorem Collects.recordRequest (collects : Collects maxSamples past s) (latency : Duration) (isError : Bool) :
    Collects maxSamples (past ++ [.recordRequest latency isError]) (s.recordRequest latency isError) := by
  have signals : s.recordRequest latency isError =
      { s with
        latencySamples := (s.pushSample latency).latencySamples
        requestCount := s.requestCount + 1
        errorCount := if isError then s.errorCount + 1 else s.errorCount
        latencyBuckets := bump (latencyBucket latency) s.latencyBuckets } := by
    cases isError with
    | false =>
      have counted := countBucket_of_counted (s := s.countRequest) collects.buckets latency
      simp only [GoldenSignals.recordRequest, Bool.false_eq_true, ↓reduceIte, counted]
      rfl
    | true =>
      have counted := countBucket_of_counted (s := s.countRequest.countError) collects.buckets latency
      simp only [GoldenSignals.recordRequest, ↓reduceIte, counted]
      rfl
  rw [signals]
  constructor
  case limit => exact collects.limit
  case samples => exact pushSample_samples collects latency isError
  case requests =>
    simp only [count_concat, isReset, isRequest, collects.requests]
    exact (UInt64.ofNat_add _ 1).symm
  case errors =>
    simp only [count_concat, isReset, fails, collects.errors]
    exact (ofNat_ite _ isError).symm
  case categories =>
    apply collects.categories.congr
    next => simp [ofCategory]
    next => simp [count_concat, isReset, ofCategory]
  case buckets =>
    apply (collects.buckets.bumped_bucket latency).congr
    next => simp
    next => simp [count_concat, isReset, inBucket]

theorem count_ofCategory_unseen {category : String} (unseen : past.any (ofCategory category) = false) :
    count isReset (ofCategory category) past = 0 := by
  rw [List.any_eq_false] at unseen
  rw [count, List.countP_eq_zero]
  intro call recent
  exact unseen call ((List.rtakeWhile_suffix _ past).mem recent)

theorem Collects.recordError (collects : Collects maxSamples past s) (errorType : String) :
    Collects maxSamples (past ++ [.recordError errorType]) (s.recordError errorType) := by
  constructor
  case limit => exact collects.limit
  case samples =>
    rw [recentLatencies_concat]
    exact collects.samples
  case requests =>
    simp only [count_concat, isReset, isRequest]
    exact collects.requests
  case errors =>
    simp only [count_concat, isReset, fails, GoldenSignals.recordError, GoldenSignals.countCategory,
      GoldenSignals.countError, collects.errors]
    exact (UInt64.ofNat_add _ 1).symm
  case categories =>
    apply (collects.categories.bumped count_ofCategory_unseen).congr
    next => simp [ofCategory, eq_comm]
    next => simp [count_concat, isReset, ofCategory]
  case buckets =>
    apply collects.buckets.congr
    next => simp
    next => simp [count_concat, isReset, inBucket]

theorem Collects.reset (collects : Collects maxSamples past s) :
    Collects maxSamples (past ++ [.reset]) s.reset where
  limit := collects.limit
  samples := by simp [recentLatencies_concat, isReset, GoldenSignals.reset]
  requests := by simp [count_concat, isReset, GoldenSignals.reset]
  errors := by simp [count_concat, isReset, GoldenSignals.reset]
  categories := collects.categories.zero.congr (by simp [ofCategory]) (by simp [count_concat, isReset])
  buckets := collects.buckets.zero.congr (by simp) (by simp [count_concat, isReset])

theorem Collects.quiet {call : SignalCall F} (collects : Collects maxSamples past s) (goesOn : call.isReset = false)
    (noRequest : call.isRequest = false) (noError : call.fails = false) : Collects maxSamples (past ++ [call]) s := by
  have noLatency : call.latency? = none := by
    cases call <;> first | rfl | cases noRequest
  have noCategory (category : String) : call.ofCategory category = false := by
    cases call <;> first | rfl | cases noError
  have noBucket (label : String) : call.inBucket label = false := by
    cases call <;> first | rfl | cases noRequest
  constructor
  case limit => exact collects.limit
  case samples =>
    rw [recentLatencies_concat, goesOn, noLatency]
    exact collects.samples
  case requests => simpa [count_concat, goesOn, noRequest] using collects.requests
  case errors => simpa [count_concat, goesOn, noError] using collects.errors
  case categories =>
    apply collects.categories.congr
    next => simp [noCategory]
    next => simp [count_concat, goesOn, noCategory]
  case buckets =>
    apply collects.buckets.congr
    next => simp
    next => simp [count_concat, goesOn, noBucket]

end Collected

section Followed

variable {F : Type} {floats : SignalFloats F} {slo : ServiceLevelObjective F} {threshold : UInt32} {maxSamples : Nat}
  {past : List (SignalCall F)} {detector : IncidentDetector F}

theorem lookup_zeroed (labels : List String) (m : Map String UInt64) (label : String) :
    (labels.foldl (fun buckets label => buckets.insert label 0) m).lookup label =
      if labels.contains label then some 0 else m.lookup label := by
  induction labels generalizing m with
  | nil => rfl
  | cons first rest ih =>
    rw [List.foldl_cons, ih, lookup_insert_eq, List.contains_cons]
    by_cases later : rest.contains label
    next => simp only [later, Bool.or_true, ↓reduceIte]
    next =>
      rw [if_neg later, Bool.eq_false_iff.mpr later, Bool.or_false]
      simp only [beq_iff_eq]

theorem new_collects : Collects maxSamples ([] : List (SignalCall F)) (GoldenSignals.new maxSamples) := by
  constructor
  case limit => rfl
  case samples => simp [recentLatencies, GoldenSignals.new]
  case requests => rfl
  case errors => rfl
  case categories => exact fun category => rfl
  case buckets => exact fun label => lookup_zeroed bucketLabels ∅ label

theorem errorRate_eq {s : GoldenSignals} (collects : Collects maxSamples past s) :
    s.errorRate floats = recentErrorRate floats past := by
  rw [GoldenSignals.errorRate, recentErrorRate, collects.requests, collects.errors]

theorem latencyPercentile_eq {s : GoldenSignals} (collects : Collects maxSamples past s) (pct : F) :
    s.latencyPercentile floats pct = percentileOf floats pct (recentLatencies maxSamples past) := by
  rw [GoldenSignals.latencyPercentile, collects.samples, percentileOf]
  have lengths : (Advanced.sort (recentLatencies maxSamples past)).length = (recentLatencies maxSamples past).length :=
    OrderStatistics.length_sort _
  by_cases empty : recentLatencies maxSamples past = []
  next =>
    rw [empty]
    rfl
  next =>
    rw [if_neg (by simpa using empty)]
    simp only [lengths]
    rfl

theorem statusOf_ofNat (failures : Nat) :
    IncidentDetector.statusOf threshold (UInt32.ofNat failures) = statusAfter threshold failures := by
  simp only [IncidentDetector.statusOf, statusAfter, ge_iff_le, gt_iff_lt, UInt32.le_iff_toNat_le,
    UInt32.lt_iff_toNat_lt, UInt32.toNat_ofNat', UInt32.toNat_zero]

theorem failuresInARow_concat (call : SignalCall F) : failuresInARow floats slo maxSamples (past ++ [call]) =
    match call with
    | .check => if foundHealthy floats slo maxSamples past then 0 else failuresInARow floats slo maxSamples past + 1
    | _ => failuresInARow floats slo maxSamples past := by
  rw [failuresInARow, verdicts, judged_concat, List.nil_append]
  cases call with
  | check => exact streak_concat id _ _
  | _ => rw [Option.toList_none, List.append_nil]; rfl

theorem FollowsCalls.check_eq (follows : FollowsCalls floats slo threshold maxSamples past detector) :
    detector.check floats =
      let failures :=
        if foundHealthy floats slo maxSamples past then 0 else failuresInARow floats slo maxSamples past + 1
      (statusAfter threshold failures, { detector with consecutiveFailures := UInt32.ofNat failures }) := by
  have found : IncidentDetector.healthy floats detector.slo (detector.signals.errorRate floats)
      (detector.signals.latencyPercentile floats floats.p99) = foundHealthy floats slo maxSamples past := by
    rw [follows.objective, errorRate_eq follows.signals, latencyPercentile_eq follows.signals, foundHealthy]
  rw [IncidentDetector.check, found, follows.limit, follows.failures]
  split
  next => exact congrArg (·, _) (statusOf_ofNat 0)
  next =>
    have next : UInt32.ofNat (failuresInARow floats slo maxSamples past) + 1 =
        UInt32.ofNat (failuresInARow floats slo maxSamples past + 1) := (UInt32.ofNat_add _ 1).symm
    rw [next, statusOf_ofNat]

theorem FollowsCalls.other {call : SignalCall F} {signals : GoldenSignals}
    (follows : FollowsCalls floats slo threshold maxSamples past detector)
    (collects : Collects maxSamples (past ++ [call]) signals) (other : call.isCheck = false) :
    FollowsCalls floats slo threshold maxSamples (past ++ [call]) { detector with signals } := by
  have same : failuresInARow floats slo maxSamples (past ++ [call]) = failuresInARow floats slo maxSamples past := by
    rw [failuresInARow_concat]
    cases call with
    | check => cases other
    | _ => rfl
  constructor
  case objective => exact follows.objective
  case limit => exact follows.limit
  case signals => exact collects
  case failures => rw [same, follows.failures]

theorem setSaturation_collects {s : GoldenSignals} (collects : Collects maxSamples past s) (active max : UInt64) :
    Collects maxSamples past (s.setSaturation active max) := by
  rw [GoldenSignals.setSaturation]
  split
  next => exact ⟨collects.limit, collects.samples, collects.requests, collects.errors, collects.categories,
    collects.buckets⟩
  next => exact collects

theorem FollowsCalls.handled (follows : FollowsCalls floats slo threshold maxSamples past detector)
    (call : SignalCall F) :
    FollowsCalls floats slo threshold maxSamples (past ++ [call]) (detector.handle floats call).2 := by
  have collects := follows.signals
  cases call with
  | recordRequest latency isError =>
    exact follows.other (collects.recordRequest latency isError) rfl
  | recordError errorType => exact follows.other (collects.recordError errorType) rfl
  | reset => exact follows.other collects.reset rfl
  | setSaturation active max =>
    exact follows.other (setSaturation_collects (collects.quiet rfl rfl rfl) active max) rfl
  | check =>
    rw [IncidentDetector.handle, follows.check_eq]
    constructor
    case objective => exact follows.objective
    case limit => exact follows.limit
    case signals => exact collects.quiet rfl rfl rfl
    case failures => rw [failuresInARow_concat]
  | errorsByCategory => exact follows.other (collects.quiet rfl rfl rfl) rfl
  | latencyBucketCounts => exact follows.other (collects.quiet rfl rfl rfl) rfl
  | latencyPercentile pct => exact follows.other (collects.quiet rfl rfl rfl) rfl
  | errorRate => exact follows.other (collects.quiet rfl rfl rfl) rfl
  | totalRequests => exact follows.other (collects.quiet rfl rfl rfl) rfl

theorem FollowsCalls.answered (follows : FollowsCalls floats slo threshold maxSamples past detector)
    (call : SignalCall F) :
    AnsweredAfter floats slo threshold maxSamples past call (detector.handle floats call).1 := by
  have collects := follows.signals
  cases call with
  | recordRequest latency isError => exact .recordRequest latency isError
  | recordError errorType => exact .recordError errorType
  | reset => exact .reset
  | setSaturation active max => exact .setSaturation active max
  | errorsByCategory => exact .errorsByCategory _ collects.categories
  | latencyBucketCounts => exact .latencyBucketCounts _ collects.buckets
  | latencyPercentile pct =>
    rw [IncidentDetector.handle, latencyPercentile_eq collects]
    exact .latencyPercentile pct
  | errorRate =>
    rw [IncidentDetector.handle, errorRate_eq collects]
    exact .errorRate
  | totalRequests =>
    rw [IncidentDetector.handle, GoldenSignals.totalRequests, collects.requests]
    exact .totalRequests
  | check =>
    rw [IncidentDetector.handle, follows.check_eq]
    exact .check

theorem FollowsCalls.after (follows : FollowsCalls floats slo threshold maxSamples past detector)
    (calls : List (SignalCall F)) :
    FollowsCalls floats slo threshold maxSamples (past ++ calls)
      (run (fun detector call => (detector.handle floats call).2) detector calls) := by
  induction calls using List.reverseRecOn with
  | nil => rwa [List.append_nil]
  | append_singleton before call ih =>
    rw [run_append, run_cons, run_nil, ← List.append_assoc]
    exact ih.handled call

theorem run_follows (calls : List (SignalCall F)) :
    FollowsCalls floats slo threshold maxSamples calls
      (run (fun detector call => (detector.handle floats call).2)
        (IncidentDetector.new slo (GoldenSignals.new maxSamples) threshold) calls) := by
  have new : FollowsCalls floats slo threshold maxSamples []
      (IncidentDetector.new slo (GoldenSignals.new maxSamples) threshold) := ⟨rfl, rfl, new_collects, rfl⟩
  exact new.after calls

/-- Whatever has been called before, a call is answered by what has been recorded since the last reset, and a check
by how many checks in a row have found the bounds exceeded. -/
theorem incidents_by_history (floats : SignalFloats F) (slo : ServiceLevelObjective F) (threshold : UInt32)
    (maxSamples : Nat) (calls : List (SignalCall F)) (call : SignalCall F) :
    AnsweredAfter floats slo threshold maxSamples calls call
      (run (fun detector call => (detector.handle floats call).2)
        (IncidentDetector.new slo (GoldenSignals.new maxSamples) threshold) calls |>.handle floats call).1 :=
  (run_follows calls).answered call

end Followed

end BankingLedger
