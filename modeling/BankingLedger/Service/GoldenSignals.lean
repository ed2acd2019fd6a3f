import BankingLedger.Service.LatencyHistogram
import BankingLedger.Shared.FiniteMap

set_option autoImplicit false

namespace BankingLedger

open FiniteMap
open Advanced (Duration sort)

/-- `rate` is the quotient of two counters, `index` is `(last as f64 * pct / 100.0) as usize`. -/
structure SignalFloats (F : Type) where
  zero : F
  rate : UInt64 → UInt64 → F
  exceeds : F → F → Bool
  index : Nat → F → Nat
  p99 : F

structure ServiceLevelObjective (F : Type) where
  latencyP99Ms : UInt64
  errorRateMax : F

structure GoldenSignals where
  latencySamples : List Duration
  requestCount : UInt64
  errorCount : UInt64
  errorCategories : Map String UInt64
  latencyBuckets : Map String UInt64
  saturation : UInt64
  maxSamples : Nat

def bucketLabels : List String := ["<10ms", "10-50ms", "50-100ms", ">100ms"]

def millis : Nat := 1000000

def latencyBucket (latency : Duration) : String :=
  if latency < 10 * millis then "<10ms"
  else if latency < 50 * millis then "10-50ms"
  else if latency < 100 * millis then "50-100ms"
  else ">100ms"

namespace GoldenSignals

def new (maxSamples : Nat) : GoldenSignals where
  latencySamples := []
  requestCount := 0
  errorCount := 0
  errorCategories := ∅
  latencyBuckets := bucketLabels.foldl (fun buckets label => buckets.insert label 0) ∅
  saturation := 0
  maxSamples := maxSamples

-- The atomic steps of `record_request`, in their order.
def countRequest (s : GoldenSignals) : GoldenSignals := { s with requestCount := s.requestCount + 1 }

def countError (s : GoldenSignals) : GoldenSignals := { s with errorCount := s.errorCount + 1 }

def countBucket (latency : Duration) (s : GoldenSignals) : GoldenSignals :=
  match s.latencyBuckets.lookup (latencyBucket latency) with
  | some n => { s with latencyBuckets := s.latencyBuckets.insert (latencyBucket latency) (n + 1) }
  | none => s

def pushSample (latency : Duration) (s : GoldenSignals) : GoldenSignals :=
  { s with
    latencySamples :=
      (if s.latencySamples.length ≥ s.maxSamples then s.latencySamples.tail else s.latencySamples) ++ [latency] }

def recordRequest (latency : Duration) (isError : Bool) (s : GoldenSignals) : GoldenSignals :=
  let s := s.countRequest
  let s := if isError then s.countError else s
  (s.countBucket latency).pushSample latency

def countCategory (errorType : String) (s : GoldenSignals) : GoldenSignals :=
  { s with
    errorCategories := s.errorCategories.insert errorType ((s.errorCategories.lookup errorType).getD 0 + 1) }

def recordError (errorType : String) (s : GoldenSignals) : GoldenSignals :=
  s.countError.countCategory errorType

def errorsByCategory (s : GoldenSignals) : Map String UInt64 := s.errorCategories

def latencyBucketCounts (s : GoldenSignals) : Map String UInt64 := s.latencyBuckets

def reset (s : GoldenSignals) : GoldenSignals :=
  { s with
    requestCount := 0
    errorCount := 0
    latencySamples := []
    errorCategories := mapValues (fun _ => 0) s.errorCategories
    latencyBuckets := mapValues (fun _ => 0) s.latencyBuckets }

def setSaturation (active max : UInt64) (s : GoldenSignals) : GoldenSignals :=
  if max > 0 then { s with saturation := active * 100 / max } else s

variable {F : Type} (floats : SignalFloats F)

def latencyPercentile (pct : F) (s : GoldenSignals) : Option Duration :=
  if s.latencySamples.isEmpty then none
  else
    let sorted := sort s.latencySamples
    let idx := floats.index (sorted.length - 1) pct
    sorted[min idx (sorted.length - 1)]?

def errorRate (s : GoldenSignals) : F :=
  if s.requestCount = 0 then floats.zero else floats.rate s.errorCount s.requestCount

def totalRequests (s : GoldenSignals) : UInt64 := s.requestCount

end GoldenSignals

inductive IncidentStatus where
  | healthy
  | warning
  | incident
deriving DecidableEq, Repr

/-- The circuit breaker is left out: `check` does not look at it. -/
structure IncidentDetector (F : Type) where
  slo : ServiceLevelObjective F
  signals : GoldenSignals
  consecutiveFailures : UInt32
  threshold : UInt32

namespace IncidentDetector

variable {F : Type} (floats : SignalFloats F)

def new (slo : ServiceLevelObjective F) (signals : GoldenSignals) (threshold : UInt32) : IncidentDetector F :=
  { slo, signals, consecutiveFailures := 0, threshold }

def healthy (slo : ServiceLevelObjective F) (errorRate : F) (p99 : Option Duration) : Bool :=
  let healthy := !floats.exceeds errorRate slo.errorRateMax
  match p99 with
  -- The milliseconds are a `u128`, cut to a `u64`.
  | some p99Dur => if UInt64.ofNat (p99Dur / millis) > slo.latencyP99Ms then false else healthy
  | none => healthy

def statusOf (threshold failures : UInt32) : IncidentStatus :=
  if failures ≥ threshold then .incident
  else if failures > 0 then .warning
  else .healthy

-- The count wraps in a release build.
def check (detector : IncidentDetector F) : IncidentStatus × IncidentDetector F :=
  let errorRate := detector.signals.errorRate floats
  let p99 := detector.signals.latencyPercentile floats floats.p99
  let failures := if healthy floats detector.slo errorRate p99 then 0 else detector.consecutiveFailures + 1
  (statusOf detector.threshold failures, { detector with consecutiveFailures := failures })

end IncidentDetector

inductive SignalCall (F : Type) where
  | recordRequest (latency : Duration) (isError : Bool)
  | recordError (errorType : String)
  | reset
  | setSaturation (active max : UInt64)
  | errorsByCategory
  | latencyBucketCounts
  | latencyPercentile (pct : F)
  | errorRate
  | totalRequests
  | check

inductive SignalReply (F : Type) where
  | done
  | counts (counts : Map String UInt64)
  | latency (latency : Option Duration)
  | rate (rate : F)
  | total (total : UInt64)
  | status (status : IncidentStatus)

variable {F : Type} (floats : SignalFloats F)

def IncidentDetector.handle (detector : IncidentDetector F) (call : SignalCall F) :
    SignalReply F × IncidentDetector F :=
  match call with
  | .recordRequest latency isError =>
    (.done, { detector with signals := detector.signals.recordRequest latency isError })
  | .recordError errorType => (.done, { detector with signals := detector.signals.recordError errorType })
  | .reset => (.done, { detector with signals := detector.signals.reset })
  | .setSaturation active max => (.done, { detector with signals := detector.signals.setSaturation active max })
  | .errorsByCategory => (.counts detector.signals.errorsByCategory, detector)
  | .latencyBucketCounts => (.counts detector.signals.latencyBucketCounts, detector)
  | .latencyPercentile pct => (.latency (detector.signals.latencyPercentile floats pct), detector)
  | .errorRate => (.rate (detector.signals.errorRate floats), detector)
  | .totalRequests => (.total detector.signals.totalRequests, detector)
  | .check =>
    let checked := detector.check floats
    (.status checked.1, checked.2)

end BankingLedger
