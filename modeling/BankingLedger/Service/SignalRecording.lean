import BankingLedger.Service.IncidentDetection
import BankingLedger.Shared.Movers

set_option autoImplicit false

namespace BankingLedger

open FiniteMap Interleaving Movers Runs
open Advanced (Duration)

inductive SignalStep where
  | countRequest
  | countError
  | countBucket (latency : Duration)
  | pushSample (latency : Duration)
  | countCategory (errorType : String)
  | setSaturation (active max : UInt64)
deriving DecidableEq

namespace SignalStep

def take : SignalStep → GoldenSignals → GoldenSignals
  | countRequest => GoldenSignals.countRequest
  | countError => GoldenSignals.countError
  | countBucket latency => GoldenSignals.countBucket latency
  | pushSample latency => GoldenSignals.pushSample latency
  | countCategory errorType => GoldenSignals.countCategory errorType
  | setSaturation active max => GoldenSignals.setSaturation active max

end SignalStep

inductive SignalRecord where
  | request (latency : Duration) (isError : Bool)
  | error (errorType : String)
  | saturation (active max : UInt64)

namespace SignalRecord

def call {F : Type} : SignalRecord → SignalCall F
  | request latency isError => .recordRequest latency isError
  | error errorType => .recordError errorType
  | saturation active max => .setSaturation active max

def steps : SignalRecord → List SignalStep
  | request latency isError =>
    .countRequest :: ((if isError then [.countError] else []) ++ [.countBucket latency, .pushSample latency])
  | error errorType => [.countError, .countCategory errorType]
  | saturation active max => [.setSaturation active max]

end SignalRecord

def recorders {I : Type} (signals : GoldenSignals) (recordings : I → SignalRecord) :
    Config I GoldenSignals (List SignalStep) where
  shared := signals
  thread i := (recordings i).steps

section Recorded

variable {F : Type} {floats : SignalFloats F}

theorem perform_steps (floats : SignalFloats F) (recording : SignalRecord) (detector : IncidentDetector F) :
    perform SignalStep.take detector.signals recording.steps = (detector.handle floats recording.call).2.signals := by
  cases recording with
  | request latency isError => cases isError <;> rfl
  | error errorType => rfl
  | saturation active max => rfl

theorem steps_ne_nil (recording : SignalRecord) : recording.steps ≠ [] := by
  cases recording <;> exact List.cons_ne_nil _ _

-- A counter that is bumped only where it is there before.
def bumpKnown (key : String) (m : Map String UInt64) : Map String UInt64 :=
  match m.lookup key with
  | some n => m.insert key (n + 1)
  | none => m

theorem lookup_bumpKnown (key other : String) (m : Map String UInt64) :
    (bumpKnown key m).lookup other = (m.lookup other).map fun n => if other = key then n + 1 else n := by
  rw [bumpKnown]
  by_cases same : other = key
  next =>
    subst same
    cases found : m.lookup other with
    | some n => simp
    | none => simp [found]
  next =>
    cases m.lookup key with
    | some n => simp [same]
    | none => simp [same]

theorem bumpKnown_comm (key key' : String) (m : Map String UInt64) :
    bumpKnown key (bumpKnown key' m) = bumpKnown key' (bumpKnown key m) := by
  apply Finmap.ext_lookup
  intro other
  simp only [lookup_bumpKnown, Option.map_map]
  congr 1
  funext n
  simp only [Function.comp_apply]
  split_ifs <;> rfl

theorem bump_comm (key key' : String) (m : Map String UInt64) : bump key (bump key' m) = bump key' (bump key m) := by
  by_cases same : key = key'
  next => rw [same]
  next =>
    apply Finmap.ext_lookup
    intro other
    simp only [bump, lookup_insert_eq, same, Ne.symm same, ↓reduceIte]
    by_cases first : other = key
    next => simp [first, same]
    next => simp [first]

theorem countBucket_eq (latency : Duration) (s : GoldenSignals) :
    s.countBucket latency = { s with latencyBuckets := bumpKnown (latencyBucket latency) s.latencyBuckets } := by
  rw [GoldenSignals.countBucket, bumpKnown]
  cases s.latencyBuckets.lookup (latencyBucket latency) <;> rfl

theorem setSaturation_eq (active max : UInt64) (s : GoldenSignals) :
    s.setSaturation active max =
      { s with saturation := if max > 0 then active * 100 / max else s.saturation } := by
  rw [GoldenSignals.setSaturation]
  split <;> rfl

def SignalStep.counts : SignalStep → Bool
  | pushSample _ | setSaturation .. => false
  | _ => true

-- Two counters may be bumped in either order, and whatever else is done.
theorem counts_moves {step : SignalStep} (counts : step.counts) : Mover SignalStep.take step := by
  intro other s
  cases step with
  | pushSample latency => cases counts
  | setSaturation active max => cases counts
  | countRequest => cases other <;> simp only [SignalStep.take, countBucket_eq, setSaturation_eq] <;> rfl
  | countError => cases other <;> simp only [SignalStep.take, countBucket_eq, setSaturation_eq] <;> rfl
  | countBucket latency =>
    cases other with
    | countBucket latency' => simp only [SignalStep.take, countBucket_eq, bumpKnown_comm (latencyBucket latency)]
    | _ => simp only [SignalStep.take, countBucket_eq, setSaturation_eq] <;> rfl
  | countCategory errorType =>
    cases other with
    | countCategory errorType' =>
      have swapped := bump_comm errorType errorType' s.errorCategories
      exact congrArg (fun categories => { s with errorCategories := categories }) swapped
    | _ =>
      simp only [SignalStep.take, countBucket_eq, setSaturation_eq]
      rfl

theorem steps_move (recording : SignalRecord) : ∀ step ∈ recording.steps.dropLast, Mover SignalStep.take step := by
  have counters : ∀ step ∈ recording.steps.dropLast, step.counts := by
    cases recording with
    | request latency isError => cases isError <;> simp [SignalRecord.steps, SignalStep.counts]
    | error errorType => simp [SignalRecord.steps, SignalStep.counts]
    | saturation active max => simp [SignalRecord.steps]
  exact fun step member => counts_moves (counters step member)

theorem handle_recording (recording : SignalRecord) (detector : IncidentDetector F) :
    (detector.handle floats recording.call).2 =
      { detector with signals := perform SignalStep.take detector.signals recording.steps } := by
  rw [perform_steps floats]
  cases recording <;> rfl

variable {slo : ServiceLevelObjective F} {threshold : UInt32} {maxSamples : Nat} {past : List (SignalCall F)}
  {detector : IncidentDetector F} {I : Type}

theorem FollowsCalls.recorded (follows : FollowsCalls floats slo threshold maxSamples past detector)
    (recordings : I → SignalRecord) (order : List I) :
    FollowsCalls floats slo threshold maxSamples (past ++ order.map fun i => (recordings i).call)
      { detector with
        signals := order.foldl (fun s i => perform SignalStep.take s (recordings i).steps) detector.signals } := by
  induction order generalizing past detector with
  | nil => simpa using follows
  | cons i rest ih =>
    have handled := follows.handled (recordings i).call
    rw [handle_recording] at handled
    have later := ih handled
    rwa [List.append_assoc] at later

variable [DecidableEq I]

/-- However the steps of the recorders are interleaved, once they are done every later call is answered as if they
had been called one after the other, in the order of their last steps; one that was done before another began
comes before it. -/
theorem recordings_linearize (floats : SignalFloats F) (slo : ServiceLevelObjective F) (threshold : UInt32)
    (maxSamples : Nat) (past : List (SignalCall F)) (recordings : I → SignalRecord) (schedule : List I)
    (later : List (SignalCall F)) (call : SignalCall F) :
    let handled := run fun (detector : IncidentDetector F) call => (detector.handle floats call).2
    let detector := handled (IncidentDetector.new slo (GoldenSignals.new maxSamples) threshold) past
    let system := threads SignalStep.take
    let start := recorders detector.signals recordings
    let order := serialOrder SignalStep.take start schedule
    (∀ i, (system.run start schedule).thread i = []) →
      AnsweredAfter floats slo threshold maxSamples (past ++ (order.map fun i => (recordings i).call) ++ later) call
          ((handled { detector with signals := (system.run start schedule).shared } later).handle floats call).1 ∧
        order.Nodup ∧ (∀ i, i ∈ order) ∧
        ∀ first rest i j, schedule = first ++ rest → (system.run start first).thread i = [] →
          (system.run start first).thread j = (recordings j).steps → [i, j].Sublist order := by
  intro handled detector system start order returned
  have follows : FollowsCalls floats slo threshold maxSamples past detector := run_follows past
  have serial : (system.run start schedule).shared = _ := run_serial (fun i => steps_move (recordings i)) returned
  constructor
  next =>
    rw [serial]
    exact ((follows.recorded recordings order).after later).answered call
  constructor
  next => exact nodup_serialOrder start schedule
  constructor
  next => exact fun i => (mem_serialOrder returned).mpr (steps_ne_nil (recordings i))
  next =>
    intro first rest i j split done waits
    have each := returned j
    change [i, j].Sublist (serialOrder SignalStep.take start schedule)
    rw [split] at each ⊢
    exact serialOrder_sublist (steps_ne_nil (recordings i)) done (steps_ne_nil (recordings j)) waits each

end Recorded

namespace SignalRecording.Sample

def floats : SignalFloats Rat where
  zero := 0
  rate errors requests := errors.toNat / requests.toNat
  exceeds rate max := rate > max
  index last pct := (last * pct / 100).floor.toNat
  p99 := 99

def slo : ServiceLevelObjective Rat := { latencyP99Ms := 5, errorRateMax := 1 / 1000000 }

-- A slow request and a failed one, whose samples come the other way round.
def recordings : Bool → SignalRecord
  | false => .request (20 * millis) false
  | true => .request (2 * millis) true

def schedule : List Bool := [false, true, true, false, true, true, false]

end SignalRecording.Sample

open SignalRecording.Sample in
theorem recordings_linearize_twoRequests :
    let handled := run fun (detector : IncidentDetector Rat) call => (detector.handle floats call).2
    let detector := IncidentDetector.new slo (GoldenSignals.new 100) 3
    let system := threads SignalStep.take
    let start := recorders detector.signals recordings
    let order := serialOrder SignalStep.take start schedule
    AnsweredAfter floats slo 3 100 ((order.map fun i => (recordings i).call) ++ [.check, .recordError "late"]) .check
        ((handled { detector with signals := (system.run start schedule).shared }
          [.check, .recordError "late"]).handle floats .check).1 ∧
      order.Nodup ∧ (∀ i, i ∈ order) ∧
      ∀ first rest i j, schedule = first ++ rest → (system.run start first).thread i = [] →
        (system.run start first).thread j = (recordings j).steps → [i, j].Sublist order :=
  recordings_linearize floats slo 3 100 [] recordings schedule [.check, .recordError "late"] .check (by decide)

end BankingLedger
