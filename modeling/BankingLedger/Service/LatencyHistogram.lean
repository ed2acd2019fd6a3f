import BankingLedger.Shared.LastEntries
import BankingLedger.Shared.Runs
import Mathlib.Algebra.Ring.Nat
import Mathlib.Data.List.Sort

set_option autoImplicit false

namespace BankingLedger.Advanced

open LastEntries Runs

abbrev Duration : Type := Nat

/-- `index` is `(last as f64 * pct / 100.0) as usize`, `deviation` the square root of the variance around
a mean. -/
structure Floats (F : Type) where
  index : Nat → F → Nat
  deviation : Duration → List Duration → Duration
  p50 : F
  p99 : F
  p999 : F

structure LatencyHistogram where
  samples : List Duration
  maxSamples : Nat
  sorted : Bool
deriving DecidableEq

def sort (samples : List Duration) : List Duration := samples.insertionSort (· ≤ ·)

namespace LatencyHistogram

def new (maxSamples : Nat) : LatencyHistogram := { samples := [], maxSamples, sorted := false }

-- `remove(0)` finds a sample unless the limit is zero.
def record (latency : Duration) (hist : LatencyHistogram) : LatencyHistogram :=
  { hist with
    samples :=
      (if hist.samples.length ≥ hist.maxSamples then hist.samples.tail else hist.samples) ++ [latency]
    sorted := false }

def ensureSorted (hist : LatencyHistogram) : LatencyHistogram :=
  if hist.sorted then hist else { hist with samples := sort hist.samples, sorted := true }

variable {F : Type} (floats : Floats F)

def percentile (pct : F) (hist : LatencyHistogram) : Option Duration × LatencyHistogram :=
  if hist.samples.isEmpty then (none, hist)
  else
    let hist := hist.ensureSorted
    let idx := floats.index (hist.samples.length - 1) pct
    (hist.samples[min idx (hist.samples.length - 1)]?, hist)

def min (hist : LatencyHistogram) : Option Duration := hist.samples.min?

def max (hist : LatencyHistogram) : Option Duration := hist.samples.max?

-- The sum is a `u128`, the quotient is cut to a `u64`.
def mean (hist : LatencyHistogram) : Option Duration :=
  if hist.samples.isEmpty then none else some (hist.samples.sum / hist.samples.length % 2 ^ 64)

def jitter (hist : LatencyHistogram) : Option Duration :=
  if hist.samples.length < 2 then none
  else hist.mean.map fun mean => floats.deviation mean hist.samples

def len (hist : LatencyHistogram) : Nat := hist.samples.length

def micros : Option Duration → String
  | none => "N/A"
  | some d => s!"{d / 1000}µs"

def report (hist : LatencyHistogram) : String × LatencyHistogram :=
  let (p50, hist) := hist.percentile floats floats.p50
  let (p99, hist) := hist.percentile floats floats.p99
  let (p999, hist) := hist.percentile floats floats.p999
  (s!"Latency[{hist.len} samples]: min={micros hist.min} max={micros hist.max} " ++
    s!"mean={micros hist.mean} p50={micros p50} p99={micros p99} p999={micros p999} " ++
    s!"jitter={micros (hist.jitter floats)}", hist)

end LatencyHistogram

inductive LatencyCall (F : Type) where
  | record (latency : Duration)
  | percentile (pct : F)
  | report
deriving DecidableEq

inductive LatencyReply where
  | done
  | percentile (result : Option Duration)
  | report (text : String)
deriving DecidableEq

variable {F : Type} (floats : Floats F)

def LatencyHistogram.handle (hist : LatencyHistogram) : LatencyCall F → LatencyReply × LatencyHistogram
  | .record latency => (.done, hist.record latency)
  | .percentile pct =>
    let (result, hist) := hist.percentile floats pct
    (.percentile result, hist)
  | .report =>
    let (text, hist) := hist.report floats
    (.report text, hist)

structure LatencyRun where
  hist : LatencyHistogram
  recorded : List Duration

namespace LatencyRun

def start (maxSamples : Nat) : LatencyRun := { hist := .new maxSamples, recorded := [] }

def next (run : LatencyRun) (call : LatencyCall F) : LatencyRun where
  hist := (run.hist.handle floats call).2
  recorded :=
    match call with
    | .record latency => run.recorded ++ [latency]
    | _ => run.recorded

/-- The histogram into which the same has been recorded without a query in between. -/
def unqueried (run : LatencyRun) : LatencyHistogram :=
  run.recorded.foldl (fun hist latency => hist.record latency) (.new run.hist.maxSamples)

/-- The samples are the last ones recorded, and the queries made so far change no reply. -/
structure Undisturbed (run : LatencyRun) : Prop where
  window : run.hist.samples.Perm (lastOf run.hist.maxSamples run.recorded)
  replies : ∀ call : LatencyCall F, (run.hist.handle floats call).1 = (run.unqueried.handle floats call).1

/-- A record into a full window finds its oldest sample at the front of the vector. -/
def EvictsOldest (run : LatencyRun) : LatencyCall F → Prop
  | .record _ => run.hist.maxSamples ≤ run.hist.samples.length →
    run.hist.samples.head? = (lastOf run.hist.maxSamples run.recorded).head?
  | _ => True

end LatencyRun

namespace LatencyHistogram

variable {hist hist' : LatencyHistogram}

def Truthful (hist : LatencyHistogram) : Prop := hist.sorted = true → hist.samples.Pairwise (· ≤ ·)

theorem sort_perm (samples : List Duration) : (sort samples).Perm samples := List.perm_insertionSort _ samples

theorem sort_sorted (samples : List Duration) : (sort samples).Pairwise (· ≤ ·) :=
  List.pairwise_insertionSort _ samples

theorem sort_congr {samples samples' : List Duration} (perm : samples.Perm samples') :
    sort samples = sort samples' :=
  ((sort_perm samples).trans (perm.trans (sort_perm samples').symm)).eq_of_pairwise'
    (sort_sorted samples) (sort_sorted samples')

theorem truthful_new (maxSamples : Nat) : (new maxSamples).Truthful := by simp [Truthful, new]

theorem truthful_record (latency : Duration) : (hist.record latency).Truthful := by simp [Truthful, record]

theorem ensureSorted_eq (truthful : hist.Truthful) :
    hist.ensureSorted = { hist with samples := sort hist.samples, sorted := true } := by
  rw [ensureSorted]
  split
  · next flag =>
    have same : sort hist.samples = hist.samples := (truthful flag).insertionSort_eq
    rw [same, ← flag]
  · rfl

structure Queried (hist hist' : LatencyHistogram) : Prop where
  samples : hist'.samples = sort hist.samples
  maxSamples : hist'.maxSamples = hist.maxSamples
  truthful : hist'.Truthful

theorem Queried.trans {hist'' : LatencyHistogram} (first : Queried hist hist') (second : Queried hist' hist'') :
    Queried hist hist'' where
  samples := by
    rw [second.samples, first.samples]
    exact sort_congr (sort_perm hist.samples)
  maxSamples := second.maxSamples.trans first.maxSamples
  truthful := second.truthful

theorem percentile_queried (truthful : hist.Truthful) (pct : F) : Queried hist (hist.percentile floats pct).2 := by
  rw [percentile]
  split
  · next empty =>
    rw [List.isEmpty_iff] at empty
    exact ⟨by simp [empty, sort], rfl, truthful⟩
  · rw [ensureSorted_eq truthful]
    exact ⟨rfl, rfl, fun _ => sort_sorted hist.samples⟩

theorem report_queried (truthful : hist.Truthful) : Queried hist (hist.report floats).2 := by
  have first := percentile_queried floats truthful floats.p50
  have second := percentile_queried floats first.truthful floats.p99
  exact first.trans (second.trans (percentile_queried floats second.truthful floats.p999))

section Congruence

variable (truthful : hist.Truthful) (truthful' : hist'.Truthful) (perm : hist.samples.Perm hist'.samples)

include truthful truthful' perm

theorem percentile_congr (pct : F) : (hist.percentile floats pct).1 = (hist'.percentile floats pct).1 := by
  rw [percentile, percentile, perm.isEmpty_eq, ensureSorted_eq truthful, ensureSorted_eq truthful',
    sort_congr perm]
  split <;> rfl

theorem percentile_samples (pct : F) :
    (hist.percentile floats pct).2.samples = (hist'.percentile floats pct).2.samples := by
  rw [(percentile_queried floats truthful pct).samples, (percentile_queried floats truthful' pct).samples,
    sort_congr perm]

theorem report_congr : (hist.report floats).1 = (hist'.report floats).1 := by
  have first := percentile_queried floats truthful floats.p50
  have first' := percentile_queried floats truthful' floats.p50
  have second := percentile_queried floats first.truthful floats.p99
  have second' := percentile_queried floats first'.truthful floats.p99
  have p50 := percentile_congr floats truthful truthful' perm floats.p50
  have at_first := List.Perm.of_eq (percentile_samples floats truthful truthful' perm floats.p50)
  have p99 := percentile_congr floats first.truthful first'.truthful at_first floats.p99
  have at_second := List.Perm.of_eq
    (percentile_samples floats first.truthful first'.truthful at_first floats.p99)
  have p999 := percentile_congr floats second.truthful second'.truthful at_second floats.p999
  have at_third := percentile_samples floats second.truthful second'.truthful at_second floats.p999
  simp only [report, p50, p99, p999, len, min, max, mean, jitter, at_third]

theorem handle_congr (call : LatencyCall F) : (hist.handle floats call).1 = (hist'.handle floats call).1 := by
  cases call with
  | record latency => rfl
  | percentile pct => exact congrArg LatencyReply.percentile (percentile_congr floats truthful truthful' perm pct)
  | report => exact congrArg LatencyReply.report (report_congr floats truthful truthful' perm)

end Congruence

end LatencyHistogram

namespace LatencyRun

open Advanced.LatencyHistogram

variable {run : LatencyRun} {call : LatencyCall F}

structure Valid (run : LatencyRun) : Prop where
  positive : 0 < run.hist.maxSamples
  truthful : run.hist.Truthful

theorem valid_start {maxSamples : Nat} (positive : 0 < maxSamples) : (start maxSamples).Valid :=
  ⟨positive, truthful_new maxSamples⟩

theorem Valid.next (valid : run.Valid) (call : LatencyCall F) : (run.next floats call).Valid := by
  cases call with
  | record latency => exact ⟨valid.positive, truthful_record latency⟩
  | percentile pct =>
    have queried := percentile_queried floats valid.truthful pct
    exact ⟨queried.maxSamples.symm ▸ valid.positive, queried.truthful⟩
  | report =>
    have queried := report_queried floats valid.truthful
    exact ⟨queried.maxSamples.symm ▸ valid.positive, queried.truthful⟩

theorem unqueried_samples (positive : 0 < run.hist.maxSamples) :
    run.unqueried.samples = lastOf run.hist.maxSamples run.recorded ∧
      run.unqueried.maxSamples = run.hist.maxSamples ∧ run.unqueried.Truthful := by
  rw [unqueried]
  generalize run.recorded = recorded
  induction recorded using List.reverseRecOn with
  | nil => exact ⟨lastOf_nil.symm, rfl, truthful_new _⟩
  | append_singleton recorded latency ih =>
    obtain ⟨samples, limit, -⟩ := ih
    rw [List.foldl_concat]
    refine ⟨?_, limit, truthful_record latency⟩
    rw [record, samples, limit]
    dsimp only
    split
    · next full => exact (lastOf_concat_of_full positive full latency).symm
    · next room => exact (lastOf_concat_of_room (Nat.lt_of_not_le room) latency).symm

-- What is in the window decides every reply.
theorem undisturbed_iff (valid : run.Valid) :
    run.Undisturbed floats ↔ run.hist.samples.Perm (lastOf run.hist.maxSamples run.recorded) := by
  constructor
  · exact Undisturbed.window
  · intro window
    obtain ⟨samples, -, truthful⟩ := unqueried_samples valid.positive
    exact ⟨window, handle_congr floats valid.truthful truthful (samples ▸ window)⟩

theorem undisturbed_start {maxSamples : Nat} (positive : 0 < maxSamples) :
    (start maxSamples).Undisturbed floats :=
  (undisturbed_iff floats (valid_start positive)).mpr (List.Perm.of_eq lastOf_nil.symm)

theorem undisturbed_record_iff (valid : run.Valid) (undisturbed : run.Undisturbed floats) (latency : Duration) :
    (run.next floats (.record latency)).Undisturbed floats ↔
      run.EvictsOldest (.record latency : LatencyCall F) := by
  have window := undisturbed.window
  rw [undisturbed_iff floats (valid.next floats _), EvictsOldest]
  simp only [LatencyRun.next, handle, record]
  split
  · next full =>
    rw [lastOf_concat_of_full valid.positive (window.length_eq ▸ full), List.perm_append_right_iff,
      tail_perm_tail_iff window, forall_prop_of_true full]
  · next room =>
    rw [lastOf_concat_of_room (window.length_eq ▸ Nat.lt_of_not_le room), List.perm_append_right_iff]
    exact iff_of_true window fun full => absurd full room

theorem undisturbed_of_queried {run' : LatencyRun} (valid : run'.Valid) (undisturbed : run.Undisturbed floats)
    (queried : Queried run.hist run'.hist) (recorded : run'.recorded = run.recorded) :
    run'.Undisturbed floats := by
  rw [undisturbed_iff floats valid, queried.samples, queried.maxSamples, recorded]
  exact (sort_perm _).trans undisturbed.window

theorem undisturbed_next_iff (valid : run.Valid) (undisturbed : run.Undisturbed floats) (call : LatencyCall F) :
    (run.next floats call).Undisturbed floats ↔ run.EvictsOldest call := by
  have next := valid.next floats call
  cases call with
  | record latency => exact undisturbed_record_iff floats valid undisturbed latency
  | percentile pct =>
    have queried := percentile_queried floats valid.truthful pct
    exact iff_of_true (undisturbed_of_queried floats next undisturbed queried rfl) trivial
  | report =>
    have queried := report_queried floats valid.truthful
    exact iff_of_true (undisturbed_of_queried floats next undisturbed queried rfl) trivial

theorem undisturbed_throughout_iff (valid : run.Valid) (undisturbed : run.Undisturbed floats)
    (calls : List (LatencyCall F)) :
    Throughout (next floats) (Undisturbed floats) run calls ↔ Meets (next floats) EvictsOldest run calls := by
  refine throughout_iff_meets_of_invariant ?exactly ?keep valid ?start calls
  case exactly => exact fun _ call valid undisturbed => undisturbed_next_iff floats valid undisturbed call
  case keep => exact fun _ call valid _ _ => valid.next floats call
  case start => exact undisturbed

end LatencyRun

/-- Queries stay without effect exactly as long as every sample that a record evicts is the oldest. -/
theorem queries_undisturbing_iff (floats : Floats F) (maxSamples : Nat) (positive : 0 < maxSamples)
    (calls : List (LatencyCall F)) :
    Throughout (LatencyRun.next floats) (LatencyRun.Undisturbed floats) (LatencyRun.start maxSamples) calls ↔
      Meets (LatencyRun.next floats) LatencyRun.EvictsOldest (LatencyRun.start maxSamples) calls :=
  LatencyRun.undisturbed_throughout_iff floats (LatencyRun.valid_start positive)
    (LatencyRun.undisturbed_start floats positive) calls

namespace LatencySample

-- The index of the source for the percentages of a window of two samples.
def wholePercent : Floats Nat where
  index last pct := last * pct / 100
  deviation mean samples :=
    Nat.sqrt ((samples.map fun d => (d - mean + (mean - d)) ^ 2).sum / (samples.length - 1))
  p50 := 50
  p99 := 99
  p999 := 99

-- The larger sample is the older one.
def calls : List (LatencyCall Nat) := [.record 2, .record 1, .percentile 50, .record 3]

end LatencySample

open LatencySample

theorem queries_undisturbing_iff_pair :
    Throughout (LatencyRun.next wholePercent) (LatencyRun.Undisturbed wholePercent) (LatencyRun.start 2) calls ↔
      Meets (LatencyRun.next wholePercent) LatencyRun.EvictsOldest (LatencyRun.start 2) calls :=
  queries_undisturbing_iff wholePercent 2 (by decide) calls

/-- The query sorts 1 in front of 2, and the next record evicts it in place of the older 2. -/
theorem query_evicts_newer_sample :
    ¬Throughout (LatencyRun.next wholePercent) (LatencyRun.Undisturbed wholePercent) (LatencyRun.start 2) calls := by
  intro undisturbed
  have window := (undisturbed calls [] (List.append_nil calls).symm).window
  revert window
  decide

end BankingLedger.Advanced
