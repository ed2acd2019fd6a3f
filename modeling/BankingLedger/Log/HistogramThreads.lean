import BankingLedger.Log.LatencyHistogram
import BankingLedger.Shared.Movers

set_option autoImplicit false

namespace BankingLedger

open Interleaving Movers

namespace LatencyHistogram

-- The loops end in a weak exchange, which may fail although the value is the expected one.
inductive RecordPc where
  | countBucket
  | countSample
  | addNs
  | loadMin
  | exchangeMin (currentMin : Nat)
  | loadMax
  | exchangeMax (currentMax : Nat)
  | returned
  | panicked
deriving DecidableEq

/-- `spurious` says of each exchange to come whether it fails without a reason. -/
structure Recorder where
  latencyNs : UInt64
  spurious : List Bool
  pc : RecordPc

namespace Recorder

def ns (r : Recorder) : Nat := r.latencyNs.toNat

def whileBelow (currentMin : Nat) (r : Recorder) : RecordPc :=
  if r.ns < currentMin then .exchangeMin currentMin else .loadMax

def whileAbove (currentMax : Nat) (r : Recorder) : RecordPc :=
  if currentMax < r.ns then .exchangeMax currentMax else .returned

def exchanges (found current : Nat) (r : Recorder) : Prop := found = current ∧ r.spurious.headD false = false

instance (found current : Nat) (r : Recorder) : Decidable (r.exchanges found current) :=
  inferInstanceAs (Decidable (_ ∧ _))

def step (hist : LatencyHistogram) (r : Recorder) : Option (LatencyHistogram × Recorder) :=
  match r.pc with
  | .countBucket =>
    let bucket := hist.bucketFor r.ns
    if bucket < hist.buckets.length then
      some ({ hist with buckets := hist.buckets.modify bucket (· + 1) }, { r with pc := .countSample })
    else some (hist, { r with pc := .panicked })
  | .countSample => some ({ hist with totalCount := hist.totalCount + 1 }, { r with pc := .addNs })
  | .addNs => some ({ hist with totalNs := (hist.totalNs + r.ns) % 2 ^ 64 }, { r with pc := .loadMin })
  | .loadMin => some (hist, { r with pc := r.whileBelow hist.minNs })
  | .exchangeMin currentMin =>
    if r.exchanges hist.minNs currentMin then
      some ({ hist with minNs := r.ns }, { r with pc := .loadMax, spurious := r.spurious.tail })
    else some (hist, { r with pc := r.whileBelow hist.minNs, spurious := r.spurious.tail })
  | .loadMax => some (hist, { r with pc := r.whileAbove hist.maxNs })
  | .exchangeMax currentMax =>
    if r.exchanges hist.maxNs currentMax then
      some ({ hist with maxNs := r.ns }, { r with pc := .returned, spurious := r.spurious.tail })
    else some (hist, { r with pc := r.whileAbove hist.maxNs, spurious := r.spurious.tail })
  | .returned | .panicked => none

end Recorder

def recorders : System LatencyHistogram Recorder := ⟨Recorder.step⟩

def recordersStart {I : Type} (hist : LatencyHistogram) (latencies : I → UInt64) (spurious : I → List Bool) :
    Config I LatencyHistogram Recorder where
  shared := hist
  thread i := { latencyNs := latencies i, spurious := spurious i, pc := .countBucket }

def meanNs (hist : LatencyHistogram) : Option UInt64 :=
  if hist.totalCount = 0 then none else some (.ofNat (hist.totalNs / hist.totalCount))

def minNs? (hist : LatencyHistogram) : Option UInt64 :=
  if hist.minNs = 2 ^ 64 - 1 then none else some (.ofNat hist.minNs)

def maxNs? (hist : LatencyHistogram) : Option UInt64 :=
  if hist.maxNs = 0 then none else some (.ofNat hist.maxNs)

structure Summarizes (recorded : List Nat) (hist : LatencyHistogram) : Prop where
  count : hist.totalCount = recorded.length
  mean : hist.meanNs = if recorded = [] then none else some (.ofNat (recorded.sum % 2 ^ 64 / recorded.length))
  least : hist.minNs? = (recorded.min?.filter (· ≠ 2 ^ 64 - 1)).map .ofNat
  largest : hist.maxNs? = (recorded.max?.filter (· ≠ 0)).map .ofNat

section Effects

-- What a call of `record` does, each at one of its atomic steps.
inductive Effect where
  | countBucket (ns : Nat)
  | countSample
  | addNs (ns : Nat)
  | lower (ns : Nat)
  | raise (ns : Nat)

def Effect.take : Effect → LatencyHistogram → LatencyHistogram
  | countBucket ns, hist => { hist with buckets := hist.buckets.modify (hist.bucketFor ns) (· + 1) }
  | countSample, hist => { hist with totalCount := hist.totalCount + 1 }
  | addNs ns, hist => { hist with totalNs := (hist.totalNs + ns) % 2 ^ 64 }
  | lower ns, hist => { hist with minNs := min hist.minNs ns }
  | raise ns, hist => { hist with maxNs := max hist.maxNs ns }

def Recorder.pending (r : Recorder) : List Effect :=
  match r.pc with
  | .countBucket => [.countBucket r.ns, .countSample, .addNs r.ns, .lower r.ns, .raise r.ns]
  | .countSample => [.countSample, .addNs r.ns, .lower r.ns, .raise r.ns]
  | .addNs => [.addNs r.ns, .lower r.ns, .raise r.ns]
  | .loadMin | .exchangeMin _ => [.lower r.ns, .raise r.ns]
  | .loadMax | .exchangeMax _ => [.raise r.ns]
  | .returned | .panicked => []

theorem effect_moves (effect : Effect) : Mover Effect.take effect := by
  intro other hist
  cases effect with
  | countBucket ns =>
    cases other with
    | countBucket ns' =>
      simp only [Effect.take, bucketFor]
      by_cases same : bucketOf hist.numBuckets ns = bucketOf hist.numBuckets ns'
      next => rw [same]
      next => rw [List.modify_modify_ne _ _ _ (Ne.symm same)]
    | _ => rfl
  | addNs ns =>
    cases other with
    | addNs ns' =>
      simp only [Effect.take, Nat.mod_add_mod]
      rw [Nat.add_right_comm]
    | _ => rfl
  | lower ns =>
    cases other with
    | lower ns' =>
      simp only [Effect.take]
      rw [min_right_comm]
    | _ => rfl
  | raise ns =>
    cases other with
    | raise ns' =>
      simp only [Effect.take]
      rw [max_right_comm]
    | _ => rfl
  | countSample => cases other <;> rfl

end Effects

section Steps

variable {hist hist' : LatencyHistogram} {r r' : Recorder}

structure Sized (hist : LatencyHistogram) : Prop where
  positive : 0 < hist.numBuckets
  length : hist.buckets.length = hist.numBuckets

inductive Move (hist : LatencyHistogram) (r : Recorder) : LatencyHistogram → Recorder → Prop where
  | bucketCounted (pc : r.pc = .countBucket) :
      Move hist r ((Effect.countBucket r.ns).take hist) { r with pc := .countSample }
  | sampleCounted (pc : r.pc = .countSample) : Move hist r (Effect.countSample.take hist) { r with pc := .addNs }
  | nsAdded (pc : r.pc = .addNs) : Move hist r ((Effect.addNs r.ns).take hist) { r with pc := .loadMin }
  | minLoaded (pc : r.pc = .loadMin) : Move hist r hist { r with pc := r.whileBelow hist.minNs }
  | minLowered (currentMin : Nat) (pc : r.pc = .exchangeMin currentMin) (fits : r.exchanges hist.minNs currentMin) :
      Move hist r { hist with minNs := r.ns } { r with pc := .loadMax, spurious := r.spurious.tail }
  | minRetried (currentMin : Nat) (pc : r.pc = .exchangeMin currentMin) (fails : ¬r.exchanges hist.minNs currentMin) :
      Move hist r hist { r with pc := r.whileBelow hist.minNs, spurious := r.spurious.tail }
  | maxLoaded (pc : r.pc = .loadMax) : Move hist r hist { r with pc := r.whileAbove hist.maxNs }
  | maxRaised (currentMax : Nat) (pc : r.pc = .exchangeMax currentMax) (fits : r.exchanges hist.maxNs currentMax) :
      Move hist r { hist with maxNs := r.ns } { r with pc := .returned, spurious := r.spurious.tail }
  | maxRetried (currentMax : Nat) (pc : r.pc = .exchangeMax currentMax) (fails : ¬r.exchanges hist.maxNs currentMax) :
      Move hist r hist { r with pc := r.whileAbove hist.maxNs, spurious := r.spurious.tail }

theorem move_of_step (sized : Sized hist) (step : r.step hist = some (hist', r')) : Move hist r hist' r' := by
  rw [Recorder.step] at step
  cases pc : r.pc with
  | countBucket =>
    have inside : hist.bucketFor r.ns < hist.buckets.length := by
      rw [sized.length]
      exact bucketOf_lt sized.positive r.ns
    simp only [pc, if_pos inside, Option.some.injEq, Prod.mk.injEq] at step
    obtain ⟨rfl, rfl⟩ := step
    exact .bucketCounted pc
  | countSample =>
    simp only [pc, Option.some.injEq, Prod.mk.injEq] at step
    obtain ⟨rfl, rfl⟩ := step
    exact .sampleCounted pc
  | addNs =>
    simp only [pc, Option.some.injEq, Prod.mk.injEq] at step
    obtain ⟨rfl, rfl⟩ := step
    exact .nsAdded pc
  | loadMin =>
    simp only [pc, Option.some.injEq, Prod.mk.injEq] at step
    obtain ⟨rfl, rfl⟩ := step
    exact .minLoaded pc
  | exchangeMin currentMin =>
    simp only [pc] at step
    split at step
    next fits => cases step; exact .minLowered currentMin pc fits
    next fails => cases step; exact .minRetried currentMin pc fails
  | loadMax =>
    simp only [pc, Option.some.injEq, Prod.mk.injEq] at step
    obtain ⟨rfl, rfl⟩ := step
    exact .maxLoaded pc
  | exchangeMax currentMax =>
    simp only [pc] at step
    split at step
    next fits => cases step; exact .maxRaised currentMax pc fits
    next fails => cases step; exact .maxRetried currentMax pc fails
  | returned => simp [pc] at step
  | panicked => simp [pc] at step

structure Effects (hist : LatencyHistogram) (r : Recorder) (hist' : LatencyHistogram) (r' : Recorder) : Prop where
  sized : Sized hist'
  effect : hist' = hist ∧ r'.pending = r.pending ∨
    ∃ effect, r.pending = effect :: r'.pending ∧ hist' = effect.take hist

theorem whileBelow_effects (sized : Sized hist) (spurious : List Bool)
    (lowers : r.pending = [.lower r.ns, .raise r.ns]) :
    Effects hist r hist { r with pc := r.whileBelow hist.minNs, spurious } := by
  by_cases below : r.ns < hist.minNs
  next =>
    rw [Recorder.whileBelow, if_pos below]
    exact ⟨sized, .inl ⟨rfl, lowers.symm⟩⟩
  next =>
    rw [Recorder.whileBelow, if_neg below]
    refine ⟨sized, .inr ⟨_, lowers, ?_⟩⟩
    simp only [Effect.take, min_eq_left (not_lt.mp below)]

theorem whileAbove_effects (sized : Sized hist) (spurious : List Bool) (raises : r.pending = [.raise r.ns]) :
    Effects hist r hist { r with pc := r.whileAbove hist.maxNs, spurious } := by
  by_cases above : hist.maxNs < r.ns
  next =>
    rw [Recorder.whileAbove, if_pos above]
    exact ⟨sized, .inl ⟨rfl, raises.symm⟩⟩
  next =>
    rw [Recorder.whileAbove, if_neg above]
    refine ⟨sized, .inr ⟨_, raises, ?_⟩⟩
    simp only [Effect.take, max_eq_left (not_lt.mp above)]

-- A loop goes on only where its exchange brings the value nearer.
structure Recorder.Sound (r : Recorder) : Prop where
  running : r.pc ≠ .panicked
  below : ∀ currentMin, r.pc = .exchangeMin currentMin → r.ns < currentMin
  above : ∀ currentMax, r.pc = .exchangeMax currentMax → currentMax < r.ns

theorem whileBelow_sound (r : Recorder) (found : Nat) (spurious : List Bool) :
    Recorder.Sound { r with pc := r.whileBelow found, spurious } := by
  rw [Recorder.whileBelow]
  split
  next below =>
    refine ⟨RecordPc.noConfusion, ?_, fun currentMax pc => RecordPc.noConfusion pc⟩
    intro currentMin pc
    cases pc
    exact below
  next => exact ⟨RecordPc.noConfusion, fun _ pc => RecordPc.noConfusion pc, fun _ pc => RecordPc.noConfusion pc⟩

theorem whileAbove_sound (r : Recorder) (found : Nat) (spurious : List Bool) :
    Recorder.Sound { r with pc := r.whileAbove found, spurious } := by
  rw [Recorder.whileAbove]
  split
  next above =>
    refine ⟨RecordPc.noConfusion, fun currentMin pc => RecordPc.noConfusion pc, ?_⟩
    intro currentMax pc
    cases pc
    exact above
  next => exact ⟨RecordPc.noConfusion, fun _ pc => RecordPc.noConfusion pc, fun _ pc => RecordPc.noConfusion pc⟩

theorem Move.sound (move : Move hist r hist' r') : r'.Sound := by
  cases move with
  | minLoaded | minRetried => exact whileBelow_sound r hist.minNs _
  | maxLoaded | maxRetried => exact whileAbove_sound r hist.maxNs _
  | bucketCounted | sampleCounted | nsAdded | minLowered | maxRaised =>
    exact ⟨RecordPc.noConfusion, fun _ pc => RecordPc.noConfusion pc, fun _ pc => RecordPc.noConfusion pc⟩

theorem Move.effects (sized : Sized hist) (sound : r.Sound) (move : Move hist r hist' r') :
    Effects hist r hist' r' := by
  cases move with
  | bucketCounted pc =>
    have length : ((Effect.countBucket r.ns).take hist).buckets.length = hist.numBuckets := by
      rw [← sized.length]
      exact List.length_modify _ _ _
    exact ⟨⟨sized.positive, length⟩, .inr ⟨_, by rw [Recorder.pending, pc]; rfl, rfl⟩⟩
  | sampleCounted pc =>
    exact ⟨⟨sized.positive, sized.length⟩, .inr ⟨_, by rw [Recorder.pending, pc]; rfl, rfl⟩⟩
  | nsAdded pc =>
    exact ⟨⟨sized.positive, sized.length⟩, .inr ⟨_, by rw [Recorder.pending, pc]; rfl, rfl⟩⟩
  | minLoaded pc => exact whileBelow_effects sized r.spurious (by rw [Recorder.pending, pc])
  | minLowered currentMin pc fits =>
    have lowers : r.pending = [.lower r.ns, .raise r.ns] := by rw [Recorder.pending, pc]
    have below : r.ns < hist.minNs := fits.1 ▸ sound.below currentMin pc
    refine ⟨⟨sized.positive, sized.length⟩, .inr ⟨_, lowers, ?_⟩⟩
    simp only [Effect.take, min_eq_right below.le]
  | minRetried currentMin pc fails => exact whileBelow_effects sized _ (by rw [Recorder.pending, pc])
  | maxLoaded pc => exact whileAbove_effects sized r.spurious (by rw [Recorder.pending, pc])
  | maxRaised currentMax pc fits =>
    have raises : r.pending = [.raise r.ns] := by rw [Recorder.pending, pc]
    have above : hist.maxNs < r.ns := fits.1 ▸ sound.above currentMax pc
    refine ⟨⟨sized.positive, sized.length⟩, .inr ⟨_, raises, ?_⟩⟩
    simp only [Effect.take, max_eq_right above.le]
  | maxRetried currentMax pc fails => exact whileAbove_effects sized _ (by rw [Recorder.pending, pc])

-- The steps that are sure to come, and one more for each exchange that is going to fail without a reason.
def Recorder.weight (r : Recorder) : Nat :=
  r.spurious.count true +
    match r.pc with
    | .countBucket => 7
    | .countSample => 6
    | .addNs => 5
    | .loadMin => 4
    | .exchangeMin _ => 3
    | .loadMax => 2
    | .exchangeMax _ => 1
    | .returned | .panicked => 0

def Recorder.lowering (r : Recorder) : Bool :=
  match r.pc with
  | .countBucket | .countSample | .addNs | .loadMin | .exchangeMin _ => true
  | _ => false

def Recorder.raising (r : Recorder) : Bool :=
  match r.pc with
  | .returned | .panicked => false
  | _ => true

-- An exchange that is going to fail, since the value is another by now.
def Recorder.staleMin (hist : LatencyHistogram) (r : Recorder) : Nat :=
  match r.pc with
  | .exchangeMin currentMin => if hist.minNs = currentMin then 0 else 1
  | _ => 0

def Recorder.staleMax (hist : LatencyHistogram) (r : Recorder) : Nat :=
  match r.pc with
  | .exchangeMax currentMax => if hist.maxNs = currentMax then 0 else 1
  | _ => 0

def Recorder.cost (hist : LatencyHistogram) (r : Recorder) : Nat := r.weight + r.staleMin hist + r.staleMax hist

structure Progress (hist : LatencyHistogram) (r : Recorder) (hist' : LatencyHistogram) (r' : Recorder) : Prop where
  nearer : r'.cost hist' < r.cost hist
  lowering : r'.lowering → r.lowering
  raising : r'.raising → r.raising
  minimum : hist'.minNs = hist.minNs ∨ r.lowering ∧ ¬r'.lowering
  maximum : hist'.maxNs = hist.maxNs ∨ r.raising ∧ ¬r'.raising

theorem cost_whileBelow_le (hist : LatencyHistogram) (r : Recorder) (spurious : List Bool) :
    Recorder.cost hist { r with pc := r.whileBelow hist.minNs, spurious } ≤ spurious.count true + 3 := by
  rw [Recorder.whileBelow]
  split <;> simp [Recorder.cost, Recorder.weight, Recorder.staleMin, Recorder.staleMax]

theorem cost_whileAbove_le (hist : LatencyHistogram) (r : Recorder) (spurious : List Bool) :
    Recorder.cost hist { r with pc := r.whileAbove hist.maxNs, spurious } ≤ spurious.count true + 1 := by
  rw [Recorder.whileAbove]
  split <;> simp [Recorder.cost, Recorder.weight, Recorder.staleMin, Recorder.staleMax]

-- An exchange fails since the value has changed, or uses up one of the failures without a reason.
theorem count_tail_lt {found current : Nat} (fails : ¬r.exchanges found current) :
    r.spurious.tail.count true < r.spurious.count true + if found = current then 0 else 1 := by
  rw [Recorder.exchanges] at fails
  cases spurious : r.spurious with
  | nil =>
    rw [spurious] at fails
    have changed : found ≠ current := fun same => fails ⟨same, rfl⟩
    simp [changed]
  | cons fault rest =>
    rw [spurious] at fails
    cases fault with
    | true =>
      simp only [List.tail_cons, List.count_cons_self]
      omega
    | false =>
      have changed : found ≠ current := fun same => fails ⟨same, rfl⟩
      simp [changed]

theorem count_tail_le (r : Recorder) : r.spurious.tail.count true ≤ r.spurious.count true :=
  (List.tail_sublist r.spurious).count_le true

theorem Move.cost_lt (move : Move hist r hist' r') : r'.cost hist' < r.cost hist := by
  cases move with
  | bucketCounted pc => simp [Recorder.cost, Recorder.weight, Recorder.staleMin, Recorder.staleMax, pc]
  | sampleCounted pc => simp [Recorder.cost, Recorder.weight, Recorder.staleMin, Recorder.staleMax, pc]
  | nsAdded pc => simp [Recorder.cost, Recorder.weight, Recorder.staleMin, Recorder.staleMax, pc]
  | minLoaded pc =>
    have cost : r.cost hist = r.spurious.count true + 4 := by
      simp [Recorder.cost, Recorder.weight, Recorder.staleMin, Recorder.staleMax, pc]
    exact cost ▸ Nat.lt_succ_of_le (cost_whileBelow_le hist r r.spurious)
  | minLowered currentMin pc fits =>
    have fewer := count_tail_le r
    simp only [Recorder.cost, Recorder.weight, Recorder.staleMin, Recorder.staleMax, pc]
    omega
  | minRetried currentMin pc fails =>
    have cost : r.cost hist = r.spurious.count true + 3 + if hist.minNs = currentMin then 0 else 1 := by
      simp [Recorder.cost, Recorder.weight, Recorder.staleMin, Recorder.staleMax, pc]
    have later := cost_whileBelow_le hist r r.spurious.tail
    have fewer := count_tail_lt fails
    omega
  | maxLoaded pc =>
    have cost : r.cost hist = r.spurious.count true + 2 := by
      simp [Recorder.cost, Recorder.weight, Recorder.staleMin, Recorder.staleMax, pc]
    exact cost ▸ Nat.lt_succ_of_le (cost_whileAbove_le hist r r.spurious)
  | maxRaised currentMax pc fits =>
    have fewer := count_tail_le r
    simp only [Recorder.cost, Recorder.weight, Recorder.staleMin, Recorder.staleMax, pc]
    omega
  | maxRetried currentMax pc fails =>
    have cost : r.cost hist = r.spurious.count true + 1 + if hist.maxNs = currentMax then 0 else 1 := by
      simp [Recorder.cost, Recorder.weight, Recorder.staleMin, Recorder.staleMax, pc]
    have later := cost_whileAbove_le hist r r.spurious.tail
    have fewer := count_tail_lt fails
    omega

theorem lowering_whileAbove (r : Recorder) (found : Nat) (spurious : List Bool) :
    Recorder.lowering { r with pc := r.whileAbove found, spurious } = false := by
  rw [Recorder.whileAbove]
  split <;> rfl

theorem Move.progress (move : Move hist r hist' r') : Progress hist r hist' r' := by
  have nearer := move.cost_lt
  cases move with
  | bucketCounted pc | sampleCounted pc | nsAdded pc =>
    exact ⟨nearer, by simp [Recorder.lowering, pc], by simp [Recorder.raising, pc], .inl rfl, .inl rfl⟩
  | minLoaded pc | minRetried currentMin pc fails =>
    exact ⟨nearer, by simp [Recorder.lowering, pc], by simp [Recorder.raising, pc], .inl rfl, .inl rfl⟩
  | minLowered currentMin pc fits =>
    exact ⟨nearer, by simp [Recorder.lowering, pc], by simp [Recorder.raising, pc],
      .inr (by simp [Recorder.lowering, pc]), .inl rfl⟩
  | maxLoaded pc | maxRetried currentMax pc fails =>
    exact ⟨nearer, by simp [lowering_whileAbove], by simp [Recorder.raising, pc], .inl rfl, .inl rfl⟩
  | maxRaised currentMax pc fits =>
    exact ⟨nearer, by simp [Recorder.lowering], by simp [Recorder.raising], .inl rfl,
      .inr (by simp [Recorder.raising, pc])⟩

-- What another thread does to one that waits for nobody.
theorem staleMin_le (hist hist' : LatencyHistogram) (r : Recorder) :
    r.staleMin hist' ≤ r.staleMin hist + if r.lowering ∧ hist'.minNs ≠ hist.minNs then 1 else 0 := by
  rw [Recorder.staleMin, Recorder.staleMin, Recorder.lowering]
  cases r.pc with
  | exchangeMin currentMin =>
    by_cases same : hist'.minNs = hist.minNs
    next => simp [same]
    next =>
      simp only [same, ne_eq, not_false_eq_true, and_self, ↓reduceIte]
      split <;> omega
  | _ => exact Nat.zero_le _

theorem staleMax_le (hist hist' : LatencyHistogram) (r : Recorder) :
    r.staleMax hist' ≤ r.staleMax hist + if r.raising ∧ hist'.maxNs ≠ hist.maxNs then 1 else 0 := by
  rw [Recorder.staleMax, Recorder.staleMax, Recorder.raising]
  cases r.pc with
  | exchangeMax currentMax =>
    by_cases same : hist'.maxNs = hist.maxNs
    next => simp [same]
    next =>
      simp only [same, ne_eq, not_false_eq_true, and_self, ↓reduceIte]
      split <;> omega
  | _ => exact Nat.zero_le _

end Steps

section Threads

variable {I : Type} [DecidableEq I]

structure Going (c : Config I LatencyHistogram Recorder) : Prop where
  sized : Sized c.shared
  sound : ∀ i, (c.thread i).Sound

theorem Going.step {c : Config I LatencyHistogram Recorder} (going : Going c) {i : I} {hist : LatencyHistogram}
    {r : Recorder} (step : recorders.step c.shared (c.thread i) = some (hist, r)) :
    Move c.shared (c.thread i) hist r ∧ Going { shared := hist, thread := Function.update c.thread i r } := by
  have move := move_of_step going.sized step
  exact ⟨move, (move.effects going.sized (going.sound i)).sized, forall_update _ move.sound going.sound⟩

variable [Fintype I]

def toLower (c : Config I LatencyHistogram Recorder) : Nat := ∑ i, (c.thread i).lowering.toNat

def toRaise (c : Config I LatencyHistogram Recorder) : Nat := ∑ i, (c.thread i).raising.toNat

/-- So many turns are enough: in each loop every other thread can spoil one exchange. -/
def turns (i : I) (c : Config I LatencyHistogram Recorder) : Nat :=
  (c.thread i).cost c.shared + (if (c.thread i).lowering then toLower c else 0) +
    if (c.thread i).raising then toRaise c else 0

theorem toLower_step (c : Config I LatencyHistogram Recorder) (hist : LatencyHistogram) (i : I) (r : Recorder) :
    toLower { shared := hist, thread := Function.update c.thread i r } + (c.thread i).lowering.toNat =
      toLower c + r.lowering.toNat :=
  sum_update_balance (fun l : Recorder => l.lowering.toNat) c.thread i r

theorem toRaise_step (c : Config I LatencyHistogram Recorder) (hist : LatencyHistogram) (i : I) (r : Recorder) :
    toRaise { shared := hist, thread := Function.update c.thread i r } + (c.thread i).raising.toNat =
      toRaise c + r.raising.toNat :=
  sum_update_balance (fun l : Recorder => l.raising.toNat) c.thread i r

theorem turns_step {c : Config I LatencyHistogram Recorder} (going : Going c) (i j : I) {hist : LatencyHistogram}
    {r : Recorder} (step : recorders.step c.shared (c.thread j) = some (hist, r)) :
    turns i { shared := hist, thread := Function.update c.thread j r } + (if j = i then 1 else 0) ≤ turns i c := by
  have progress := (going.step step).1.progress
  have lowers := toLower_step c hist j r
  have raises := toRaise_step c hist j r
  have lowered : r.lowering.toNat ≤ (c.thread j).lowering.toNat := Bool.toNat_le_toNat progress.lowering
  have raised : r.raising.toNat ≤ (c.thread j).raising.toNat := Bool.toNat_le_toNat progress.raising
  by_cases own : j = i
  next =>
    subst own
    have nearer := progress.nearer
    have less : (if r.lowering then toLower { shared := hist, thread := Function.update c.thread j r } else 0) ≤
        if (c.thread j).lowering then toLower c else 0 := by
      split
      next active =>
        rw [if_pos (progress.lowering active)]
        omega
      next => exact Nat.zero_le _
    have less' : (if r.raising then toRaise { shared := hist, thread := Function.update c.thread j r } else 0) ≤
        if (c.thread j).raising then toRaise c else 0 := by
      split
      next active =>
        rw [if_pos (progress.raising active)]
        omega
      next => exact Nat.zero_le _
    simp only [turns, Function.update_self, ↓reduceIte]
    omega
  next =>
    have stale := staleMin_le c.shared hist (c.thread i)
    have stale' := staleMax_le c.shared hist (c.thread i)
    simp only [turns, Recorder.cost, Function.update_of_ne (Ne.symm own), own, ↓reduceIte]
    have minimum : hist.minNs ≠ c.shared.minNs → r.lowering.toNat < (c.thread j).lowering.toNat := by
      intro changed
      have ends := progress.minimum.resolve_left changed
      simp [ends.1, Bool.eq_false_iff.mpr ends.2]
    have maximum : hist.maxNs ≠ c.shared.maxNs → r.raising.toNat < (c.thread j).raising.toNat := by
      intro changed
      have ends := progress.maximum.resolve_left changed
      simp [ends.1, Bool.eq_false_iff.mpr ends.2]
    split_ifs at stale stale' ⊢ <;> grind

theorem step_eq_none_iff (hist : LatencyHistogram) (r : Recorder) :
    r.step hist = none ↔ r.pc = .returned ∨ r.pc = .panicked := by
  rw [Recorder.step]
  cases r.pc with
  | countBucket | exchangeMin | exchangeMax =>
    simp only
    split <;> simp
  | _ => simp

variable {hist : LatencyHistogram} {latencies : I → UInt64} {spurious : I → List Bool} {schedule : List I}

omit [DecidableEq I] [Fintype I] in
theorem recordersStart_sound (i : I) : ((recordersStart hist latencies spurious).thread i).Sound :=
  ⟨RecordPc.noConfusion, fun _ pc => RecordPc.noConfusion pc, fun _ pc => RecordPc.noConfusion pc⟩

omit [DecidableEq I] in
theorem turns_start (i : I) :
    turns i (recordersStart hist latencies spurious) = (spurious i).count true + 7 + 2 * Fintype.card I := by
  have lowers : toLower (recordersStart hist latencies spurious) = Fintype.card I := by
    simp [toLower, recordersStart, Recorder.lowering]
  have raises : toRaise (recordersStart hist latencies spurious) = Fintype.card I := by
    simp [toRaise, recordersStart, Recorder.raising]
  rw [turns, lowers, raises]
  simp only [recordersStart, Recorder.cost, Recorder.weight, Recorder.staleMin, Recorder.staleMax, Recorder.lowering,
    Recorder.raising, ↓reduceIte]
  omega

theorem recorders_return (sized : Sized hist) (i : I)
    (enough : (spurious i).count true + 7 + 2 * Fintype.card I ≤ schedule.count i) :
    ((recorders.run (recordersStart hist latencies spurious) schedule).thread i).pc = .returned := by
  have going : Going (recordersStart hist latencies spurious) := ⟨sized, recordersStart_sound⟩
  have stays (s s' : LatencyHistogram) (r : Recorder) (ended : recorders.step s r = none) :
      recorders.step s' r = none := (step_eq_none_iff s' r).mpr ((step_eq_none_iff s r).mp ended)
  have ended := System.returned_of_turns (turns i) Going stays
    (fun c j s l going step => ⟨(going.step step).2, turns_step going i j step⟩) going schedule
    (turns_start i ▸ enough) hist
  have sound := (recorders.run_invariant (fun c i s l going step => (Going.step going step).2) _ schedule going).sound i
  exact ((step_eq_none_iff hist _).mp ended).resolve_right sound.running

omit [Fintype I] in
theorem exists_effects (sized : Sized hist) (latencies : I → UInt64) (spurious : I → List Bool)
    (schedule : List I) : ∃ effects : List I,
    (threads Effect.take).run ((recordersStart hist latencies spurious).view id Recorder.pending) effects =
      (recorders.run (recordersStart hist latencies spurious) schedule).view id Recorder.pending := by
  have going : Going (recordersStart hist latencies spurious) := ⟨sized, recordersStart_sound⟩
  apply System.exists_run_view Going _ going schedule
  intro c i hist' r going step
  obtain ⟨move, later⟩ := going.step step
  refine ⟨later, (move.effects going.sized (going.sound i)).effect.imp_right fun acts => ?_⟩
  obtain ⟨effect, next, does⟩ := acts
  rw [next, does]
  rfl

end Threads

section Sequential

variable {hist : LatencyHistogram} {recorded : List Nat}

def effectsOf (ns : Nat) : List Effect := [.countBucket ns, .countSample, .addNs ns, .lower ns, .raise ns]

theorem record_eq (sized : Sized hist) (ns : Nat) :
    hist.record ns = some (perform Effect.take hist (effectsOf ns)) := by
  have inside : hist.bucketFor ns < hist.buckets.length := by
    rw [sized.length]
    exact bucketOf_lt sized.positive ns
  rw [record, if_pos inside]
  rfl

theorem Sized.perform (sized : Sized hist) (ns : Nat) : Sized (perform Effect.take hist (effectsOf ns)) where
  positive := sized.positive
  length := (List.length_modify _ _ _).trans sized.length

theorem Sized.performAll (sized : Sized hist) (latencies : List Nat) :
    Sized (latencies.foldl (fun hist ns => Movers.perform Effect.take hist (effectsOf ns)) hist) := by
  induction latencies generalizing hist with
  | nil => exact sized
  | cons ns rest ih => exact ih (sized.perform ns)

theorem recordAll_eq (sized : Sized hist) (latencies : List Nat) :
    hist.recordAll latencies =
      some (latencies.foldl (fun hist ns => Movers.perform Effect.take hist (effectsOf ns)) hist) := by
  induction latencies generalizing hist with
  | nil => rfl
  | cons ns rest ih =>
    rw [recordAll, List.foldlM_cons, record_eq sized]
    exact ih (sized.perform ns)

structure Totals (recorded : List Nat) (hist : LatencyHistogram) : Prop where
  count : hist.totalCount = recorded.length
  sum : hist.totalNs = recorded.sum % 2 ^ 64
  least : hist.minNs = recorded.foldl min (2 ^ 64 - 1)
  largest : hist.maxNs = recorded.foldl max 0

theorem totals_new (numBuckets : Nat) : Totals [] (new numBuckets) := ⟨rfl, rfl, rfl, rfl⟩

theorem Totals.perform (totals : Totals recorded hist) (ns : Nat) :
    Totals (recorded ++ [ns]) (Movers.perform Effect.take hist (effectsOf ns)) := by
  constructor
  case count =>
    rw [List.length_append, List.length_singleton, ← totals.count]
    rfl
  case sum =>
    rw [List.sum_append, List.sum_singleton, ← Nat.mod_add_mod, ← totals.sum]
    rfl
  case least =>
    rw [List.foldl_append, ← totals.least]
    rfl
  case largest =>
    rw [List.foldl_append, ← totals.largest]
    rfl

theorem Totals.performAll (totals : Totals recorded hist) (latencies : List Nat) :
    Totals (recorded ++ latencies)
      (latencies.foldl (fun hist ns => Movers.perform Effect.take hist (effectsOf ns)) hist) := by
  induction latencies generalizing recorded hist with
  | nil => rwa [List.append_nil]
  | cons ns rest ih =>
    rw [List.append_cons]
    exact ih (totals.perform ns)

theorem Totals.summarizes (totals : Totals recorded hist) (small : ∀ ns ∈ recorded, ns < 2 ^ 64) :
    Summarizes recorded hist := by
  constructor
  case count => exact totals.count
  case mean =>
    rw [meanNs, totals.count, totals.sum]
    by_cases none : recorded = []
    next => simp [none]
    next => rw [if_neg (mt List.eq_nil_of_length_eq_zero none), if_neg none]
  case least =>
    rw [minNs?, totals.least, List.foldl_min]
    cases found : recorded.min? with
    | none => rfl
    | some least =>
      have bound := small least (List.min?_mem found)
      have le : min (2 ^ 64 - 1) least = least := by omega
      rw [Option.getD_some, le]
      by_cases unseen : least = 2 ^ 64 - 1
      next => simp [unseen]
      next => simp only [unseen, Option.filter, ne_eq, not_false_eq_true, decide_true, ↓reduceIte, Option.map_some]
  case largest =>
    rw [maxNs?, totals.largest, List.foldl_max]
    cases found : recorded.max? with
    | none => rfl
    | some largest =>
      rw [Option.getD_some, Nat.zero_max]
      by_cases unseen : largest = 0
      next => simp [unseen]
      next => simp [Option.filter, unseen]

end Sequential

section Concurrent

variable {I : Type} [DecidableEq I] [Fintype I]

/-- However the steps of the threads are interleaved and whichever exchanges fail, a call of `record` returns with
enough turns of its own. Once all have returned the histogram is the one of the latencies recorded one after the
other in any order. -/
theorem histogram_records_concurrently (numBuckets : Nat) (positive : 0 < numBuckets) (before : List UInt64)
    (latencies : I → UInt64) (spurious : I → List Bool) (schedule : List I) :
    ∃ hist, (new numBuckets).recordAll (before.map UInt64.toNat) = some hist ∧
      let final := recorders.run (recordersStart hist latencies spurious) schedule
      (∀ i, (spurious i).count true + 7 + 2 * Fintype.card I ≤ schedule.count i → (final.thread i).pc = .returned) ∧
        ∀ order : List I, order.Nodup → (∀ i, i ∈ order) → (∀ i, (final.thread i).pc = .returned) →
          let recorded := (before ++ order.map latencies).map UInt64.toNat
          (new numBuckets).recordAll recorded = some final.shared ∧ Summarizes recorded final.shared := by
  have fresh : Sized (new numBuckets) := ⟨positive, List.length_replicate⟩
  let hist := (before.map UInt64.toNat).foldl (fun hist ns => perform Effect.take hist (effectsOf ns)) (new numBuckets)
  have sized : Sized hist := fresh.performAll _
  refine ⟨hist, recordAll_eq fresh _, fun i => recorders_return sized i, fun order nodup complete returned => ?_⟩
  intro recorded
  let final := recorders.run (recordersStart hist latencies spurious) schedule
  obtain ⟨effects, same⟩ := exists_effects sized latencies spurious schedule
  have shared := congrArg Config.shared same
  have ended (i : I) : ((threads Effect.take).run ((recordersStart hist latencies spurious).view id Recorder.pending)
      effects).thread i = [] := by
    rw [same]
    change (final.thread i).pending = []
    rw [Recorder.pending, returned i]
  rw [run_any_order (fun i effect _ => effect_moves effect) ended (fun i => List.cons_ne_nil _ _) nodup complete]
    at shared
  have whole : recorded.foldl (fun hist ns => perform Effect.take hist (effectsOf ns)) (new numBuckets) =
      final.shared := by
    have parts : recorded = before.map UInt64.toNat ++ order.map (fun i => (latencies i).toNat) := by
      rw [← Function.comp_def, ← List.map_map, ← List.map_append]
    rw [parts, List.foldl_append, List.foldl_map (g := fun hist ns => perform Effect.take hist (effectsOf ns))]
    exact shared
  refine ⟨(recordAll_eq fresh recorded).trans (congrArg some whole), ?_⟩
  have totals := (totals_new numBuckets).performAll recorded
  rw [List.nil_append, whole] at totals
  apply totals.summarizes
  intro ns member
  obtain ⟨latency, _, rfl⟩ := List.mem_map.mp member
  exact latency.toNat_lt

namespace Sample

def latencies (i : Bool) : UInt64 := if i then 3000 else 2000

def spurious (i : Bool) : List Bool := if i then [] else [false, true]

-- Both find the same minimum. The slower one is first to lower it, and the exchange of the other fails twice.
def schedule : List Bool :=
  [false, true, true, true, true, false, false, false, true, false, false, false, false] ++
    List.replicate 10 false ++ List.replicate 8 true

end Sample

theorem histogram_records_concurrently_race :
    ∃ hist, (new 20).recordAll ([9000].map UInt64.toNat) = some hist ∧
      let final := recorders.run (recordersStart hist Sample.latencies Sample.spurious) Sample.schedule
      let recorded := ([9000] ++ [false, true].map Sample.latencies).map UInt64.toNat
      (∀ i, (final.thread i).pc = .returned) ∧ (new 20).recordAll recorded = some final.shared ∧
        Summarizes recorded final.shared := by
  obtain ⟨hist, first, turns, once⟩ := histogram_records_concurrently 20 (by decide) [9000] Sample.latencies
    Sample.spurious Sample.schedule
  have returned := fun i => turns i (by cases i <;> decide)
  exact ⟨hist, first, returned, once [false, true] (by decide) (by decide) returned⟩

end Concurrent

end LatencyHistogram

end BankingLedger
