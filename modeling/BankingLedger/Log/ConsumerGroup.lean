import BankingLedger.Domain.Journal
import BankingLedger.Shared.FiniteMap
import BankingLedger.Shared.FirstMatch
import BankingLedger.Shared.Runs
import Mathlib.Data.List.Pairwise

set_option autoImplicit false

namespace BankingLedger

open FiniteMap FirstMatch MachineInt Runs

structure ConsumerState where
  consumerId : String
  assignedPartitions : List Nat
  lastHeartbeat : Timestamp
deriving DecidableEq, Repr

structure ConsumerGroup where
  groupId : String
  offsets : Map Nat UInt64
  consumers : List ConsumerState

/-- `(now - earlier).num_seconds()`, which is rounded towards zero. -/
def numSeconds (now earlier : Timestamp) : Int := (now.nanos - earlier.nanos).tdiv 1000000000

def ConsumerState.alive (now : Timestamp) (timeoutSecs : Int64) (c : ConsumerState) : Bool :=
  numSeconds now c.lastHeartbeat < timeoutSecs.toInt

namespace ConsumerGroup

def new (groupId : String) : ConsumerGroup := { groupId, offsets := ∅, consumers := [] }

def registerConsumer (now : Timestamp) (consumerId : String) (partitions : List Nat)
    (group : ConsumerGroup) : ConsumerGroup :=
  { group with
    consumers := group.consumers ++
      [{ consumerId, assignedPartitions := partitions, lastHeartbeat := now }] }

def commitOffset (partition : Nat) (offset : UInt64) (group : ConsumerGroup) : ConsumerGroup :=
  { group with offsets := group.offsets.insert partition offset }

def committedOffset (partition : Nat) (group : ConsumerGroup) : UInt64 :=
  (group.offsets.lookup partition).getD 0

-- `retain` visits the consumers in order and keeps those that are alive.
def rebalance (now : Timestamp) (timeoutSecs : Int64) (group : ConsumerGroup) :
    List String × ConsumerGroup :=
  let dead := group.consumers.filter fun c => !c.alive now timeoutSecs
  (dead.map ConsumerState.consumerId,
    { group with consumers := group.consumers.filter fun c => c.alive now timeoutSecs })

def heartbeat (now : Timestamp) (consumerId : String) (group : ConsumerGroup) : ConsumerGroup :=
  { group with
    consumers := updateFirst (fun c => c.consumerId = consumerId)
      (fun c => { c with lastHeartbeat := now }) group.consumers }

def owners (group : ConsumerGroup) (partition : Nat) : List ConsumerState :=
  group.consumers.filter fun c => partition ∈ c.assignedPartitions

def Assigned (group : ConsumerGroup) (partition : Nat) : Prop := group.owners partition ≠ []

/-- No partition is on the lists of two consumers. -/
def Separated (group : ConsumerGroup) : Prop :=
  group.consumers.Pairwise fun c d => ∀ partition ∈ c.assignedPartitions, partition ∉ d.assignedPartitions

/-- If a consumer is left, whatever was assigned before the call has exactly one owner after it. -/
def Reassigns (now : Timestamp) (timeoutSecs : Int64) (group : ConsumerGroup) : Prop :=
  (group.rebalance now timeoutSecs).2.consumers ≠ [] → ∀ partition, group.Assigned partition →
    ((group.rebalance now timeoutSecs).2.owners partition).length = 1

/-- No consumer was heard of in time, or every consumer with a partition was. -/
def NothingToReassign (now : Timestamp) (timeoutSecs : Int64) (group : ConsumerGroup) : Prop :=
  (∀ c ∈ group.consumers, timeoutSecs.toInt ≤ numSeconds now c.lastHeartbeat) ∨
    ∀ c ∈ group.consumers, c.assignedPartitions ≠ [] →
      numSeconds now c.lastHeartbeat < timeoutSecs.toInt

variable {now : Timestamp} {timeoutSecs : Int64} {group : ConsumerGroup} {partition : Nat}
  {c : ConsumerState}

@[simp] theorem alive_iff :
    c.alive now timeoutSecs = true ↔ numSeconds now c.lastHeartbeat < timeoutSecs.toInt := by
  simp [ConsumerState.alive]

@[simp] theorem mem_owners :
    c ∈ group.owners partition ↔ c ∈ group.consumers ∧ partition ∈ c.assignedPartitions := by
  simp [owners]

@[simp] theorem mem_rebalance : c ∈ (group.rebalance now timeoutSecs).2.consumers ↔
    c ∈ group.consumers ∧ c.alive now timeoutSecs = true := by
  simp [rebalance]

@[simp] theorem mem_owners_rebalance : c ∈ (group.rebalance now timeoutSecs).2.owners partition ↔
    c ∈ group.owners partition ∧ c.alive now timeoutSecs = true := by
  rw [mem_owners, mem_rebalance, mem_owners, and_right_comm]

theorem Separated.rebalance (separated : group.Separated) :
    (group.rebalance now timeoutSecs).2.Separated :=
  List.Pairwise.filter _ separated

theorem Separated.owners_length (separated : group.Separated) (partition : Nat) :
    (group.owners partition).length ≤ 1 := by
  have apart : (group.owners partition).Pairwise fun c d =>
      ∀ partition ∈ c.assignedPartitions, partition ∉ d.assignedPartitions :=
    List.Pairwise.filter _ separated
  cases owned : group.owners partition with
  | nil => simp
  | cons first rest =>
    cases rest with
    | nil => simp
    | cons second rest =>
      have one : first ∈ group.owners partition := by simp [owned]
      have other : second ∈ group.owners partition := by simp [owned]
      rw [mem_owners] at one other
      rw [owned, List.pairwise_cons] at apart
      exact absurd other.2 (apart.1 second List.mem_cons_self partition one.2)

theorem Separated.eq_of_shared (separated : group.Separated) {d : ConsumerState}
    (one : c ∈ group.owners partition) (other : d ∈ group.owners partition) : c = d := by
  have few := separated.owners_length partition
  cases owned : group.owners partition with
  | nil => simp [owned] at one
  | cons first rest =>
    rw [owned, List.length_cons] at few
    have last : rest = [] := List.length_eq_zero_iff.mp (by omega)
    rw [owned, last, List.mem_singleton] at one other
    exact one.trans other.symm

/-- Nothing is left without an owner exactly if there is nothing to reassign. -/
theorem rebalance_keeps_owners_iff (separated : group.Separated) :
    group.Reassigns now timeoutSecs ↔ group.NothingToReassign now timeoutSecs := by
  constructor
  case mp =>
    intro reassigns
    by_cases left : (group.rebalance now timeoutSecs).2.consumers = []
    next =>
      refine .inl fun c member => ?_
      by_contra heard
      have kept : c ∈ (group.rebalance now timeoutSecs).2.consumers := by
        simpa [member] using heard
      simp [left] at kept
    next =>
      refine .inr fun c member working => ?_
      obtain ⟨partition, listed⟩ := List.exists_mem_of_ne_nil _ working
      have owner : c ∈ group.owners partition := mem_owners.mpr ⟨member, listed⟩
      have one := reassigns left partition (List.ne_nil_of_mem owner)
      obtain ⟨d, only⟩ := List.length_eq_one_iff.mp one
      have owner' : d ∈ (group.rebalance now timeoutSecs).2.owners partition := by simp [only]
      rw [mem_owners_rebalance] at owner'
      have same := separated.eq_of_shared owner owner'.1
      rw [same]
      exact alive_iff.mp owner'.2
  case mpr =>
    intro nothing left partition assigned
    cases nothing with
    | inl silent =>
      obtain ⟨c, kept⟩ := List.exists_mem_of_ne_nil _ left
      rw [mem_rebalance, alive_iff] at kept
      have late := silent c kept.1
      omega
    | inr heard =>
      obtain ⟨c, owner⟩ := List.exists_mem_of_ne_nil _ assigned
      have listed := mem_owners.mp owner
      have alive := heard c listed.1 (List.ne_nil_of_mem listed.2)
      have owner' : c ∈ (group.rebalance now timeoutSecs).2.owners partition :=
        mem_owners_rebalance.mpr ⟨owner, alive_iff.mpr alive⟩
      have kept : (group.rebalance now timeoutSecs).2.Separated := separated.rebalance
      have atMost := kept.owners_length partition
      have atLeast := List.length_pos_of_mem owner'
      omega

private def polled : ConsumerGroup :=
  registerConsumer ⟨0⟩ "c2" [2, 3] (registerConsumer ⟨5000000000⟩ "c1" [0, 1] (new "ledger-consumers"))

theorem separated_polled : polled.Separated := by
  simp [polled, Separated, registerConsumer, new]

theorem rebalance_keeps_owners_iff_polled : polled.Reassigns ⟨10000000000⟩ 30 := by
  refine (rebalance_keeps_owners_iff separated_polled).mpr (.inr ?_)
  decide

-- A minute later the second one has been silent for too long.
theorem partitions_of_dead_unowned :
    polled.Separated ∧ ¬polled.Reassigns ⟨32000000000⟩ 30 := by
  refine ⟨separated_polled, fun reassigns => ?_⟩
  have left : (polled.rebalance ⟨32000000000⟩ 30).2.consumers ≠ [] := by decide
  have assigned : polled.Assigned 2 := by unfold Assigned; decide
  have unowned : (polled.rebalance ⟨32000000000⟩ 30).2.owners 2 = [] := by decide
  have one := reassigns left 2 assigned
  simp [unowned] at one

inductive Call where
  | registerConsumer (now : Timestamp) (consumerId : String) (partitions : List Nat)
  | commitOffset (partition : Nat) (offset : UInt64)
  | rebalance (now : Timestamp) (timeoutSecs : Int64)
  | heartbeat (now : Timestamp) (consumerId : String)

def handle (group : ConsumerGroup) : Call → ConsumerGroup
  | .registerConsumer now consumerId partitions => group.registerConsumer now consumerId partitions
  | .commitOffset partition offset => group.commitOffset partition offset
  | .rebalance now timeoutSecs => (group.rebalance now timeoutSecs).2
  | .heartbeat now consumerId => group.heartbeat now consumerId

def Unowned (group : ConsumerGroup) : Call → Prop
  | .registerConsumer _ _ partitions => ∀ partition ∈ partitions, ¬group.Assigned partition
  | _ => True

theorem separated_iff_map : group.Separated ↔
    (group.consumers.map ConsumerState.assignedPartitions).Pairwise
      fun listed others => ∀ partition ∈ listed, partition ∉ others := by
  rw [Separated, List.pairwise_map]

theorem Separated.handle {call : Call} (separated : group.Separated) (unowned : group.Unowned call) :
    (group.handle call).Separated := by
  cases call with
  | registerConsumer now consumerId partitions =>
    simp only [ConsumerGroup.handle, registerConsumer, Separated, List.pairwise_append,
      List.pairwise_singleton, List.mem_singleton, forall_eq, true_and]
    refine ⟨separated, fun c member partition listed new => ?_⟩
    have owner : c ∈ group.owners partition := mem_owners.mpr ⟨member, listed⟩
    exact unowned partition new (List.ne_nil_of_mem owner)
  | commitOffset partition offset => exact separated
  | rebalance now timeoutSecs => exact separated.rebalance
  | heartbeat now consumerId =>
    have same : (group.heartbeat now consumerId).consumers.map ConsumerState.assignedPartitions =
        group.consumers.map ConsumerState.assignedPartitions := by
      apply map_updateFirst
      simp
    rw [separated_iff_map] at separated ⊢
    simpa only [ConsumerGroup.handle, same] using separated

theorem separated_run {groupId : String} {calls : List Call}
    (unowned : Meets handle Unowned (new groupId) calls) :
    (run handle (new groupId) calls).Separated :=
  run_keeps (fun _ _ separated unowned => separated.handle unowned) _ _ unowned (by simp [Separated, new])

end ConsumerGroup

end BankingLedger
