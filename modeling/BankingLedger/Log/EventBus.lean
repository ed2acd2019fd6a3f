import BankingLedger.Domain.Journal
import BankingLedger.Shared.ByteText
import BankingLedger.Shared.Interleaving
import BankingLedger.Shared.OffsetReader

set_option autoImplicit false

namespace BankingLedger

open Interleaving OffsetReader

structure BusMessage where
  offset : UInt64
  key : String
  payload : String
  timestamp : Timestamp
  producerId : String
  producerSeq : UInt64
deriving DecidableEq, Repr

structure PartitionedEventBus where
  partitions : List (List BusMessage)
  nextOffset : UInt64
  nonempty : 0 < partitions.length

namespace PartitionedEventBus

def new (numPartitions : Nat) : PartitionedEventBus where
  partitions := List.replicate (max numPartitions 1) []
  nextOffset := 0
  nonempty := by rw [List.length_replicate]; omega

def partitionFor (key : String) (bus : PartitionedEventBus) : Nat :=
  let hash := (ByteText.utf8 key).foldl (fun acc b => acc * 31 + b.toUInt64) (0 : UInt64)
  hash.toNat % bus.partitions.length

-- `next_offset.fetch_add(1)`
def fetchAdd (bus : PartitionedEventBus) : UInt64 × PartitionedEventBus :=
  (bus.nextOffset, { bus with nextOffset := bus.nextOffset + 1 })

def pushBack (partition : Nat) (msg : BusMessage) (bus : PartitionedEventBus) : PartitionedEventBus where
  partitions := bus.partitions.modify partition (· ++ [msg])
  nextOffset := bus.nextOffset
  nonempty := by rw [List.length_modify]; exact bus.nonempty

def produce (now : Timestamp) (key payload producerId : String) (producerSeq : UInt64)
    (bus : PartitionedEventBus) : UInt64 × PartitionedEventBus :=
  let partition := bus.partitionFor key
  let (offset, bus) := bus.fetchAdd
  let msg := { offset, key, payload, timestamp := now, producerId, producerSeq }
  (offset, bus.pushBack partition msg)

-- `none` where the index of the partition is out of range, which panics.
def consume (partition : Nat) (fromOffset : UInt64) (bus : PartitionedEventBus) :
    Option (List BusMessage) :=
  (bus.partitions[partition]?).map fun queue => queue.filter fun m => fromOffset ≤ m.offset

def queue (partition : Nat) (bus : PartitionedEventBus) : List BusMessage :=
  (bus.partitions[partition]?).getD []

theorem partitionFor_lt (key : String) (bus : PartitionedEventBus) :
    bus.partitionFor key < bus.partitions.length :=
  Nat.mod_lt _ bus.nonempty

@[simp] theorem fetchAdd_partitionFor (key : String) (bus : PartitionedEventBus) :
    bus.fetchAdd.2.partitionFor key = bus.partitionFor key := rfl

@[simp] theorem fetchAdd_queue (partition : Nat) (bus : PartitionedEventBus) :
    bus.fetchAdd.2.queue partition = bus.queue partition := rfl

@[simp] theorem pushBack_partitionFor (partition : Nat) (msg : BusMessage) (key : String)
    (bus : PartitionedEventBus) : (bus.pushBack partition msg).partitionFor key = bus.partitionFor key := by
  simp [partitionFor, pushBack]

-- A push reaches the queue of its own partition and no other.
theorem pushBack_queue {target : Nat} {msg : BusMessage} {bus : PartitionedEventBus}
    (inside : target < bus.partitions.length) (partition : Nat) :
    (bus.pushBack target msg).queue partition =
      bus.queue partition ++ if target = partition then [msg] else [] := by
  by_cases same : target = partition
  · subst same
    simp [queue, pushBack, inside]
  · simp [queue, pushBack, same]

def messages (bus : PartitionedEventBus) : Multiset BusMessage := bus.partitions.flatten

theorem flatten_modify_perm (partitions : List (List BusMessage)) {partition : Nat}
    (inside : partition < partitions.length) (msg : BusMessage) :
    (partitions.modify partition (· ++ [msg])).flatten.Perm (msg :: partitions.flatten) := by
  induction partitions generalizing partition with
  | nil => exact absurd inside (Nat.not_lt_zero _)
  | cons first rest ih =>
    cases partition with
    | zero =>
      rw [List.modify_zero_cons, List.flatten_cons, List.flatten_cons, List.append_assoc]
      exact List.perm_middle
    | succ n =>
      rw [List.modify_succ_cons, List.flatten_cons, List.flatten_cons]
      have later := ih (Nat.lt_of_succ_lt_succ inside)
      exact (later.append_left first).trans List.perm_middle

theorem produce_messages (now : Timestamp) (key payload producerId : String) (producerSeq : UInt64)
    (bus : PartitionedEventBus) :
    (bus.produce now key payload producerId producerSeq).2.messages =
      { offset := bus.nextOffset, key, payload, timestamp := now, producerId, producerSeq } ::ₘ
        bus.messages :=
  Multiset.coe_eq_coe.mpr (flatten_modify_perm bus.partitions (bus.partitionFor_lt key) _)

theorem new_messages (numPartitions : Nat) : (new numPartitions).messages = 0 := by
  simp [messages, new]

end PartitionedEventBus

section Producers

structure ProduceCall where
  key : String
  payload : String
  producerId : String
  producerSeq : UInt64
  timestamp : Timestamp
deriving DecidableEq, Repr

/-- The calls a producer has still to make, and the message of the one that is in progress. -/
structure Producer where
  pending : List ProduceCall
  held : Option BusMessage
deriving DecidableEq, Repr

/-- The bus, with the messages whose `produce` calls have returned. -/
structure SharedBus where
  bus : PartitionedEventBus
  finished : List BusMessage

def ProduceCall.message (call : ProduceCall) (offset : UInt64) : BusMessage :=
  { offset
    key := call.key
    payload := call.payload
    timestamp := call.timestamp
    producerId := call.producerId
    producerSeq := call.producerSeq }

def SharedBus.push (msg : BusMessage) (s : SharedBus) : SharedBus :=
  { bus := s.bus.pushBack (s.bus.partitionFor msg.key) msg
    finished := s.finished ++ [msg] }

def produceStep (s : SharedBus) (l : Producer) : Option (SharedBus × Producer) :=
  match l.held, l.pending with
  | some msg, pending => some (s.push msg, { pending, held := none })
  | none, call :: rest =>
    let (offset, bus) := s.bus.fetchAdd
    some ({ s with bus }, { pending := rest, held := some (call.message offset) })
  | none, [] => none

def producers : System SharedBus Producer := ⟨produceStep⟩

-- The two steps of a call that nothing comes between are the call of the source.
theorem produce_solo (s : SharedBus) (call : ProduceCall) (rest : List ProduceCall) :
    producers.solo 2 (s, { pending := call :: rest, held := none }) =
      let (offset, bus) := s.bus.produce call.timestamp call.key call.payload call.producerId
        call.producerSeq
      ({ bus, finished := s.finished ++ [call.message offset] }, { pending := rest, held := none }) :=
  rfl

end Producers

section Consumer

variable {I : Type}

structure BusState (I : Type) where
  config : Config I SharedBus Producer
  consumer : Reader BusMessage

def BusState.bus (s : BusState I) : PartitionedEventBus := s.config.shared.bus

def BusState.finished (s : BusState I) : List BusMessage := s.config.shared.finished

def BusMessage.position (m : BusMessage) : Nat := m.offset.toNat

-- No `u64` can ask for what is above every offset.
def pollBus (partition : Nat) (bus : PartitionedEventBus) (consumer : Reader BusMessage) :
    Reader BusMessage :=
  if consumer.next < 2 ^ 64 then
    match bus.consume partition (UInt64.ofNat consumer.next) with
    | some batch => consumer.receive BusMessage.position batch
    | none => consumer
  else consumer

def busStep [DecidableEq I] (partition : Nat) (s : BusState I) : Option I → BusState I
  | some i => { s with config := producers.fire s.config i }
  | none => { s with consumer := pollBus partition s.bus s.consumer }

def busStart (numPartitions : Nat) (calls : I → List ProduceCall) : BusState I where
  config :=
    { shared := { bus := .new numPartitions, finished := [] }
      thread := fun i => { pending := calls i, held := none } }
  consumer := { next := 0, received := [] }

/-- Every message that was routed to the partition before the last poll has been received once, in
the order of the offsets. -/
def AllReceived (partition : Nat) (beforePoll final : BusState I) : Prop :=
  final.consumer.received.Perm
      (beforePoll.finished.filter fun m => beforePoll.bus.partitionFor m.key = partition) ∧
    Ordered BusMessage.position final.consumer.received

instance (partition : Nat) (beforePoll final : BusState I) :
    Decidable (AllReceived partition beforePoll final) := inferInstanceAs (Decidable (_ ∧ _))

/-- The step does not push a message behind one whose offset is not smaller. -/
def PushesInOrder (partition : Nat) (s : BusState I) : Option I → Prop
  | some i => ∀ msg ∈ (s.config.thread i).held, s.bus.partitionFor msg.key = partition →
      ∀ m ∈ s.bus.queue partition, m.position < msg.position
  | none => True

end Consumer

section Spec

variable {I : Type} [DecidableEq I] {partition : Nat} {s : BusState I} {turn : Option I}

theorem pollBus_eq (partition : Nat) (bus : PartitionedEventBus) (consumer : Reader BusMessage) :
    pollBus partition bus consumer = consumer.poll BusMessage.position (bus.queue partition) := by
  by_cases fits : consumer.next < 2 ^ 64
  · have asked : ∀ m : BusMessage,
        UInt64.ofNat consumer.next ≤ m.offset ↔ consumer.next ≤ m.position := by
      intro m
      rw [UInt64.le_iff_toNat_le, UInt64.toNat_ofNat_of_lt' fits, BusMessage.position]
    rw [pollBus, if_pos fits, PartitionedEventBus.consume, PartitionedEventBus.queue]
    simp only [asked]
    cases bus.partitions[partition]? with
    | none => simp [Reader.poll, Reader.receive]
    | some queue => rfl
  · have nothing : ∀ m : BusMessage, ¬ consumer.next ≤ m.position := by
      intro m
      have := m.offset.toNat_lt
      rw [BusMessage.position]
      omega
    simp only [pollBus, if_neg fits, Reader.poll, nothing, decide_false, List.filter_false]
    simp [Reader.receive]

def pushed (s : BusState I) : Option I → List BusMessage
  | some i => (s.config.thread i).held.toList
  | none => []

theorem fire_shared (c : Config I SharedBus Producer) (i : I) :
    (producers.fire c i).shared =
      match (c.thread i).held, (c.thread i).pending with
      | some msg, _ => c.shared.push msg
      | none, _ :: _ => { c.shared with bus := c.shared.bus.fetchAdd.2 }
      | none, [] => c.shared := by
  cases held : (c.thread i).held with
  | some msg => simp [System.fire, producers, produceStep, held]
  | none => cases pending : (c.thread i).pending <;> simp [System.fire, producers, produceStep, held, pending]

theorem busStep_partitionFor (key : String) :
    (busStep partition s turn).bus.partitionFor key = s.bus.partitionFor key := by
  cases turn with
  | none => rfl
  | some i =>
    simp only [busStep, BusState.bus, fire_shared]
    split
    · exact PartitionedEventBus.pushBack_partitionFor _ _ _ _
    · exact PartitionedEventBus.fetchAdd_partitionFor _ _
    · rfl

theorem busStep_finished : (busStep partition s turn).finished = s.finished ++ pushed s turn := by
  cases turn with
  | none => simp [busStep, pushed, BusState.finished]
  | some i =>
    simp only [busStep, BusState.finished, fire_shared, pushed]
    split <;> simp [*, SharedBus.push]

theorem busStep_queue (target : Nat) : (busStep partition s turn).bus.queue target =
    s.bus.queue target ++ (pushed s turn).filter fun m => s.bus.partitionFor m.key = target := by
  cases turn with
  | none => simp [busStep, pushed, BusState.bus]
  | some i =>
    simp only [busStep, BusState.bus, fire_shared, pushed]
    split
    · next _ _ msg held =>
      rw [held, SharedBus.push, PartitionedEventBus.pushBack_queue (PartitionedEventBus.partitionFor_lt _ _)]
      by_cases routed : s.config.shared.bus.partitionFor msg.key = target <;> simp [routed]
    · simp [*]
    · simp [*]

theorem busStep_consumer : (busStep partition s turn).consumer =
    if turn = none then s.consumer.poll BusMessage.position (s.bus.queue partition) else s.consumer := by
  cases turn with
  | none => simp [busStep, pollBus_eq]
  | some i => simp [busStep]

end Spec

section Runs

variable {I : Type} [DecidableEq I] {partition : Nat} {s : BusState I} {turn : Option I}

structure BusInvariant (partition : Nat) (s : BusState I) : Prop where
  queue : s.bus.queue partition = s.finished.filter fun m => s.bus.partitionFor m.key = partition
  tracks : Tracks BusMessage.position (s.bus.queue partition) s.consumer

omit [DecidableEq I] in
theorem busStart_invariant (numPartitions partition : Nat) (calls : I → List ProduceCall) :
    BusInvariant partition (busStart numPartitions calls) := by
  have empty : (busStart numPartitions calls).bus.queue partition = [] := by
    simp only [busStart, BusState.bus, PartitionedEventBus.queue, PartitionedEventBus.new,
      List.getElem?_replicate]
    split <;> rfl
  exact ⟨by rw [empty]; rfl, by rw [empty]; exact tracks_new⟩

theorem BusInvariant.step (inv : BusInvariant partition s) (turn : Option I) :
    BusInvariant partition (busStep partition s turn) where
  queue := by
    simp only [busStep_queue, busStep_finished, busStep_partitionFor, List.filter_append, inv.queue]
  tracks := by
    rw [busStep_queue, busStep_consumer]
    cases turn with
    | none => simpa [pushed] using inv.tracks.poll
    | some i =>
      simp only [pushed, reduceCtorEq, if_false]
      cases (s.config.thread i).held with
      | none => simpa using inv.tracks
      | some msg =>
        by_cases routed : s.bus.partitionFor msg.key = partition
        · simpa [routed] using inv.tracks.append msg
        · simpa [routed] using inv.tracks

theorem ordered_step : Ordered BusMessage.position ((busStep partition s turn).bus.queue partition) ↔
    Ordered BusMessage.position (s.bus.queue partition) ∧ PushesInOrder partition s turn := by
  rw [busStep_queue, Ordered, List.pairwise_append]
  refine and_congr_right fun _ => ?_
  cases turn with
  | none => simp [pushed, PushesInOrder]
  | some i =>
    cases held : (s.config.thread i).held with
    | none => simp [pushed, PushesInOrder, held]
    | some msg =>
      by_cases routed : s.bus.partitionFor msg.key = partition
      · simp [pushed, PushesInOrder, held, routed]
      · simp [pushed, PushesInOrder, held, routed]

-- After the last poll only producers take turns, and the consumer keeps what it has.
theorem run_producers_consumer (s : BusState I) (turns : List I) :
    (Runs.run (busStep partition) s (turns.map some)).consumer = s.consumer := by
  induction turns generalizing s with
  | nil => rfl
  | cons i rest ih => rw [List.map_cons, Runs.run_cons, ih, busStep_consumer, if_neg (by simp)]

/-- The consumer has received every message of the calls that finished before its last poll,
whatever the producers do later, exactly when these calls pushed to its partition in the order of
their offsets. -/
theorem all_received_iff (numPartitions partition : Nat) (calls : I → List ProduceCall)
    (earlier : List (Option I)) (later : List I) :
    let start := busStart numPartitions calls
    let beforePoll := Runs.run (busStep partition) start earlier
    AllReceived partition beforePoll
        (Runs.run (busStep partition) start (earlier ++ none :: later.map some)) ↔
      Runs.Meets (busStep partition) (PushesInOrder partition) start earlier := by
  intro start beforePoll
  have inv : BusInvariant partition beforePoll :=
    Runs.run_invariant (fun s turn holds => holds.step turn) start earlier
      (busStart_invariant numPartitions partition calls)
  have received : (Runs.run (busStep partition) start (earlier ++ none :: later.map some)).consumer =
      beforePoll.consumer.poll BusMessage.position (beforePoll.bus.queue partition) := by
    rw [Runs.run_append, Runs.run_cons, run_producers_consumer, busStep_consumer, if_pos rfl]
  have ordered : Ordered BusMessage.position (beforePoll.bus.queue partition) ↔
      Runs.Meets (busStep partition) (PushesInOrder partition) start earlier := by
    have empty : Ordered BusMessage.position (start.bus.queue partition) := by
      rw [(busStart_invariant numPartitions partition calls).queue]
      exact List.Pairwise.nil
    exact (Runs.run_iff_meets (P := fun s : BusState I => Ordered BusMessage.position (s.bus.queue partition))
      fun _ _ => ordered_step).trans (and_iff_right empty)
  rw [AllReceived, received, ← inv.queue, inv.tracks.complete_iff, ordered]

namespace Sample

def twoProducers : Bool → List ProduceCall
  | false => [⟨"account:A", "debit:100", "p1", 1, ⟨10⟩⟩]
  | true => [⟨"account:A", "credit:100", "p2", 1, ⟨20⟩⟩]

end Sample

open Sample

/-- The first producer draws offset 0 and is overtaken by the second, whose message the consumer
gets first. -/
theorem overtaken_message_skipped :
    let start := busStart 1 twoProducers
    let beforePoll := Runs.run (busStep 0) start [some false, some true, some true, none, some false]
    let final := Runs.run (busStep 0) beforePoll [none]
    beforePoll.finished.map BusMessage.offset = [1, 0] ∧
      final.consumer.received.map BusMessage.offset = [1] ∧ ¬ AllReceived 0 beforePoll final := by
  decide +kernel

end Runs

end BankingLedger
