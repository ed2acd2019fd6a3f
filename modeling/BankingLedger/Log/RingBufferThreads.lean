import BankingLedger.Log.RingBuffer
import BankingLedger.Shared.Runs

set_option autoImplicit false

namespace BankingLedger

open Runs

-- Every load, store, slot write and slot read is a step of its own.
inductive ProducerAt (T : Type) where
  | idle
  | loaded (seq : UInt64) (data : T)
  | claiming (seq : UInt64) (data : T)
  | writing (seq : UInt64) (data : T)

inductive ConsumerAt where
  | idle
  | loaded (seq : UInt64)
  | reading (seq : UInt64)
  | storing (seq : UInt64)

inductive Turn where
  | producer
  | consumer
deriving DecidableEq, Repr

-- `unsent` are the arguments of the calls of `try_push` to come, `pushed` those of the calls that
-- got room; `popped` is what the slot reads have found, which is what the calls of `try_pop` return.
structure RingThreads (T : Type) where
  buffer : RingBuffer T
  unsent : List T
  producer : ProducerAt T
  consumer : ConsumerAt
  pushed : List T
  popped : List (Except SlotFault T)

namespace RingThreads

section Model

variable {T : Type}

def start (minCapacity : UInt64) (fits : minCapacity.toNat ≤ 2 ^ 63) (unsent : List T) : RingThreads T where
  buffer := .new minCapacity fits
  unsent
  producer := .idle
  consumer := .idle
  pushed := []
  popped := []

def tryPushStep (s : RingThreads T) : RingThreads T :=
  match s.producer with
  | .idle =>
    match s.unsent with
    | [] => s
    | data :: unsent => { s with unsent, producer := .loaded s.buffer.producerSequence data }
  | .loaded seq data =>
    if seq + 1 - s.buffer.consumerSequence > s.buffer.capacity then { s with producer := .idle }
    else { s with producer := .claiming seq data }
  | .claiming seq data =>
    { s with
      buffer := s.buffer.storeProducer (seq + 1), producer := .writing seq data, pushed := s.pushed ++ [data] }
  | .writing seq data => { s with buffer := s.buffer.publish seq data, producer := .idle }

def tryPopStep (s : RingThreads T) : RingThreads T :=
  match s.consumer with
  | .idle => { s with consumer := .loaded s.buffer.consumerSequence }
  | .loaded seq =>
    if seq ≥ s.buffer.producerSequence then { s with consumer := .idle }
    else { s with consumer := .reading seq }
  | .reading seq =>
    let (data, buffer) := s.buffer.assumeInitRead seq
    { s with buffer, consumer := .storing seq, popped := s.popped ++ [data] }
  | .storing seq => { s with buffer := s.buffer.storeConsumer (seq + 1), consumer := .idle }

def step (s : RingThreads T) : Turn → RingThreads T
  | .producer => s.tryPushStep
  | .consumer => s.tryPopStep

/-- The calls of `try_pop` have found the values of the calls of `try_push`, in their order. -/
def InOrder (s : RingThreads T) : Prop := s.popped = (s.pushed.take s.popped.length).map .ok

-- The slot that the next step reads, and the one that the producer has still to write.
def reads (s : RingThreads T) : Turn → Option UInt64
  | .producer => none
  | .consumer =>
    match s.consumer with
    | .reading seq => some seq
    | _ => none

def announced (s : RingThreads T) : Option UInt64 :=
  match s.producer with
  | .writing seq _ => some seq
  | _ => none

def ReadsPublished (s : RingThreads T) (t : Turn) : Prop := ∀ seq ∈ s.reads t, seq ∉ s.announced

instance (s : RingThreads T) (t : Turn) : Decidable (s.ReadsPublished t) :=
  Option.decidableForallMem (s.reads t)

@[simp] theorem mem_reads {s : RingThreads T} {seq : UInt64} :
    seq ∈ s.reads .consumer ↔ s.consumer = .reading seq := by
  cases at_ : s.consumer <;> simp [reads, at_]

@[simp] theorem mem_announced {s : RingThreads T} {seq : UInt64} :
    seq ∈ s.announced ↔ ∃ data, s.producer = .writing seq data := by
  cases at_ : s.producer <;> simp [announced, at_]

end Model

section Alone

variable {T : Type} {s : RingThreads T}

theorem tryPush_alone {data : T} {unsent : List T} (idle : s.producer = .idle) (next : s.unsent = data :: unsent) :
    ∃ n, run step s (List.replicate n .producer) = { s with
      buffer := (s.buffer.tryPush data).2, unsent
      pushed := s.pushed ++ if (s.buffer.tryPush data).1.isOk then [data] else [] } := by
  obtain ⟨buffer, queue, producer, consumer, pushed, popped⟩ := s
  obtain rfl : producer = .idle := idle
  obtain rfl : queue = data :: unsent := next
  by_cases full : buffer.producerSequence + 1 - buffer.consumerSequence > buffer.capacity
  · refine ⟨2, ?_⟩
    simp [List.replicate, step, tryPushStep, RingBuffer.tryPush, RingBuffer.claim, full, Except.isOk, Except.toBool]
  · refine ⟨4, ?_⟩
    simp [List.replicate, step, tryPushStep, RingBuffer.tryPush, RingBuffer.claim, full, Except.isOk, Except.toBool]

theorem tryPop_alone (idle : s.consumer = .idle) :
    ∃ n, run step s (List.replicate n .consumer) = { s with
      buffer := s.buffer.tryPop.2
      popped := s.popped ++ match s.buffer.tryPop.1 with
        | .ok none => []
        | .ok (some data) => [.ok data]
        | .error fault => [.error fault] } := by
  obtain ⟨buffer, unsent, producer, consumer, pushed, popped⟩ := s
  obtain rfl : consumer = .idle := idle
  by_cases none : buffer.consumerSequence ≥ buffer.producerSequence
  · refine ⟨2, ?_⟩
    simp [List.replicate, step, tryPopStep, RingBuffer.tryPop, none]
  · refine ⟨4, ?_⟩
    rcases read : buffer.assumeInitRead buffer.consumerSequence with ⟨_ | data, buffer'⟩
    · simp [List.replicate, step, tryPopStep, RingBuffer.tryPop, none, read, Except.map]
    · simp [List.replicate, step, tryPopStep, RingBuffer.tryPop, none, read, Except.map]

end Alone

end RingThreads

-- What a thread has loaded is still so when it acts on it: only the producer moves the end of the
-- queue, and the consumer only makes room.
def ProducerAt.Fits {T : Type} (pushed : List T) (written limit : Nat) : ProducerAt T → Prop
  | .idle => written = pushed.length
  | .loaded seq _ => written = pushed.length ∧ seq = .ofNat written
  | .claiming seq _ => written = pushed.length ∧ seq = .ofNat written ∧ written < limit
  | .writing seq data => pushed.length = written + 1 ∧ seq = .ofNat written ∧ pushed[written]? = some data

def ConsumerAt.Fits (consumed taken claimed : Nat) : ConsumerAt → Prop
  | .idle => taken = consumed
  | .loaded seq => taken = consumed ∧ seq = .ofNat consumed
  | .reading seq => taken = consumed ∧ seq = .ofNat consumed ∧ consumed < claimed ∧ consumed + 1 < 2 ^ 64
  | .storing seq => taken = consumed + 1 ∧ seq = .ofNat consumed ∧ taken < 2 ^ 64

theorem ProducerAt.Fits.mono {T : Type} {producer : ProducerAt T} {pushed : List T} {written limit limit' : Nat}
    (fits : producer.Fits pushed written limit) (more : limit ≤ limit') :
    producer.Fits pushed written limit' := by
  cases producer with
  | claiming seq data => exact ⟨fits.1, fits.2.1, Nat.lt_of_lt_of_le fits.2.2 more⟩
  | _ => exact fits

theorem ConsumerAt.Fits.mono {consumer : ConsumerAt} {consumed taken claimed claimed' : Nat}
    (fits : consumer.Fits consumed taken claimed) (more : claimed ≤ claimed') :
    consumer.Fits consumed taken claimed' := by
  cases consumer with
  | reading seq => exact ⟨fits.1, fits.2.1, Nat.lt_of_lt_of_le fits.2.2.1 more, fits.2.2.2⟩
  | _ => exact fits

namespace RingThreads

section Invariant

variable {T : Type} {s : RingThreads T} {consumed written : Nat}

structure Consistent (s : RingThreads T) (consumed written : Nat) : Prop where
  holds : s.buffer.Holds s.pushed consumed s.popped.length written
  unread : s.popped.length ≤ written
  producing : s.producer.Fits s.pushed written (consumed + s.buffer.capacity.toNat)
  consuming : s.consumer.Fits consumed s.popped.length s.pushed.length

theorem Consistent.tryPushStep (inv : s.Consistent consumed written) :
    ∃ written', s.tryPushStep.Consistent consumed written' := by
  obtain ⟨holds, unread, producing, consuming⟩ := inv
  unfold RingThreads.tryPushStep
  cases at_ : s.producer with
  | idle =>
    rw [at_] at producing
    cases s.unsent with
    | nil => exact ⟨written, holds, unread, by rwa [at_], consuming⟩
    | cons data unsent =>
      refine ⟨written, holds, unread, ⟨producing, ?_⟩, consuming⟩
      rw [holds.producer, producing]
  | loaded seq data =>
    rw [at_] at producing
    obtain ⟨all, rfl⟩ := producing
    have order := Nat.le_trans holds.order holds.below
    have full := s.buffer.full_iff order holds.room
    rw [← holds.consumer, ← all] at full
    have room := holds.room
    dsimp only
    split
    · exact ⟨written, holds, unread, all, consuming⟩
    · next free =>
      refine ⟨written, holds, unread, ⟨all, rfl, ?_⟩, consuming⟩
      have notFull := mt full.mpr free
      change written < consumed + s.buffer.capacity.toNat
      omega
  | claiming seq data =>
    rw [at_] at producing
    obtain ⟨all, rfl, room⟩ := producing
    have next : (s.pushed ++ [data])[written]? = some data := all ▸ List.getElem?_concat_length
    refine ⟨written, ?_, unread, ⟨?_, rfl, next⟩, ?_⟩
    · have claimed := holds.claimed (by omega) data
      rwa [← all] at claimed
    · rw [List.length_append, all]
      rfl
    · rw [List.length_append]
      exact consuming.mono (Nat.le_add_right _ _)
  | writing seq data =>
    rw [at_] at producing
    obtain ⟨one, rfl, next⟩ := producing
    exact ⟨written + 1, holds.publish next unread, Nat.le_succ_of_le unread, one.symm, consuming⟩

theorem InOrder.tryPushStep (inv : s.Consistent consumed written) (ordered : s.InOrder) :
    s.tryPushStep.InOrder := by
  have below := inv.holds.below
  have unchanged (data : T) : (s.pushed ++ [data]).take s.popped.length = s.pushed.take s.popped.length :=
    List.take_append_of_le_length below
  unfold RingThreads.tryPushStep
  cases s.producer with
  | idle => cases s.unsent <;> exact ordered
  | loaded seq data =>
    dsimp only
    split <;> exact ordered
  | claiming seq data =>
    change s.popped = ((s.pushed ++ [data]).take s.popped.length).map .ok
    rwa [unchanged]
  | writing seq data => exact ordered

theorem Consistent.published {seq : UInt64} (inv : s.Consistent consumed written)
    (reading : s.consumer = .reading seq) (published : s.ReadsPublished .consumer) :
    s.popped.length < written := by
  obtain ⟨holds, unread, producing, consuming⟩ := inv
  rw [reading] at consuming
  obtain ⟨taken, rfl, claimed, -⟩ := consuming
  cases at_ : s.producer with
  | writing seq data =>
    rw [at_] at producing
    obtain ⟨one, rfl, -⟩ := producing
    have other : consumed ≠ written := by
      rintro rfl
      exact published _ (mem_reads.mpr reading) (mem_announced.mpr ⟨data, at_⟩)
    omega
  | idle =>
    rw [at_] at producing
    exact Nat.lt_of_lt_of_eq (taken ▸ claimed) producing.symm
  | loaded seq data =>
    rw [at_] at producing
    exact Nat.lt_of_lt_of_eq (taken ▸ claimed) producing.1.symm
  | claiming seq data =>
    rw [at_] at producing
    exact Nat.lt_of_lt_of_eq (taken ▸ claimed) producing.1.symm

theorem Consistent.read {seq : UInt64} (inv : s.Consistent consumed written)
    (reading : s.consumer = .reading seq) (inside : s.popped.length < written) :
    ∃ data, s.pushed[s.popped.length]? = some data ∧
      s.tryPopStep = { s with
        buffer := s.buffer.setSlot (.ofNat s.popped.length) .consumed, consumer := .storing seq,
        popped := s.popped ++ [.ok data] } := by
  obtain ⟨holds, unread, producing, consuming⟩ := inv
  rw [reading] at consuming
  obtain ⟨rfl, rfl, claimed, small⟩ := consuming
  have found : s.pushed[s.popped.length]? = some _ :=
    List.getElem?_eq_getElem (Nat.lt_of_lt_of_le inside holds.published)
  refine ⟨_, found, ?_⟩
  simp only [RingThreads.tryPopStep, reading, holds.assumeInitRead inside found]

theorem Consistent.tryPopStep (inv : s.Consistent consumed written) (published : s.ReadsPublished .consumer) :
    ∃ consumed', s.tryPopStep.Consistent consumed' written := by
  cases at_ : s.consumer with
  | idle =>
    obtain ⟨holds, unread, producing, consuming⟩ := inv
    rw [at_] at consuming
    simp only [RingThreads.tryPopStep, at_]
    exact ⟨consumed, holds, unread, producing, consuming, holds.consumer⟩
  | loaded seq =>
    obtain ⟨holds, unread, producing, consuming⟩ := inv
    rw [at_] at consuming
    obtain ⟨taken, rfl⟩ := consuming
    have order := Nat.le_trans holds.order holds.below
    have available := s.buffer.available_iff holds.small order holds.room
    rw [← holds.producer] at available
    simp only [RingThreads.tryPopStep, at_]
    split
    · exact ⟨consumed, holds, unread, producing, taken⟩
    · next some =>
      obtain ⟨claimed, small⟩ := available.mp some
      exact ⟨consumed, holds, unread, producing, taken, rfl, claimed, Nat.lt_of_le_of_lt claimed small⟩
  | reading seq =>
    have inside := inv.published at_ published
    obtain ⟨data, -, read⟩ := inv.read at_ inside
    obtain ⟨holds, unread, producing, consuming⟩ := inv
    rw [at_] at consuming
    obtain ⟨taken, rfl, claimed, small⟩ := consuming
    have one : (s.popped ++ [Except.ok data]).length = s.popped.length + 1 := List.length_append
    rw [read]
    refine ⟨consumed, ?_, ?_, producing, ?_, rfl, ?_⟩
    · rw [one]
      exact holds.read inside
    · rw [one]
      exact inside
    · rw [one, taken]
    · rw [one, taken]
      exact small
  | storing seq =>
    obtain ⟨holds, unread, producing, consuming⟩ := inv
    rw [at_] at consuming
    obtain ⟨taken, rfl, small⟩ := consuming
    have next : UInt64.ofNat consumed + 1 = .ofNat s.popped.length := by
      rw [taken, UInt64.ofNat_add]
      rfl
    simp only [RingThreads.tryPopStep, at_, next]
    refine ⟨s.popped.length, holds.stored small, unread, producing.mono ?_, rfl⟩
    have order := holds.order
    exact Nat.add_le_add_right order _

theorem InOrder.tryPopStep (inv : s.Consistent consumed written) (ordered : s.InOrder)
    (published : s.ReadsPublished .consumer) : s.tryPopStep.InOrder := by
  cases at_ : s.consumer with
  | idle =>
    simp only [RingThreads.tryPopStep, at_]
    exact ordered
  | loaded seq =>
    simp only [RingThreads.tryPopStep, at_]
    split <;> exact ordered
  | reading seq =>
    obtain ⟨data, found, read⟩ := inv.read at_ (inv.published at_ published)
    rw [read]
    change s.popped ++ [.ok data] = (s.pushed.take (s.popped ++ [Except.ok data]).length).map .ok
    rw [List.length_append, List.length_singleton, List.take_add_one, found, List.map_append, ← ordered]
    rfl
  | storing seq =>
    simp only [RingThreads.tryPopStep, at_]
    exact ordered

-- The slot that is about to be written holds nothing, so a read of it is at fault.
theorem Consistent.fault {seq : UInt64} {data : T} (inv : s.Consistent consumed written)
    (reading : s.consumer = .reading seq) (writing : s.producer = .writing seq data) :
    ∃ fault, s.tryPopStep.popped = s.popped ++ [.error fault] := by
  obtain ⟨holds, unread, producing, consuming⟩ := inv
  rw [writing] at producing
  rw [reading] at consuming
  obtain ⟨one, same, next⟩ := producing
  obtain ⟨rfl, rfl, claimed, small⟩ := consuming
  have places := congrArg UInt64.toNat same
  rw [UInt64.toNat_ofNat', UInt64.toNat_ofNat'] at places
  have room := holds.room
  have few := s.buffer.capacity_le
  have at_end : s.popped.length = written :=
    (mod_eq_mod_iff_of_window (Nat.le_refl _) unread (by omega) (by omega)).mp places
  have ahead := Nat.lt_add_of_pos_right (n := s.popped.length) s.buffer.capacity_pos
  obtain ⟨fault, read⟩ := RingBuffer.assumeInitRead_fault fun data =>
    holds.free s.popped.length data (Nat.le_of_eq at_end.symm) ahead
  exact ⟨fault, by simp only [RingThreads.tryPopStep, reading, read]⟩

theorem not_inOrder_of_unpublished (inv : s.Consistent consumed written)
    (unpublished : ¬ s.ReadsPublished .consumer) : ¬ s.tryPopStep.InOrder := by
  simp only [ReadsPublished, not_forall, not_not, mem_reads, mem_announced] at unpublished
  obtain ⟨seq, reading, data, writing⟩ := unpublished
  obtain ⟨fault, popped⟩ := inv.fault reading writing
  intro ordered
  have member : Except.error fault ∈ s.tryPopStep.popped := by
    rw [popped]
    exact List.mem_append_right _ (List.mem_singleton_self _)
  rw [ordered, List.mem_map] at member
  obtain ⟨value, -, impossible⟩ := member
  cases impossible

theorem Consistent.step (inv : s.Consistent consumed written) (t : Turn) (published : s.ReadsPublished t) :
    ∃ consumed' written', (s.step t).Consistent consumed' written' := by
  cases t with
  | producer => exact ⟨consumed, inv.tryPushStep⟩
  | consumer =>
    obtain ⟨consumed', next⟩ := inv.tryPopStep published
    exact ⟨consumed', written, next⟩

theorem inOrder_step_iff (inv : s.Consistent consumed written) (ordered : s.InOrder) (t : Turn) :
    (s.step t).InOrder ↔ s.ReadsPublished t := by
  cases t with
  | producer => exact iff_of_true (ordered.tryPushStep inv) fun seq none => absurd none (by simp [reads])
  | consumer =>
    exact ⟨fun next => by_contra fun unpublished => not_inOrder_of_unpublished inv unpublished next,
      ordered.tryPopStep inv⟩

theorem start_consistent (minCapacity : UInt64) (fits : minCapacity.toNat ≤ 2 ^ 63) (unsent : List T) :
    (start minCapacity fits unsent).Consistent 0 0 where
  holds := RingBuffer.new_holds minCapacity fits
  unread := Nat.le_refl _
  producing := rfl
  consuming := rfl

end Invariant

section Runs

variable {T : Type}

/-- In every state of a run the pops have found the pushed values in order exactly if no slot is read
between the store of the sequence number and the write of the slot. -/
theorem popped_in_order_iff (minCapacity : UInt64) (fits : minCapacity.toNat ≤ 2 ^ 63) (unsent : List T)
    (turns : List Turn) :
    Throughout step InOrder (start minCapacity fits unsent) turns ↔
      Meets step ReadsPublished (start minCapacity fits unsent) turns := by
  have exactly (s : RingThreads T) (t : Turn) (inv : ∃ consumed written, s.Consistent consumed written)
      (ordered : s.InOrder) : (s.step t).InOrder ↔ s.ReadsPublished t := by
    obtain ⟨consumed, written, inv⟩ := inv
    exact inOrder_step_iff inv ordered t
  have keep (s : RingThreads T) (t : Turn) (inv : ∃ consumed written, s.Consistent consumed written)
      (_ : s.InOrder) (published : s.ReadsPublished t) :
      ∃ consumed written, (s.step t).Consistent consumed written := by
    obtain ⟨consumed, written, inv⟩ := inv
    exact inv.step t published
  have begin := start_consistent minCapacity fits unsent
  exact throughout_iff_meets_of_invariant exactly keep ⟨0, 0, begin⟩ rfl turns

theorem popped_in_order_iff_behind :
    Throughout step InOrder (start 1 (by decide) [7])
      [.producer, .producer, .producer, .producer, .consumer, .consumer, .consumer, .consumer] :=
  (popped_in_order_iff 1 (by decide) [7] _).mpr (by decide)

-- The pop comes between the store and the write of the push.
theorem popped_before_written :
    ¬ Throughout step InOrder (start 1 (by decide) [7])
      [.producer, .producer, .producer, .consumer, .consumer, .consumer] := by
  intro all
  have final : [Except.error SlotFault.unwritten] = [Except.ok 7] := all _ [] (List.append_nil _).symm
  cases final

end Runs

end RingThreads

end BankingLedger
