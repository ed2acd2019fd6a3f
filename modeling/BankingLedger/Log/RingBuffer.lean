import BankingLedger.Shared.BoundedQueue
import Mathlib.Algebra.Group.Nat.Defs
import Mathlib.Data.Nat.Log

set_option autoImplicit false

namespace BankingLedger

-- What is left of a slot that has been read may not be read again.
inductive Slot (T : Type) where
  | uninit
  | live (value : T)
  | consumed
deriving DecidableEq, Repr

/-- A read of memory that holds no value. -/
inductive SlotFault where
  | unwritten
  | consumed
deriving DecidableEq, Repr

inductive RingFault where
  | slot (fault : SlotFault)
  | capacityOverflow
deriving DecidableEq, Repr

-- `Vec::with_capacity` panics when it is asked for more than `isize::MAX` bytes.
abbrev Allocates (elementSize n : Nat) : Prop := n * elementSize < 2 ^ 63

inductive RingBufferError where
  | full
  | empty
deriving DecidableEq, Repr

-- `usize` is 64 bits wide; release builds: the counters wrap.
structure RingBuffer (T : Type) where
  capacity : UInt64
  slots : Vector (Slot T) capacity.toNat
  mask : UInt64
  producerSequence : UInt64
  consumerSequence : UInt64
  power : ∃ k ≤ 63, capacity.toNat = 2 ^ k
  masks : mask = capacity - 1

-- The exponent of `next_power_of_two`.
def exponent (n : Nat) : Nat := if n ≤ 1 then 0 else Nat.log2 (n - 1) + 1

def nextPowerOfTwo (n : Nat) : Nat := 2 ^ exponent n

theorem exponent_le {n k : Nat} (fits : n ≤ 2 ^ k) : exponent n ≤ k := by
  unfold exponent
  split
  · exact Nat.zero_le _
  · next large =>
    have positive : n - 1 ≠ 0 := by omega
    exact Nat.succ_le_of_lt ((Nat.log2_lt positive).mpr (by omega))

theorem nextPowerOfTwo_le {n k : Nat} (enough : n ≤ 2 ^ k) : nextPowerOfTwo n ≤ 2 ^ k :=
  Nat.pow_le_pow_right (by decide) (exponent_le enough)

namespace RingBuffer

variable {T : Type}

theorem capacity_pos (rb : RingBuffer T) : 0 < rb.capacity.toNat := by
  obtain ⟨k, -, capacity⟩ := rb.power
  rw [capacity]
  exact Nat.two_pow_pos k

theorem capacity_le (rb : RingBuffer T) : rb.capacity.toNat ≤ 2 ^ 63 := by
  obtain ⟨k, small, capacity⟩ := rb.power
  rw [capacity]
  exact Nat.pow_le_pow_right (by decide) small

theorem masked (sequence : UInt64) (rb : RingBuffer T) :
    (sequence &&& rb.mask).toNat = sequence.toNat % rb.capacity.toNat := by
  have positive := rb.capacity_pos
  have one : (1 : UInt64) ≤ rb.capacity := by
    rw [UInt64.le_iff_toNat_le]
    exact positive
  obtain ⟨k, -, capacity⟩ := rb.power
  rw [UInt64.toNat_and, rb.masks, UInt64.toNat_sub_of_le _ _ one, capacity]
  exact Nat.and_two_pow_sub_one_eq_mod _ _

def index (sequence : UInt64) (rb : RingBuffer T) : Fin rb.capacity.toNat :=
  ⟨(sequence &&& rb.mask).toNat, by rw [masked]; exact Nat.mod_lt _ rb.capacity_pos⟩

-- `slot` is the content of the slot, `setSlot` what writing and reading leave there.
def slot (sequence : UInt64) (rb : RingBuffer T) : Slot T := rb.slots[rb.index sequence]

def setSlot (sequence : UInt64) (content : Slot T) (rb : RingBuffer T) : RingBuffer T :=
  { rb with slots := rb.slots.set (rb.index sequence).val content (rb.index sequence).isLt }

def new (minCapacity : UInt64) (fits : minCapacity.toNat ≤ 2 ^ 63) : RingBuffer T :=
  let capacity := UInt64.ofNat (nextPowerOfTwo minCapacity.toNat)
  { capacity
    slots := Vector.replicate capacity.toNat .uninit
    mask := capacity - 1
    producerSequence := 0
    consumerSequence := 0
    power := by
      refine ⟨exponent minCapacity.toNat, exponent_le fits, UInt64.toNat_ofNat_of_lt' ?_⟩
      exact Nat.lt_of_le_of_lt (nextPowerOfTwo_le fits) (by decide)
    masks := rfl }

-- `new` gets the memory for its slots first.
def allocated (elementSize : Nat) (minCapacity : UInt64) (fits : minCapacity.toNat ≤ 2 ^ 63) :
    Option (RingBuffer T) :=
  if Allocates elementSize (nextPowerOfTwo minCapacity.toNat) then some (new minCapacity fits) else none

def storeProducer (sequence : UInt64) (rb : RingBuffer T) : RingBuffer T :=
  { rb with producerSequence := sequence }

def storeConsumer (sequence : UInt64) (rb : RingBuffer T) : RingBuffer T :=
  { rb with consumerSequence := sequence }

def claim (rb : RingBuffer T) : Except RingBufferError UInt64 × RingBuffer T :=
  let seq := rb.producerSequence
  let nextSeq := seq + 1
  let consumerSeq := rb.consumerSequence
  if nextSeq - consumerSeq > rb.capacity then (.error .full, rb)
  else (.ok seq, rb.storeProducer nextSeq)

def publish (sequence : UInt64) (data : T) (rb : RingBuffer T) : RingBuffer T :=
  rb.setSlot sequence (.live data)

def tryPush (data : T) (rb : RingBuffer T) : Except RingBufferError UInt64 × RingBuffer T :=
  match rb.claim with
  | (.error e, rb) => (.error e, rb)
  | (.ok seq, rb) => (.ok seq, rb.publish seq data)

-- `assume_init_read` takes the value out, whether there is one or not.
def assumeInitRead (sequence : UInt64) (rb : RingBuffer T) : Except SlotFault T × RingBuffer T :=
  match rb.slot sequence with
  | .uninit => (.error .unwritten, rb)
  | .live data => (.ok data, rb.setSlot sequence .consumed)
  | .consumed => (.error .consumed, rb)

theorem assumeInitRead_fault {sequence : UInt64} {rb : RingBuffer T}
    (nothing : ∀ data, rb.slot sequence ≠ .live data) :
    ∃ fault, (rb.assumeInitRead sequence).1 = .error fault := by
  unfold assumeInitRead
  split
  · exact ⟨.unwritten, rfl⟩
  · next data live => exact absurd live (nothing data)
  · exact ⟨.consumed, rfl⟩

def tryPop (rb : RingBuffer T) : Except SlotFault (Option T) × RingBuffer T :=
  let consumerSeq := rb.consumerSequence
  let producerSeq := rb.producerSequence
  if consumerSeq ≥ producerSeq then (.ok none, rb)
  else
    let (data, rb) := rb.assumeInitRead consumerSeq
    (data.map some, rb.storeConsumer (consumerSeq + 1))

-- A read that is at fault ends the loop in the model.
def popUpTo : Nat → RingBuffer T → Except SlotFault (List T) × RingBuffer T
  | 0, rb => (.ok [], rb)
  | n + 1, rb =>
    match rb.tryPop with
    | (.error fault, rb) => (.error fault, rb)
    | (.ok none, rb) => (.ok [], rb)
    | (.ok (some item), rb) =>
      let (batch, rb) := popUpTo n rb
      (batch.map (item :: ·), rb)

def batchConsume (elementSize : Nat) (batchSize : UInt64) (rb : RingBuffer T) :
    Except RingFault (List T) × RingBuffer T :=
  if Allocates elementSize batchSize.toNat then
    let (batch, rb) := popUpTo batchSize.toNat rb
    (batch.mapError .slot, rb)
  else (.error .capacityOverflow, rb)

def len (rb : RingBuffer T) : UInt64 :=
  let producer := rb.producerSequence
  let consumer := rb.consumerSequence
  if consumer ≤ producer then producer - consumer else 0

def isEmpty (rb : RingBuffer T) : Bool := rb.len = 0

def isFull (rb : RingBuffer T) : Bool := rb.len ≥ rb.capacity

-- What `drop` drops: the slots of `consumer..producer`, one after another.
def dropped (rb : RingBuffer T) : List (Except SlotFault T) :=
  (List.range' rb.consumerSequence.toNat (rb.producerSequence.toNat - rb.consumerSequence.toNat)).map
    fun seq => (rb.assumeInitRead (UInt64.ofNat seq)).1

section Holds

variable {rb : RingBuffer T} {values : List T} {consumed taken written : Nat}

theorem index_ofNat (k : Nat) : (rb.index (.ofNat k)).val = k % rb.capacity.toNat := by
  obtain ⟨e, small, capacity⟩ := rb.power
  have divides : 2 ^ e ∣ 2 ^ 64 := Nat.pow_dvd_pow 2 (by omega)
  have place : (rb.index (.ofNat k)).val = (UInt64.ofNat k &&& rb.mask).toNat := rfl
  rw [place, masked, UInt64.toNat_ofNat', capacity, Nat.mod_mod_of_dvd _ divides]

theorem slot_setSlot (a b : UInt64) (content : Slot T) :
    (rb.setSlot b content).slot a = if rb.index a = rb.index b then content else rb.slot a := by
  have written : (rb.setSlot b content).slot a =
      (rb.slots.set (rb.index b).val content (rb.index b).isLt)[rb.index a] := rfl
  rw [written, Fin.getElem_fin, Vector.getElem_set, slot, Fin.getElem_fin]
  simp only [Fin.ext_iff, eq_comm]

-- Within one lap around the ring only the slot itself changes.
theorem slot_setSlot_of_window (base : Nat) {a b : Nat} (content : Slot T) (above : base ≤ a) (above' : base ≤ b)
    (below : a < base + rb.capacity.toNat) (below' : b < base + rb.capacity.toNat) :
    (rb.setSlot (.ofNat b) content).slot (.ofNat a) = if a = b then content else rb.slot (.ofNat a) := by
  rw [slot_setSlot]
  simp only [Fin.ext_iff, index_ofNat, mod_eq_mod_iff_of_window above above' below below']

-- The difference of the counters is taken modulo 2 ^ 64.
theorem full_iff {claimed seen : Nat} (order : seen ≤ claimed) (room : claimed ≤ seen + rb.capacity.toNat) :
    UInt64.ofNat claimed + 1 - UInt64.ofNat seen > rb.capacity ↔ claimed = seen + rb.capacity.toNat := by
  have small := rb.capacity_le
  have difference : UInt64.ofNat claimed + 1 - UInt64.ofNat seen = UInt64.ofNat (claimed + 1 - seen) := by
    rw [UInt64.ofNat_sub (by omega), UInt64.ofNat_add]
    rfl
  rw [difference, gt_iff_lt, UInt64.lt_iff_toNat_lt, UInt64.toNat_ofNat_of_lt' (by change _ < 2 ^ 64; omega)]
  omega

theorem available_iff {claimed consumed : Nat} (small : consumed < 2 ^ 64) (order : consumed ≤ claimed)
    (room : claimed ≤ consumed + rb.capacity.toNat) :
    ¬ UInt64.ofNat consumed ≥ UInt64.ofNat claimed ↔ consumed < claimed ∧ claimed < 2 ^ 64 := by
  have bound := rb.capacity_le
  rw [ge_iff_le, UInt64.le_iff_toNat_le, UInt64.toNat_ofNat', UInt64.toNat_ofNat', Nat.mod_eq_of_lt small]
  omega

/-- `values` have been let in, and those before `written` are in their slots. Those before `taken`
have been read, and the counter of the consumer is at `consumed`. A slot ahead of `written` holds
nothing to read. -/
structure Holds (rb : RingBuffer T) (values : List T) (consumed taken written : Nat) : Prop where
  producer : rb.producerSequence = .ofNat values.length
  consumer : rb.consumerSequence = .ofNat consumed
  small : consumed < 2 ^ 64
  order : consumed ≤ taken
  below : taken ≤ values.length
  room : values.length ≤ consumed + rb.capacity.toNat
  published : written ≤ values.length
  live : ∀ k v, taken ≤ k → k < written → values[k]? = some v → rb.slot (.ofNat k) = .live v
  free : ∀ k v, written ≤ k → k < taken + rb.capacity.toNat → rb.slot (.ofNat k) ≠ .live v

theorem new_holds (minCapacity : UInt64) (fits : minCapacity.toNat ≤ 2 ^ 63) :
    (new minCapacity fits : RingBuffer T).Holds [] 0 0 0 where
  producer := rfl
  consumer := rfl
  small := by decide
  order := Nat.le_refl _
  below := Nat.le_refl _
  room := Nat.zero_le _
  published := Nat.le_refl _
  live k v _ none := absurd none (Nat.not_lt_zero _)
  free k v _ _ := by
    rw [slot, new, Fin.getElem_fin, Vector.getElem_replicate]
    exact fun same => by cases same

theorem Holds.claimed (holds : rb.Holds values consumed taken written)
    (room : values.length ≠ consumed + rb.capacity.toNat) (data : T) :
    (rb.storeProducer (.ofNat values.length + 1)).Holds (values ++ [data]) consumed taken written where
  producer := by
    rw [List.length_append, List.length_singleton, UInt64.ofNat_add]
    rfl
  consumer := holds.consumer
  small := holds.small
  order := holds.order
  below := by
    rw [List.length_append]
    exact Nat.le_add_right_of_le holds.below
  room := by
    have := holds.room
    rw [List.length_append, List.length_singleton]
    change _ ≤ consumed + rb.capacity.toNat
    omega
  published := by
    rw [List.length_append]
    exact Nat.le_add_right_of_le holds.published
  live k v above below found := by
    rw [List.getElem?_append_left (Nat.lt_of_lt_of_le below holds.published)] at found
    exact holds.live k v above below found
  free := holds.free

theorem Holds.publish (holds : rb.Holds values consumed taken written) {data : T}
    (next : values[written]? = some data) (unread : taken ≤ written) :
    (rb.publish (.ofNat written) data).Holds values consumed taken (written + 1) where
  producer := holds.producer
  consumer := holds.consumer
  small := holds.small
  order := holds.order
  below := holds.below
  room := holds.room
  published := (List.getElem?_eq_some_iff.mp next).1
  live k v above below found := by
    have bound := (List.getElem?_eq_some_iff.mp next).1
    have order := holds.order
    have room := holds.room
    rw [RingBuffer.publish, slot_setSlot_of_window taken _ above unread (by omega) (by omega)]
    split
    · next same =>
      rw [same, next] at found
      rw [Option.some.inj found]
    · next other => exact holds.live k v above (by omega) found
  free k v above below := by
    change k < taken + rb.capacity.toNat at below
    have bound := (List.getElem?_eq_some_iff.mp next).1
    have order := holds.order
    have room := holds.room
    rw [RingBuffer.publish, slot_setSlot_of_window taken _ (by omega) unread below (by omega), if_neg (by omega)]
    exact holds.free k v (by omega) below

theorem Holds.assumeInitRead (holds : rb.Holds values consumed taken written) (unread : taken < written)
    {data : T} (next : values[taken]? = some data) :
    rb.assumeInitRead (.ofNat taken) = (.ok data, rb.setSlot (.ofNat taken) .consumed) := by
  rw [RingBuffer.assumeInitRead, holds.live taken data (Nat.le_refl _) unread next]

theorem Holds.read (holds : rb.Holds values consumed taken written) (unread : taken < written) :
    (rb.setSlot (.ofNat taken) .consumed).Holds values consumed (taken + 1) written where
  producer := holds.producer
  consumer := holds.consumer
  small := holds.small
  order := Nat.le_succ_of_le holds.order
  below := Nat.lt_of_lt_of_le unread holds.published
  room := holds.room
  published := holds.published
  live k v above below found := by
    have order := holds.order
    have room := holds.room
    have published := holds.published
    rw [slot_setSlot_of_window taken _ (by omega) (Nat.le_refl _) (by omega) (by omega),
      if_neg (by omega)]
    exact holds.live k v (by omega) below found
  -- The slot that has been read is the farthest one ahead.
  free k v above below := by
    change k < taken + 1 + rb.capacity.toNat at below
    rw [slot_setSlot]
    split
    · exact fun same => by cases same
    · next other =>
      have around : rb.index (.ofNat (taken + rb.capacity.toNat)) = rb.index (.ofNat taken) := by
        rw [Fin.ext_iff, index_ofNat, index_ofNat, Nat.add_mod_right]
      have nearer : k ≠ taken + rb.capacity.toNat := by
        rintro rfl
        exact other around
      exact holds.free k v above (by omega)

theorem Holds.stored (holds : rb.Holds values consumed taken written) (small : taken < 2 ^ 64) :
    (rb.storeConsumer (.ofNat taken)).Holds values taken taken written where
  producer := holds.producer
  consumer := rfl
  small := small
  order := Nat.le_refl _
  below := holds.below
  room := by
    have := holds.room
    have := holds.order
    change values.length ≤ taken + rb.capacity.toNat
    omega
  published := holds.published
  live := holds.live
  free := holds.free

end Holds

end RingBuffer

end BankingLedger
