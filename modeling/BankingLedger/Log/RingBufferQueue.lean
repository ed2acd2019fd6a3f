import BankingLedger.Log.RingBuffer
import BankingLedger.Shared.Runs

set_option autoImplicit false

namespace BankingLedger

open Runs

inductive RingOp (T : Type) where
  | tryPush (data : T)
  | tryPop
  | batchConsume (batchSize : UInt64)
  | len
  | isEmpty
  | isFull

inductive RingReply (T : Type) where
  | pushed (result : Except RingBufferError UInt64)
  | popped (data : Option T)
  | batch (items : List T)
  | length (n : UInt64)
  | flag (b : Bool)

section Model

variable {T : Type}

def RingBuffer.answer (elementSize : Nat) (rb : RingBuffer T) :
    RingOp T → Except RingFault (RingReply T) × RingBuffer T
  | .tryPush data =>
    let (result, rb) := rb.tryPush data
    (.ok (.pushed result), rb)
  | .tryPop =>
    let (data, rb) := rb.tryPop
    ((data.map .popped).mapError .slot, rb)
  | .batchConsume batchSize =>
    let (items, rb) := rb.batchConsume elementSize batchSize
    (items.map .batch, rb)
  | .len => (.ok (.length rb.len), rb)
  | .isEmpty => (.ok (.flag rb.isEmpty), rb)
  | .isFull => (.ok (.flag rb.isFull), rb)

def queueAnswer (q : BoundedQueue T) : RingOp T → RingReply T × BoundedQueue T
  | .tryPush data =>
    match q.push data with
    | some (number, q) => (.pushed (.ok (.ofNat number)), q)
    | none => (.pushed (.error .full), q)
  | .tryPop => (.popped q.pop.1, q.pop.2)
  | .batchConsume batchSize => (.batch (q.take batchSize.toNat).1, (q.take batchSize.toNat).2)
  | .len => (.length (.ofNat q.items.length), q)
  | .isEmpty => (.flag (q.items = []), q)
  | .isFull => (.flag (q.items.length = q.capacity), q)

def RingBuffer.after (elementSize : Nat) (rb : RingBuffer T) (ops : List (RingOp T)) : RingBuffer T :=
  run (fun rb op => (answer elementSize rb op).2) rb ops

-- Only the batches ask for memory.
def RingOp.Allocates (elementSize : Nat) : RingOp T → Prop
  | .batchConsume batchSize => BankingLedger.Allocates elementSize batchSize.toNat
  | _ => True

def queueAfter (q : BoundedQueue T) (ops : List (RingOp T)) : BoundedQueue T :=
  run (fun q op => (queueAnswer q op).2) q ops

end Model

section Refinement

variable {T : Type} {rb : RingBuffer T} {q : BoundedQueue T} {elementSize : Nat}

def RingBuffer.Stores (rb : RingBuffer T) (q : BoundedQueue T) : Prop :=
  ∃ values consumed, rb.Holds values consumed consumed values.length ∧ q.items = values.drop consumed ∧
    q.pushed = values.length ∧ q.capacity = rb.capacity.toNat

theorem RingBuffer.Stores.tryPush (stores : rb.Stores q) (data : T) :
    (rb.answer elementSize (.tryPush data)).1 = .ok (queueAnswer q (.tryPush data)).1 ∧
      (rb.answer elementSize (.tryPush data)).2.Stores (queueAnswer q (.tryPush data)).2 := by
  obtain ⟨values, consumed, holds, items, pushed, capacity⟩ := stores
  have length : q.items.length = values.length - consumed := by rw [items, List.length_drop]
  have order := holds.below
  have full := rb.full_iff order holds.room
  rw [← holds.producer, ← holds.consumer] at full
  by_cases room : values.length = consumed + rb.capacity.toNat
  · have refused : rb.tryPush data = (.error .full, rb) := by
      rw [RingBuffer.tryPush, RingBuffer.claim, if_pos (full.mpr room)]
    have none : q.push data = none := BoundedQueue.push_full (by omega)
    simp only [RingBuffer.answer, queueAnswer, refused, none, true_and]
    exact ⟨values, consumed, holds, items, pushed, capacity⟩
  · have next : (values ++ [data])[values.length]? = some data := List.getElem?_concat_length
    have after := (holds.claimed room data).publish next order
    have accepted : rb.tryPush data = (.ok (.ofNat values.length),
        (rb.storeProducer (.ofNat values.length + 1)).publish (.ofNat values.length) data) := by
      rw [RingBuffer.tryPush, RingBuffer.claim, if_neg (mt full.mp room), holds.producer]
    have below := holds.room
    obtain ⟨q', let_in, capacity', items', pushed'⟩ := q.push_room (by omega) data
    simp only [RingBuffer.answer, queueAnswer, accepted, let_in, pushed, true_and]
    refine ⟨values ++ [data], consumed, ?_, ?_, ?_, capacity'.trans capacity⟩
    · rw [List.length_append]
      exact after
    · rw [items', items, List.drop_append_of_le_length order]
    · rw [pushed', pushed, List.length_append, List.length_singleton]

theorem RingBuffer.Stores.tryPop (stores : rb.Stores q) (few : q.pushed < 2 ^ 64) :
    rb.tryPop.1 = .ok q.pop.1 ∧ rb.tryPop.2.Stores q.pop.2 := by
  obtain ⟨values, consumed, holds, items, pushed, capacity⟩ := stores
  have available := rb.available_iff holds.small holds.below holds.room
  rw [← holds.producer, ← holds.consumer] at available
  have head : q.pop.1 = values[consumed]? := by
    rw [BoundedQueue.pop, items, List.head?_drop]
  have tail : q.pop.2.items = values.drop (consumed + 1) := by
    rw [BoundedQueue.pop, BoundedQueue.drop_items, items, List.drop_drop]
  by_cases unread : consumed < values.length
  · have next : values[consumed]? = some values[consumed] := List.getElem?_eq_getElem unread
    have read := holds.assumeInitRead unread next
    have after := (holds.read unread).stored (by omega)
    have taken : rb.tryPop = (.ok (some values[consumed]),
        (rb.setSlot (.ofNat consumed) .consumed).storeConsumer (.ofNat (consumed + 1))) := by
      rw [RingBuffer.tryPop, if_neg (available.mpr ⟨unread, by omega⟩), holds.consumer, read,
        UInt64.ofNat_add]
      rfl
    rw [taken, head, next]
    exact ⟨rfl, values, consumed + 1, after, tail, pushed, capacity⟩
  · have nothing : rb.tryPop = (.ok none, rb) := by
      rw [RingBuffer.tryPop, if_pos (by_contra fun other => unread (available.mp other).1)]
    rw [nothing, head, List.getElem?_eq_none (by omega)]
    refine ⟨rfl, values, consumed, holds, ?_, pushed, capacity⟩
    rw [tail, List.drop_of_length_le (by omega), List.drop_of_length_le (by omega)]

theorem RingBuffer.Stores.popUpTo (stores : rb.Stores q) (few : q.pushed < 2 ^ 64) (n : Nat) :
    (rb.popUpTo n).1 = .ok (q.take n).1 ∧ (rb.popUpTo n).2.Stores (q.take n).2 := by
  induction n generalizing rb q with
  | zero => exact ⟨rfl, stores⟩
  | succ n ih =>
    obtain ⟨popped, next⟩ := stores.tryPop few
    rcases result : rb.tryPop with ⟨_ | data, rb'⟩
    · rw [result] at popped
      cases popped
    rw [result] at popped next
    obtain rfl : data = q.items.head? := Except.ok.inj popped
    rw [RingBuffer.popUpTo, result]
    cases first : q.items with
    | nil =>
      rw [BoundedQueue.take_nil _ first]
      have unchanged : q.pop.2 = q := congrArg Prod.snd (BoundedQueue.take_nil 1 first)
      rw [unchanged] at next
      exact ⟨rfl, next⟩
    | cons item rest =>
      obtain ⟨items, final⟩ := ih next few
      rw [BoundedQueue.take_cons n first]
      exact ⟨congrArg (·.map (item :: ·)) items, final⟩

theorem RingBuffer.Stores.batchConsume (stores : rb.Stores q) (few : q.pushed < 2 ^ 64) {batchSize : UInt64}
    (allocates : Allocates elementSize batchSize.toNat) :
    (rb.batchConsume elementSize batchSize).1 = .ok (q.take batchSize.toNat).1 ∧
      (rb.batchConsume elementSize batchSize).2.Stores (q.take batchSize.toNat).2 := by
  obtain ⟨items, next⟩ := stores.popUpTo few batchSize.toNat
  rw [RingBuffer.batchConsume, if_pos allocates]
  exact ⟨congrArg (·.mapError RingFault.slot) items, next⟩

theorem RingBuffer.Stores.len (stores : rb.Stores q) (few : q.pushed < 2 ^ 64) :
    rb.len = .ofNat q.items.length := by
  obtain ⟨values, consumed, holds, items, pushed, capacity⟩ := stores
  have order : (UInt64.ofNat consumed) ≤ .ofNat values.length := by
    rw [UInt64.le_iff_toNat_le, UInt64.toNat_ofNat_of_lt' holds.small,
      UInt64.toNat_ofNat_of_lt' (pushed ▸ few)]
    exact holds.below
  rw [RingBuffer.len, holds.producer, holds.consumer, if_pos order, items, List.length_drop,
    UInt64.ofNat_sub holds.below]

theorem RingBuffer.Stores.toNat_len (stores : rb.Stores q) (few : q.pushed < 2 ^ 64) :
    rb.len.toNat = q.items.length := by
  have length := stores.len few
  obtain ⟨values, consumed, holds, items, pushed, capacity⟩ := stores
  have bound := rb.capacity_le
  have bounded := q.bounded
  rw [length, UInt64.toNat_ofNat_of_lt' (by change _ < 2 ^ 64; omega)]

theorem RingBuffer.Stores.isEmpty (stores : rb.Stores q) (few : q.pushed < 2 ^ 64) :
    rb.isEmpty = decide (q.items = []) := by
  rw [RingBuffer.isEmpty, decide_eq_decide, ← UInt64.toNat_inj, stores.toNat_len few]
  exact List.length_eq_zero_iff

theorem RingBuffer.Stores.isFull (stores : rb.Stores q) (few : q.pushed < 2 ^ 64) :
    rb.isFull = decide (q.items.length = q.capacity) := by
  have length := stores.toNat_len few
  obtain ⟨values, consumed, holds, items, pushed, capacity⟩ := stores
  have bounded := q.bounded
  rw [RingBuffer.isFull, decide_eq_decide, ge_iff_le, UInt64.le_iff_toNat_le, length]
  omega

-- Each call that gets its memory gets the reply of the queue and leaves what the queue leaves.
theorem RingBuffer.Stores.answer (stores : rb.Stores q) (few : q.pushed < 2 ^ 64) {op : RingOp T}
    (allocates : op.Allocates elementSize) :
    (rb.answer elementSize op).1 = .ok (queueAnswer q op).1 ∧
      (rb.answer elementSize op).2.Stores (queueAnswer q op).2 := by
  cases op with
  | tryPush data => exact stores.tryPush data
  | tryPop =>
    obtain ⟨popped, next⟩ := stores.tryPop few
    exact ⟨congrArg (fun data => (data.map RingReply.popped).mapError RingFault.slot) popped, next⟩
  | batchConsume batchSize =>
    obtain ⟨items, next⟩ := stores.batchConsume few allocates
    exact ⟨congrArg (·.map RingReply.batch) items, next⟩
  | len => exact ⟨congrArg (Except.ok ∘ RingReply.length) (stores.len few), stores⟩
  | isEmpty => exact ⟨congrArg (Except.ok ∘ RingReply.flag) (stores.isEmpty few), stores⟩
  | isFull => exact ⟨congrArg (Except.ok ∘ RingReply.flag) (stores.isFull few), stores⟩

theorem RingBuffer.answer_of_not_allocates {op : RingOp T} (overflows : ¬ op.Allocates elementSize) :
    (rb.answer elementSize op).1 = .error .capacityOverflow := by
  cases op with
  | batchConsume batchSize =>
    have panics : rb.batchConsume elementSize batchSize = (.error .capacityOverflow, rb) := if_neg overflows
    rw [RingBuffer.answer, panics]
    rfl
  | _ => exact absurd trivial overflows

theorem pushed_le_queueAnswer (q : BoundedQueue T) (op : RingOp T) :
    q.pushed ≤ (queueAnswer q op).2.pushed := by
  cases op with
  | tryPush data =>
    simp only [queueAnswer]
    split
    · next accepted => exact BoundedQueue.pushed_le_push accepted
    · exact Nat.le_refl _
  | _ => exact Nat.le_refl _

theorem RingBuffer.new_stores (minCapacity : UInt64) (fits : minCapacity.toNat ≤ 2 ^ 63) :
    (new minCapacity fits : RingBuffer T).Stores (.empty (nextPowerOfTwo minCapacity.toNat)) := by
  refine ⟨[], 0, new_holds minCapacity fits, rfl, rfl, ?_⟩
  have below := Nat.lt_of_le_of_lt (nextPowerOfTwo_le fits) (by decide : 2 ^ 63 < 2 ^ 64)
  exact (UInt64.toNat_ofNat_of_lt' below).symm

theorem RingBuffer.Stores.dropped (stores : rb.Stores q) (few : q.pushed < 2 ^ 64) :
    rb.dropped = q.items.map .ok := by
  obtain ⟨values, consumed, holds, items, pushed, capacity⟩ := stores
  have order := holds.below
  rw [RingBuffer.dropped, holds.producer, holds.consumer, UInt64.toNat_ofNat_of_lt' holds.small,
    UInt64.toNat_ofNat_of_lt' (pushed ▸ few), items]
  apply List.ext_getElem
  · simp
  · intro k inside inside'
    have bound : consumed + k < values.length := by
      rw [List.length_map, List.length_drop] at inside'
      omega
    have live := holds.live (consumed + k) _ (Nat.le_add_right _ _) bound (List.getElem?_eq_getElem bound)
    rw [List.getElem_map, List.getElem_map, List.getElem_range', List.getElem_drop, Nat.one_mul,
      RingBuffer.assumeInitRead, live]

end Refinement

section Runs

variable {T : Type}

/-- There is a buffer if its slots fit in the memory. A run on it that lets in fewer than 2 ^ 64 elements gives
the replies of a queue whose capacity is the next power of two, and no read finds a slot without a value in it,
dropping the buffer included, exactly if the memory that is asked for each batch is there. -/
theorem ring_buffer_is_fifo_iff (elementSize : Nat) (minCapacity : UInt64) (fits : minCapacity.toNat ≤ 2 ^ 63) :
    let queue : BoundedQueue T := .empty (nextPowerOfTwo minCapacity.toNat)
    ((RingBuffer.allocated elementSize minCapacity fits : Option (RingBuffer T)) = none ↔
      ¬ Allocates elementSize queue.capacity) ∧
    ∀ rb, RingBuffer.allocated elementSize minCapacity fits = some rb →
      ∀ ops : List (RingOp T), (queueAfter queue ops).pushed < 2 ^ 64 →
        ((outputs (RingBuffer.answer elementSize) rb ops = (outputs queueAnswer queue ops).map Except.ok ∧
            (rb.after elementSize ops).dropped = (queueAfter queue ops).items.map Except.ok) ↔
          ∀ op ∈ ops, op.Allocates elementSize) := by
  intro queue
  have start : (RingBuffer.new minCapacity fits : RingBuffer T).Stores queue := RingBuffer.new_stores minCapacity fits
  constructor
  · exact ite_eq_right_iff.trans (by simp [queue, BoundedQueue.empty])
  intro rb created ops few
  rw [RingBuffer.allocated, Option.ite_none_right_eq_some, Option.some.injEq] at created
  obtain ⟨-, rfl⟩ := created
  constructor
  · intro same op member
    by_contra overflows
    obtain ⟨rb', failed⟩ := exists_output_of_mem (RingBuffer.answer elementSize) (.new minCapacity fits) member
    rw [same.1, RingBuffer.answer_of_not_allocates overflows] at failed
    obtain ⟨reply, -, ok⟩ := List.mem_map.mp failed
    cases ok
  · intro allocates
    have back (q : BoundedQueue T) (op : RingOp T) (next : (queueAnswer q op).2.pushed < 2 ^ 64) :
        q.pushed < 2 ^ 64 := Nat.lt_of_le_of_lt (pushed_le_queueAnswer q op) next
    have each (rb : RingBuffer T) (q : BoundedQueue T) (op : RingOp T) (stores : rb.Stores q)
        (condition : q.pushed < 2 ^ 64 ∧ op.Allocates elementSize) := stores.answer condition.1 condition.2
    have allFew := (meets_of_final (fun q : BoundedQueue T => q.pushed < 2 ^ 64) back few).2
    have all := allFew.and (meets_of_forall_mem queue ops fun _ op member => allocates op member)
    obtain ⟨replies, final⟩ := outputs_eq_of_related each start all
    exact ⟨replies, final.dropped few⟩

theorem ring_buffer_is_fifo_iff_around :
    (outputs (RingBuffer.answer 8) (.new 2 (by decide))
        [.tryPush 10, .tryPush 11, .tryPush 12, .tryPop, .tryPush 13, .batchConsume 5, .tryPop] =
      ([.pushed (.ok 0), .pushed (.ok 1), .pushed (.error .full), .popped (some 10), .pushed (.ok 2),
        .batch [11, 13], .popped none] : List (RingReply UInt64)).map Except.ok) :=
  (((ring_buffer_is_fifo_iff 8 2 (by decide)).2 _ rfl
    [.tryPush 10, .tryPush 11, .tryPush 12, .tryPop, .tryPush 13, .batchConsume 5, .tryPop]
    (by decide)).mpr (by simp [RingOp.Allocates, Allocates])).1

/-- A batch of `usize::MAX` elements of eight bytes is more than can be asked for. -/
theorem batch_overflows :
    outputs (RingBuffer.answer 8) (.new 2 (by decide)) [.tryPush (10 : UInt64), .batchConsume 18446744073709551615] =
        [.ok (.pushed (.ok 0)), .error .capacityOverflow] ∧
      outputs queueAnswer (.empty 2) [.tryPush (10 : UInt64), .batchConsume 18446744073709551615] =
        [.pushed (.ok 0), .batch [10]] := by
  constructor <;> rfl

end Runs

end BankingLedger
