import BankingLedger.Log.EventBus
import BankingLedger.Shared.CheckThenMark

set_option autoImplicit false

namespace BankingLedger

open Interleaving

structure IdempotentProducer where
  producerId : String
  lastSeq : UInt64
  acknowledged : Finset (String × UInt64)

namespace IdempotentProducer

def new (producerId : String) : IdempotentProducer where
  producerId
  lastSeq := 0
  acknowledged := ∅

def nextSequence (p : IdempotentProducer) : UInt64 × IdempotentProducer :=
  (p.lastSeq + 1, { p with lastSeq := p.lastSeq + 1 })

def isDuplicate (producerId : String) (seq : UInt64) (p : IdempotentProducer) : Bool :=
  (producerId, seq) ∈ p.acknowledged

def acknowledge (producerId : String) (seq : UInt64) (p : IdempotentProducer) : IdempotentProducer :=
  { p with acknowledged := insert (producerId, seq) p.acknowledged }

def produce (now : Timestamp) (key payload : String) (seq : UInt64) (p : IdempotentProducer)
    (bus : PartitionedEventBus) : Option UInt64 × IdempotentProducer × PartitionedEventBus :=
  if p.isDuplicate p.producerId seq then (none, p, bus)
  else
    let (offset, bus) := bus.produce now key payload p.producerId seq
    (some offset, p.acknowledge p.producerId seq, bus)

end IdempotentProducer

section Model

inductive ProduceAt where
  | checking
  | producing
  | acknowledging (offset : UInt64)
  | returned (result : Option UInt64)
deriving DecidableEq, Repr

structure IdempotentCall where
  key : String
  payload : String
  seq : UInt64
  timestamp : Timestamp
deriving DecidableEq, Repr

structure IdempotentThread where
  call : IdempotentCall
  at_ : ProduceAt
deriving DecidableEq, Repr

structure IdempotentBus where
  producer : IdempotentProducer
  bus : PartitionedEventBus

def idempotentStep (s : IdempotentBus) (l : IdempotentThread) : Option (IdempotentBus × IdempotentThread) :=
  let id := s.producer.producerId
  match l.at_ with
  | .checking =>
    if s.producer.isDuplicate id l.call.seq then some (s, { l with at_ := .returned none })
    else some (s, { l with at_ := .producing })
  | .producing =>
    let (offset, bus) := s.bus.produce l.call.timestamp l.call.key l.call.payload id l.call.seq
    some ({ s with bus }, { l with at_ := .acknowledging offset })
  | .acknowledging offset =>
    some ({ s with producer := s.producer.acknowledge id l.call.seq },
      { l with at_ := .returned (some offset) })
  | .returned _ => none

def idempotentProducers : System IdempotentBus IdempotentThread := ⟨idempotentStep⟩

-- Alone, the steps of a call are the call.
theorem idempotent_solo (s : IdempotentBus) (call : IdempotentCall) :
    idempotentProducers.solo 3 (s, ⟨call, .checking⟩) =
      let (result, producer, bus) := s.producer.produce call.timestamp call.key call.payload call.seq s.bus
      ({ producer, bus }, ⟨call, .returned result⟩) := by
  by_cases known : s.producer.isDuplicate s.producer.producerId call.seq
  · simp [System.solo, idempotentProducers, idempotentStep, IdempotentProducer.produce, known]
  · simp [System.solo, idempotentProducers, idempotentStep, IdempotentProducer.produce, known]

variable {I : Type}

def idempotentStart (producerId : String) (numPartitions : Nat) (calls : I → IdempotentCall) :
    Config I IdempotentBus IdempotentThread where
  shared := { producer := .new producerId, bus := .new numPartitions }
  thread i := ⟨calls i, .checking⟩

def IdempotentBus.sent (s : IdempotentBus) : Multiset UInt64 :=
  (s.bus.messages.filter fun m => m.producerId = s.producer.producerId).map (·.producerSeq)

def ProducesReturned (c : Config I IdempotentBus IdempotentThread) : Prop :=
  ∀ i, ∃ result, (c.thread i).at_ = .returned result

def IdempotentThread.result (l : IdempotentThread) : Option UInt64 :=
  match l.at_ with
  | .returned result => result
  | _ => none

def IdempotentThread.Sent (seq : UInt64) (l : IdempotentThread) : Prop := l.call.seq = seq ∧ l.result.isSome

instance (seq : UInt64) (l : IdempotentThread) : Decidable (l.Sent seq) :=
  inferInstanceAs (Decidable (_ ∧ _))

-- The call has found its number unused and has not acknowledged it yet.
def IdempotentThread.Between (seq : UInt64) (l : IdempotentThread) : Prop :=
  l.call.seq = seq ∧ (l.at_ = .producing ∨ ∃ offset, l.at_ = .acknowledging offset)

/-- No call finds its number unused while another one with the same number is between its look-up
and its acknowledgement. -/
def LooksUpAlone (c : Config I IdempotentBus IdempotentThread) (i : I) : Prop :=
  (c.thread i).at_ = .checking →
    ¬ c.shared.producer.isDuplicate c.shared.producer.producerId (c.thread i).call.seq →
    ∀ j, ¬ (c.thread j).Between (c.thread i).call.seq

end Model

section Marks

open CheckThenMark

def ProduceAt.point : ProduceAt → Point
  | .checking => .checking
  | .producing => .acting
  | .acknowledging _ => .marking
  | .returned none => .skipped
  | .returned (some _) => .done

def IdempotentThread.mark (l : IdempotentThread) : CheckThenMark.Call UInt64 where
  key := l.call.seq
  succeeds := true
  point := l.at_.point

def IdempotentBus.marks (s : IdempotentBus) : Marks UInt64 where
  seen := (s.producer.acknowledged.filter fun p => p.1 = s.producer.producerId).image (·.2)
  acted := s.sent

theorem mem_marks_seen (s : IdempotentBus) (seq : UInt64) :
    seq ∈ s.marks.seen ↔ s.producer.isDuplicate s.producer.producerId seq := by
  simp [IdempotentBus.marks, IdempotentProducer.isDuplicate]

theorem acknowledge_marks (s : IdempotentBus) (seq : UInt64) :
    ({ s with producer := s.producer.acknowledge s.producer.producerId seq } : IdempotentBus).marks =
      { s.marks with seen := insert seq s.marks.seen } := by
  have own : ((insert (s.producer.producerId, seq) s.producer.acknowledged).filter
      fun p => p.1 = s.producer.producerId).image (·.2) = insert seq s.marks.seen := by
    rw [Finset.filter_insert, if_pos rfl, Finset.image_insert]
    rfl
  exact congrArg (fun seen => Marks.mk seen s.sent) own

theorem produce_marks (s : IdempotentBus) (call : IdempotentCall) :
    ({ s with bus := (s.bus.produce call.timestamp call.key call.payload s.producer.producerId call.seq).2 }
        : IdempotentBus).marks =
      { s.marks with acted := call.seq ::ₘ s.marks.acted } := by
  simp [IdempotentBus.marks, IdempotentBus.sent, PartitionedEventBus.produce_messages]

theorem idempotent_view (s : IdempotentBus) (l : IdempotentThread) :
    CheckThenMark.system.step s.marks l.mark =
      (idempotentProducers.step s l).map (Prod.map IdempotentBus.marks IdempotentThread.mark) := by
  obtain ⟨call, at_⟩ := l
  cases at_ with
  | checking =>
    have known := mem_marks_seen s call.seq
    by_cases duplicate : s.producer.isDuplicate s.producer.producerId call.seq
    · simp [CheckThenMark.system, CheckThenMark.step, idempotentProducers, idempotentStep,
        IdempotentThread.mark, ProduceAt.point, known, duplicate]
    · simp [CheckThenMark.system, CheckThenMark.step, idempotentProducers, idempotentStep,
        IdempotentThread.mark, ProduceAt.point, known, duplicate]
  | producing =>
    exact congrArg (fun marks => some (marks, _)) (produce_marks s call).symm
  | acknowledging offset =>
    exact congrArg (fun marks => some (marks, _)) (acknowledge_marks s call.seq).symm
  | returned result => cases result <;> rfl

variable {I : Type}

theorem idempotentStart_marks (producerId : String) (numPartitions : Nat) (calls : I → IdempotentCall) :
    (idempotentStart producerId numPartitions calls).view IdempotentBus.marks IdempotentThread.mark =
      CheckThenMark.start (fun i => (calls i).seq) fun _ => true := by
  have unused : (⟨.new producerId, .new numPartitions⟩ : IdempotentBus).sent = 0 := by
    simp [IdempotentBus.sent, PartitionedEventBus.new_messages]
  exact congrArg (fun acted => Config.mk (Marks.mk ∅ acted) _) unused

theorem point_checking {at_ : ProduceAt} : at_.point = .checking ↔ at_ = .checking := by
  rcases at_ with _ | _ | _ | ⟨_ | _⟩ <;> simp [ProduceAt.point]

theorem point_inside {at_ : ProduceAt} :
    at_.point = .acting ∨ at_.point = .marking ↔ at_ = .producing ∨ ∃ offset, at_ = .acknowledging offset := by
  rcases at_ with _ | _ | _ | ⟨_ | _⟩ <;> simp [ProduceAt.point]

theorem point_returned {at_ : ProduceAt} :
    at_.point = .skipped ∨ at_.point = .failed ∨ at_.point = .done ↔ ∃ result, at_ = .returned result := by
  rcases at_ with _ | _ | _ | ⟨_ | _⟩ <;> simp [ProduceAt.point]

theorem looksUpAlone_iff (c : Config I IdempotentBus IdempotentThread) (i : I) :
    LooksUpAlone c i ↔ ChecksAlone (c.view IdempotentBus.marks IdempotentThread.mark) i := by
  have inside (j : I) (seq : UInt64) : (c.thread j).Between seq ↔ (c.thread j).mark.Inside seq :=
    and_congr_right fun _ => ((and_iff_right rfl).trans point_inside).symm
  have unused := (mem_marks_seen c.shared (c.thread i).call.seq).symm
  refine imp_congr point_checking.symm ?_
  constructor
  · intro alone _ unseen j within
    exact alone (mt unused.mp unseen) j ((inside j _).mpr within)
  · intro alone unseen j within
    exact alone rfl (mt unused.mpr unseen) j ((inside j _).mp within)

theorem producesReturned_iff (c : Config I IdempotentBus IdempotentThread) :
    ProducesReturned c ↔ Returned (c.view IdempotentBus.marks IdempotentThread.mark) :=
  forall_congr' fun _ => point_returned.symm

end Marks

section Runs

open CheckThenMark

variable {I : Type} [DecidableEq I] (producerId : String) (numPartitions : Nat) (calls : I → IdempotentCall)
  (schedule : List I)

theorem idempotent_run_marks :
    (idempotentProducers.run (idempotentStart producerId numPartitions calls) schedule).view
        IdempotentBus.marks IdempotentThread.mark =
      CheckThenMark.system.run (CheckThenMark.start (fun i => (calls i).seq) fun _ => true) schedule := by
  have each (c : Config I IdempotentBus IdempotentThread) (i : I) (_ : True) :=
    idempotent_view c.shared (c.thread i)
  rw [← idempotentStart_marks producerId numPartitions calls]
  exact (System.run_view each (Runs.meets_of_forall (fun _ _ => trivial) _ schedule)).symm

theorem looksUpAlone_run_iff :
    idempotentProducers.RunMeets LooksUpAlone (idempotentStart producerId numPartitions calls) schedule ↔
      CheckThenMark.system.RunMeets ChecksAlone
        (CheckThenMark.start (fun i => (calls i).seq) fun _ => true) schedule := by
  have each (c : Config I IdempotentBus IdempotentThread) (i : I) (_ : True) :=
    idempotent_view c.shared (c.thread i)
  rw [← idempotentStart_marks producerId numPartitions calls]
  have same := System.runMeets_view ChecksAlone each
    (Runs.meets_of_forall (fun _ _ => trivial) (idempotentStart producerId numPartitions calls) schedule)
  exact (Runs.meets_congr looksUpAlone_iff).trans same.symm

variable [Fintype I]

/-- The bus gets at most one message for a number, and one call for each number returns `Some`. -/
def SentOnce (c : Config I IdempotentBus IdempotentThread) : Prop :=
  (∀ seq, c.shared.sent.count seq ≤ 1) ∧
    ∀ i, (Finset.univ.filter fun j => (c.thread j).Sent (c.thread i).call.seq).card = 1

theorem sent_iff_done {at_ : ProduceAt} (returned : ∃ result, at_ = .returned result) (call : IdempotentCall)
    (seq : UInt64) :
    (IdempotentThread.mk call at_).Sent seq ↔ call.seq = seq ∧ (at_.point = .marking ∨ at_.point = .done) := by
  obtain ⟨_ | offset, rfl⟩ := returned <;> simp [IdempotentThread.Sent, IdempotentThread.result, ProduceAt.point]

variable {producerId numPartitions calls schedule} in
theorem card_sent (returned : ProducesReturned
      (idempotentProducers.run (idempotentStart producerId numPartitions calls) schedule)) (seq : UInt64) :
    (Finset.univ.filter fun j =>
        ((idempotentProducers.run (idempotentStart producerId numPartitions calls) schedule).thread j).Sent seq).card =
      (idempotentProducers.run (idempotentStart producerId numPartitions calls) schedule).shared.sent.count
        seq := by
  have acted := acted_eq_card (fun i => (calls i).seq) (fun _ => true) schedule seq
  rw [← idempotent_run_marks producerId numPartitions] at acted
  refine Eq.trans (congrArg Finset.card (Finset.filter_congr fun j _ => ?_)) acted.symm
  exact sent_iff_done (returned j) _ seq

/-- No state of a run whose look-ups are alone has two messages for a number, and of the runs in which
all calls return exactly these deliver every number once. -/
theorem idempotent_produce_iff :
    (idempotentProducers.RunMeets LooksUpAlone (idempotentStart producerId numPartitions calls) schedule →
      Runs.Throughout idempotentProducers.fire (fun c => ∀ seq, c.shared.sent.count seq ≤ 1)
        (idempotentStart producerId numPartitions calls) schedule) ∧
    (ProducesReturned
        (idempotentProducers.run (idempotentStart producerId numPartitions calls) schedule) →
      (SentOnce (idempotentProducers.run (idempotentStart producerId numPartitions calls) schedule) ↔
        idempotentProducers.RunMeets LooksUpAlone (idempotentStart producerId numPartitions calls)
          schedule)) := by
  rw [looksUpAlone_run_iff]
  constructor
  · intro alone first second split seq
    have once : (CheckThenMark.system.run _ first).shared.acted.count seq ≤ 1 :=
      acted_at_most_once alone first second split seq
    rwa [← idempotent_run_marks producerId numPartitions] at once
  · intro returned
    have allReturned := (producesReturned_iff _).mp returned
    rw [idempotent_run_marks] at allReturned
    rw [← returned_at_most_once_iff allReturned, ← idempotent_run_marks producerId numPartitions]
    refine and_iff_left_of_imp fun once i => ?_
    have some := acted_of_succeeds allReturned (i := i) (by rw [← idempotent_run_marks producerId numPartitions]; rfl)
    rw [← idempotent_run_marks producerId numPartitions] at some
    rw [card_sent returned]
    exact Nat.le_antisymm (once _) some

-- A retry looks its number up before the first call acknowledges it.
theorem retry_sent_twice :
    let final := idempotentProducers.run
      (idempotentStart "p1" 1 fun _ : Bool => ⟨"account:A", "credit:100", 1, ⟨0⟩⟩)
      [false, true, false, true, false, true]
    ProducesReturned final ∧ final.shared.sent.count 1 = 2 ∧ ¬ SentOnce final := by
  intro final
  have returned : ProducesReturned final := fun i => by cases i <;> exact ⟨_, rfl⟩
  have twice : final.shared.sent.count 1 = 2 := by decide +kernel
  refine ⟨returned, twice, fun once => ?_⟩
  have one := once.1 1
  omega

end Runs

end BankingLedger
