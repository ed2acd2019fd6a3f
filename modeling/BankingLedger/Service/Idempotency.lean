import BankingLedger.Domain.Journal
import BankingLedger.Shared.CheckThenMark
import BankingLedger.Shared.FiniteMap

set_option autoImplicit false

namespace BankingLedger

open FiniteMap Interleaving

structure IdempotencyService where
  processed : Map String Timestamp
  maxEntries : Nat

namespace IdempotencyService

def defaultMaxEntries : Nat := 100000

def new : IdempotencyService where
  processed := ∅
  maxEntries := defaultMaxEntries

def withCapacity (max : Nat) (svc : IdempotencyService) : IdempotencyService :=
  { svc with maxEntries := max }

def isProcessed (transactionId : String) (svc : IdempotencyService) : Bool :=
  (svc.processed.lookup transactionId).isSome

def len (svc : IdempotencyService) : Nat := svc.processed.keys.card

-- `entries` is the content of the map in the order in which the iteration meets it.
def evictOldestBatch (entries : List (String × Timestamp)) (svc : IdempotencyService) :
    IdempotencyService :=
  let toRemove := max (svc.maxEntries / 10) 1
  let sorted := entries.mergeSort fun a b => a.2.nanos ≤ b.2.nanos
  { svc with processed := (sorted.take toRemove).foldl (fun m entry => m.erase entry.1) svc.processed }

def markProcessed (now : Timestamp) (iteration : Map String Timestamp → List (String × Timestamp))
    (transactionId : String) (svc : IdempotencyService) : IdempotencyService :=
  let svc := if svc.len ≥ svc.maxEntries then svc.evictOldestBatch (iteration svc.processed) else svc
  { svc with processed := svc.processed.insert transactionId now }

end IdempotencyService

/-- A call of `process`: the time it marks at, the order in which an eviction would meet the entries,
and what its run of the handler returns. -/
structure ProcessCall where
  transactionId : String
  outcome : Except String Unit
  now : Timestamp
  iteration : Map String Timestamp → List (String × Timestamp)

/-- What `process` returns, what its run of the handler has returned if there was one, and the record it
leaves. -/
structure Processed where
  result : Except String Unit
  handlerRun : Option (Except String Unit)
  dedup : IdempotencyService

def IdempotencyService.process (call : ProcessCall) (dedup : IdempotencyService) : Processed :=
  if dedup.isProcessed call.transactionId then { result := .ok (), handlerRun := none, dedup }
  else
    let result := call.outcome
    { result
      handlerRun := some result
      dedup :=
        if result.isOk then dedup.markProcessed call.now call.iteration call.transactionId else dedup }

section Model

inductive ProcessAt where
  | checking
  | handling
  | marking
  | skipped
  | failed
  | returned
deriving DecidableEq, Repr

structure ProcessThread where
  call : ProcessCall
  at_ : ProcessAt

/-- The service, with the ids whose handler runs have succeeded and those that were ever marked. -/
structure HandlerState where
  dedup : IdempotencyService
  completed : Multiset String
  marked : Finset String

def processStep (s : HandlerState) (l : ProcessThread) : Option (HandlerState × ProcessThread) :=
  let id := l.call.transactionId
  match l.at_ with
  | .checking =>
    if s.dedup.isProcessed id then some (s, { l with at_ := .skipped })
    else some (s, { l with at_ := .handling })
  | .handling =>
    if l.call.outcome.isOk then some ({ s with completed := id ::ₘ s.completed }, { l with at_ := .marking })
    else some (s, { l with at_ := .failed })
  | .marking =>
    some ({ s with
      dedup := s.dedup.markProcessed l.call.now l.call.iteration id
      marked := insert id s.marked }, { l with at_ := .returned })
  | .skipped | .failed | .returned => none

def processors : System HandlerState ProcessThread := ⟨processStep⟩

def ProcessThread.result (l : ProcessThread) : Option (Except String Unit) :=
  match l.at_ with
  | .checking | .handling | .marking => none
  | .skipped => some (.ok ())
  | .failed | .returned => some l.call.outcome

def ProcessThread.handlerRun (l : ProcessThread) : Option (Except String Unit) :=
  match l.at_ with
  | .checking | .handling | .skipped => none
  | .marking | .failed | .returned => some l.call.outcome

-- Alone, the steps of a call are the call.
theorem process_solo (s : HandlerState) (call : ProcessCall) :
    let final := processors.solo 3 (s, ⟨call, .checking⟩)
    let processed := s.dedup.process call
    final.1.dedup = processed.dedup ∧ final.2.result = some processed.result ∧
      final.2.handlerRun = processed.handlerRun ∧
      final.1.completed =
        if processed.handlerRun.any Except.isOk then call.transactionId ::ₘ s.completed else s.completed := by
  by_cases known : s.dedup.isProcessed call.transactionId
  · simp [System.solo, processors, processStep, IdempotencyService.process, ProcessThread.result,
      ProcessThread.handlerRun, known]
  · by_cases good : call.outcome.isOk
    · simp [System.solo, processors, processStep, IdempotencyService.process, ProcessThread.result,
        ProcessThread.handlerRun, known, good]
    · simp [System.solo, processors, processStep, IdempotencyService.process, ProcessThread.result,
        ProcessThread.handlerRun, known, good]

variable {I : Type}

def processStart (maxEntries : Nat) (calls : I → ProcessCall) : Config I HandlerState ProcessThread where
  shared := { dedup := IdempotencyService.new.withCapacity maxEntries, completed := 0, marked := ∅ }
  thread i := ⟨calls i, .checking⟩

def ProcessesReturned (c : Config I HandlerState ProcessThread) : Prop :=
  ∀ i, (c.thread i).at_ = .skipped ∨ (c.thread i).at_ = .failed ∨ (c.thread i).at_ = .returned

-- The call has found the id unprocessed, and it has run or will run the handler with success and has
-- not marked the id.
def ProcessThread.Between (id : String) (l : ProcessThread) : Prop :=
  l.call.transactionId = id ∧ l.call.outcome.isOk ∧ (l.at_ = .handling ∨ l.at_ = .marking)

/-- No call whose handler run will succeed finds its id unprocessed while another one is between its
check and its mark of the same id. -/
def ChecksItsIdAlone (c : Config I HandlerState ProcessThread) (i : I) : Prop :=
  (c.thread i).at_ = .checking → (c.thread i).call.outcome.isOk →
    ¬ c.shared.dedup.isProcessed (c.thread i).call.transactionId →
    ∀ j, ¬ (c.thread j).Between (c.thread i).call.transactionId

end Model

section Marks

open CheckThenMark

def ProcessAt.point : ProcessAt → Point
  | .checking => .checking
  | .handling => .acting
  | .marking => .marking
  | .skipped => .skipped
  | .failed => .failed
  | .returned => .done

def ProcessThread.mark (l : ProcessThread) : CheckThenMark.Call String where
  key := l.call.transactionId
  succeeds := l.call.outcome.isOk
  point := l.at_.point

def HandlerState.marks (s : HandlerState) : Marks String where
  seen := s.dedup.processed.keys
  acted := s.completed

def HandlerState.HasRoom (s : HandlerState) : Prop := s.dedup.len < s.dedup.maxEntries

theorem mem_processed_keys (svc : IdempotencyService) (id : String) :
    id ∈ svc.processed.keys ↔ svc.isProcessed id := by
  rw [mem_keys_iff, IdempotencyService.isProcessed]

theorem process_view (s : HandlerState) (l : ProcessThread) (room : s.HasRoom) :
    CheckThenMark.system.step s.marks l.mark =
      (processors.step s l).map (Prod.map HandlerState.marks ProcessThread.mark) := by
  obtain ⟨call, at_⟩ := l
  cases at_ with
  | checking =>
    have known := mem_processed_keys s.dedup call.transactionId
    by_cases duplicate : s.dedup.isProcessed call.transactionId
    · simp [CheckThenMark.system, CheckThenMark.step, processors, processStep, ProcessThread.mark,
        ProcessAt.point, HandlerState.marks, known, duplicate]
    · simp [CheckThenMark.system, CheckThenMark.step, processors, processStep, ProcessThread.mark,
        ProcessAt.point, HandlerState.marks, known, duplicate]
  | handling =>
    by_cases good : call.outcome.isOk
    · simp [CheckThenMark.system, CheckThenMark.step, processors, processStep, ProcessThread.mark,
        ProcessAt.point, HandlerState.marks, good]
    · simp [CheckThenMark.system, CheckThenMark.step, processors, processStep, ProcessThread.mark,
        ProcessAt.point, HandlerState.marks, good]
  | marking =>
    have kept : (s.dedup.markProcessed call.now call.iteration call.transactionId).processed.keys =
        insert call.transactionId s.dedup.processed.keys := by
      rw [IdempotencyService.markProcessed, if_neg (Nat.not_le.mpr room), keys_insert]
    exact congrArg (fun seen => some (Marks.mk seen s.completed, _)) kept.symm
  | skipped => rfl
  | failed => rfl
  | returned => rfl

variable {I : Type}

theorem checksItsIdAlone_iff (c : Config I HandlerState ProcessThread) (i : I) :
    ChecksItsIdAlone c i ↔ ChecksAlone (c.view HandlerState.marks ProcessThread.mark) i := by
  have inside (j : I) (id : String) : (c.thread j).Between id ↔ (c.thread j).mark.Inside id := by
    refine and_congr_right fun _ => and_congr_right fun _ => ?_
    cases at_ : (c.thread j).at_ <;> simp [ProcessThread.mark, ProcessAt.point, at_]
  have checking : (c.thread i).at_ = .checking ↔ (c.thread i).mark.point = .checking := by
    cases at_ : (c.thread i).at_ <;> simp [ProcessThread.mark, ProcessAt.point, at_]
  have unseen := not_congr (mem_processed_keys c.shared.dedup (c.thread i).call.transactionId).symm
  refine imp_congr checking (imp_congr Iff.rfl (imp_congr unseen ?_))
  exact forall_congr' fun j => not_congr (inside j _)

theorem processesReturned_iff (c : Config I HandlerState ProcessThread) :
    ProcessesReturned c ↔ Returned (c.view HandlerState.marks ProcessThread.mark) := by
  refine forall_congr' fun i => ?_
  change _ ↔ (c.thread i).at_.point = .skipped ∨ (c.thread i).at_.point = .failed ∨ (c.thread i).at_.point = .done
  cases (c.thread i).at_ <;> simp [ProcessAt.point]

end Marks

section Room

def HandlerState.Recorded (s : HandlerState) : Prop := s.dedup.processed.keys ⊆ s.marked

theorem markProcessed_keys_subset (call : ProcessCall) (svc : IdempotencyService) :
    (svc.markProcessed call.now call.iteration call.transactionId).processed.keys ⊆
      insert call.transactionId svc.processed.keys := by
  rw [IdempotencyService.markProcessed, keys_insert]
  apply Finset.insert_subset_insert
  split
  · exact (keys_eraseEach _ svc.processed).trans_subset Finset.sdiff_subset
  · exact Finset.Subset.refl _

theorem markProcessed_maxEntries (call : ProcessCall) (svc : IdempotencyService) :
    (svc.markProcessed call.now call.iteration call.transactionId).maxEntries = svc.maxEntries := by
  rw [IdempotencyService.markProcessed]
  split <;> rfl

structure Grows (s s' : HandlerState) : Prop where
  marked : s.marked ⊆ s'.marked
  maxEntries : s'.dedup.maxEntries = s.dedup.maxEntries
  recorded : s.Recorded → s'.Recorded

theorem processStep_grows {s s' : HandlerState} {l l' : ProcessThread}
    (taken : processStep s l = some (s', l')) : Grows s s' := by
  have same : Grows s s := ⟨Finset.Subset.refl _, rfl, id⟩
  obtain ⟨call, at_⟩ := l
  cases at_ with
  | checking =>
    simp only [processStep] at taken
    split at taken <;> cases taken <;> exact same
  | handling =>
    simp only [processStep] at taken
    split at taken <;> cases taken
    · exact ⟨Finset.Subset.refl _, rfl, id⟩
    · exact same
  | marking =>
    cases taken
    refine ⟨Finset.subset_insert _ _, markProcessed_maxEntries call s.dedup, fun recorded => ?_⟩
    exact (markProcessed_keys_subset call s.dedup).trans (Finset.insert_subset_insert _ recorded)
  | skipped => cases taken
  | failed => cases taken
  | returned => cases taken

variable {I : Type} [DecidableEq I] {c : Config I HandlerState ProcessThread}

theorem fire_grows (c : Config I HandlerState ProcessThread) (i : I) :
    Grows c.shared (processors.fire c i).shared := by
  unfold System.fire
  split
  · exact ⟨Finset.Subset.refl _, rfl, id⟩
  · next taken => exact processStep_grows taken

def HandlerState.FewMarked (s : HandlerState) : Prop := s.marked.card < s.dedup.maxEntries

theorem hasRoom_of_final {schedule : List I} (recorded : c.shared.Recorded)
    (few : (processors.run c schedule).shared.FewMarked) :
    processors.RunMeets (fun d _ => d.shared.HasRoom) c schedule := by
  have back (d : Config I HandlerState ProcessThread) (i : I) (next : (processors.fire d i).shared.FewMarked) :
      d.shared.FewMarked := by
    obtain ⟨marked, maxEntries, -⟩ := fire_grows d i
    unfold HandlerState.FewMarked at next ⊢
    rw [maxEntries] at next
    exact Nat.lt_of_le_of_lt (Finset.card_le_card marked) next
  have all : processors.RunMeets (fun d _ => d.shared.Recorded) c schedule :=
    Runs.meets_of_invariant (fun _ _ inv => inv) (fun d i => (fire_grows d i).recorded) c schedule recorded
  have fewAll := (Runs.meets_of_final (fun d : Config I HandlerState ProcessThread => d.shared.FewMarked) back few).2
  refine (all.and fewAll).imp fun d i both => ?_
  exact Nat.lt_of_le_of_lt (Finset.card_le_card both.1) both.2

end Room

section Runs

open CheckThenMark

variable {I : Type} [DecidableEq I] {maxEntries : Nat} {calls : I → ProcessCall} {schedule : List I}

theorem process_run_marks (few : (processors.run (processStart maxEntries calls) schedule).shared.FewMarked) :
    (processors.run (processStart maxEntries calls) schedule).view HandlerState.marks ProcessThread.mark =
      CheckThenMark.system.run (CheckThenMark.start (fun i => (calls i).transactionId) fun i =>
        (calls i).outcome.isOk) schedule := by
  have each (c : Config I HandlerState ProcessThread) (i : I) (room : c.shared.HasRoom) :=
    process_view c.shared (c.thread i) room
  have recorded : (processStart maxEntries calls).shared.Recorded := Finset.Subset.refl _
  exact (System.run_view each (hasRoom_of_final recorded few)).symm

theorem checksItsIdAlone_run_iff
    (few : (processors.run (processStart maxEntries calls) schedule).shared.FewMarked) :
    processors.RunMeets ChecksItsIdAlone (processStart maxEntries calls) schedule ↔
      CheckThenMark.system.RunMeets ChecksAlone (CheckThenMark.start (fun i => (calls i).transactionId) fun i =>
        (calls i).outcome.isOk) schedule := by
  have each (c : Config I HandlerState ProcessThread) (i : I) (room : c.shared.HasRoom) :=
    process_view c.shared (c.thread i) room
  have recorded : (processStart maxEntries calls).shared.Recorded := Finset.Subset.refl _
  have same := System.runMeets_view ChecksAlone each (hasRoom_of_final recorded few)
  exact (Runs.meets_congr checksItsIdAlone_iff).trans same.symm

variable [Fintype I] (maxEntries calls schedule)

/-- As long as fewer ids have been marked than there is room for, no id has two successful handler runs
in a run whose checks are alone, and of the runs in which all calls return only these have none. -/
theorem handled_once_iff :
    (processors.RunMeets ChecksItsIdAlone (processStart maxEntries calls) schedule →
      Runs.Throughout processors.fire
        (fun c => c.shared.FewMarked → ∀ id, c.shared.completed.count id ≤ 1)
        (processStart maxEntries calls) schedule) ∧
    (ProcessesReturned (processors.run (processStart maxEntries calls) schedule) →
      (processors.run (processStart maxEntries calls) schedule).shared.FewMarked →
      ((∀ id, (processors.run (processStart maxEntries calls) schedule).shared.completed.count id ≤ 1) ↔
        processors.RunMeets ChecksItsIdAlone (processStart maxEntries calls) schedule)) := by
  constructor
  · rintro alone first second rfl few id
    have early := (checksItsIdAlone_run_iff few).mp (Runs.meets_append.mp alone).1
    have once : (CheckThenMark.system.run _ first).shared.acted.count id ≤ 1 :=
      acted_at_most_once early first [] (List.append_nil first).symm id
    rwa [← process_run_marks few] at once
  · intro returned few
    have allReturned := (processesReturned_iff _).mp returned
    rw [process_run_marks few] at allReturned
    rw [checksItsIdAlone_run_iff few, ← returned_at_most_once_iff allReturned, ← process_run_marks few]
    rfl

-- The second delivery is checked before the first is marked. Nothing is evicted.
theorem redelivery_handled_twice :
    let final := processors.run
      (processStart IdempotencyService.defaultMaxEntries fun _ : Bool => ⟨"tx-1", .ok (), ⟨0⟩, fun _ => []⟩)
      [false, true, false, true, false, true]
    ProcessesReturned final ∧ final.shared.FewMarked ∧ final.shared.completed.count "tx-1" = 2 := by
  intro final
  have returned : ProcessesReturned final := fun i => by cases i <;> exact Or.inr (Or.inr rfl)
  have few : final.shared.marked.card < final.shared.dedup.maxEntries := by decide +kernel
  exact ⟨returned, few, by decide +kernel⟩

end Runs

end BankingLedger
