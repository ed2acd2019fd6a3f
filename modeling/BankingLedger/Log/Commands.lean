import BankingLedger.Log.EventStore

set_option autoImplicit false

namespace BankingLedger

open Runs

section Idempotence

/-- Whatever the handler does, processing the command runs none of it, keeps the store and answers
with these events. -/
def EventStore.Repeats (store : EventStore) (command : Command) (events : List Event) : Prop :=
  ∀ (m : Type → Type) [Monad m] (handler : Command → m (List Event)),
    processCommandIdempotent command handler store = pure (.ok events, store)

def LeavesAggregate (aggregateId : Uuid) (store : EventStore) (call : CommandCall) : Prop :=
  store.isDuplicate call.1.id = true ∨ ∀ event ∈ call.2 call.1, event.aggregateId ≠ aggregateId

variable {store : EventStore} {command : Command} {aggregateId : Uuid}

theorem leavesAggregate_iff {call : CommandCall} : LeavesAggregate aggregateId store call ↔
    (appended store call).filter (fun e => e.aggregateId = aggregateId) = [] := by
  cases seen : store.isDuplicate call.1.id <;>
    simp [LeavesAggregate, appended, seen, List.filter_eq_nil_iff]

theorem repeats_iff {events : List Event} : store.Repeats command events ↔
    store.isDuplicate command.id = true ∧ store.eventsForAggregate command.aggregateId = events := by
  constructor
  · intro quiet
    cases seen : store.isDuplicate command.id with
    | true =>
      refine ⟨rfl, ?_⟩
      have same : answerCommand store (command, fun _ => []) = (.ok events, store) := quiet Id _
      rw [answerCommand_of_duplicate seen] at same
      exact Except.ok.inj (congrArg Prod.fst same)
    | false =>
      -- Two handlers that return different events are told apart.
      have answers (handler : Command → List Event) : handler command = events := by
        have same : answerCommand store (command, handler) = (.ok events, store) := quiet Id handler
        rw [answerCommand_of_new seen] at same
        exact Except.ok.inj (congrArg Prod.fst same)
      have none := answers fun _ => []
      have one := answers fun _ => [.new ⟨0⟩ ⟨0⟩ "" ⟨0⟩ "" 0]
      cases none.trans one.symm
  · rintro ⟨seen, rfl⟩ m _ handler
    simp [processCommandIdempotent, seen]

theorem EventStore.aggregateId_of_mem {events : List Event}
    (same : store.eventsForAggregate aggregateId = events) :
    ∀ event ∈ events, event.aggregateId = aggregateId := by
  rw [← same]
  intro event member
  simpa using (List.mem_filter.mp member).2

-- An aggregate has the events of one call and no others only if they are all its own.
theorem EventStore.eventsForAggregate_eq_iff {before events later : List Event}
    (grown : store.eventsForAggregate aggregateId =
      before ++ events.filter (fun e => e.aggregateId = aggregateId) ++ later) :
    store.eventsForAggregate aggregateId = events ↔
      (∀ event ∈ events, event.aggregateId = aggregateId) ∧ before = [] ∧ later = [] := by
  constructor
  · intro same
    have own := EventStore.aggregateId_of_mem same
    have all : events.filter (fun e => e.aggregateId = aggregateId) = events := by
      simpa [List.filter_eq_self] using own
    rw [grown, all] at same
    have lengths := congrArg List.length same
    simp only [List.length_append] at lengths
    exact ⟨own, List.eq_nil_of_length_eq_zero (by omega), List.eq_nil_of_length_eq_zero (by omega)⟩
  · rintro ⟨own, rfl, rfl⟩
    rw [grown, List.append_nil, List.nil_append, List.filter_eq_self]
    simpa using own

theorem run_isDuplicate {calls : List CommandCall} (others : ∀ call ∈ calls, call.1.id ≠ command.id) :
    (run handleCommand store calls).isDuplicate command.id = store.isDuplicate command.id := by
  induction calls generalizing store with
  | nil => rfl
  | cons call rest ih =>
    rw [List.forall_mem_cons] at others
    rw [run_cons, ih others.2, Bool.eq_iff_iff, handleCommand_isDuplicate]
    simp [Ne.symm others.1]

theorem run_eventsForAggregate (calls : List CommandCall) :
    ∃ later, (run handleCommand store calls).eventsForAggregate aggregateId =
        store.eventsForAggregate aggregateId ++ later ∧
      (later = [] ↔ Meets handleCommand (LeavesAggregate aggregateId) store calls) := by
  induction calls generalizing store with
  | nil => exact ⟨[], by simp, by simp [Meets]⟩
  | cons call rest ih =>
    obtain ⟨later, grown, none⟩ := @ih (handleCommand store call)
    refine ⟨(appended store call).filter (fun e => e.aggregateId = aggregateId) ++ later, ?_, ?_⟩
    · rw [run_cons, grown, handleCommand_eventsForAggregate, List.append_assoc]
    · rw [List.append_eq_nil_iff, none, Meets, leavesAggregate_iff]

end Idempotence

/-- A repeated command gets its first answer again exactly when no command in between adds events of
its aggregate and, if it was new at first, it led to events, all of them of its aggregate, which had
none before. -/
theorem command_repeats_iff (store : EventStore) (command : Command) (handler : Command → List Event)
    (events : List Event) (answered : (answerCommand store (command, handler)).1 = .ok events)
    (calls : List CommandCall) (others : ∀ call ∈ calls, call.1.id ≠ command.id) :
    let first := handleCommand store (command, handler)
    (run handleCommand first calls).Repeats command events ↔
      (store.isDuplicate command.id = true ∨
          events ≠ [] ∧ (∀ event ∈ events, event.aggregateId = command.aggregateId) ∧
            store.eventsForAggregate command.aggregateId = []) ∧
        Meets handleCommand (LeavesAggregate command.aggregateId) first calls := by
  intro first
  have remembered : first.isDuplicate command.id = true ↔
      store.isDuplicate command.id = true ∨ appended store (command, handler) ≠ [] := by
    simp [first, handleCommand_isDuplicate]
  obtain ⟨later, grown, none⟩ := @run_eventsForAggregate first command.aggregateId calls
  rw [handleCommand_eventsForAggregate] at grown
  rw [repeats_iff, run_isDuplicate others, remembered, ← none]
  cases seen : store.isDuplicate command.id with
  | true =>
    rw [answerCommand_of_duplicate seen] at answered
    cases answered
    simp [grown, appended, seen]
  | false =>
    rw [answerCommand_of_new seen] at answered
    cases answered
    have added : appended store (command, handler) = handler command := by simp [appended, seen]
    rw [added] at grown ⊢
    rw [EventStore.eventsForAggregate_eq_iff grown]
    simp only [Bool.false_eq_true, false_or, and_assoc]

namespace Sample

def deposit (id aggregateId : Nat) (expectedVersion : Option UInt64) : Command :=
  { id := ⟨id⟩, commandType := "Deposit", aggregateId := ⟨aggregateId⟩, payload := "{}", expectedVersion }

def depositing (version : UInt64) (command : Command) : List Event :=
  [.new command.id ⟨0⟩ "FundsDeposited" command.aggregateId command.payload version]

end Sample

open Sample

/-- The first deposit is answered with one event, and with two once another one has been made. -/
theorem repeated_deposit_differs :
    let first := handleCommand .new (deposit 10 1 none, depositing 1)
    let second := handleCommand first (deposit 20 1 none, depositing 2)
    (answerCommand .new (deposit 10 1 none, depositing 1)).1 =
        .ok (depositing 1 (deposit 10 1 none)) ∧
      (answerCommand second (deposit 10 1 none, depositing 1)).1 =
        .ok (depositing 1 (deposit 10 1 none) ++ depositing 2 (deposit 20 1 none)) ∧
      ¬ second.Repeats (deposit 10 1 none) (depositing 1 (deposit 10 1 none)) := by
  intro first second
  refine ⟨by decide +kernel, by decide +kernel, fun quiet => ?_⟩
  have same : answerCommand second (deposit 10 1 none, depositing 1) = (.ok _, second) := quiet Id _
  exact absurd (congrArg Prod.fst same) (by decide +kernel)

theorem command_repeats_iff_deposit :
    (run handleCommand (handleCommand .new (deposit 10 1 none, depositing 1))
        [(deposit 20 2 none, depositing 1)]).Repeats
      (deposit 10 1 none) (depositing 1 (deposit 10 1 none)) := by
  refine (command_repeats_iff .new (deposit 10 1 none) (depositing 1) _ rfl
    [(deposit 20 2 none, depositing 1)] (by decide)).mpr ?_
  exact ⟨.inr ⟨by decide, by decide, rfl⟩, .inr (by decide), trivial⟩

section Versions

def EventStore.versions (aggregateId : Uuid) (store : EventStore) : List Nat :=
  (store.eventsForAggregate aggregateId).map fun e => e.aggregateVersion.toNat

-- The highest version stored for the aggregate, 0 if there is none.
def EventStore.currentVersion (aggregateId : Uuid) (store : EventStore) : Nat :=
  (store.versions aggregateId).foldr max 0

/-- A new command that expects another version is refused and changes nothing. -/
def ChecksVersion (store : EventStore) (call : CommandCall) : Prop :=
  store.isDuplicate call.1.id = false → ∀ version, call.1.expectedVersion = some version →
    version.toNat ≠ store.currentVersion call.1.aggregateId →
      answerCommand store call = (.error (.versionConflict version
        (.ofNat (store.currentVersion call.1.aggregateId))), store)

def ExpectsCurrent (store : EventStore) (call : CommandCall) : Prop :=
  store.isDuplicate call.1.id = true ∨ ∀ version, call.1.expectedVersion = some version →
    version.toNat = store.currentVersion call.1.aggregateId

def NumbersOn (call : CommandCall) : Prop :=
  (∀ event ∈ call.2 call.1, event.aggregateId = call.1.aggregateId) ∧
    ∃ version, call.1.expectedVersion = some version ∧
      (call.2 call.1).map (fun e => e.aggregateVersion.toNat) =
        List.range' (version.toNat + 1) (call.2 call.1).length

def EventStore.Ordered (store : EventStore) : Prop :=
  ∀ aggregateId, (store.versions aggregateId).Pairwise (· < ·)

-- The expected version may be ahead of the stored ones.
def ExpectsEnough (store : EventStore) (call : CommandCall) : Prop :=
  store.isDuplicate call.1.id = true ∨ call.2 call.1 = [] ∨
    ∀ version, call.1.expectedVersion = some version →
      store.currentVersion call.1.aggregateId ≤ version.toNat

variable {store : EventStore} {call : CommandCall}

theorem checksVersion_iff : ChecksVersion store call ↔ ExpectsCurrent store call := by
  cases seen : store.isDuplicate call.1.id with
  | true => simp [ChecksVersion, ExpectsCurrent, seen]
  | false =>
    simp only [ChecksVersion, ExpectsCurrent, seen, answerCommand_of_new seen, forall_const,
      Bool.false_eq_true, false_or, Prod.mk.injEq, reduceCtorEq, false_and, imp_false, not_not]

theorem ExpectsCurrent.enough (expects : ExpectsCurrent store call) : ExpectsEnough store call := by
  rcases expects with seen | same
  · exact .inl seen
  · exact .inr (.inr fun version expected => (same version expected).ge)

theorem foldr_max_le_iff {ns : List Nat} {bound : Nat} :
    ns.foldr max 0 ≤ bound ↔ ∀ n ∈ ns, n ≤ bound := by
  induction ns with
  | nil => simp
  | cons n rest ih => simp [ih]

-- Numbers counted on from `bound` keep a list in order if its own do not exceed it.
theorem pairwise_numbered_iff {ns : List Nat} {bound count : Nat} (sorted : ns.Pairwise (· < ·)) :
    (ns ++ List.range' (bound + 1) count).Pairwise (· < ·) ↔
      count = 0 ∨ ns.foldr max 0 ≤ bound := by
  rw [List.pairwise_append, foldr_max_le_iff, and_iff_right sorted,
    and_iff_right (List.pairwise_lt_range' ..)]
  constructor
  · intro below
    rcases Nat.eq_zero_or_pos count with none | some
    · exact .inl none
    · refine .inr fun n member => Nat.lt_succ_iff.mp (below n member (bound + 1) ?_)
      exact List.mem_range'_1.mpr ⟨le_refl _, by omega⟩
  · rintro (rfl | most) n member m numbered
    · simp at numbered
    · have := most n member
      have := (List.mem_range'_1.mp numbered).1
      omega

theorem versions_of_ne (numbers : NumbersOn call) {aggregateId : Uuid}
    (other : aggregateId ≠ call.1.aggregateId) :
    (handleCommand store call).versions aggregateId = store.versions aggregateId := by
  have none : LeavesAggregate aggregateId store call :=
    .inr fun event member same => other (same.symm.trans (numbers.1 event member))
  rw [EventStore.versions, handleCommand_eventsForAggregate, leavesAggregate_iff.mp none,
    List.append_nil, EventStore.versions]

theorem versions_of_new (numbers : NumbersOn call)
    (unseen : store.isDuplicate call.1.id = false) :
    (handleCommand store call).versions call.1.aggregateId =
      store.versions call.1.aggregateId ++ (call.2 call.1).map fun e => e.aggregateVersion.toNat := by
  have own : (call.2 call.1).filter (fun e => e.aggregateId = call.1.aggregateId) = call.2 call.1 := by
    simpa [List.filter_eq_self] using numbers.1
  rw [EventStore.versions, handleCommand_eventsForAggregate, appended, if_neg (by simp [unseen]), own,
    List.map_append, EventStore.versions]

theorem handleCommand_ordered_iff (numbers : NumbersOn call) (ordered : store.Ordered) :
    (handleCommand store call).Ordered ↔ ExpectsEnough store call := by
  cases seen : store.isDuplicate call.1.id with
  | true =>
    have same : handleCommand store call = store := by
      rw [handleCommand, answerCommand_of_duplicate seen]
    rw [same]
    exact iff_of_true ordered (.inl seen)
  | false =>
    obtain ⟨-, version, expected, numbered⟩ := id numbers
    have own : ((handleCommand store call).versions call.1.aggregateId).Pairwise (· < ·) ↔
        ExpectsEnough store call := by
      rw [versions_of_new numbers seen, numbered, pairwise_numbered_iff (ordered _)]
      simp [ExpectsEnough, seen, expected, EventStore.currentVersion, List.length_eq_zero_iff]
    rw [← own]
    constructor
    · exact fun all => all call.1.aggregateId
    · intro here aggregateId
      by_cases same : aggregateId = call.1.aggregateId
      · rw [same]
        exact here
      · rw [versions_of_ne numbers same]
        exact ordered aggregateId

end Versions

theorem events_ordered_iff {calls : List CommandCall} (numbers : ∀ call ∈ calls, NumbersOn call) :
    Throughout handleCommand EventStore.Ordered .new calls ↔
      Meets handleCommand ExpectsEnough .new calls := by
  refine throughout_iff_meets_of_mem (fun store call member ordered => ?_) ?_
  · exact handleCommand_ordered_iff (numbers call member) ordered
  · intro aggregateId
    simp [EventStore.versions, EventStore.eventsForAggregate, EventStore.new]

/-- Every command of the run is checked, and events stay in order where handlers number on, exactly
when no new command expects a version that is not the current one. -/
theorem versions_checked_iff (calls : List CommandCall) :
    (Meets handleCommand ChecksVersion .new calls ∧
        ((∀ call ∈ calls, NumbersOn call) → Throughout handleCommand EventStore.Ordered .new calls)) ↔
      Meets handleCommand ExpectsCurrent .new calls := by
  have checked : Meets handleCommand ChecksVersion .new calls ↔
      Meets handleCommand ExpectsCurrent .new calls :=
    meets_congr fun _ _ => checksVersion_iff
  rw [checked]
  refine and_iff_left_of_imp fun expects numbers => ?_
  exact (events_ordered_iff numbers).mpr (expects.imp fun _ _ => ExpectsCurrent.enough)

open Sample in
/-- Both deposits expect an empty aggregate, both are taken, and both events are version 1. -/
theorem stale_version_accepted :
    let calls : List CommandCall :=
      [(deposit 10 1 (some 0), depositing 1), (deposit 20 1 (some 0), depositing 1)]
    (∀ call ∈ calls, NumbersOn call) ∧ ¬ Meets handleCommand ChecksVersion .new calls ∧
      (run handleCommand .new calls).versions ⟨1⟩ = [1, 1] ∧
      ¬ Throughout handleCommand EventStore.Ordered .new calls := by
  intro calls
  have versions : (run handleCommand .new calls).versions ⟨1⟩ = [1, 1] := by decide +kernel
  refine ⟨?_, ?_, versions, ?_⟩
  · rw [List.forall_mem_cons, List.forall_mem_singleton]
    exact ⟨⟨by decide, 0, rfl, by decide⟩, ⟨by decide, 0, rfl, by decide⟩⟩
  · rintro ⟨-, checked, -⟩
    exact absurd (checked (by decide) 0 rfl (by decide +kernel)) (by decide +kernel)
  · intro ordered
    have sorted := ordered calls [] (List.append_nil _).symm ⟨1⟩
    rw [versions] at sorted
    exact absurd sorted (by decide)

end BankingLedger
