import BankingLedger.Service.SagaRuns

set_option autoImplicit false

namespace BankingLedger

open FiniteMap Runs SagaOrchestrator

/-- The orchestrator, with the compensations of the steps that each instance has completed, as they were
defined when it did. -/
structure RecordedSagas where
  orchestrator : SagaOrchestrator
  done : Map SagaId (List SagaAction)

namespace RecordedSagas

def new : RecordedSagas := { orchestrator := .new, done := ∅ }

def doneOf (s : RecordedSagas) (id : SagaId) : List SagaAction := (s.done.lookup id).getD []

def pending (o : SagaOrchestrator) (id : SagaId) : Option SagaAction := do
  let saga ← o.activeSagas.lookup id
  let definition ← o.definitions.lookup saga.definitionName
  let step ← definition.steps[saga.currentStep]?
  return step.compensation

/-- An instance that has been completed is no longer active, and so asks for no compensation. -/
def record (s : RecordedSagas) : SagaCall → SagaReply → Map SagaId (List SagaAction)
  | .start id _, .started (.ok _) => s.done.insert id []
  | .stepSucceeded id, .succeeded (.ok false) =>
    s.done.insert id (s.doneOf id ++ (pending s.orchestrator id).toList)
  | _, _ => s.done

def step (s : RecordedSagas) (call : SagaCall) : RecordedSagas :=
  match s.orchestrator.handle call with
  | none => s
  | some (reply, o) => { orchestrator := o, done := s.record call reply }

/-- No call panics, and a failure gives back the compensations of the steps done, in reverse. -/
structure Compensates (s : RecordedSagas) : Prop where
  answers : ∀ call, (s.orchestrator.handle call).isSome
  compensations : ∀ id saga error, s.orchestrator.activeSagas.lookup id = some saga →
    ∃ o, s.orchestrator.stepFailed id error = some (.ok (s.doneOf id).reverse, o)

-- The steps that a definition begins with, as an instance would undo them.
def undoing (definition : SagaDefinition) (saga : SagaInstance) : List SagaAction :=
  (definition.steps.take saga.currentStep).map SagaStep.compensation

/-- A definition that replaces another gives the steps that instances have completed the compensations
that they had. -/
def KeepsDone (s : RecordedSagas) : SagaCall → Prop
  | .register definition => ∀ id saga, s.orchestrator.activeSagas.lookup id = some saga →
    saga.definitionName = definition.name → undoing definition saga = s.doneOf id
  | _ => True

structure Tracked (s : RecordedSagas) (id : SagaId) (saga : SagaInstance) : Prop where
  inOrder : saga.completedSteps = List.range saga.currentStep
  counted : (s.doneOf id).length = saga.currentStep
  known : ∃ definition, s.orchestrator.definitions.lookup saga.definitionName = some definition

def AllTracked (s : RecordedSagas) : Prop :=
  ∀ id saga, s.orchestrator.activeSagas.lookup id = some saga → s.Tracked id saga

def AsDefined (s : RecordedSagas) : Prop :=
  ∀ id saga definition, s.orchestrator.activeSagas.lookup id = some saga →
    s.orchestrator.definitions.lookup saga.definitionName = some definition → undoing definition saga = s.doneOf id

section Compensations

variable {s : RecordedSagas} {id : SagaId} {saga : SagaInstance} {definition : SagaDefinition} {k : Nat}

theorem within_of_collected {steps : List SagaStep} {actions : List SagaAction}
    (collected : ((List.range k).reverse.mapM fun idx => (steps[idx]?).map SagaStep.compensation) = some actions) :
    k ≤ steps.length := by
  cases k with
  | zero => exact Nat.zero_le _
  | succ k =>
    rw [List.range_succ, List.reverse_append, List.reverse_singleton, List.singleton_append,
      List.mapM_cons] at collected
    obtain ⟨last, at_k, -⟩ := Option.bind_eq_some_iff.mp collected
    obtain ⟨step, found, -⟩ := Option.map_eq_some_iff.mp at_k
    obtain ⟨within, -⟩ := List.getElem?_eq_some_iff.mp found
    exact within

theorem Tracked.within (tracked : s.Tracked id saga) (same : undoing definition saga = s.doneOf id) :
    saga.currentStep ≤ definition.steps.length := by
  have lengths := congrArg List.length same
  rw [undoing, List.length_map, List.length_take, tracked.counted] at lengths
  omega

theorem Tracked.collected_iff (tracked : s.Tracked id saga) :
    compensationsOf saga definition = some (s.doneOf id).reverse ↔ undoing definition saga = s.doneOf id := by
  rw [compensationsOf, tracked.inOrder]
  constructor
  · intro collected
    rw [compensations_range (within_of_collected collected), Option.some.injEq] at collected
    exact List.reverse_injective collected
  · intro same
    rw [compensations_range (tracked.within same)]
    exact congrArg (fun actions => some actions.reverse) same

theorem stepFailed_active {o : SagaOrchestrator} (active : o.activeSagas.lookup id = some saga)
    (found : o.definitions.lookup saga.definitionName = some definition) (error : String) :
    o.stepFailed id error = (compensationsOf saga definition).map fun compensations =>
      (.ok compensations, { o with activeSagas := o.activeSagas.insert id (saga.startCompensating error) }) := by
  simp only [SagaOrchestrator.stepFailed, active, found]
  rfl

theorem answers_of_known {o : SagaOrchestrator}
    (known : ∀ id saga, o.activeSagas.lookup id = some saga →
      ∃ definition, o.definitions.lookup saga.definitionName = some definition)
    (call : SagaCall) (notFailed : ∀ id error, call = .stepFailed id error → (o.stepFailed id error).isSome) :
    (o.handle call).isSome := by
  cases call with
  | register | start | compensationComplete => rfl
  | nextAction id =>
    cases active : o.activeSagas.lookup id with
    | none => simp [handle, nextAction, active]
    | some saga =>
      obtain ⟨definition, found⟩ := known id saga active
      simp only [handle, nextAction, active, found, Option.isSome_map]
      split
      next => rfl
      next => split <;> rfl
  | stepSucceeded id =>
    cases active : o.activeSagas.lookup id with
    | none => simp [handle, stepSucceeded, active]
    | some saga =>
      obtain ⟨definition, found⟩ := known id saga active
      simp only [handle, stepSucceeded, active, found, Option.isSome_map]
      split <;> rfl
  | stepFailed id error =>
    rw [handle, Option.isSome_map]
    exact notFailed id error rfl

theorem compensates_iff (tracked : s.AllTracked) : s.Compensates ↔ s.AsDefined := by
  constructor
  · intro compensates id saga definition active found
    obtain ⟨o, failed⟩ := compensates.compensations id saga "" active
    rw [stepFailed_active active found] at failed
    obtain ⟨actions, collected, result⟩ := Option.map_eq_some_iff.mp failed
    cases result
    exact (tracked id saga active).collected_iff.mp collected
  · intro asDefined
    have failed : ∀ id saga error, s.orchestrator.activeSagas.lookup id = some saga →
        ∃ o, s.orchestrator.stepFailed id error = some (.ok (s.doneOf id).reverse, o) := by
      intro id saga error active
      obtain ⟨definition, found⟩ := (tracked id saga active).known
      have same := asDefined id saga definition active found
      rw [stepFailed_active active found, (tracked id saga active).collected_iff.mpr same]
      exact ⟨_, rfl⟩
    refine ⟨fun call => ?_, failed⟩
    refine answers_of_known (fun id saga active => (tracked id saga active).known) call ?_
    intro id error _
    cases active : s.orchestrator.activeSagas.lookup id with
    | none => simp [SagaOrchestrator.stepFailed, active]
    | some saga =>
      obtain ⟨o, answer⟩ := failed id saga error active
      rw [answer]
      rfl

end Compensations

section Step

variable {s : RecordedSagas} {o o' : SagaOrchestrator} {call : SagaCall} {reply : SagaReply} {id key : SagaId}
  {saga : SagaInstance} {definition : SagaDefinition} {actions : List SagaAction}

theorem doneOf_insert (o : SagaOrchestrator) (key : SagaId) (actions : List SagaAction) (id : SagaId) :
    RecordedSagas.doneOf { orchestrator := o, done := s.done.insert key actions } id =
      if id = key then actions else s.doneOf id := by
  rw [doneOf, lookup_insert_eq]
  by_cases same : id = key
  next => rw [if_pos same, if_pos same, Option.getD_some]
  next =>
    rw [if_neg same, if_neg same]
    rfl

theorem doneOf_insert_ne (o : SagaOrchestrator) (key : SagaId) (actions : List SagaAction) (id : SagaId)
    (apart : id ≠ key) :
    RecordedSagas.doneOf { orchestrator := o, done := s.done.insert key actions } id = s.doneOf id := by
  rw [doneOf_insert, if_neg apart]

theorem pending_eq (active : o.activeSagas.lookup id = some saga)
    (found : o.definitions.lookup saga.definitionName = some definition)
    (within : saga.currentStep < definition.steps.length) :
    pending o id = some (definition.steps[saga.currentStep]).compensation := by
  simp [pending, active, found, within]

-- A call that stores one instance leaves the others, and what they have done, alone.
section Stored

variable {done : Map SagaId (List SagaAction)}
  (definitions : o.definitions = s.orchestrator.definitions)
  (active : o.activeSagas = s.orchestrator.activeSagas.insert key saga)
  (kept : ∀ id, id ≠ key → RecordedSagas.doneOf { orchestrator := o, done } id = s.doneOf id)

include definitions active kept

theorem AllTracked.insert (all : s.AllTracked)
    (tracked : RecordedSagas.Tracked { orchestrator := o, done } key saga) :
    RecordedSagas.AllTracked { orchestrator := o, done } := by
  intro id other found
  change o.activeSagas.lookup id = some other at found
  rw [active, lookup_insert_eq] at found
  by_cases same : id = key
  next =>
    rw [if_pos same] at found
    cases found
    exact same ▸ tracked
  next =>
    rw [if_neg same] at found
    obtain ⟨inOrder, counted, known⟩ := all id other found
    refine ⟨inOrder, ?_, ?_⟩
    · rw [kept id same, counted]
    · change ∃ definition, o.definitions.lookup other.definitionName = some definition
      rwa [definitions]

theorem AsDefined.insert (asDefined : s.AsDefined)
    (undone : ∀ definition, s.orchestrator.definitions.lookup saga.definitionName = some definition →
      undoing definition saga = RecordedSagas.doneOf { orchestrator := o, done } key) :
    RecordedSagas.AsDefined { orchestrator := o, done } := by
  intro id other definition found known
  change o.activeSagas.lookup id = some other at found
  change o.definitions.lookup other.definitionName = some definition at known
  rw [definitions] at known
  rw [active, lookup_insert_eq] at found
  by_cases same : id = key
  next =>
    rw [if_pos same] at found
    cases found
    exact same ▸ undone definition known
  next =>
    rw [if_neg same] at found
    rw [kept id same]
    exact asDefined id other definition found known

end Stored

theorem AllTracked.step (all : s.AllTracked) (effect : Effect s.orchestrator call reply o') :
    RecordedSagas.AllTracked { orchestrator := o', done := s.record call reply } := by
  cases effect with
  | refused | asked | successMissing | failureMissing | completeMissing =>
    intro id saga found
    obtain ⟨inOrder, counted, known⟩ := all id saga found
    exact ⟨inOrder, counted, known⟩
  | registered definition =>
    intro id saga found
    obtain ⟨inOrder, counted, before, known⟩ := all id saga found
    refine ⟨inOrder, counted, ?_⟩
    by_cases same : saga.definitionName = definition.name
    next => exact ⟨definition, by rw [register, lookup_insert_eq, if_pos same]⟩
    next => exact ⟨before, by rw [register, lookup_insert_eq, if_neg same, known]⟩
  | @started key name definition known steps =>
    refine all.insert rfl rfl (doneOf_insert_ne _ key []) ⟨rfl, ?_, definition, known⟩
    rw [record, doneOf_insert, if_pos rfl]
    rfl
  | @advanced key before definition active known more =>
    have tracked := all key before active
    refine all.insert rfl rfl (doneOf_insert_ne _ key _) ⟨advance_inOrder tracked.inOrder, ?_, definition, known⟩
    rw [record, doneOf_insert, if_pos rfl, pending_eq active known (Nat.lt_of_succ_lt more), Option.toList_some,
      List.length_append, tracked.counted]
    rfl
  | finished =>
    intro id saga found
    obtain ⟨inOrder, counted, known⟩ := all id saga (lookup_of_erase found)
    exact ⟨inOrder, counted, known⟩
  | compensating active | failed active =>
    obtain ⟨inOrder, counted, known⟩ := all _ _ active
    exact all.insert rfl rfl (fun _ _ => rfl) ⟨inOrder, counted, known⟩

theorem asDefined_register_iff (asDefined : s.AsDefined) (definition : SagaDefinition) :
    RecordedSagas.AsDefined { s with orchestrator := s.orchestrator.register definition } ↔
      s.KeepsDone (.register definition) := by
  constructor
  · intro after id saga active named
    have found : (s.orchestrator.register definition).definitions.lookup saga.definitionName = some definition := by
      rw [register, lookup_insert_eq, if_pos named]
    exact after id saga definition active found
  · intro keeps id saga other active found
    rw [register, lookup_insert_eq] at found
    by_cases named : saga.definitionName = definition.name
    next =>
      rw [if_pos named] at found
      cases found
      exact keeps id saga active named
    next =>
      rw [if_neg named] at found
      exact asDefined id saga other active found

theorem AsDefined.step (asDefined : s.AsDefined) (effect : Effect s.orchestrator call reply o')
    (other : ∀ definition, call ≠ .register definition) :
    RecordedSagas.AsDefined { orchestrator := o', done := s.record call reply } := by
  cases effect with
  | registered definition => exact absurd rfl (other definition)
  | refused | asked | successMissing | failureMissing | completeMissing =>
    exact fun id saga definition active found => asDefined id saga definition active found
  | @started key name defined known steps =>
    refine asDefined.insert rfl rfl (doneOf_insert_ne _ key []) fun definition _ => ?_
    rw [record, doneOf_insert, if_pos rfl]
    rfl
  | @advanced key before defined current known more =>
    refine asDefined.insert rfl rfl (doneOf_insert_ne _ key _) fun definition found => ?_
    obtain rfl : definition = defined := Option.some.inj (found.symm.trans known)
    have within := Nat.lt_of_succ_lt more
    rw [record, doneOf_insert, if_pos rfl, ← asDefined key before definition current known,
      pending_eq current known within]
    change ((definition.steps.take (before.currentStep + 1)).map SagaStep.compensation) = _
    rw [List.take_succ_eq_append_getElem within, List.map_append]
    rfl
  | finished =>
    exact fun id saga definition active found => asDefined id saga definition (lookup_of_erase active) found
  | compensating before | failed before =>
    refine asDefined.insert rfl rfl (fun _ _ => rfl) fun definition found => ?_
    have same := asDefined _ _ definition before found
    exact same

end Step

section Runs

variable {s : RecordedSagas} {call : SagaCall}

theorem step_of_panic (panics : s.orchestrator.handle call = none) : s.step call = s := by
  rw [step, panics]

theorem step_of_answer {reply : SagaReply} {o : SagaOrchestrator}
    (answer : s.orchestrator.handle call = some (reply, o)) :
    s.step call = { orchestrator := o, done := s.record call reply } := by
  rw [step, answer]

theorem AllTracked.next (all : s.AllTracked) (call : SagaCall) : (s.step call).AllTracked := by
  cases answer : s.orchestrator.handle call with
  | none =>
    rw [step_of_panic answer]
    exact all
  | some result =>
    obtain ⟨reply, o⟩ := result
    rw [step_of_answer answer]
    exact all.step (handle_effect answer)

theorem AsDefined.next (asDefined : s.AsDefined) (other : ∀ definition, call ≠ .register definition) :
    (s.step call).AsDefined := by
  cases answer : s.orchestrator.handle call with
  | none =>
    rw [step_of_panic answer]
    exact asDefined
  | some result =>
    obtain ⟨reply, o⟩ := result
    rw [step_of_answer answer]
    exact asDefined.step (handle_effect answer) other

theorem asDefined_step_iff (asDefined : s.AsDefined) (call : SagaCall) :
    (s.step call).AsDefined ↔ s.KeepsDone call := by
  cases call with
  | register definition => exact asDefined_register_iff asDefined definition
  | _ => exact iff_of_true (asDefined.next fun _ same => SagaCall.noConfusion same) trivial

theorem allTracked_new : new.AllTracked := by
  intro id saga active
  cases active

theorem asDefined_new : new.AsDefined := by
  intro id saga definition active
  cases active

theorem compensates_step_iff (all : s.AllTracked) (compensates : s.Compensates) (call : SagaCall) :
    (s.step call).Compensates ↔ s.KeepsDone call := by
  rw [compensates_iff (all.next call)]
  exact asDefined_step_iff ((compensates_iff all).mp compensates) call

/-- Every run compensates the steps done as they were defined, and without a panic, exactly if no definition
is replaced by one that lacks or changes the compensation of a step that an active instance has completed. -/
theorem redefinition_safe_iff (calls : List SagaCall) :
    Throughout step Compensates new calls ↔ Meets step KeepsDone new calls := by
  refine throughout_iff_meets_of_invariant ?exactly ?keep allTracked_new ?start calls
  case exactly => exact fun s call all compensates => compensates_step_iff all compensates call
  case keep => exact fun s call all _ _ => all.next call
  case start => exact (compensates_iff allTracked_new).mpr asDefined_new

end Runs

end RecordedSagas

namespace SagaSample

def auditedTransfer : SagaDefinition :=
  { bankTransfer with steps := bankTransfer.steps ++ [{ action := .noOp, compensation := .noOp }] }

def directTransfer : SagaDefinition := { bankTransfer with steps := bankTransfer.steps.take 1 }

-- Two of three steps are done when the definition shrinks to one.
def redefinedRun : List SagaCall :=
  [.register auditedTransfer, .start sagaId "BankTransfer", .stepSucceeded sagaId, .stepSucceeded sagaId,
    .register directTransfer]

end SagaSample

open RecordedSagas SagaSample

/-- The step that has been completed is past the end of the new definition. -/
theorem redefined_saga_panics :
    (run step new redefinedRun).orchestrator.handle (.stepFailed sagaId "timeout") = none ∧
      ¬Throughout step Compensates new redefinedRun := by
  have panics : (run step new redefinedRun).orchestrator.handle (.stepFailed sagaId "timeout") = none := by
    decide +kernel
  refine ⟨panics, fun all => ?_⟩
  have answers := (all redefinedRun [] (List.append_nil _).symm).answers (.stepFailed sagaId "timeout")
  rw [panics] at answers
  cases answers

end BankingLedger
