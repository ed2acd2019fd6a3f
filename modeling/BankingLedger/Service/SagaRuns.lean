import BankingLedger.Service.Saga

set_option autoImplicit false

namespace BankingLedger

open FiniteMap

inductive SagaCall where
  | register (definition : SagaDefinition)
  | start (id : SagaId) (definitionName : String)
  | nextAction (id : SagaId)
  | stepSucceeded (id : SagaId)
  | stepFailed (id : SagaId) (error : String)
  | compensationComplete (id : SagaId)
deriving DecidableEq

inductive SagaReply where
  | done
  | started (result : Except SagaError SagaId)
  | next (result : Except SagaError (Nat × SagaAction))
  | succeeded (result : Except SagaError Bool)
  | compensations (result : Except SagaError (List SagaAction))

namespace SagaCall

def registers : SagaCall → Option String
  | .register definition => some definition.name
  | _ => none

def starts : SagaCall → Option SagaId
  | .start id _ => some id
  | _ => none

def names : SagaCall → Option SagaId
  | .register _ => none
  | .start id _ | .nextAction id | .stepSucceeded id | .stepFailed id _ | .compensationComplete id => some id

end SagaCall

namespace SagaOrchestrator

def handle (o : SagaOrchestrator) : SagaCall → Option (SagaReply × SagaOrchestrator)
  | .register definition => some (.done, o.register definition)
  | .start id name => some (.started (o.start id name).1, (o.start id name).2)
  | .nextAction id => (o.nextAction id).map fun result => (.next result, o)
  | .stepSucceeded id => (o.stepSucceeded id).map fun result => (.succeeded result.1, result.2)
  | .stepFailed id error => (o.stepFailed id error).map fun result => (.compensations result.1, result.2)
  | .compensationComplete id => some (.done, o.compensationComplete id)

def compensationsOf (saga : SagaInstance) (definition : SagaDefinition) : Option (List SagaAction) :=
  saga.completedSteps.reverse.mapM fun idx => (definition.steps[idx]?).map SagaStep.compensation

inductive Effect (o : SagaOrchestrator) : SagaCall → SagaReply → SagaOrchestrator → Prop
  | registered (definition : SagaDefinition) : Effect o (.register definition) .done (o.register definition)
  | started {id : SagaId} {name : String} {definition : SagaDefinition}
      (found : o.definitions.lookup name = some definition) (steps : definition.steps ≠ []) :
      Effect o (.start id name) (.started (.ok id))
        { o with activeSagas := o.activeSagas.insert id (.new id name) }
  | refused (id : SagaId) (name : String) (error : SagaError) :
      Effect o (.start id name) (.started (.error error)) o
  | asked {id : SagaId} {result : Except SagaError (Nat × SagaAction)}
      (answer : o.nextAction id = some result) : Effect o (.nextAction id) (.next result) o
  | advanced {id : SagaId} {saga : SagaInstance} {definition : SagaDefinition}
      (active : o.activeSagas.lookup id = some saga)
      (found : o.definitions.lookup saga.definitionName = some definition)
      (more : saga.currentStep + 1 < definition.steps.length) :
      Effect o (.stepSucceeded id) (.succeeded (.ok false))
        { o with activeSagas := o.activeSagas.insert id saga.advance }
  | finished {id : SagaId} {saga : SagaInstance} {definition : SagaDefinition}
      (active : o.activeSagas.lookup id = some saga)
      (found : o.definitions.lookup saga.definitionName = some definition)
      (last : definition.steps.length ≤ saga.currentStep + 1) :
      Effect o (.stepSucceeded id) (.succeeded (.ok true))
        { o with
          activeSagas := o.activeSagas.erase id
          completedSagas := o.completedSagas ++ [saga.advance.complete] }
  | compensating {id : SagaId} {error : String} {saga : SagaInstance} {definition : SagaDefinition}
      {actions : List SagaAction} (active : o.activeSagas.lookup id = some saga)
      (found : o.definitions.lookup saga.definitionName = some definition)
      (collected : compensationsOf saga definition = some actions) :
      Effect o (.stepFailed id error) (.compensations (.ok actions))
        { o with activeSagas := o.activeSagas.insert id (saga.startCompensating error) }
  | failed {id : SagaId} {saga : SagaInstance} (active : o.activeSagas.lookup id = some saga) :
      Effect o (.compensationComplete id) .done
        { o with activeSagas := o.activeSagas.insert id saga.fail }
  | successMissing {id : SagaId} (absent : o.activeSagas.lookup id = none) :
      Effect o (.stepSucceeded id) (.succeeded (.error (.sagaNotFound id))) o
  | failureMissing {id : SagaId} {error : String} (absent : o.activeSagas.lookup id = none) :
      Effect o (.stepFailed id error) (.compensations (.error (.sagaNotFound id))) o
  | completeMissing {id : SagaId} (absent : o.activeSagas.lookup id = none) :
      Effect o (.compensationComplete id) .done o

variable {o o' : SagaOrchestrator} {call : SagaCall} {reply : SagaReply}

theorem start_effect (o : SagaOrchestrator) (id : SagaId) (name : String) :
    Effect o (.start id name) (.started (o.start id name).1) (o.start id name).2 := by
  unfold start
  split
  · exact .refused id name _
  · next definition found =>
    split
    · exact .refused id name _
    · next nonempty => exact .started found (by simpa using nonempty)

theorem stepSucceeded_effect {id : SagaId} {result : Except SagaError Bool × SagaOrchestrator}
    (answer : o.stepSucceeded id = some result) :
    Effect o (.stepSucceeded id) (.succeeded result.1) result.2 := by
  unfold stepSucceeded at answer
  split at answer
  · next absent =>
    cases answer
    exact .successMissing absent
  · next saga active =>
    split at answer
    · cases answer
    · next definition found =>
      dsimp only at answer
      split at answer
      · next last =>
        cases answer
        exact .finished active found last
      · next more =>
        cases answer
        exact .advanced active found (Nat.lt_of_not_le more)

theorem stepFailed_effect {id : SagaId} {error : String}
    {result : Except SagaError (List SagaAction) × SagaOrchestrator}
    (answer : o.stepFailed id error = some result) :
    Effect o (.stepFailed id error) (.compensations result.1) result.2 := by
  unfold stepFailed at answer
  split at answer
  · next absent =>
    cases answer
    exact .failureMissing absent
  · next saga active =>
    split at answer
    · cases answer
    · next definition found =>
      obtain ⟨actions, collected, rfl⟩ := Option.map_eq_some_iff.mp answer
      exact .compensating active found collected

theorem compensationComplete_effect (o : SagaOrchestrator) (id : SagaId) :
    Effect o (.compensationComplete id) .done (o.compensationComplete id) := by
  unfold compensationComplete
  split
  · next absent => exact .completeMissing absent
  · next saga active => exact .failed active

theorem handle_effect (answer : o.handle call = some (reply, o')) : Effect o call reply o' := by
  cases call with
  | register definition =>
    cases answer
    exact .registered definition
  | start id name =>
    cases answer
    exact start_effect o id name
  | nextAction id =>
    obtain ⟨result, asked, same⟩ := Option.map_eq_some_iff.mp answer
    cases same
    exact .asked asked
  | stepSucceeded id =>
    obtain ⟨result, succeeded, same⟩ := Option.map_eq_some_iff.mp answer
    cases same
    exact stepSucceeded_effect succeeded
  | stepFailed id error =>
    obtain ⟨result, failed, same⟩ := Option.map_eq_some_iff.mp answer
    cases same
    exact stepFailed_effect failed
  | compensationComplete id =>
    cases answer
    exact compensationComplete_effect o id

theorem Effect.frame (effect : Effect o call reply o')
    (keyed : ∀ key saga, o.activeSagas.lookup key = some saga → saga.id = key) {id : SagaId}
    (other : call.names ≠ some id) :
    o'.activeSagas.lookup id = o.activeSagas.lookup id ∧
      o'.completedSagas.filter (·.id = id) = o.completedSagas.filter (·.id = id) := by
  have elsewhere {named : SagaId} (names : call.names = some named) : id ≠ named := by
    rintro rfl
    exact other names
  cases effect with
  | registered | refused | asked | successMissing | failureMissing | completeMissing => exact ⟨rfl, rfl⟩
  | started | advanced | compensating | failed =>
    refine ⟨?_, rfl⟩
    rw [lookup_insert_eq, if_neg (elsewhere rfl)]
  | @finished named saga _ active =>
    constructor
    · rw [lookup_erase_eq, if_neg (elsewhere rfl)]
    · have differs : saga.advance.complete.id ≠ id :=
        fun same => elsewhere rfl (same.symm.trans (keyed named saga active))
      rw [List.filter_append, List.filter_cons_of_neg (by simpa using differs), List.filter_nil,
        List.append_nil]

section Places

variable {calls : List SagaCall}

theorem mem_filterMap_concat {A B : Type} {f : A → Option B} {xs : List A} {b : B} (x : A)
    (member : b ∈ xs.filterMap f) : b ∈ (xs ++ [x]).filterMap f := by
  rw [List.filterMap_append]
  exact List.mem_append_left _ member

theorem notMem_of_nodup_concat {A B : Type} {f : A → Option B} {xs : List A} {x : A} {b : B}
    (nodup : ((xs ++ [x]).filterMap f).Nodup) (last : f x = some b) : b ∉ xs.filterMap f := by
  rw [List.filterMap_append, List.filterMap_cons_some last, List.filterMap_nil,
    List.nodup_append_comm, List.singleton_append, List.nodup_cons] at nodup
  exact nodup.1

-- The ids that `start` draws are new ones.
def DistinctIds (calls : List SagaCall) : Prop := (calls.filterMap SagaCall.starts).Nodup

theorem DistinctIds.shorter (first second : List SagaCall) (distinct : DistinctIds (first ++ second)) :
    DistinctIds first := by
  rw [DistinctIds, List.filterMap_append] at distinct
  exact (List.nodup_append.mp distinct).1

/-- Every saga is where its id says. This needs the drawn ids to be distinct and nothing of the
definitions. -/
structure Placed (calls : List SagaCall) (o : SagaOrchestrator) : Prop where
  drawn : ∀ id saga, o.activeSagas.lookup id = some saga → id ∈ calls.filterMap SagaCall.starts
  keyed : ∀ id saga, o.activeSagas.lookup id = some saga → saga.id = id
  drawnBefore : ∀ saga ∈ o.completedSagas, saga.id ∈ calls.filterMap SagaCall.starts
  moved : ∀ saga ∈ o.completedSagas, o.activeSagas.lookup saga.id = none

theorem Placed.new : Placed [] new := by
  constructor <;> simp [SagaOrchestrator.new]

theorem Placed.later (placed : Placed calls o) (call : SagaCall) : Placed (calls ++ [call]) o :=
  { placed with
    drawn := fun id saga active => mem_filterMap_concat call (placed.drawn id saga active)
    drawnBefore := fun saga member => mem_filterMap_concat call (placed.drawnBefore saga member) }

theorem Placed.insert (placed : Placed calls o) {id : SagaId} {saga : SagaInstance}
    (drawn : id ∈ calls.filterMap SagaCall.starts) (keyed : saga.id = id)
    (elsewhere : ∀ other ∈ o.completedSagas, other.id ≠ id) :
    Placed calls { o with activeSagas := o.activeSagas.insert id saga } := by
  constructor
  case drawn =>
    intro key other found
    rcases lookup_insert_cases found with ⟨rfl, -⟩ | before
    · exact drawn
    · exact placed.drawn key other before
  case keyed =>
    intro key other found
    rcases lookup_insert_cases found with ⟨rfl, rfl⟩ | before
    · exact keyed
    · exact placed.keyed key other before
  case drawnBefore => exact placed.drawnBefore
  case moved =>
    intro other member
    rw [lookup_insert_eq, if_neg (elsewhere other member)]
    exact placed.moved other member

theorem Placed.notCompleted (placed : Placed calls o) {id : SagaId} {saga : SagaInstance}
    (active : o.activeSagas.lookup id = some saga) : ∀ other ∈ o.completedSagas, other.id ≠ id := by
  rintro other member rfl
  rw [placed.moved other member] at active
  cases active

theorem Placed.updated (placed : Placed calls o) {id : SagaId} {saga saga' : SagaInstance}
    (active : o.activeSagas.lookup id = some saga) (same : saga'.id = saga.id) :
    Placed calls { o with activeSagas := o.activeSagas.insert id saga' } :=
  placed.insert (placed.drawn id saga active) (same.trans (placed.keyed id saga active))
    (placed.notCompleted active)

theorem Placed.finished (placed : Placed calls o) {id : SagaId} {saga saga' : SagaInstance}
    (active : o.activeSagas.lookup id = some saga) (same : saga'.id = saga.id) :
    Placed calls
      { o with
        activeSagas := o.activeSagas.erase id
        completedSagas := o.completedSagas ++ [saga'] } := by
  have named : saga'.id = id := same.trans (placed.keyed id saga active)
  constructor
  case drawn => exact fun key other found => placed.drawn key other (lookup_of_erase found)
  case keyed => exact fun key other found => placed.keyed key other (lookup_of_erase found)
  case drawnBefore =>
    rw [List.forall_mem_append, List.forall_mem_singleton, named]
    exact ⟨placed.drawnBefore, placed.drawn id saga active⟩
  case moved =>
    rw [List.forall_mem_append, List.forall_mem_singleton, named]
    refine ⟨fun other member => ?_, Finmap.lookup_erase ..⟩
    rw [lookup_erase_eq, placed.moved other member, ite_self]

theorem Placed.step (placed : Placed calls o) (distinct : DistinctIds (calls ++ [call]))
    (effect : Effect o call reply o') : Placed (calls ++ [call]) o' := by
  have later := placed.later call
  cases effect with
  | registered => exact { later with }
  | refused | asked | successMissing | failureMissing | completeMissing => exact later
  | @started id name =>
    have unused := notMem_of_nodup_concat distinct rfl
    refine later.insert (by simp [SagaCall.starts]) rfl ?_
    rintro other member rfl
    exact unused (placed.drawnBefore other member)
  | advanced active | compensating active | failed active => exact later.updated active rfl
  | finished active => exact later.finished active rfl

theorem Placed.of_run {replies : List SagaReply} {history : List SagaCall} (placed : Placed history o)
    (distinct : DistinctIds (history ++ calls)) (run : Runs.replies handle o calls = some (replies, o')) :
    Placed (history ++ calls) o' :=
  Runs.replies_keeps DistinctIds.shorter
    (fun _ _ _ _ _ placed distinct answer => placed.step distinct (handle_effect answer)) placed distinct run

end Places

section Order

theorem advance_inOrder {saga : SagaInstance} (inOrder : saga.completedSteps = List.range saga.currentStep) :
    saga.advance.completedSteps = List.range saga.advance.currentStep := by
  rw [SagaInstance.advance, SagaInstance.stepCompleted, inOrder]
  exact List.range_succ.symm

def Ordered (o : SagaOrchestrator) : Prop :=
  ∀ id saga, o.activeSagas.lookup id = some saga → saga.completedSteps = List.range saga.currentStep

theorem Ordered.step (ordered : Ordered o) (effect : Effect o call reply o') : Ordered o' := by
  intro id saga found
  cases effect with
  | registered | refused | asked | successMissing | failureMissing | completeMissing =>
    exact ordered id saga found
  | started =>
    rcases lookup_insert_cases found with ⟨-, rfl⟩ | before
    · rfl
    · exact ordered id saga before
  | advanced active =>
    rcases lookup_insert_cases found with ⟨-, rfl⟩ | before
    · exact advance_inOrder (ordered _ _ active)
    · exact ordered id saga before
  | finished => exact ordered id saga (lookup_of_erase found)
  | compensating active | failed active =>
    have inOrder := ordered _ _ active
    rcases lookup_insert_cases found with ⟨-, rfl⟩ | before
    · exact inOrder
    · exact ordered id saga before

end Order

section Bookkeeping

theorem compensations_range {steps : List SagaStep} {k : Nat} (within : k ≤ steps.length) :
    ((List.range k).reverse.mapM fun idx => (steps[idx]?).map SagaStep.compensation) =
      some ((steps.take k).map SagaStep.compensation).reverse := by
  induction k with
  | zero => simp
  | succ k ih =>
    rw [List.range_succ, List.reverse_append, List.reverse_singleton, List.singleton_append,
      List.mapM_cons, ih (by omega), List.getElem?_eq_getElem within,
      List.take_succ_eq_append_getElem within, List.map_append, List.reverse_append]
    rfl

structure Counted (o : SagaOrchestrator) (saga : SagaInstance) (progress : Nat → Nat → Prop) : Prop where
  inOrder : saga.completedSteps = List.range saga.currentStep
  defined : ∃ definition, o.definitions.lookup saga.definitionName = some definition ∧
    progress saga.currentStep definition.steps.length

theorem Counted.advance {saga : SagaInstance} {definition : SagaDefinition}
    (counted : Counted o saga (· < ·)) (found : o.definitions.lookup saga.definitionName = some definition)
    {progress : Nat → Nat → Prop} (holds : progress (saga.currentStep + 1) definition.steps.length) :
    Counted o saga.advance progress :=
  ⟨advance_inOrder counted.inOrder, definition, found, holds⟩

variable {calls : List SagaCall} {replies : List SagaReply}

structure Kept (calls : List SagaCall) (replies : List SagaReply) (o : SagaOrchestrator) : Prop where
  placed : Placed calls o
  registered : ∀ name definition, o.definitions.lookup name = some definition →
    name ∈ calls.filterMap SagaCall.registers
  active : ∀ id saga, o.activeSagas.lookup id = some saga → Counted o saga (· < ·)
  completed : ∀ saga ∈ o.completedSagas, Counted o saga (· = ·)
  once : (o.completedSagas.map SagaInstance.id).Nodup
  started : ∀ id, SagaReply.started (.ok id) ∈ replies →
    o.activeSagas.lookup id = none → id ∈ o.completedSagas.map SagaInstance.id

theorem Kept.new : Kept [] [] new := by
  constructor
  case placed => exact Placed.new
  all_goals simp [SagaOrchestrator.new]

structure Distinct (calls : List SagaCall) : Prop where
  registers : (calls.filterMap SagaCall.registers).Nodup
  starts : DistinctIds calls

theorem Distinct.shorter (call : SagaCall) (distinct : Distinct (calls ++ [call])) : Distinct calls := by
  obtain ⟨registers, starts⟩ := distinct
  rw [List.filterMap_append] at registers
  exact ⟨(List.nodup_append.mp registers).1, DistinctIds.shorter _ _ starts⟩

-- The definitions that a saga may have stay what they are: a name is registered once.
theorem Kept.counted_step (kept : Kept calls replies o) (distinct : Distinct (calls ++ [call]))
    (effect : Effect o call reply o') {saga : SagaInstance} {progress : Nat → Nat → Prop}
    (counted : Counted o saga progress) : Counted o' saga progress := by
  obtain ⟨inOrder, definition, found, holds⟩ := counted
  refine ⟨inOrder, definition, ?_, holds⟩
  cases effect with
  | registered added =>
    have unused := notMem_of_nodup_concat distinct.registers rfl
    have other : saga.definitionName ≠ added.name :=
      fun same => unused (same ▸ kept.registered _ definition found)
    rw [register, lookup_insert_eq, if_neg other]
    exact found
  | _ => exact found

theorem Kept.registered_step (kept : Kept calls replies o) (effect : Effect o call reply o') :
    ∀ name definition, o'.definitions.lookup name = some definition →
      name ∈ (calls ++ [call]).filterMap SagaCall.registers := by
  intro name definition found
  cases effect with
  | registered added =>
    rw [register, lookup_insert_eq] at found
    split at found
    · next here => simp [here, SagaCall.registers]
    · exact mem_filterMap_concat _ (kept.registered name definition found)
  | _ => exact mem_filterMap_concat _ (kept.registered name definition found)

theorem Kept.active_step (kept : Kept calls replies o) (distinct : Distinct (calls ++ [call]))
    (effect : Effect o call reply o') :
    ∀ id saga, o'.activeSagas.lookup id = some saga → Counted o' saga (· < ·) := by
  intro id saga found
  have stays {other : SagaInstance} (counted : Counted o other (· < ·)) : Counted o' other (· < ·) :=
    kept.counted_step distinct effect counted
  cases effect with
  | registered | refused | asked | successMissing | failureMissing | completeMissing =>
    exact stays (kept.active id saga found)
  | started known steps =>
    rcases lookup_insert_cases found with ⟨-, rfl⟩ | before
    · exact ⟨rfl, _, known, List.length_pos_iff.mpr steps⟩
    · exact stays (kept.active id saga before)
  | advanced active known more =>
    rcases lookup_insert_cases found with ⟨-, rfl⟩ | before
    · exact stays ((kept.active _ _ active).advance known more)
    · exact stays (kept.active id saga before)
  | finished => exact stays (kept.active id saga (lookup_of_erase found))
  | compensating active | failed active =>
    rcases lookup_insert_cases found with ⟨-, rfl⟩ | before
    · have counted := kept.active _ _ active
      exact stays ⟨counted.inOrder, counted.defined⟩
    · exact stays (kept.active id saga before)

theorem Kept.completed_step (kept : Kept calls replies o) (distinct : Distinct (calls ++ [call]))
    (effect : Effect o call reply o') : ∀ saga ∈ o'.completedSagas, Counted o' saga (· = ·) := by
  have stays {other : SagaInstance} (counted : Counted o other (· = ·)) : Counted o' other (· = ·) :=
    kept.counted_step distinct effect counted
  cases effect with
  | finished active known last =>
    rw [List.forall_mem_append, List.forall_mem_singleton]
    refine ⟨fun other member => stays (kept.completed other member), ?_⟩
    obtain ⟨definition, defined, below⟩ := (kept.active _ _ active).defined
    rw [known] at defined
    cases defined
    have counted : Counted o (SagaInstance.advance _) (· = ·) :=
      (kept.active _ _ active).advance known (Nat.le_antisymm below last)
    exact stays ⟨counted.inOrder, counted.defined⟩
  | _ => exact fun saga member => stays (kept.completed saga member)

theorem Kept.once_step (kept : Kept calls replies o) (effect : Effect o call reply o') :
    (o'.completedSagas.map SagaInstance.id).Nodup := by
  cases effect with
  | @finished id saga _ active =>
    rw [List.map_append, List.map_singleton, List.nodup_append_comm, List.singleton_append, List.nodup_cons]
    refine ⟨fun member => ?_, kept.once⟩
    obtain ⟨other, listed, here⟩ := List.mem_map.mp member
    exact kept.placed.notCompleted active other listed (here.trans (kept.placed.keyed id saga active))
  | _ => exact kept.once

theorem Kept.started_step (kept : Kept calls replies o) (effect : Effect o call reply o') :
    ∀ id, SagaReply.started (.ok id) ∈ replies ++ [reply] →
      o'.activeSagas.lookup id = none → id ∈ o'.completedSagas.map SagaInstance.id := by
  intro id listed absent
  have absent_of_insert {key : SagaId} {saga : SagaInstance}
      (missing : (o.activeSagas.insert key saga).lookup id = none) :
      id ≠ key ∧ o.activeSagas.lookup id = none := by
    rw [lookup_insert_eq] at missing
    split at missing
    · cases missing
    · next elsewhere => exact ⟨elsewhere, missing⟩
  rw [List.mem_append, List.mem_singleton] at listed
  cases effect with
  | registered | refused | asked | successMissing | failureMissing | completeMissing =>
    rcases listed with before | now
    · exact kept.started id before absent
    · cases now
  | started =>
    obtain ⟨elsewhere, missing⟩ := absent_of_insert absent
    rcases listed with before | now
    · exact kept.started id before missing
    · cases now
      exact absurd rfl elsewhere
  | advanced | compensating | failed =>
    rcases listed with before | now
    · exact kept.started id before (absent_of_insert absent).2
    · cases now
  | @finished key saga _ active =>
    rcases listed with before | now
    · rw [List.map_append, List.mem_append]
      by_cases here : id = key
      · have named : saga.advance.complete.id = key := kept.placed.keyed key saga active
        exact .inr (by simp [here, named])
      · rw [lookup_erase_eq, if_neg here] at absent
        exact .inl (kept.started id before absent)
    · cases now

theorem Kept.step (kept : Kept calls replies o) (distinct : Distinct (calls ++ [call]))
    (effect : Effect o call reply o') : Kept (calls ++ [call]) (replies ++ [reply]) o' where
  placed := kept.placed.step distinct.starts effect
  registered := kept.registered_step effect
  active := kept.active_step distinct effect
  completed := kept.completed_step distinct effect
  once := kept.once_step effect
  started := kept.started_step effect

theorem Counted.compensations {saga : SagaInstance} {definition : SagaDefinition}
    (counted : Counted o saga (· < ·)) (found : o.definitions.lookup saga.definitionName = some definition) :
    compensationsOf saga definition =
      some ((definition.steps.take saga.currentStep).map SagaStep.compensation).reverse := by
  obtain ⟨inOrder, _, defined, below⟩ := counted
  rw [found] at defined
  cases defined
  rw [compensationsOf, inOrder]
  exact compensations_range (Nat.le_of_lt below)

theorem Kept.stepFailed (kept : Kept calls replies o) {id : SagaId} {saga : SagaInstance}
    (active : o.activeSagas.lookup id = some saga) (error : String) :
    ∃ definition, o.definitions.lookup saga.definitionName = some definition ∧
      o.stepFailed id error =
        some (.ok ((definition.steps.take saga.currentStep).map SagaStep.compensation).reverse,
          { o with activeSagas := o.activeSagas.insert id (saga.startCompensating error) }) := by
  obtain ⟨definition, found, -⟩ := (kept.active id saga active).defined
  have collected := (kept.active id saga active).compensations found
  rw [compensationsOf] at collected
  refine ⟨definition, found, ?_⟩
  simp only [SagaOrchestrator.stepFailed, active, found, collected, Option.map_some]

theorem Kept.answers (kept : Kept calls replies o) (call : SagaCall) :
    ∃ reply o', o.handle call = some (reply, o') := by
  cases call with
  | register | start | compensationComplete => exact ⟨_, _, rfl⟩
  | nextAction id =>
    cases active : o.activeSagas.lookup id with
    | none => simp [handle, nextAction, active]
    | some saga =>
      obtain ⟨definition, found, below⟩ := (kept.active id saga active).defined
      simp only [handle, nextAction, active, found, List.getElem?_eq_getElem below]
      split <;> exact ⟨_, _, rfl⟩
  | stepSucceeded id =>
    cases active : o.activeSagas.lookup id with
    | none => simp [handle, stepSucceeded, active]
    | some saga =>
      obtain ⟨definition, found, below⟩ := (kept.active id saga active).defined
      simp only [handle, stepSucceeded, active, found]
      split <;> exact ⟨_, _, rfl⟩
  | stepFailed id error =>
    cases active : o.activeSagas.lookup id with
    | none => simp [handle, SagaOrchestrator.stepFailed, active]
    | some saga =>
      obtain ⟨definition, -, failed⟩ := kept.stepFailed active error
      rw [handle, failed]
      exact ⟨_, _, rfl⟩

theorem kept_of_run (calls : List SagaCall) (distinct : Distinct calls) :
    ∃ replies o, Runs.replies handle .new calls = some (replies, o) ∧ Kept calls replies o := by
  apply Runs.replies_total (fun _ call => Distinct.shorter call) Kept.new _ calls distinct
  intro history replies o call kept allowed
  obtain ⟨reply, o', answer⟩ := kept.answers call
  exact ⟨reply, o', answer, kept.step allowed (handle_effect answer)⟩

def InOnePlace (o : SagaOrchestrator) (id : SagaId) : Prop :=
  (∃ saga, o.activeSagas.lookup id = some saga) ∧ (o.completedSagas.map SagaInstance.id).count id = 0 ∨
    o.activeSagas.lookup id = none ∧ (o.completedSagas.map SagaInstance.id).count id = 1

theorem Kept.inOnePlace (kept : Kept calls replies o) {id : SagaId}
    (started : SagaReply.started (.ok id) ∈ replies) : o.InOnePlace id := by
  cases active : o.activeSagas.lookup id with
  | none =>
    have member := kept.started id started active
    exact .inr ⟨active, List.count_eq_one_of_mem kept.once member⟩
  | some saga =>
    refine .inl ⟨⟨saga, active⟩, List.count_eq_zero.mpr fun member => ?_⟩
    obtain ⟨other, listed, here⟩ := List.mem_map.mp member
    exact kept.placed.notCompleted active other listed here

structure InOrder (replies : List SagaReply) (o : SagaOrchestrator) (call : SagaCall) (reply : SagaReply)
    (o' : SagaOrchestrator) : Prop where
  onePlace : ∀ id, SagaReply.started (.ok id) ∈ replies → o.InOnePlace id
  active : ∀ id saga, o.activeSagas.lookup id = some saga → saga.id = id ∧ Counted o saga (· < ·)
  completed : ∀ saga ∈ o.completedSagas, Counted o saga (· = ·)
  compensations : ∀ id error saga, call = .stepFailed id error → o.activeSagas.lookup id = some saga →
    ∃ definition, o.definitions.lookup saga.definitionName = some definition ∧
      reply = .compensations (.ok ((definition.steps.take saga.currentStep).map SagaStep.compensation).reverse)
  others : ∀ id, call.names ≠ some id → o'.activeSagas.lookup id = o.activeSagas.lookup id ∧
    o'.completedSagas.filter (·.id = id) = o.completedSagas.filter (·.id = id)

/-- No call of a run panics, whatever the order, and the books are in order at each. -/
theorem saga_bookkeeping (calls : List SagaCall) (call : SagaCall) (distinct : Distinct (calls ++ [call])) :
    ∃ replies o reply o', Runs.replies handle .new calls = some (replies, o) ∧
      o.handle call = some (reply, o') ∧ InOrder replies o call reply o' := by
  obtain ⟨replies, o, run, kept⟩ := kept_of_run calls (distinct.shorter call)
  obtain ⟨reply, o', answer⟩ := kept.answers call
  refine ⟨replies, o, reply, o', run, answer, ?_⟩
  constructor
  case onePlace => exact fun id started => kept.inOnePlace started
  case active => exact fun id saga active => ⟨kept.placed.keyed id saga active, kept.active id saga active⟩
  case completed => exact kept.completed
  case compensations =>
    rintro id error saga rfl active
    obtain ⟨definition, found, failed⟩ := kept.stepFailed active error
    rw [handle, failed] at answer
    cases answer
    exact ⟨definition, found, rfl⟩
  case others => exact fun id other => (handle_effect answer).frame kept.placed.keyed other

end Bookkeeping

end SagaOrchestrator

namespace SagaSample

open SagaOrchestrator

def payer : AccountId := ⟨1⟩
def payee : AccountId := ⟨2⟩
def sagaId : SagaId := ⟨7⟩

def bankTransfer : SagaDefinition where
  name := "BankTransfer"
  steps :=
    [{ action := .debit payer 100, compensation := .credit payer 100 },
      { action := .credit payee 100, compensation := .debit payee 100 }]

def failedRun : List SagaCall :=
  [.register bankTransfer, .start sagaId "BankTransfer", .stepSucceeded sagaId, .stepFailed sagaId "timeout"]

end SagaSample

theorem saga_bookkeeping_late_success : ∃ replies o reply o',
    Runs.replies SagaOrchestrator.handle .new SagaSample.failedRun = some (replies, o) ∧
      o.handle (.stepSucceeded SagaSample.sagaId) = some (reply, o') ∧
      SagaOrchestrator.InOrder replies o (.stepSucceeded SagaSample.sagaId) reply o' :=
  SagaOrchestrator.saga_bookkeeping _ _ ⟨by decide, by unfold SagaOrchestrator.DistinctIds; decide⟩

end BankingLedger
