import BankingLedger.Shared.FiniteMap
import BankingLedger.Shared.Runs
import BankingLedger.Domain.Account

set_option autoImplicit false

namespace BankingLedger

open FiniteMap

abbrev SagaId := Uuid

inductive SagaStatus where
  | pending
  | inProgress
  | completed
  | compensating
  | failed
  | timedOut
deriving DecidableEq, Repr

inductive SagaAction where
  | debit (accountId : AccountId) (amountCents : Int64)
  | credit (accountId : AccountId) (amountCents : Int64)
  | hold (accountId : AccountId) (amountCents : Int64)
  | releaseHold (accountId : AccountId) (amountCents : Int64)
  | externalCall (service endpoint payload : String)
  | noOp
deriving DecidableEq, Repr

structure SagaStep where
  action : SagaAction
  compensation : SagaAction
deriving DecidableEq, Repr

structure SagaDefinition where
  name : String
  steps : List SagaStep
deriving DecidableEq, Repr

inductive SagaError where
  | unknownDefinition (name : String)
  | noSteps
  | sagaNotFound (id : SagaId)
  | sagaNotActive (status : SagaStatus)
  | allStepsCompleted
deriving DecidableEq, Repr

-- The times of an instance and the retries, timeouts and names of steps are left out: no operation reads them.
structure SagaInstance where
  id : SagaId
  definitionName : String
  status : SagaStatus
  currentStep : Nat
  completedSteps : List Nat
  error : Option String
deriving DecidableEq, Repr

namespace SagaInstance

def new (id : SagaId) (definitionName : String) : SagaInstance :=
  { id, definitionName
    status := .pending
    currentStep := 0
    completedSteps := []
    error := none }

def stepCompleted (saga : SagaInstance) (stepIndex : Nat) : SagaInstance :=
  { saga with
    completedSteps := saga.completedSteps ++ [stepIndex]
    currentStep := stepIndex + 1 }

def complete (saga : SagaInstance) : SagaInstance := { saga with status := .completed }

def startCompensating (saga : SagaInstance) (error : String) : SagaInstance :=
  { saga with status := .compensating, error := some error }

def fail (saga : SagaInstance) : SagaInstance := { saga with status := .failed }

def advance (saga : SagaInstance) : SagaInstance :=
  { saga.stepCompleted saga.currentStep with status := .inProgress }

end SagaInstance

structure SagaOrchestrator where
  definitions : Map String SagaDefinition
  activeSagas : Map SagaId SagaInstance
  completedSagas : List SagaInstance

namespace SagaOrchestrator

def new : SagaOrchestrator := { definitions := ∅, activeSagas := ∅, completedSagas := [] }

def register (o : SagaOrchestrator) (definition : SagaDefinition) : SagaOrchestrator :=
  { o with definitions := o.definitions.insert definition.name definition }

-- `id` is the one that `SagaInstance::new` draws.
def start (o : SagaOrchestrator) (id : SagaId) (definitionName : String) :
    Except SagaError SagaId × SagaOrchestrator :=
  match o.definitions.lookup definitionName with
  | none => (.error (.unknownDefinition definitionName), o)
  | some definition =>
    if definition.steps.isEmpty then (.error .noSteps, o)
    else (.ok id, { o with activeSagas := o.activeSagas.insert id (.new id definitionName) })

def nextAction (o : SagaOrchestrator) (sagaId : SagaId) : Option (Except SagaError (Nat × SagaAction)) :=
  match o.activeSagas.lookup sagaId with
  | none => some (.error (.sagaNotFound sagaId))
  | some saga =>
    if saga.status ≠ .pending ∧ saga.status ≠ .inProgress then
      some (.error (.sagaNotActive saga.status))
    else
      match o.definitions.lookup saga.definitionName with
      | none => none
      | some definition =>
        match definition.steps[saga.currentStep]? with
        | none => some (.error .allStepsCompleted)
        | some step => some (.ok (saga.currentStep, step.action))

def stepSucceeded (o : SagaOrchestrator) (sagaId : SagaId) :
    Option (Except SagaError Bool × SagaOrchestrator) :=
  match o.activeSagas.lookup sagaId with
  | none => some (.error (.sagaNotFound sagaId), o)
  | some saga =>
    match o.definitions.lookup saga.definitionName with
    | none => none
    | some definition =>
      let saga := saga.advance
      if definition.steps.length ≤ saga.currentStep then
        some (.ok true,
          { o with
            activeSagas := o.activeSagas.erase sagaId
            completedSagas := o.completedSagas ++ [saga.complete] })
      else some (.ok false, { o with activeSagas := o.activeSagas.insert sagaId saga })

def stepFailed (o : SagaOrchestrator) (sagaId : SagaId) (error : String) :
    Option (Except SagaError (List SagaAction) × SagaOrchestrator) :=
  match o.activeSagas.lookup sagaId with
  | none => some (.error (.sagaNotFound sagaId), o)
  | some saga =>
    match o.definitions.lookup saga.definitionName with
    | none => none
    | some definition =>
      (saga.completedSteps.reverse.mapM fun idx => (definition.steps[idx]?).map SagaStep.compensation).map
        fun compensations =>
          (.ok compensations,
            { o with activeSagas := o.activeSagas.insert sagaId (saga.startCompensating error) })

def compensationComplete (o : SagaOrchestrator) (sagaId : SagaId) : SagaOrchestrator :=
  match o.activeSagas.lookup sagaId with
  | none => o
  | some saga => { o with activeSagas := o.activeSagas.insert sagaId saga.fail }

def getStatus (o : SagaOrchestrator) (sagaId : SagaId) : Option SagaStatus :=
  (o.activeSagas.lookup sagaId).map SagaInstance.status

end SagaOrchestrator

end BankingLedger
