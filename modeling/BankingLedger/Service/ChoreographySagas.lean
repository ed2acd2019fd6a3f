import BankingLedger.Service.Choreography
import BankingLedger.Shared.Runs

set_option autoImplicit false

namespace BankingLedger

open FiniteMap

inductive SagaState where
  | initiated
  | debitPending
  | debited
  | creditPending
  | completed
  | failed
deriving DecidableEq, Repr

structure TransferCompletedEvent where
  correlationId : Uuid
  transactionId : String
  timestamp : Timestamp
deriving DecidableEq, Repr

structure TransferFailedEvent where
  correlationId : Uuid
  transactionId : String
  reason : String
  timestamp : Timestamp
deriving DecidableEq, Repr

structure RefundInitiatedEvent where
  correlationId : Uuid
  transactionId : String
  accountId : String
  amount : Decimal
  timestamp : Timestamp
deriving DecidableEq, Repr

structure ChoreographyTransactionService where
  states : Map String SagaState

namespace ChoreographyTransactionService

def new : ChoreographyTransactionService := ⟨∅⟩

def initiateTransfer (correlationId : Uuid) (transactionId : String) (now : Timestamp)
    (fromAccount toAccount : String) (amount : Decimal) (svc : ChoreographyTransactionService) :
    TransferInitiatedEvent × ChoreographyTransactionService :=
  (⟨correlationId, transactionId, fromAccount, toAccount, amount, now⟩,
    ⟨svc.states.insert transactionId .initiated⟩)

def handleAccountDebited (event : AccountDebitedEvent) (svc : ChoreographyTransactionService) :
    ChoreographyTransactionService :=
  ⟨svc.states.insert event.transactionId .debited⟩

def handleAccountCredited (now : Timestamp) (event : AccountCreditedEvent) (svc : ChoreographyTransactionService) :
    TransferCompletedEvent × ChoreographyTransactionService :=
  (⟨event.correlationId, event.transactionId, now⟩, ⟨svc.states.insert event.transactionId .completed⟩)

def handleDebitFailed (now : Timestamp) (event : AccountDebitFailedEvent) (svc : ChoreographyTransactionService) :
    TransferFailedEvent × ChoreographyTransactionService :=
  (⟨event.correlationId, event.transactionId, event.reason, now⟩,
    ⟨svc.states.insert event.transactionId .failed⟩)

def handleCreditFailed (now : Timestamp) (event : AccountCreditFailedEvent)
    (svc : ChoreographyTransactionService) :
    (TransferFailedEvent × RefundInitiatedEvent) × ChoreographyTransactionService :=
  let failed : TransferFailedEvent := ⟨event.correlationId, event.transactionId, event.reason, now⟩
  let refund : RefundInitiatedEvent :=
    ⟨event.correlationId, event.transactionId, event.accountId, event.amount, now⟩
  ((failed, refund), ⟨svc.states.insert event.transactionId .failed⟩)

end ChoreographyTransactionService

section Runs

open ChoreographyTransactionService Runs

inductive SagaDelivery where
  | initiate (correlationId : Uuid) (transactionId fromAccount toAccount : String) (amount : Decimal)
      (now : Timestamp)
  | accountDebited (event : AccountDebitedEvent)
  | accountCredited (event : AccountCreditedEvent) (now : Timestamp)
  | debitFailed (event : AccountDebitFailedEvent) (now : Timestamp)
  | creditFailed (event : AccountCreditFailedEvent) (now : Timestamp)
deriving DecidableEq, Repr

namespace SagaDelivery

def transactionId : SagaDelivery → String
  | initiate _ transactionId _ _ _ _ => transactionId
  | accountDebited event => event.transactionId
  | accountCredited event _ => event.transactionId
  | debitFailed event _ => event.transactionId
  | creditFailed event _ => event.transactionId

def state : SagaDelivery → SagaState
  | initiate .. => .initiated
  | accountDebited _ => .debited
  | accountCredited .. => .completed
  | debitFailed .. | creditFailed .. => .failed

end SagaDelivery

def ChoreographyTransactionService.deliver (svc : ChoreographyTransactionService) :
    SagaDelivery → ChoreographyTransactionService
  | .initiate correlationId transactionId fromAccount toAccount amount now =>
    (svc.initiateTransfer correlationId transactionId now fromAccount toAccount amount).2
  | .accountDebited event => svc.handleAccountDebited event
  | .accountCredited event now => (svc.handleAccountCredited now event).2
  | .debitFailed event now => (svc.handleDebitFailed now event).2
  | .creditFailed event now => (svc.handleCreditFailed now event).2

def SagaState.Finished (state : SagaState) : Prop := state = .completed ∨ state = .failed

instance : DecidablePred SagaState.Finished := fun state =>
  inferInstanceAs (Decidable (state = .completed ∨ state = .failed))

def Outcome (p : String × SagaState) (svc : ChoreographyTransactionService) : Prop :=
  p.2.Finished ∧ svc.states.lookup p.1 = some p.2

/-- The transaction is not finished, or already in the state that the delivery stands for. -/
def KeepsOutcome (svc : ChoreographyTransactionService) (d : SagaDelivery) : Prop :=
  ∀ state ∈ svc.states.lookup d.transactionId, state.Finished → d.state = state

instance (svc : ChoreographyTransactionService) (d : SagaDelivery) : Decidable (KeepsOutcome svc d) :=
  inferInstanceAs (Decidable (∀ state ∈ svc.states.lookup d.transactionId, state.Finished → d.state = state))

variable {svc : ChoreographyTransactionService}

theorem deliver_states (svc : ChoreographyTransactionService) (d : SagaDelivery) :
    (svc.deliver d).states = svc.states.insert d.transactionId d.state := by
  cases d <;> rfl

theorem deliver_keeps_outcomes_iff (d : SagaDelivery) :
    (∀ p, Outcome p svc → Outcome p (svc.deliver d)) ↔ KeepsOutcome svc d := by
  constructor
  · rintro keeps state found finished
    obtain ⟨-, after⟩ := keeps (d.transactionId, state) ⟨finished, found⟩
    rw [deliver_states, Finmap.lookup_insert] at after
    exact Option.some.inj after
  · rintro keeps ⟨id, state⟩ ⟨finished, found⟩
    refine ⟨finished, ?_⟩
    rw [deliver_states, lookup_insert_eq]
    split
    · next same => rw [keeps state (same ▸ found) finished]
    · exact found

/-- The outcomes of a run are final exactly if nothing is delivered for a finished transaction but what
stands for the state it is in. -/
theorem outcomes_final_iff (deliveries : List SagaDelivery) :
    Lasting deliver Outcome new deliveries ↔ Meets deliver KeepsOutcome new deliveries :=
  lasting_iff_meets.trans (meets_congr fun _ => deliver_keeps_outcomes_iff)

/-- The `AccountDebited` event of a completed transfer comes again. -/
theorem completed_then_debited :
    let deliveries : List SagaDelivery :=
      [.initiate ⟨1⟩ "tx-1" "alice" "bob" (200 : Int) ⟨0⟩, .accountDebited ⟨⟨1⟩, "tx-1", "alice", (200 : Int), ⟨1⟩⟩,
        .accountCredited ⟨⟨1⟩, "tx-1", "bob", (200 : Int), ⟨2⟩⟩ ⟨3⟩,
        .accountDebited ⟨⟨1⟩, "tx-1", "alice", (200 : Int), ⟨1⟩⟩]
    (run deliver new (deliveries.take 3)).states.lookup "tx-1" = some .completed ∧
      (run deliver new deliveries).states.lookup "tx-1" = some .debited ∧
      ¬ Lasting deliver Outcome new deliveries := by
  intro deliveries
  refine ⟨by decide +kernel, by decide +kernel, fun lasting => ?_⟩
  obtain ⟨-, completed⟩ := lasting (deliveries.take 3) (deliveries.drop 3) [] rfl ("tx-1", .completed)
    ⟨.inl rfl, by decide +kernel⟩
  exact absurd completed (by decide +kernel)

end Runs

end BankingLedger
