import BankingLedger.Domain.Journal
import BankingLedger.Shared.FiniteMap

set_option autoImplicit false

namespace BankingLedger

open FiniteMap

/-- A decimal as the number of its smallest units, so a sum is exact. Results that need more than the
96 bits of the mantissa, which panic or are rounded, are left out. -/
abbrev Decimal : Type := Int

structure TransferInitiatedEvent where
  correlationId : Uuid
  transactionId : String
  fromAccount : String
  toAccount : String
  amount : Decimal
  timestamp : Timestamp
deriving DecidableEq, Repr

structure AccountDebitedEvent where
  correlationId : Uuid
  transactionId : String
  accountId : String
  amount : Decimal
  timestamp : Timestamp
deriving DecidableEq, Repr

structure AccountCreditedEvent where
  correlationId : Uuid
  transactionId : String
  accountId : String
  amount : Decimal
  timestamp : Timestamp
deriving DecidableEq, Repr

structure AccountDebitFailedEvent where
  correlationId : Uuid
  transactionId : String
  accountId : String
  amount : Decimal
  reason : String
  timestamp : Timestamp
deriving DecidableEq, Repr

structure AccountCreditFailedEvent where
  correlationId : Uuid
  transactionId : String
  accountId : String
  amount : Decimal
  reason : String
  timestamp : Timestamp
deriving DecidableEq, Repr

structure ChoreographyAccountService where
  balances : Map String Decimal
  processedDebits : Finset Uuid
  processedCredits : Finset Uuid

namespace TransferInitiatedEvent

def debited (now : Timestamp) (event : TransferInitiatedEvent) : AccountDebitedEvent where
  correlationId := event.correlationId
  transactionId := event.transactionId
  accountId := event.fromAccount
  amount := event.amount
  timestamp := now

def debitFailed (now : Timestamp) (reason : String) (event : TransferInitiatedEvent) :
    AccountDebitFailedEvent where
  correlationId := event.correlationId
  transactionId := event.transactionId
  accountId := event.fromAccount
  amount := event.amount
  reason
  timestamp := now

end TransferInitiatedEvent

namespace AccountDebitedEvent

def credited (now : Timestamp) (toAccount : String) (event : AccountDebitedEvent) : AccountCreditedEvent where
  correlationId := event.correlationId
  transactionId := event.transactionId
  accountId := toAccount
  amount := event.amount
  timestamp := now

def creditFailed (now : Timestamp) (toAccount : String) (event : AccountDebitedEvent) :
    AccountCreditFailedEvent where
  correlationId := event.correlationId
  transactionId := event.transactionId
  accountId := toAccount
  amount := event.amount
  reason := "DESTINATION_NOT_FOUND"
  timestamp := now

end AccountDebitedEvent

namespace ChoreographyAccountService

def new : ChoreographyAccountService where
  balances := ∅
  processedDebits := ∅
  processedCredits := ∅

def seed (accountId : String) (balance : Decimal) (svc : ChoreographyAccountService) :
    ChoreographyAccountService :=
  { svc with balances := svc.balances.insert accountId balance }

def handleTransferInitiated (now : Timestamp) (event : TransferInitiatedEvent)
    (svc : ChoreographyAccountService) :
    Except AccountDebitFailedEvent AccountDebitedEvent × ChoreographyAccountService :=
  if event.correlationId ∈ svc.processedDebits then (.ok (event.debited now), svc)
  else
    match svc.balances.lookup event.fromAccount with
    | some b =>
      if b ≥ event.amount then
        let newBalance := b - event.amount
        (.ok (event.debited now),
          { svc with
            balances := svc.balances.insert event.fromAccount newBalance
            processedDebits := insert event.correlationId svc.processedDebits })
      else (.error (event.debitFailed now "INSUFFICIENT_FUNDS"), svc)
    | none => (.error (event.debitFailed now "ACCOUNT_NOT_FOUND"), svc)

-- `get_mut`: an account that is not there is left alone.
def refund (event : AccountDebitedEvent) (svc : ChoreographyAccountService) : ChoreographyAccountService :=
  match svc.balances.lookup event.accountId with
  | some b => { svc with balances := svc.balances.insert event.accountId (b + event.amount) }
  | none => svc

def handleAccountDebited (now : Timestamp) (event : AccountDebitedEvent) (toAccount : String)
    (svc : ChoreographyAccountService) :
    Except AccountCreditFailedEvent AccountCreditedEvent × ChoreographyAccountService :=
  if event.correlationId ∈ svc.processedCredits then (.ok (event.credited now toAccount), svc)
  else
    match svc.balances.lookup toAccount with
    | some b =>
      let newBalance := b + event.amount
      (.ok (event.credited now toAccount),
        { svc with
          balances := svc.balances.insert toAccount newBalance
          processedCredits := insert event.correlationId svc.processedCredits })
    | none => (.error (event.creditFailed now toAccount), svc.refund event)

end ChoreographyAccountService

section Handlers

open ChoreographyAccountService

variable (svc : ChoreographyAccountService) (now : Timestamp)

inductive DebitOutcome (event : TransferInitiatedEvent) (now : Timestamp) (svc : ChoreographyAccountService) :
    Except AccountDebitFailedEvent AccountDebitedEvent → ChoreographyAccountService → Prop where
  | repeated : event.correlationId ∈ svc.processedDebits →
      DebitOutcome event now svc (.ok (event.debited now)) svc
  | debited {b : Decimal} : event.correlationId ∉ svc.processedDebits →
      svc.balances.lookup event.fromAccount = some b → event.amount ≤ b →
      DebitOutcome event now svc (.ok (event.debited now))
        { svc with
          balances := svc.balances.insert event.fromAccount (b - event.amount)
          processedDebits := insert event.correlationId svc.processedDebits }
  | refused {reason : String} : DebitOutcome event now svc (.error (event.debitFailed now reason)) svc

theorem debitOutcome (event : TransferInitiatedEvent) :
    DebitOutcome event now svc (svc.handleTransferInitiated now event).1
      (svc.handleTransferInitiated now event).2 := by
  unfold handleTransferInitiated
  split
  · next known => exact .repeated known
  · next new =>
    split
    · next b found =>
      split
      · next enough => exact .debited new found enough
      · exact .refused
    · exact .refused

inductive CreditOutcome (event : AccountDebitedEvent) (toAccount : String) (now : Timestamp)
    (svc : ChoreographyAccountService) :
    Except AccountCreditFailedEvent AccountCreditedEvent → ChoreographyAccountService → Prop where
  | repeated : event.correlationId ∈ svc.processedCredits →
      CreditOutcome event toAccount now svc (.ok (event.credited now toAccount)) svc
  | credited {b : Decimal} : event.correlationId ∉ svc.processedCredits →
      svc.balances.lookup toAccount = some b →
      CreditOutcome event toAccount now svc (.ok (event.credited now toAccount))
        { svc with
          balances := svc.balances.insert toAccount (b + event.amount)
          processedCredits := insert event.correlationId svc.processedCredits }
  | refunded : event.correlationId ∉ svc.processedCredits → svc.balances.lookup toAccount = none →
      CreditOutcome event toAccount now svc (.error (event.creditFailed now toAccount)) (svc.refund event)

theorem creditOutcome (event : AccountDebitedEvent) (toAccount : String) :
    CreditOutcome event toAccount now svc (svc.handleAccountDebited now event toAccount).1
      (svc.handleAccountDebited now event toAccount).2 := by
  unfold handleAccountDebited
  split
  · next known => exact .repeated known
  · next new =>
    split
    · next b found => exact .credited new found
    · next missing => exact .refunded new missing

end Handlers

end BankingLedger
