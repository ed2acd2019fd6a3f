import BankingLedger.Service.ChoreographySagas
import BankingLedger.Shared.MessagePassing

set_option autoImplicit false

namespace BankingLedger

open FiniteMap MessagePassing Runs

inductive ChoreographyMessage where
  | initiated (event : TransferInitiatedEvent)
  | debitNotice (event : AccountDebitedEvent)
  | debited (event : AccountDebitedEvent) (toAccount : String)
  | debitFailed (event : AccountDebitFailedEvent)
  | credited (event : AccountCreditedEvent)
  | creditFailed (event : AccountCreditFailedEvent)
deriving DecidableEq, Repr

-- The events that only the notification service logs, and the refund that nobody handles.
inductive SagaAnnouncement where
  | completed (event : TransferCompletedEvent)
  | failed (event : TransferFailedEvent)
  | refundInitiated (event : RefundInitiatedEvent)
deriving DecidableEq, Repr

def SagaAnnouncement.correlationId : SagaAnnouncement → Uuid
  | completed event => event.correlationId
  | failed event => event.correlationId
  | refundInitiated event => event.correlationId

structure Initiation where
  correlationId : Uuid
  transactionId : String
  fromAccount : String
  toAccount : String
  amount : Decimal
  now : Timestamp
deriving DecidableEq, Repr

abbrev ChoreographyStep : Type := MessagePassing.Event Initiation ChoreographyMessage Timestamp

/-- The two services, with the transfers that were started, the refunds that were made for them and
the announcements. -/
structure ChoreographySystem where
  transactions : ChoreographyTransactionService
  accounts : ChoreographyAccountService
  transfers : List TransferInitiatedEvent
  refunds : List AccountDebitedEvent
  announced : List SagaAnnouncement

namespace ChoreographySystem

def start (seeds : Map String Decimal) : Network ChoreographySystem ChoreographyMessage where
  state :=
    { transactions := ChoreographyTransactionService.new
      accounts := { ChoreographyAccountService.new with balances := seeds }
      transfers := []
      refunds := []
      announced := [] }
  inFlight := 0

def initiate (s : ChoreographySystem) (r : Initiation) : ChoreographySystem × Multiset ChoreographyMessage :=
  let (event, transactions) := s.transactions.initiateTransfer r.correlationId r.transactionId r.now
    r.fromAccount r.toAccount r.amount
  ({ s with transactions, transfers := s.transfers ++ [event] }, {.initiated event})

def afterDebit (toAccount : String) :
    Except AccountDebitFailedEvent AccountDebitedEvent → Multiset ChoreographyMessage
  | .ok debited => {.debitNotice debited, .debited debited toAccount}
  | .error failed => {.debitFailed failed}

def afterCredit : Except AccountCreditFailedEvent AccountCreditedEvent → Multiset ChoreographyMessage
  | .ok credited => {.credited credited}
  | .error failed => {.creditFailed failed}

def refundOf (event : AccountDebitedEvent) :
    Except AccountCreditFailedEvent AccountCreditedEvent → List AccountDebitedEvent
  | .ok _ => []
  | .error _ => [event]

def receive (now : Timestamp) (s : ChoreographySystem) :
    ChoreographyMessage → ChoreographySystem × Multiset ChoreographyMessage
  | .initiated event =>
    let (result, accounts) := s.accounts.handleTransferInitiated now event
    ({ s with accounts }, afterDebit event.toAccount result)
  | .debitNotice event => ({ s with transactions := s.transactions.handleAccountDebited event }, 0)
  | .debited event toAccount =>
    let (result, accounts) := s.accounts.handleAccountDebited now event toAccount
    ({ s with accounts, refunds := s.refunds ++ refundOf event result }, afterCredit result)
  | .debitFailed event =>
    let (failed, transactions) := s.transactions.handleDebitFailed now event
    ({ s with transactions, announced := s.announced ++ [.failed failed] }, 0)
  | .credited event =>
    let (completed, transactions) := s.transactions.handleAccountCredited now event
    ({ s with transactions, announced := s.announced ++ [.completed completed] }, 0)
  | .creditFailed event =>
    let ((failed, refund), transactions) := s.transactions.handleCreditFailed now event
    ({ s with transactions, announced := s.announced ++ [.failed failed, .refundInitiated refund] }, 0)

def parties : System ChoreographySystem Initiation ChoreographyMessage Timestamp := ⟨initiate, receive⟩

def Fresh (s : ChoreographySystem) (r : Initiation) : Prop :=
  r.correlationId ∉ s.transfers.map (·.correlationId) ∧ r.transactionId ∉ s.transfers.map (·.transactionId)

instance (s : ChoreographySystem) (r : Initiation) : Decidable (Fresh s r) :=
  inferInstanceAs (Decidable (_ ∧ _))

section Marks

def markedSum (marks : Finset Uuid) (measure : TransferInitiatedEvent → Int)
    (transfers : List TransferInitiatedEvent) : Int :=
  (transfers.map fun t => if t.correlationId ∈ marks then measure t else 0).sum

variable {marks : Finset Uuid} {measure : TransferInitiatedEvent → Int} {transfers : List TransferInitiatedEvent}
  {t : TransferInitiatedEvent}

@[simp] theorem markedSum_nil : markedSum marks measure [] = 0 := rfl

@[simp] theorem markedSum_cons : markedSum marks measure (t :: transfers) =
    (if t.correlationId ∈ marks then measure t else 0) + markedSum marks measure transfers := rfl

theorem markedSum_concat (new : t.correlationId ∉ marks) :
    markedSum marks measure (transfers ++ [t]) = markedSum marks measure transfers := by
  simp [markedSum, new]

theorem markedSum_insert_of_absent {id : Uuid} (absent : id ∉ transfers.map (·.correlationId)) :
    markedSum (insert id marks) measure transfers = markedSum marks measure transfers := by
  induction transfers with
  | nil => rfl
  | cons first rest ih =>
    simp only [List.map_cons, List.mem_cons, not_or] at absent
    simp only [markedSum_cons, ih absent.2, Finset.mem_insert, Ne.symm absent.1, false_or]

theorem markedSum_insert (unique : (transfers.map (·.correlationId)).Nodup) (member : t ∈ transfers)
    (new : t.correlationId ∉ marks) :
    markedSum (insert t.correlationId marks) measure transfers = markedSum marks measure transfers + measure t := by
  induction transfers with
  | nil => cases member
  | cons first rest ih =>
    rw [List.map_cons, List.nodup_cons] at unique
    rw [markedSum_cons, markedSum_cons]
    by_cases here : first = t
    next =>
      subst here
      rw [markedSum_insert_of_absent unique.1, if_pos (Finset.mem_insert_self _ _), if_neg new]
      omega
    next =>
      have later : t ∈ rest := (List.mem_cons.mp member).resolve_left (Ne.symm here)
      have apart : first.correlationId ≠ t.correlationId := by
        intro same
        exact unique.1 (same ▸ List.mem_map_of_mem later)
      rw [ih unique.2 later]
      simp only [Finset.mem_insert, apart, false_or]
      omega

end Marks

section Amounts

def outOf (account : String) (t : TransferInitiatedEvent) : Int := if t.fromAccount = account then t.amount else 0

def into (account : String) (t : TransferInitiatedEvent) : Int := if t.toAccount = account then t.amount else 0

def debitedFrom (account : String) (s : ChoreographySystem) : Int :=
  markedSum s.accounts.processedDebits (outOf account) s.transfers

def creditedTo (account : String) (s : ChoreographySystem) : Int :=
  markedSum s.accounts.processedCredits (into account) s.transfers

def refundedTo (account : String) (s : ChoreographySystem) : Int :=
  (s.refunds.map fun event => if event.accountId = account then event.amount else 0).sum

end Amounts

end ChoreographySystem

end BankingLedger
