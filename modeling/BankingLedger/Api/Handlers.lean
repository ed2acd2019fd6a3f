import BankingLedger.Log.HashChain
import BankingLedger.Service.CircuitBreaker
import BankingLedger.Service.Postings

set_option autoImplicit false

namespace BankingLedger

open MachineInt

-- What the handlers share, one lock or map a field.
structure Books where
  accounts : Accounts
  hashChain : HashChain
  journal : List JournalEntry
  journalSeq : Nat

structure AppState extends Books where
  circuitBreaker : CircuitBreaker

/-- What comes from libraries: text forms of identifiers, times and entries, and hashing. -/
structure Runtime where
  hashing : Hashing
  printUuid : Uuid → String
  toUppercase : String → String
  entryToJson : JournalEntry → Except String String
  reversalToJson : (entryId reverses description : String) → (sequence : Nat) → String

structure Draws where
  accountId : Uuid
  transactionId : Uuid
  entryId : Uuid
  recordedAt : Timestamp
  blockTime : Timestamp
  arrival : Nat
  failure : Nat

inductive Reason where
  | invalidAccountType
  | invalidStatus
  | invalidStatusTransition (e : AccountStatusError)
  | cannotClose (e : AccountStatusError)
  | journalError (e : JournalError)
  | serializeError (e : String)
  | debitFailed (e : DebitError)
  | creditFailed (e : CreditError)
  | holdFailed (e : HoldError)
  | debitRejected (e : DebitError)
  | creditRejected (e : CreditError)
  | cannotReverse (e : JournalError)
  | reversalDebitFailed (e : DebitError)
  | reversalCreditFailed (e : CreditError)
deriving DecidableEq, Repr

inductive AppError where
  | notFound
  | badRequest (reason : Reason)
  | serviceUnavailable
deriving DecidableEq, Repr

def AppState.new (rt : Runtime) (now : Timestamp) : AppState where
  accounts := ∅
  hashChain := .new rt.hashing now
  journal := []
  journalSeq := 0
  circuitBreaker := .new 10 30000000000

structure AccountResponse where
  id : Uuid
  accountType : AccountType
  currency : String
  balanceCents : Int64
  availableBalanceCents : Int64
  status : AccountStatus

-- Every branch of `resolve_currency` has the upper-cased code.
def AccountResponse.fromAccount (rt : Runtime) (a : Account) : AccountResponse :=
  { id := a.id
    accountType := a.accountType
    currency := rt.toUppercase a.currency
    balanceCents := a.balance
    availableBalanceCents := a.availableBalance
    status := a.status }

structure CreateAccountRequest where
  accountType : String
  currency : String
  initialBalanceCents : Int64

def parseAccountType (text : String) : Option AccountType :=
  if text = "ASSET" then some .asset
  else if text = "LIABILITY" then some .liability
  else if text = "EQUITY" then some .equity
  else if text = "REVENUE" then some .revenue
  else if text = "EXPENSE" then some .expense
  else none

def createAccount (rt : Runtime) (draws : Draws) (req : CreateAccountRequest) (st : AppState) :
    Except AppError AccountResponse × AppState :=
  let admission := st.circuitBreaker.allowRequest draws.arrival
  let st := { st with circuitBreaker := admission.2 }
  if !admission.1 then (.error .serviceUnavailable, st)
  else
    match parseAccountType (rt.toUppercase req.accountType) with
    | none => (.error (.badRequest .invalidAccountType), st)
    | some accountType =>
      let created := AccountService.createAccount draws.accountId accountType req.currency
        req.initialBalanceCents none st.accounts
      (.ok (.fromAccount rt created.1),
        { st with accounts := created.2, circuitBreaker := st.circuitBreaker.recordSuccess })

-- `debit_account` and `credit_account` differ in the service call only.
def movementHandler {E : Type} (operation : Accounts → AccountId → Int64 → Except E Int64 × Accounts)
    (reason : E → Reason) (rt : Runtime) (draws : Draws) (id : AccountId) (amountCents : Int64)
    (st : AppState) : Except AppError AccountResponse × AppState :=
  let admission := st.circuitBreaker.allowRequest draws.arrival
  let st := { st with circuitBreaker := admission.2 }
  if !admission.1 then (.error .serviceUnavailable, st)
  else
    match operation st.accounts id amountCents with
    | (.error e, accounts) =>
      (.error (.badRequest (reason e)),
        { st with accounts, circuitBreaker := st.circuitBreaker.recordFailure draws.failure })
    | (.ok _, accounts) =>
      match AccountService.getAccount accounts id with
      | none => (.error .notFound, { st with accounts })
      | some account =>
        (.ok (.fromAccount rt account),
          { st with accounts, circuitBreaker := st.circuitBreaker.recordSuccess })

def debitAccount : Runtime → Draws → AccountId → Int64 → AppState →
    Except AppError AccountResponse × AppState :=
  movementHandler AccountService.performDebit .debitRejected

def creditAccount : Runtime → Draws → AccountId → Int64 → AppState →
    Except AppError AccountResponse × AppState :=
  movementHandler AccountService.performCredit .creditRejected

def parseStatus (text : String) : Option AccountStatus :=
  if text = "OPEN" then some .Open
  else if text = "FROZEN" then some .Frozen
  else if text = "CLOSED" then some .Closed
  else none

-- `status` is the `"status"` string of the request body, if it has one.
def setAccountStatus (rt : Runtime) (draws : Draws) (id : AccountId) (status : Option String)
    (st : AppState) : Except AppError AccountResponse × AppState :=
  let admission := st.circuitBreaker.allowRequest draws.arrival
  let st := { st with circuitBreaker := admission.2 }
  if !admission.1 then (.error .serviceUnavailable, st)
  else
    match parseStatus (rt.toUppercase (status.getD "OPEN")) with
    | none => (.error (.badRequest .invalidStatus), st)
    | some newStatus =>
      match AccountService.setStatus st.accounts id newStatus with
      | (.ok false, accounts) =>
        (.error .notFound,
          { st with accounts, circuitBreaker := st.circuitBreaker.recordFailure draws.failure })
      | (.error e, accounts) =>
        (.error (.badRequest (.invalidStatusTransition e)),
          { st with accounts, circuitBreaker := st.circuitBreaker.recordFailure draws.failure })
      | (.ok true, accounts) =>
        match AccountService.getAccount accounts id with
        | none => (.error .notFound, { st with accounts })
        | some account =>
          (.ok (.fromAccount rt account),
            { st with accounts, circuitBreaker := st.circuitBreaker.recordSuccess })

structure DeactivateResponse where
  id : Uuid
  status : String

def coaDeactivate (rt : Runtime) (draws : Draws) (id : AccountId) (st : AppState) :
    Except AppError DeactivateResponse × AppState :=
  match AccountService.setStatus st.accounts id .Closed with
  | (.ok true, accounts) =>
    let appended := st.hashChain.append rt.hashing draws.blockTime
      ("coa_deactivate:" ++ rt.printUuid id)
    (.ok { id, status := "Deactivated" }, { st with accounts, hashChain := appended.2 })
  | (.ok false, accounts) => (.error .notFound, { st with accounts })
  | (.error e, accounts) => (.error (.badRequest (.cannotClose e)), { st with accounts })

structure HoldResponse where
  id : Uuid
  balanceCents : Int64
  availableBalanceCents : Int64
  amount : Int64

-- `place_hold` and `release_hold` differ in the service call only.
def holdHandler (operation : Accounts → AccountId → Int64 → Except HoldError Unit × Accounts)
    (draws : Draws) (id : AccountId) (amountCents : Int64) (st : AppState) :
    Except AppError HoldResponse × AppState :=
  let admission := st.circuitBreaker.allowRequest draws.arrival
  let st := { st with circuitBreaker := admission.2 }
  if !admission.1 then (.error .serviceUnavailable, st)
  else
    match operation st.accounts id amountCents with
    | (.error e, accounts) =>
      (.error (.badRequest (.holdFailed e)),
        { st with accounts, circuitBreaker := st.circuitBreaker.recordFailure draws.failure })
    | (.ok (), accounts) =>
      match AccountService.getAccount accounts id with
      | none => (.error .notFound, { st with accounts })
      | some account =>
        (.ok { id, balanceCents := account.balance
               availableBalanceCents := account.availableBalance, amount := amountCents },
          { st with accounts, circuitBreaker := st.circuitBreaker.recordSuccess })

def placeHold : Draws → AccountId → Int64 → AppState → Except AppError HoldResponse × AppState :=
  holdHandler AccountService.placeHold

def releaseHold : Draws → AccountId → Int64 → AppState → Except AppError HoldResponse × AppState :=
  holdHandler AccountService.releaseHold

structure TransferRequest where
  fromAccount : Uuid
  toAccount : Uuid
  amountCents : Int64
  description : Option String

structure TransferResponse where
  transactionId : Uuid
  journalEntryId : Uuid
  fromBalance : Int64
  toBalance : Int64
  chainIndex : UInt64
  chainHash : String

def TransferRequest.legs (req : TransferRequest) : List EntryLeg :=
  [.debit req.toAccount req.amountCents, .credit req.fromAccount req.amountCents]

-- The first half of `transfer`: draw a sequence number, build the entry, append it to the hash
-- chain and to the journal.
def journalTransfer (rt : Runtime) (draws : Draws) (req : TransferRequest) (books : Books) :
    Except AppError (JournalEntry × HashLink) × Books :=
  let books := { books with journalSeq := books.journalSeq + 1 }
  match JournalEntry.new draws.entryId draws.recordedAt draws.transactionId books.journalSeq req.legs
    (req.description.getD "Transfer") with
  | .error e => (.error (.badRequest (.journalError e)), books)
  | .ok entry =>
    match rt.entryToJson entry with
    | .error e => (.error (.badRequest (.serializeError e)), books)
    | .ok chainData =>
      let appended := books.hashChain.append rt.hashing draws.blockTime chainData
      (.ok (entry, appended.1),
        { books with hashChain := appended.2, journal := books.journal ++ [entry] })

-- The second half: debit the sender, credit the receiver, refund the sender if that fails.
def moveFunds (req : TransferRequest) (accounts : Accounts) : Except Reason Unit × Accounts :=
  match AccountService.performDebit accounts req.fromAccount req.amountCents with
  | (.error e, accounts) => (.error (.debitFailed e), accounts)
  | (.ok _, accounts) =>
    match AccountService.performCredit accounts req.toAccount req.amountCents with
    | (.error e, accounts) =>
      -- A refund that fails is logged and nothing else.
      (.error (.creditFailed e),
        (AccountService.performCredit accounts req.fromAccount req.amountCents).2)
    | (.ok _, accounts) => (.ok (), accounts)

def transfer (rt : Runtime) (draws : Draws) (req : TransferRequest) (st : AppState) :
    Except AppError TransferResponse × AppState :=
  let admission := st.circuitBreaker.allowRequest draws.arrival
  let st := { st with circuitBreaker := admission.2 }
  if !admission.1 then (.error .serviceUnavailable, st)
  else
    match AccountService.getAccount st.accounts req.fromAccount with
    | none => (.error .notFound, st)
    | some _ =>
      match journalTransfer rt draws req st.toBooks with
      | (.error e, books) => (.error e, { st with toBooks := books })
      | (.ok (entry, block), books) =>
        let st := { st with toBooks := books }
        match moveFunds req st.accounts with
        | (.error reason, accounts) =>
          (.error (.badRequest reason),
            { st with accounts, circuitBreaker := st.circuitBreaker.recordFailure draws.failure })
        | (.ok (), accounts) =>
          let st := { st with accounts }
          match AccountService.getAccount st.accounts req.fromAccount,
            AccountService.getAccount st.accounts req.toAccount with
          | some fromAccount, some toAccount =>
            (.ok { transactionId := draws.transactionId
                   journalEntryId := entry.id
                   fromBalance := fromAccount.balance
                   toBalance := toAccount.balance
                   chainIndex := block.index
                   chainHash := block.hash },
              { st with circuitBreaker := st.circuitBreaker.recordSuccess })
          | _, _ => (.error .notFound, st)

structure ReversalResponse where
  reversalId : Uuid
  reverses : Uuid
  transactionId : Uuid
  sequenceNumber : Nat
  legs : List EntryLeg

def reversalLeg (accounts : Accounts) (leg : EntryLeg) : Except AppError Unit × Accounts :=
  match leg.side with
  | .debit =>
    match AccountService.performDebit accounts leg.accountId leg.amountCents with
    | (.error e, accounts) => (.error (.badRequest (.reversalDebitFailed e)), accounts)
    | (.ok _, accounts) => (.ok (), accounts)
  | .credit =>
    match AccountService.performCredit accounts leg.accountId leg.amountCents with
    | (.error e, accounts) => (.error (.badRequest (.reversalCreditFailed e)), accounts)
    | (.ok _, accounts) => (.ok (), accounts)

def reverseJournalEntry (rt : Runtime) (draws : Draws) (entryId : JournalEntryId) (st : AppState) :
    Except AppError ReversalResponse × AppState :=
  match st.journal.find? fun e => e.id = entryId with
  | none => (.error .notFound, st)
  | some original =>
    let nextSeq := st.journalSeq + 1
    let st := { st with journalSeq := nextSeq }
    match original.reverse rt.printUuid draws.entryId draws.recordedAt draws.transactionId nextSeq with
    | .error e => (.error (.badRequest (.cannotReverse e)), st)
    | .ok reversal =>
      match forLegs reversalLeg st.accounts reversal.legs with
      | (.error e, accounts) => (.error e, { st with accounts })
      | (.ok (), accounts) =>
        let blockData := rt.reversalToJson (rt.printUuid reversal.id) (rt.printUuid entryId)
          reversal.description nextSeq
        let appended := st.hashChain.append rt.hashing draws.blockTime blockData
        (.ok { reversalId := reversal.id
               reverses := entryId
               transactionId := draws.transactionId
               sequenceNumber := nextSeq
               legs := reversal.legs },
          { st with
            accounts
            hashChain := appended.2
            journal := st.journal ++ [reversal] })

end BankingLedger
