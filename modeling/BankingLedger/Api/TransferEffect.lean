import BankingLedger.Api.Reversal
import BankingLedger.Domain.AccountRuns

set_option autoImplicit false

namespace BankingLedger

open FiniteMap MachineInt
open Account (Moved)

def AllSolvent (accounts : Accounts) : Prop := ∀ id a, accounts.lookup id = some a → a.Solvent

namespace Account.Solvent

variable {a : Account} {amount : Int64} {call : Call}

theorem moved (solvent : a.Solvent) (accepts : a.Accepts call) :
    Moved a (a.accepted call) (credited call - debited call)
      (credited call - debited call - held call + released call) where
  balance := by rw [solvent.accepted_balance accepts, Int.add_sub_assoc]
  available := by
    rw [solvent.accepted_available accepts]
    omega
  identity := by cases call <;> rfl

-- What a debit took fits back in, so a refund is never turned away.
theorem accepts_refund (solvent : a.Solvent) (accepts : a.Accepts (.debit amount)) :
    (a.accepted (.debit amount)).Accepts (.credit amount) := by
  have taken := solvent.accepted_balance accepts
  have bound := bounds a.balance
  obtain ⟨positive, isOpen, _⟩ := accepts
  refine ⟨positive, isOpen, ?_⟩
  rw [Int64.toInt_maxValue, taken]
  simp only [credited, debited]
  omega

theorem refunded (a : Account) (amount : Int64) :
    (a.accepted (.debit amount)).accepted (.credit amount) = a := by
  simp [Account.accepted, shift_shift, Int64.add_left_neg]

end Account.Solvent

theorem AllSolvent.insert {accounts : Accounts} {a : Account} (solvent : AllSolvent accounts)
    (id : AccountId) (here : a.Solvent) : AllSolvent (accounts.insert id a) := by
  intro other b found
  rcases lookup_insert_cases found with ⟨_, rfl⟩ | before
  · exact here
  · exact solvent other b before

section Service

variable {accounts : Accounts} {amount : Int64}

theorem onAccount_cases {E A : Type} {notFound : AccountId → E}
    {operation : Account → Except E A × Account} {call : Call}
    (passes : ∀ {a : Account}, a.Solvent → a.Accepts call → ∃ n, operation a = (.ok n, a.accepted call))
    (refuses : ∀ {a : Account}, a.Solvent → ¬a.Accepts call → ∃ e, operation a = (.error e, a))
    (solvent : AllSolvent accounts) (id : AccountId) :
    (∃ e, AccountService.onAccount notFound operation accounts id = (.error e, accounts) ∧
        ∀ a, accounts.lookup id = some a → ¬a.Accepts call) ∨
      ∃ a n, accounts.lookup id = some a ∧ a.Accepts call ∧
        AccountService.onAccount notFound operation accounts id =
          (.ok n, accounts.insert id (a.accepted call)) := by
  unfold AccountService.onAccount
  cases found : accounts.lookup id with
  | none => exact .inl ⟨_, rfl, by simp⟩
  | some a =>
    by_cases accepts : a.Accepts call
    next =>
      obtain ⟨n, passed⟩ := passes (solvent id a found) accepts
      exact .inr ⟨a, n, rfl, accepts, by simp [passed]⟩
    next =>
      obtain ⟨e, refused⟩ := refuses (solvent id a found) accepts
      exact .inl ⟨e, by simp [refused, insert_lookup_self found], by simpa using accepts⟩

theorem performDebit_cases (solvent : AllSolvent accounts) (id : AccountId) (amount : Int64) :
    (∃ e, AccountService.performDebit accounts id amount = (.error e, accounts) ∧
        ∀ a, accounts.lookup id = some a → ¬a.Accepts (.debit amount)) ∨
      ∃ a n, accounts.lookup id = some a ∧ a.Accepts (.debit amount) ∧
        AccountService.performDebit accounts id amount =
          (.ok n, accounts.insert id (a.accepted (.debit amount))) := by
  refine onAccount_cases ?_ ?_ solvent id
  · intro a solvent accepts
    exact ⟨_, Account.debit_of_passes (Account.debitPasses_iff.mpr accepts)⟩
  · intro a solvent refuses
    exact Account.debit_of_refused (Account.debitPasses_iff.not.mpr refuses)

theorem performCredit_cases (solvent : AllSolvent accounts) (id : AccountId) (amount : Int64) :
    (∃ e, AccountService.performCredit accounts id amount = (.error e, accounts) ∧
        ∀ a, accounts.lookup id = some a → ¬a.Accepts (.credit amount)) ∨
      ∃ a n, accounts.lookup id = some a ∧ a.Accepts (.credit amount) ∧
        AccountService.performCredit accounts id amount =
          (.ok n, accounts.insert id (a.accepted (.credit amount))) := by
  refine onAccount_cases ?_ ?_ solvent id
  · intro a solvent accepts
    exact ⟨_, Account.credit_of_passes (solvent.creditPasses_iff.mpr accepts)⟩
  · intro a solvent refuses
    exact Account.credit_of_refused (solvent.creditPasses_iff.not.mpr refuses) solvent.not_strands

end Service

-- What a transfer adds to an account; nothing where it goes back to where it came from.
def TransferRequest.change (req : TransferRequest) (id : AccountId) : Int :=
  (if id = req.fromAccount then -req.amountCents.toInt else 0) +
    if id = req.toAccount then req.amountCents.toInt else 0

structure FundsMoved (req : TransferRequest) (accounts accounts' : Accounts) : Prop where
  moved : AccountsMoved accounts accounts' req.change req.change
  others : ∀ id, id ≠ req.fromAccount → id ≠ req.toAccount → accounts'.lookup id = accounts.lookup id
  sender : ∃ a, accounts'.lookup req.fromAccount = some a
  receiver : ∃ a, accounts'.lookup req.toAccount = some a

theorem fundsMoved {req : TransferRequest} {accounts : Accounts} {sender receiver : Account}
    (solvent : AllSolvent accounts) (senderFound : accounts.lookup req.fromAccount = some sender)
    (debitable : sender.Accepts (.debit req.amountCents))
    (receiverFound : (accounts.insert req.fromAccount
      (sender.accepted (.debit req.amountCents))).lookup req.toAccount = some receiver)
    (creditable : receiver.Accepts (.credit req.amountCents)) :
    FundsMoved req accounts
      ((accounts.insert req.fromAccount (sender.accepted (.debit req.amountCents))).insert req.toAccount
        (receiver.accepted (.credit req.amountCents))) := by
  have senderSolvent := solvent _ _ senderFound
  have solvent' := solvent.insert req.fromAccount (senderSolvent.accepted debitable)
  have debited := AccountsMoved.insert senderFound (senderSolvent.moved debitable)
  have credited := AccountsMoved.insert receiverFound ((solvent' _ _ receiverFound).moved creditable)
  constructor
  case moved =>
    have both := debited.trans credited
    simp only [Account.credited, Account.debited, Account.held, Account.released, Int.zero_sub,
      Int.sub_zero, Int.add_zero] at both
    exact both
  case others =>
    intro id notSender notReceiver
    rw [lookup_insert_eq, if_neg notReceiver, lookup_insert_eq, if_neg notSender]
  case sender =>
    rw [lookup_insert_eq]
    by_cases same : req.fromAccount = req.toAccount <;> simp [same]
  case receiver => exact ⟨_, Finmap.lookup_insert _⟩

theorem refund_restores {accounts : Accounts} {id : AccountId} {a : Account} {amount : Int64}
    (solvent : AllSolvent accounts) (found : accounts.lookup id = some a)
    (debitable : a.Accepts (.debit amount)) :
    (AccountService.performCredit (accounts.insert id (a.accepted (.debit amount))) id amount).2 =
      accounts := by
  have debitedFound : (accounts.insert id (a.accepted (.debit amount))).lookup id =
      some (a.accepted (.debit amount)) := Finmap.lookup_insert accounts
  have solvent' := solvent.insert id ((solvent _ _ found).accepted debitable)
  rcases performCredit_cases solvent' id amount with ⟨e, _, rejects⟩ | ⟨b, n, bFound, _, refunded⟩
  next => exact absurd ((solvent _ _ found).accepts_refund debitable) (rejects _ debitedFound)
  next =>
    rw [debitedFound, Option.some.injEq] at bFound
    rw [refunded, ← bFound, Finmap.insert_insert, Account.Solvent.refunded, insert_lookup_self found]

theorem moveFunds_effect (req : TransferRequest) {accounts : Accounts} (solvent : AllSolvent accounts) :
    (∃ reason, moveFunds req accounts = (.error reason, accounts)) ∨
      ∃ accounts', moveFunds req accounts = (.ok (), accounts') ∧ FundsMoved req accounts accounts' := by
  rcases performDebit_cases solvent req.fromAccount req.amountCents with
    ⟨e, refused, _⟩ | ⟨sender, n, senderFound, debitable, debited⟩
  next => exact .inl ⟨.debitFailed e, by simp only [moveFunds, refused]⟩
  have solvent' := solvent.insert req.fromAccount ((solvent _ _ senderFound).accepted debitable)
  rcases performCredit_cases solvent' req.toAccount req.amountCents with
    ⟨e, refused, _⟩ | ⟨receiver, m, receiverFound, creditable, credited⟩
  next =>
    have restored := refund_restores solvent senderFound debitable
    exact .inl ⟨.creditFailed e, by simp only [moveFunds, debited, refused, restored]⟩
  next =>
    exact .inr ⟨_, by simp only [moveFunds, debited, credited],
      fundsMoved solvent senderFound debitable receiverFound creditable⟩

structure Transferred (rt : Runtime) (draws : Draws) (req : TransferRequest) (st : AppState)
    (response : TransferResponse) (st' : AppState) : Prop where
  funds : FundsMoved req st.accounts st'.accounts
  journal : st'.journal = st.journal ++ [req.entry draws (st.journalSeq + 1)]
  chain : ∃ text, rt.entryToJson (req.entry draws (st.journalSeq + 1)) = .ok text ∧
    let appended := st.hashChain.append rt.hashing draws.blockTime text
    st'.hashChain.blocks = st.hashChain.blocks ++ [appended.1] ∧
      response.chainIndex = appended.1.index ∧ response.chainHash = appended.1.hash
  sender : ∃ a, st'.accounts.lookup req.fromAccount = some a ∧ response.fromBalance = a.balance
  receiver : ∃ a, st'.accounts.lookup req.toAccount = some a ∧ response.toBalance = a.balance

theorem journalTransfer_writes {rt : Runtime} {draws : Draws} {req : TransferRequest}
    {books books' : Books} {entry : JournalEntry} {block : HashLink}
    (written : journalTransfer rt draws req books = (.ok (entry, block), books')) :
    ∃ text, rt.entryToJson (req.entry draws (books.journalSeq + 1)) = .ok text ∧
      let appended := books.hashChain.append rt.hashing draws.blockTime text
      block = appended.1 ∧ books'.hashChain = appended.2 := by
  simp only [journalTransfer] at written
  by_cases positive : 0 < req.amountCents
  next =>
    simp only [TransferRequest.entry_accepted positive] at written
    cases serialized : rt.entryToJson (req.entry draws (books.journalSeq + 1)) with
    | error e => simp [serialized] at written
    | ok text =>
      simp only [serialized, Prod.mk.injEq, Except.ok.injEq] at written
      obtain ⟨⟨_, same⟩, rfl⟩ := written
      exact ⟨text, rfl, same.symm, rfl⟩
  next =>
    obtain ⟨e, refused⟩ := TransferRequest.entry_refused positive draws (books.journalSeq + 1)
    simp [refused] at written

def TransferEffect (rt : Runtime) (draws : Draws) (req : TransferRequest) (st : AppState) :
    Except AppError TransferResponse × AppState → Prop
  | (.ok response, st') => Transferred rt draws req st response st'
  | (.error _, st') => st'.accounts = st.accounts

/-- A transfer that returns `Ok` moves the amount and is recorded once, one that returns `Err` leaves every
account as it was. -/
theorem transfer_effect (rt : Runtime) (draws : Draws) (req : TransferRequest) (st : AppState)
    (solvent : AllSolvent st.accounts) : TransferEffect rt draws req st (transfer rt draws req st) := by
  unfold transfer
  simp only
  split
  next => rfl
  cases AccountService.getAccount st.accounts req.fromAccount with
  | none => rfl
  | some snapshot =>
    simp only
    rcases journalTransfer_cases rt draws req st.toBooks with
      ⟨e, refused⟩ | ⟨_, _, block, chain, written⟩
    next =>
      simp only [refused]
      rfl
    next =>
      simp only [written]
      rcases moveFunds_effect req solvent with ⟨reason, failed⟩ | ⟨accounts', moved, funds⟩
      next =>
        simp only [failed]
        rfl
      next =>
        obtain ⟨sender, senderFound⟩ := funds.sender
        obtain ⟨receiver, receiverFound⟩ := funds.receiver
        obtain ⟨text, serialized, blockValue, chainValue⟩ := journalTransfer_writes written
        simp only [moved, AccountService.getAccount, senderFound, receiverFound]
        exact
          { funds
            journal := rfl
            chain := ⟨text, serialized, by rw [chainValue]; rfl, by rw [blockValue], by rw [blockValue]⟩
            sender := ⟨sender, senderFound, rfl⟩
            receiver := ⟨receiver, receiverFound, rfl⟩ }

namespace Sample

-- The credit of the first overflows and the sender is refunded. The second finds room.
def fullReceiver : AppState := twoAccounts 1000 Int64.maxValue

def emptyReceiver : AppState := twoAccounts 1000 0

def overflowing : TransferRequest := ⟨uuid 1, uuid 2, 100, none⟩

theorem twoAccounts_solvent {first second : Int64} (nonneg : 0 ≤ first.toInt) (nonneg' : 0 ≤ second.toInt) :
    AllSolvent (twoAccounts first second).accounts := by
  have empty : AllSolvent (∅ : Accounts) := fun id a found => by simp at found
  have sender : (Account.new (uuid 1) .asset "USD" first none).Solvent := Account.solvent_new nonneg
  have receiver : (Account.new (uuid 2) .asset "USD" second none).Solvent := Account.solvent_new nonneg'
  exact (empty.insert (uuid 1) sender).insert (uuid 2) receiver

end Sample

open Sample

theorem transfer_effect_refunded :
    TransferEffect runtime (draws 10) overflowing fullReceiver
        (transfer runtime (draws 10) overflowing fullReceiver) ∧
      (transfer runtime (draws 10) overflowing fullReceiver).1.isOk = false ∧
      TransferEffect runtime (draws 10) overflowing emptyReceiver
        (transfer runtime (draws 10) overflowing emptyReceiver) ∧
      (transfer runtime (draws 10) overflowing emptyReceiver).1.isOk = true := by
  have refunded := transfer_effect runtime (draws 10) overflowing fullReceiver
    (twoAccounts_solvent (by decide) (by decide))
  have succeeded := transfer_effect runtime (draws 10) overflowing emptyReceiver
    (twoAccounts_solvent (by decide) (by decide))
  exact ⟨refunded, by decide +kernel, succeeded, by decide +kernel⟩

end BankingLedger
