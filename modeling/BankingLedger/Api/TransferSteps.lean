import BankingLedger.Service.SharedAccounts
import BankingLedger.Api.Handlers

set_option autoImplicit false

namespace BankingLedger

open FiniteMap MachineInt Interleaving

structure TransferCall where
  req : TransferRequest
  admitted : Bool
  draws : Draws

-- One step for each lock section of the books and each atomic step on an account. What the breaker answers is
-- part of the call.
inductive TransferPc where
  | start
  | snapshot
  | drawSequence
  | appendChain (entry : JournalEntry) (chainData : String)
  | pushJournal (entry : JournalEntry) (block : HashLink)
  | debiting (entry : JournalEntry) (block : HashLink) (pc : DebitPc)
  | crediting (entry : JournalEntry) (block : HashLink) (pc : CreditPc)
  | rollingBack (e : CreditError) (pc : CreditPc)
  | logRollback (e : CreditError) (refund : Except CreditError Int64)
  | readFrom (entry : JournalEntry) (block : HashLink)
  | readTo (entry : JournalEntry) (block : HashLink) (fromBalance : Int64)
  | returned (result : Except AppError TransferResponse)

namespace TransferPc

def afterDebit (entry : JournalEntry) (block : HashLink) : DebitPc → TransferPc
  | .returned (.ok _) => .crediting entry block .start
  | .returned (.error e) => .returned (.error (.badRequest (.debitFailed e)))
  | pc => .debiting entry block pc

def afterCredit (entry : JournalEntry) (block : HashLink) : CreditPc → TransferPc
  | .returned (.ok _) => .readFrom entry block
  | .returned (.error e) => .rollingBack e .start
  | pc => .crediting entry block pc

def afterRefund (e : CreditError) : CreditPc → TransferPc
  | .returned refund => .logRollback e refund
  | pc => .rollingBack e pc

end TransferPc

def transferStep (rt : Runtime) (call : TransferCall) (books : Books) :
    TransferPc → Option (Books × TransferPc)
  | .start =>
    if !call.admitted then some (books, .returned (.error .serviceUnavailable))
    else some (books, .snapshot)
  | .snapshot =>
    match AccountService.getAccount books.accounts call.req.fromAccount with
    | none => some (books, .returned (.error .notFound))
    | some _ => some (books, .drawSequence)
  | .drawSequence =>
    let books := { books with journalSeq := books.journalSeq + 1 }
    match JournalEntry.new call.draws.entryId call.draws.recordedAt call.draws.transactionId
      books.journalSeq call.req.legs (call.req.description.getD "Transfer") with
    | .error e => some (books, .returned (.error (.badRequest (.journalError e))))
    | .ok entry =>
      match rt.entryToJson entry with
      | .error e => some (books, .returned (.error (.badRequest (.serializeError e))))
      | .ok chainData => some (books, .appendChain entry chainData)
  | .appendChain entry chainData =>
    let appended := books.hashChain.append rt.hashing call.draws.blockTime chainData
    some ({ books with hashChain := appended.2 }, .pushJournal entry appended.1)
  | .pushJournal entry block =>
    some ({ books with journal := books.journal ++ [entry] }, .debiting entry block .start)
  | .debiting entry block pc =>
    (debitAt call.req.fromAccount call.req.amountCents books.accounts pc).map fun next =>
      ({ books with accounts := next.1 }, .afterDebit entry block next.2)
  | .crediting entry block pc =>
    (creditAt call.req.toAccount call.req.amountCents books.accounts pc).map fun next =>
      ({ books with accounts := next.1 }, .afterCredit entry block next.2)
  | .rollingBack e pc =>
    (creditAt call.req.fromAccount call.req.amountCents books.accounts pc).map fun next =>
      ({ books with accounts := next.1 }, .afterRefund e next.2)
  | .logRollback e _ => some (books, .returned (.error (.badRequest (.creditFailed e))))
  | .readFrom entry block =>
    match AccountService.getAccount books.accounts call.req.fromAccount with
    | none => some (books, .returned (.error .notFound))
    | some a => some (books, .readTo entry block a.balance)
  | .readTo entry block fromBalance =>
    match AccountService.getAccount books.accounts call.req.toAccount with
    | none => some (books, .returned (.error .notFound))
    | some a =>
      some (books, .returned (.ok
        { transactionId := call.draws.transactionId
          journalEntryId := entry.id
          fromBalance
          toBalance := a.balance
          chainIndex := block.index
          chainHash := block.hash }))
  | .returned _ => none

inductive StatusCall where
  | setAccountStatus (admitted : Bool) (id : AccountId) (status : Option String)
  | coaDeactivate (id : AccountId) (blockTime : Timestamp)

inductive StatusReply where
  | account (response : AccountResponse)
  | deactivated (response : DeactivateResponse)

inductive StatusCallPc where
  | start
  | set (newStatus : AccountStatus)
  | finish
  | returned (result : Except AppError StatusReply)

def StatusCall.accountId : StatusCall → AccountId
  | .setAccountStatus _ id _ => id
  | .coaDeactivate id _ => id

def StatusCall.invalid : StatusCall → AccountStatusError → Reason
  | .setAccountStatus .. => .invalidStatusTransition
  | .coaDeactivate .. => .cannotClose

def statusCallStep (rt : Runtime) (call : StatusCall) (books : Books) :
    StatusCallPc → Option (Books × StatusCallPc)
  | .start =>
    match call with
    | .setAccountStatus admitted _ status =>
      if !admitted then some (books, .returned (.error .serviceUnavailable))
      else
        match parseStatus (rt.toUppercase (status.getD "OPEN")) with
        | none => some (books, .returned (.error (.badRequest .invalidStatus)))
        | some newStatus => some (books, .set newStatus)
    | .coaDeactivate .. => some (books, .set .Closed)
  | .set newStatus =>
    match AccountService.setStatus books.accounts call.accountId newStatus with
    | (.ok false, accounts) => some ({ books with accounts }, .returned (.error .notFound))
    | (.error e, accounts) =>
      some ({ books with accounts }, .returned (.error (.badRequest (call.invalid e))))
    | (.ok true, accounts) => some ({ books with accounts }, .finish)
  | .finish =>
    match call with
    | .setAccountStatus _ id _ =>
      match AccountService.getAccount books.accounts id with
      | none => some (books, .returned (.error .notFound))
      | some account =>
        some (books, .returned (.ok (.account (.fromAccount rt account))))
    | .coaDeactivate id blockTime =>
      let appended := books.hashChain.append rt.hashing blockTime
        ("coa_deactivate:" ++ rt.printUuid id)
      some ({ books with hashChain := appended.2 },
        .returned (.ok (.deactivated { id, status := "Deactivated" })))
  | .returned _ => none

namespace TransferPc

-- What a transfer has added to a cell of each account so far, given what a debit and a credit
-- in progress have. One that failed counts for nothing.
def applied (req : TransferRequest) (debited : DebitPc → Int) (credited : CreditPc → Int) :
    TransferPc → AccountId → Int
  | .debiting _ _ pc, id => only req.fromAccount (debited pc) id
  | .crediting _ _ pc, id =>
    only req.fromAccount (-req.amountCents.toInt) id + only req.toAccount (credited pc) id
  | .rollingBack _ pc, id => only req.fromAccount (-req.amountCents.toInt + credited pc) id
  | .logRollback _ refund, id =>
    only req.fromAccount (-req.amountCents.toInt + credited (.returned refund)) id
  | .readFrom .., id | .readTo .., id | .returned (.ok _), id =>
    only req.fromAccount (-req.amountCents.toInt) id + only req.toAccount req.amountCents.toInt id
  | _, _ => 0

def appliedBalance (req : TransferRequest) : TransferPc → AccountId → Int :=
  applied req (DebitPc.appliedBalance req.amountCents) (CreditPc.appliedBalance req.amountCents)

def appliedAvailable (req : TransferRequest) : TransferPc → AccountId → Int :=
  applied req (DebitPc.appliedAvailable req.amountCents) (CreditPc.appliedAvailable req.amountCents)

-- `present` are the accounts of the registry. The last clause of a refund is the one that takes
-- an argument: it has succeeded.
def WF (req : TransferRequest) (present : AccountId → Prop) : TransferPc → Prop
  | .start | .snapshot | .returned (.error _) => True
  | .drawSequence | .appendChain .. | .pushJournal .. => present req.fromAccount
  | .debiting _ _ pc => present req.fromAccount ∧ pc.WF req.amountCents
  | .crediting _ _ pc =>
    present req.fromAccount ∧ 0 < req.amountCents.toInt ∧ pc.WF req.amountCents ∧
      (pc = .start ∨ present req.toAccount)
  | .rollingBack _ pc =>
    present req.fromAccount ∧ 0 < req.amountCents.toInt ∧ pc.WF req.amountCents
  | .logRollback _ refund => present req.fromAccount ∧ ∃ newBalance, refund = .ok newBalance
  | .readFrom .. | .readTo .. | .returned (.ok _) =>
    present req.fromAccount ∧ present req.toAccount ∧ 0 < req.amountCents.toInt

-- What the next step needs of the accounts: a subtraction that does not wrap, a second addition
-- that does not overflow, and a refund that is not turned away.
def Clear (req : TransferRequest) (accounts : Accounts) : TransferPc → Prop
  | .debiting _ _ .subtract =>
    ∀ a, accounts.lookup req.fromAccount = some a → req.amountCents.toInt ≤ a.balance.toInt
  | .crediting _ _ (.loadAvailable _) =>
    ∀ a, accounts.lookup req.toAccount = some a →
      a.availableBalance.toInt + req.amountCents.toInt ≤ 9223372036854775807
  | .rollingBack _ (.loadAvailable _) =>
    ∀ a, accounts.lookup req.fromAccount = some a →
      a.availableBalance.toInt + req.amountCents.toInt ≤ 9223372036854775807
  | .rollingBack _ .loadBalance =>
    ∀ a, accounts.lookup req.fromAccount = some a →
      a.balance.toInt + req.amountCents.toInt ≤ 9223372036854775807
  | .rollingBack _ .start =>
    ∀ a, accounts.lookup req.fromAccount = some a → a.status = .Open
  | _ => True

-- `debited` and `credited` count a call that returned for its result alone.
structure Counts (amount : Int64) (debited : DebitPc → Int) (credited : CreditPc → Int) : Prop where
  debitOk : ∀ newBalance, debited (.returned (.ok newBalance)) = -amount.toInt
  debitError : ∀ e, debited (.returned (.error e)) = 0
  creditOk : ∀ newBalance, credited (.returned (.ok newBalance)) = amount.toInt
  creditError : ∀ e, credited (.returned (.error e)) = 0
  creditStart : credited .start = 0

theorem counts_balance (amount : Int64) :
    Counts amount (DebitPc.appliedBalance amount) (CreditPc.appliedBalance amount) :=
  ⟨fun _ => rfl, fun _ => rfl, fun _ => rfl, fun _ => rfl, rfl⟩

theorem counts_available (amount : Int64) :
    Counts amount (DebitPc.appliedAvailable amount) (CreditPc.appliedAvailable amount) :=
  ⟨fun _ => rfl, fun _ => rfl, fun _ => rfl, fun _ => rfl, rfl⟩

section Applied

variable {req : TransferRequest} {debited : DebitPc → Int} {credited : CreditPc → Int}
  (counts : Counts req.amountCents debited credited) (entry : JournalEntry) (block : HashLink)
  (id : AccountId)

include counts

theorem applied_afterDebit (pc : DebitPc) :
    (afterDebit entry block pc).applied req debited credited id =
      only req.fromAccount (debited pc) id := by
  rcases pc with _ | _ | _ | _ | (_ | _) <;>
    simp [afterDebit, applied, counts.debitOk, counts.debitError, counts.creditStart]

theorem applied_afterCredit (pc : CreditPc) :
    (afterCredit entry block pc).applied req debited credited id =
      only req.fromAccount (-req.amountCents.toInt) id + only req.toAccount (credited pc) id := by
  rcases pc with _ | _ | _ | _ | _ | (_ | _) <;>
    simp [afterCredit, applied, counts.creditOk, counts.creditError, counts.creditStart]

end Applied

theorem applied_afterRefund (req : TransferRequest) (debited : DebitPc → Int)
    (credited : CreditPc → Int) (e : CreditError) (pc : CreditPc) (id : AccountId) :
    (afterRefund e pc).applied req debited credited id =
      only req.fromAccount (-req.amountCents.toInt + credited pc) id := by
  cases pc <;> rfl

end TransferPc

section Spec

variable {rt : Runtime} {call : TransferCall} {books books' : Books} {pc' : TransferPc}
  {present : AccountId → Prop}

open TransferPc

def TransferPc.Moves (req : TransferRequest) (pc pc' : TransferPc) (accounts accounts' : Accounts) :
    Prop :=
  RegistryStep (fun id => pc'.appliedBalance req id - pc.appliedBalance req id)
    (fun id => pc'.appliedAvailable req id - pc.appliedAvailable req id) accounts accounts'

theorem TransferPc.Moves.silent {req : TransferRequest} {pc pc' : TransferPc} (accounts : Accounts)
    (balance : ∀ id, pc'.appliedBalance req id = pc.appliedBalance req id)
    (available : ∀ id, pc'.appliedAvailable req id = pc.appliedAvailable req id) :
    Moves req pc pc' accounts accounts :=
  RegistryStep.unchanged accounts (fun id => by rw [balance, sub_self])
    (fun id => by rw [available, sub_self])

theorem debiting_spec {entry : JournalEntry} {block : HashLink} {pc : DebitPc}
    (wf : (TransferPc.debiting entry block pc).WF call.req present)
    (keys : ∀ id, present id → (books.accounts.lookup id).isSome)
    (clear : (TransferPc.debiting entry block pc).Clear call.req books.accounts)
    (step : transferStep rt call books (.debiting entry block pc) = some (books', pc')) :
    pc'.WF call.req present ∧
      Moves call.req (.debiting entry block pc) pc' books.accounts books'.accounts := by
  obtain ⟨sender, wf⟩ := wf
  simp only [transferStep, Option.map_eq_some_iff] at step
  obtain ⟨⟨accounts, inner⟩, step, same⟩ := step
  cases same
  have floor : pc = .subtract → ∀ a, books.accounts.lookup call.req.fromAccount = some a →
      call.req.amountCents.toInt ≤ a.balance.toInt := by
    rintro rfl
    exact clear
  obtain ⟨wf', registry⟩ := debitAt_spec wf (.inr (keys _ sender)) step floor
  constructor
  · rcases inner with _ | _ | _ | _ | (_ | _)
    · exact ⟨sender, wf'⟩
    · exact ⟨sender, wf'⟩
    · exact ⟨sender, wf'⟩
    · exact ⟨sender, wf'⟩
    · trivial
    · exact ⟨sender, wf', trivial, .inl rfl⟩
  · simp only [Moves, appliedBalance, appliedAvailable, applied_afterDebit (counts_balance _),
      applied_afterDebit (counts_available _)]
    simpa only [applied, ← only_sub] using registry

theorem crediting_spec {entry : JournalEntry} {block : HashLink} {pc : CreditPc}
    (wf : (TransferPc.crediting entry block pc).WF call.req present)
    (keys : ∀ id, present id ↔ (books.accounts.lookup id).isSome)
    (clear : (TransferPc.crediting entry block pc).Clear call.req books.accounts)
    (step : transferStep rt call books (.crediting entry block pc) = some (books', pc')) :
    pc'.WF call.req present ∧
      Moves call.req (.crediting entry block pc) pc' books.accounts books'.accounts := by
  obtain ⟨sender, positive, wf, receiver⟩ := wf
  simp only [transferStep, Option.map_eq_some_iff] at step
  obtain ⟨⟨accounts, inner⟩, step, same⟩ := step
  cases same
  have room : ∀ newBalance, pc = .loadAvailable newBalance → ∀ a,
      books.accounts.lookup call.req.toAccount = some a →
      a.availableBalance.toInt + call.req.amountCents.toInt ≤ 9223372036854775807 := by
    rintro newBalance rfl
    exact clear
  obtain ⟨wf', registry⟩ := creditAt_spec wf (receiver.imp_right (keys _).mp) step room
  constructor
  · rcases creditAt_found step with found | rfl
    · have receiver := (keys _).mpr found
      rcases inner with _ | _ | _ | _ | _ | (_ | _)
      · exact ⟨sender, positive, wf', .inr receiver⟩
      · exact ⟨sender, positive, wf', .inr receiver⟩
      · exact ⟨sender, positive, wf', .inr receiver⟩
      · exact ⟨sender, positive, wf', .inr receiver⟩
      · exact ⟨sender, positive, wf', .inr receiver⟩
      · exact ⟨sender, positive, trivial⟩
      · exact ⟨sender, receiver, positive⟩
    · exact ⟨sender, positive, trivial⟩
  · simp only [Moves, appliedBalance, appliedAvailable, applied_afterCredit (counts_balance _),
      applied_afterCredit (counts_available _)]
    simpa only [applied, add_sub_add_left_eq_sub, ← only_sub] using registry

theorem rollingBack_spec {e : CreditError} {pc : CreditPc}
    (wf : (TransferPc.rollingBack e pc).WF call.req present)
    (keys : ∀ id, present id ↔ (books.accounts.lookup id).isSome)
    (clear : (TransferPc.rollingBack e pc).Clear call.req books.accounts)
    (step : transferStep rt call books (.rollingBack e pc) = some (books', pc')) :
    pc'.WF call.req present ∧
      Moves call.req (.rollingBack e pc) pc' books.accounts books'.accounts := by
  obtain ⟨sender, positive, wf⟩ := wf
  simp only [transferStep, Option.map_eq_some_iff] at step
  obtain ⟨⟨accounts, inner⟩, step, same⟩ := step
  cases same
  have room : ∀ newBalance, pc = .loadAvailable newBalance → ∀ a,
      books.accounts.lookup call.req.fromAccount = some a →
      a.availableBalance.toInt + call.req.amountCents.toInt ≤ 9223372036854775807 := by
    rintro newBalance rfl
    exact clear
  obtain ⟨wf', registry⟩ := creditAt_spec wf (.inr ((keys _).mp sender)) step room
  constructor
  · cases inner with
    | returned refund =>
      refine ⟨sender, creditAt_succeeds positive ((keys _).mp sender) step ?_ ?_ room⟩
      · rintro rfl
        exact clear
      · rintro rfl
        exact clear
    | _ => exact ⟨sender, positive, wf'⟩
  · simp only [Moves, appliedBalance, appliedAvailable, applied_afterRefund]
    simpa only [applied, ← only_sub, add_sub_add_left_eq_sub] using registry

theorem transferStep_spec {pc : TransferPc} (wf : pc.WF call.req present)
    (keys : ∀ id, present id ↔ (books.accounts.lookup id).isSome)
    (clear : pc.Clear call.req books.accounts)
    (step : transferStep rt call books pc = some (books', pc')) :
    pc'.WF call.req present ∧ Moves call.req pc pc' books.accounts books'.accounts := by
  cases pc with
  | start =>
    simp only [transferStep] at step
    split_ifs at step <;> cases step <;>
      exact ⟨trivial, .silent _ (fun _ => rfl) fun _ => rfl⟩
  | snapshot =>
    simp only [transferStep, AccountService.getAccount] at step
    cases found : books.accounts.lookup call.req.fromAccount with
    | none =>
      simp only [found] at step
      cases step
      exact ⟨trivial, .silent _ (fun _ => rfl) fun _ => rfl⟩
    | some a =>
      simp only [found] at step
      cases step
      exact ⟨(keys _).mpr (by simp [found]), .silent _ (fun _ => rfl) fun _ => rfl⟩
  | drawSequence =>
    simp only [transferStep] at step
    split at step
    · cases step
      exact ⟨trivial, .silent _ (fun _ => rfl) fun _ => rfl⟩
    · split at step <;> cases step
      · exact ⟨trivial, .silent _ (fun _ => rfl) fun _ => rfl⟩
      · exact ⟨wf, .silent _ (fun _ => rfl) fun _ => rfl⟩
  | appendChain entry chainData =>
    cases step
    exact ⟨wf, .silent _ (fun _ => rfl) fun _ => rfl⟩
  | pushJournal entry block =>
    cases step
    refine ⟨⟨wf, trivial⟩, .silent _ (fun id => ?_) fun id => ?_⟩
    · exact only_zero _ id
    · exact only_zero _ id
  | debiting entry block pc => exact debiting_spec wf (fun id => (keys id).mp) clear step
  | crediting entry block pc => exact crediting_spec wf keys clear step
  | rollingBack e pc => exact rollingBack_spec wf keys clear step
  | logRollback e refund =>
    obtain ⟨-, newBalance, rfl⟩ := wf
    cases step
    -- The refund has put back exactly what the debit took.
    refine ⟨trivial, .silent _ (fun id => ?_) fun id => ?_⟩
    · simp [appliedBalance, applied, CreditPc.appliedBalance]
    · simp [appliedAvailable, applied, CreditPc.appliedAvailable]
  | readFrom entry block =>
    obtain ⟨a, found⟩ := Option.isSome_iff_exists.mp ((keys _).mp wf.1)
    simp only [transferStep, AccountService.getAccount, found] at step
    cases step
    exact ⟨wf, .silent _ (fun _ => rfl) fun _ => rfl⟩
  | readTo entry block fromBalance =>
    obtain ⟨a, found⟩ := Option.isSome_iff_exists.mp ((keys _).mp wf.2.1)
    simp only [transferStep, AccountService.getAccount, found] at step
    cases step
    exact ⟨wf, .silent _ (fun _ => rfl) fun _ => rfl⟩
  | returned result => simp [transferStep] at step

end Spec

section Totals

variable {req : TransferRequest} {present : AccountId → Prop}

open TransferPc

theorem TransferPc.inFlight_nonneg {pc : TransferPc} (wf : pc.WF req present) (id : AccountId) :
    0 ≤ pc.appliedBalance req id - pc.appliedAvailable req id := by
  cases pc with
  | debiting entry block pc =>
    have gap := DebitPc.applied_gap req.amountCents pc
    have bound := (DebitPc.applied_bounds wf.2).1
    simp only [appliedBalance, appliedAvailable, applied, ← only_sub]
    exact only_nonneg (by omega) id
  | crediting entry block pc =>
    have gap := CreditPc.applied_gap req.amountCents pc
    have bound := (CreditPc.applied_bounds wf.2.2.1).1
    simp only [appliedBalance, appliedAvailable, applied, add_sub_add_left_eq_sub, ← only_sub]
    exact only_nonneg (by omega) id
  | rollingBack e pc =>
    have gap := CreditPc.applied_gap req.amountCents pc
    have bound := (CreditPc.applied_bounds wf.2.2).1
    simp only [appliedBalance, appliedAvailable, applied, ← only_sub]
    exact only_nonneg (by omega) id
  | logRollback e refund =>
    obtain ⟨-, newBalance, rfl⟩ := wf
    simp [appliedBalance, appliedAvailable, applied, CreditPc.appliedBalance,
      CreditPc.appliedAvailable]
  | returned result => cases result <;> simp [appliedBalance, appliedAvailable, applied]
  | _ => simp [appliedBalance, appliedAvailable, applied]

variable {keys : Finset AccountId}

theorem TransferPc.net_returned {result : Except AppError TransferResponse}
    (wf : (TransferPc.returned result).WF req (· ∈ keys)) :
    ∑ id ∈ keys, (TransferPc.returned result).appliedBalance req id = 0 := by
  cases result with
  | error e => simp [appliedBalance, applied]
  | ok response =>
    obtain ⟨sender, receiver, -⟩ := wf
    simp [appliedBalance, applied, Finset.sum_add_distrib, sum_only sender, sum_only receiver]

-- A transfer never has more money in the books than it took out of them.
theorem TransferPc.net_nonpos {pc : TransferPc} (wf : pc.WF req (· ∈ keys)) :
    ∑ id ∈ keys, pc.appliedBalance req id ≤ 0 := by
  cases pc with
  | debiting entry block pc =>
    obtain ⟨sender, wf⟩ := wf
    have gap := DebitPc.applied_gap req.amountCents pc
    simp only [appliedBalance, applied, sum_only sender]
    rcases pc with _ | _ | _ | _ | (_ | _) <;>
      simp only [DebitPc.appliedBalance, DebitPc.WF] at * <;> omega
  | crediting entry block pc =>
    obtain ⟨sender, positive, wf, receiver⟩ := wf
    have bound := (CreditPc.applied_bounds wf).2.2
    simp only [appliedBalance, applied, Finset.sum_add_distrib, sum_only sender]
    rcases receiver with rfl | receiver
    · simp [CreditPc.appliedBalance]
      omega
    · rw [sum_only receiver]
      omega
  | rollingBack e pc =>
    obtain ⟨sender, positive, wf⟩ := wf
    have bound := (CreditPc.applied_bounds wf).2.2
    simp only [appliedBalance, applied, sum_only sender]
    omega
  | logRollback e refund =>
    obtain ⟨sender, newBalance, rfl⟩ := wf
    simp [appliedBalance, applied, CreditPc.appliedBalance]
  | readFrom | readTo =>
    obtain ⟨sender, receiver, -⟩ := wf
    simp [appliedBalance, applied, Finset.sum_add_distrib, sum_only sender, sum_only receiver]
  | returned result => exact (net_returned wf).le
  | _ => simp [appliedBalance, applied]

theorem TransferPc.net_refund (e : CreditError)
    (wf : (TransferPc.rollingBack e .loadBalance).WF req (· ∈ keys)) :
    ∑ id ∈ keys, (TransferPc.rollingBack e .loadBalance).appliedBalance req id =
      -req.amountCents.toInt := by
  simp [appliedBalance, applied, sum_only wf.1, CreditPc.appliedBalance]

end Totals

end BankingLedger
