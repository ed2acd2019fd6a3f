import BankingLedger.Service.Postings

set_option autoImplicit false

namespace BankingLedger

open FiniteMap MachineInt

structure Journal where
  entries : List JournalEntry
  sequenceCounter : Nat

namespace Journal

def new : Journal := { entries := [], sequenceCounter := 0 }

def nextSequence (journal : Journal) : Nat × Journal :=
  (journal.sequenceCounter + 1, { journal with sequenceCounter := journal.sequenceCounter + 1 })

def append (journal : Journal) (entry : JournalEntry) : Journal :=
  { journal with entries := journal.entries ++ [entry] }

end Journal

inductive LedgerError where
  | journalError (e : JournalError)
  | accountNotFound (id : AccountId)
  | debitError (id : AccountId) (e : DebitError)
  | creditError (id : AccountId) (e : CreditError)
  | entryNotFound (id : JournalEntryId)
deriving DecidableEq, Repr

structure LedgerService where
  journal : Journal
  accounts : Accounts
  transactions : Map TransactionId Transaction

structure LedgerDraws where
  entryId : Uuid
  recordedAt : Timestamp
  transactionId : Uuid
  createdAt : Timestamp
  completedAt : Timestamp

-- The section under the journal's write lock: a number is drawn also for an entry that is refused.
def Journal.record (journal : Journal) (entry : Nat → Except JournalError JournalEntry) :
    Except JournalError JournalEntry × Journal :=
  let (sequence, journal) := journal.nextSequence
  match entry sequence with
  | .error e => (.error e, journal)
  | .ok entry => (.ok entry, journal.append entry)

def postLeg : Accounts → EntryLeg → Except LedgerError Unit × Accounts :=
  postLegWith (fun leg => .accountNotFound leg.accountId) .debitError .creditError

namespace LedgerService

def new (accounts : Accounts) : LedgerService :=
  { journal := .new, accounts, transactions := ∅ }

def beginTransaction (draws : LedgerDraws) (reference : String) (svc : LedgerService) :
    TransactionId × LedgerService :=
  let txn := Transaction.new draws.transactionId draws.createdAt reference
  (txn.id, { svc with transactions := svc.transactions.insert txn.id txn })

def commitTransaction (draws : LedgerDraws) (transactionId : TransactionId) (svc : LedgerService) :
    LedgerService :=
  match svc.transactions.lookup transactionId with
  | none => svc
  | some txn =>
    { svc with
      transactions := svc.transactions.insert transactionId (txn.commit draws.completedAt).2 }

theorem commitTransaction_accounts (draws : LedgerDraws) (transactionId : TransactionId)
    (svc : LedgerService) : (svc.commitTransaction draws transactionId).accounts = svc.accounts := by
  unfold commitTransaction
  split <;> rfl

theorem commitTransaction_journal (draws : LedgerDraws) (transactionId : TransactionId)
    (svc : LedgerService) : (svc.commitTransaction draws transactionId).journal = svc.journal := by
  unfold commitTransaction
  split <;> rfl

def recordEntry (draws : LedgerDraws) (transactionId : TransactionId) (legs : List EntryLeg)
    (description : String) (svc : LedgerService) : Except LedgerError JournalEntry × LedgerService :=
  match svc.journal.record fun sequence =>
    JournalEntry.new draws.entryId draws.recordedAt transactionId sequence legs description with
  | (.error e, journal) => (.error (.journalError e), { svc with journal })
  | (.ok entry, journal) =>
    let svc := { svc with journal }
    match forLegs postLeg svc.accounts legs with
    | (.error e, accounts) => (.error e, { svc with accounts })
    | (.ok (), accounts) =>
      (.ok entry, commitTransaction draws transactionId { svc with accounts })

def transferLegs (fromAccount toAccount : AccountId) (amountCents : Int64) : List EntryLeg :=
  [.debit fromAccount amountCents, .credit toAccount amountCents]

def recordTransfer (draws : LedgerDraws) (transactionId : TransactionId)
    (fromAccount toAccount : AccountId) (amountCents : Int64) (description : String)
    (svc : LedgerService) : Except LedgerError JournalEntry × LedgerService :=
  recordEntry draws transactionId (transferLegs fromAccount toAccount amountCents) description svc

-- The reason is not used.
def reverseEntry (printUuid : Uuid → String) (draws : LedgerDraws) (originalEntryId : JournalEntryId)
    (_reason : String) (svc : LedgerService) : Except LedgerError JournalEntry × LedgerService :=
  match svc.journal.entries.find? fun e => e.id = originalEntryId with
  | none => (.error (.entryNotFound originalEntryId), svc)
  | some original =>
    let (newTxnId, svc) := beginTransaction draws ("REV-" ++ printUuid originalEntryId) svc
    match svc.journal.record fun sequence =>
      original.reverse printUuid draws.entryId draws.recordedAt newTxnId sequence with
    | (.error e, journal) => (.error (.journalError e), { svc with journal })
    | (.ok reversal, journal) =>
      let svc := { svc with journal }
      match forLegs postLeg svc.accounts reversal.legs with
      | (.error e, accounts) => (.error e, { svc with accounts })
      | (.ok (), accounts) => (.ok reversal, { svc with accounts })

end LedgerService

inductive LedgerCall where
  | recordEntry (transactionId : TransactionId) (legs : List EntryLeg) (description : String)
  | recordTransfer (transactionId : TransactionId) (fromAccount toAccount : AccountId)
      (amountCents : Int64) (description : String)
  | reverseEntry (originalEntryId : JournalEntryId) (reason : String)

def LedgerCall.run (printUuid : Uuid → String) (draws : LedgerDraws) :
    LedgerCall → LedgerService → Except LedgerError JournalEntry × LedgerService
  | .recordEntry transactionId legs description =>
    LedgerService.recordEntry draws transactionId legs description
  | .recordTransfer transactionId fromAccount toAccount amountCents description =>
    LedgerService.recordTransfer draws transactionId fromAccount toAccount amountCents description
  | .reverseEntry originalEntryId reason =>
    LedgerService.reverseEntry printUuid draws originalEntryId reason

-- The legs of the entry the call is to write, whether or not they balance.
def LedgerCall.legs (svc : LedgerService) : LedgerCall → Option (List EntryLeg)
  | .recordEntry _ legs _ => some legs
  | .recordTransfer _ fromAccount toAccount amountCents _ =>
    some (LedgerService.transferLegs fromAccount toAccount amountCents)
  | .reverseEntry originalEntryId _ =>
    (svc.journal.entries.find? fun e => e.id = originalEntryId).map fun original =>
      original.legs.map EntryLeg.flipped

theorem postLeg_posts : PostsLeg postLeg := postLegWith_posts _ _ _

structure LedgerService.Untouched (svc svc' : LedgerService) : Prop where
  entries : svc'.journal.entries = svc.journal.entries
  accounts : ∀ id, cells svc'.accounts id = cells svc.accounts id
  transactions : ∀ id txn, svc.transactions.lookup id = some txn →
    ∃ txn', svc'.transactions.lookup id = some txn' ∧ txn'.status = txn.status

def LedgerCall.AtomicOnError (printUuid : Uuid → String) (draws : LedgerDraws) (call : LedgerCall)
    (svc : LedgerService) : Prop :=
  ∀ e svc', call.run printUuid draws svc = (.error e, svc') → svc.Untouched svc'

theorem LedgerService.Untouched.of_eq {svc svc' : LedgerService}
    (entries : svc'.journal.entries = svc.journal.entries) (accounts : svc'.accounts = svc.accounts)
    (transactions : ∀ id txn, svc.transactions.lookup id = some txn →
      svc'.transactions.lookup id = some txn) : svc.Untouched svc' :=
  ⟨entries, fun id => by rw [accounts], fun id txn found => ⟨txn, transactions id txn found, rfl⟩⟩

inductive LedgerOutcome (draws : LedgerDraws) (call : LedgerCall) (svc : LedgerService) :
    Except LedgerError JournalEntry × LedgerService → Prop where
  | refused (e : LedgerError) (svc' : LedgerService)
      (unfit : ∀ legs, call.legs svc = some legs → ¬ Balanced legs)
      (untouched : svc.transactions.lookup draws.transactionId = none → svc.Untouched svc') :
      LedgerOutcome draws call svc (.error e, svc')
  | stopped (e : LedgerError) (svc' : LedgerService) (legs : List EntryLeg) (entry : JournalEntry)
      (named : call.legs svc = some legs) (balanced : Balanced legs)
      (entries : svc'.journal.entries = svc.journal.entries ++ [entry])
      (posted : forLegs postLeg svc.accounts legs = (.error e, svc'.accounts)) :
      LedgerOutcome draws call svc (.error e, svc')
  | done (entry : JournalEntry) (svc' : LedgerService) (named : call.legs svc = some entry.legs)
      (balanced : Balanced entry.legs) (pass : LegsPass svc.accounts entry.legs)
      (shifted : Shifted (netCents entry.legs) svc.accounts svc'.accounts) :
      LedgerOutcome draws call svc (.ok entry, svc')

section Outcome

variable {printUuid : Uuid → String} {draws : LedgerDraws} {svc : LedgerService}

theorem Journal.record_ok {journal : Journal} {build : Nat → Except JournalError JournalEntry}
    {entry : JournalEntry} (built : build (journal.sequenceCounter + 1) = .ok entry) :
    journal.record build = (.ok entry,
      { entries := journal.entries ++ [entry], sequenceCounter := journal.sequenceCounter + 1 }) := by
  simp [Journal.record, Journal.nextSequence, Journal.append, built]

theorem Journal.record_error {journal : Journal} {build : Nat → Except JournalError JournalEntry}
    {e : JournalError} (refused : build (journal.sequenceCounter + 1) = .error e) :
    journal.record build =
      (.error e, { journal with sequenceCounter := journal.sequenceCounter + 1 }) := by
  simp [Journal.record, Journal.nextSequence, refused]

theorem recordEntry_outcome {call : LedgerCall} (transactionId : TransactionId)
    (legs : List EntryLeg) (description : String) (named : call.legs svc = some legs) :
    LedgerOutcome draws call svc (svc.recordEntry draws transactionId legs description) := by
  unfold LedgerService.recordEntry
  by_cases balanced : Balanced legs
  · rw [Journal.record_ok (JournalEntry.new_of_balanced balanced)]
    simp only
    rcases posted : forLegs postLeg svc.accounts legs with ⟨e | _, accounts⟩
    · exact .stopped _ _ legs _ named balanced rfl posted
    · obtain ⟨pass, shifted⟩ := postLeg_posts.loop_ok posted
      refine .done _ _ named balanced pass ?_
      rwa [LedgerService.commitTransaction_accounts]
  · obtain ⟨e, refused⟩ := JournalEntry.new_of_unbalanced balanced
    rw [Journal.record_error refused]
    refine .refused _ _ ?_ fun _ => .of_eq rfl rfl fun _ _ found => found
    intro other same
    rw [named, Option.some.injEq] at same
    exact same ▸ balanced

-- The new transaction gets an identifier of its own, so the others keep theirs.
theorem reverseEntry_outcome (originalEntryId : JournalEntryId) (reason : String) :
    LedgerOutcome draws (.reverseEntry originalEntryId reason) svc
      (svc.reverseEntry printUuid draws originalEntryId reason) := by
  unfold LedgerService.reverseEntry
  cases found : svc.journal.entries.find? fun e => e.id = originalEntryId with
  | none =>
    refine .refused _ _ ?_ fun _ => .of_eq rfl rfl fun _ _ found => found
    simp [LedgerCall.legs, found]
  | some original =>
    have named : (LedgerCall.reverseEntry originalEntryId reason).legs svc =
        some (original.legs.map EntryLeg.flipped) := by simp [LedgerCall.legs, found]
    simp only [LedgerService.beginTransaction]
    by_cases balanced : Balanced original.legs
    · rw [Journal.record_ok (JournalEntry.reverse_of_balanced balanced)]
      simp only
      rcases posted : forLegs postLeg svc.accounts (original.legs.map EntryLeg.flipped) with
        ⟨e | _, accounts⟩
      · exact .stopped _ _ _ _ named (balanced_flipped.mpr balanced) rfl posted
      · obtain ⟨pass, shifted⟩ := postLeg_posts.loop_ok posted
        exact .done _ _ named (balanced_flipped.mpr balanced) pass shifted
    · obtain ⟨e, refused⟩ := JournalEntry.reverse_of_unbalanced balanced
      rw [Journal.record_error refused]
      refine .refused _ _ ?_ fun fresh => .of_eq rfl rfl fun id txn existing => ?_
      · intro other same
        rw [named, Option.some.injEq] at same
        exact same ▸ mt balanced_flipped.mp balanced
      · rw [lookup_insert_eq, if_neg]
        · exact existing
        · rintro rfl
          rw [Transaction.new, fresh] at existing
          cases existing

theorem ledger_outcome (call : LedgerCall) :
    LedgerOutcome draws call svc (call.run printUuid draws svc) := by
  cases call with
  | recordEntry transactionId legs description =>
    exact recordEntry_outcome transactionId legs description rfl
  | recordTransfer transactionId fromAccount toAccount amountCents description =>
    exact recordEntry_outcome transactionId _ description rfl
  | reverseEntry originalEntryId reason => exact reverseEntry_outcome originalEntryId reason

end Outcome

/-- A failing call leaves no trace exactly when the entry it is to write, if it balances, can be
posted in full. -/
theorem ledger_atomic_iff (printUuid : Uuid → String) (draws : LedgerDraws) (call : LedgerCall)
    (svc : LedgerService) (fresh : svc.transactions.lookup draws.transactionId = none) :
    call.AtomicOnError printUuid draws svc ↔
      ∀ legs, call.legs svc = some legs → Balanced legs → LegsPass svc.accounts legs := by
  have outcome : LedgerOutcome draws call svc (call.run printUuid draws svc) := ledger_outcome call
  unfold LedgerCall.AtomicOnError
  generalize call.run printUuid draws svc = result at outcome ⊢
  cases outcome with
  | refused e svc' unfit untouched =>
    constructor
    · intro _ legs named balanced
      exact absurd balanced (unfit legs named)
    · rintro - _ _ ⟨⟩
      exact untouched fresh
  | stopped e svc' legs entry named balanced entries posted =>
    constructor
    · intro atomic
      have same := (atomic e svc' rfl).entries
      rw [entries] at same
      simp at same
    · intro pass
      exact absurd (pass legs named balanced) (postLeg_posts.refused_of_stopped posted)
  | done entry svc' named balanced pass shifted =>
    constructor
    · rintro - _ same -
      rw [named, Option.some.injEq] at same
      exact same ▸ pass
    · rintro - _ _ ⟨⟩

namespace Sample

def ledgerDraws : LedgerDraws :=
  { entryId := ⟨11⟩, recordedAt := ⟨0⟩, transactionId := ⟨12⟩, createdAt := ⟨0⟩, completedAt := ⟨0⟩ }

def ledger : LedgerService :=
  .new (Finmap.insert ⟨1⟩ (.new ⟨1⟩ .asset "USD" 100 none)
    (Finmap.insert ⟨2⟩ (.new ⟨2⟩ .asset "USD" 0 none) ∅))

def splitPayment : LedgerCall :=
  .recordEntry ⟨9⟩ [.debit ⟨1⟩ 60, .debit ⟨2⟩ 40, .credit ⟨1⟩ 100] "split"

end Sample

open Sample

/-- The second debit finds the account empty: the entry stays in the journal and the first debit
stays in the balance. -/
theorem failed_entry_keeps_first_leg :
    (splitPayment.run (fun _ => "") ledgerDraws ledger).1 =
      .error (.debitError ⟨2⟩ (.insufficientFunds 0 40)) ∧
    (splitPayment.run (fun _ => "") ledgerDraws ledger).2.journal.entries.length = 1 ∧
    cells (splitPayment.run (fun _ => "") ledgerDraws ledger).2.accounts ⟨1⟩ = some (40, 40) ∧
    ¬ splitPayment.AtomicOnError (fun _ => "") ledgerDraws ledger := by
  refine ⟨by decide +kernel, by decide +kernel, by decide +kernel, ?_⟩
  intro atomic
  have same := (atomic _ (splitPayment.run (fun _ => "") ledgerDraws ledger).2 rfl).accounts ⟨1⟩
  exact absurd same (by decide +kernel)

theorem ledger_atomic_iff_split :
    splitPayment.AtomicOnError (fun _ => "") ledgerDraws ledger ↔
      ∀ legs, splitPayment.legs ledger = some legs → Balanced legs → LegsPass ledger.accounts legs :=
  ledger_atomic_iff _ ledgerDraws splitPayment ledger rfl

end BankingLedger
