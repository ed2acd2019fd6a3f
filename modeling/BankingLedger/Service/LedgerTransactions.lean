import BankingLedger.Service.LedgerService

set_option autoImplicit false

namespace BankingLedger

open FiniteMap

inductive LedgerRequest where
  | beginTransaction (reference : String)
  | call (call : LedgerCall)

/-- `succeeded` are the entries whose calls returned `Ok`. -/
structure LedgerRun where
  svc : LedgerService
  succeeded : List JournalEntry

namespace LedgerRun

def new (accounts : Accounts) : LedgerRun := { svc := .new accounts, succeeded := [] }

def handle (printUuid : Uuid → String) (run : LedgerRun) :
    LedgerDraws × LedgerRequest → LedgerRun
  | (draws, .beginTransaction reference) =>
    { run with svc := (run.svc.beginTransaction draws reference).2 }
  | (draws, .call call) =>
    match call.run printUuid draws run.svc with
    | (.ok entry, svc) => { svc, succeeded := run.succeeded ++ [entry] }
    | (.error _, svc) => { run with svc }

def Succeeded (run : LedgerRun) (id : TransactionId) : Prop :=
  ∃ entry ∈ run.succeeded, entry.transactionId = id

instance (run : LedgerRun) (id : TransactionId) : Decidable (run.Succeeded id) :=
  inferInstanceAs (Decidable (∃ entry ∈ run.succeeded, _))

end LedgerRun

/-- What the outcome of its entries says a transaction is to be. -/
def Transaction.Settled (succeeded : Prop) (txn : Transaction) : Prop :=
  (succeeded → txn.status = .committed ∧ txn.completedAt.isSome) ∧
    (¬ succeeded → txn.status = .pending)

def LedgerRun.StatusFollows (run : LedgerRun) : Prop :=
  ∀ id txn, run.svc.transactions.lookup id = some txn → txn.Settled (run.Succeeded id)

-- A transaction is opened under an id of its own, and no entry is reversed in full.
def LedgerRun.Settles (run : LedgerRun) : LedgerDraws × LedgerRequest → Prop
  | (draws, .beginTransaction _) => ¬ run.Succeeded draws.transactionId
  | (_, .call (.recordEntry ..)) | (_, .call (.recordTransfer ..)) => True
  | (draws, .call (.reverseEntry originalEntryId reason)) =>
    ∀ legs, (LedgerCall.reverseEntry originalEntryId reason).legs run.svc = some legs →
      ¬ run.Succeeded draws.transactionId ∧ ¬ (Balanced legs ∧ LegsPass run.svc.accounts legs)

section Outcome

variable {printUuid : Uuid → String} {draws : LedgerDraws} {svc : LedgerService}

theorem LedgerOutcome.isOk_iff {call : LedgerCall}
    {result : Except LedgerError JournalEntry × LedgerService}
    (outcome : LedgerOutcome draws call svc result) :
    result.1.isOk ↔
      ∃ legs, call.legs svc = some legs ∧ Balanced legs ∧ LegsPass svc.accounts legs := by
  cases outcome with
  | refused e svc' unfit untouched =>
    constructor
    · rintro ⟨⟩
    · rintro ⟨legs, named, balanced, -⟩
      exact absurd balanced (unfit legs named)
  | stopped e svc' legs entry named balanced entries posted =>
    constructor
    · rintro ⟨⟩
    · rintro ⟨other, same, -, pass⟩
      rw [named, Option.some.injEq] at same
      exact absurd (same ▸ pass) (postLeg_posts.refused_of_stopped posted)
  | done entry svc' named balanced pass shifted =>
    exact ⟨fun _ => ⟨entry.legs, named, balanced, pass⟩, fun _ => rfl⟩

theorem commitTransaction_lookup (transactionId id : TransactionId) :
    (svc.commitTransaction draws transactionId).transactions.lookup id =
      if id = transactionId then
        (svc.transactions.lookup id).map fun txn => (txn.commit draws.completedAt).2
      else svc.transactions.lookup id := by
  by_cases same : id = transactionId
  · subst same
    cases found : svc.transactions.lookup id <;>
      simp [LedgerService.commitTransaction, found]
  · cases found : svc.transactions.lookup transactionId <;>
      simp [LedgerService.commitTransaction, found, same]

theorem recordEntry_transactions (transactionId : TransactionId) (legs : List EntryLeg)
    (description : String) {result : Except LedgerError JournalEntry} {svc' : LedgerService}
    (answered : svc.recordEntry draws transactionId legs description = (result, svc')) :
    (∃ e, result = .error e ∧ svc'.transactions = svc.transactions) ∨
      ∃ entry, result = .ok entry ∧ entry.transactionId = transactionId ∧
        ∀ id, svc'.transactions.lookup id =
          if id = transactionId then
            (svc.transactions.lookup id).map fun txn => (txn.commit draws.completedAt).2
          else svc.transactions.lookup id := by
  unfold LedgerService.recordEntry at answered
  by_cases balanced : Balanced legs
  · rw [Journal.record_ok (JournalEntry.new_of_balanced balanced)] at answered
    simp only at answered
    rcases posted : forLegs postLeg svc.accounts legs with ⟨e | _, accounts⟩
    · rw [posted] at answered
      cases answered
      exact .inl ⟨e, rfl, rfl⟩
    · rw [posted] at answered
      cases answered
      exact .inr ⟨_, rfl, rfl, fun id => commitTransaction_lookup transactionId id⟩
  · obtain ⟨e, refused⟩ := JournalEntry.new_of_unbalanced balanced
    rw [Journal.record_error refused] at answered
    cases answered
    exact .inl ⟨_, rfl, rfl⟩

theorem reverseEntry_transactions (originalEntryId : JournalEntryId) (reason : String)
    {result : Except LedgerError JournalEntry} {svc' : LedgerService}
    (answered : svc.reverseEntry printUuid draws originalEntryId reason = (result, svc')) :
    ((LedgerCall.reverseEntry originalEntryId reason).legs svc = none ∧ svc' = svc) ∨
      (∃ legs, (LedgerCall.reverseEntry originalEntryId reason).legs svc = some legs) ∧
        (∀ entry, result = .ok entry → entry.transactionId = draws.transactionId) ∧
        svc'.transactions = svc.transactions.insert draws.transactionId
          (.new draws.transactionId draws.createdAt ("REV-" ++ printUuid originalEntryId)) := by
  unfold LedgerService.reverseEntry at answered
  cases found : svc.journal.entries.find? fun e => e.id = originalEntryId with
  | none =>
    rw [found] at answered
    cases answered
    exact .inl ⟨by simp [LedgerCall.legs, found], rfl⟩
  | some original =>
    refine .inr ⟨⟨original.legs.map EntryLeg.flipped, by simp [LedgerCall.legs, found]⟩, ?_⟩
    rw [found] at answered
    simp only [LedgerService.beginTransaction] at answered
    by_cases balanced : Balanced original.legs
    · rw [Journal.record_ok (JournalEntry.reverse_of_balanced balanced)] at answered
      simp only at answered
      rcases posted : forLegs postLeg svc.accounts (original.legs.map EntryLeg.flipped) with
        ⟨e | _, accounts⟩
      · rw [posted] at answered
        cases answered
        exact ⟨by rintro _ ⟨⟩, rfl⟩
      · rw [posted] at answered
        cases answered
        exact ⟨by rintro _ ⟨⟩; rfl, rfl⟩
    · obtain ⟨e, refused⟩ := JournalEntry.reverse_of_unbalanced balanced
      rw [Journal.record_error refused] at answered
      cases answered
      exact ⟨by rintro _ ⟨⟩, rfl⟩

end Outcome

theorem Transaction.commit_settled (now : Timestamp) {txn : Transaction} {succeeded : Prop}
    (settled : txn.Settled succeeded) : (txn.commit now).2.Settled True := by
  obtain ⟨done, waiting⟩ := settled
  by_cases pending : txn.status = .pending
  · exact ⟨fun _ => by simp [Transaction.commit, pending], fun none => (none trivial).elim⟩
  · have unchanged : (txn.commit now).2 = txn := by simp [Transaction.commit, pending]
    rw [unchanged]
    have finished : succeeded := by_contra fun none => pending (waiting none)
    exact ⟨fun _ => done finished, fun none => (none trivial).elim⟩

namespace LedgerRun

variable {printUuid : Uuid → String} {run : LedgerRun} {draws : LedgerDraws} {svc : LedgerService}

theorem succeeded_append {entry : JournalEntry} {id : TransactionId} :
    ({ svc, succeeded := run.succeeded ++ [entry] } : LedgerRun).Succeeded id ↔
      run.Succeeded id ∨ entry.transactionId = id := by
  simp [Succeeded, or_and_right, exists_or]

theorem StatusFollows.of_eq (follows : run.StatusFollows)
    (same : svc.transactions = run.svc.transactions) :
    ({ run with svc } : LedgerRun).StatusFollows := by
  intro id txn found
  rw [same] at found
  exact follows id txn found

theorem opened_follows_iff {succeeded : List JournalEntry} {reference : String}
    (follows : run.StatusFollows)
    (opened : svc.transactions =
      run.svc.transactions.insert draws.transactionId (.new draws.transactionId draws.createdAt reference))
    (others : ∀ id, id ≠ draws.transactionId →
      (({ svc, succeeded } : LedgerRun).Succeeded id ↔ run.Succeeded id)) :
    ({ svc, succeeded } : LedgerRun).StatusFollows ↔
      ¬ ({ svc, succeeded } : LedgerRun).Succeeded draws.transactionId := by
  constructor
  · intro settled done
    have fresh := settled draws.transactionId (.new draws.transactionId draws.createdAt reference)
      (by simp only [opened, lookup_insert_eq, if_pos])
    cases (fresh.1 done).1
  · intro unused id txn found
    simp only [opened, lookup_insert_eq] at found
    split at found
    · next same =>
      cases found
      exact ⟨fun done => absurd (same ▸ done) unused, fun _ => rfl⟩
    · next other =>
      unfold Transaction.Settled
      rw [others id other]
      exact follows id txn found

theorem recordEntry_follows (follows : run.StatusFollows) (transactionId : TransactionId)
    (legs : List EntryLeg) (description : String) {result : Except LedgerError JournalEntry}
    (answered : run.svc.recordEntry draws transactionId legs description = (result, svc)) :
    (match result with
      | .ok entry => ({ svc, succeeded := run.succeeded ++ [entry] } : LedgerRun)
      | .error _ => { run with svc }).StatusFollows := by
  rcases recordEntry_transactions transactionId legs description answered with
    ⟨e, rfl, same⟩ | ⟨entry, rfl, named, lookups⟩
  · exact follows.of_eq same
  · intro id txn found
    simp only [lookups] at found
    unfold Transaction.Settled
    rw [succeeded_append, named]
    split at found
    · next here =>
      obtain ⟨before, existing, rfl⟩ := Option.map_eq_some_iff.mp found
      have settled := Transaction.commit_settled draws.completedAt (follows id before existing)
      exact ⟨fun _ => settled.1 trivial, fun none => (none (.inr here.symm)).elim⟩
    · next other =>
      rw [or_iff_left (fun same => other same.symm)]
      exact follows id txn found

theorem handle_follows_iff (follows : run.StatusFollows) (event : LedgerDraws × LedgerRequest) :
    (run.handle printUuid event).StatusFollows ↔ run.Settles event := by
  obtain ⟨draws, request⟩ := event
  cases request with
  | beginTransaction reference => exact opened_follows_iff follows rfl fun id _ => Iff.rfl
  | call call =>
    simp only [handle]
    rcases answered : call.run printUuid draws run.svc with ⟨result, svc⟩
    cases call with
    | recordEntry transactionId legs description =>
      have settled := recordEntry_follows follows transactionId legs description answered
      cases result <;> exact iff_of_true settled trivial
    | recordTransfer transactionId fromAccount toAccount amountCents description =>
      have settled := recordEntry_follows follows transactionId _ description answered
      cases result <;> exact iff_of_true settled trivial
    | reverseEntry originalEntryId reason =>
      have outcome : LedgerOutcome draws (.reverseEntry originalEntryId reason) run.svc (result, svc) :=
        answered ▸ ledger_outcome (.reverseEntry originalEntryId reason)
      have ok := outcome.isOk_iff
      rcases reverseEntry_transactions originalEntryId reason answered with
        ⟨unnamed, same⟩ | ⟨⟨legs, named⟩, opens, opened⟩
      · cases result with
        | error e =>
          refine iff_of_true (follows.of_eq (by rw [same])) ?_
          intro legs named
          rw [unnamed] at named
          cases named
        | ok entry =>
          obtain ⟨legs, named, -⟩ := ok.mp rfl
          rw [unnamed] at named
          cases named
      · simp only [Settles, named, Option.some.injEq, forall_eq']
        simp only [named, Option.some.injEq, exists_eq_left'] at ok
        cases result with
        | error e =>
          rw [opened_follows_iff follows opened fun id _ => Iff.rfl]
          exact (and_iff_left (ok.not.mp (by rintro ⟨⟩))).symm
        | ok entry =>
          rw [opened_follows_iff follows opened fun id other => ?_]
          · refine iff_of_false ?_ fun settles => settles.2 (ok.mp rfl)
            rw [not_not, succeeded_append]
            exact .inr (opens entry rfl)
          · rw [succeeded_append, or_iff_left (fun same => other (by rw [← same, opens entry rfl]))]

theorem new_follows (accounts : Accounts) : (new accounts).StatusFollows := by
  intro id txn found
  simp [new, LedgerService.new] at found

end LedgerRun

/-- Every state of the run has its transactions settled exactly when none of its reversals can be
posted in full, and no id is opened under which an entry has succeeded. -/
theorem transactions_settled_iff (printUuid : Uuid → String) (accounts : Accounts)
    (events : List (LedgerDraws × LedgerRequest)) :
    Runs.Throughout (LedgerRun.handle printUuid) LedgerRun.StatusFollows (.new accounts) events ↔
      Runs.Meets (LedgerRun.handle printUuid) LedgerRun.Settles (.new accounts) events :=
  Runs.throughout_iff_meets (P := LedgerRun.StatusFollows)
    (fun _ event follows => LedgerRun.handle_follows_iff follows event)
    (LedgerRun.new_follows accounts) events

namespace Sample

def ledgerDrawsAt (n : Nat) : LedgerDraws :=
  { entryId := ⟨n⟩, recordedAt := ⟨0⟩, transactionId := ⟨n + 1⟩, createdAt := ⟨0⟩, completedAt := ⟨0⟩ }

def paymentAndReversal : List (LedgerDraws × LedgerRequest) :=
  [(ledgerDrawsAt 20, .beginTransaction "PAY-2026-001"),
    (ledgerDrawsAt 30, .call (.recordTransfer ⟨21⟩ ⟨1⟩ ⟨2⟩ 60 "payment")),
    (ledgerDrawsAt 40, .call (.reverseEntry ⟨30⟩ "refund"))]

end Sample

open Sample

/-- The transfer and its reversal both succeed, and the transaction of the reversal stays pending. -/
theorem reversal_left_pending :
    let final := Runs.run (LedgerRun.handle fun _ => "") (.new ledger.accounts) paymentAndReversal
    final.succeeded.map JournalEntry.transactionId = [⟨21⟩, ⟨41⟩] ∧
      (final.svc.transactions.lookup ⟨21⟩).map Transaction.status = some .committed ∧
      (final.svc.transactions.lookup ⟨41⟩).map Transaction.status = some .pending ∧
      ¬ Runs.Throughout (LedgerRun.handle fun _ => "") LedgerRun.StatusFollows (.new ledger.accounts)
        paymentAndReversal := by
  have succeeded : (Runs.run (LedgerRun.handle fun _ => "") (.new ledger.accounts)
      paymentAndReversal).succeeded.map JournalEntry.transactionId = [⟨21⟩, ⟨41⟩] := by decide +kernel
  have pending : ((Runs.run (LedgerRun.handle fun _ => "") (.new ledger.accounts)
      paymentAndReversal).svc.transactions.lookup ⟨41⟩).map Transaction.status = some .pending := by
    decide +kernel
  refine ⟨succeeded, by decide +kernel, pending, fun settled => ?_⟩
  obtain ⟨txn, found, status⟩ := Option.map_eq_some_iff.mp pending
  have follows := settled paymentAndReversal [] (List.append_nil _).symm ⟨41⟩ txn found
  have done : (Runs.run (LedgerRun.handle fun _ => "") (.new ledger.accounts)
      paymentAndReversal).Succeeded ⟨41⟩ := by
    apply List.exists_of_mem_map
    rw [succeeded]
    decide
  rw [(follows.1 done).1] at status
  cases status

end BankingLedger
