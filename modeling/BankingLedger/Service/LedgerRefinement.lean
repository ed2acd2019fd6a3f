import BankingLedger.Service.LedgerConcurrency

set_option autoImplicit false

namespace BankingLedger

open FiniteMap Interleaving

variable {printUuid : Uuid → String}

def LedgerThread.answered (t : LedgerThread) (entry : JournalEntry) (leg : EntryLeg)
    (rest : List EntryLeg) : Except LedgerError Unit → LedgerThread
  | .error e => t.goto (.returned (.error e))
  | .ok () => { t with posted := t.posted ++ [leg] }.postRest entry rest

theorem LegPc.result_of_step {leg : EntryLeg} {a : Account} {pc : LegPc} {next : Account × LegPc}
    (step : legStep leg a pc = some next) : pc.result leg = none := by
  cases pc with
  | debit pc =>
    cases pc with
    | returned result => simp [legStep, debitStep] at step
    | _ => rfl
  | credit pc =>
    cases pc with
    | returned result => simp [legStep, creditStep] at step
    | _ => rfl
  | missing => simp [legStep] at step

theorem posting_reaches (svc : LedgerService) (t : LedgerThread) (entry : JournalEntry)
    (leg : EntryLeg) (rest : List EntryLeg) {a a' : Account} {pc pc' : LegPc}
    (found : svc.accounts.lookup leg.accountId = some a)
    (inner : System.Reaches ⟨legStep leg⟩ (a, pc) (a', pc')) :
    (ledgerSystem printUuid).Reaches (svc, t.afterLeg entry leg rest pc)
      ({ svc with accounts := svc.accounts.insert leg.accountId a' }, t.afterLeg entry leg rest pc') := by
  let view (now : Accounts × LegPc) : LedgerService × LedgerThread :=
    ({ svc with accounts := now.1 }, t.afterLeg entry leg rest now.2)
  have moves : ∀ accounts b pc b' pc', accounts.lookup leg.accountId = some b →
      legStep leg b pc = some (b', pc') →
      (ledgerSystem printUuid).step (view (accounts, pc)).1 (view (accounts, pc)).2 =
        some (view (accounts.insert leg.accountId b', pc')) := by
    intro accounts b pc b' pc' found taken
    have going : t.afterLeg entry leg rest pc = t.goto (.posting entry leg rest pc) := by
      simp [LedgerThread.afterLeg, LegPc.result_of_step taken]
    simp only [view, going]
    simp [ledgerSystem, ledgerStep, legAt, atAccount, found, taken]
    rfl
  exact atAccount_reaches view moves found inner

theorem leg_reaches (svc : LedgerService) (t : LedgerThread) (entry : JournalEntry) (leg : EntryLeg)
    (rest : List EntryLeg) :
    (ledgerSystem printUuid).Reaches (svc, t.goto (.posting entry leg rest (.start leg.side)))
      ({ svc with accounts := (postLeg svc.accounts leg).2 },
        t.answered entry leg rest (postLeg svc.accounts leg).1) := by
  unfold postLeg postLegWith
  cases found : svc.accounts.lookup leg.accountId with
  | none =>
    apply System.Reaches.step _ (.refl _)
    simp [ledgerSystem, ledgerStep, legAt, atAccount, found]
    rfl
  | some a =>
    cases side : leg.side with
    | debit =>
      have inner : System.Reaches ⟨legStep leg⟩ (a, .debit .start)
          ((a.debit leg.amountCents).2, .debit (.returned (a.debit leg.amountCents).1)) :=
        (debit_reaches leg.amountCents a).lift (fun now => (now.1, LegPc.debit now.2))
          fun b pc next taken => by simpa [legStep] using taken
      refine (posting_reaches svc t entry leg rest found inner).trans ?_
      simp only
      rcases a.debit leg.amountCents with ⟨e | newBalance, a'⟩ <;> exact .refl _
    | credit =>
      have inner : System.Reaches ⟨legStep leg⟩ (a, .credit .start)
          ((a.credit leg.amountCents).2, .credit (.returned (a.credit leg.amountCents).1)) :=
        (credit_reaches leg.amountCents a).lift (fun now => (now.1, LegPc.credit now.2))
          fun b pc next taken => by simpa [legStep] using taken
      refine (posting_reaches svc t entry leg rest found inner).trans ?_
      simp only
      rcases a.credit leg.amountCents with ⟨e | newBalance, a'⟩ <;> exact .refl _

-- The legs are posted as the sequential loop posts them; `posted` is what the thread remembers.
theorem legs_reach (printUuid : Uuid → String) (entry : JournalEntry) (legs : List EntryLeg) (svc : LedgerService)
    (t : LedgerThread) :
    ∃ posted, (ledgerSystem printUuid).Reaches (svc, t.postRest entry legs)
      ({ svc with accounts := (forLegs postLeg svc.accounts legs).2 },
        match (forLegs postLeg svc.accounts legs).1 with
        | .error e => { t with posted, pc := .returned (.error e) }
        | .ok () => { t with posted }.postRest entry []) := by
  induction legs generalizing svc t with
  | nil => exact ⟨t.posted, .refl _⟩
  | cons leg rest ih =>
    have first : (ledgerSystem printUuid).Reaches (svc, t.postRest entry (leg :: rest)) _ :=
      leg_reaches svc t entry leg rest
    simp only [forLegs]
    rcases answer : postLeg svc.accounts leg with ⟨e | _, accounts⟩
    · rw [answer] at first
      exact ⟨t.posted, first⟩
    · rw [answer] at first
      obtain ⟨posted, later⟩ := ih { svc with accounts } { t with posted := t.posted ++ [leg] }
      exact ⟨posted, first.trans later⟩

def LedgerThread.done (t : LedgerThread) (posted : List EntryLeg)
    (result : Except LedgerError JournalEntry) : LedgerThread :=
  { t with posted, pc := .returned result }

-- The section under the journal's lock and the loop after it, for an entry built in either way.
theorem record_reaches (printUuid : Uuid → String) (t : LedgerThread) (svc : LedgerService)
    (build : Nat → Except JournalError JournalEntry) :
    ∃ posted, (ledgerSystem printUuid).Reaches (t.record build svc)
      (match svc.journal.record build with
        | (.error e, journal) => ({ svc with journal }, t.done posted (.error (.journalError e)))
        | (.ok entry, journal) =>
          match forLegs postLeg svc.accounts entry.legs with
          | (.error e, accounts) => ({ svc with journal, accounts }, t.done posted (.error e))
          | (.ok (), accounts) => ({ svc with journal, accounts }, { t with posted }.postRest entry [])) := by
  unfold LedgerThread.record
  rcases svc.journal.record build with ⟨e | entry, journal⟩
  · exact ⟨t.posted, .refl _⟩
  · obtain ⟨posted, posting⟩ := legs_reach printUuid entry entry.legs { svc with journal } t
    refine ⟨posted, posting.trans ?_⟩
    simp only
    rcases forLegs postLeg svc.accounts entry.legs with ⟨e | _, accounts⟩
    · exact .refl _
    · exact .refl _

theorem recordEntry_reaches (t : LedgerThread) (svc : LedgerService) (legs : List EntryLeg)
    (description : String) {transactionId : TransactionId}
    (commits : t.transactionId = some transactionId) :
    ∃ posted, (ledgerSystem printUuid).Reaches
      (t.record (fun sequence => JournalEntry.new t.draws.entryId t.draws.recordedAt transactionId
        sequence legs description) svc)
      ((svc.recordEntry t.draws transactionId legs description).2,
        t.done posted (svc.recordEntry t.draws transactionId legs description).1) := by
  obtain ⟨posted, recorded⟩ := record_reaches printUuid t svc fun sequence =>
    JournalEntry.new t.draws.entryId t.draws.recordedAt transactionId sequence legs description
  refine ⟨posted, recorded.trans ?_⟩
  unfold LedgerService.recordEntry
  by_cases balanced : Balanced legs
  · rw [Journal.record_ok (JournalEntry.new_of_balanced balanced)]
    simp only
    rcases forLegs postLeg svc.accounts legs with ⟨e | _, accounts⟩
    · exact .refl _
    · have same : { t with posted }.transactionId = some transactionId := commits
      simp only [LedgerThread.postRest, same]
      exact .step rfl (.refl _)
  · obtain ⟨e, refused⟩ := JournalEntry.new_of_unbalanced balanced
    rw [Journal.record_error refused]
    exact .refl _

theorem reverseEntry_reaches (t : LedgerThread) (svc : LedgerService)
    {originalEntryId : JournalEntryId} {reason : String}
    (named : t.call = .reverseEntry originalEntryId reason) (begins : t.pc = .start) :
    ∃ posted, (ledgerSystem printUuid).Reaches (svc, t)
      ((svc.reverseEntry printUuid t.draws originalEntryId reason).2,
        t.done posted (svc.reverseEntry printUuid t.draws originalEntryId reason).1) := by
  unfold LedgerService.reverseEntry
  cases found : svc.journal.entries.find? fun e => e.id = originalEntryId with
  | none =>
    refine ⟨t.posted, .step ?_ (.refl _)⟩
    simp [ledgerSystem, ledgerStep, begins, named, found]
    rfl
  | some original =>
    have read : (ledgerSystem printUuid).step svc t =
        some (svc, t.goto (.beginTxn originalEntryId original)) := by
      simp [ledgerSystem, ledgerStep, begins, named, found]
    simp only
    rcases begun : svc.beginTransaction t.draws ("REV-" ++ printUuid originalEntryId) with
      ⟨newTxnId, svc'⟩
    have begin : (ledgerSystem printUuid).step svc (t.goto (.beginTxn originalEntryId original)) =
        some (svc', t.goto (.append original newTxnId)) := by
      simp [ledgerSystem, ledgerStep, begun]
      rfl
    obtain ⟨posted, recorded⟩ := record_reaches printUuid (t.goto (.append original newTxnId)) svc'
      fun sequence => original.reverse printUuid t.draws.entryId t.draws.recordedAt newTxnId sequence
    refine ⟨posted, .step read (.step begin (.step rfl (recorded.trans ?_)))⟩
    simp only
    rcases svc'.journal.record fun sequence =>
      original.reverse printUuid t.draws.entryId t.draws.recordedAt newTxnId sequence with
      ⟨e | reversal, journal⟩
    · exact .refl _
    · simp only
      rcases forLegs postLeg svc'.accounts reversal.legs with ⟨e | _, accounts⟩
      · exact .refl _
      · have commitsNone : { t.goto (.append original newTxnId) with posted }.transactionId = none := by
          simp [LedgerThread.transactionId, LedgerThread.goto, named]
        simp only [LedgerThread.postRest, commitsNone]
        exact .refl _

theorem ledgerThread_reaches (call : LedgerCall) (draws : LedgerDraws) (svc : LedgerService) :
    ∃ posted, (ledgerSystem printUuid).Reaches (svc, call.thread draws)
      ((call.run printUuid draws svc).2,
        (call.thread draws).done posted (call.run printUuid draws svc).1) := by
  cases call with
  | recordEntry transactionId legs description =>
    obtain ⟨posted, alone⟩ := recordEntry_reaches
      ((LedgerCall.recordEntry transactionId legs description).thread draws) svc legs description rfl
    exact ⟨posted, .step rfl alone⟩
  | recordTransfer transactionId fromAccount toAccount amountCents description =>
    obtain ⟨posted, alone⟩ := recordEntry_reaches
      ((LedgerCall.recordTransfer transactionId fromAccount toAccount amountCents description).thread
        draws) svc (LedgerService.transferLegs fromAccount toAccount amountCents) description rfl
    exact ⟨posted, .step rfl alone⟩
  | reverseEntry originalEntryId reason => exact reverseEntry_reaches _ svc rfl rfl

theorem ledgerCall_alone {I : Type} [DecidableEq I] (accounts : Accounts) (calls : I → LedgerCall)
    (draws : I → LedgerDraws) (i : I) :
    ∃ n posted, (ledgerSystem printUuid).run (ledgerStart accounts calls draws) (List.replicate n i) =
      { shared := ((calls i).run printUuid (draws i) (.new accounts)).2
        thread := Function.update (fun j => (calls j).thread (draws j)) i
          (((calls i).thread (draws i)).done posted
            ((calls i).run printUuid (draws i) (.new accounts)).1) } := by
  obtain ⟨posted, alone⟩ := ledgerThread_reaches (calls i) (draws i) (.new accounts)
  obtain ⟨n, run⟩ := alone.run (ledgerStart accounts calls draws) i rfl
  exact ⟨n, posted, run⟩

end BankingLedger
