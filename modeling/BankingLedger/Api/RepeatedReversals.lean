import BankingLedger.Api.ReversalSteps
import BankingLedger.Service.LedgerConcurrency

set_option autoImplicit false

namespace BankingLedger

open FiniteMap Interleaving

def reversalsOf (id : JournalEntryId) (journal : List JournalEntry) : Nat :=
  journal.countP fun e => e.reverses = some id

@[simp] theorem reversalsOf_append (id : JournalEntryId) (journal : List JournalEntry)
    (entry : JournalEntry) :
    reversalsOf id (journal ++ [entry]) =
      reversalsOf id journal + if entry.reverses = some id then 1 else 0 := by
  simp [reversalsOf, List.countP_append, List.countP_cons]

section Api

variable {rt : Runtime} {books books' : Books} (id : JournalEntryId)

-- The entry a transfer is about to append reverses nothing.
def TransferPc.Forward : TransferPc → Prop
  | .appendChain entry _ | .pushJournal entry _ => entry.reverses = none
  | _ => True

theorem TransferPc.forward_iff {pc : TransferPc} :
    pc.Forward ↔ ∀ entry, pc.unfiled = some entry → entry.reverses = none := by
  cases pc <;> simp [Forward, unfiled]

theorem transferStep_reversals {call : TransferCall} {pc pc' : TransferPc} (forward : pc.Forward)
    (step : transferStep rt call books pc = some (books', pc')) :
    pc'.Forward ∧ reversalsOf id books'.journal = reversalsOf id books.journal := by
  rw [TransferPc.forward_iff] at forward ⊢
  cases transferStep_filing step with
  | quiet _ _ journal kept =>
    refine ⟨fun entry carried => ?_, by rw [journal]⟩
    rcases kept with gone | same
    · cases gone.symm.trans carried
    · exact forward entry (same.symm.trans carried)
  | draw _ _ _ journal drawn =>
    exact ⟨fun entry carried => (drawn entry carried).2, by rw [journal]⟩
  | push entry _ carried gone _ journal =>
    refine ⟨fun next taken => ?_, ?_⟩
    · cases gone.symm.trans taken
    · simp [journal, forward entry carried]

namespace ReversalPc

def Names (entryId : JournalEntryId) : ReversalPc → Prop
  | .drawSequence original => original.id = entryId
  | .debiting reversal .. | .crediting reversal .. | .appendChain reversal | .pushJournal reversal =>
    reversal.reverses = some entryId
  | _ => True

def accepted : ReversalPc → Bool
  | .returned (.ok _) => true
  | _ => false

section Running

variable {entryId : JournalEntryId} {reversal : JournalEntry} (leg : EntryLeg) (rest : List EntryLeg)
  (names : reversal.reverses = some entryId)

include names

theorem postRest_names : (postRest reversal rest).Names entryId ∧
    (postRest reversal rest).accepted = false := by
  cases rest with
  | nil => exact ⟨names, rfl⟩
  | cons leg rest =>
    cases side : leg.side <;> simp only [postRest, side] <;> exact ⟨names, rfl⟩

theorem afterDebit_names (pc : DebitPc) : (afterDebit reversal leg rest pc).Names entryId ∧
    (afterDebit reversal leg rest pc).accepted = false := by
  cases pc with
  | returned result =>
    cases result with
    | error e => exact ⟨trivial, rfl⟩
    | ok newBalance => exact postRest_names rest names
  | _ => exact ⟨names, rfl⟩

theorem afterCredit_names (pc : CreditPc) : (afterCredit reversal leg rest pc).Names entryId ∧
    (afterCredit reversal leg rest pc).accepted = false := by
  cases pc with
  | returned result =>
    cases result with
    | error e => exact ⟨trivial, rfl⟩
    | ok newBalance => exact postRest_names rest names
  | _ => exact ⟨names, rfl⟩

end Running

end ReversalPc

theorem reversalStep_reversals {call : ReversalCall} {pc pc' : ReversalPc}
    (names : pc.Names call.entryId) (step : reversalStep rt call books pc = some (books', pc')) :
    pc'.Names call.entryId ∧ pc.accepted = false ∧
      reversalsOf id books'.journal = reversalsOf id books.journal +
        if call.entryId = id ∧ pc'.accepted then 1 else 0 := by
  cases pc with
  | start =>
    simp only [reversalStep] at step
    split at step <;> cases step
    · exact ⟨trivial, rfl, by simp [ReversalPc.accepted]⟩
    · rename_i original found
      have named : original.id = call.entryId := by simpa using List.find?_some found
      exact ⟨named, rfl, by simp [ReversalPc.accepted]⟩
  | drawSequence original =>
    simp only [reversalStep] at step
    split at step <;> cases step
    · exact ⟨trivial, rfl, by simp [ReversalPc.accepted]⟩
    · rename_i reversal built
      have named : original.id = call.entryId := names
      obtain ⟨-, -, -, reverses, -⟩ := reverse_fits built
      rw [named] at reverses
      obtain ⟨names', running⟩ := ReversalPc.postRest_names reversal.legs reverses
      exact ⟨names', rfl, by simp [running]⟩
  | debiting reversal leg rest inner =>
    obtain ⟨⟨accounts, next⟩, -, same⟩ := Option.map_eq_some_iff.mp step
    cases same
    obtain ⟨names', running⟩ := ReversalPc.afterDebit_names leg rest names next
    exact ⟨names', rfl, by simp [running]⟩
  | crediting reversal leg rest inner =>
    obtain ⟨⟨accounts, next⟩, -, same⟩ := Option.map_eq_some_iff.mp step
    cases same
    obtain ⟨names', running⟩ := ReversalPc.afterCredit_names leg rest names next
    exact ⟨names', rfl, by simp [running]⟩
  | appendChain reversal =>
    cases step
    exact ⟨names, rfl, by simp [ReversalPc.accepted]⟩
  | pushJournal reversal =>
    cases step
    have reverses : reversal.reverses = some call.entryId := names
    exact ⟨trivial, rfl, by simp [reverses, ReversalPc.accepted]⟩
  | returned result => cases step

namespace EntryCall

def reverses : EntryCall → Option JournalEntryId
  | .transfer _ => none
  | .reversal call => some call.entryId

end EntryCall

namespace EntryWorker

def accepted : EntryWorker → Bool
  | .transfer .. => false
  | .reversal _ pc => pc.accepted

def Serves (call : EntryCall) : EntryWorker → Prop
  | .transfer request pc => call = .transfer request ∧ pc.Forward
  | .reversal request pc => call = .reversal request ∧ pc.Names request.entryId

end EntryWorker

theorem entryStep_reversals {call : EntryCall} {w w' : EntryWorker} (serves : w.Serves call)
    (step : (entrySystem rt).step books w = some (books', w')) :
    w'.Serves call ∧
      reversalsOf id books'.journal + (if call.reverses = some id ∧ w.accepted then 1 else 0) =
        reversalsOf id books.journal + if call.reverses = some id ∧ w'.accepted then 1 else 0 := by
  cases w with
  | transfer request pc =>
    obtain ⟨⟨next, pc'⟩, inner, same⟩ := Option.map_eq_some_iff.mp step
    cases same
    obtain ⟨rfl, forward⟩ := serves
    obtain ⟨forward', count⟩ := transferStep_reversals id forward inner
    exact ⟨⟨rfl, forward'⟩, by simp [EntryWorker.accepted, count]⟩
  | reversal request pc =>
    obtain ⟨⟨next, pc'⟩, inner, same⟩ := Option.map_eq_some_iff.mp step
    cases same
    obtain ⟨rfl, names⟩ := serves
    obtain ⟨names', running, count⟩ := reversalStep_reversals id names inner
    exact ⟨⟨rfl, names'⟩, by simp [EntryWorker.accepted, EntryCall.reverses, running, count]⟩

theorem entries_counted {I : Type} [Fintype I] [DecidableEq I] (rt : Runtime) (id : JournalEntryId)
    (books : Books) (calls : I → EntryCall) (schedule : List I) :
    let c := (entrySystem rt).run (entryStart books calls) schedule
    reversalsOf id c.shared.journal = reversalsOf id books.journal +
      (Finset.univ.filter fun i => (calls i).reverses = some id ∧ (c.thread i).accepted).card := by
  apply (entrySystem rt).run_counts (P := fun i w => w.Serves (calls i))
    (fun books => reversalsOf id books.journal)
    (fun i w => (calls i).reverses = some id ∧ w.accepted)
    (fun _ _ _ _ _ serves step => entryStep_reversals id serves step)
    (entryStart books calls) schedule
  · intro i
    cases h : calls i <;> simp [entryStart, h, EntryCall.worker, EntryWorker.Serves,
      TransferPc.Forward, ReversalPc.Names]
  · intro i
    cases h : calls i <;> simp [entryStart, h, EntryCall.worker, EntryWorker.accepted,
      ReversalPc.accepted]

end Api

section Ledger

-- The entry of the call is in the journal. A leg that cannot be posted leaves it there.
def LedgerPc.recorded : LedgerPc → Bool
  | .start | .beginTxn .. | .append .. => false
  | .posting .. | .commit .. | .returned (.ok _) => true
  | .returned (.error e) =>
    match e with
    | .journalError _ | .entryNotFound _ => false
    | .accountNotFound _ | .debitError .. | .creditError .. => true

def LedgerCall.reverses : LedgerCall → Option JournalEntryId
  | .recordEntry .. | .recordTransfer .. => none
  | .reverseEntry originalEntryId _ => some originalEntryId

theorem LegPc.recorded_of_error {leg : EntryLeg} {pc : LegPc} {e : LedgerError}
    (refused : pc.result leg = some (.error e)) : (LedgerPc.returned (.error e)).recorded := by
  cases pc with
  | debit pc =>
    rcases pc with _ | _ | _ | _ | (_ | _) <;> cases refused
    rfl
  | credit pc =>
    rcases pc with _ | _ | _ | _ | _ | (_ | _) <;> cases refused
    rfl
  | missing => cases refused; rfl

namespace LedgerThread

structure Serves (call : LedgerCall) (t : LedgerThread) : Prop where
  same : t.call = call
  names : match t.pc with
    | .beginTxn _ original | .append original _ => call.reverses = some original.id
    | _ => True

variable {call : LedgerCall} {t t' : LedgerThread} {svc svc' : LedgerService}

theorem postRest_serves (same : t.call = call) (entry : JournalEntry) (legs : List EntryLeg) :
    (t.postRest entry legs).Serves call ∧ (t.postRest entry legs).pc.recorded := by
  cases legs with
  | cons leg rest => exact ⟨⟨same, trivial⟩, rfl⟩
  | nil =>
    unfold postRest
    cases t.transactionId <;> exact ⟨⟨same, trivial⟩, rfl⟩

theorem afterLeg_serves (same : t.call = call) (entry : JournalEntry) (leg : EntryLeg)
    (rest : List EntryLeg) (pc : LegPc) :
    (t.afterLeg entry leg rest pc).Serves call ∧ (t.afterLeg entry leg rest pc).pc.recorded := by
  unfold afterLeg
  split
  · exact ⟨⟨same, trivial⟩, rfl⟩
  · rename_i e refused
    exact ⟨⟨same, trivial⟩, LegPc.recorded_of_error refused⟩
  · exact postRest_serves (t := { t with posted := t.posted ++ [leg] }) same entry rest

theorem record_serves {build : Nat → Except JournalError JournalEntry} (id : JournalEntryId)
    (same : t.call = call) (step : t.record build svc = (svc', t'))
    (built : ∀ sequence entry, build sequence = .ok entry → entry.reverses = call.reverses) :
    t'.Serves call ∧ reversalsOf id svc'.journal.entries = reversalsOf id svc.journal.entries +
      if call.reverses = some id ∧ t'.pc.recorded then 1 else 0 := by
  unfold record at step
  cases result : build (svc.journal.sequenceCounter + 1) with
  | error e =>
    rw [Journal.record_error result] at step
    cases step
    exact ⟨⟨same, trivial⟩, by simp [LedgerPc.recorded]⟩
  | ok entry =>
    rw [Journal.record_ok result] at step
    cases step
    obtain ⟨serves, recorded⟩ := postRest_serves same entry entry.legs
    exact ⟨serves, by simp [built _ entry result, recorded]⟩

end LedgerThread

variable (id : JournalEntryId)

theorem ledgerStep_reversals {printUuid : Uuid → String} {call : LedgerCall} {t t' : LedgerThread}
    {svc svc' : LedgerService} (serves : t.Serves call)
    (step : ledgerStep printUuid svc t = some (svc', t')) :
    t'.Serves call ∧ reversalsOf id svc'.journal.entries +
        (if call.reverses = some id ∧ t.pc.recorded then 1 else 0) =
      reversalsOf id svc.journal.entries +
        if call.reverses = some id ∧ t'.pc.recorded then 1 else 0 := by
  obtain ⟨rfl, names⟩ := serves
  unfold ledgerStep at step
  cases at_pc : t.pc with
  | start =>
    simp only [at_pc] at step
    cases named : t.call with
    | recordEntry transactionId legs description =>
      simp only [named, Option.some.injEq] at step
      obtain ⟨serves, count⟩ := LedgerThread.record_serves id named step fun sequence entry built =>
        (new_fits built).2.2.2
      exact ⟨serves, by simp [LedgerPc.recorded, count]⟩
    | recordTransfer transactionId fromAccount toAccount amountCents description =>
      simp only [named, Option.some.injEq] at step
      obtain ⟨serves, count⟩ := LedgerThread.record_serves id named step fun sequence entry built =>
        (new_fits built).2.2.2
      exact ⟨serves, by simp [LedgerPc.recorded, count]⟩
    | reverseEntry originalEntryId reason =>
      simp only [named] at step
      split at step <;> cases step
      · exact ⟨⟨named, trivial⟩, by simp [LedgerPc.recorded]⟩
      · rename_i original found
        have same : original.id = originalEntryId := by simpa using List.find?_some found
        exact ⟨⟨named, by simp [LedgerCall.reverses, same]⟩, by simp [LedgerPc.recorded]⟩
  | beginTxn originalEntryId original =>
    simp only [at_pc] at step names
    cases step
    exact ⟨⟨rfl, names⟩, by simp [LedgerPc.recorded, LedgerService.beginTransaction]⟩
  | append original newTxnId =>
    simp only [at_pc, Option.some.injEq] at step names
    obtain ⟨serves, count⟩ := LedgerThread.record_serves id rfl step fun sequence entry built => by
      rw [names, (reverse_fits built).2.2.2.1]
    exact ⟨serves, by simp [LedgerPc.recorded, count]⟩
  | posting entry leg rest pc =>
    simp only [at_pc, Option.map_eq_some_iff] at step
    obtain ⟨⟨accounts, pc'⟩, -, same⟩ := step
    cases same
    obtain ⟨serves, recorded⟩ := LedgerThread.afterLeg_serves rfl entry leg rest pc'
    have before : (LedgerPc.posting entry leg rest pc).recorded := rfl
    exact ⟨serves, by simp [before, recorded]⟩
  | commit entry transactionId =>
    simp only [at_pc, Option.some.injEq, Prod.mk.injEq] at step
    obtain ⟨rfl, rfl⟩ := step
    exact ⟨⟨rfl, trivial⟩, by simp [LedgerPc.recorded, LedgerService.commitTransaction_journal]⟩
  | returned result => simp [at_pc] at step

theorem ledger_entries_counted {J : Type} [Fintype J] [DecidableEq J] (printUuid : Uuid → String)
    (id : JournalEntryId) (svc : LedgerService) (calls : J → LedgerCall) (draws : J → LedgerDraws)
    (schedule : List J) :
    let start : Config J LedgerService LedgerThread :=
      { shared := svc, thread := fun j => (calls j).thread (draws j) }
    let c := (ledgerSystem printUuid).run start schedule
    reversalsOf id c.shared.journal.entries = reversalsOf id svc.journal.entries +
      (Finset.univ.filter fun j => (calls j).reverses = some id ∧ (c.thread j).pc.recorded).card := by
  intro start
  apply (ledgerSystem printUuid).run_counts (P := fun j t => t.Serves (calls j))
    (fun svc => reversalsOf id svc.journal.entries)
    (fun j t => (calls j).reverses = some id ∧ t.pc.recorded)
    (fun _ _ _ _ _ serves step => ledgerStep_reversals id serves step) start schedule
  · intro j
    exact ⟨rfl, trivial⟩
  · intro j
    simp [start, LedgerCall.thread, LedgerPc.recorded]

end Ledger

section Again

theorem find?_of_found {journal more : List JournalEntry} {id : JournalEntryId}
    {original : JournalEntry} (found : entryById journal id = some original) :
    (journal ++ more).find? (fun e => e.id = id) = some original := by
  rw [List.find?_append, ← entryById, found]
  rfl

theorem reverseJournalEntry_again (rt : Runtime) (draws : Draws) {id : JournalEntryId} {st : AppState}
    {original : JournalEntry} (more : List JournalEntry)
    (found : entryById st.journal id = some original) :
    (reverseJournalEntry rt draws id { st with journal := st.journal ++ more }).1 =
        (reverseJournalEntry rt draws id st).1 ∧
      (reverseJournalEntry rt draws id { st with journal := st.journal ++ more }).2.accounts =
        (reverseJournalEntry rt draws id st).2.accounts := by
  have before : st.journal.find? (fun e => e.id = id) = some original := found
  simp only [reverseJournalEntry, before, find?_of_found found]
  cases original.reverse rt.printUuid draws.entryId draws.recordedAt draws.transactionId
    (st.journalSeq + 1) with
  | error e => exact ⟨rfl, rfl⟩
  | ok reversal =>
    simp only
    rcases forLegs reversalLeg st.accounts reversal.legs with ⟨e | _, accounts⟩ <;> exact ⟨rfl, rfl⟩

def LedgerService.extended (svc : LedgerService) (more : List JournalEntry) : LedgerService :=
  { svc with journal := { svc.journal with entries := svc.journal.entries ++ more } }

theorem reverseEntry_again (printUuid : Uuid → String) (draws : LedgerDraws) (reason : String)
    {id : JournalEntryId} {svc : LedgerService} {original : JournalEntry} (more : List JournalEntry)
    (found : entryById svc.journal.entries id = some original) :
    ((svc.extended more).reverseEntry printUuid draws id reason).1 =
        (svc.reverseEntry printUuid draws id reason).1 ∧
      ((svc.extended more).reverseEntry printUuid draws id reason).2.accounts =
        (svc.reverseEntry printUuid draws id reason).2.accounts := by
  have before : svc.journal.entries.find? (fun e => e.id = id) = some original := found
  simp only [LedgerService.reverseEntry, LedgerService.extended, LedgerService.beginTransaction,
    Journal.record, Journal.nextSequence, before, find?_of_found found]
  cases original.reverse printUuid draws.entryId draws.recordedAt
    (Transaction.new draws.transactionId draws.createdAt ("REV-" ++ printUuid id)).id
    (svc.journal.sequenceCounter + 1) with
  | error e => exact ⟨rfl, rfl⟩
  | ok reversal =>
    simp only
    rcases forLegs postLeg svc.accounts reversal.legs with ⟨e | _, accounts⟩ <;> exact ⟨rfl, rfl⟩

/-- In every run of either path the journal gains one reversal of an entry for each request that
appends one, and a further request gets the answer and moves the balances it would without the
entries written since. -/
theorem one_reversal_per_request {I J : Type} [Fintype I] [DecidableEq I] [Fintype J] [DecidableEq J]
    (rt : Runtime) (id : JournalEntryId) (books : Books) (calls : I → EntryCall) (schedule : List I)
    (svc : LedgerService) (ledgerCalls : J → LedgerCall) (ledgerDraws : J → LedgerDraws)
    (ledgerSchedule : List J) :
    let c := (entrySystem rt).run (entryStart books calls) schedule
    let start : Config J LedgerService LedgerThread :=
      { shared := svc, thread := fun j => (ledgerCalls j).thread (ledgerDraws j) }
    let d := (ledgerSystem rt.printUuid).run start ledgerSchedule
    reversalsOf id c.shared.journal = reversalsOf id books.journal +
        (Finset.univ.filter fun i => (calls i).reverses = some id ∧ (c.thread i).accepted).card ∧
      reversalsOf id d.shared.journal.entries = reversalsOf id svc.journal.entries +
        (Finset.univ.filter fun j =>
          (ledgerCalls j).reverses = some id ∧ (d.thread j).pc.recorded).card ∧
      (∀ (st : AppState) original more draws, entryById st.journal id = some original →
        let first := reverseJournalEntry rt draws id st
        let again := reverseJournalEntry rt draws id { st with journal := st.journal ++ more }
        again.1 = first.1 ∧ again.2.accounts = first.2.accounts) ∧
      ∀ (svc : LedgerService) original more draws reason,
        entryById svc.journal.entries id = some original →
        let first := svc.reverseEntry rt.printUuid draws id reason
        let again := (svc.extended more).reverseEntry rt.printUuid draws id reason
        again.1 = first.1 ∧ again.2.accounts = first.2.accounts := by
  refine ⟨entries_counted rt id books calls schedule,
    ledger_entries_counted rt.printUuid id svc ledgerCalls ledgerDraws ledgerSchedule, ?_, ?_⟩
  · intro st original more draws found
    exact reverseJournalEntry_again rt draws more found
  · intro svc original more draws reason found
    exact reverseEntry_again rt.printUuid draws reason more found

end Again

namespace Sample

def ledgerRun (entryId : Nat) (call : LedgerCall) (svc : LedgerService) :
    Except LedgerError JournalEntry × LedgerService :=
  call.run (fun _ => "") { ledgerDraws with entryId := uuid entryId } svc

def ledgerReversed : LedgerService :=
  let once := (ledgerRun 11 (.recordTransfer ⟨9⟩ ⟨1⟩ ⟨2⟩ 40 "rent") ledger).2
  let twice := (ledgerRun 13 (.recordTransfer ⟨10⟩ ⟨1⟩ ⟨2⟩ 40 "rent") once).2
  (ledgerRun 14 (.reverseEntry ⟨11⟩ "mistake") twice).2

end Sample

open Sample

/-- A second reversal of one entry succeeds and moves the balances once more, over the API and in
the ledger service. -/
theorem entry_reversed_twice :
    (∃ response st,
      reverseJournalEntry runtime (draws 30) (uuid 12) (reversed 1000 0 100).2 = (.ok response, st) ∧
      reversalsOf (uuid 12) (reversed 1000 0 100).2.journal = 1 ∧
      reversalsOf (uuid 12) st.journal = 2 ∧
      cells (reversed 1000 0 100).2.accounts (uuid 1) = some (800, 800) ∧
      cells st.accounts (uuid 1) = some (700, 700)) ∧
    ∃ entry svc,
      ledgerRun 15 (.reverseEntry ⟨11⟩ "mistake") ledgerReversed = (.ok entry, svc) ∧
      reversalsOf ⟨11⟩ ledgerReversed.journal.entries = 1 ∧
      reversalsOf ⟨11⟩ svc.journal.entries = 2 ∧
      cells ledgerReversed.accounts ⟨1⟩ = some (60, 60) ∧ cells svc.accounts ⟨1⟩ = some (100, 100) :=
  ⟨⟨_, _, rfl, by decide +kernel, by decide +kernel, by decide +kernel, by decide +kernel⟩,
    _, _, rfl, by decide +kernel, by decide +kernel, by decide +kernel, by decide +kernel⟩

namespace Sample

def doubleClick : Fin 2 → EntryCall :=
  ![.reversal ⟨uuid 12, draws 20⟩, .reversal ⟨uuid 12, draws 30⟩]

end Sample

theorem one_reversal_per_request_double_click :
    let start := entryStart (transferred 1000 0 100).toBooks doubleClick
    let c := (entrySystem runtime).run start (List.replicate 20 [0, 1]).flatten
    (c.thread 0).accepted ∧ (c.thread 1).accepted ∧ reversalsOf (uuid 12) c.shared.journal = 2 := by
  have counted := (one_reversal_per_request runtime (uuid 12) (transferred 1000 0 100).toBooks
    doubleClick (List.replicate 20 [0, 1]).flatten ledger ledgerCalls ledgerDrawsOf []).1
  exact ⟨by decide +kernel, by decide +kernel, counted.trans (by decide +kernel)⟩

end BankingLedger
