import BankingLedger.Api.Reversal
import BankingLedger.Api.ReversalSteps
import BankingLedger.Shared.Tickets

set_option autoImplicit false

namespace BankingLedger

open FiniteMap Interleaving

def InSequence (journal : List JournalEntry) : Prop :=
  (journal.map JournalEntry.sequenceNumber).Pairwise (· < ·)

instance (journal : List JournalEntry) : Decidable (InSequence journal) :=
  inferInstanceAs (Decidable (List.Pairwise _ _))

def journalTickets : Tickets Books EntryWorker where
  counter books := books.journalSeq
  log books := books.journal.map JournalEntry.sequenceNumber
  held worker := worker.unfiled.map JournalEntry.sequenceNumber
  ready worker := worker.pushing.map JournalEntry.sequenceNumber

section Steps

variable {rt : Runtime}

theorem entryStep_ticket (books : Books) (worker : EntryWorker) (books' : Books)
    (worker' : EntryWorker) (step : (entrySystem rt).step books worker = some (books', worker')) :
    journalTickets.Move books worker books' worker' := by
  cases entryStep_filing step with
  | quiet idle seq journal kept =>
    refine .quiet ?_ seq ?_ ?_
    · simp [journalTickets, idle]
    · simp [journalTickets, journal]
    · rcases kept with gone | same
      · exact .inl (by simp [journalTickets, gone])
      · exact .inr (by simp [journalTickets, same])
  | draw idle free seq journal drawn =>
    refine .draw ?_ ?_ seq ?_ ?_
    · simp [journalTickets, idle]
    · simp [journalTickets, free]
    · simp [journalTickets, journal]
    · cases carried : worker'.unfiled with
      | none => exact .inl (by simp [journalTickets, carried])
      | some entry => exact .inr (by simp [journalTickets, carried, (drawn entry carried).1])
  | push entry ready carried gone seq journal =>
    refine .file entry.sequenceNumber ?_ ?_ ?_ seq ?_
    · simp [journalTickets, ready]
    · simp [journalTickets, carried]
    · simp [journalTickets, gone]
    · simp [journalTickets, journal]

theorem entryStep_returned (books : Books) (worker : EntryWorker)
    (returned : (entrySystem rt).step books worker = none) : journalTickets.ready worker = none := by
  cases worker with
  | transfer call pc => cases pc <;> first | rfl | simp [entrySystem, transferStep] at returned
  | reversal call pc => cases pc <;> first | rfl | simp [entrySystem, reversalStep] at returned

end Steps

-- A journal with nothing in it, as every run of the server starts with.
def Books.opened (accounts : Accounts) (hashChain : HashChain) : Books :=
  { accounts, hashChain, journal := [], journalSeq := 0 }

theorem entryStart_idle {I : Type} (books : Books) (calls : I → EntryCall) (i : I) :
    journalTickets.held ((entryStart books calls).thread i) = none := by
  simp only [entryStart]
  cases calls i <;> rfl

/-- The journal is in sequence exactly when no entry that gets to it was overtaken on the way;
in particular when every push waits for the smaller numbers in flight. -/
theorem journal_in_sequence_iff {I : Type} [DecidableEq I] (rt : Runtime) (accounts : Accounts)
    (hashChain : HashChain) (calls : I → EntryCall) (schedule : List I) :
    let start := entryStart (.opened accounts hashChain) calls
    let final := (entrySystem rt).run start schedule
    (InSequence final.shared.journal ↔ journalTickets.KeepsTurns (entrySystem rt) start schedule) ∧
      ((entrySystem rt).RunMeets journalTickets.InTurn start schedule →
        InSequence final.shared.journal) := by
  intro start final
  have ordered : InSequence final.shared.journal ↔
      journalTickets.KeepsTurns (entrySystem rt) start schedule :=
    Tickets.ordered_iff_keepsTurns entryStep_ticket entryStep_returned
      (by simp [start, journalTickets, entryStart, Books.opened])
      (by simp [start, journalTickets, entryStart, Books.opened])
      (entryStart_idle _ calls)
  exact ⟨ordered, fun meets => ordered.mpr (Tickets.keepsTurns_of_inTurn meets)⟩

namespace Sample

def twoTransfers : Bool → EntryCall
  | false => .transfer ⟨⟨uuid 1, uuid 2, 100, none⟩, true, draws 10⟩
  | true => .transfer ⟨⟨uuid 1, uuid 2, 50, none⟩, true, draws 20⟩

end Sample

open Sample

/-- One transfer draws its number, the other draws the next one and is done with its entry before
the first gets to the journal. -/
theorem journal_out_of_sequence :
    let start := entryStart (.opened (twoAccounts 1000 0).accounts (twoAccounts 1000 0).hashChain)
      twoTransfers
    let final := (entrySystem runtime).run start
      ([false, false, false] ++ [true, true, true, true, true] ++ [false, false])
    final.shared.journal.map JournalEntry.sequenceNumber = [2, 1] ∧
      ¬ InSequence final.shared.journal := by
  decide +kernel

end BankingLedger
