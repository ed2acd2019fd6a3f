import BankingLedger.Api.TransferRefinement

set_option autoImplicit false

namespace BankingLedger

open FiniteMap Interleaving

structure ReversalCall where
  entryId : JournalEntryId
  draws : Draws

inductive ReversalPc where
  | start
  | drawSequence (original : JournalEntry)
  | debiting (reversal : JournalEntry) (leg : EntryLeg) (rest : List EntryLeg) (pc : DebitPc)
  | crediting (reversal : JournalEntry) (leg : EntryLeg) (rest : List EntryLeg) (pc : CreditPc)
  | appendChain (reversal : JournalEntry)
  | pushJournal (reversal : JournalEntry)
  | returned (result : Except AppError ReversalResponse)

namespace ReversalPc

def postRest (reversal : JournalEntry) : List EntryLeg → ReversalPc
  | [] => .appendChain reversal
  | leg :: rest =>
    match leg.side with
    | .debit => .debiting reversal leg rest .start
    | .credit => .crediting reversal leg rest .start

def afterDebit (reversal : JournalEntry) (leg : EntryLeg) (rest : List EntryLeg) :
    DebitPc → ReversalPc
  | .returned (.ok _) => postRest reversal rest
  | .returned (.error e) => .returned (.error (.badRequest (.reversalDebitFailed e)))
  | pc => .debiting reversal leg rest pc

def afterCredit (reversal : JournalEntry) (leg : EntryLeg) (rest : List EntryLeg) :
    CreditPc → ReversalPc
  | .returned (.ok _) => postRest reversal rest
  | .returned (.error e) => .returned (.error (.badRequest (.reversalCreditFailed e)))
  | pc => .crediting reversal leg rest pc

end ReversalPc

def reversalStep (rt : Runtime) (call : ReversalCall) (books : Books) :
    ReversalPc → Option (Books × ReversalPc)
  | .start =>
    match books.journal.find? fun e => e.id = call.entryId with
    | none => some (books, .returned (.error .notFound))
    | some original => some (books, .drawSequence original)
  | .drawSequence original =>
    let books := { books with journalSeq := books.journalSeq + 1 }
    match original.reverse rt.printUuid call.draws.entryId call.draws.recordedAt
      call.draws.transactionId books.journalSeq with
    | .error e => some (books, .returned (.error (.badRequest (.cannotReverse e))))
    | .ok reversal => some (books, .postRest reversal reversal.legs)
  | .debiting reversal leg rest pc =>
    (debitAt leg.accountId leg.amountCents books.accounts pc).map fun next =>
      ({ books with accounts := next.1 }, .afterDebit reversal leg rest next.2)
  | .crediting reversal leg rest pc =>
    (creditAt leg.accountId leg.amountCents books.accounts pc).map fun next =>
      ({ books with accounts := next.1 }, .afterCredit reversal leg rest next.2)
  | .appendChain reversal =>
    let blockData := rt.reversalToJson (rt.printUuid reversal.id) (rt.printUuid call.entryId)
      reversal.description reversal.sequenceNumber
    let appended := books.hashChain.append rt.hashing call.draws.blockTime blockData
    some ({ books with hashChain := appended.2 }, .pushJournal reversal)
  | .pushJournal reversal =>
    some ({ books with journal := books.journal ++ [reversal] },
      .returned (.ok
        { reversalId := reversal.id
          reverses := call.entryId
          transactionId := call.draws.transactionId
          sequenceNumber := reversal.sequenceNumber
          legs := reversal.legs }))
  | .returned _ => none

inductive EntryCall where
  | transfer (call : TransferCall)
  | reversal (call : ReversalCall)

inductive EntryWorker where
  | transfer (call : TransferCall) (pc : TransferPc)
  | reversal (call : ReversalCall) (pc : ReversalPc)

def EntryCall.worker : EntryCall → EntryWorker
  | .transfer call => .transfer call .start
  | .reversal call => .reversal call .start

def entrySystem (rt : Runtime) : System Books EntryWorker where
  step
    | books, .transfer call pc =>
      (transferStep rt call books pc).map fun next => (next.1, .transfer call next.2)
    | books, .reversal call pc =>
      (reversalStep rt call books pc).map fun next => (next.1, .reversal call next.2)

def entryStart {I : Type} (books : Books) (calls : I → EntryCall) : Config I Books EntryWorker :=
  { shared := books, thread := fun i => (calls i).worker }

section Filing

def TransferPc.unfiled : TransferPc → Option JournalEntry
  | .appendChain entry _ | .pushJournal entry _ => some entry
  | _ => none

def ReversalPc.unfiled : ReversalPc → Option JournalEntry
  | .debiting reversal .. | .crediting reversal .. | .appendChain reversal | .pushJournal reversal =>
    some reversal
  | _ => none

def EntryWorker.unfiled : EntryWorker → Option JournalEntry
  | .transfer _ pc => pc.unfiled
  | .reversal _ pc => pc.unfiled

def EntryWorker.pushing : EntryWorker → Option JournalEntry
  | .transfer _ (.pushJournal entry _) | .reversal _ (.pushJournal entry) => some entry
  | _ => none

def EntryWorker.target : EntryWorker → Option JournalEntryId
  | .reversal _ (.drawSequence original) => some original.id
  | _ => none

inductive Filing (books : Books) (worker : EntryWorker) (books' : Books) (worker' : EntryWorker) :
    Prop where
  | quiet : worker.pushing = none → books'.journalSeq = books.journalSeq →
      books'.journal = books.journal → (worker'.unfiled = none ∨ worker'.unfiled = worker.unfiled) →
      Filing books worker books' worker'
  | draw : worker.pushing = none → worker.unfiled = none →
      books'.journalSeq = books.journalSeq + 1 → books'.journal = books.journal →
      (∀ entry, worker'.unfiled = some entry →
        entry.sequenceNumber = books.journalSeq + 1 ∧ entry.reverses = worker.target) →
      Filing books worker books' worker'
  | push (entry : JournalEntry) : worker.pushing = some entry → worker.unfiled = some entry →
      worker'.unfiled = none → books'.journalSeq = books.journalSeq →
      books'.journal = books.journal ++ [entry] → Filing books worker books' worker'

variable {rt : Runtime} {books books' : Books}

theorem transferStep_filing {call : TransferCall} {pc pc' : TransferPc}
    (step : transferStep rt call books pc = some (books', pc')) :
    Filing books (.transfer call pc) books' (.transfer call pc') := by
  cases pc with
  | start =>
    simp only [transferStep] at step
    split at step <;> cases step <;> exact .quiet rfl rfl rfl (.inl rfl)
  | snapshot =>
    simp only [transferStep] at step
    split at step <;> cases step <;> exact .quiet rfl rfl rfl (.inl rfl)
  | drawSequence =>
    simp only [transferStep] at step
    split at step
    · cases step
      exact .draw rfl rfl rfl rfl (by rintro entry ⟨⟩)
    · rename_i entry built
      obtain ⟨sequence, -, -, reverses⟩ := new_fits built
      split at step <;> cases step
      · exact .draw rfl rfl rfl rfl (by rintro entry ⟨⟩)
      · exact .draw rfl rfl rfl rfl (by rintro carried ⟨⟩; exact ⟨sequence, reverses⟩)
  | appendChain entry chainData =>
    cases step
    exact .quiet rfl rfl rfl (.inr rfl)
  | pushJournal entry block =>
    cases step
    exact .push entry rfl rfl rfl rfl rfl
  | debiting entry block inner =>
    obtain ⟨⟨accounts, next⟩, -, same⟩ := Option.map_eq_some_iff.mp step
    cases same
    rcases next with _ | _ | _ | _ | (_ | _) <;> exact .quiet rfl rfl rfl (.inl rfl)
  | crediting entry block inner =>
    obtain ⟨⟨accounts, next⟩, -, same⟩ := Option.map_eq_some_iff.mp step
    cases same
    rcases next with _ | _ | _ | _ | _ | (_ | _) <;> exact .quiet rfl rfl rfl (.inl rfl)
  | rollingBack e inner =>
    obtain ⟨⟨accounts, next⟩, -, same⟩ := Option.map_eq_some_iff.mp step
    cases same
    cases next <;> exact .quiet rfl rfl rfl (.inl rfl)
  | logRollback e refund =>
    cases step
    exact .quiet rfl rfl rfl (.inl rfl)
  | readFrom entry block =>
    simp only [transferStep] at step
    split at step <;> cases step <;> exact .quiet rfl rfl rfl (.inl rfl)
  | readTo entry block fromBalance =>
    simp only [transferStep] at step
    split at step <;> cases step <;> exact .quiet rfl rfl rfl (.inl rfl)
  | returned result => cases step

theorem postRest_unfiled (reversal : JournalEntry) (rest : List EntryLeg) :
    (ReversalPc.postRest reversal rest).unfiled = some reversal := by
  cases rest with
  | nil => rfl
  | cons leg rest => cases side : leg.side <;> simp [ReversalPc.postRest, side, ReversalPc.unfiled]

theorem afterDebit_unfiled (reversal : JournalEntry) (leg : EntryLeg) (rest : List EntryLeg)
    (pc : DebitPc) :
    (ReversalPc.afterDebit reversal leg rest pc).unfiled = none ∨
      (ReversalPc.afterDebit reversal leg rest pc).unfiled = some reversal := by
  cases pc with
  | returned result =>
    cases result with
    | error e => exact .inl rfl
    | ok newBalance => exact .inr (postRest_unfiled reversal rest)
  | _ => exact .inr rfl

theorem afterCredit_unfiled (reversal : JournalEntry) (leg : EntryLeg) (rest : List EntryLeg)
    (pc : CreditPc) :
    (ReversalPc.afterCredit reversal leg rest pc).unfiled = none ∨
      (ReversalPc.afterCredit reversal leg rest pc).unfiled = some reversal := by
  cases pc with
  | returned result =>
    cases result with
    | error e => exact .inl rfl
    | ok newBalance => exact .inr (postRest_unfiled reversal rest)
  | _ => exact .inr rfl

theorem reversalStep_filing {call : ReversalCall} {pc pc' : ReversalPc}
    (step : reversalStep rt call books pc = some (books', pc')) :
    Filing books (.reversal call pc) books' (.reversal call pc') := by
  cases pc with
  | start =>
    simp only [reversalStep] at step
    split at step <;> cases step <;> exact .quiet rfl rfl rfl (.inl rfl)
  | drawSequence original =>
    simp only [reversalStep] at step
    split at step <;> cases step
    · exact .draw rfl rfl rfl rfl (by rintro entry ⟨⟩)
    · rename_i reversal built
      obtain ⟨sequence, -, -, reverses, -⟩ := reverse_fits built
      refine .draw rfl rfl rfl rfl fun entry carried => ?_
      obtain rfl : reversal = entry :=
        Option.some.inj ((postRest_unfiled reversal reversal.legs).symm.trans carried)
      exact ⟨sequence, reverses⟩
  | debiting reversal leg rest inner =>
    obtain ⟨⟨accounts, next⟩, -, same⟩ := Option.map_eq_some_iff.mp step
    cases same
    exact .quiet rfl rfl rfl (afterDebit_unfiled reversal leg rest next)
  | crediting reversal leg rest inner =>
    obtain ⟨⟨accounts, next⟩, -, same⟩ := Option.map_eq_some_iff.mp step
    cases same
    exact .quiet rfl rfl rfl (afterCredit_unfiled reversal leg rest next)
  | appendChain reversal =>
    cases step
    exact .quiet rfl rfl rfl (.inr rfl)
  | pushJournal reversal =>
    cases step
    exact .push reversal rfl rfl rfl rfl rfl
  | returned result => cases step

theorem entryStep_filing {worker worker' : EntryWorker}
    (step : (entrySystem rt).step books worker = some (books', worker')) :
    Filing books worker books' worker' := by
  cases worker with
  | transfer call pc =>
    obtain ⟨⟨_, next⟩, taken, same⟩ := Option.map_eq_some_iff.mp step
    cases same
    exact transferStep_filing taken
  | reversal call pc =>
    obtain ⟨⟨_, next⟩, taken, same⟩ := Option.map_eq_some_iff.mp step
    cases same
    exact reversalStep_filing taken

end Filing

section Alone

variable {rt : Runtime} {call : ReversalCall}

theorem reversalDebit_reaches (books : Books) (reversal : JournalEntry) (leg : EntryLeg)
    (rest : List EntryLeg) :
    System.Reaches ⟨reversalStep rt call⟩ (books, .debiting reversal leg rest .start)
      ({ books with accounts :=
          (AccountService.performDebit books.accounts leg.accountId leg.amountCents).2 },
        .afterDebit reversal leg rest (.returned
          (AccountService.performDebit books.accounts leg.accountId leg.amountCents).1)) := by
  apply wrapped_reaches _ (ReversalPc.afterDebit reversal leg rest) (debit_reaches leg.amountCents)
  · intro a result; rfl
  · intro result; simp
  · intro books pc going
    cases pc with
    | returned result => exact absurd rfl (going result)
    | _ => rfl

theorem reversalCredit_reaches (books : Books) (reversal : JournalEntry) (leg : EntryLeg)
    (rest : List EntryLeg) :
    System.Reaches ⟨reversalStep rt call⟩ (books, .crediting reversal leg rest .start)
      ({ books with accounts :=
          (AccountService.performCredit books.accounts leg.accountId leg.amountCents).2 },
        .afterCredit reversal leg rest (.returned
          (AccountService.performCredit books.accounts leg.accountId leg.amountCents).1)) := by
  apply wrapped_reaches _ (ReversalPc.afterCredit reversal leg rest) (credit_reaches leg.amountCents)
  · intro a result; rfl
  · intro result; simp
  · intro books pc going
    cases pc with
    | returned result => exact absurd rfl (going result)
    | _ => rfl

theorem reversalLeg_reaches (books : Books) (reversal : JournalEntry) (leg : EntryLeg)
    (rest : List EntryLeg) :
    System.Reaches ⟨reversalStep rt call⟩ (books, .postRest reversal (leg :: rest))
      ({ books with accounts := (reversalLeg books.accounts leg).2 },
        match (reversalLeg books.accounts leg).1 with
        | .error e => .returned (.error e)
        | .ok () => .postRest reversal rest) := by
  unfold reversalLeg
  cases side : leg.side with
  | debit =>
    have begins : ReversalPc.postRest reversal (leg :: rest) = .debiting reversal leg rest .start := by
      simp [ReversalPc.postRest, side]
    rw [begins]
    refine (reversalDebit_reaches books reversal leg rest).trans ?_
    simp only
    rcases AccountService.performDebit books.accounts leg.accountId leg.amountCents with
      ⟨e | newBalance, accounts⟩ <;> exact .refl _
  | credit =>
    have begins : ReversalPc.postRest reversal (leg :: rest) = .crediting reversal leg rest .start := by
      simp [ReversalPc.postRest, side]
    rw [begins]
    refine (reversalCredit_reaches books reversal leg rest).trans ?_
    simp only
    rcases AccountService.performCredit books.accounts leg.accountId leg.amountCents with
      ⟨e | newBalance, accounts⟩ <;> exact .refl _

theorem reversalLegs_reaches (reversal : JournalEntry) (legs : List EntryLeg) (books : Books) :
    System.Reaches ⟨reversalStep rt call⟩ (books, .postRest reversal legs)
      ({ books with accounts := (forLegs reversalLeg books.accounts legs).2 },
        match (forLegs reversalLeg books.accounts legs).1 with
        | .error e => .returned (.error e)
        | .ok () => .appendChain reversal) := by
  induction legs generalizing books with
  | nil => exact .refl _
  | cons leg rest ih =>
    refine (reversalLeg_reaches books reversal leg rest).trans ?_
    unfold forLegs
    rcases reversalLeg books.accounts leg with ⟨e | _, accounts⟩
    · exact .refl _
    · exact ih { books with accounts }

theorem reversalThread_reaches (rt : Runtime) (draws : Draws) (entryId : JournalEntryId)
    (st : AppState) :
    System.Reaches ⟨reversalStep rt ⟨entryId, draws⟩⟩ (st.toBooks, .start)
      ((reverseJournalEntry rt draws entryId st).2.toBooks,
        .returned (reverseJournalEntry rt draws entryId st).1) := by
  unfold reverseJournalEntry
  cases found : st.journal.find? fun e => e.id = entryId with
  | none => exact .step (by simp [reversalStep, found]) (.refl _)
  | some original =>
    have looked : reversalStep rt ⟨entryId, draws⟩ st.toBooks .start =
        some (st.toBooks, .drawSequence original) := by simp [reversalStep, found]
    refine .step looked ?_
    simp only
    cases built : original.reverse rt.printUuid draws.entryId draws.recordedAt draws.transactionId
      (st.journalSeq + 1) with
    | error e => exact .step (by simp [reversalStep, built]) (.refl _)
    | ok reversal =>
      have sequence := (reverse_fits built).1
      have drawn : reversalStep rt ⟨entryId, draws⟩ st.toBooks (.drawSequence original) =
          some ({ st.toBooks with journalSeq := st.journalSeq + 1 },
            .postRest reversal reversal.legs) := by simp [reversalStep, built]
      refine .step drawn ((reversalLegs_reaches reversal reversal.legs _).trans ?_)
      simp only
      rcases forLegs reversalLeg st.accounts reversal.legs with ⟨e | _, accounts⟩
      · exact .refl _
      · simp only [← sequence]
        exact .step rfl (.step rfl (.refl _))

end Alone

section Scheduled

variable {I : Type} [DecidableEq I] {rt : Runtime} {c : Config I Books EntryWorker} {i : I}

theorem reversal_alone (draws : Draws) (entryId : JournalEntryId) (st : AppState)
    (books : c.shared = st.toBooks) (here : c.thread i = .reversal ⟨entryId, draws⟩ .start) :
    ∃ n, (entrySystem rt).run c (List.replicate n i) =
      { shared := (reverseJournalEntry rt draws entryId st).2.toBooks
        thread := Function.update c.thread i (.reversal ⟨entryId, draws⟩
          (.returned (reverseJournalEntry rt draws entryId st).1)) } := by
  have lifted : (entrySystem rt).Reaches (st.toBooks, .reversal ⟨entryId, draws⟩ .start)
      ((reverseJournalEntry rt draws entryId st).2.toBooks, .reversal ⟨entryId, draws⟩
        (.returned (reverseJournalEntry rt draws entryId st).1)) :=
    (reversalThread_reaches rt draws entryId st).lift
      (fun now => (now.1, EntryWorker.reversal ⟨entryId, draws⟩ now.2)) fun books pc next taken => by
        simpa [entrySystem] using taken
  exact lifted.run c i (by rw [books, here])

theorem entryTransfer_alone (draws : Draws) (req : TransferRequest) (st : AppState)
    (books : c.shared = st.toBooks) {call : TransferCall}
    (named : call = ⟨req, (st.circuitBreaker.allowRequest draws.arrival).1, draws⟩)
    (here : c.thread i = .transfer call .start) :
    ∃ n, (entrySystem rt).run c (List.replicate n i) =
      { shared := (transfer rt draws req st).2.toBooks
        thread := Function.update c.thread i
          (.transfer call (.returned (transfer rt draws req st).1)) } := by
  have thread := transferThread_reaches rt draws req st
  rw [← named] at thread
  have lifted : (entrySystem rt).Reaches (st.toBooks, .transfer call .start)
      ((transfer rt draws req st).2.toBooks, .transfer call (.returned (transfer rt draws req st).1)) :=
    thread.lift (fun now => (now.1, EntryWorker.transfer call now.2)) fun books pc next taken => by
      simpa [entrySystem] using taken
  exact lifted.run c i (by rw [books, here])

end Scheduled

end BankingLedger
