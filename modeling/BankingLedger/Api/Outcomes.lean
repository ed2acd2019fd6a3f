import BankingLedger.Api.Handlers

set_option autoImplicit false

namespace BankingLedger

open FiniteMap MachineInt

theorem reversalLeg_eq : reversalLeg = postLegWith
    (fun leg => match leg.side with
      | .debit => .badRequest (.reversalDebitFailed (.accountNotFound leg.accountId))
      | .credit => .badRequest (.reversalCreditFailed (.accountNotFound leg.accountId)))
    (fun _ e => .badRequest (.reversalDebitFailed e))
    (fun _ e => .badRequest (.reversalCreditFailed e)) := by
  funext accounts ⟨id, side, amount⟩
  unfold reversalLeg postLegWith AccountService.performDebit AccountService.performCredit
    AccountService.onAccount
  cases accounts.lookup id with
  | none => cases side <;> rfl
  | some a =>
    cases side with
    | debit =>
      simp only
      generalize a.debit amount = result
      rcases result with ⟨_ | _, a'⟩ <;> rfl
    | credit =>
      simp only
      generalize a.credit amount = result
      rcases result with ⟨_ | _, a'⟩ <;> rfl

theorem reversalLeg_posts : PostsLeg reversalLeg := by
  rw [reversalLeg_eq]
  exact postLegWith_posts _ _ _

def TransferRequest.postings (req : TransferRequest) : List EntryLeg :=
  [{ accountId := req.fromAccount, side := .debit, amountCents := req.amountCents },
   { accountId := req.toAccount, side := .credit, amountCents := req.amountCents }]

theorem moveFunds_ok_iff {req : TransferRequest} {accounts accounts' : Accounts} :
    moveFunds req accounts = (.ok (), accounts') ↔
      forLegs reversalLeg accounts req.postings = (.ok (), accounts') := by
  simp only [moveFunds, TransferRequest.postings, forLegs, reversalLeg]
  generalize AccountService.performDebit accounts req.fromAccount req.amountCents = debited
  obtain ⟨_ | _, accounts₁⟩ := debited
  · simp
  · simp only
    generalize AccountService.performCredit accounts₁ req.toAccount req.amountCents = credited
    obtain ⟨_ | _, accounts₂⟩ := credited <;> simp

theorem moveFunds_passes {req : TransferRequest} {accounts : Accounts}
    (pass : LegsPass accounts req.postings) :
    ∃ accounts', moveFunds req accounts = (.ok (), accounts') ∧
      Shifted (netCents req.postings) accounts accounts' := by
  obtain ⟨accounts', posted, shifted⟩ := reversalLeg_posts.loop_passes _ accounts pass
  exact ⟨accounts', moveFunds_ok_iff.mpr posted, shifted⟩

def TransferRequest.entry (draws : Draws) (req : TransferRequest) (sequenceNumber : Nat) :
    JournalEntry :=
  { id := draws.entryId
    transactionId := draws.transactionId
    sequenceNumber
    legs := req.legs
    description := req.description.getD "Transfer"
    recordedAt := draws.recordedAt
    reverses := none }

def Journalled (rt : Runtime) (draws : Draws) (req : TransferRequest) (st : AppState) : Prop :=
  (st.circuitBreaker.allowRequest draws.arrival).1 = true ∧
    (st.accounts.lookup req.fromAccount).isSome ∧ 0 < req.amountCents ∧
    ∃ text, rt.entryToJson (req.entry draws (st.journalSeq + 1)) = .ok text

inductive TransferOutcome (rt : Runtime) (draws : Draws) (req : TransferRequest) (st : AppState) :
    Except AppError TransferResponse × AppState → Prop where
  | refused (e : AppError) (st' : AppState) (accounts : st'.accounts = st.accounts)
      (journal : st'.journal = st.journal) : TransferOutcome rt draws req st (.error e, st')
  | failed (e : AppError) (reason : Reason) (st' : AppState)
      (journalled : Journalled rt draws req st)
      (journal : st'.journal = st.journal ++ [req.entry draws (st.journalSeq + 1)])
      (moved : moveFunds req st.accounts = (.error reason, st'.accounts)) :
      TransferOutcome rt draws req st (.error e, st')
  | done (response : TransferResponse) (st' : AppState) (journalled : Journalled rt draws req st)
      (entryId : response.journalEntryId = draws.entryId)
      (journal : st'.journal = st.journal ++ [req.entry draws (st.journalSeq + 1)])
      (pass : LegsPass st.accounts req.postings)
      (shifted : Shifted (netCents req.postings) st.accounts st'.accounts) :
      TransferOutcome rt draws req st (.ok response, st')

theorem TransferRequest.entry_accepted {req : TransferRequest} (positive : 0 < req.amountCents)
    (draws : Draws) (sequenceNumber : Nat) :
    JournalEntry.new draws.entryId draws.recordedAt draws.transactionId sequenceNumber req.legs
      (req.description.getD "Transfer") = .ok (req.entry draws sequenceNumber) :=
  JournalEntry.new_of_balanced ((balanced_pair _ _ _).mpr positive)

theorem TransferRequest.entry_refused {req : TransferRequest} (positive : ¬ 0 < req.amountCents)
    (draws : Draws) (sequenceNumber : Nat) :
    ∃ e, JournalEntry.new draws.entryId draws.recordedAt draws.transactionId sequenceNumber req.legs
      (req.description.getD "Transfer") = .error e :=
  JournalEntry.new_of_unbalanced fun balanced => positive ((balanced_pair _ _ _).mp balanced)

theorem journalTransfer_cases (rt : Runtime) (draws : Draws) (req : TransferRequest)
    (books : Books) :
    (∃ e, journalTransfer rt draws req books =
        (.error e, { books with journalSeq := books.journalSeq + 1 })) ∨
      (0 < req.amountCents ∧
        (∃ text, rt.entryToJson (req.entry draws (books.journalSeq + 1)) = .ok text) ∧
        ∃ block chain, journalTransfer rt draws req books =
        (.ok (req.entry draws (books.journalSeq + 1), block),
          { books with
            hashChain := chain
            journal := books.journal ++ [req.entry draws (books.journalSeq + 1)]
            journalSeq := books.journalSeq + 1 })) := by
  simp only [journalTransfer]
  by_cases positive : 0 < req.amountCents
  · simp only [TransferRequest.entry_accepted positive]
    cases rt.entryToJson (req.entry draws (books.journalSeq + 1)) with
    | error e => exact .inl ⟨_, rfl⟩
    | ok chainData => exact .inr ⟨positive, ⟨chainData, rfl⟩, _, _, rfl⟩
  · obtain ⟨e, refused⟩ := TransferRequest.entry_refused positive draws (books.journalSeq + 1)
    simp only [refused]
    exact .inl ⟨_, rfl⟩

theorem transfer_outcome (rt : Runtime) (draws : Draws) (req : TransferRequest) (st : AppState) :
    TransferOutcome rt draws req st (transfer rt draws req st) := by
  unfold transfer
  simp only
  split
  · exact .refused _ _ rfl rfl
  rename_i admitted
  cases sender : AccountService.getAccount st.accounts req.fromAccount with
  | none => exact .refused _ _ rfl rfl
  | some snapshot =>
    simp only
    rcases journalTransfer_cases rt draws req st.toBooks with
      ⟨e, refused⟩ | ⟨positive, serialized, block, chain, written⟩
    · simp only [refused]
      exact .refused _ _ rfl rfl
    · have journalled : Journalled rt draws req st :=
        ⟨by simpa using admitted, Option.isSome_iff_exists.mpr ⟨snapshot, sender⟩, positive,
          serialized⟩
      simp only [written]
      rcases moved : moveFunds req st.accounts with ⟨_ | _, accounts⟩
      · exact .failed _ _ _ journalled rfl moved
      · simp only
        obtain ⟨pass, shifted⟩ := reversalLeg_posts.loop_ok (moveFunds_ok_iff.mp moved)
        obtain ⟨fromAccount, fromFound⟩ :=
          shifted.found (pass.found (List.mem_cons_self ..))
        obtain ⟨toAccount, toFound⟩ :=
          shifted.found (pass.found (List.mem_cons_of_mem _ (List.mem_cons_self ..)))
        simp only [AccountService.getAccount, fromFound, toFound]
        exact .done _ _ journalled rfl rfl pass shifted

theorem journalTransfer_of_journalled {rt : Runtime} {draws : Draws} {req : TransferRequest}
    {st : AppState} (journalled : Journalled rt draws req st) :
    ∃ block chain, journalTransfer rt draws req st.toBooks =
      (.ok (req.entry draws (st.journalSeq + 1), block),
        { st.toBooks with
          hashChain := chain
          journal := st.journal ++ [req.entry draws (st.journalSeq + 1)]
          journalSeq := st.journalSeq + 1 }) := by
  obtain ⟨-, -, positive, text, serialized⟩ := journalled
  simp only [journalTransfer, TransferRequest.entry_accepted positive, serialized]
  exact ⟨_, _, rfl⟩

theorem transfer_ok_iff (rt : Runtime) (draws : Draws) (req : TransferRequest) (st : AppState) :
    (transfer rt draws req st).1.isOk = true ↔
      Journalled rt draws req st ∧ LegsPass st.accounts req.postings := by
  constructor
  · intro ok
    have outcome := transfer_outcome rt draws req st
    generalize transfer rt draws req st = result at outcome ok
    cases outcome with
    | refused => cases ok
    | failed => cases ok
    | done response st' journalled entryId journal pass shifted => exact ⟨journalled, pass⟩
  · rintro ⟨journalled, pass⟩
    obtain ⟨block, chain, written⟩ := journalTransfer_of_journalled journalled
    obtain ⟨admitted, sender, -⟩ := journalled
    obtain ⟨a, found⟩ := Option.isSome_iff_exists.mp sender
    obtain ⟨accounts, moved, shifted⟩ := moveFunds_passes pass
    obtain ⟨fromAccount, fromFound⟩ := shifted.found (pass.found (List.mem_cons_self ..))
    obtain ⟨toAccount, toFound⟩ :=
      shifted.found (pass.found (List.mem_cons_of_mem _ (List.mem_cons_self ..)))
    unfold transfer
    simp only [admitted, Bool.not_true, Bool.false_eq_true, if_false, AccountService.getAccount, found]
    simp only [written, moved, fromFound, toFound]
    rfl

def JournalEntry.reversal (rt : Runtime) (draws : Draws) (original : JournalEntry)
    (sequenceNumber : Nat) : JournalEntry :=
  { id := draws.entryId
    transactionId := draws.transactionId
    sequenceNumber
    legs := original.legs.map EntryLeg.flipped
    description := "REVERSAL of " ++ rt.printUuid original.id
    recordedAt := draws.recordedAt
    reverses := some original.id }

def entryById (journal : List JournalEntry) (entryId : JournalEntryId) : Option JournalEntry :=
  journal.find? fun e => e.id = entryId

inductive ReversalOutcome (rt : Runtime) (draws : Draws) (entryId : JournalEntryId) (st : AppState) :
    Except AppError ReversalResponse × AppState → Prop where
  | refused (e : AppError) (st' : AppState) (accounts : st'.accounts = st.accounts)
      (journal : st'.journal = st.journal) (hashChain : st'.hashChain = st.hashChain)
      (unfit : ∀ original, entryById st.journal entryId = some original → ¬ Balanced original.legs) :
      ReversalOutcome rt draws entryId st (.error e, st')
  | stopped (e : AppError) (st' : AppState) (original : JournalEntry)
      (found : entryById st.journal entryId = some original) (balanced : Balanced original.legs)
      (posted : forLegs reversalLeg st.accounts (original.legs.map EntryLeg.flipped) =
        (.error e, st'.accounts))
      (journal : st'.journal = st.journal) (hashChain : st'.hashChain = st.hashChain) :
      ReversalOutcome rt draws entryId st (.error e, st')
  | done (response : ReversalResponse) (st' : AppState) (original : JournalEntry)
      (found : entryById st.journal entryId = some original) (balanced : Balanced original.legs)
      (pass : LegsPass st.accounts (original.legs.map EntryLeg.flipped))
      (shifted : Shifted (netCents (original.legs.map EntryLeg.flipped)) st.accounts st'.accounts)
      (journal : st'.journal = st.journal ++ [original.reversal rt draws (st.journalSeq + 1)]) :
      ReversalOutcome rt draws entryId st (.ok response, st')

theorem reversal_outcome (rt : Runtime) (draws : Draws) (entryId : JournalEntryId) (st : AppState) :
    ReversalOutcome rt draws entryId st (reverseJournalEntry rt draws entryId st) := by
  unfold reverseJournalEntry
  rw [← entryById]
  cases found : entryById st.journal entryId with
  | none => exact .refused _ _ rfl rfl rfl (by simp [found])
  | some original =>
    simp only
    by_cases balanced : Balanced original.legs
    · simp only [JournalEntry.reverse_of_balanced balanced]
      rcases posted : forLegs reversalLeg st.accounts (original.legs.map EntryLeg.flipped) with
        ⟨e | _, accounts⟩
      · exact .stopped _ _ original found balanced posted rfl rfl
      · obtain ⟨pass, shifted⟩ := reversalLeg_posts.loop_ok posted
        exact .done _ _ original found balanced pass shifted rfl
    · obtain ⟨e, refused⟩ := JournalEntry.reverse_of_unbalanced balanced
      rw [refused]
      exact .refused _ _ rfl rfl rfl (by simp [found, balanced])

theorem reversal_ok_iff (rt : Runtime) (draws : Draws) (entryId : JournalEntryId) (st : AppState) :
    (reverseJournalEntry rt draws entryId st).1.isOk = true ↔
      ∃ original, entryById st.journal entryId = some original ∧ Balanced original.legs ∧
        LegsPass st.accounts (original.legs.map EntryLeg.flipped) := by
  have outcome := reversal_outcome rt draws entryId st
  generalize reverseJournalEntry rt draws entryId st = result at outcome
  cases outcome with
  | refused e st' accounts journal hashChain unfit =>
    refine ⟨fun ok => absurd ok Bool.false_ne_true, ?_⟩
    rintro ⟨original, found, balanced, -⟩
    exact absurd balanced (unfit original found)
  | stopped e st' original found balanced posted =>
    refine ⟨fun ok => absurd ok Bool.false_ne_true, ?_⟩
    rintro ⟨_, same, -, pass⟩
    obtain rfl : original = _ := Option.some.inj (found.symm.trans same)
    exact absurd pass (reversalLeg_posts.refused_of_stopped posted)
  | done response st' original found balanced pass =>
    exact ⟨fun _ => ⟨original, found, balanced, pass⟩, fun _ => rfl⟩

inductive JournalAdvance (books books' : Books) : Prop where
  | kept (journal : books'.journal = books.journal)
      (journalSeq : books'.journalSeq = books.journalSeq ∨ books'.journalSeq = books.journalSeq + 1)
  | appended (entry : JournalEntry) (journal : books'.journal = books.journal ++ [entry])
      (sequence : entry.sequenceNumber = books.journalSeq + 1)
      (journalSeq : books'.journalSeq = books.journalSeq + 1)

theorem transfer_journalAdvance (rt : Runtime) (draws : Draws) (req : TransferRequest) (st : AppState) :
    JournalAdvance st.toBooks (transfer rt draws req st).2.toBooks := by
  unfold transfer
  simp only
  split_ifs
  · exact .kept rfl (.inl rfl)
  · cases AccountService.getAccount st.accounts req.fromAccount with
    | none => exact .kept rfl (.inl rfl)
    | some snapshot =>
      simp only
      rcases journalTransfer_cases rt draws req st.toBooks with
        ⟨e, refused⟩ | ⟨-, -, block, chain, written⟩
      · simp only [refused]
        exact .kept rfl (.inr rfl)
      · simp only [written]
        rcases moveFunds req st.accounts with ⟨e | _, accounts⟩
        · exact .appended _ rfl rfl rfl
        · simp only
          split <;> exact .appended _ rfl rfl rfl

theorem reversal_journalAdvance (rt : Runtime) (draws : Draws) (entryId : JournalEntryId) (st : AppState) :
    JournalAdvance st.toBooks (reverseJournalEntry rt draws entryId st).2.toBooks := by
  unfold reverseJournalEntry
  cases st.journal.find? fun e => e.id = entryId with
  | none => exact .kept rfl (.inl rfl)
  | some original =>
    simp only
    cases built : original.reverse rt.printUuid draws.entryId draws.recordedAt draws.transactionId
      (st.journalSeq + 1) with
    | error e => exact .kept rfl (.inr rfl)
    | ok reversal =>
      simp only
      rcases forLegs reversalLeg st.accounts reversal.legs with ⟨e | _, accounts⟩
      · exact .kept rfl (.inr rfl)
      · exact .appended reversal rfl (reverse_fits built).1 rfl

end BankingLedger
