import BankingLedger.Api.TransferConcurrency

set_option autoImplicit false

namespace BankingLedger

open FiniteMap Interleaving

-- A thread that works on an account is at `wrap pc` while the operation is at `pc`.
theorem wrapped_reaches {P E A M : Type} {outer : Books → M → Option (Books × M)}
    {step : Account → P → Option (Account × P)}
    {operation : Account → Except E A × Account} {returned : Except E A → P} {start : P}
    {notFound : AccountId → E} (id : AccountId) (wrap : P → M)
    (alone : ∀ a, System.Reaches ⟨step⟩ (a, start) ((operation a).2, returned (operation a).1))
    (stays : ∀ a result, step a (returned result) = none) (begins : ∀ result, start ≠ returned result)
    (each : ∀ books pc, (∀ result, pc ≠ returned result) → outer books (wrap pc) =
      (atAccount step (returned (.error (notFound id))) id books.accounts pc).map fun next =>
        ({ books with accounts := next.1 }, wrap next.2)) (books : Books) :
    System.Reaches ⟨outer⟩ (books, wrap start)
      ({ books with accounts := (AccountService.onAccount notFound operation books.accounts id).2 },
        wrap (returned (AccountService.onAccount notFound operation books.accounts id).1)) := by
  let view (now : Accounts × P) : Books × M := ({ books with accounts := now.1 }, wrap now.2)
  have moves : ∀ accounts pc next, (∀ result, pc ≠ returned result) →
      atAccount step (returned (.error (notFound id))) id accounts pc = some next →
      outer (view (accounts, pc)).1 (view (accounts, pc)).2 = some (view next) := by
    intro accounts pc next going taken
    have moved := each { books with accounts } pc going
    rw [taken] at moved
    exact moved
  exact onAccount_reaches view alone stays begins moves

section Transfer

variable {rt : Runtime} {call : TransferCall}

theorem debiting_reaches (books : Books) (entry : JournalEntry) (block : HashLink) :
    System.Reaches ⟨transferStep rt call⟩ (books, .debiting entry block .start)
      ({ books with accounts :=
          (AccountService.performDebit books.accounts call.req.fromAccount call.req.amountCents).2 },
        .afterDebit entry block (.returned
          (AccountService.performDebit books.accounts call.req.fromAccount call.req.amountCents).1)) := by
  apply wrapped_reaches _ (TransferPc.afterDebit entry block) (debit_reaches call.req.amountCents)
  · intro a result; rfl
  · intro result; simp
  · intro books pc going
    cases pc with
    | returned result => exact absurd rfl (going result)
    | _ => rfl

theorem crediting_reaches (books : Books) (entry : JournalEntry) (block : HashLink) :
    System.Reaches ⟨transferStep rt call⟩ (books, .crediting entry block .start)
      ({ books with accounts :=
          (AccountService.performCredit books.accounts call.req.toAccount call.req.amountCents).2 },
        .afterCredit entry block (.returned
          (AccountService.performCredit books.accounts call.req.toAccount call.req.amountCents).1)) := by
  apply wrapped_reaches _ (TransferPc.afterCredit entry block) (credit_reaches call.req.amountCents)
  · intro a result; rfl
  · intro result; simp
  · intro books pc going
    cases pc with
    | returned result => exact absurd rfl (going result)
    | _ => rfl

theorem rollingBack_reaches (books : Books) (e : CreditError) :
    System.Reaches ⟨transferStep rt call⟩ (books, .rollingBack e .start)
      ({ books with accounts :=
          (AccountService.performCredit books.accounts call.req.fromAccount call.req.amountCents).2 },
        .logRollback e
          (AccountService.performCredit books.accounts call.req.fromAccount call.req.amountCents).1) := by
  apply wrapped_reaches _ (TransferPc.afterRefund e) (credit_reaches call.req.amountCents)
  · intro a result; rfl
  · intro result; simp
  · intro books pc going
    cases pc with
    | returned result => exact absurd rfl (going result)
    | _ => rfl

theorem moveFunds_reaches (books : Books) (entry : JournalEntry) (block : HashLink) :
    System.Reaches ⟨transferStep rt call⟩ (books, .debiting entry block .start)
      ({ books with accounts := (moveFunds call.req books.accounts).2 },
        match (moveFunds call.req books.accounts).1 with
        | .error reason => .returned (.error (.badRequest reason))
        | .ok () => .readFrom entry block) := by
  refine (debiting_reaches books entry block).trans ?_
  unfold moveFunds
  rcases AccountService.performDebit books.accounts call.req.fromAccount call.req.amountCents with
    ⟨e | newBalance, accounts⟩
  · exact .refl _
  · refine (crediting_reaches _ entry block).trans ?_
    simp only
    rcases AccountService.performCredit accounts call.req.toAccount call.req.amountCents with
      ⟨e | newBalance, accounts⟩
    · exact (rollingBack_reaches _ e).trans (.step rfl (.refl _))
    · exact .refl _

theorem journalTransfer_reaches (books : Books) :
    System.Reaches ⟨transferStep rt call⟩ (books, .drawSequence)
      ((journalTransfer rt call.draws call.req books).2,
        match (journalTransfer rt call.draws call.req books).1 with
        | .error e => .returned (.error e)
        | .ok (entry, block) => .debiting entry block .start) := by
  unfold journalTransfer
  simp only
  cases built : JournalEntry.new call.draws.entryId call.draws.recordedAt call.draws.transactionId
    (books.journalSeq + 1) call.req.legs (call.req.description.getD "Transfer") with
  | error e => exact .step (by simp [transferStep, built]) (.refl _)
  | ok entry =>
    cases text : rt.entryToJson entry with
    | error e => exact .step (by simp [transferStep, built, text]) (.refl _)
    | ok chainData =>
      have drawn : transferStep rt call books .drawSequence =
          some ({ books with journalSeq := books.journalSeq + 1 }, .appendChain entry chainData) := by
        simp [transferStep, built, text]
      simp only [text]
      exact .step drawn (.step rfl (.step rfl (.refl _)))

theorem readBalances_reaches (books : Books) (entry : JournalEntry) (block : HashLink) :
    System.Reaches ⟨transferStep rt call⟩ (books, .readFrom entry block)
      (books, .returned
        (match AccountService.getAccount books.accounts call.req.fromAccount,
            AccountService.getAccount books.accounts call.req.toAccount with
          | some fromAccount, some toAccount =>
            .ok { transactionId := call.draws.transactionId
                  journalEntryId := entry.id
                  fromBalance := fromAccount.balance
                  toBalance := toAccount.balance
                  chainIndex := block.index
                  chainHash := block.hash }
          | _, _ => .error .notFound)) := by
  cases sender : AccountService.getAccount books.accounts call.req.fromAccount with
  | none => exact .step (by simp [transferStep, sender]) (.refl _)
  | some a =>
    have read : transferStep rt call books (.readFrom entry block) =
        some (books, .readTo entry block a.balance) := by simp [transferStep, sender]
    refine .step read ?_
    cases receiver : AccountService.getAccount books.accounts call.req.toAccount with
    | none => exact .step (by simp [transferStep, receiver]) (.refl _)
    | some b => exact .step (by simp [transferStep, receiver]) (.refl _)

theorem transferThread_reaches (rt : Runtime) (draws : Draws) (req : TransferRequest) (st : AppState) :
    System.Reaches
      ⟨transferStep rt ⟨req, (st.circuitBreaker.allowRequest draws.arrival).1, draws⟩⟩
      (st.toBooks, .start)
      ((transfer rt draws req st).2.toBooks, .returned (transfer rt draws req st).1) := by
  unfold transfer
  simp only
  cases admitted : (st.circuitBreaker.allowRequest draws.arrival).1 with
  | false => exact .step (by simp [transferStep]) (.refl _)
  | true =>
    refine .step (by rfl) ?_
    simp only [Bool.not_true, Bool.false_eq_true, if_false]
    cases sender : AccountService.getAccount st.accounts req.fromAccount with
    | none => exact .step (by simp [transferStep, sender]) (.refl _)
    | some a =>
      have found : transferStep rt ⟨req, true, draws⟩ st.toBooks .snapshot =
          some (st.toBooks, .drawSequence) := by simp [transferStep, sender]
      refine .step found ((journalTransfer_reaches st.toBooks).trans ?_)
      simp only
      rcases journalTransfer rt draws req st.toBooks with ⟨e | ⟨entry, block⟩, books⟩
      · exact .refl _
      · refine (moveFunds_reaches books entry block).trans ?_
        simp only
        rcases moveFunds req books.accounts with ⟨reason | _, accounts⟩
        · exact .refl _
        · refine (readBalances_reaches { books with accounts } entry block).trans ?_
          simp only
          cases AccountService.getAccount accounts req.fromAccount with
          | none => exact .refl _
          | some a =>
            cases AccountService.getAccount accounts req.toAccount with
            | none => exact .refl _
            | some b => exact .refl _

end Transfer

section Status

variable {rt : Runtime}

theorem setAccountStatus_reaches (draws : Draws) (id : AccountId) (status : Option String)
    (st : AppState) :
    System.Reaches ⟨statusCallStep rt
      (.setAccountStatus (st.circuitBreaker.allowRequest draws.arrival).1 id status)⟩
      (st.toBooks, .start)
      ((setAccountStatus rt draws id status st).2.toBooks,
        .returned ((setAccountStatus rt draws id status st).1.map .account)) := by
  unfold setAccountStatus
  simp only
  cases admitted : (st.circuitBreaker.allowRequest draws.arrival).1 with
  | false => exact .step (by rfl) (.refl _)
  | true =>
    simp only [Bool.not_true, Bool.false_eq_true, if_false]
    cases parsed : parseStatus (rt.toUppercase (status.getD "OPEN")) with
    | none => exact .step (by simp [statusCallStep, parsed]; rfl) (.refl _)
    | some newStatus =>
      have begun : statusCallStep rt (.setAccountStatus true id status) st.toBooks .start =
          some (st.toBooks, .set newStatus) := by simp [statusCallStep, parsed]
      refine .step begun ?_
      rcases changed : AccountService.setStatus st.accounts id newStatus with ⟨e | (_ | _), accounts⟩
      · exact .step (by simp [statusCallStep, StatusCall.accountId, changed]; rfl) (.refl _)
      · exact .step (by simp [statusCallStep, StatusCall.accountId, changed]; rfl) (.refl _)
      · have set : statusCallStep rt (.setAccountStatus true id status) st.toBooks (.set newStatus) =
            some ({ st.toBooks with accounts }, .finish) := by
          simp [statusCallStep, StatusCall.accountId, changed]
        refine .step set ?_
        simp only [changed]
        cases found : AccountService.getAccount accounts id with
        | none => exact .step (by simp [statusCallStep, found]; rfl) (.refl _)
        | some a => exact .step (by simp [statusCallStep, found]; rfl) (.refl _)

theorem coaDeactivate_reaches (draws : Draws) (id : AccountId) (st : AppState) :
    System.Reaches ⟨statusCallStep rt (.coaDeactivate id draws.blockTime)⟩ (st.toBooks, .start)
      ((coaDeactivate rt draws id st).2.toBooks,
        .returned ((coaDeactivate rt draws id st).1.map .deactivated)) := by
  unfold coaDeactivate
  refine .step (by rfl) ?_
  rcases changed : AccountService.setStatus st.accounts id .Closed with ⟨e | (_ | _), accounts⟩
  · exact .step (by simp [statusCallStep, StatusCall.accountId, changed]; rfl) (.refl _)
  · exact .step (by simp [statusCallStep, StatusCall.accountId, changed]; rfl) (.refl _)
  · have set : statusCallStep rt (.coaDeactivate id draws.blockTime) st.toBooks (.set .Closed) =
        some ({ st.toBooks with accounts }, .finish) := by
      simp [statusCallStep, StatusCall.accountId, changed]
    exact .step set (.step rfl (.refl _))

end Status

section Scheduled

variable {I : Type} [DecidableEq I] {rt : Runtime} {calls : I → ApiCall} {i : I}

theorem transfer_alone (draws : Draws) (req : TransferRequest) (st : AppState)
    (here : calls i = .transfer ⟨req, (st.circuitBreaker.allowRequest draws.arrival).1, draws⟩) :
    ∃ n, (apiSystem rt).run (apiStart st.toBooks calls) (List.replicate n i) =
      { shared := (transfer rt draws req st).2.toBooks
        thread := Function.update (fun j => (calls j).worker) i
          (.transfer ⟨req, (st.circuitBreaker.allowRequest draws.arrival).1, draws⟩
            (.returned (transfer rt draws req st).1)) } := by
  generalize named : TransferCall.mk req (st.circuitBreaker.allowRequest draws.arrival).1 draws = call
    at here ⊢
  have thread := transferThread_reaches rt draws req st
  rw [named] at thread
  have lifted : (apiSystem rt).Reaches (st.toBooks, .transfer call .start)
      ((transfer rt draws req st).2.toBooks, .transfer call (.returned (transfer rt draws req st).1)) :=
    thread.lift (fun now => (now.1, Worker.transfer call now.2)) fun books pc next taken => by
      simpa [apiSystem] using taken
  exact lifted.run (apiStart st.toBooks calls) i (by simp [apiStart, here, ApiCall.worker])

theorem status_alone {call : StatusCall} {books books' : Books} {result : Except AppError StatusReply}
    (here : calls i = .status call)
    (alone : System.Reaches ⟨statusCallStep rt call⟩ (books, .start) (books', .returned result)) :
    ∃ n, (apiSystem rt).run (apiStart books calls) (List.replicate n i) =
      { shared := books'
        thread := Function.update (fun j => (calls j).worker) i (.status call (.returned result)) } := by
  have lifted : (apiSystem rt).Reaches (books, .status call .start)
      (books', .status call (.returned result)) :=
    alone.lift (fun now => (now.1, Worker.status call now.2)) fun books pc next taken => by
      simpa [apiSystem] using taken
  exact lifted.run (apiStart books calls) i (by simp [apiStart, here, ApiCall.worker])

theorem setAccountStatus_alone (draws : Draws) (id : AccountId) (status : Option String) (st : AppState)
    (here : calls i =
      .status (.setAccountStatus (st.circuitBreaker.allowRequest draws.arrival).1 id status)) :
    ∃ n, (apiSystem rt).run (apiStart st.toBooks calls) (List.replicate n i) =
      { shared := (setAccountStatus rt draws id status st).2.toBooks
        thread := Function.update (fun j => (calls j).worker) i
          (.status (.setAccountStatus (st.circuitBreaker.allowRequest draws.arrival).1 id status)
            (.returned ((setAccountStatus rt draws id status st).1.map .account))) } :=
  status_alone here (setAccountStatus_reaches draws id status st)

theorem coaDeactivate_alone (draws : Draws) (id : AccountId) (st : AppState)
    (here : calls i = .status (.coaDeactivate id draws.blockTime)) :
    ∃ n, (apiSystem rt).run (apiStart st.toBooks calls) (List.replicate n i) =
      { shared := (coaDeactivate rt draws id st).2.toBooks
        thread := Function.update (fun j => (calls j).worker) i
          (.status (.coaDeactivate id draws.blockTime)
            (.returned ((coaDeactivate rt draws id st).1.map .deactivated))) } :=
  status_alone here (coaDeactivate_reaches draws id st)

end Scheduled

end BankingLedger
