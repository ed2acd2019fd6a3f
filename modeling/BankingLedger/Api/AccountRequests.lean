import BankingLedger.Service.AccountOperations
import BankingLedger.Api.Outcomes

set_option autoImplicit false

namespace BankingLedger

open FiniteMap

inductive AccountRequest where
  | createAccount (req : CreateAccountRequest)
  | debitAccount (id : AccountId) (amountCents : Int64)
  | creditAccount (id : AccountId) (amountCents : Int64)
  | setAccountStatus (id : AccountId) (status : Option String)
  | placeHold (id : AccountId) (amountCents : Int64)
  | releaseHold (id : AccountId) (amountCents : Int64)
  | transfer (req : TransferRequest)
  | reverseJournalEntry (entryId : JournalEntryId)
  | coaDeactivate (id : AccountId)

inductive AccountReply where
  | account (response : AccountResponse)
  | hold (response : HoldResponse)
  | transfer (response : TransferResponse)
  | reversal (response : ReversalResponse)
  | deactivated (response : DeactivateResponse)

def replying {A : Type} (wrap : A → AccountReply) (result : Except AppError A × AppState) :
    Except AppError AccountReply × AppState :=
  (result.1.map wrap, result.2)

def serve (rt : Runtime) (draws : Draws) (req : AccountRequest) (st : AppState) :
    Except AppError AccountReply × AppState :=
  match req with
  | .createAccount req => replying .account (createAccount rt draws req st)
  | .debitAccount id amountCents => replying .account (debitAccount rt draws id amountCents st)
  | .creditAccount id amountCents => replying .account (creditAccount rt draws id amountCents st)
  | .setAccountStatus id status => replying .account (setAccountStatus rt draws id status st)
  | .placeHold id amountCents => replying .hold (placeHold draws id amountCents st)
  | .releaseHold id amountCents => replying .hold (releaseHold draws id amountCents st)
  | .transfer req => replying .transfer (transfer rt draws req st)
  | .reverseJournalEntry entryId => replying .reversal (reverseJournalEntry rt draws entryId st)
  | .coaDeactivate id => replying .deactivated (coaDeactivate rt draws id st)

section Via

def Via (allowed : AccountOperation → Prop) (accounts accounts' : Accounts) : Prop :=
  ∃ operations, (∀ operation ∈ operations, allowed operation) ∧
    Runs.run AccountOperation.apply accounts operations = accounts'

namespace Via

variable {allowed : AccountOperation → Prop} {accounts accounts' accounts'' : Accounts}

theorem refl (accounts : Accounts) : Via allowed accounts accounts := ⟨[], by simp, rfl⟩

theorem one {operation : AccountOperation} (allows : allowed operation)
    (applied : operation.apply accounts = accounts') : Via allowed accounts accounts' :=
  ⟨[operation], by simpa using allows, applied⟩

theorem trans (first : Via allowed accounts accounts') (second : Via allowed accounts' accounts'') :
    Via allowed accounts accounts'' := by
  obtain ⟨before, early, rfl⟩ := first
  obtain ⟨after, late, rfl⟩ := second
  refine ⟨before ++ after, ?_, Runs.run_append _ _ _ _⟩
  intro operation member
  exact (List.mem_append.mp member).elim (early operation) (late operation)

theorem keeps {Inv : Accounts → Prop}
    (each : ∀ accounts operation, Inv accounts → allowed operation → Inv (operation.apply accounts))
    (via : Via allowed accounts accounts') (start : Inv accounts) : Inv accounts' := by
  obtain ⟨operations, allows, rfl⟩ := via
  induction operations generalizing accounts with
  | nil => exact start
  | cons operation rest ih =>
    exact ih (each accounts operation start (allows operation (List.mem_cons_self ..)))
      fun later member => allows later (List.mem_cons_of_mem _ member)

theorem every (via : Via allowed accounts accounts') {P : AccountId → Account → Prop}
    (stable : Stable P) (start : Every P accounts) : Every P accounts' :=
  via.keeps (fun _ operation every _ => stable.apply every operation) start

end Via

end Via

def AccountOperation.MovesFunds : AccountOperation → Prop
  | .performDebit .. | .performCredit .. | .placeHold .. | .releaseHold .. => True
  | _ => False

def AccountRequest.Allows (rt : Runtime) (draws : Draws) (req : AccountRequest)
    (operation : AccountOperation) : Prop :=
  match req with
  | .createAccount req => ∃ accountType,
      operation = .createAccount draws.accountId accountType req.currency req.initialBalanceCents none
  | .setAccountStatus id status => ∃ newStatus,
      parseStatus (rt.toUppercase (status.getD "OPEN")) = some newStatus ∧
        operation = .setStatus id newStatus
  | .coaDeactivate id => operation = .setStatus id .Closed
  | _ => operation.MovesFunds

section Effects

variable (rt : Runtime) (draws : Draws) (st : AppState)

theorem createAccount_books (req : CreateAccountRequest) :
    (createAccount rt draws req st).2.toBooks =
      { st.toBooks with
        accounts :=
          if (st.circuitBreaker.allowRequest draws.arrival).1 then
            match parseAccountType (rt.toUppercase req.accountType) with
            | none => st.accounts
            | some accountType => (AccountService.createAccount draws.accountId accountType req.currency
                req.initialBalanceCents none st.accounts).2
          else st.accounts } := by
  unfold createAccount
  by_cases admitted : (st.circuitBreaker.allowRequest draws.arrival).1 = true
  · simp only [admitted, Bool.not_true, Bool.false_eq_true, if_false, if_true]
    cases parseAccountType (rt.toUppercase req.accountType) <;> rfl
  · simp [admitted]

theorem createAccount_via (req : CreateAccountRequest) :
    Via (AccountRequest.Allows rt draws (.createAccount req)) st.accounts
      (createAccount rt draws req st).2.accounts := by
  rw [createAccount_books]
  simp only
  split_ifs
  · cases parseAccountType (rt.toUppercase req.accountType) with
    | none => exact .refl _
    | some accountType => exact .one ⟨accountType, rfl⟩ rfl
  · exact .refl _

theorem movementHandler_books {E : Type}
    (operation : Accounts → AccountId → Int64 → Except E Int64 × Accounts) (reason : E → Reason)
    (id : AccountId) (amount : Int64) :
    (movementHandler operation reason rt draws id amount st).2.toBooks =
      { st.toBooks with
        accounts :=
          if (st.circuitBreaker.allowRequest draws.arrival).1 then (operation st.accounts id amount).2
          else st.accounts } := by
  unfold movementHandler
  by_cases admitted : (st.circuitBreaker.allowRequest draws.arrival).1 = true
  · simp only [admitted, Bool.not_true, Bool.false_eq_true, if_false, if_true]
    rcases operation st.accounts id amount with ⟨e | newBalance, accounts⟩
    · rfl
    · simp only
      cases AccountService.getAccount accounts id <;> rfl
  · simp [admitted]

theorem movementHandler_via {E : Type}
    {operation : Accounts → AccountId → Int64 → Except E Int64 × Accounts} {reason : E → Reason}
    {id : AccountId} {amount : Int64} (applied : AccountOperation)
    (applies : ∀ accounts, applied.apply accounts = (operation accounts id amount).2)
    (moves : applied.MovesFunds) :
    Via AccountOperation.MovesFunds st.accounts
      (movementHandler operation reason rt draws id amount st).2.accounts := by
  rw [movementHandler_books]
  simp only
  split_ifs
  · exact .one moves (applies st.accounts)
  · exact .refl _

theorem holdHandler_books
    (operation : Accounts → AccountId → Int64 → Except HoldError Unit × Accounts)
    (id : AccountId) (amount : Int64) :
    (holdHandler operation draws id amount st).2.toBooks =
      { st.toBooks with
        accounts :=
          if (st.circuitBreaker.allowRequest draws.arrival).1 then (operation st.accounts id amount).2
          else st.accounts } := by
  unfold holdHandler
  by_cases admitted : (st.circuitBreaker.allowRequest draws.arrival).1 = true
  · simp only [admitted, Bool.not_true, Bool.false_eq_true, if_false, if_true]
    rcases operation st.accounts id amount with ⟨e | _, accounts⟩
    · rfl
    · simp only
      cases AccountService.getAccount accounts id <;> rfl
  · simp [admitted]

theorem holdHandler_via {operation : Accounts → AccountId → Int64 → Except HoldError Unit × Accounts}
    {id : AccountId} {amount : Int64} (applied : AccountOperation)
    (applies : ∀ accounts, applied.apply accounts = (operation accounts id amount).2)
    (moves : applied.MovesFunds) :
    Via AccountOperation.MovesFunds st.accounts
      (holdHandler operation draws id amount st).2.accounts := by
  rw [holdHandler_books]
  simp only
  split_ifs
  · exact .one moves (applies st.accounts)
  · exact .refl _

theorem setAccountStatus_books (id : AccountId) (status : Option String) :
    (setAccountStatus rt draws id status st).2.toBooks =
      { st.toBooks with
        accounts :=
          if (st.circuitBreaker.allowRequest draws.arrival).1 then
            match parseStatus (rt.toUppercase (status.getD "OPEN")) with
            | none => st.accounts
            | some newStatus => (AccountService.setStatus st.accounts id newStatus).2
          else st.accounts } := by
  unfold setAccountStatus
  by_cases admitted : (st.circuitBreaker.allowRequest draws.arrival).1 = true
  · simp only [admitted, Bool.not_true, Bool.false_eq_true, if_false, if_true]
    cases parseStatus (rt.toUppercase (status.getD "OPEN")) with
    | none => rfl
    | some newStatus =>
      simp only
      rcases AccountService.setStatus st.accounts id newStatus with ⟨e | _ | _, accounts⟩
      · rfl
      · rfl
      · simp only
        cases AccountService.getAccount accounts id <;> rfl
  · simp [admitted]

theorem setAccountStatus_via (id : AccountId) (status : Option String) :
    Via (AccountRequest.Allows rt draws (.setAccountStatus id status)) st.accounts
      (setAccountStatus rt draws id status st).2.accounts := by
  rw [setAccountStatus_books]
  simp only
  split_ifs
  · cases parsed : parseStatus (rt.toUppercase (status.getD "OPEN")) with
    | none => exact .refl _
    | some newStatus => exact .one ⟨newStatus, parsed, rfl⟩ rfl
  · exact .refl _

theorem coaDeactivate_accounts (id : AccountId) :
    (coaDeactivate rt draws id st).2.accounts = (AccountService.setStatus st.accounts id .Closed).2 := by
  unfold coaDeactivate
  rcases AccountService.setStatus st.accounts id .Closed with ⟨e | _ | _, accounts⟩ <;> rfl

theorem coaDeactivate_via (id : AccountId) :
    Via (AccountRequest.Allows rt draws (.coaDeactivate id)) st.accounts
      (coaDeactivate rt draws id st).2.accounts := by
  rw [coaDeactivate_accounts]
  exact .one rfl rfl

theorem performDebit_via (accounts : Accounts) (id : AccountId) (amount : Int64) :
    Via AccountOperation.MovesFunds accounts (AccountService.performDebit accounts id amount).2 :=
  .one (show (AccountOperation.performDebit id amount).MovesFunds from trivial) rfl

theorem performCredit_via (accounts : Accounts) (id : AccountId) (amount : Int64) :
    Via AccountOperation.MovesFunds accounts (AccountService.performCredit accounts id amount).2 :=
  .one (show (AccountOperation.performCredit id amount).MovesFunds from trivial) rfl

theorem reversalLeg_via (accounts : Accounts) (leg : EntryLeg) :
    Via AccountOperation.MovesFunds accounts (reversalLeg accounts leg).2 := by
  unfold reversalLeg
  cases leg.side with
  | debit =>
    have step := performDebit_via accounts leg.accountId leg.amountCents
    simp only
    generalize AccountService.performDebit accounts leg.accountId leg.amountCents = result at step ⊢
    rcases result with ⟨e | _, after⟩ <;> exact step
  | credit =>
    have step := performCredit_via accounts leg.accountId leg.amountCents
    simp only
    generalize AccountService.performCredit accounts leg.accountId leg.amountCents = result at step ⊢
    rcases result with ⟨e | _, after⟩ <;> exact step

theorem reversalLegs_via (legs : List EntryLeg) (accounts : Accounts) :
    Via AccountOperation.MovesFunds accounts (forLegs reversalLeg accounts legs).2 := by
  induction legs generalizing accounts with
  | nil => exact .refl _
  | cons leg rest ih =>
    have step := reversalLeg_via accounts leg
    unfold forLegs
    generalize reversalLeg accounts leg = result at step ⊢
    rcases result with ⟨e | _, after⟩
    · exact step
    · exact step.trans (ih after)

theorem reverseJournalEntry_via (entryId : JournalEntryId) :
    Via AccountOperation.MovesFunds st.accounts
      (reverseJournalEntry rt draws entryId st).2.accounts := by
  unfold reverseJournalEntry
  cases st.journal.find? fun e => e.id = entryId with
  | none => exact .refl _
  | some original =>
    simp only
    cases original.reverse rt.printUuid draws.entryId draws.recordedAt draws.transactionId
      (st.journalSeq + 1) with
    | error e => exact .refl _
    | ok reversal =>
      simp only
      have step := reversalLegs_via reversal.legs st.accounts
      generalize forLegs reversalLeg st.accounts reversal.legs = result at step ⊢
      rcases result with ⟨e | _, after⟩ <;> exact step

theorem moveFunds_via (req : TransferRequest) (accounts : Accounts) :
    Via AccountOperation.MovesFunds accounts (moveFunds req accounts).2 := by
  unfold moveFunds
  have debited := performDebit_via accounts req.fromAccount req.amountCents
  generalize AccountService.performDebit accounts req.fromAccount req.amountCents = result at debited ⊢
  rcases result with ⟨e | _, after⟩
  · exact debited
  · simp only
    have credited := debited.trans (performCredit_via after req.toAccount req.amountCents)
    generalize AccountService.performCredit after req.toAccount req.amountCents = result at credited ⊢
    rcases result with ⟨e | _, final⟩
    · exact credited.trans (performCredit_via final req.fromAccount req.amountCents)
    · exact credited

theorem transfer_via (req : TransferRequest) :
    Via AccountOperation.MovesFunds st.accounts (transfer rt draws req st).2.accounts := by
  have moved := moveFunds_via req st.accounts
  unfold transfer
  simp only
  split_ifs
  · exact .refl _
  · cases AccountService.getAccount st.accounts req.fromAccount with
    | none => exact .refl _
    | some snapshot =>
      simp only
      rcases journalTransfer_cases rt draws req st.toBooks with ⟨e, refused⟩ | ⟨-, -, block, chain, written⟩
      · simp only [refused]
        exact .refl _
      · simp only [written]
        generalize moveFunds req st.accounts = result at moved ⊢
        rcases result with ⟨e | _, accounts⟩
        · exact moved
        · simp only
          split <;> exact moved

end Effects

theorem serve_via (rt : Runtime) (draws : Draws) (req : AccountRequest) (st : AppState) :
    Via (req.Allows rt draws) st.accounts (serve rt draws req st).2.accounts := by
  cases req with
  | createAccount req => exact createAccount_via rt draws st req
  | debitAccount id amount =>
    exact movementHandler_via rt draws st (.performDebit id amount) (fun _ => rfl) trivial
  | creditAccount id amount =>
    exact movementHandler_via rt draws st (.performCredit id amount) (fun _ => rfl) trivial
  | setAccountStatus id status => exact setAccountStatus_via rt draws st id status
  | placeHold id amount =>
    exact holdHandler_via draws st (.placeHold id amount) (fun _ => rfl) trivial
  | releaseHold id amount =>
    exact holdHandler_via draws st (.releaseHold id amount) (fun _ => rfl) trivial
  | transfer req => exact transfer_via rt draws st req
  | reverseJournalEntry entryId => exact reverseJournalEntry_via rt draws st entryId
  | coaDeactivate id => exact coaDeactivate_via rt draws st id

end BankingLedger
