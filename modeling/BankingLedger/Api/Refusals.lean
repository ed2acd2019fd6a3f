import BankingLedger.Api.AccountRequests
import BankingLedger.Api.Currencies

set_option autoImplicit false

namespace BankingLedger

open FiniteMap MachineInt AccountService

section Covered

variable {accounts : Accounts} {id : AccountId} {amount : Int64}

theorem Account.not_strands_of_covered {a : Account}
    (covered : a.availableBalance.toInt ≤ a.balance.toInt) : ¬ a.CreditStrands amount := by
  rintro ⟨positive, -, fits, overflow⟩
  have positive := pos_iff.mp positive
  have balance := (isSome_checkedAdd.mp fits).2
  have available := bounds a.availableBalance
  rw [checkedAdd_eq_none_iff] at overflow
  omega

theorem Account.debitFits_of_covered {a : Account}
    (covered : a.availableBalance.toInt ≤ a.balance.toInt) (passes : a.DebitPasses amount) :
    a.DebitFits amount := by
  have enough := Int64.le_iff_toInt_le.mp passes.2.2
  unfold Account.DebitFits
  omega

theorem performDebit_error {accounts' : Accounts} {e : DebitError}
    (failed : performDebit accounts id amount = (.error e, accounts')) : accounts' = accounts := by
  cases found : accounts.lookup id with
  | none =>
    simp only [performDebit, onAccount, found, Prod.mk.injEq] at failed
    exact failed.2.symm
  | some a =>
    by_cases passes : a.DebitPasses amount
    · simp [performDebit_of_passes found passes] at failed
    · obtain ⟨e', refused⟩ := performDebit_of_refused found passes
      rw [refused, Prod.mk.injEq] at failed
      exact failed.2.symm

theorem performCredit_error (covered : Covered accounts) {accounts' : Accounts} {e : CreditError}
    (failed : performCredit accounts id amount = (.error e, accounts')) : accounts' = accounts := by
  cases found : accounts.lookup id with
  | none =>
    rw [performCredit_of_missing found, Prod.mk.injEq] at failed
    exact failed.2.symm
  | some a =>
    by_cases passes : a.CreditPasses amount
    · simp [performCredit_of_passes found passes] at failed
    · obtain ⟨e', refused⟩ := performCredit_of_refused found passes
        (Account.not_strands_of_covered (covered id a found))
      rw [refused, Prod.mk.injEq] at failed
      exact failed.2.symm

theorem setStatus_failed {newStatus : AccountStatus} {result : Except AccountStatusError Bool}
    {accounts' : Accounts} (failed : result ≠ .ok true)
    (answered : setStatus accounts id newStatus = (result, accounts')) : accounts' = accounts := by
  unfold setStatus at answered
  cases found : accounts.lookup id with
  | none =>
    simp only [found, Prod.mk.injEq] at answered
    exact answered.2.symm
  | some a =>
    simp only [found, Account.setStatus] at answered
    split at answered
    · rename_i e a' refused
      have same : a' = a := by
        split at refused <;> simp only [Prod.mk.injEq, reduceCtorEq, false_and] at refused <;>
          exact refused.2.symm
      rw [Prod.mk.injEq, same, insert_lookup_self found] at answered
      exact answered.2.symm
    · rw [Prod.mk.injEq] at answered
      exact absurd answered.1.symm failed

theorem moveFunds_error (covered : Covered accounts) {req : TransferRequest} {reason : Reason}
    {accounts' : Accounts} (failed : moveFunds req accounts = (.error reason, accounts')) :
    accounts' = accounts := by
  have moved : (moveFunds req accounts).2 = accounts' := by rw [failed]
  cases found : accounts.lookup req.fromAccount with
  | none =>
    simp only [moveFunds, performDebit, onAccount, found] at moved
    exact moved.symm
  | some a =>
    by_cases passes : a.DebitPasses req.amountCents
    · have fits := Account.debitFits_of_covered (covered _ a found) passes
      have after : Covered (accounts.insert req.fromAccount (a.shift (-req.amountCents))) := by
        have debited := (stable_covered.apply covered (.performDebit req.fromAccount req.amountCents))
        simp only [AccountOperation.apply, performDebit_of_passes found passes] at debited
        exact debited
      rcases credited : performCredit (accounts.insert req.fromAccount (a.shift (-req.amountCents)))
        req.toAccount req.amountCents with ⟨e | newBalance, final⟩
      · obtain rfl := performCredit_error after credited
        rw [(moveFunds_of_uncredited found passes credited (Finmap.lookup_insert _)).1 fits,
          Finmap.insert_insert, insert_lookup_self found] at moved
        exact moved.symm
      · simp [moveFunds, performDebit_of_passes found passes, credited] at failed
    · rw [moveFunds_of_refused found passes] at moved
      exact moved.symm

theorem onAccount_error {E A : Type} {notFound : AccountId → E}
    {operation : Account → Except E A × Account} {accounts' : Accounts} {e : E}
    (same : ∀ a e a', operation a = (.error e, a') → a' = a)
    (failed : onAccount notFound operation accounts id = (.error e, accounts')) :
    accounts' = accounts := by
  unfold onAccount at failed
  cases found : accounts.lookup id with
  | none =>
    simp only [found, Prod.mk.injEq] at failed
    exact failed.2.symm
  | some a =>
    simp only [found, Prod.mk.injEq] at failed
    obtain ⟨error, rfl⟩ := failed
    have unchanged := same a e (operation a).2 (Prod.ext error rfl)
    rw [unchanged, insert_lookup_self found]

theorem placeHold_error {accounts' : Accounts} {e : HoldError}
    (failed : AccountService.placeHold accounts id amount = (.error e, accounts')) :
    accounts' = accounts := by
  refine onAccount_error (fun a e a' error => ?_) failed
  by_cases passes : a.DebitPasses amount
  · simp [Account.placeHold_of_passes passes] at error
  · obtain ⟨e', refused⟩ := Account.placeHold_of_refused passes
    rw [refused, Prod.mk.injEq] at error
    exact error.2.symm

theorem releaseHold_error {accounts' : Accounts} {e : HoldError}
    (failed : AccountService.releaseHold accounts id amount = (.error e, accounts')) :
    accounts' = accounts := by
  refine onAccount_error (fun a e a' error => ?_) failed
  by_cases passes : a.ReleasePasses amount
  · simp [Account.releaseHold_of_passes passes] at error
  · obtain ⟨e', refused⟩ := Account.releaseHold_of_refused passes
    rw [refused, Prod.mk.injEq] at error
    exact error.2.symm

theorem placeHold_ok (done : (AccountService.placeHold accounts id amount).1 = .ok ()) :
    ∃ a, accounts.lookup id = some a ∧ a.DebitPasses amount := by
  unfold AccountService.placeHold onAccount at done
  cases found : accounts.lookup id with
  | none => simp [found] at done
  | some a =>
    refine ⟨a, rfl, ?_⟩
    by_contra refused
    obtain ⟨e, error⟩ := Account.placeHold_of_refused refused
    simp [found, error] at done

theorem releaseHold_ok (done : (AccountService.releaseHold accounts id amount).1 = .ok ()) :
    ∃ a, accounts.lookup id = some a ∧ a.ReleasePasses amount := by
  unfold AccountService.releaseHold onAccount at done
  cases found : accounts.lookup id with
  | none => simp [found] at done
  | some a =>
    refine ⟨a, rfl, ?_⟩
    by_contra refused
    obtain ⟨e, error⟩ := Account.releaseHold_of_refused refused
    simp [found, error] at done

theorem onAccount_found {E A : Type} {notFound : AccountId → E}
    {operation : Account → Except E A × Account} {accounts' : Accounts} {result : A}
    (done : onAccount notFound operation accounts id = (.ok result, accounts')) :
    ∃ a, accounts'.lookup id = some a := by
  unfold onAccount at done
  cases found : accounts.lookup id with
  | none => simp [found] at done
  | some a =>
    simp only [found, Prod.mk.injEq] at done
    rw [← done.2]
    exact ⟨_, Finmap.lookup_insert _⟩

theorem setStatus_found {newStatus : AccountStatus} {accounts' : Accounts}
    (done : setStatus accounts id newStatus = (.ok true, accounts')) :
    ∃ a, accounts'.lookup id = some a := by
  unfold setStatus at done
  cases found : accounts.lookup id with
  | none => simp [found] at done
  | some a =>
    simp only [found] at done
    split at done <;> rw [Prod.mk.injEq] at done
    · cases done.1
    · rw [← done.2]
      exact ⟨_, Finmap.lookup_insert _⟩

end Covered

section Handlers

variable {rt : Runtime} {draws : Draws} {st st' : AppState} {e : AppError} {id : AccountId}

theorem createAccount_error {req : CreateAccountRequest}
    (failed : createAccount rt draws req st = (.error e, st')) : st'.accounts = st.accounts := by
  unfold createAccount at failed
  simp only at failed
  split_ifs at failed
  · cases failed
    rfl
  · cases parsed : parseAccountType (rt.toUppercase req.accountType) with
    | none =>
      simp only [parsed, Prod.mk.injEq] at failed
      rw [← failed.2]
    | some accountType => simp [parsed] at failed

theorem movementHandler_error {E : Type}
    {operation : Accounts → AccountId → Int64 → Except E Int64 × Accounts} {reason : E → Reason}
    {amount : Int64}
    (same : ∀ e accounts', operation st.accounts id amount = (.error e, accounts') →
      accounts' = st.accounts)
    (found : ∀ newBalance accounts', operation st.accounts id amount = (.ok newBalance, accounts') →
      ∃ a, accounts'.lookup id = some a)
    (failed : movementHandler operation reason rt draws id amount st = (.error e, st')) :
    st'.accounts = st.accounts := by
  unfold movementHandler at failed
  simp only at failed
  split_ifs at failed
  · cases failed
    rfl
  · rcases done : operation st.accounts id amount with ⟨error | newBalance, accounts⟩
    · simp only [done, Prod.mk.injEq] at failed
      rw [← failed.2]
      exact same error accounts done
    · obtain ⟨a, present⟩ := found newBalance accounts done
      simp [done, getAccount, present] at failed

theorem holdHandler_error
    {operation : Accounts → AccountId → Int64 → Except HoldError Unit × Accounts} {amount : Int64}
    (same : ∀ e accounts', operation st.accounts id amount = (.error e, accounts') →
      accounts' = st.accounts)
    (found : ∀ result accounts', operation st.accounts id amount = (.ok result, accounts') →
      ∃ a, accounts'.lookup id = some a)
    (failed : holdHandler operation draws id amount st = (.error e, st')) :
    st'.accounts = st.accounts := by
  unfold holdHandler at failed
  simp only at failed
  split_ifs at failed
  · cases failed
    rfl
  · rcases done : operation st.accounts id amount with ⟨error | result, accounts⟩
    · simp only [done, Prod.mk.injEq] at failed
      rw [← failed.2]
      exact same error accounts done
    · obtain ⟨a, present⟩ := found result accounts done
      simp [done, getAccount, present] at failed

theorem holdHandler_ok
    {operation : Accounts → AccountId → Int64 → Except HoldError Unit × Accounts} {amount : Int64}
    {response : HoldResponse} (done : holdHandler operation draws id amount st = (.ok response, st')) :
    (st.circuitBreaker.allowRequest draws.arrival).1 = true ∧
      (operation st.accounts id amount).1 = .ok () := by
  unfold holdHandler at done
  simp only at done
  split_ifs at done with admitted
  · simp at done
  · refine ⟨by simpa using admitted, ?_⟩
    rcases answered : operation st.accounts id amount with ⟨e | _, accounts⟩
    · simp [answered] at done
    · rfl

theorem setAccountStatus_error {status : Option String}
    (failed : setAccountStatus rt draws id status st = (.error e, st')) :
    st'.accounts = st.accounts := by
  unfold setAccountStatus at failed
  simp only at failed
  split_ifs at failed
  · cases failed
    rfl
  · cases parsed : parseStatus (rt.toUppercase (status.getD "OPEN")) with
    | none =>
      simp only [parsed, Prod.mk.injEq] at failed
      rw [← failed.2]
    | some newStatus =>
      rcases done : setStatus st.accounts id newStatus with ⟨error | _ | _, accounts⟩
      · simp only [parsed, done, Prod.mk.injEq] at failed
        rw [← failed.2]
        exact setStatus_failed (by simp) done
      · simp only [parsed, done, Prod.mk.injEq] at failed
        rw [← failed.2]
        exact setStatus_failed (by simp) done
      · obtain ⟨a, found⟩ := setStatus_found done
        simp [parsed, done, getAccount, found] at failed

theorem coaDeactivate_error (failed : coaDeactivate rt draws id st = (.error e, st')) :
    st'.accounts = st.accounts := by
  unfold coaDeactivate at failed
  rcases done : setStatus st.accounts id .Closed with ⟨error | _ | _, accounts⟩
  · simp only [done, Prod.mk.injEq] at failed
    rw [← failed.2]
    exact setStatus_failed (by simp) done
  · simp only [done, Prod.mk.injEq] at failed
    rw [← failed.2]
    exact setStatus_failed (by simp) done
  · simp [done] at failed

theorem transfer_error (covered : Covered st.accounts) {req : TransferRequest}
    (failed : transfer rt draws req st = (.error e, st')) : st'.accounts = st.accounts := by
  have outcome := transfer_outcome rt draws req st
  rw [failed] at outcome
  cases outcome with
  | refused _ _ accounts => exact accounts
  | failed _ reason _ _ _ moved => exact moveFunds_error covered moved

def ReversalStopsClean (entryId : JournalEntryId) (st : AppState) : Prop :=
  ∀ original, entryById st.journal entryId = some original → Balanced original.legs →
    StopsClean st.accounts (original.legs.map EntryLeg.flipped)

theorem reverseJournalEntry_error {entryId : JournalEntryId} (clean : ReversalStopsClean entryId st)
    (failed : reverseJournalEntry rt draws entryId st = (.error e, st')) :
    st'.accounts = st.accounts := by
  have outcome := reversal_outcome rt draws entryId st
  rw [failed] at outcome
  cases outcome with
  | refused _ _ accounts => exact accounts
  | stopped _ _ original found balanced posted =>
    exact reversalLeg_posts.stopped_clean posted (clean original found balanced)

end Handlers

def AccountRequest.StopsClean (st : AppState) : AccountRequest → Prop
  | .reverseJournalEntry entryId => ReversalStopsClean entryId st
  | _ => True

theorem replying_error {A : Type} {wrap : A → AccountReply} {result : Except AppError A × AppState}
    {e : AppError} {st' : AppState} (failed : replying wrap result = (.error e, st')) :
    result = (.error e, st') := by
  rcases result with ⟨error | response, st⟩
  · simpa [replying, Except.map] using failed
  · simp [replying, Except.map] at failed

theorem replying_ok {A : Type} {wrap : A → AccountReply} {result : Except AppError A × AppState}
    {reply : AccountReply} {st' : AppState} (done : replying wrap result = (.ok reply, st')) :
    ∃ response, result = (.ok response, st') := by
  rcases result with ⟨error | response, st⟩
  · simp [replying, Except.map] at done
  · simp only [replying, Except.map, Prod.mk.injEq] at done
    exact ⟨response, by rw [done.2]⟩

theorem serve_error {rt : Runtime} {draws : Draws} {req : AccountRequest} {st st' : AppState}
    {e : AppError} (covered : Covered st.accounts) (clean : req.StopsClean st)
    (failed : serve rt draws req st = (.error e, st')) : st'.accounts = st.accounts := by
  cases req with
  | createAccount req => exact createAccount_error (replying_error failed)
  | debitAccount id amount =>
    exact movementHandler_error (fun _ _ => performDebit_error) (fun _ _ => onAccount_found)
      (replying_error failed)
  | creditAccount id amount =>
    exact movementHandler_error (fun _ _ => performCredit_error covered) (fun _ _ => onAccount_found)
      (replying_error failed)
  | setAccountStatus id status => exact setAccountStatus_error (replying_error failed)
  | placeHold id amount =>
    exact holdHandler_error (fun _ _ => placeHold_error) (fun _ _ => onAccount_found)
      (replying_error failed)
  | releaseHold id amount =>
    exact holdHandler_error (fun _ _ => releaseHold_error) (fun _ _ => onAccount_found)
      (replying_error failed)
  | transfer req => exact transfer_error covered (replying_error failed)
  | reverseJournalEntry entryId => exact reverseJournalEntry_error clean (replying_error failed)
  | coaDeactivate id => exact coaDeactivate_error (replying_error failed)

end BankingLedger
