import BankingLedger.Service.AccountOperations
import BankingLedger.Api.Reversal

set_option autoImplicit false

namespace BankingLedger

open FiniteMap MachineInt
open Account (Moved)

inductive Request where
  | createAccount (req : CreateAccountRequest)
  | transfer (req : TransferRequest)
  | reverseJournalEntry (entryId : JournalEntryId)
  | placeHold (id : AccountId) (amountCents : Int64)
  | releaseHold (id : AccountId) (amountCents : Int64)
  | setAccountStatus (id : AccountId) (status : Option String)

structure Ledger where
  state : AppState
  initial : AccountId → Int64

def Ledger.fresh (rt : Runtime) (now : Timestamp) : Ledger :=
  { state := AppState.new rt now, initial := fun _ => 0 }

def handle (rt : Runtime) (l : Ledger) : Draws × Request → Ledger
  | (draws, .createAccount req) =>
    match createAccount rt draws req l.state with
    | (.ok response, state) =>
      { state, initial := Function.update l.initial response.id req.initialBalanceCents }
    | (.error _, state) => { l with state }
  | (draws, .transfer req) => { l with state := (transfer rt draws req l.state).2 }
  | (draws, .reverseJournalEntry entryId) =>
    { l with state := (reverseJournalEntry rt draws entryId l.state).2 }
  | (draws, .placeHold id amountCents) =>
    { l with state := (placeHold draws id amountCents l.state).2 }
  | (draws, .releaseHold id amountCents) =>
    { l with state := (releaseHold draws id amountCents l.state).2 }
  | (draws, .setAccountStatus id status) =>
    { l with state := (setAccountStatus rt draws id status l.state).2 }

def journalTotal (side : EntrySide) (journal : List JournalEntry) (id : AccountId) : Int :=
  legTotal side (journal.flatMap JournalEntry.legs) id

def Reconciled (l : Ledger) : Prop :=
  ∀ id a, l.state.accounts.lookup id = some a →
    a.balance.toInt = (l.initial id).toInt + journalTotal .debit l.state.journal id -
      journalTotal .credit l.state.journal id

/-- `Uuid::now_v7` has not returned the identifier of the new account before. -/
def FreshAccountId (l : Ledger) : Draws × Request → Prop
  | (draws, .createAccount _) => l.state.accounts.lookup draws.accountId = none
  | _ => True

def KeepsReconciled (rt : Runtime) (l : Ledger) : Draws × Request → Prop
  | (draws, .transfer req) =>
    -- A transfer to the sender itself nets to nothing on both sides, even when it fails.
    Journalled rt draws req l.state →
      req.fromAccount = req.toAccount ∨ LegsPass l.state.accounts req.postings
  | (_, .reverseJournalEntry entryId) =>
    ∀ original, entryById l.state.journal entryId = some original → Balanced original.legs →
      (LegsPass l.state.accounts (original.legs.map EntryLeg.flipped) →
        ∀ id, netInt (original.legs.map EntryLeg.flipped) id = 0) ∧
      StopsClean l.state.accounts (original.legs.map EntryLeg.flipped)
  | _ => True

def BalancesMoved (accounts accounts' : Accounts) (net : AccountId → Int) : Prop :=
  ∀ id, Option.Rel (fun a a' => a'.balance.toInt = a.balance.toInt + net id)
    (accounts.lookup id) (accounts'.lookup id)

theorem AccountsMoved.balances {accounts accounts' : Accounts} {b v : AccountId → Int}
    (moved : AccountsMoved accounts accounts' b v) : BalancesMoved accounts accounts' b := by
  intro id
  have related := moved id
  revert related
  cases accounts.lookup id <;> cases accounts'.lookup id <;> intro related <;> cases related
  · exact .none
  · rename_i one
    exact .some one.balance

theorem BalancesMoved.refl (accounts : Accounts) : BalancesMoved accounts accounts fun _ => 0 :=
  (AccountsMoved.refl accounts).balances

theorem BalancesMoved.of_eq {accounts accounts' : Accounts} (same : accounts' = accounts) :
    BalancesMoved accounts accounts' fun _ => 0 :=
  same ▸ BalancesMoved.refl accounts

theorem BalancesMoved.found {accounts accounts' : Accounts} {net : AccountId → Int}
    (moved : BalancesMoved accounts accounts' net) {id : AccountId} {a : Account}
    (found : accounts.lookup id = some a) : ∃ a', accounts'.lookup id = some a' := by
  have related := moved id
  rw [found] at related
  cases after : accounts'.lookup id with
  | none => rw [after] at related; cases related
  | some a' => exact ⟨a', rfl⟩

theorem BalancesMoved.origin {accounts accounts' : Accounts} {net : AccountId → Int}
    (moved : BalancesMoved accounts accounts' net) {id : AccountId} {a' : Account}
    (found : accounts'.lookup id = some a') :
    ∃ a, accounts.lookup id = some a ∧ a'.balance.toInt = a.balance.toInt + net id := by
  have related := moved id
  rw [found] at related
  cases before : accounts.lookup id with
  | none => rw [before] at related; cases related
  | some a =>
    rw [before] at related
    cases related with
    | some value => exact ⟨a, rfl, value⟩

/-- The invariant: the journal explains every balance, names only accounts that exist, and no
balance is below what is available of it. -/
structure InStep (l : Ledger) : Prop where
  covered : Covered l.state.accounts
  known : ∀ leg ∈ l.state.journal.flatMap JournalEntry.legs,
    ∃ a, l.state.accounts.lookup leg.accountId = some a
  explained : ∀ id a, l.state.accounts.lookup id = some a →
    a.balance.toInt = (l.initial id).toInt - netInt (l.state.journal.flatMap JournalEntry.legs) id

theorem InStep.reconciled {l : Ledger} (inStep : InStep l) : Reconciled l := by
  intro id a found
  have total := netInt_eq_legTotal (l.state.journal.flatMap JournalEntry.legs) id
  have value := inStep.explained id a found
  simp only [journalTotal]
  omega

theorem InStep.fresh (rt : Runtime) (now : Timestamp) : InStep (.fresh rt now) :=
  ⟨by simp [Covered, Ledger.fresh, AppState.new], by simp [Ledger.fresh, AppState.new],
    by simp [Ledger.fresh, AppState.new]⟩

section Steps

variable {l : Ledger} {state : AppState}

theorem InStep.moved (inStep : InStep l) {net : AccountId → Int} {added : List JournalEntry}
    (balances : BalancesMoved l.state.accounts state.accounts net)
    (covered : Covered state.accounts) (journal : state.journal = l.state.journal ++ added)
    (known : ∀ leg ∈ added.flatMap JournalEntry.legs,
      ∃ a, l.state.accounts.lookup leg.accountId = some a)
    (agree : ∀ id, net id = -netInt (added.flatMap JournalEntry.legs) id) :
    InStep { l with state } := by
  have legs : state.journal.flatMap JournalEntry.legs =
      l.state.journal.flatMap JournalEntry.legs ++ added.flatMap JournalEntry.legs := by
    rw [journal, List.flatMap_append]
  refine ⟨covered, ?_, ?_⟩
  · intro leg member
    rw [legs, List.mem_append] at member
    obtain ⟨a, found⟩ := member.elim (inStep.known leg) (known leg)
    exact balances.found found
  · intro id a found
    obtain ⟨a₀, before, value⟩ := balances.origin found
    have explained := inStep.explained id a₀ before
    have agreed := agree id
    simp only [legs, netInt_append]
    omega

theorem InStep.quiet (inStep : InStep l)
    (balances : BalancesMoved l.state.accounts state.accounts fun _ => 0)
    (covered : Covered state.accounts) (journal : state.journal = l.state.journal) :
    InStep { l with state } :=
  inStep.moved balances covered (show state.journal = l.state.journal ++ [] by simpa using journal)
    (by simp) (by simp [netInt])

theorem InStep.unchanged (inStep : InStep l) (accounts : state.accounts = l.state.accounts)
    (journal : state.journal = l.state.journal) : InStep { l with state } :=
  inStep.quiet (.of_eq accounts) (accounts ▸ inStep.covered) journal

theorem InStep.still (inStep : InStep l) {id : AccountId} {a a' : Account}
    (found : l.state.accounts.lookup id = some a) (still : a.Still a')
    (accounts : state.accounts = l.state.accounts.insert id a')
    (journal : state.journal = l.state.journal) : InStep { l with state } := by
  apply inStep.quiet
  · intro other
    rw [accounts, lookup_insert_eq]
    split
    · rename_i same
      subst same
      rw [found]
      exact .some (by rw [still.1]; simp)
    · exact BalancesMoved.refl _ other
  · rw [accounts]
    exact Every.insert inStep.covered (still.2 (inStep.covered id a found))
  · exact journal

theorem InStep.hold (inStep : InStep l)
    {operation : Account → Int64 → Except HoldError Unit × Account}
    (still : ∀ (a : Account) (amount : Int64), a.Still (operation a amount).2) (draws : Draws) (id : AccountId)
    (amount : Int64) :
    InStep { l with
      state := (holdHandler (fun accounts id amount =>
        AccountService.onAccount .accountNotFound (operation · amount) accounts id)
        draws id amount l.state).2 } := by
  unfold holdHandler AccountService.onAccount
  simp only
  split
  · exact inStep.unchanged rfl rfl
  · cases found : l.state.accounts.lookup id with
    | none => exact inStep.unchanged rfl rfl
    | some a =>
      simp only
      cases (operation a amount).1 with
      | error e => exact inStep.still found (still a amount) rfl rfl
      | ok done =>
        simp only [AccountService.getAccount, lookup_insert_eq, if_true]
        exact inStep.still found (still a amount) rfl rfl

theorem InStep.setAccountStatus (inStep : InStep l) (rt : Runtime) (draws : Draws) (id : AccountId)
    (status : Option String) :
    InStep { l with state := (BankingLedger.setAccountStatus rt draws id status l.state).2 } := by
  unfold BankingLedger.setAccountStatus AccountService.setStatus
  simp only
  split
  · exact inStep.unchanged rfl rfl
  · cases parseStatus (rt.toUppercase (status.getD "OPEN")) with
    | none => exact inStep.unchanged rfl rfl
    | some newStatus =>
      cases found : l.state.accounts.lookup id with
      | none => exact inStep.unchanged rfl rfl
      | some a =>
        have still := a.setStatus_still newStatus
        rcases changed : a.setStatus newStatus with ⟨_ | _, a'⟩
        · rw [changed] at still
          simp only [changed]
          exact inStep.still found still rfl rfl
        · rw [changed] at still
          simp only [changed, AccountService.getAccount, lookup_insert_eq, if_true]
          exact inStep.still found still rfl rfl

theorem InStep.opened (inStep : InStep l) {account : Account}
    (fresh : l.state.accounts.lookup account.id = none)
    (funded : account.availableBalance = account.balance)
    (accounts : state.accounts = l.state.accounts.insert account.id account)
    (journal : state.journal = l.state.journal) :
    InStep { state, initial := Function.update l.initial account.id account.balance } := by
  have unused : netInt (l.state.journal.flatMap JournalEntry.legs) account.id = 0 := by
    apply netInt_of_absent
    rintro leg member same
    obtain ⟨a, found⟩ := inStep.known leg member
    rw [same, fresh] at found
    cases found
  refine ⟨?_, ?_, ?_⟩
  · rw [accounts]
    exact Every.insert inStep.covered (by rw [funded])
  · intro leg member
    rw [journal] at member
    rw [accounts, lookup_insert_eq]
    split
    · exact ⟨_, rfl⟩
    · exact inStep.known leg member
  · intro id a found
    rw [accounts, lookup_insert_eq] at found
    simp only [journal]
    split at found
    · rename_i same
      cases found
      subst same
      simp [unused]
    · rename_i other
      rw [Function.update_of_ne other]
      exact inStep.explained id a found

theorem InStep.createAccount (inStep : InStep l) (rt : Runtime) (draws : Draws)
    (req : CreateAccountRequest) (fresh : l.state.accounts.lookup draws.accountId = none) :
    InStep (handle rt l (draws, .createAccount req)) := by
  unfold handle BankingLedger.createAccount
  simp only
  by_cases admitted : (l.state.circuitBreaker.allowRequest draws.arrival).1 = true
  · simp only [admitted, Bool.not_true, Bool.false_eq_true, if_false]
    cases parseAccountType (rt.toUppercase req.accountType) with
    | none => exact inStep.unchanged rfl rfl
    | some accountType =>
      let account := Account.new draws.accountId accountType req.currency req.initialBalanceCents none
      exact inStep.opened (show l.state.accounts.lookup account.id = none from fresh) rfl rfl rfl
  · simp only [admitted, Bool.not_false, if_true]
    exact inStep.unchanged rfl rfl

end Steps

-- The debit has just made the room the credit needs, so the two fail together or not at all.
theorem moveFunds_self {req : TransferRequest} {accounts accounts' : Accounts} {reason : Reason}
    (same : req.fromAccount = req.toAccount) (covered : Covered accounts)
    (failed : moveFunds req accounts = (.error reason, accounts')) : accounts' = accounts := by
  obtain ⟨id, receiver, amount, description⟩ := req
  obtain rfl : id = receiver := same
  simp only [moveFunds, AccountService.performDebit, AccountService.performCredit,
    AccountService.onAccount] at failed
  cases found : accounts.lookup id with
  | none =>
    simp only [found, Prod.mk.injEq] at failed
    exact failed.2.symm
  | some a =>
    by_cases passes : a.DebitPasses amount
    · have debited : EntryLeg.Passes ⟨id, .debit, amount⟩ a := passes
      have moved : Moved a (a.shift (-amount)) (-amount.toInt) (-amount.toInt) :=
        debited.moved (covered id a found)
      have balance := moved.balance
      have available := moved.available
      have back : (a.shift (-amount)).CreditPasses amount := by
        have := bounds a.balance
        have := bounds a.availableBalance
        refine ⟨passes.1, passes.2.1, ?_, ?_⟩
        · rw [Option.isSome_iff_exists]
          exact ⟨_, checkedAdd_eq_some_iff.mpr ⟨by omega, by omega, rfl⟩⟩
        · rw [Option.isSome_iff_exists]
          exact ⟨_, checkedAdd_eq_some_iff.mpr ⟨by omega, by omega, rfl⟩⟩
      simp [found, Account.debit_of_passes passes, Account.credit_of_passes back] at failed
    · obtain ⟨e, refused⟩ := Account.debit_of_refused passes
      simp only [found, refused, insert_lookup_self found, Prod.mk.injEq] at failed
      exact failed.2.symm

section Entries

variable {req : TransferRequest}

theorem netInt_legs (positive : 0 < req.amountCents) (id : AccountId) :
    netInt req.postings id = -netInt req.legs id := by
  simp only [TransferRequest.postings, TransferRequest.legs, netInt, EntryLeg.signedInt,
    EntryLeg.debit, EntryLeg.credit, positive, if_true]
  split <;> split <;> omega

theorem found_of_mem_legs {accounts : Accounts} {leg : EntryLeg} (member : leg ∈ req.legs)
    (receiver : ∃ a, accounts.lookup req.toAccount = some a)
    (sender : ∃ a, accounts.lookup req.fromAccount = some a) :
    ∃ a, accounts.lookup leg.accountId = some a := by
  simp only [TransferRequest.legs, List.mem_cons, List.not_mem_nil, or_false] at member
  rcases member with rfl | rfl
  · exact receiver
  · exact sender

end Entries

theorem InStep.transfer {l : Ledger} (inStep : InStep l) (rt : Runtime) (draws : Draws)
    (req : TransferRequest) (keeps : KeepsReconciled rt l (draws, .transfer req)) :
    InStep { l with state := (transfer rt draws req l.state).2 } := by
  have outcome := transfer_outcome rt draws req l.state
  generalize BankingLedger.transfer rt draws req l.state = result at outcome ⊢
  cases outcome with
  | refused e st' accounts journal => exact inStep.unchanged accounts journal
  | failed e reason st' journalled journal moved =>
    have sender := Option.isSome_iff_exists.mp journalled.2.1
    have positive := journalled.2.2.1
    rcases keeps journalled with same | pass
    · have still := moveFunds_self same inStep.covered moved
      apply inStep.moved (.of_eq still) (still ▸ inStep.covered) journal
      · intro leg member
        rw [List.flatMap_singleton] at member
        exact found_of_mem_legs member (same ▸ sender) sender
      · intro id
        have cancel := netInt_legs positive id
        simp only [TransferRequest.postings, netInt, EntryLeg.signedInt, same] at cancel
        simp only [List.flatMap_singleton, TransferRequest.entry]
        split at cancel <;> omega
    · obtain ⟨accounts, done, -⟩ := moveFunds_passes pass
      rw [done] at moved
      cases moved
  | done response st' journalled entryId journal pass shifted =>
    have moved := pass.moved inStep.covered shifted
    have sender := Option.isSome_iff_exists.mp journalled.2.1
    have positive := journalled.2.2.1
    have receiver := pass.found (List.mem_cons_of_mem _ (List.mem_cons_self ..))
    apply inStep.moved moved.balances (moved.covered inStep.covered) journal
    · intro leg member
      rw [List.flatMap_singleton] at member
      exact found_of_mem_legs member receiver sender
    · intro id
      rw [List.flatMap_singleton]
      exact netInt_legs positive id

theorem InStep.reverse {l : Ledger} (inStep : InStep l) (rt : Runtime) (draws : Draws)
    (entryId : JournalEntryId) (keeps : KeepsReconciled rt l (draws, .reverseJournalEntry entryId)) :
    InStep { l with state := (reverseJournalEntry rt draws entryId l.state).2 } := by
  have outcome := reversal_outcome rt draws entryId l.state
  generalize reverseJournalEntry rt draws entryId l.state = result at outcome ⊢
  cases outcome with
  | refused e st' accounts journal => exact inStep.unchanged accounts journal
  | stopped e st' original found balanced posted journal =>
    have still := reversalLeg_posts.stopped_clean posted (keeps original found balanced).2
    exact inStep.unchanged still journal
  | done response st' original found balanced pass shifted journal =>
    have zero := (keeps original found balanced).1 pass
    have moved := pass.moved inStep.covered shifted
    apply inStep.moved moved.balances (moved.covered inStep.covered) journal
    · intro leg member
      rw [List.flatMap_singleton] at member
      exact pass.found member
    · intro id
      rw [List.flatMap_singleton]
      simp [JournalEntry.reversal, zero id]

theorem InStep.handle (rt : Runtime) (l : Ledger) (event : Draws × Request) (inStep : InStep l)
    (met : FreshAccountId l event ∧ KeepsReconciled rt l event) : InStep (handle rt l event) := by
  obtain ⟨draws, request⟩ := event
  cases request with
  | createAccount req => exact inStep.createAccount rt draws req met.1
  | transfer req => exact inStep.transfer rt draws req met.2
  | reverseJournalEntry entryId => exact inStep.reverse rt draws entryId met.2
  | placeHold id amount => exact inStep.hold Account.placeHold_still draws id amount
  | releaseHold id amount => exact inStep.hold Account.releaseHold_still draws id amount
  | setAccountStatus id status => exact inStep.setAccountStatus rt draws id status

/-- In every run from an empty service whose journalled transfers go through (or are to the sender
itself) and whose reversals cancel out, the journal explains every balance. -/
theorem reconciled_of_run (rt : Runtime) (now : Timestamp) (events : List (Draws × Request))
    (met : Runs.Meets (handle rt) (fun l event => FreshAccountId l event ∧ KeepsReconciled rt l event)
      (.fresh rt now) events) :
    Reconciled (Runs.run (handle rt) (.fresh rt now) events) :=
  (Runs.run_keeps (InStep.handle rt) _ events met (InStep.fresh rt now)).reconciled

namespace Sample

def opening (first second : Int64) : List (Draws × Request) :=
  [(draws 1, .createAccount ⟨"ASSET", "USD", first⟩),
   (draws 2, .createAccount ⟨"ASSET", "USD", second⟩)]

def served (events : List (Draws × Request)) : Ledger :=
  Runs.run (handle runtime) (.fresh runtime ⟨0⟩) events

end Sample

open Sample

/-- A transfer of 500 out of 100 fails and stays in the journal; a reversed transfer of 40 out of
100 has moved 80 with both entries cancelling. -/
theorem journal_does_not_explain_balances :
    ¬ Reconciled (served (opening 100 0 ++ [(draws 10, .transfer ⟨uuid 1, uuid 2, 500, none⟩)])) ∧
    ¬ Reconciled (served (opening 100 0 ++ [(draws 10, .transfer ⟨uuid 1, uuid 2, 40, none⟩),
      (draws 20, .reverseJournalEntry (uuid 12))])) := by
  constructor
  · intro reconciled
    have balance := reconciled (uuid 1) (.new (uuid 1) .asset "USD" 100 none) (by decide +kernel)
    exact absurd balance (by decide +kernel)
  · intro reconciled
    have balance := reconciled (uuid 1) (.new (uuid 1) .asset "USD" 20 none) (by decide +kernel)
    exact absurd balance (by decide +kernel)

theorem reconciled_of_run_self_reversal :
    Reconciled (served (opening 100 0 ++ [(draws 5, .placeHold (uuid 1) 20),
      (draws 10, .transfer ⟨uuid 1, uuid 2, 40, none⟩),
      (draws 20, .transfer ⟨uuid 1, uuid 1, 10, none⟩),
      (draws 30, .reverseJournalEntry (uuid 22))])) := by
  apply reconciled_of_run
  refine ⟨⟨rfl, trivial⟩, ⟨rfl, trivial⟩, ⟨trivial, trivial⟩,
    ⟨trivial, ?_⟩, ⟨trivial, fun _ => .inl rfl⟩, ⟨trivial, ?_⟩, trivial⟩
  · intro _
    exact .inr (reversalLeg_posts.loop_ok rfl).1
  · intro original found _
    obtain rfl : _ = original := Option.some.inj found
    refine ⟨fun _ id => ?_, fun before leg first => ?_⟩
    · change netInt [⟨uuid 1, .credit, 10⟩, ⟨uuid 1, .debit, 10⟩] id = 0
      by_cases own : uuid 1 = id <;> simp [netInt, EntryLeg.signedInt, own]
    · exact absurd (reversalLeg_posts.loop_ok rfl).1 (firstRefused_not_legsPass first)

end BankingLedger
