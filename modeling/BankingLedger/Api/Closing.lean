import BankingLedger.Api.AccountRequests
import BankingLedger.Api.Reversal

set_option autoImplicit false

namespace BankingLedger

open FiniteMap AccountService

def Account.canClose (a : Account) : Bool := a.balance == 0 && a.availableBalance == 0

def Account.EmptyIfClosed (a : Account) : Prop := a.status = .Closed → a.canClose = true

def ClosedEmpty (accounts : Accounts) : Prop := Every (fun _ a => a.EmptyIfClosed) accounts

section Operations

variable {a : Account} {accounts : Accounts} {amount : Int64}

structure TouchesOpen (operation : Account → Account) : Prop where
  status : ∀ a, (operation a).status = a.status
  unchanged : ∀ a, a.status ≠ .Open → operation a = a

theorem touchesOpen_debit (amount : Int64) : TouchesOpen fun a => (a.debit amount).2 where
  status a := by
    unfold Account.debit
    split_ifs <;> rfl
  unchanged _ notOpen := Account.debit_same_iff.mpr fun passes => notOpen passes.2.1

theorem touchesOpen_credit (amount : Int64) : TouchesOpen fun a => (a.credit amount).2 where
  status a := by
    by_cases passes : a.CreditPasses amount
    · rw [Account.credit_of_passes passes]
      rfl
    · by_cases strands : a.CreditStrands amount
      · rw [Account.credit_of_strands strands]
      · rw [Account.credit_same_iff.mpr ⟨passes, strands⟩]
  unchanged _ notOpen := Account.credit_same_iff.mpr
    ⟨fun passes => notOpen passes.2.1, fun strands => notOpen strands.2.1⟩

theorem touchesOpen_placeHold (amount : Int64) : TouchesOpen fun a => (a.placeHold amount).2 where
  status a := by
    unfold Account.placeHold
    split_ifs <;> rfl
  unchanged _ notOpen := Account.placeHold_same_iff.mpr fun passes => notOpen passes.2.1

theorem touchesOpen_releaseHold (amount : Int64) : TouchesOpen fun a => (a.releaseHold amount).2 where
  status a := by
    by_cases passes : a.ReleasePasses amount
    · rw [Account.releaseHold_of_passes passes]
      rfl
    · rw [Account.releaseHold_same_iff.mpr passes]
  unchanged _ notOpen := Account.releaseHold_same_iff.mpr fun passes => notOpen passes.2.1

theorem TouchesOpen.emptyIfClosed {operation : Account → Account} (touches : TouchesOpen operation)
    (empty : a.EmptyIfClosed) : (operation a).EmptyIfClosed := by
  intro closed
  rw [touches.status] at closed
  have notOpen : a.status ≠ .Open := by simp [closed]
  rw [touches.unchanged a notOpen]
  exact empty closed

theorem Account.setStatus_emptyIfClosed {newStatus : AccountStatus} (reopens : newStatus ≠ .Closed)
    (empty : a.EmptyIfClosed) : (a.setStatus newStatus).2.EmptyIfClosed := by
  unfold Account.setStatus
  split
  · exact empty
  all_goals first | exact fun closed => absurd closed reopens | exact absurd rfl reopens | exact empty

theorem closedEmpty_apply (empty : ClosedEmpty accounts) {operation : AccountOperation}
    (closesNone : ∀ id, operation ≠ .setStatus id .Closed) : ClosedEmpty (operation.apply accounts) := by
  cases operation with
  | createAccount id accountType currency initialBalanceCents ownerPartyId =>
    exact empty.insert fun closed => by cases closed
  | performDebit id amount => exact empty.onAccount fun _ => (touchesOpen_debit amount).emptyIfClosed
  | performCredit id amount => exact empty.onAccount fun _ => (touchesOpen_credit amount).emptyIfClosed
  | placeHold id amount => exact empty.onAccount fun _ => (touchesOpen_placeHold amount).emptyIfClosed
  | releaseHold id amount => exact empty.onAccount fun _ => (touchesOpen_releaseHold amount).emptyIfClosed
  | setStatus id newStatus =>
    exact empty.setStatus fun _ =>
      Account.setStatus_emptyIfClosed fun same => closesNone id (by rw [same])

theorem close_closedEmpty_iff (empty : ClosedEmpty accounts) (id : AccountId) :
    ClosedEmpty (setStatus accounts id .Closed).2 ↔
      ∀ a, accounts.lookup id = some a → a.canClose = true := by
  unfold setStatus
  cases found : accounts.lookup id with
  | none => exact iff_of_true empty (by simp)
  | some a =>
    simp only [Option.some.injEq, forall_eq']
    by_cases closed : a.status = .Closed
    · have refused : a.setStatus .Closed = (.error .closedAccount, a) := by
        simp [Account.setStatus, closed]
      simp only [refused, insert_lookup_self found]
      exact iff_of_true empty (empty id a found closed)
    · have done : a.setStatus .Closed = (.ok (), { a with status := .Closed }) := by
        rcases status : a.status <;> simp_all [Account.setStatus]
      simp only [done]
      constructor
      · intro after
        exact after id { a with status := .Closed } (Finmap.lookup_insert _) rfl
      · intro fits
        exact empty.insert fun _ => fits

end Operations

section Runs

inductive RegistryEvent where
  | request (draws : Draws) (req : AccountRequest)
  | service (operation : AccountOperation)

def RegistryEvent.apply (rt : Runtime) (st : AppState) : RegistryEvent → AppState
  | .request draws req => (serve rt draws req st).2
  | .service operation => { st with accounts := operation.apply st.accounts }

def closing (rt : Runtime) (st : AppState) : RegistryEvent → Option AccountId
  | .request draws (.setAccountStatus id status) =>
    if (st.circuitBreaker.allowRequest draws.arrival).1 ∧
      parseStatus (rt.toUppercase (status.getD "OPEN")) = some .Closed then some id else none
  | .request _ (.coaDeactivate id) | .service (.setStatus id .Closed) => some id
  | _ => none

def ClosesEmpty (rt : Runtime) (st : AppState) (event : RegistryEvent) : Prop :=
  ∀ id a, closing rt st event = some id → st.accounts.lookup id = some a → a.canClose = true

variable {rt : Runtime} {st : AppState} {event : RegistryEvent}

-- No run releases more than it has held.
theorem reached_covered (rt : Runtime) (now : Timestamp) (events : List RegistryEvent) :
    Covered (Runs.run (RegistryEvent.apply rt) (.new rt now) events).accounts := by
  let Inv (st : AppState) : Prop := Covered st.accounts
  have keep : ∀ st event, Inv st → Inv (RegistryEvent.apply rt st event) := by
    intro st event covered
    cases event with
    | request draws req => exact (serve_via rt draws req st).every stable_covered covered
    | service operation => exact stable_covered.apply covered operation
  have start : Inv (.new rt now) := by
    intro id a found
    simp [AppState.new] at found
  exact Runs.run_invariant keep (.new rt now) events start

theorem apply_closing {id : AccountId} (closes : closing rt st event = some id) :
    (event.apply rt st).accounts = (setStatus st.accounts id .Closed).2 := by
  cases event with
  | request draws req =>
    cases req with
    | setAccountStatus id' status =>
      simp only [closing] at closes
      split_ifs at closes with reached
      cases closes
      change (setAccountStatus rt draws id status st).2.accounts = _
      rw [setAccountStatus_books]
      simp only [reached.1, reached.2, if_true]
    | coaDeactivate id' =>
      cases closes
      exact coaDeactivate_accounts rt draws st id
    | _ => cases closes
  | service operation =>
    cases operation with
    | setStatus id' newStatus =>
      cases newStatus <;> cases closes
      rfl
    | _ => cases closes

theorem apply_not_closing (empty : ClosedEmpty st.accounts) (closes : closing rt st event = none) :
    ClosedEmpty (event.apply rt st).accounts := by
  cases event with
  | request draws req =>
    have via := serve_via rt draws req st
    have funds : ∀ operation : AccountOperation, operation.MovesFunds →
        ∀ id, operation ≠ .setStatus id .Closed := by
      rintro operation moves id rfl
      exact moves
    cases req with
    | createAccount req =>
      refine via.keeps (fun _ operation kept allowed => closedEmpty_apply kept ?_) empty
      obtain ⟨accountType, rfl⟩ := allowed
      intro id same
      cases same
    | setAccountStatus id status =>
      change ClosedEmpty (setAccountStatus rt draws id status st).2.accounts
      rw [setAccountStatus_books]
      simp only
      split_ifs with admitted
      · cases parsed : parseStatus (rt.toUppercase (status.getD "OPEN")) with
        | none => exact empty
        | some newStatus =>
          have reopens : ∀ other, AccountOperation.setStatus id newStatus ≠ .setStatus other .Closed := by
            intro other same
            cases same
            simp [closing, admitted, parsed] at closes
          exact closedEmpty_apply empty reopens
      · exact empty
    | coaDeactivate id => cases closes
    | _ => exact via.keeps (fun _ _ kept moves => closedEmpty_apply kept (funds _ moves)) empty
  | service operation =>
    refine closedEmpty_apply empty ?_
    rintro id rfl
    cases closes

theorem closedEmpty_step (empty : ClosedEmpty st.accounts) :
    ClosedEmpty (event.apply rt st).accounts ↔ ClosesEmpty rt st event := by
  unfold ClosesEmpty
  cases closes : closing rt st event with
  | none => exact iff_of_true (apply_not_closing empty closes) (by simp)
  | some id =>
    rw [apply_closing closes, close_closedEmpty_iff empty]
    simp only [Option.some.injEq]
    exact ⟨fun fits other a same found => fits a (same ▸ found), fun fits a found => fits id a rfl found⟩

/-- Closed accounts are empty in every state of a run exactly if every closing of the run finds an
account that may be closed. -/
theorem closed_accounts_empty_iff (rt : Runtime) (now : Timestamp) (events : List RegistryEvent) :
    Runs.Throughout (RegistryEvent.apply rt) (fun st => ClosedEmpty st.accounts) (.new rt now) events ↔
      Runs.Meets (RegistryEvent.apply rt) (ClosesEmpty rt) (.new rt now) events := by
  have start : ClosedEmpty (AppState.new rt now).accounts := by
    intro id a found
    simp [AppState.new] at found
  have exactly : ∀ st event, ClosedEmpty (AppState.toBooks st).accounts →
      (ClosedEmpty (event.apply rt st).accounts ↔ ClosesEmpty rt st event) :=
    fun st event empty => closedEmpty_step empty
  exact Runs.throughout_iff_meets exactly start events

end Runs

namespace Sample

def openedAndDeactivated : List RegistryEvent :=
  [.request (draws 10) (.createAccount ⟨"ASSET", "USD", 1000⟩),
    .request (draws 20) (.coaDeactivate (uuid 10))]

end Sample

/-- An account is opened with 1000 and deactivated. -/
theorem deactivated_with_funds :
    ¬ Runs.Throughout (RegistryEvent.apply Sample.runtime) (fun st => ClosedEmpty st.accounts)
      (.new Sample.runtime ⟨0⟩) Sample.openedAndDeactivated := by
  intro always
  have after := always Sample.openedAndDeactivated [] (List.append_nil _).symm (Sample.uuid 10)
    { Account.new (Sample.uuid 10) .asset "USD" 1000 none with status := .Closed } (by decide) rfl
  exact absurd after (by decide)

end BankingLedger
