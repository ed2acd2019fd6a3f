import BankingLedger.Shared.FiniteMap
import BankingLedger.Domain.AccountSteps

set_option autoImplicit false

namespace BankingLedger

open FiniteMap
open Account (Moved)

abbrev Accounts := Map AccountId Account

namespace AccountService

-- `id` is the value `Uuid::now_v7` returns.
def createAccount (id : Uuid) (accountType : AccountType) (currency : String)
    (initialBalanceCents : Int64) (ownerPartyId : Option Uuid) (accounts : Accounts) :
    Account × Accounts :=
  let account := Account.new id accountType currency initialBalanceCents ownerPartyId
  (account, accounts.insert account.id account)

def getAccount (accounts : Accounts) (accountId : AccountId) : Option Account :=
  accounts.lookup accountId

-- Look the account up, fail if it is missing, else run the operation on it.
def onAccount {E A : Type} (notFound : AccountId → E) (operation : Account → Except E A × Account)
    (accounts : Accounts) (accountId : AccountId) : Except E A × Accounts :=
  match accounts.lookup accountId with
  | none => (.error (notFound accountId), accounts)
  | some account => ((operation account).1, accounts.insert accountId (operation account).2)

def performDebit (accounts : Accounts) (accountId : AccountId) (amountCents : Int64) :
    Except DebitError Int64 × Accounts :=
  onAccount .accountNotFound (·.debit amountCents) accounts accountId

def performCredit (accounts : Accounts) (accountId : AccountId) (amountCents : Int64) :
    Except CreditError Int64 × Accounts :=
  onAccount .accountNotFound (·.credit amountCents) accounts accountId

def placeHold (accounts : Accounts) (accountId : AccountId) (amountCents : Int64) :
    Except HoldError Unit × Accounts :=
  onAccount .accountNotFound (·.placeHold amountCents) accounts accountId

def releaseHold (accounts : Accounts) (accountId : AccountId) (amountCents : Int64) :
    Except HoldError Unit × Accounts :=
  onAccount .accountNotFound (·.releaseHold amountCents) accounts accountId

def setStatus (accounts : Accounts) (accountId : AccountId) (newStatus : AccountStatus) :
    Except AccountStatusError Bool × Accounts :=
  match accounts.lookup accountId with
  | none => (.ok false, accounts)
  | some account =>
    match account.setStatus newStatus with
    | (.error e, account) => (.error e, accounts.insert accountId account)
    | (.ok (), account) => (.ok true, accounts.insert accountId account)

def insertRaw (accounts : Accounts) (id : AccountId) (account : Account) : Accounts :=
  accounts.insert id account

end AccountService

def AccountsMoved (accounts accounts' : Accounts) (balance available : AccountId → Int) : Prop :=
  ∀ id, Option.Rel (fun a a' => Moved a a' (balance id) (available id))
    (accounts.lookup id) (accounts'.lookup id)

namespace AccountsMoved

variable {accounts accounts' accounts'' : Accounts} {b v b' v' : AccountId → Int}

theorem refl (accounts : Accounts) : AccountsMoved accounts accounts (fun _ => 0) (fun _ => 0) := by
  intro id
  cases accounts.lookup id with
  | none => exact .none
  | some a => exact .some (Moved.refl a)

theorem trans (first : AccountsMoved accounts accounts' b v)
    (second : AccountsMoved accounts' accounts'' b' v') :
    AccountsMoved accounts accounts'' (fun id => b id + b' id) (fun id => v id + v' id) := by
  intro id
  have one := first id
  have two := second id
  revert one two
  cases accounts.lookup id <;> cases accounts'.lookup id <;> cases accounts''.lookup id <;>
    intro one two <;> cases one <;> cases two
  · exact .none
  · rename_i one two
    exact .some (one.trans two)

theorem insert {id : AccountId} {a a' : Account} {balance available : Int}
    (found : accounts.lookup id = some a) (moved : Moved a a' balance available) :
    AccountsMoved accounts (accounts.insert id a') (fun other => if other = id then balance else 0)
      (fun other => if other = id then available else 0) := by
  intro other
  rw [lookup_insert_eq]
  by_cases same : other = id
  · subst same
    simp only [found, if_true]
    exact .some moved
  · simp only [same, if_false]
    exact refl accounts other

theorem lookup (moved : AccountsMoved accounts accounts' b v) {id : AccountId} {a : Account}
    (found : accounts'.lookup id = some a) :
    ∃ a₀, accounts.lookup id = some a₀ ∧ Moved a₀ a (b id) (v id) := by
  have related := moved id
  rw [found] at related
  cases before : accounts.lookup id with
  | none => rw [before] at related; cases related
  | some a₀ =>
    rw [before] at related
    cases related with
    | some one => exact ⟨a₀, rfl, one⟩

theorem forward (moved : AccountsMoved accounts accounts' b v) {id : AccountId} {a : Account}
    (found : accounts.lookup id = some a) :
    ∃ a', accounts'.lookup id = some a' ∧ Moved a a' (b id) (v id) := by
  have related := moved id
  rw [found] at related
  cases after : accounts'.lookup id with
  | none => rw [after] at related; cases related
  | some a' =>
    rw [after] at related
    cases related with
    | some one => exact ⟨a', rfl, one⟩

theorem keys (moved : AccountsMoved accounts accounts' b v) : accounts'.keys = accounts.keys := by
  ext id
  have related := moved id
  rw [mem_keys_iff, mem_keys_iff]
  cases before : accounts.lookup id <;> cases after : accounts'.lookup id <;>
    simp [before, after] at related ⊢

end AccountsMoved

def totalBalance (accounts : Accounts) : Int := total (fun a => a.balance.toInt) accounts

theorem AccountsMoved.totalBalance {accounts accounts' : Accounts} {b v : AccountId → Int}
    (moved : AccountsMoved accounts accounts' b v) :
    totalBalance accounts' = BankingLedger.totalBalance accounts + ∑ id ∈ accounts.keys, b id := by
  apply total_congr moved.keys
  intro id member
  have related := moved id
  rw [mem_keys_iff] at member
  cases before : accounts.lookup id with
  | none => simp [before] at member
  | some a =>
    cases after : accounts'.lookup id with
    | none => rw [before, after] at related; cases related
    | some a' =>
      rw [before, after] at related
      cases related with
      | some one => simpa [before, after] using one.balance

end BankingLedger
