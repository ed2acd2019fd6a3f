import BankingLedger.Shared.Runs
import BankingLedger.Service.Postings

set_option autoImplicit false

namespace BankingLedger

open FiniteMap MachineInt

inductive AccountOperation where
  | createAccount (id : Uuid) (accountType : AccountType) (currency : String)
      (initialBalanceCents : Int64) (ownerPartyId : Option Uuid)
  | performDebit (accountId : AccountId) (amountCents : Int64)
  | performCredit (accountId : AccountId) (amountCents : Int64)
  | placeHold (accountId : AccountId) (amountCents : Int64)
  | releaseHold (accountId : AccountId) (amountCents : Int64)
  | setStatus (accountId : AccountId) (newStatus : AccountStatus)

def AccountOperation.apply (accounts : Accounts) : AccountOperation → Accounts
  | .createAccount id accountType currency initialBalanceCents ownerPartyId =>
    (AccountService.createAccount id accountType currency initialBalanceCents ownerPartyId accounts).2
  | .performDebit accountId amountCents =>
    (AccountService.performDebit accounts accountId amountCents).2
  | .performCredit accountId amountCents =>
    (AccountService.performCredit accounts accountId amountCents).2
  | .placeHold accountId amountCents => (AccountService.placeHold accounts accountId amountCents).2
  | .releaseHold accountId amountCents => (AccountService.releaseHold accounts accountId amountCents).2
  | .setStatus accountId newStatus => (AccountService.setStatus accounts accountId newStatus).2

def registryAfter (operations : List AccountOperation) : Accounts :=
  Runs.run AccountOperation.apply ∅ operations

section Registry

def Every (P : AccountId → Account → Prop) (accounts : Accounts) : Prop :=
  ∀ id a, accounts.lookup id = some a → P id a

structure Stable (P : AccountId → Account → Prop) : Prop where
  new : ∀ id accountType currency initialBalanceCents ownerPartyId,
    P id (.new id accountType currency initialBalanceCents ownerPartyId)
  debit : ∀ id a (amount : Int64), P id a → P id (a.debit amount).2
  credit : ∀ id a (amount : Int64), P id a → P id (a.credit amount).2
  placeHold : ∀ id a (amount : Int64), P id a → P id (a.placeHold amount).2
  releaseHold : ∀ id a (amount : Int64), P id a → P id (a.releaseHold amount).2
  setStatus : ∀ id a (newStatus : AccountStatus), P id a → P id (a.setStatus newStatus).2

variable {P : AccountId → Account → Prop} {accounts : Accounts}

theorem Every.insert (every : Every P accounts) {id : AccountId} {a : Account} (holds : P id a) :
    Every P (accounts.insert id a) := by
  intro other b found
  rcases lookup_insert_cases found with ⟨rfl, rfl⟩ | before
  · exact holds
  · exact every other b before

theorem Every.onAccount (every : Every P accounts) {E A : Type} {notFound : AccountId → E}
    {operation : Account → Except E A × Account} {accountId : AccountId}
    (keeps : ∀ a, P accountId a → P accountId (operation a).2) :
    Every P (AccountService.onAccount notFound operation accounts accountId).2 := by
  unfold AccountService.onAccount
  split
  · exact every
  · rename_i a found
    exact every.insert (keeps a (every accountId a found))

theorem Every.setStatus (every : Every P accounts) {accountId : AccountId} {newStatus : AccountStatus}
    (keeps : ∀ a, P accountId a → P accountId (a.setStatus newStatus).2) :
    Every P (AccountService.setStatus accounts accountId newStatus).2 := by
  unfold AccountService.setStatus
  split
  · exact every
  · rename_i a found
    have kept := keeps a (every accountId a found)
    split <;> rename_i result <;> rw [result] at kept <;> exact every.insert kept

theorem Stable.apply (stable : Stable P) (every : Every P accounts) (operation : AccountOperation) :
    Every P (operation.apply accounts) := by
  cases operation with
  | createAccount id accountType currency initialBalanceCents ownerPartyId =>
    exact every.insert (stable.new id accountType currency initialBalanceCents ownerPartyId)
  | performDebit accountId amountCents =>
    exact every.onAccount fun a => stable.debit accountId a amountCents
  | performCredit accountId amountCents =>
    exact every.onAccount fun a => stable.credit accountId a amountCents
  | placeHold accountId amountCents =>
    exact every.onAccount fun a => stable.placeHold accountId a amountCents
  | releaseHold accountId amountCents =>
    exact every.onAccount fun a => stable.releaseHold accountId a amountCents
  | setStatus accountId newStatus =>
    exact every.setStatus fun a => stable.setStatus accountId a newStatus

theorem Stable.registryAfter (stable : Stable P) (operations : List AccountOperation) :
    Every P (registryAfter operations) := by
  have start : Every P ∅ := by
    intro id a found
    simp at found
  have keeps : ∀ (accounts : Accounts) (operation : AccountOperation), Every P accounts →
      Every P (operation.apply accounts) :=
    fun _ operation every => stable.apply every operation
  exact Runs.run_invariant keeps ∅ operations start

end Registry

section Keyed

def Keyed (accounts : Accounts) : Prop := ∀ id a, accounts.lookup id = some a → a.id = id

theorem Account.debit_id (amount : Int64) (a : Account) : (a.debit amount).2.id = a.id := by
  unfold Account.debit
  split_ifs <;> rfl

theorem Account.credit_id (amount : Int64) (a : Account) : (a.credit amount).2.id = a.id := by
  unfold Account.credit
  split_ifs
  · rfl
  · rfl
  · cases MachineInt.checkedAdd a.balance amount with
    | none => rfl
    | some newBalance =>
      simp only
      split <;> rfl

theorem Account.placeHold_id (amount : Int64) (a : Account) : (a.placeHold amount).2.id = a.id := by
  unfold Account.placeHold
  split_ifs <;> rfl

theorem Account.releaseHold_id (amount : Int64) (a : Account) :
    (a.releaseHold amount).2.id = a.id := by
  unfold Account.releaseHold
  split_ifs
  · rfl
  · rfl
  · cases MachineInt.checkedAdd a.availableBalance amount with
    | none => rfl
    | some newVal =>
      simp only
      split_ifs <;> rfl

theorem Account.setStatus_id (newStatus : AccountStatus) (a : Account) :
    (a.setStatus newStatus).2.id = a.id := by
  unfold Account.setStatus
  split <;> rfl

theorem stable_keyed : Stable fun id a => a.id = id where
  new _ _ _ _ _ := rfl
  debit _ a amount keyed := (a.debit_id amount).trans keyed
  credit _ a amount keyed := (a.credit_id amount).trans keyed
  placeHold _ a amount keyed := (a.placeHold_id amount).trans keyed
  releaseHold _ a amount keyed := (a.releaseHold_id amount).trans keyed
  setStatus _ a newStatus keyed := (a.setStatus_id newStatus).trans keyed

theorem registryAfter_keyed (operations : List AccountOperation) : Keyed (registryAfter operations) :=
  stable_keyed.registryAfter operations

end Keyed

section Covered

namespace Account

variable (a : Account) (amount : Int64)

def Still (a a' : Account) : Prop :=
  a'.balance = a.balance ∧
    (a.availableBalance.toInt ≤ a.balance.toInt → a'.availableBalance.toInt ≤ a'.balance.toInt)

theorem Still.refl : a.Still a := ⟨rfl, fun covered => covered⟩

theorem placeHold_still : a.Still (a.placeHold amount).2 := by
  unfold Account.placeHold
  split_ifs with nonpositive notOpen short
  · exact Still.refl a
  · exact Still.refl a
  · exact Still.refl a
  · refine ⟨rfl, fun covered => ?_⟩
    have positive : 0 < amount.toInt := pos_iff.mp (by grind)
    have enough : amount.toInt ≤ a.availableBalance.toInt := by
      rw [Int64.lt_iff_toInt_lt] at short; omega
    have value := toInt_sub_of_covered positive enough
    simp only
    omega

theorem releaseHold_still : a.Still (a.releaseHold amount).2 := by
  unfold Account.releaseHold
  split_ifs with nonpositive notOpen
  · exact Still.refl a
  · exact Still.refl a
  · split
    · exact Still.refl a
    · split_ifs with exceeds
      · exact Still.refl a
      · refine ⟨rfl, fun _ => ?_⟩
        rw [Int64.lt_iff_toInt_lt] at exceeds
        simp only
        omega

theorem setStatus_still (status : AccountStatus) : a.Still (a.setStatus status).2 := by
  unfold Account.setStatus
  split <;> exact ⟨rfl, fun covered => covered⟩

end Account

theorem EntryLeg.Passes.covered {leg : EntryLeg} {a : Account} (passes : leg.Passes a)
    (covered : a.availableBalance.toInt ≤ a.balance.toInt) :
    (a.shift leg.signed).availableBalance.toInt ≤ (a.shift leg.signed).balance.toInt := by
  have moved := passes.moved covered
  rw [moved.balance, moved.available]
  omega

variable {a : Account}

theorem Account.debit_covered (amount : Int64) (covered : a.availableBalance.toInt ≤ a.balance.toInt) :
    (a.debit amount).2.availableBalance.toInt ≤ (a.debit amount).2.balance.toInt := by
  by_cases passes : a.DebitPasses amount
  · rw [Account.debit_of_passes passes]
    have leg : EntryLeg.Passes ⟨a.id, .debit, amount⟩ a := passes
    exact leg.covered covered
  · obtain ⟨e, refused⟩ := Account.debit_of_refused passes
    rw [refused]
    exact covered

-- A credit that is stranded has written the balance only, so the gap widens the right way.
theorem Account.credit_covered (amount : Int64) (covered : a.availableBalance.toInt ≤ a.balance.toInt) :
    (a.credit amount).2.availableBalance.toInt ≤ (a.credit amount).2.balance.toInt := by
  by_cases passes : a.CreditPasses amount
  · rw [Account.credit_of_passes passes]
    have leg : EntryLeg.Passes ⟨a.id, .credit, amount⟩ a := passes
    exact leg.covered covered
  · by_cases strands : a.CreditStrands amount
    · rw [Account.credit_of_strands strands]
      obtain ⟨positive, -, fits, -⟩ := strands
      obtain ⟨newBalance, sum⟩ := Option.isSome_iff_exists.mp fits
      obtain ⟨low, high, -⟩ := checkedAdd_eq_some_iff.mp sum
      have value := toInt_add_of_bounds low high
      have positive := pos_iff.mp positive
      simp only
      omega
    · obtain ⟨e, refused⟩ := Account.credit_of_refused passes strands
      rw [refused]
      exact covered

theorem stable_covered : Stable fun _ a => a.availableBalance.toInt ≤ a.balance.toInt where
  new _ _ _ _ _ := le_refl _
  debit _ _ amount covered := Account.debit_covered amount covered
  credit _ _ amount covered := Account.credit_covered amount covered
  placeHold _ a amount := (a.placeHold_still amount).2
  releaseHold _ a amount := (a.releaseHold_still amount).2
  setStatus _ a newStatus := (a.setStatus_still newStatus).2

theorem registryAfter_covered (operations : List AccountOperation) :
    Covered (registryAfter operations) :=
  stable_covered.registryAfter operations

end Covered

end BankingLedger
