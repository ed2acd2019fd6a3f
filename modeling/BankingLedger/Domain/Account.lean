import BankingLedger.Shared.MachineInt

set_option autoImplicit false

namespace BankingLedger

open MachineInt

structure Uuid where
  bits : BitVec 128
deriving DecidableEq, Repr

abbrev AccountId := Uuid

inductive AccountType where
  | asset
  | liability
  | equity
  | revenue
  | expense
deriving DecidableEq, Repr

inductive AccountStatus where
  | Open
  | Frozen
  | Closed
deriving DecidableEq, Repr

inductive AccountStatusError where
  | closedAccount
  | invalidTransition (current new : AccountStatus)
deriving DecidableEq, Repr

inductive DebitError where
  | accountNotFound (id : AccountId)
  | invalidAmount
  | accountNotOpen (status : AccountStatus)
  | insufficientFunds (available requested : Int64)
deriving DecidableEq, Repr

inductive CreditError where
  | accountNotFound (id : AccountId)
  | invalidAmount
  | accountNotOpen (status : AccountStatus)
  | overflow
deriving DecidableEq, Repr

inductive HoldError where
  | accountNotFound (id : AccountId)
  | accountNotOpen (status : AccountStatus)
  | invalidAmount
  | insufficientFunds (available hold : Int64)
  | releaseExceedsHeld (available balance attemptedRelease : Int64)
deriving DecidableEq, Repr

structure Account where
  id : AccountId
  accountType : AccountType
  currency : String
  balance : Int64
  availableBalance : Int64
  status : AccountStatus
  ownerPartyId : Option Uuid
deriving DecidableEq, Repr

namespace Account

def new (id : Uuid) (accountType : AccountType) (currency : String) (initialBalanceCents : Int64)
    (ownerPartyId : Option Uuid) : Account :=
  { id, accountType, currency
    balance := initialBalanceCents
    availableBalance := initialBalanceCents
    status := .Open
    ownerPartyId }

def setStatus (a : Account) (newStatus : AccountStatus) : Except AccountStatusError Unit × Account :=
  match a.status, newStatus with
  | .Closed, _ => (.error .closedAccount, a)
  | .Open, .Closed | .Frozen, .Closed | .Open, .Frozen | .Frozen, .Open =>
    (.ok (), { a with status := newStatus })
  | current, new => (.error (.invalidTransition current new), a)

def debit (a : Account) (amountCents : Int64) : Except DebitError Int64 × Account :=
  if amountCents ≤ 0 then (.error .invalidAmount, a)
  else if a.status ≠ .Open then (.error (.accountNotOpen a.status), a)
  else if a.availableBalance < amountCents then
    (.error (.insufficientFunds a.availableBalance amountCents), a)
  else
    (.ok (a.balance - amountCents),
      { a with
        balance := a.balance - amountCents
        availableBalance := a.availableBalance - amountCents })

def credit (a : Account) (amountCents : Int64) : Except CreditError Int64 × Account :=
  if amountCents ≤ 0 then (.error .invalidAmount, a)
  else if a.status ≠ .Open then (.error (.accountNotOpen a.status), a)
  else
    match checkedAdd a.balance amountCents with
    | none => (.error .overflow, a)
    | some newBalance =>
      -- The balance is already written when the second addition is checked.
      let a := { a with balance := newBalance }
      match checkedAdd a.availableBalance amountCents with
      | none => (.error .overflow, a)
      | some newAvail => (.ok newBalance, { a with availableBalance := newAvail })

def placeHold (a : Account) (amountCents : Int64) : Except HoldError Unit × Account :=
  if amountCents ≤ 0 then (.error .invalidAmount, a)
  else if a.status ≠ .Open then (.error (.accountNotOpen a.status), a)
  else if a.availableBalance < amountCents then
    (.error (.insufficientFunds a.availableBalance amountCents), a)
  else (.ok (), { a with availableBalance := a.availableBalance - amountCents })

def releaseHold (a : Account) (amountCents : Int64) : Except HoldError Unit × Account :=
  if amountCents ≤ 0 then (.error .invalidAmount, a)
  else if a.status ≠ .Open then (.error (.accountNotOpen a.status), a)
  else
    match checkedAdd a.availableBalance amountCents with
    | none => (.error .invalidAmount, a)
    | some newVal =>
      if a.balance < newVal then
        (.error (.releaseExceedsHeld a.availableBalance a.balance amountCents), a)
      else (.ok (), { a with availableBalance := newVal })

def shift (d : Int64) (a : Account) : Account :=
  { a with balance := a.balance + d, availableBalance := a.availableBalance + d }

@[simp] theorem shift_zero (a : Account) : a.shift 0 = a := by simp [shift]

theorem shift_shift (d e : Int64) (a : Account) : (a.shift d).shift e = a.shift (d + e) := by
  simp [shift, Int64.add_assoc]

@[simp] theorem shift_balance (d : Int64) (a : Account) : (a.shift d).balance = a.balance + d := rfl
@[simp] theorem shift_availableBalance (d : Int64) (a : Account) :
    (a.shift d).availableBalance = a.availableBalance + d := rfl

def DebitPasses (a : Account) (amount : Int64) : Prop :=
  0 < amount ∧ a.status = .Open ∧ amount ≤ a.availableBalance

def CreditPasses (a : Account) (amount : Int64) : Prop :=
  0 < amount ∧ a.status = .Open ∧ (checkedAdd a.balance amount).isSome ∧
    (checkedAdd a.availableBalance amount).isSome

-- The credit that fails only after it has written the balance.
def CreditStrands (a : Account) (amount : Int64) : Prop :=
  0 < amount ∧ a.status = .Open ∧ (checkedAdd a.balance amount).isSome ∧
    checkedAdd a.availableBalance amount = none

instance (a : Account) (amount : Int64) : Decidable (a.DebitPasses amount) :=
  inferInstanceAs (Decidable (_ ∧ _ ∧ _))

instance (a : Account) (amount : Int64) : Decidable (a.CreditPasses amount) :=
  inferInstanceAs (Decidable (_ ∧ _ ∧ _ ∧ _))

instance (a : Account) (amount : Int64) : Decidable (a.CreditStrands amount) :=
  inferInstanceAs (Decidable (_ ∧ _ ∧ _ ∧ _))

theorem debit_of_passes {a : Account} {amount : Int64} (passes : a.DebitPasses amount) :
    a.debit amount = (.ok (a.balance - amount), a.shift (-amount)) := by
  obtain ⟨positive, isOpen, covered⟩ := passes
  have positive' : ¬ amount ≤ 0 := by grind
  have covered' : ¬ a.availableBalance < amount := by grind
  simp [debit, positive', isOpen, covered', shift, Int64.sub_eq_add_neg]

theorem debit_of_refused {a : Account} {amount : Int64} (refused : ¬ a.DebitPasses amount) :
    ∃ e, a.debit amount = (.error e, a) := by
  unfold debit
  split
  · exact ⟨_, rfl⟩
  · split
    · exact ⟨_, rfl⟩
    · split
      · exact ⟨_, rfl⟩
      · rename_i positive isOpen covered
        exact absurd ⟨by grind, by simpa using isOpen, by grind⟩ refused

theorem credit_of_passes {a : Account} {amount : Int64} (passes : a.CreditPasses amount) :
    a.credit amount = (.ok (a.balance + amount), a.shift amount) := by
  obtain ⟨positive, isOpen, balanceFits, availableFits⟩ := passes
  obtain ⟨newBalance, sum⟩ := Option.isSome_iff_exists.mp balanceFits
  obtain ⟨newAvail, availSum⟩ := Option.isSome_iff_exists.mp availableFits
  have positive' : ¬ amount ≤ 0 := by grind
  have balanceValue := (checkedAdd_eq_some_iff.mp sum).2.2
  have availValue := (checkedAdd_eq_some_iff.mp availSum).2.2
  simp [credit, positive', isOpen, sum, availSum, shift, balanceValue, availValue]

theorem credit_of_strands {a : Account} {amount : Int64} (strands : a.CreditStrands amount) :
    a.credit amount = (.error .overflow, { a with balance := a.balance + amount }) := by
  obtain ⟨positive, isOpen, balanceFits, availableOverflows⟩ := strands
  obtain ⟨newBalance, sum⟩ := Option.isSome_iff_exists.mp balanceFits
  have positive' : ¬ amount ≤ 0 := by grind
  have balanceValue := (checkedAdd_eq_some_iff.mp sum).2.2
  simp [credit, positive', isOpen, sum, availableOverflows, balanceValue]

theorem credit_of_refused {a : Account} {amount : Int64} (refused : ¬ a.CreditPasses amount)
    (clean : ¬ a.CreditStrands amount) : ∃ e, a.credit amount = (.error e, a) := by
  unfold credit
  split
  · exact ⟨_, rfl⟩
  · split
    · exact ⟨_, rfl⟩
    · rename_i nonpositive notOpen
      have positive : 0 < amount := by grind
      have isOpen : a.status = .Open := by simpa using notOpen
      cases sum : checkedAdd a.balance amount with
      | none => exact ⟨_, rfl⟩
      | some newBalance =>
        cases availSum : checkedAdd a.availableBalance amount with
        | none => exact absurd ⟨positive, isOpen, by simp [sum], availSum⟩ clean
        | some newAvail => exact absurd ⟨positive, isOpen, by simp [sum], by simp [availSum]⟩ refused

def earmark (d : Int64) (a : Account) : Account := { a with availableBalance := a.availableBalance + d }

@[simp] theorem earmark_zero (a : Account) : a.earmark 0 = a := by simp [earmark]

theorem earmark_earmark (d e : Int64) (a : Account) : (a.earmark d).earmark e = a.earmark (d + e) := by
  simp [earmark, Int64.add_assoc]

def ReleasePasses (a : Account) (amount : Int64) : Prop :=
  0 < amount ∧ a.status = .Open ∧ (checkedAdd a.availableBalance amount).isSome ∧
    a.availableBalance + amount ≤ a.balance

theorem placeHold_of_passes {a : Account} {amount : Int64} (passes : a.DebitPasses amount) :
    a.placeHold amount = (.ok (), a.earmark (-amount)) := by
  obtain ⟨positive, isOpen, covered⟩ := passes
  have positive' : ¬ amount ≤ 0 := by grind
  have covered' : ¬ a.availableBalance < amount := by grind
  simp [placeHold, positive', isOpen, covered', earmark, Int64.sub_eq_add_neg]

theorem placeHold_of_refused {a : Account} {amount : Int64} (refused : ¬ a.DebitPasses amount) :
    ∃ e, a.placeHold amount = (.error e, a) := by
  unfold placeHold
  split_ifs with nonpositive notOpen short
  · exact ⟨_, rfl⟩
  · exact ⟨_, rfl⟩
  · exact ⟨_, rfl⟩
  · exact absurd ⟨by grind, by simpa using notOpen, by grind⟩ refused

theorem releaseHold_of_passes {a : Account} {amount : Int64} (passes : a.ReleasePasses amount) :
    a.releaseHold amount = (.ok (), a.earmark amount) := by
  obtain ⟨positive, isOpen, fits, held⟩ := passes
  obtain ⟨newVal, sum⟩ := Option.isSome_iff_exists.mp fits
  have value := (checkedAdd_eq_some_iff.mp sum).2.2
  have positive' : ¬ amount ≤ 0 := by grind
  have held' : ¬ a.balance < a.availableBalance + amount := by grind
  simp [releaseHold, positive', isOpen, sum, value, held', earmark]

theorem releaseHold_of_refused {a : Account} {amount : Int64} (refused : ¬ a.ReleasePasses amount) :
    ∃ e, a.releaseHold amount = (.error e, a) := by
  unfold releaseHold
  split_ifs with nonpositive notOpen
  · exact ⟨_, rfl⟩
  · exact ⟨_, rfl⟩
  · cases sum : checkedAdd a.availableBalance amount with
    | none => exact ⟨_, rfl⟩
    | some newVal =>
      have value := (checkedAdd_eq_some_iff.mp sum).2.2
      dsimp only
      split_ifs with exceeds
      · exact ⟨_, rfl⟩
      · exact absurd ⟨by grind, by simpa using notOpen, by simp [sum], by grind⟩ refused

section Same

variable {a : Account} {amount : Int64}

theorem debit_same_iff : (a.debit amount).2 = a ↔ ¬ a.DebitPasses amount := by
  by_cases passes : a.DebitPasses amount
  · simp only [debit_of_passes passes, passes, not_true_eq_false, iff_false]
    intro same
    exact (add_ne_self passes.1).2 (congrArg balance same)
  · obtain ⟨e, refused⟩ := debit_of_refused passes
    simp [refused, passes]

theorem credit_same_iff :
    (a.credit amount).2 = a ↔ ¬ a.CreditPasses amount ∧ ¬ a.CreditStrands amount := by
  by_cases passes : a.CreditPasses amount
  · simp only [credit_of_passes passes, passes, not_true_eq_false, false_and, iff_false]
    intro same
    exact (add_ne_self passes.1).1 (congrArg balance same)
  · by_cases strands : a.CreditStrands amount
    · simp only [credit_of_strands strands, strands, not_true_eq_false, and_false, iff_false]
      intro same
      exact (add_ne_self strands.1).1 (congrArg balance same)
    · obtain ⟨e, refused⟩ := credit_of_refused passes strands
      simp [refused, passes, strands]

theorem placeHold_same_iff : (a.placeHold amount).2 = a ↔ ¬ a.DebitPasses amount := by
  by_cases passes : a.DebitPasses amount
  · simp only [placeHold_of_passes passes, passes, not_true_eq_false, iff_false]
    intro same
    exact (add_ne_self passes.1).2 (congrArg availableBalance same)
  · obtain ⟨e, refused⟩ := placeHold_of_refused passes
    simp [refused, passes]

theorem releaseHold_same_iff : (a.releaseHold amount).2 = a ↔ ¬ a.ReleasePasses amount := by
  by_cases passes : a.ReleasePasses amount
  · simp only [releaseHold_of_passes passes, passes, not_true_eq_false, iff_false]
    intro same
    exact (add_ne_self passes.1).1 (congrArg availableBalance same)
  · obtain ⟨e, refused⟩ := releaseHold_of_refused passes
    simp [refused, passes]

theorem setStatus_same_iff {newStatus : AccountStatus} :
    (a.setStatus newStatus).2 = a ↔ a.status = .Closed ∨ a.status = newStatus := by
  rcases a with ⟨_, _, _, _, _, status, _⟩
  cases status <;> cases newStatus <;> simp [setStatus]

theorem setStatus_ok_ne {newStatus : AccountStatus} {a' : Account}
    (done : a.setStatus newStatus = (.ok (), a')) : a' ≠ a := by
  rintro rfl
  have same := setStatus_same_iff.mp (show (a'.setStatus newStatus).2 = a' by rw [done])
  rcases a' with ⟨_, _, _, _, _, status, _⟩
  cases status <;> cases newStatus <;> simp [setStatus] at done same

end Same

end Account

end BankingLedger
