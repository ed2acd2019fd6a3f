import BankingLedger.Shared.Interleaving
import BankingLedger.Domain.Account

set_option autoImplicit false

namespace BankingLedger

open MachineInt Interleaving

-- Each load, `compare_exchange` and `fetch_sub` and each section of the status mutex is one step. A checked amount
-- that is not positive returns before the status is read, so the check and the read share a step.
inductive DebitPc where
  | start
  | load
  | exchange (available newAvailable : Int64)
  | subtract
  | returned (result : Except DebitError Int64)
deriving DecidableEq

inductive CreditPc where
  | start
  | loadBalance
  | exchangeBalance (current newBalance : Int64)
  | loadAvailable (newBalance : Int64)
  | exchangeAvailable (newBalance avail newAvail : Int64)
  | returned (result : Except CreditError Int64)
deriving DecidableEq

inductive HoldPc where
  | start
  | load
  | exchange (available newAvailable : Int64)
  | returned (result : Except HoldError Unit)
deriving DecidableEq

inductive ReleasePc where
  | start
  | loadAvailable
  | loadBalance (current : Int64)
  | exchange (current balance newVal : Int64)
  | returned (result : Except HoldError Unit)
deriving DecidableEq

inductive StatusPc where
  | start
  | returned (result : Except AccountStatusError Unit)
deriving DecidableEq

def debitStep (amountCents : Int64) (a : Account) : DebitPc → Option (Account × DebitPc)
  | .start =>
    if amountCents ≤ 0 then some (a, .returned (.error .invalidAmount))
    else if a.status ≠ .Open then some (a, .returned (.error (.accountNotOpen a.status)))
    else some (a, .load)
  | .load =>
    if a.availableBalance < amountCents then
      some (a, .returned (.error (.insufficientFunds a.availableBalance amountCents)))
    else some (a, .exchange a.availableBalance (a.availableBalance - amountCents))
  | .exchange available newAvailable =>
    if a.availableBalance = available then
      some ({ a with availableBalance := newAvailable }, .subtract)
    else some (a, .load)
  | .subtract =>
    some ({ a with balance := a.balance - amountCents }, .returned (.ok (a.balance - amountCents)))
  | .returned _ => none

def creditStep (amountCents : Int64) (a : Account) : CreditPc → Option (Account × CreditPc)
  | .start =>
    if amountCents ≤ 0 then some (a, .returned (.error .invalidAmount))
    else if a.status ≠ .Open then some (a, .returned (.error (.accountNotOpen a.status)))
    else some (a, .loadBalance)
  | .loadBalance =>
    match checkedAdd a.balance amountCents with
    | none => some (a, .returned (.error .overflow))
    | some newBalance => some (a, .exchangeBalance a.balance newBalance)
  | .exchangeBalance current newBalance =>
    if a.balance = current then some ({ a with balance := newBalance }, .loadAvailable newBalance)
    else some (a, .loadBalance)
  | .loadAvailable newBalance =>
    -- An overflow here returns with the balance already written.
    match checkedAdd a.availableBalance amountCents with
    | none => some (a, .returned (.error .overflow))
    | some newAvail => some (a, .exchangeAvailable newBalance a.availableBalance newAvail)
  | .exchangeAvailable newBalance avail newAvail =>
    if a.availableBalance = avail then
      some ({ a with availableBalance := newAvail }, .returned (.ok newBalance))
    else some (a, .loadAvailable newBalance)
  | .returned _ => none

def holdStep (amountCents : Int64) (a : Account) : HoldPc → Option (Account × HoldPc)
  | .start =>
    if amountCents ≤ 0 then some (a, .returned (.error .invalidAmount))
    else if a.status ≠ .Open then some (a, .returned (.error (.accountNotOpen a.status)))
    else some (a, .load)
  | .load =>
    if a.availableBalance < amountCents then
      some (a, .returned (.error (.insufficientFunds a.availableBalance amountCents)))
    else some (a, .exchange a.availableBalance (a.availableBalance - amountCents))
  | .exchange available newAvailable =>
    if a.availableBalance = available then
      some ({ a with availableBalance := newAvailable }, .returned (.ok ()))
    else some (a, .load)
  | .returned _ => none

def releaseStep (amountCents : Int64) (a : Account) : ReleasePc → Option (Account × ReleasePc)
  | .start =>
    if amountCents ≤ 0 then some (a, .returned (.error .invalidAmount))
    else if a.status ≠ .Open then some (a, .returned (.error (.accountNotOpen a.status)))
    else some (a, .loadAvailable)
  | .loadAvailable => some (a, .loadBalance a.availableBalance)
  | .loadBalance current =>
    match checkedAdd current amountCents with
    | none => some (a, .returned (.error .invalidAmount))
    | some newVal =>
      if a.balance < newVal then
        some (a, .returned (.error (.releaseExceedsHeld current a.balance amountCents)))
      else some (a, .exchange current a.balance newVal)
  | .exchange current _ newVal =>
    if a.availableBalance = current then
      some ({ a with availableBalance := newVal }, .returned (.ok ()))
    else some (a, .loadAvailable)
  | .returned _ => none

def statusStep (newStatus : AccountStatus) (a : Account) : StatusPc → Option (Account × StatusPc)
  | .start => some ((a.setStatus newStatus).2, .returned (a.setStatus newStatus).1)
  | .returned _ => none

section Alone

-- Without interference no exchange fails, so every loop is left in its first round.

theorem debit_alone (a : Account) (amount : Int64) :
    System.solo ⟨debitStep amount⟩ 4 (a, .start) =
      ((a.debit amount).2, .returned (a.debit amount).1) := by
  unfold Account.debit
  by_cases nonpositive : amount ≤ 0
  · simp [System.solo, debitStep, nonpositive]
  · by_cases isOpen : a.status = .Open
    · by_cases short : a.availableBalance < amount <;>
        simp [System.solo, debitStep, nonpositive, isOpen, short]
    · simp [System.solo, debitStep, nonpositive, isOpen]

theorem credit_alone (a : Account) (amount : Int64) :
    System.solo ⟨creditStep amount⟩ 5 (a, .start) =
      ((a.credit amount).2, .returned (a.credit amount).1) := by
  unfold Account.credit
  by_cases nonpositive : amount ≤ 0
  · simp [System.solo, creditStep, nonpositive]
  · by_cases isOpen : a.status = .Open
    · cases sum : checkedAdd a.balance amount with
      | none => simp [System.solo, creditStep, nonpositive, isOpen, sum]
      | some newBalance =>
        cases availSum : checkedAdd a.availableBalance amount <;>
          simp [System.solo, creditStep, nonpositive, isOpen, sum, availSum]
    · simp [System.solo, creditStep, nonpositive, isOpen]

theorem placeHold_alone (a : Account) (amount : Int64) :
    System.solo ⟨holdStep amount⟩ 3 (a, .start) =
      ((a.placeHold amount).2, .returned (a.placeHold amount).1) := by
  unfold Account.placeHold
  by_cases nonpositive : amount ≤ 0
  · simp [System.solo, holdStep, nonpositive]
  · by_cases isOpen : a.status = .Open
    · by_cases short : a.availableBalance < amount <;>
        simp [System.solo, holdStep, nonpositive, isOpen, short]
    · simp [System.solo, holdStep, nonpositive, isOpen]

theorem releaseHold_alone (a : Account) (amount : Int64) :
    System.solo ⟨releaseStep amount⟩ 4 (a, .start) =
      ((a.releaseHold amount).2, .returned (a.releaseHold amount).1) := by
  unfold Account.releaseHold
  by_cases nonpositive : amount ≤ 0
  · simp [System.solo, releaseStep, nonpositive]
  · by_cases isOpen : a.status = .Open
    · cases sum : checkedAdd a.availableBalance amount with
      | none => simp [System.solo, releaseStep, nonpositive, isOpen, sum]
      | some newVal =>
        by_cases exceeds : a.balance < newVal <;>
          simp [System.solo, releaseStep, nonpositive, isOpen, sum, exceeds]
    · simp [System.solo, releaseStep, nonpositive, isOpen]

end Alone

namespace Account

def identity (a : Account) : AccountId × AccountType × String × Option Uuid :=
  (a.id, a.accountType, a.currency, a.ownerPartyId)

structure Moved (a a' : Account) (balance available : Int) : Prop where
  balance : a'.balance.toInt = a.balance.toInt + balance
  available : a'.availableBalance.toInt = a.availableBalance.toInt + available
  identity : a'.identity = a.identity

theorem Moved.refl (a : Account) : Moved a a 0 0 := ⟨by simp, by simp, rfl⟩

theorem Moved.trans {a a' a'' : Account} {b v b' v' : Int} (first : Moved a a' b v)
    (second : Moved a' a'' b' v') : Moved a a'' (b + b') (v + v') :=
  ⟨by have := first.balance; have := second.balance; omega,
    by have := first.available; have := second.available; omega,
    second.identity.trans first.identity⟩

end Account

open Account (Moved)

theorem setStatus_moved (a : Account) (newStatus : AccountStatus) :
    Moved a (a.setStatus newStatus).2 0 0 := by
  unfold Account.setStatus
  split <;> exact ⟨by simp, by simp, rfl⟩

-- What a call has added to each cell so far. A failed call counts for nothing, which is what
-- the step lemmas have to justify.
def DebitPc.appliedBalance (amount : Int64) : DebitPc → Int
  | .returned (.ok _) => -amount.toInt
  | _ => 0

def DebitPc.appliedAvailable (amount : Int64) : DebitPc → Int
  | .subtract | .returned (.ok _) => -amount.toInt
  | _ => 0

def CreditPc.appliedBalance (amount : Int64) : CreditPc → Int
  | .loadAvailable _ | .exchangeAvailable .. | .returned (.ok _) => amount.toInt
  | _ => 0

def CreditPc.appliedAvailable (amount : Int64) : CreditPc → Int
  | .returned (.ok _) => amount.toInt
  | _ => 0

def HoldPc.appliedAvailable (amount : Int64) : HoldPc → Int
  | .returned (.ok _) => -amount.toInt
  | _ => 0

def ReleasePc.appliedAvailable (amount : Int64) : ReleasePc → Int
  | .returned (.ok _) => amount.toInt
  | _ => 0

-- The amount of a debit or credit that has written one of its two cells and not the other.
def DebitPc.inFlight (amount : Int64) : DebitPc → Int
  | .subtract => amount.toInt
  | _ => 0

def CreditPc.inFlight (amount : Int64) : CreditPc → Int
  | .loadAvailable _ | .exchangeAvailable .. => amount.toInt
  | _ => 0

def DebitPc.WF (amount : Int64) : DebitPc → Prop
  | .start | .returned (.error _) => True
  | .load | .subtract | .returned (.ok _) => 0 < amount.toInt
  | .exchange available newAvailable =>
    0 < amount.toInt ∧ amount.toInt ≤ available.toInt ∧
      newAvailable.toInt = available.toInt - amount.toInt

def CreditPc.WF (amount : Int64) : CreditPc → Prop
  | .start | .returned (.error _) => True
  | .loadBalance | .loadAvailable _ | .returned (.ok _) => 0 < amount.toInt
  | .exchangeBalance current newBalance =>
    0 < amount.toInt ∧ newBalance.toInt = current.toInt + amount.toInt
  | .exchangeAvailable _ avail newAvail =>
    0 < amount.toInt ∧ newAvail.toInt = avail.toInt + amount.toInt

def HoldPc.WF (amount : Int64) : HoldPc → Prop
  | .start | .returned (.error _) => True
  | .load | .returned (.ok _) => 0 < amount.toInt
  | .exchange available newAvailable =>
    0 < amount.toInt ∧ amount.toInt ≤ available.toInt ∧
      newAvailable.toInt = available.toInt - amount.toInt

def ReleasePc.WF (amount : Int64) : ReleasePc → Prop
  | .start | .returned (.error _) => True
  | .loadAvailable | .loadBalance _ | .returned (.ok _) => 0 < amount.toInt
  | .exchange current balance newVal =>
    0 < amount.toInt ∧ newVal.toInt = current.toInt + amount.toInt ∧ newVal.toInt ≤ balance.toInt

section Applied

variable {amount : Int64}

theorem DebitPc.applied_gap (amount : Int64) (pc : DebitPc) :
    pc.appliedBalance amount = pc.appliedAvailable amount + pc.inFlight amount := by
  rcases pc with _ | _ | _ | _ | (_ | _) <;>
    simp [DebitPc.appliedBalance, DebitPc.appliedAvailable, DebitPc.inFlight]

theorem CreditPc.applied_gap (amount : Int64) (pc : CreditPc) :
    pc.appliedBalance amount = pc.appliedAvailable amount + pc.inFlight amount := by
  rcases pc with _ | _ | _ | _ | _ | (_ | _) <;>
    simp [CreditPc.appliedBalance, CreditPc.appliedAvailable, CreditPc.inFlight]

theorem DebitPc.applied_bounds {pc : DebitPc} (wf : pc.WF amount) :
    0 ≤ pc.inFlight amount ∧ pc.appliedAvailable amount ≤ 0 := by
  rcases pc with _ | _ | _ | _ | (_ | _) <;>
    simp only [DebitPc.WF, DebitPc.appliedAvailable, DebitPc.inFlight] at * <;> omega

theorem CreditPc.applied_bounds {pc : CreditPc} (wf : pc.WF amount) :
    0 ≤ pc.inFlight amount ∧ 0 ≤ pc.appliedAvailable amount ∧
      pc.appliedBalance amount ≤ max amount.toInt 0 := by
  rcases pc with _ | _ | _ | _ | _ | (_ | _) <;>
    simp only [CreditPc.WF, CreditPc.appliedBalance, CreditPc.appliedAvailable,
      CreditPc.inFlight] at * <;> omega

theorem HoldPc.applied_nonpos {pc : HoldPc} (wf : pc.WF amount) :
    pc.appliedAvailable amount ≤ 0 := by
  rcases pc with _ | _ | _ | (_ | _) <;> simp only [HoldPc.WF, HoldPc.appliedAvailable] at * <;> omega

theorem ReleasePc.applied_le {pc : ReleasePc} (wf : pc.WF amount) :
    pc.appliedAvailable amount ≤ max amount.toInt 0 := by
  rcases pc with _ | _ | _ | _ | (_ | _) <;>
    simp only [ReleasePc.WF, ReleasePc.appliedAvailable] at * <;> omega

end Applied

section Steps

variable {a a' : Account} {amount : Int64}

theorem checks_spec {P : Type} {invalid notOpen next pc' : P}
    (step : (if amount ≤ 0 then some (a, invalid)
      else if a.status ≠ .Open then some (a, notOpen) else some (a, next)) = some (a', pc')) :
    a' = a ∧ (pc' = invalid ∨ pc' = notOpen ∨ 0 < amount.toInt ∧ pc' = next) := by
  split_ifs at step with nonpositive <;> cases step
  · exact ⟨rfl, .inl rfl⟩
  · exact ⟨rfl, .inr (.inl rfl)⟩
  · exact ⟨rfl, .inr (.inr ⟨pos_iff.mp (by grind), rfl⟩)⟩

-- What a debit or a hold has loaded covers the amount.
theorem load_spec {available : Int64} (positive : 0 < amount.toInt) (enough : ¬ available < amount) :
    amount.toInt ≤ available.toInt ∧ (available - amount).toInt = available.toInt - amount.toInt := by
  have covered : amount.toInt ≤ available.toInt := by
    rw [Int64.lt_iff_toInt_lt] at enough
    omega
  exact ⟨covered, toInt_sub_of_covered positive covered⟩

-- One step of a debit. The subtraction is exact as long as it stays in range.
theorem debitStep_spec {pc pc' : DebitPc} (wf : pc.WF amount)
    (step : debitStep amount a pc = some (a', pc'))
    (floor : pc = .subtract → -9223372036854775808 ≤ a.balance.toInt - amount.toInt) :
    pc'.WF amount ∧
      Moved a a' (pc'.appliedBalance amount - pc.appliedBalance amount)
        (pc'.appliedAvailable amount - pc.appliedAvailable amount) ∧
      a'.status = a.status ∧
      (0 ≤ a.availableBalance.toInt → 0 ≤ a'.availableBalance.toInt) := by
  cases pc with
  | start =>
    obtain ⟨rfl, rfl | rfl | ⟨positive, rfl⟩⟩ := checks_spec step
    · exact ⟨trivial, Moved.refl _, rfl, id⟩
    · exact ⟨trivial, Moved.refl _, rfl, id⟩
    · exact ⟨positive, Moved.refl _, rfl, id⟩
  | load =>
    simp only [debitStep] at step
    split_ifs at step with short <;> cases step
    · exact ⟨trivial, Moved.refl a, rfl, id⟩
    · exact ⟨⟨wf, load_spec wf short⟩, Moved.refl a, rfl, id⟩
  | exchange available newAvailable =>
    obtain ⟨positive, covered, value⟩ := wf
    simp only [debitStep] at step
    split_ifs at step with same <;> cases step
    · subst same
      refine ⟨positive, ⟨?_, ?_, rfl⟩, rfl, ?_⟩ <;>
        simp [DebitPc.appliedBalance, DebitPc.appliedAvailable, value] <;> omega
    · exact ⟨positive, Moved.refl a, rfl, id⟩
  | subtract =>
    simp only [debitStep, Option.some.injEq, Prod.mk.injEq] at step
    obtain ⟨rfl, rfl⟩ := step
    have positive : 0 < amount.toInt := wf
    have := bounds a.balance
    have value : (a.balance - amount).toInt = a.balance.toInt - amount.toInt :=
      toInt_sub_of_bounds (floor rfl) (by omega)
    refine ⟨positive, ⟨?_, ?_, rfl⟩, rfl, id⟩
    · simp [DebitPc.appliedBalance, value]
      omega
    · simp [DebitPc.appliedAvailable]
  | returned result => simp [debitStep] at step

-- One step of a credit. The second addition cannot overflow as long as there is room.
theorem creditStep_spec {pc pc' : CreditPc} (wf : pc.WF amount)
    (step : creditStep amount a pc = some (a', pc'))
    (room : ∀ newBalance, pc = .loadAvailable newBalance →
      a.availableBalance.toInt + amount.toInt ≤ 9223372036854775807) :
    pc'.WF amount ∧
      Moved a a' (pc'.appliedBalance amount - pc.appliedBalance amount)
        (pc'.appliedAvailable amount - pc.appliedAvailable amount) ∧
      a'.status = a.status ∧
      (0 ≤ a.availableBalance.toInt → 0 ≤ a'.availableBalance.toInt) := by
  cases pc with
  | start =>
    obtain ⟨rfl, rfl | rfl | ⟨positive, rfl⟩⟩ := checks_spec step
    · exact ⟨trivial, Moved.refl _, rfl, id⟩
    · exact ⟨trivial, Moved.refl _, rfl, id⟩
    · exact ⟨positive, Moved.refl _, rfl, id⟩
  | loadBalance =>
    simp only [creditStep] at step
    cases sum : checkedAdd a.balance amount with
    | none =>
      simp only [sum] at step; cases step
      exact ⟨trivial, Moved.refl a, rfl, id⟩
    | some newBalance =>
      simp only [sum] at step; cases step
      exact ⟨⟨wf, checkedAdd_toInt sum⟩, Moved.refl a, rfl, id⟩
  | exchangeBalance current newBalance =>
    obtain ⟨positive, value⟩ := wf
    simp only [creditStep] at step
    split_ifs at step with same <;> cases step
    · subst same
      refine ⟨positive, ⟨?_, ?_, rfl⟩, rfl, id⟩ <;>
        simp [CreditPc.appliedBalance, CreditPc.appliedAvailable, value]
    · exact ⟨positive, Moved.refl a, rfl, id⟩
  | loadAvailable newBalance =>
    have positive : 0 < amount.toInt := wf
    have := bounds a.availableBalance
    have fits := room newBalance rfl
    simp only [creditStep] at step
    cases sum : checkedAdd a.availableBalance amount with
    | none =>
      have overflow := checkedAdd_eq_none_iff.mp sum
      omega
    | some newAvail =>
      simp only [sum] at step; cases step
      exact ⟨⟨positive, checkedAdd_toInt sum⟩,
        by simpa [CreditPc.appliedBalance, CreditPc.appliedAvailable] using Moved.refl a, rfl, id⟩
  | exchangeAvailable newBalance avail newAvail =>
    obtain ⟨positive, value⟩ := wf
    simp only [creditStep] at step
    split_ifs at step with same <;> cases step
    · subst same
      refine ⟨positive, ⟨?_, ?_, rfl⟩, rfl, ?_⟩ <;>
        simp [CreditPc.appliedBalance, CreditPc.appliedAvailable, value]
      omega
    · exact ⟨positive,
        by simpa [CreditPc.appliedBalance, CreditPc.appliedAvailable] using Moved.refl a, rfl, id⟩
  | returned result => simp [creditStep] at step

theorem creditStep_fails {pc : CreditPc} {e : CreditError}
    (step : creditStep amount a pc = some (a', .returned (.error e))) :
    (pc = .start ∧ (amount ≤ 0 ∨ a.status ≠ .Open)) ∨
      (pc = .loadBalance ∧ checkedAdd a.balance amount = none) ∨
      ∃ newBalance, pc = .loadAvailable newBalance ∧
        checkedAdd a.availableBalance amount = none := by
  cases pc with
  | start =>
    simp only [creditStep] at step
    split_ifs at step with nonpositive notOpen
    · exact .inl ⟨rfl, .inl nonpositive⟩
    · exact .inl ⟨rfl, .inr notOpen⟩
    · cases step
  | loadBalance =>
    simp only [creditStep] at step
    cases sum : checkedAdd a.balance amount with
    | none => exact .inr (.inl ⟨rfl, rfl⟩)
    | some newBalance => simp [sum] at step
  | exchangeBalance current newBalance =>
    simp only [creditStep] at step
    split_ifs at step <;> cases step
  | loadAvailable newBalance =>
    simp only [creditStep] at step
    cases sum : checkedAdd a.availableBalance amount with
    | none => exact .inr (.inr ⟨newBalance, rfl, rfl⟩)
    | some newAvail => simp [sum] at step
  | exchangeAvailable newBalance avail newAvail =>
    simp only [creditStep] at step
    split_ifs at step <;> cases step
  | returned result => simp [creditStep] at step

theorem holdStep_spec {pc pc' : HoldPc} (wf : pc.WF amount)
    (step : holdStep amount a pc = some (a', pc')) :
    pc'.WF amount ∧
      Moved a a' 0 (pc'.appliedAvailable amount - pc.appliedAvailable amount) ∧
      a'.status = a.status ∧
      (0 ≤ a.availableBalance.toInt → 0 ≤ a'.availableBalance.toInt) := by
  cases pc with
  | start =>
    obtain ⟨rfl, rfl | rfl | ⟨positive, rfl⟩⟩ := checks_spec step
    · exact ⟨trivial, Moved.refl _, rfl, id⟩
    · exact ⟨trivial, Moved.refl _, rfl, id⟩
    · exact ⟨positive, Moved.refl _, rfl, id⟩
  | load =>
    simp only [holdStep] at step
    split_ifs at step with short <;> cases step
    · exact ⟨trivial, Moved.refl a, rfl, id⟩
    · exact ⟨⟨wf, load_spec wf short⟩, Moved.refl a, rfl, id⟩
  | exchange available newAvailable =>
    obtain ⟨positive, covered, value⟩ := wf
    simp only [holdStep] at step
    split_ifs at step with same <;> cases step
    · subst same
      refine ⟨positive, ⟨?_, ?_, rfl⟩, rfl, ?_⟩ <;>
        simp [HoldPc.appliedAvailable, value] <;> omega
    · exact ⟨positive, Moved.refl a, rfl, id⟩
  | returned result => simp [holdStep] at step

theorem releaseStep_spec {pc pc' : ReleasePc} (wf : pc.WF amount)
    (step : releaseStep amount a pc = some (a', pc')) :
    pc'.WF amount ∧
      Moved a a' 0 (pc'.appliedAvailable amount - pc.appliedAvailable amount) ∧
      a'.status = a.status ∧
      (0 ≤ a.availableBalance.toInt → 0 ≤ a'.availableBalance.toInt) := by
  cases pc with
  | start =>
    obtain ⟨rfl, rfl | rfl | ⟨positive, rfl⟩⟩ := checks_spec step
    · exact ⟨trivial, Moved.refl _, rfl, id⟩
    · exact ⟨trivial, Moved.refl _, rfl, id⟩
    · exact ⟨positive, Moved.refl _, rfl, id⟩
  | loadAvailable =>
    simp only [releaseStep] at step; cases step
    exact ⟨wf, Moved.refl a, rfl, id⟩
  | loadBalance current =>
    simp only [releaseStep] at step
    cases sum : checkedAdd current amount with
    | none =>
      simp only [sum] at step; cases step
      exact ⟨trivial, Moved.refl a, rfl, id⟩
    | some newVal =>
      simp only [sum] at step
      split_ifs at step with exceeds <;> cases step
      · exact ⟨trivial, Moved.refl a, rfl, id⟩
      · rw [Int64.lt_iff_toInt_lt] at exceeds
        exact ⟨⟨wf, checkedAdd_toInt sum, by omega⟩, Moved.refl a, rfl, id⟩
  | exchange current balance newVal =>
    obtain ⟨positive, value, guarded⟩ := wf
    simp only [releaseStep] at step
    split_ifs at step with same <;> cases step
    · subst same
      refine ⟨positive, ⟨?_, ?_, rfl⟩, rfl, ?_⟩ <;> simp [ReleasePc.appliedAvailable, value]
      omega
    · exact ⟨positive, Moved.refl a, rfl, id⟩
  | returned result => simp [releaseStep] at step

end Steps

end BankingLedger
