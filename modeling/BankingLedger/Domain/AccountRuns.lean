import BankingLedger.Domain.AccountConcurrency
import BankingLedger.Shared.Runs

set_option autoImplicit false

namespace BankingLedger

open MachineInt Runs

namespace Account

def answer (a : Account) : Call → Bool × Account
  | .debit amount => ((a.debit amount).1.toBool, (a.debit amount).2)
  | .credit amount => ((a.credit amount).1.toBool, (a.credit amount).2)
  | .placeHold amount => ((a.placeHold amount).1.toBool, (a.placeHold amount).2)
  | .releaseHold amount => ((a.releaseHold amount).1.toBool, (a.releaseHold amount).2)
  | .setStatus newStatus => ((a.setStatus newStatus).1.toBool, (a.setStatus newStatus).2)

def succeeds (a : Account) (call : Call) : Bool := (a.answer call).1

def after (a : Account) (call : Call) : Account := (a.answer call).2

def debitTrapping (a : Account) (amountCents : Int64) : Option (Except DebitError Int64 × Account) :=
  if amountCents ≤ 0 then some (.error .invalidAmount, a)
  else if a.status ≠ .Open then some (.error (.accountNotOpen a.status), a)
  else if a.availableBalance < amountCents then
    some (.error (.insufficientFunds a.availableBalance amountCents), a)
  else do
    let newAvailable ← checkedSub a.availableBalance amountCents
    let newBalance ← checkedSub a.balance amountCents
    some (.ok newBalance, { a with balance := newBalance, availableBalance := newAvailable })

def placeHoldTrapping (a : Account) (amountCents : Int64) : Option (Except HoldError Unit × Account) :=
  if amountCents ≤ 0 then some (.error .invalidAmount, a)
  else if a.status ≠ .Open then some (.error (.accountNotOpen a.status), a)
  else if a.availableBalance < amountCents then
    some (.error (.insufficientFunds a.availableBalance amountCents), a)
  else do
    let newAvailable ← checkedSub a.availableBalance amountCents
    some (.ok (), { a with availableBalance := newAvailable })

-- `credit` and `release_hold` use `checked_add` only.
def answerTrapping (a : Account) : Call → Option (Bool × Account)
  | .debit amount => (a.debitTrapping amount).map fun reply => (reply.1.toBool, reply.2)
  | .placeHold amount => (a.placeHoldTrapping amount).map fun reply => (reply.1.toBool, reply.2)
  | call => some (a.answer call)

def Accepts (a : Account) : Call → Prop
  | .debit amount | .placeHold amount =>
    0 < amount ∧ a.status = .Open ∧ amount.toInt ≤ a.availableBalance.toInt
  | .credit amount =>
    0 < amount ∧ a.status = .Open ∧ a.balance.toInt + amount.toInt ≤ Int64.maxValue.toInt
  | .releaseHold amount =>
    0 < amount ∧ a.status = .Open ∧ a.availableBalance.toInt + amount.toInt ≤ a.balance.toInt
  | .setStatus newStatus => a.status ≠ .Closed ∧ a.status ≠ newStatus

structure Solvent (a : Account) : Prop where
  nonnegative : 0 ≤ a.availableBalance.toInt
  covered : a.availableBalance.toInt ≤ a.balance.toInt

variable {a : Account} {amount : Int64} {call : Call}

theorem debitPasses_iff : a.DebitPasses amount ↔ a.Accepts (.debit amount) := by
  simp [DebitPasses, Accepts, Int64.le_iff_toInt_le]

theorem Solvent.creditPasses_iff (solvent : a.Solvent) :
    a.CreditPasses amount ↔ a.Accepts (.credit amount) := by
  have nonnegative := solvent.nonnegative
  have covered := solvent.covered
  simp only [CreditPasses, Accepts, isSome_checkedAdd, pos_iff, Int64.toInt_maxValue]
  refine and_congr_right fun positive => and_congr_right fun _ => ?_
  omega

theorem Solvent.not_strands (solvent : a.Solvent) : ¬a.CreditStrands amount := by
  have nonnegative := solvent.nonnegative
  have covered := solvent.covered
  simp only [CreditStrands, isSome_checkedAdd, checkedAdd_eq_none_iff, pos_iff]
  omega

theorem Solvent.releasePasses_iff (solvent : a.Solvent) :
    a.ReleasePasses amount ↔ a.Accepts (.releaseHold amount) := by
  have nonnegative := solvent.nonnegative
  have bound := bounds a.balance
  simp only [ReleasePasses, Accepts, isSome_checkedAdd, pos_iff, Int64.le_iff_toInt_le]
  constructor
  case mp =>
    rintro ⟨positive, isOpen, fits, held⟩
    rw [toInt_add_of_bounds fits.1 fits.2] at held
    exact ⟨positive, isOpen, held⟩
  case mpr =>
    rintro ⟨positive, isOpen, held⟩
    refine ⟨positive, isOpen, by omega, ?_⟩
    rw [toInt_add_of_bounds (by omega) (by omega)]
    exact held

def accepted (a : Account) : Call → Account
  | .debit amount => a.shift (-amount)
  | .credit amount => a.shift amount
  | .placeHold amount => a.earmark (-amount)
  | .releaseHold amount => a.earmark amount
  | .setStatus newStatus => { a with status := newStatus }

theorem Solvent.answer_of_accepts (solvent : a.Solvent) (accepts : a.Accepts call) :
    a.answer call = (true, a.accepted call) := by
  cases call with
  | debit amount =>
    rw [answer, debit_of_passes (debitPasses_iff.mpr accepts)]
    rfl
  | credit amount =>
    rw [answer, credit_of_passes (solvent.creditPasses_iff.mpr accepts)]
    rfl
  | placeHold amount =>
    rw [answer, placeHold_of_passes (debitPasses_iff.mpr accepts)]
    rfl
  | releaseHold amount =>
    rw [answer, releaseHold_of_passes (solvent.releasePasses_iff.mpr accepts)]
    rfl
  | setStatus newStatus =>
    obtain ⟨_, _, _, _, _, status, _⟩ := a
    cases status <;> cases newStatus <;> simp_all [answer, setStatus, accepted, Accepts, Except.toBool]

theorem Solvent.answer_of_not_accepts (solvent : a.Solvent) (refuses : ¬a.Accepts call) :
    a.answer call = (false, a) := by
  cases call with
  | debit amount =>
    obtain ⟨e, refused⟩ := debit_of_refused (debitPasses_iff.not.mpr refuses)
    rw [answer, refused]
    rfl
  | credit amount =>
    obtain ⟨e, refused⟩ := credit_of_refused (solvent.creditPasses_iff.not.mpr refuses) solvent.not_strands
    rw [answer, refused]
    rfl
  | placeHold amount =>
    obtain ⟨e, refused⟩ := placeHold_of_refused (debitPasses_iff.not.mpr refuses)
    rw [answer, refused]
    rfl
  | releaseHold amount =>
    obtain ⟨e, refused⟩ := releaseHold_of_refused (solvent.releasePasses_iff.not.mpr refuses)
    rw [answer, refused]
    rfl
  | setStatus newStatus =>
    obtain ⟨_, _, _, _, _, status, _⟩ := a
    cases status <;> cases newStatus <;> simp_all [answer, setStatus, Accepts, Except.toBool]

def credited : Call → Int
  | .credit amount => amount.toInt
  | _ => 0

def debited : Call → Int
  | .debit amount => amount.toInt
  | _ => 0

def held : Call → Int
  | .placeHold amount => amount.toInt
  | _ => 0

def released : Call → Int
  | .releaseHold amount => amount.toInt
  | _ => 0

def okAmount (part : Call → Int) (a : Account) (call : Call) : Int :=
  if a.succeeds call then part call else 0

def okTotal (part : Call → Int) (a : Account) (calls : List Call) : Int :=
  tally after (okAmount part) a calls

theorem Solvent.accepted_balance (solvent : a.Solvent) (accepts : a.Accepts call) :
    (a.accepted call).balance.toInt = a.balance.toInt + credited call - debited call := by
  have nonnegative := solvent.nonnegative
  have covered := solvent.covered
  cases call with
  | debit amount =>
    obtain ⟨positive, _, enough⟩ := accepts
    rw [pos_iff] at positive
    simp only [accepted, shift_balance, credited, debited]
    rw [toInt_add_neg positive (by omega)]
    omega
  | credit amount =>
    obtain ⟨positive, _, room⟩ := accepts
    rw [pos_iff] at positive
    rw [Int64.toInt_maxValue] at room
    simp only [accepted, shift_balance, credited, debited]
    rw [toInt_add_of_bounds (by omega) (by omega)]
    omega
  | placeHold amount => simp [accepted, earmark, credited, debited]
  | releaseHold amount => simp [accepted, earmark, credited, debited]
  | setStatus newStatus => simp [accepted, credited, debited]

theorem Solvent.accepted_available (solvent : a.Solvent) (accepts : a.Accepts call) :
    (a.accepted call).availableBalance.toInt =
      a.availableBalance.toInt + credited call - debited call - held call + released call := by
  have nonnegative := solvent.nonnegative
  have covered := solvent.covered
  have bound := bounds a.balance
  cases call with
  | debit amount =>
    obtain ⟨positive, _, enough⟩ := accepts
    rw [pos_iff] at positive
    simp only [accepted, shift_availableBalance, credited, debited, held, released]
    rw [toInt_add_neg positive enough]
    omega
  | credit amount =>
    obtain ⟨positive, _, room⟩ := accepts
    rw [pos_iff] at positive
    rw [Int64.toInt_maxValue] at room
    simp only [accepted, shift_availableBalance, credited, debited, held, released]
    rw [toInt_add_of_bounds (by omega) (by omega)]
    omega
  | placeHold amount =>
    obtain ⟨positive, _, enough⟩ := accepts
    rw [pos_iff] at positive
    simp only [accepted, earmark, credited, debited, held, released]
    rw [toInt_add_neg positive enough]
    omega
  | releaseHold amount =>
    obtain ⟨positive, _, enough⟩ := accepts
    rw [pos_iff] at positive
    simp only [accepted, earmark, credited, debited, held, released]
    rw [toInt_add_of_bounds (by omega) (by omega)]
    omega
  | setStatus newStatus => simp [accepted, credited, debited, held, released]

theorem Solvent.accepted (solvent : a.Solvent) (accepts : a.Accepts call) : (a.accepted call).Solvent := by
  have nonnegative := solvent.nonnegative
  have covered := solvent.covered
  have balance := solvent.accepted_balance accepts
  have available := solvent.accepted_available accepts
  cases call <;> simp only [Accepts, pos_iff, credited, debited, held, released] at * <;>
    exact { nonnegative := by omega, covered := by omega }

theorem Solvent.kept (solvent : a.Solvent) (call : Call) : (a.after call).Solvent := by
  by_cases accepts : a.Accepts call
  next =>
    rw [Account.after, solvent.answer_of_accepts accepts]
    exact solvent.accepted accepts
  next =>
    rw [Account.after, solvent.answer_of_not_accepts accepts]
    exact solvent

theorem Solvent.balance_after (solvent : a.Solvent) (call : Call) : (a.after call).balance.toInt =
    a.balance.toInt + (okAmount credited a call - okAmount debited a call) := by
  by_cases accepts : a.Accepts call
  next =>
    have balance := solvent.accepted_balance accepts
    simp only [Account.after, okAmount, succeeds, solvent.answer_of_accepts accepts, if_true]
    omega
  next => simp [Account.after, okAmount, succeeds, solvent.answer_of_not_accepts accepts]

theorem Solvent.held_after (solvent : a.Solvent) (call : Call) :
    (a.after call).balance.toInt - (a.after call).availableBalance.toInt =
      a.balance.toInt - a.availableBalance.toInt + (okAmount held a call - okAmount released a call) := by
  by_cases accepts : a.Accepts call
  next =>
    have balance := solvent.accepted_balance accepts
    have available := solvent.accepted_available accepts
    simp only [Account.after, okAmount, succeeds, solvent.answer_of_accepts accepts, if_true]
    omega
  next => simp [Account.after, okAmount, succeeds, solvent.answer_of_not_accepts accepts]

theorem enough_of_tests (nonpositive : ¬amount ≤ 0) (short : ¬a.availableBalance < amount) :
    0 < amount.toInt ∧ amount.toInt ≤ a.availableBalance.toInt := by
  rw [nonpos_iff] at nonpositive
  rw [Int64.lt_iff_toInt_lt] at short
  omega

theorem Solvent.answerTrapping (solvent : a.Solvent) (call : Call) :
    a.answerTrapping call = some (a.answer call) := by
  have covered := solvent.covered
  cases call with
  | debit amount =>
    simp only [Account.answerTrapping, answer, debitTrapping, Account.debit]
    split_ifs with nonpositive notOpen short
    next => rfl
    next => rfl
    next => rfl
    next =>
      obtain ⟨positive, enough⟩ := enough_of_tests nonpositive short
      rw [checkedSub_of_covered positive enough, checkedSub_of_covered positive (enough.trans covered)]
      rfl
  | credit amount => rfl
  | placeHold amount =>
    simp only [Account.answerTrapping, answer, placeHoldTrapping, Account.placeHold]
    split_ifs with nonpositive notOpen short
    next => rfl
    next => rfl
    next => rfl
    next =>
      obtain ⟨positive, enough⟩ := enough_of_tests nonpositive short
      rw [checkedSub_of_covered positive enough]
      rfl
  | releaseHold amount => rfl
  | setStatus newStatus => rfl

/-- How an account answers a call: it succeeds exactly when it should, a refusal changes nothing and no
operation on the way overflows. -/
structure Answers (a : Account) (call : Call) : Prop where
  succeeds_iff : a.succeeds call = true ↔ a.Accepts call
  refused : a.succeeds call = false → (a.after call).balance = a.balance ∧
    (a.after call).availableBalance = a.availableBalance ∧ (a.after call).status = a.status
  exact : a.answerTrapping call = some (a.succeeds call, a.after call)

theorem Solvent.answers (solvent : a.Solvent) (call : Call) : a.Answers call := by
  by_cases accepts : a.Accepts call
  next =>
    have answered := solvent.answer_of_accepts accepts
    exact
      { succeeds_iff := by simp [succeeds, answered, accepts]
        refused := by simp [succeeds, answered]
        exact := solvent.answerTrapping call }
  next =>
    have answered := solvent.answer_of_not_accepts accepts
    exact
      { succeeds_iff := by simp [succeeds, answered, accepts]
        refused := by simp [Account.after, answered]
        exact := solvent.answerTrapping call }

structure Accounted (init : Int64) (start a : Account) (calls : List Call) : Prop where
  nonnegative : 0 ≤ a.availableBalance.toInt
  covered : a.availableBalance.toInt ≤ a.balance.toInt
  bounded : a.balance.toInt ≤ Int64.maxValue.toInt
  balance_eq : a.balance.toInt =
    init.toInt + okTotal credited start calls - okTotal debited start calls
  held_eq : a.balance.toInt - a.availableBalance.toInt =
    okTotal held start calls - okTotal released start calls

section Runs

variable {id : Uuid} {accountType : AccountType} {currency : String} {init : Int64}
  {ownerPartyId : Option Uuid}

theorem solvent_new (nonnegative : 0 ≤ init.toInt) :
    (new id accountType currency init ownerPartyId).Solvent :=
  { nonnegative, covered := Int.le_refl _ }

theorem Solvent.along (solvent : a.Solvent) (calls : List Call) : (run after a calls).Solvent :=
  run_invariant (fun _ call solvent => solvent.kept call) a calls solvent

theorem Solvent.run_balance (solvent : a.Solvent) (calls : List Call) :
    (run after a calls).balance.toInt =
      a.balance.toInt + okTotal credited a calls - okTotal debited a calls := by
  have total := @run_tally_of_invariant _ _ after Solvent _ (fun a => a.balance.toInt)
    (fun a call solvent => Solvent.balance_after solvent call)
    (fun a call solvent => Solvent.kept solvent call) a solvent calls
  rw [tally_sub, ← Int.add_sub_assoc] at total
  exact total

theorem Solvent.run_held (solvent : a.Solvent) (calls : List Call) :
    (run after a calls).balance.toInt - (run after a calls).availableBalance.toInt =
      a.balance.toInt - a.availableBalance.toInt + okTotal held a calls - okTotal released a calls := by
  have total := @run_tally_of_invariant _ _ after Solvent _
    (fun a => a.balance.toInt - a.availableBalance.toInt)
    (fun a call solvent => Solvent.held_after solvent call)
    (fun a call solvent => Solvent.kept solvent call) a solvent calls
  rw [tally_sub, ← Int.add_sub_assoc] at total
  exact total

/-- In every state that calls lead to, the two balances add up and the next call is answered as it
should be. -/
theorem account_adds_up (nonnegative : 0 ≤ init.toInt) (calls : List Call) :
    let start := new id accountType currency init ownerPartyId
    let a := run after start calls
    Accounted init start a calls ∧ ∀ call, a.Answers call := by
  intro start a
  have opened : start.Solvent := solvent_new nonnegative
  have solvent : a.Solvent := opened.along calls
  have bound := bounds a.balance
  have balance := opened.run_balance calls
  have heldBack := opened.run_held calls
  have level : start.balance.toInt - start.availableBalance.toInt = 0 := Int.sub_self _
  constructor
  next =>
    exact
      { nonnegative := solvent.nonnegative
        covered := solvent.covered
        bounded := by rw [Int64.toInt_maxValue]; exact bound.2
        balance_eq := balance
        held_eq := by rw [level, Int.zero_add] at heldBack; exact heldBack }
  next => exact fun call => solvent.answers call

theorem account_adds_up_largest :
    let start := new ⟨1⟩ .asset "USD" Int64.maxValue none
    let a := run after start [.credit 1, .debit 30000, .placeHold 50000, .releaseHold 60000]
    Accounted Int64.maxValue start a [.credit 1, .debit 30000, .placeHold 50000, .releaseHold 60000] ∧
      ∀ call, a.Answers call :=
  account_adds_up (by decide) _

end Runs

end Account

end BankingLedger
