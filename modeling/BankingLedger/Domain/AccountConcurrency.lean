import BankingLedger.Domain.AccountSteps

set_option autoImplicit false

namespace BankingLedger

open MachineInt Interleaving
open Account (Moved)

inductive Call where
  | debit (amountCents : Int64)
  | credit (amountCents : Int64)
  | placeHold (amountCents : Int64)
  | releaseHold (amountCents : Int64)
  | setStatus (newStatus : AccountStatus)
deriving DecidableEq

inductive Task where
  | debit (amountCents : Int64) (pc : DebitPc)
  | credit (amountCents : Int64) (pc : CreditPc)
  | placeHold (amountCents : Int64) (pc : HoldPc)
  | releaseHold (amountCents : Int64) (pc : ReleasePc)
  | setStatus (newStatus : AccountStatus) (pc : StatusPc)
deriving DecidableEq

def Call.task : Call → Task
  | .debit amount => .debit amount .start
  | .credit amount => .credit amount .start
  | .placeHold amount => .placeHold amount .start
  | .releaseHold amount => .releaseHold amount .start
  | .setStatus newStatus => .setStatus newStatus .start

namespace Task

def call : Task → Call
  | .debit amount _ => .debit amount
  | .credit amount _ => .credit amount
  | .placeHold amount _ => .placeHold amount
  | .releaseHold amount _ => .releaseHold amount
  | .setStatus newStatus _ => .setStatus newStatus

def isReturned : Task → Bool
  | .debit _ (.returned _) | .credit _ (.returned _) | .placeHold _ (.returned _)
  | .releaseHold _ (.returned _) | .setStatus _ (.returned _) => true
  | _ => false

def WF : Task → Prop
  | .debit amount pc => pc.WF amount
  | .credit amount pc => pc.WF amount
  | .placeHold amount pc => pc.WF amount
  | .releaseHold amount pc => pc.WF amount
  | .setStatus .. => True

def appliedBalance : Task → Int
  | .debit amount pc => pc.appliedBalance amount
  | .credit amount pc => pc.appliedBalance amount
  | _ => 0

def appliedAvailable : Task → Int
  | .debit amount pc => pc.appliedAvailable amount
  | .credit amount pc => pc.appliedAvailable amount
  | .placeHold amount pc => pc.appliedAvailable amount
  | .releaseHold amount pc => pc.appliedAvailable amount
  | .setStatus .. => 0

def inFlight : Task → Int
  | .debit amount pc => pc.inFlight amount
  | .credit amount pc => pc.inFlight amount
  | _ => 0

def okDebit : Task → Int
  | .debit amount (.returned (.ok _)) => amount.toInt
  | _ => 0

def okCredit : Task → Int
  | .credit amount (.returned (.ok _)) => amount.toInt
  | _ => 0

def okHold : Task → Int
  | .placeHold amount (.returned (.ok _)) => amount.toInt
  | _ => 0

def okRelease : Task → Int
  | .releaseHold amount (.returned (.ok _)) => amount.toInt
  | _ => 0

def held (t : Task) : Int := t.okHold - t.okRelease

def compared : Task → Option (Int64 × Int64)
  | .releaseHold _ (.exchange current balance _) => some (current, balance)
  | _ => none

end Task

def accountSystem : System Account Task where
  step
    | a, .debit amount pc => (debitStep amount a pc).map fun next => (next.1, .debit amount next.2)
    | a, .credit amount pc => (creditStep amount a pc).map fun next => (next.1, .credit amount next.2)
    | a, .placeHold amount pc =>
      (holdStep amount a pc).map fun next => (next.1, .placeHold amount next.2)
    | a, .releaseHold amount pc =>
      (releaseStep amount a pc).map fun next => (next.1, .releaseHold amount next.2)
    | a, .setStatus newStatus pc =>
      (statusStep newStatus a pc).map fun next => (next.1, .setStatus newStatus next.2)

variable {I : Type}

def accountStart (a : Account) (calls : I → Call) : Config I Account Task :=
  { shared := a, thread := fun i => (calls i).task }

def Quiescent (c : Config I Account Task) : Prop := ∀ i, (c.thread i).isReturned

instance [Fintype I] (c : Config I Account Task) : Decidable (Quiescent c) :=
  inferInstanceAs (Decidable (∀ i, (c.thread i).isReturned))

inductive Task.Step (a a' : Account) : Task → Task → Prop where
  | debit {amount : Int64} {pc pc' : DebitPc} :
      debitStep amount a pc = some (a', pc') → Task.Step a a' (.debit amount pc) (.debit amount pc')
  | credit {amount : Int64} {pc pc' : CreditPc} :
      creditStep amount a pc = some (a', pc') → Task.Step a a' (.credit amount pc) (.credit amount pc')
  | placeHold {amount : Int64} {pc pc' : HoldPc} :
      holdStep amount a pc = some (a', pc') →
      Task.Step a a' (.placeHold amount pc) (.placeHold amount pc')
  | releaseHold {amount : Int64} {pc pc' : ReleasePc} :
      releaseStep amount a pc = some (a', pc') →
      Task.Step a a' (.releaseHold amount pc) (.releaseHold amount pc')
  | setStatus {newStatus : AccountStatus} {pc pc' : StatusPc} :
      statusStep newStatus a pc = some (a', pc') →
      Task.Step a a' (.setStatus newStatus pc) (.setStatus newStatus pc')

theorem accountSystem_cases {a a' : Account} {t t' : Task}
    (step : accountSystem.step a t = some (a', t')) : Task.Step a a' t t' := by
  cases t with
  | debit | credit | placeHold | releaseHold | setStatus =>
    obtain ⟨⟨b, pc'⟩, inner, same⟩ := Option.map_eq_some_iff.mp step
    cases same
    constructor
    exact inner

theorem accountSystem_spec {a a' : Account} {t t' : Task} (wf : t.WF)
    (step : accountSystem.step a t = some (a', t'))
    (floor : ∀ amount, t = .debit amount .subtract →
      -9223372036854775808 ≤ a.balance.toInt - amount.toInt)
    (room : ∀ amount newBalance, t = .credit amount (.loadAvailable newBalance) →
      a.availableBalance.toInt + amount.toInt ≤ 9223372036854775807) :
    t'.WF ∧ t'.call = t.call ∧
      Moved a a' (t'.appliedBalance - t.appliedBalance) (t'.appliedAvailable - t.appliedAvailable) ∧
      (0 ≤ a.availableBalance.toInt → 0 ≤ a'.availableBalance.toInt) := by
  cases accountSystem_cases step with
  | debit inner =>
    obtain ⟨wf', moved, -, nonneg⟩ := debitStep_spec wf inner fun at_pc => floor _ (by rw [at_pc])
    exact ⟨wf', rfl, moved, nonneg⟩
  | credit inner =>
    obtain ⟨wf', moved, -, nonneg⟩ :=
      creditStep_spec wf inner fun newBalance at_pc => room _ newBalance (by rw [at_pc])
    exact ⟨wf', rfl, moved, nonneg⟩
  | placeHold inner =>
    obtain ⟨wf', moved, -, nonneg⟩ := holdStep_spec wf inner
    exact ⟨wf', rfl, moved, nonneg⟩
  | releaseHold inner =>
    obtain ⟨wf', moved, -, nonneg⟩ := releaseStep_spec wf inner
    exact ⟨wf', rfl, moved, nonneg⟩
  | @setStatus newStatus pc pc' inner =>
    cases pc with
    | start =>
      simp only [statusStep, Option.some.injEq, Prod.mk.injEq] at inner
      obtain ⟨rfl, rfl⟩ := inner
      have moved := setStatus_moved a newStatus
      refine ⟨trivial, rfl, moved, ?_⟩
      rw [moved.available]
      simp
    | returned result => simp [statusStep] at inner

section Accounting

def Call.atMost : Call → Int
  | .credit amount | .releaseHold amount => max amount.toInt 0
  | _ => 0

theorem Task.start_wf (call : Call) : call.task.WF := by cases call <;> trivial

theorem Task.appliedAvailable_le_atMost {t : Task} (wf : t.WF) :
    t.appliedAvailable ≤ t.call.atMost := by
  cases t with
  | debit amount pc => exact (DebitPc.applied_bounds wf).2
  | credit amount pc =>
    have bound := CreditPc.applied_bounds wf
    have gap := CreditPc.applied_gap amount pc
    simp only [Task.appliedAvailable, Task.call, Call.atMost]
    omega
  | placeHold amount pc => exact HoldPc.applied_nonpos wf
  | releaseHold amount pc => exact ReleasePc.applied_le wf
  | setStatus newStatus pc => exact le_refl 0

-- A release is the only call that can lift `available` past what it did to `balance`.
theorem Task.inFlight_le {t : Task} (wf : t.WF) :
    t.inFlight ≤ t.appliedBalance - t.appliedAvailable + t.call.atMost := by
  cases t with
  | debit amount pc =>
    have gap := DebitPc.applied_gap amount pc
    simp only [Task.inFlight, Task.appliedBalance, Task.appliedAvailable, Task.call, Call.atMost]
    omega
  | credit amount pc =>
    have gap := CreditPc.applied_gap amount pc
    simp only [Task.inFlight, Task.appliedBalance, Task.appliedAvailable, Task.call, Call.atMost]
    omega
  | placeHold amount pc =>
    have bound := HoldPc.applied_nonpos wf
    simp only [Task.inFlight, Task.appliedBalance, Task.appliedAvailable, Task.call, Call.atMost]
    omega
  | releaseHold amount pc =>
    have bound := ReleasePc.applied_le wf
    simp only [Task.inFlight, Task.appliedBalance, Task.appliedAvailable, Task.call, Call.atMost]
    omega
  | setStatus newStatus pc => exact le_refl 0

theorem Task.inFlight_nonneg {t : Task} (wf : t.WF) : 0 ≤ t.inFlight := by
  cases t with
  | debit amount pc => exact (DebitPc.applied_bounds wf).1
  | credit amount pc => exact (CreditPc.applied_bounds wf).1
  | placeHold | releaseHold | setStatus => exact le_refl 0

variable [Fintype I]

structure Accounted (init : Int) (calls : I → Call) (c : Config I Account Task) : Prop where
  calls : ∀ i, (c.thread i).call = calls i
  wf : ∀ i, (c.thread i).WF
  balance : c.shared.balance.toInt = init + ∑ i, (c.thread i).appliedBalance
  available : c.shared.availableBalance.toInt = init + ∑ i, (c.thread i).appliedAvailable
  nonneg : 0 ≤ c.shared.availableBalance.toInt

variable {init : Int} {calls : I → Call} {c : Config I Account Task}

theorem Accounted.room (accounted : Accounted init calls c)
    (fits : init + ∑ i, (calls i).atMost ≤ 9223372036854775807) {i : I} {amount newBalance : Int64}
    (at_load : c.thread i = .credit amount (.loadAvailable newBalance)) :
    c.shared.availableBalance.toInt + amount.toInt ≤ 9223372036854775807 := by
  -- The call itself still has its whole amount to add, no other call exceeds its own bound.
  have slack : (calls i).atMost - (c.thread i).appliedAvailable ≤
      ∑ j, ((calls j).atMost - (c.thread j).appliedAvailable) := by
    apply Finset.single_le_sum (f := fun j => (calls j).atMost - (c.thread j).appliedAvailable)
    · intro j _
      have bound := Task.appliedAvailable_le_atMost (accounted.wf j)
      rw [accounted.calls j] at bound
      omega
    · exact Finset.mem_univ i
  have own : (calls i).atMost - (c.thread i).appliedAvailable = max amount.toInt 0 := by
    rw [← accounted.calls i, at_load]
    exact sub_zero _
  rw [Finset.sum_sub_distrib, own] at slack
  have total := accounted.available
  omega

theorem Accounted.floor (accounted : Accounted init calls c) (start : 0 ≤ init)
    (fits : init + ∑ i, (calls i).atMost ≤ 9223372036854775807) {i : I} {amount : Int64}
    (at_subtract : c.thread i = .debit amount .subtract) :
    -9223372036854775808 ≤ c.shared.balance.toInt - amount.toInt := by
  have pending : (c.thread i).inFlight ≤
      ∑ j, ((c.thread j).appliedBalance - (c.thread j).appliedAvailable + (calls j).atMost) := by
    apply le_trans (b := ∑ j, (c.thread j).inFlight)
    · apply Finset.single_le_sum (f := fun j => (c.thread j).inFlight)
      · intro j _
        exact Task.inFlight_nonneg (accounted.wf j)
      · exact Finset.mem_univ i
    · apply Finset.sum_le_sum
      intro j _
      rw [← accounted.calls j]
      exact Task.inFlight_le (accounted.wf j)
  rw [Finset.sum_add_distrib, Finset.sum_sub_distrib, at_subtract] at pending
  simp only [Task.inFlight, DebitPc.inFlight] at pending
  have balance := accounted.balance
  have available := accounted.available
  have nonneg := accounted.nonneg
  omega

variable [DecidableEq I]

theorem Accounted.step (start : 0 ≤ init)
    (fits : init + ∑ i, (calls i).atMost ≤ 9223372036854775807) (c : Config I Account Task) (i : I)
    (a : Account) (t : Task) (accounted : Accounted init calls c)
    (step : accountSystem.step c.shared (c.thread i) = some (a, t)) :
    Accounted init calls { shared := a, thread := Function.update c.thread i t } := by
  obtain ⟨wf, call, moved, nonneg⟩ := accountSystem_spec (accounted.wf i) step
    (fun _ at_subtract => accounted.floor start fits at_subtract)
    (fun _ _ at_load => accounted.room fits at_load)
  constructor
  case calls =>
    exact forall_update (fun j (t : Task) => t.call = calls j) (call.trans (accounted.calls i))
      accounted.calls
  case wf => exact forall_update (fun _ => Task.WF) wf accounted.wf
  case balance =>
    rw [sum_update (fun _ => Task.appliedBalance), moved.balance, accounted.balance]
    omega
  case available =>
    rw [sum_update (fun _ => Task.appliedAvailable), moved.available, accounted.available]
    omega
  case nonneg => exact nonneg accounted.nonneg

theorem Task.start_applied (call : Call) :
    call.task.appliedBalance = 0 ∧ call.task.appliedAvailable = 0 := by
  cases call <;> exact ⟨rfl, rfl⟩

theorem Task.start_call (call : Call) : call.task.call = call := by cases call <;> rfl

omit [DecidableEq I] in
theorem Accounted.initial (a : Account) (calls : I → Call) (equal : a.availableBalance = a.balance)
    (start : 0 ≤ a.balance.toInt) : Accounted a.balance.toInt calls (accountStart a calls) where
  calls i := Task.start_call (calls i)
  wf i := Task.start_wf (calls i)
  balance := by simp [accountStart, Task.start_applied]
  available := by simp [accountStart, Task.start_applied, equal]
  nonneg := by simpa [accountStart, equal] using start

omit [Fintype I] [DecidableEq I] in
theorem Task.applied_of_returned {t : Task} (returned : t.isReturned) :
    t.appliedBalance = t.okCredit - t.okDebit ∧
      t.appliedAvailable = t.okCredit - t.okDebit - t.okHold + t.okRelease := by
  rcases t with ⟨_, pc⟩ | ⟨_, pc⟩ | ⟨_, pc⟩ | ⟨_, pc⟩ | ⟨_, pc⟩ <;>
    cases pc with
    | returned result =>
      cases result <;>
        simp [Task.appliedBalance, Task.appliedAvailable, Task.okCredit, Task.okDebit, Task.okHold,
          Task.okRelease, DebitPc.appliedBalance, DebitPc.appliedAvailable,
          CreditPc.appliedBalance, CreditPc.appliedAvailable, HoldPc.appliedAvailable,
          ReleasePc.appliedAvailable]
    | _ => simp [Task.isReturned] at returned

/-- Every interleaving of calls whose additions fit in 64 bits keeps the available balance
non-negative, and when all calls have returned the two cells are the initial balance plus what
the successful calls moved. -/
theorem concurrent_calls_accounted (id : Uuid) (accountType : AccountType) (currency : String)
    (owner : Option Uuid) (init : Int64) (nonneg : 0 ≤ init) (calls : I → Call)
    (fits : init.toInt + ∑ i, (calls i).atMost ≤ Int64.maxValue.toInt) (schedule : List I) :
    let c := accountSystem.run (accountStart (.new id accountType currency init owner) calls) schedule
    0 ≤ c.shared.availableBalance ∧
      (Quiescent c →
        c.shared.balance.toInt =
          init.toInt + ∑ i, (c.thread i).okCredit - ∑ i, (c.thread i).okDebit ∧
        c.shared.availableBalance.toInt =
          c.shared.balance.toInt - ∑ i, (c.thread i).okHold + ∑ i, (c.thread i).okRelease) := by
  intro c
  have start : 0 ≤ init.toInt := by
    rw [Int64.le_iff_toInt_le, Int64.toInt_zero] at nonneg
    exact nonneg
  rw [Int64.toInt_maxValue] at fits
  have accounted : Accounted init.toInt calls c :=
    accountSystem.run_invariant (Accounted.step start fits) _ schedule
      (Accounted.initial (.new id accountType currency init owner) calls rfl start)
  constructor
  · rw [Int64.le_iff_toInt_le, Int64.toInt_zero]
    exact accounted.nonneg
  · intro quiescent
    have balance := accounted.balance
    have available := accounted.available
    simp only [fun i => (Task.applied_of_returned (quiescent i)).1] at balance
    simp only [fun i => (Task.applied_of_returned (quiescent i)).2] at available
    simp only [Finset.sum_add_distrib, Finset.sum_sub_distrib] at balance available
    omega

def overlappingCalls : Fin 2 → Call := ![.debit 300, .credit 200]

theorem concurrent_calls_accounted_overlap :
    let c := accountSystem.run
      (accountStart (.new ⟨1⟩ .asset "USD" 1000 none) overlappingCalls) [0, 1, 0, 1, 0, 1, 0, 1, 1]
    0 ≤ c.shared.availableBalance ∧ Quiescent c ∧ c.shared.balance.toInt =
      (1000 : Int64).toInt + ∑ i, (c.thread i).okCredit - ∑ i, (c.thread i).okDebit :=
  have accounted := concurrent_calls_accounted ⟨1⟩ .asset "USD" none 1000 (by decide)
    overlappingCalls (by decide) [0, 1, 0, 1, 0, 1, 0, 1, 1]
  ⟨accounted.1, by decide, (accounted.2 (by decide)).1⟩

end Accounting

section Overdraft

def NoOverdraft (c : Config I Account Task) : Prop :=
  c.shared.availableBalance ≤ c.shared.balance ∧ 0 ≤ c.shared.balance

instance (c : Config I Account Task) : Decidable (NoOverdraft c) :=
  inferInstanceAs (Decidable (_ ∧ _))

/-- A release takes the cell of a debit that is between its two writes for held funds: with no
hold ever placed it hands back 100, and the next debit overdraws the account. -/
theorem release_during_debit_overdraws :
    let calls : Fin 3 → Call := ![.debit 100, .releaseHold 100, .debit 100]
    let c := accountSystem.run (accountStart (.new ⟨1⟩ .asset "USD" 100 none) calls)
      [0, 0, 0, 1, 1, 1, 1, 0, 2, 2, 2, 2]
    Quiescent c ∧ c.shared.balance = -100 ∧ c.shared.availableBalance = 0 ∧ ¬ NoOverdraft c := by
  decide

theorem Task.applied_gap (t : Task) :
    t.appliedBalance = t.appliedAvailable + t.inFlight + t.held := by
  cases t with
  | debit amount pc => exact (DebitPc.applied_gap amount pc).trans (add_zero _).symm
  | credit amount pc => exact (CreditPc.applied_gap amount pc).trans (add_zero _).symm
  | placeHold amount pc =>
    rcases pc with _ | _ | _ | (_ | _) <;>
      simp [Task.appliedBalance, Task.appliedAvailable, Task.inFlight, Task.held, Task.okHold,
        Task.okRelease, HoldPc.appliedAvailable]
  | releaseHold amount pc =>
    rcases pc with _ | _ | _ | _ | (_ | _) <;>
      simp [Task.appliedBalance, Task.appliedAvailable, Task.inFlight, Task.held, Task.okHold,
        Task.okRelease, ReleasePc.appliedAvailable]
  | setStatus newStatus pc => rfl

-- Only a successful exchange of a release lowers the amount held.
theorem held_step {a a' : Account} {t t' : Task} (wf : t.WF)
    (step : accountSystem.step a t = some (a', t')) :
    t.held ≤ t'.held ∨
      ∃ amount current balance newVal,
        t = .releaseHold amount (.exchange current balance newVal) ∧
        a.availableBalance = current ∧ t' = .releaseHold amount (.returned (.ok ())) := by
  cases accountSystem_cases step with
  | debit | credit | setStatus => exact Or.inl (le_refl 0)
  | @placeHold amount pc pc' inner =>
    have positive : pc'.WF amount := (holdStep_spec wf inner).1
    have idle : (Task.placeHold amount pc).held = 0 := by
      rcases pc with _ | _ | _ | (_ | _) <;> first | rfl | simp [holdStep] at inner
    left
    rw [idle]
    rcases pc' with _ | _ | _ | (_ | _) <;>
      simp only [Task.held, Task.okHold, Task.okRelease, HoldPc.WF] at * <;> omega
  | @releaseHold amount pc pc' inner =>
    cases pc with
    | start =>
      simp only [releaseStep] at inner
      split_ifs at inner <;> cases inner <;> exact Or.inl (le_refl _)
    | loadAvailable =>
      cases inner
      exact Or.inl (le_refl _)
    | loadBalance current =>
      simp only [releaseStep] at inner
      split at inner
      · cases inner; exact Or.inl (le_refl _)
      · split_ifs at inner <;> cases inner <;> exact Or.inl (le_refl _)
    | exchange current balance newVal =>
      simp only [releaseStep] at inner
      split_ifs at inner with same <;> cases inner
      · exact Or.inr ⟨amount, current, balance, newVal, rfl, same, rfl⟩
      · exact Or.inl (le_refl _)
    | returned result => simp [releaseStep] at inner

variable [Fintype I]

/-- When a release is about to succeed, the balance it compared against is covered by the balance
that remains once every debit and credit between its two writes is set aside. -/
def ReleaseSeesSettledBalance (c : Config I Account Task) (i : I) : Prop :=
  ∀ loaded ∈ (c.thread i).compared, c.shared.availableBalance = loaded.1 →
    loaded.2.toInt ≤ c.shared.balance.toInt - ∑ j, (c.thread j).inFlight

instance (c : Config I Account Task) (i : I) : Decidable (ReleaseSeesSettledBalance c i) :=
  Option.decidableForallMem (c.thread i).compared

structure Settled (c : Config I Account Task) : Prop where
  wf : ∀ i, (c.thread i).WF
  gap : c.shared.balance.toInt = c.shared.availableBalance.toInt +
    ∑ i, (c.thread i).inFlight + ∑ i, (c.thread i).held
  nonneg : 0 ≤ c.shared.availableBalance.toInt
  covered : 0 ≤ ∑ i, (c.thread i).held

variable {c : Config I Account Task}

theorem Settled.inFlight_le (settled : Settled c) (i : I) :
    (c.thread i).inFlight ≤ ∑ j, (c.thread j).inFlight := by
  apply Finset.single_le_sum (f := fun j => (c.thread j).inFlight)
  · intro j _
    exact Task.inFlight_nonneg (settled.wf j)
  · exact Finset.mem_univ i

variable [DecidableEq I]

theorem Settled.step (c : Config I Account Task) (i : I) (a : Account) (t : Task)
    (settled : Settled c) (condition : ReleaseSeesSettledBalance c i)
    (step : accountSystem.step c.shared (c.thread i) = some (a, t)) :
    Settled { shared := a, thread := Function.update c.thread i t } := by
  have gap := settled.gap
  have nonneg := settled.nonneg
  have covered := settled.covered
  have pending := settled.inFlight_le i
  have highest := bounds c.shared.balance
  obtain ⟨wf, -, moved, stays⟩ := accountSystem_spec (settled.wf i) step
    (fun amount at_subtract => by
      have own : (c.thread i).inFlight = amount.toInt := by rw [at_subtract]; rfl
      omega)
    (fun amount newBalance at_load => by
      have own : (c.thread i).inFlight = amount.toInt := by rw [at_load]; rfl
      omega)
  constructor
  case wf => exact forall_update (fun _ => Task.WF) wf settled.wf
  case gap =>
    have before := (c.thread i).applied_gap
    have after := t.applied_gap
    rw [sum_update (fun _ => Task.inFlight), sum_update (fun _ => Task.held), moved.balance,
      moved.available]
    omega
  case nonneg => exact stays nonneg
  case covered =>
    rw [sum_update (fun _ => Task.held)]
    rcases held_step (settled.wf i) step with
      grows | ⟨amount, current, balance, newVal, at_exchange, same, rfl⟩
    · omega
    · -- The guard bounds the new value by the balance loaded, the condition by what is settled.
      have seen : balance.toInt ≤ c.shared.balance.toInt - ∑ j, (c.thread j).inFlight :=
        condition (current, balance) (by rw [at_exchange]; rfl) same
      have guarded := settled.wf i
      rw [at_exchange] at guarded
      obtain ⟨-, value, atMost⟩ := guarded
      have idle : (c.thread i).held = 0 := by rw [at_exchange]; rfl
      have released : (Task.releaseHold amount (.returned (.ok ()))).held = -amount.toInt := by
        simp [Task.held, Task.okHold, Task.okRelease]
      subst same
      omega

omit [Fintype I] [DecidableEq I] in
theorem Task.start_held (call : Call) : call.task.inFlight = 0 ∧ call.task.held = 0 := by
  cases call <;> exact ⟨rfl, rfl⟩

omit [DecidableEq I] in
theorem Settled.initial (a : Account) (calls : I → Call) (equal : a.availableBalance = a.balance)
    (start : 0 ≤ a.balance.toInt) : Settled (accountStart a calls) where
  wf i := Task.start_wf (calls i)
  gap := by simp [accountStart, Task.start_held, equal]
  nonneg := by simpa [accountStart, equal] using start
  covered := by simp [accountStart, Task.start_held]

theorem no_overdraft_of_settled_releases (id : Uuid) (accountType : AccountType) (currency : String)
    (owner : Option Uuid) (init : Int64) (nonneg : 0 ≤ init) (calls : I → Call) (schedule : List I)
    (settled : accountSystem.RunMeets ReleaseSeesSettledBalance
      (accountStart (.new id accountType currency init owner) calls) schedule) :
    let c := accountSystem.run (accountStart (.new id accountType currency init owner) calls) schedule
    NoOverdraft c ∧ ∑ i, (c.thread i).okRelease ≤ ∑ i, (c.thread i).okHold := by
  intro c
  have start : 0 ≤ init.toInt := by
    rw [Int64.le_iff_toInt_le, Int64.toInt_zero] at nonneg
    exact nonneg
  have final : Settled c := accountSystem.run_keeps Settled.step _ schedule settled
    (Settled.initial (.new id accountType currency init owner) calls rfl start)
  have pending : 0 ≤ ∑ i, (c.thread i).inFlight :=
    Finset.sum_nonneg fun i _ => Task.inFlight_nonneg (final.wf i)
  have gap := final.gap
  have covered := final.covered
  have available := final.nonneg
  refine ⟨⟨?_, ?_⟩, ?_⟩
  · rw [Int64.le_iff_toInt_le]; omega
  · rw [Int64.le_iff_toInt_le, Int64.toInt_zero]; omega
  · simp only [Task.held, Finset.sum_sub_distrib] at covered
    omega

theorem no_overdraft_of_settled_releases_held :
    let calls : Fin 3 → Call := ![.placeHold 40, .debit 50, .releaseHold 40]
    let c := accountSystem.run (accountStart (.new ⟨1⟩ .asset "USD" 100 none) calls)
      [0, 0, 0, 1, 2, 1, 1, 1, 2, 2, 2]
    NoOverdraft c ∧ Quiescent c ∧ c.shared.balance = 50 ∧ c.shared.availableBalance = 50 :=
  ⟨(no_overdraft_of_settled_releases ⟨1⟩ .asset "USD" none 100 (by decide) _ _
    (by decide +kernel)).1, by decide⟩

end Overdraft

end BankingLedger
