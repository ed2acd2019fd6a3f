import BankingLedger.Api.TransferSteps
import BankingLedger.Api.Reversal

set_option autoImplicit false

namespace BankingLedger

open FiniteMap MachineInt Interleaving
open Account (Moved)

inductive ApiCall where
  | transfer (call : TransferCall)
  | status (call : StatusCall)

inductive Worker where
  | transfer (call : TransferCall) (pc : TransferPc)
  | status (call : StatusCall) (pc : StatusCallPc)

def ApiCall.worker : ApiCall → Worker
  | .transfer call => .transfer call .start
  | .status call => .status call .start

def apiSystem (rt : Runtime) : System Books Worker where
  step
    | books, .transfer call pc =>
      (transferStep rt call books pc).map fun next => (next.1, .transfer call next.2)
    | books, .status call pc =>
      (statusCallStep rt call books pc).map fun next => (next.1, .status call next.2)

namespace Worker

def isReturned : Worker → Bool
  | .transfer _ (.returned _) | .status _ (.returned _) => true
  | _ => false

def failed : Worker → Bool
  | .transfer _ (.returned (.error _)) => true
  | _ => false

def isTransfer : Worker → Bool
  | .transfer .. => true
  | .status .. => false

def refund : Worker → Option (Except CreditError Int64)
  | .transfer _ (.logRollback _ refund) => some refund
  | _ => none

def refunding : Worker → Option AccountId
  | .transfer call (.rollingBack _ .start) => some call.req.fromAccount
  | _ => none

def okInto : Worker → AccountId → Int
  | .transfer call (.returned (.ok _)), id => only call.req.toAccount call.req.amountCents.toInt id
  | _, _ => 0

def okOutOf : Worker → AccountId → Int
  | .transfer call (.returned (.ok _)), id => only call.req.fromAccount call.req.amountCents.toInt id
  | _, _ => 0

def WF (present : AccountId → Prop) : Worker → Prop
  | .transfer call pc => pc.WF call.req present
  | .status .. => True

def Clear (accounts : Accounts) : Worker → Prop
  | .transfer call pc => pc.Clear call.req accounts
  | .status .. => True

def appliedBalance : Worker → AccountId → Int
  | .transfer call pc => pc.appliedBalance call.req
  | .status .. => fun _ => 0

def appliedAvailable : Worker → AccountId → Int
  | .transfer call pc => pc.appliedAvailable call.req
  | .status .. => fun _ => 0

def inFlight (w : Worker) (id : AccountId) : Int := w.appliedBalance id - w.appliedAvailable id

end Worker

variable {I : Type}

def apiStart (books : Books) (calls : I → ApiCall) : Config I Books Worker :=
  { shared := books, thread := fun i => (calls i).worker }

def AllReturned (c : Config I Books Worker) : Prop := ∀ i, (c.thread i).isReturned

instance [Fintype I] (c : Config I Books Worker) : Decidable (AllReturned c) :=
  inferInstanceAs (Decidable (∀ i, (c.thread i).isReturned))

section Workers

variable {rt : Runtime} {books books' : Books} {w w' : Worker} {present : AccountId → Prop}

theorem NonnegAvailable.moved {accounts accounts' : Accounts} {b : AccountId → Int}
    (nonneg : NonnegAvailable accounts) (moved : AccountsMoved accounts accounts' b fun _ => 0) :
    NonnegAvailable accounts' := by
  intro id a found
  obtain ⟨a₀, before, one⟩ := moved.lookup found
  have := nonneg id a₀ before
  have := one.available
  omega

theorem statusCallStep_moved {call : StatusCall} {pc pc' : StatusCallPc}
    (step : statusCallStep rt call books pc = some (books', pc')) :
    AccountsMoved books.accounts books'.accounts (fun _ => 0) fun _ => 0 := by
  cases pc with
  | start =>
    have same : books' = books := by
      simp only [statusCallStep] at step
      split at step
      · split_ifs at step
        · cases step; rfl
        · split at step <;> cases step <;> rfl
      · cases step; rfl
    rw [same]
    exact AccountsMoved.refl _
  | set newStatus =>
    simp only [statusCallStep, AccountService.setStatus] at step
    cases found : books.accounts.lookup call.accountId with
    | none =>
      simp only [found] at step
      cases step
      exact AccountsMoved.refl _
    | some a =>
      have changed := AccountsMoved.insert found (setStatus_moved a newStatus)
      simp only [ite_self] at changed
      simp only [found] at step
      rcases result : a.setStatus newStatus with ⟨_ | _, a'⟩ <;>
        simp only [result] at step changed <;> cases step <;> exact changed
  | finish =>
    simp only [statusCallStep] at step
    split at step
    · split at step <;> cases step <;> exact AccountsMoved.refl _
    · cases step
      exact AccountsMoved.refl _
  | returned result => simp [statusCallStep] at step

theorem apiSystem_spec (wf : w.WF present)
    (keys : ∀ id, present id ↔ (books.accounts.lookup id).isSome) (clear : w.Clear books.accounts)
    (step : (apiSystem rt).step books w = some (books', w')) :
    w'.WF present ∧ w'.isTransfer = w.isTransfer ∧
      AccountsMoved books.accounts books'.accounts
        (fun id => w'.appliedBalance id - w.appliedBalance id)
        (fun id => w'.appliedAvailable id - w.appliedAvailable id) ∧
      (w.isTransfer → SameStatus books.accounts books'.accounts) ∧
      (NonnegAvailable books.accounts → NonnegAvailable books'.accounts) := by
  cases w with
  | transfer call pc =>
    obtain ⟨⟨next, pc'⟩, inner, same⟩ := Option.map_eq_some_iff.mp step
    cases same
    obtain ⟨wf', moves⟩ := transferStep_spec wf keys clear inner
    exact ⟨wf', rfl, moves.moved, fun _ => moves.status, moves.nonneg⟩
  | status call pc =>
    obtain ⟨⟨next, pc'⟩, inner, same⟩ := Option.map_eq_some_iff.mp step
    cases same
    have moved := statusCallStep_moved inner
    exact ⟨trivial, rfl, by simpa [Worker.appliedBalance, Worker.appliedAvailable] using moved,
      by simp [Worker.isTransfer], fun nonneg => nonneg.moved moved⟩

end Workers

/-- The accounts before the calls: nothing overdrawn, and no more money than one cell can hold. -/
structure Funded (accounts : Accounts) : Prop where
  cells : ∀ id a, accounts.lookup id = some a →
    0 ≤ a.availableBalance ∧ a.availableBalance ≤ a.balance
  total : totalBalance accounts ≤ Int64.maxValue.toInt

theorem Funded.covered {accounts : Accounts} (funded : Funded accounts) : Covered accounts := by
  intro id a found
  exact Int64.le_iff_toInt_le.mp (funded.cells id a found).2

theorem Funded.nonneg {accounts : Accounts} (funded : Funded accounts) :
    NonnegAvailable accounts := by
  intro id a found
  have nonneg := (funded.cells id a found).1
  rwa [Int64.le_iff_toInt_le, Int64.toInt_zero] at nonneg

section Conservation

variable [Fintype I]

structure Conserved (base : Accounts) (c : Config I Books Worker) : Prop where
  wf : ∀ i, (c.thread i).WF (· ∈ base.keys)
  moved : AccountsMoved base c.shared.accounts (fun id => ∑ i, (c.thread i).appliedBalance id)
    (fun id => ∑ i, (c.thread i).appliedAvailable id)
  nonneg : NonnegAvailable c.shared.accounts

/-- The refund about to check the status of the sender finds it open. -/
def RefundFindsOpen (c : Config I Books Worker) (i : I) : Prop :=
  ∀ id ∈ (c.thread i).refunding, ∀ a ∈ c.shared.accounts.lookup id, a.status = .Open

omit [Fintype I] in
instance (c : Config I Books Worker) (i : I) : Decidable (RefundFindsOpen c i) :=
  Option.decidableForallMem (c.thread i).refunding

variable {base : Accounts} {c : Config I Books Worker} {rt : Runtime}

omit [Fintype I] in
theorem Worker.inFlight_nonneg {w : Worker} {present : AccountId → Prop} (wf : w.WF present)
    (id : AccountId) : 0 ≤ w.inFlight id := by
  cases w with
  | transfer call pc => exact TransferPc.inFlight_nonneg wf id
  | status call pc => exact le_refl 0

omit [Fintype I] in
theorem Worker.net_nonpos {w : Worker} {keys : Finset AccountId} (wf : w.WF (· ∈ keys)) :
    ∑ id ∈ keys, w.appliedBalance id ≤ 0 := by
  cases w with
  | transfer call pc => exact TransferPc.net_nonpos wf
  | status call pc => simp [Worker.appliedBalance]

theorem Conserved.keys (conserved : Conserved base c) (id : AccountId) :
    id ∈ base.keys ↔ (c.shared.accounts.lookup id).isSome :=
  conserved.moved.present_iff id

theorem Conserved.inFlight_le (conserved : Conserved base c) (covered : Covered base) (i : I)
    {id : AccountId} {a : Account} (found : c.shared.accounts.lookup id = some a) :
    a.availableBalance.toInt + (c.thread i).inFlight id ≤ a.balance.toInt := by
  apply conserved.moved.inFlight_le covered i _ found
  intro j
  have pending := Worker.inFlight_nonneg (conserved.wf j) id
  simp only [Worker.inFlight] at pending
  omega

theorem Conserved.total (conserved : Conserved base c) :
    totalBalance c.shared.accounts =
      totalBalance base + ∑ i, ∑ id ∈ base.keys, (c.thread i).appliedBalance id := by
  rw [conserved.moved.totalBalance, Finset.sum_comm]

theorem Conserved.total_le (conserved : Conserved base c) (i : I) :
    totalBalance c.shared.accounts ≤
      totalBalance base + ∑ id ∈ base.keys, (c.thread i).appliedBalance id := by
  rw [conserved.total]
  have others : -∑ id ∈ base.keys, (c.thread i).appliedBalance id ≤
      ∑ j, -∑ id ∈ base.keys, (c.thread j).appliedBalance id := by
    apply Finset.single_le_sum (f := fun j => -∑ id ∈ base.keys, (c.thread j).appliedBalance id)
    · intro j _
      have taken := Worker.net_nonpos (conserved.wf j)
      omega
    · exact Finset.mem_univ i
  rw [Finset.sum_neg_distrib] at others
  omega

theorem Conserved.balance_le_total (conserved : Conserved base c) (covered : Covered base)
    (i : I) {id : AccountId} {a : Account} (found : c.shared.accounts.lookup id = some a) :
    a.balance.toInt ≤ totalBalance c.shared.accounts := by
  apply valueAt_le_total found
  intro other b at_other
  have available := conserved.nonneg other b at_other
  have gap := conserved.inFlight_le covered i at_other
  have pending := Worker.inFlight_nonneg (conserved.wf i) other
  omega

theorem Conserved.clear (conserved : Conserved base c) (funded : Funded base) (i : I)
    (finds : RefundFindsOpen c i) : (c.thread i).Clear c.shared.accounts := by
  have covered := funded.covered
  have total := funded.total
  rw [Int64.toInt_maxValue] at total
  have least := conserved.total_le i
  have wf := conserved.wf i
  have pending : ∀ id a, c.shared.accounts.lookup id = some a →
      a.availableBalance.toInt + (c.thread i).inFlight id ≤ a.balance.toInt :=
    fun _ _ found => conserved.inFlight_le covered i found
  have room : ∀ id a, c.shared.accounts.lookup id = some a →
      a.availableBalance.toInt + (c.thread i).inFlight id ≤ 9223372036854775807 := by
    intro id a found
    have gap := pending id a found
    have := bounds a.balance
    omega
  unfold RefundFindsOpen at finds
  generalize c.thread i = w at *
  cases w with
  | status call pc => trivial
  | transfer call pc =>
    cases pc with
    | debiting entry block pc =>
      cases pc with
      | subtract =>
        intro a found
        have gap := pending _ a found
        have nonneg := conserved.nonneg _ a found
        simp [Worker.inFlight, Worker.appliedBalance, Worker.appliedAvailable,
          TransferPc.appliedBalance, TransferPc.appliedAvailable, TransferPc.applied,
          DebitPc.appliedBalance, DebitPc.appliedAvailable] at gap
        omega
      | _ => trivial
    | crediting entry block pc =>
      cases pc with
      | loadAvailable newBalance =>
        intro a found
        simpa [Worker.inFlight, Worker.appliedBalance, Worker.appliedAvailable,
          TransferPc.appliedBalance, TransferPc.appliedAvailable, TransferPc.applied,
          CreditPc.appliedBalance, CreditPc.appliedAvailable] using room _ a found
      | _ => trivial
    | rollingBack e pc =>
      cases pc with
      | start => exact finds _ rfl
      | loadBalance =>
        intro a found
        have bound := conserved.balance_le_total covered i found
        have taken := TransferPc.net_refund e wf
        simp only [Worker.appliedBalance, taken] at least
        omega
      | loadAvailable newBalance =>
        intro a found
        simpa [Worker.inFlight, Worker.appliedBalance, Worker.appliedAvailable,
          TransferPc.appliedBalance, TransferPc.appliedAvailable, TransferPc.applied,
          CreditPc.appliedBalance, CreditPc.appliedAvailable] using room _ a found
      | _ => trivial
    | _ => trivial

variable [DecidableEq I]

theorem Conserved.step (funded : Funded base) (c : Config I Books Worker) (i : I) (books : Books)
    (w : Worker) (conserved : Conserved base c) (finds : RefundFindsOpen c i)
    (step : (apiSystem rt).step c.shared (c.thread i) = some (books, w)) :
    Conserved base { shared := books, thread := Function.update c.thread i w } := by
  obtain ⟨wf, -, moved, -, nonneg⟩ :=
    apiSystem_spec (conserved.wf i) conserved.keys (conserved.clear funded i finds) step
  refine ⟨?_, ?_, nonneg conserved.nonneg⟩
  · exact forall_update (fun _ (w : Worker) => w.WF (· ∈ base.keys)) wf conserved.wf
  · exact conserved.moved.fire moved

omit [Fintype I] [DecidableEq I] in
theorem ApiCall.worker_wf (call : ApiCall) (present : AccountId → Prop) : call.worker.WF present := by
  cases call <;> trivial

omit [Fintype I] [DecidableEq I] in
theorem ApiCall.worker_applied (call : ApiCall) (id : AccountId) :
    call.worker.appliedBalance id = 0 ∧ call.worker.appliedAvailable id = 0 := by
  cases call <;> exact ⟨rfl, rfl⟩

omit [DecidableEq I] in
theorem Conserved.initial {books : Books} (funded : Funded books.accounts) (calls : I → ApiCall) :
    Conserved books.accounts (apiStart books calls) := by
  refine ⟨fun i => ApiCall.worker_wf _ _, ?_, funded.nonneg⟩
  simpa [apiStart, ApiCall.worker_applied] using AccountsMoved.refl books.accounts

def balanceOf (id : AccountId) (books : Books) : Int :=
  valueAt (fun a => a.balance.toInt) books.accounts id

def availableOf (id : AccountId) (books : Books) : Int :=
  valueAt (fun a => a.availableBalance.toInt) books.accounts id

omit [Fintype I] [DecidableEq I] in
theorem Worker.applied_of_failed {w : Worker} (failed : w.failed) (id : AccountId) :
    w.appliedBalance id = 0 ∧ w.appliedAvailable id = 0 := by
  cases w with
  | status call pc => exact ⟨rfl, rfl⟩
  | transfer call pc =>
    rcases pc with _ | _ | _ | _ | _ | _ | _ | _ | _ | _ | _ | (_ | _) <;>
      simp [Worker.failed] at failed
    exact ⟨rfl, rfl⟩

omit [DecidableEq I] in
theorem Conserved.step_moved (funded : Funded base) (c : Config I Books Worker) (i : I) (books : Books)
    (w : Worker) (conserved : Conserved base c) (finds : RefundFindsOpen c i)
    (step : (apiSystem rt).step c.shared (c.thread i) = some (books, w)) :
    AccountsMoved c.shared.accounts books.accounts
      (fun id => w.appliedBalance id - (c.thread i).appliedBalance id)
      (fun id => w.appliedAvailable id - (c.thread i).appliedAvailable id) :=
  (apiSystem_spec (conserved.wf i) conserved.keys (conserved.clear funded i finds) step).2.2.1

theorem Conserved.effect_of_failed {books : Books} (funded : Funded books.accounts)
    (calls : I → ApiCall) (schedule : List I)
    (finds : (apiSystem rt).RunMeets RefundFindsOpen (apiStart books calls) schedule) (i : I)
    (failed : (((apiSystem rt).run (apiStart books calls) schedule).thread i).failed)
    (id : AccountId) :
    (apiSystem rt).effect (balanceOf id) i (apiStart books calls) schedule = 0 ∧
      (apiSystem rt).effect (availableOf id) i (apiStart books calls) schedule = 0 := by
  have final := Worker.applied_of_failed failed id
  have first : ((apiStart books calls).thread i).appliedBalance id = 0 ∧
      ((apiStart books calls).thread i).appliedAvailable id = 0 :=
    ApiCall.worker_applied (calls i) id
  have start := Conserved.initial funded calls
  constructor
  · refine (effect_on_cell (apiSystem rt) Books.accounts _ Worker.appliedBalance (Conserved.step funded)
      (fun _ conserved => conserved.keys) ?_ i _ schedule finds start id).trans ?_
    · intro c j books w conserved met step id
      exact ((Conserved.step_moved funded c j books w conserved met step).values id).1
    · simp [final.1, first.1]
  · refine (effect_on_cell (apiSystem rt) Books.accounts _ Worker.appliedAvailable
      (Conserved.step funded) (fun _ conserved => conserved.keys) ?_ i _ schedule finds start id).trans ?_
    · intro c j books w conserved met step id
      exact ((Conserved.step_moved funded c j books w conserved met step).values id).2
    · simp [final.2, first.2]

omit [Fintype I] [DecidableEq I] in
theorem Worker.applied_of_returned {w : Worker} (returned : w.isReturned) (id : AccountId) :
    w.appliedBalance id = w.okInto id - w.okOutOf id := by
  cases w with
  | status call pc => rfl
  | transfer call pc =>
    rcases pc with _ | _ | _ | _ | _ | _ | _ | _ | _ | _ | _ | (_ | _) <;>
      simp [Worker.isReturned] at returned
    · rfl
    · simp only [Worker.appliedBalance, TransferPc.appliedBalance, TransferPc.applied,
        Worker.okInto, Worker.okOutOf, only]
      split <;> split <;> omega

omit [Fintype I] [DecidableEq I] in
theorem Worker.net_of_returned {w : Worker} {keys : Finset AccountId} (wf : w.WF (· ∈ keys))
    (returned : w.isReturned) : ∑ id ∈ keys, w.appliedBalance id = 0 := by
  cases w with
  | status call pc => simp [Worker.appliedBalance]
  | transfer call pc =>
    cases pc with
    | returned result => exact TransferPc.net_returned wf
    | _ => simp [Worker.isReturned] at returned

omit [DecidableEq I] in
theorem Conserved.total_unchanged (conserved : Conserved base c) (returned : AllReturned c) :
    totalBalance c.shared.accounts = totalBalance base := by
  rw [conserved.total]
  simp [fun i => Worker.net_of_returned (conserved.wf i) (returned i)]

omit [DecidableEq I] in
theorem Conserved.balance_of_returned (conserved : Conserved base c) (returned : AllReturned c)
    {id : AccountId} {a : Account} (found : base.lookup id = some a) :
    ∃ a', c.shared.accounts.lookup id = some a' ∧
      a'.balance.toInt =
        a.balance.toInt + ∑ i, (c.thread i).okInto id - ∑ i, (c.thread i).okOutOf id := by
  obtain ⟨a', found', one⟩ := conserved.moved.forward found
  have balance := one.balance
  simp only [fun i => Worker.applied_of_returned (returned i) id, Finset.sum_sub_distrib] at balance
  exact ⟨a', found', by omega⟩

omit [DecidableEq I] in
theorem Conserved.refund_ok (conserved : Conserved base c) {i : I}
    {refund : Except CreditError Int64} (logged : (c.thread i).refund = some refund) :
    ∃ newBalance, refund = .ok newBalance := by
  have wf := conserved.wf i
  generalize c.thread i = w at *
  cases w with
  | status call pc => simp [Worker.refund] at logged
  | transfer call pc =>
    cases pc with
    | logRollback e result =>
      simp only [Worker.refund, Option.some.injEq] at logged
      subst logged
      exact wf.2
    | _ => simp [Worker.refund] at logged

/-- Whatever changes status meanwhile, no money is lost as long as every refund finds its sender
open. -/
theorem money_kept_of_open_refunds (rt : Runtime) (books : Books) (funded : Funded books.accounts)
    (calls : I → ApiCall) (schedule : List I)
    (finds : (apiSystem rt).RunMeets RefundFindsOpen (apiStart books calls) schedule) :
    let c := (apiSystem rt).run (apiStart books calls) schedule
    AllReturned c →
      totalBalance c.shared.accounts = totalBalance books.accounts ∧
      ∀ i, (c.thread i).failed → ∀ id,
        (apiSystem rt).effect (balanceOf id) i (apiStart books calls) schedule = 0 := by
  intro c returned
  have conserved : Conserved books.accounts c := (apiSystem rt).run_keeps (Conserved.step funded) _
    schedule finds (Conserved.initial funded calls)
  refine ⟨conserved.total_unchanged returned, ?_⟩
  intro i failed id
  exact (Conserved.effect_of_failed funded calls schedule finds i failed id).1

end Conservation

namespace Sample

def books : Books := (twoAccounts 100 100).toBooks

def transferCall (n fromAccount toAccount : Nat) (amount : Int64) : TransferCall :=
  { req := ⟨uuid fromAccount, uuid toAccount, amount, none⟩, admitted := true, draws := draws n }

def freeze (account : Nat) : ApiCall :=
  .status (.setAccountStatus true (uuid account) (some "FROZEN"))

-- A transfer of 50 and the freezing of its receiver and of its sender.
def freezeBoth : Fin 3 → ApiCall := ![.transfer (transferCall 10 1 2 50), freeze 2, freeze 1]

def freezeReceiver : Fin 2 → ApiCall := ![.transfer (transferCall 10 1 2 50), freeze 2]

theorem books_lookup {id : AccountId} {a : Account} (found : books.accounts.lookup id = some a) :
    a = .new (uuid 2) .asset "USD" 100 none ∨ a = .new (uuid 1) .asset "USD" 100 none := by
  simp only [books, twoAccounts, lookup_insert_eq] at found
  split_ifs at found
  · exact .inl (Option.some.inj found).symm
  · exact .inr (Option.some.inj found).symm
  · simp at found

theorem books_funded : Funded books.accounts := by
  refine ⟨fun id a found => ?_, by decide +kernel⟩
  rcases books_lookup found with rfl | rfl <;> decide

end Sample

open Sample

/-- The receiver is frozen before it is credited and the sender before it is refunded: the transfer
fails and 50 are gone. -/
theorem frozen_sender_loses_refund :
    let start := apiStart books freezeBoth
    let schedule := List.replicate 9 0 ++ List.replicate 3 1 ++ [0] ++ List.replicate 3 2 ++ [0, 0]
    let c := (apiSystem runtime).run start schedule
    AllReturned c ∧ (c.thread 0).failed ∧ totalBalance books.accounts = 200 ∧
      totalBalance c.shared.accounts = 150 ∧
      (apiSystem runtime).effect (balanceOf (uuid 1)) 0 start schedule = -50 := by
  decide +kernel

theorem money_kept_of_open_refunds_frozen_receiver :
    let start := apiStart books freezeReceiver
    let schedule := List.replicate 9 0 ++ List.replicate 3 1 ++ List.replicate 7 0
    let c := (apiSystem runtime).run start schedule
    AllReturned c ∧ (c.thread 0).failed ∧
      totalBalance c.shared.accounts = totalBalance books.accounts := by
  have returned : AllReturned ((apiSystem runtime).run (apiStart books freezeReceiver)
    (List.replicate 9 0 ++ List.replicate 3 1 ++ List.replicate 7 0)) := by decide +kernel
  have kept := money_kept_of_open_refunds runtime books books_funded freezeReceiver
    (List.replicate 9 0 ++ List.replicate 3 1 ++ List.replicate 7 0) (by decide +kernel) returned
  exact ⟨returned, by decide +kernel, kept.1⟩

section TransfersOnly

variable [Fintype I] [DecidableEq I]

def AllOpen (accounts : Accounts) : Prop :=
  ∀ id a, accounts.lookup id = some a → a.status = .Open

omit [Fintype I] [DecidableEq I] in
theorem SameStatus.allOpen {accounts accounts' : Accounts} (same : SameStatus accounts accounts')
    (isOpen : AllOpen accounts) : AllOpen accounts' := by
  intro id a' found
  have related := same id
  rw [found] at related
  cases before : accounts.lookup id with
  | none => rw [before] at related; cases related
  | some a =>
    rw [before] at related
    cases related with
    | some status => rw [status]; exact isOpen id a before

structure OnlyTransfers (base : Accounts) (c : Config I Books Worker) : Prop where
  conserved : Conserved base c
  transfers : ∀ i, (c.thread i).isTransfer
  isOpen : AllOpen c.shared.accounts

variable {base : Accounts} {rt : Runtime}

omit [DecidableEq I] in
theorem OnlyTransfers.finds {c : Config I Books Worker} (only : OnlyTransfers base c) (i : I) :
    RefundFindsOpen c i := by
  intro id _ a found
  exact only.isOpen id a found

theorem OnlyTransfers.step (funded : Funded base) (c : Config I Books Worker) (i : I)
    (books : Books) (w : Worker) (only : OnlyTransfers base c)
    (step : (apiSystem rt).step c.shared (c.thread i) = some (books, w)) :
    OnlyTransfers base { shared := books, thread := Function.update c.thread i w } := by
  have conserved := only.conserved
  obtain ⟨-, kind, -, status, -⟩ := apiSystem_spec (conserved.wf i) conserved.keys
    (conserved.clear funded i (only.finds i)) step
  refine ⟨conserved.step funded c i books w (only.finds i) step, ?_, ?_⟩
  · exact forall_update (fun _ (w : Worker) => w.isTransfer) (kind.trans (only.transfers i))
      only.transfers
  · exact (status (only.transfers i)).allOpen only.isOpen

/-- Concurrent transfers between open accounts conserve money: no refund ever fails, and when all
have returned every balance is the initial one plus what successful transfers moved, a failed
transfer having done nothing. -/
theorem concurrent_transfers_conserve (rt : Runtime) (books : Books)
    (funded : Funded books.accounts) (isOpen : AllOpen books.accounts) (calls : I → TransferCall)
    (schedule : List I) :
    let start := apiStart books fun i => .transfer (calls i)
    let c := (apiSystem rt).run start schedule
    (∀ i refund, (c.thread i).refund = some refund → ∃ newBalance, refund = .ok newBalance) ∧
    (AllReturned c →
      (∀ id a, books.accounts.lookup id = some a → ∃ a', c.shared.accounts.lookup id = some a' ∧
        a'.balance.toInt =
          a.balance.toInt + ∑ i, (c.thread i).okInto id - ∑ i, (c.thread i).okOutOf id) ∧
      totalBalance c.shared.accounts = totalBalance books.accounts ∧
      ∀ i, (c.thread i).failed → ∀ id,
        (apiSystem rt).effect (balanceOf id) i start schedule = 0 ∧
        (apiSystem rt).effect (availableOf id) i start schedule = 0) := by
  intro start c
  have first : OnlyTransfers books.accounts start :=
    ⟨Conserved.initial funded _, fun _ => rfl, isOpen⟩
  have finds : (apiSystem rt).RunMeets RefundFindsOpen start schedule :=
    (apiSystem rt).runMeets_of_invariant (fun _ i only => only.finds i) (OnlyTransfers.step funded)
      start schedule first
  have conserved : Conserved books.accounts c := ((apiSystem rt).run_invariant
    (OnlyTransfers.step funded) start schedule first).conserved
  refine ⟨fun i refund logged => conserved.refund_ok logged, fun returned => ⟨?_, ?_, ?_⟩⟩
  · intro id a found
    exact conserved.balance_of_returned returned found
  · exact conserved.total_unchanged returned
  · intro i failed id
    exact Conserved.effect_of_failed funded _ schedule finds i failed id

end TransfersOnly

namespace Sample

def crossing : Fin 3 → TransferCall :=
  ![transferCall 10 1 2 30, transferCall 20 2 1 20, transferCall 30 1 3 10]

def inTurn : List (Fin 3) := (List.replicate 22 [0, 1, 2]).flatten

theorem books_open : AllOpen books.accounts := by
  intro id a found
  rcases books_lookup found with rfl | rfl <;> rfl

end Sample

theorem concurrent_transfers_conserve_crossing :
    let start := apiStart books fun i => .transfer (crossing i)
    let c := (apiSystem runtime).run start inTurn
    AllReturned c ∧ (c.thread 2).failed ∧
      totalBalance c.shared.accounts = totalBalance books.accounts ∧
      (apiSystem runtime).effect (balanceOf (uuid 1)) 2 start inTurn = 0 := by
  have returned : AllReturned ((apiSystem runtime).run
    (apiStart books fun i => .transfer (crossing i)) inTurn) := by decide +kernel
  have failed : (((apiSystem runtime).run
    (apiStart books fun i => .transfer (crossing i)) inTurn).thread 2).failed := by decide +kernel
  have conserve := (concurrent_transfers_conserve runtime books books_funded books_open crossing
    inTurn).2 returned
  exact ⟨returned, failed, conserve.2.1, (conserve.2.2 2 failed (uuid 1)).1⟩

end BankingLedger
