import BankingLedger.Shared.MachineInt
import BankingLedger.Shared.Monitor
import BankingLedger.Shared.Runs
import Mathlib.Algebra.Order.BigOperators.Group.Multiset

set_option autoImplicit false

namespace BankingLedger

open MachineInt Monitor Runs

/-- `poisoned` is the state of the mutex around the balance. -/
structure TransferCondition where
  balance : Int64
  poisoned : Bool
deriving DecidableEq

inductive TransferConditionCall where
  | waitAndDebit (amount : Int64)
  | creditAndNotify (amount : Int64)
  | creditAndNotifyOne (amount : Int64)
deriving DecidableEq

inductive TransferConditionReply where
  | balance (balance : Int64)
  | panicked
deriving DecidableEq

abbrev TransferTurn : Type := Monitor.Turn TransferCondition Int64 TransferConditionReply

namespace TransferCondition

def new (initialBalance : Int64) : TransferCondition := { balance := initialBalance, poisoned := false }

-- A call that finds the mutex poisoned panics in `unwrap`.
def withLock (tc : TransferCondition) (turn : TransferTurn) : TransferTurn :=
  if tc.poisoned then .returns tc .quiet .panicked else turn

def waitAndDebit (amount : Int64) (tc : TransferCondition) : TransferTurn :=
  tc.withLock <|
    if tc.balance < amount then .waits amount
    else .returns { tc with balance := tc.balance - amount } .quiet (.balance (tc.balance - amount))

def credit (signal : Signal) (amount : Int64) (tc : TransferCondition) : TransferTurn :=
  tc.withLock <|
    match checkedAdd tc.balance amount with
    | none => .returns { tc with poisoned := true } .quiet .panicked
    | some balance => .returns { tc with balance } signal (.balance balance)

def creditAndNotify (amount : Int64) (tc : TransferCondition) : TransferTurn := tc.credit .all amount

def creditAndNotifyOne (amount : Int64) (tc : TransferCondition) : TransferTurn := tc.credit .one amount

def enter (tc : TransferCondition) : TransferConditionCall → TransferTurn
  | .waitAndDebit amount => tc.waitAndDebit amount
  | .creditAndNotify amount => tc.creditAndNotify amount
  | .creditAndNotifyOne amount => tc.creditAndNotifyOne amount

end TransferCondition

def transferMonitor : System TransferCondition TransferConditionCall Int64 TransferConditionReply where
  enter := TransferCondition.enter
  recheck tc amount := tc.waitAndDebit amount

abbrev TransferThreads : Type := Threads TransferCondition Int64
abbrev TransferEvent : Type := Monitor.Event TransferConditionCall Int64

def transferStart (initialBalance : Int64) : TransferThreads := .start (.new initialBalance)

/-- No waiter is left asleep that the balance covers. -/
def Rested (t : TransferThreads) : Prop :=
  t.Quiescent → ∀ amount ∈ t.asleep, t.shared.balance < amount

/-- What the woken waiters that ask for no more than `amount` are going to debit before the balance can
be left at `amount`. -/
def taken (woken : Multiset Int64) (amount : Int64) : Int :=
  ((woken.filter (· ≤ amount)).map fun a => max a.toInt 0).sum

def CoversSleepers (balance : Int64) (asleep woken : Multiset Int64) : Prop :=
  ∀ amount ∈ asleep, balance.toInt < amount.toInt + taken woken amount

/-- The woken waiters will leave too little for each of the sleepers. A poisoned mutex lets nobody
debit any more. -/
def SleepersCovered (t : TransferThreads) : Prop :=
  CoversSleepers t.shared.balance t.asleep (if t.shared.poisoned then 0 else t.woken)

def SafeDebit (t : TransferThreads) (woken : Multiset Int64) (amount : Int64) : Prop :=
  amount < 0 → amount ≤ t.shared.balance → CoversSleepers (t.shared.balance - amount) t.asleep woken

/-- The sleepers whom a notification of one does not reach are covered by the woken waiters, and a credit
that panics leaves nobody woken who was to debit. -/
def SafeEvent (t : TransferThreads) (e : TransferEvent) : Prop :=
  t.shared.poisoned = false →
    match e with
    | .call (.waitAndDebit amount) _ => SafeDebit t t.woken amount
    | .resume amount _ => SafeDebit t (t.woken.erase amount) amount
    | .call (.creditAndNotify amount) _ =>
      checkedAdd t.shared.balance amount = none → CoversSleepers t.shared.balance t.asleep 0
    | .call (.creditAndNotifyOne amount) notified =>
      match checkedAdd t.shared.balance amount, notified with
      | none, _ => CoversSleepers t.shared.balance t.asleep 0
      | some balance, some waiter => CoversSleepers balance (t.asleep.erase waiter) (waiter ::ₘ t.woken)
      | some _, none => True
    | .spurious _ => True

section Cover

variable {balance balance' amount waiter : Int64} {asleep woken : Multiset Int64}

theorem taken_nonneg (woken : Multiset Int64) (amount : Int64) : 0 ≤ taken woken amount := by
  refine Multiset.sum_nonneg fun x member => ?_
  obtain ⟨a, _, rfl⟩ := Multiset.mem_map.mp member
  exact le_max_right _ _

@[simp] theorem taken_zero : taken 0 amount = 0 := rfl

theorem taken_cons_of_le (le : waiter ≤ amount) :
    taken (waiter ::ₘ woken) amount = max waiter.toInt 0 + taken woken amount := by
  simp [taken, le]

theorem taken_cons_of_not_le (more : ¬waiter ≤ amount) :
    taken (waiter ::ₘ woken) amount = taken woken amount := by
  simp [taken, more]

theorem taken_le_cons : taken woken amount ≤ taken (waiter ::ₘ woken) amount := by
  by_cases le : waiter ≤ amount
  next =>
    rw [taken_cons_of_le le]
    have := le_max_right waiter.toInt 0
    omega
  next => rw [taken_cons_of_not_le le]

theorem CoversSleepers.less (covers : CoversSleepers balance asleep woken) (less : balance'.toInt ≤ balance.toInt) :
    CoversSleepers balance' asleep woken :=
  fun amount member => Int.lt_of_le_of_lt less (covers amount member)

theorem CoversSleepers.woke (covers : CoversSleepers balance asleep woken) :
    CoversSleepers balance asleep (waiter ::ₘ woken) :=
  fun amount member => Int.lt_of_lt_of_le (covers amount member) (Int.add_le_add_left taken_le_cons _)

theorem CoversSleepers.left (covers : CoversSleepers balance asleep woken) :
    CoversSleepers balance (asleep.erase waiter) woken :=
  fun amount member => covers amount (Multiset.mem_of_mem_erase member)

theorem CoversSleepers.slept (covers : CoversSleepers balance asleep woken) (short : balance < amount) :
    CoversSleepers balance (amount ::ₘ asleep) woken := by
  refine Multiset.forall_mem_cons.mpr ⟨?_, covers⟩
  have := Int64.lt_iff_toInt_lt.mp short
  have := taken_nonneg woken amount
  omega

-- A waiter that has got the lock back and finds too little is short for every sleeper it counted for.
theorem CoversSleepers.resleep (covers : CoversSleepers balance asleep (amount ::ₘ woken))
    (short : balance < amount) : CoversSleepers balance asleep woken := by
  intro other member
  by_cases le : amount ≤ other
  next =>
    have := Int64.lt_iff_toInt_lt.mp short
    have := Int64.le_iff_toInt_le.mp le
    have := taken_nonneg woken other
    omega
  next =>
    have before := covers other member
    rwa [taken_cons_of_not_le le] at before

theorem toInt_debit (nonneg : 0 ≤ amount) (enough : amount ≤ balance) :
    (balance - amount).toInt = balance.toInt - amount.toInt := by
  have low := Int64.le_iff_toInt_le.mp nonneg
  have high := Int64.le_iff_toInt_le.mp enough
  have := bounds balance
  rw [Int64.toInt_zero] at low
  exact toInt_sub_of_bounds (by omega) (by omega)

theorem CoversSleepers.debit (covers : CoversSleepers balance asleep (amount ::ₘ woken)) (nonneg : 0 ≤ amount)
    (enough : amount ≤ balance) : CoversSleepers (balance - amount) asleep woken := by
  intro other member
  have before := covers other member
  have low := Int64.le_iff_toInt_le.mp nonneg
  rw [Int64.toInt_zero] at low
  rw [toInt_debit nonneg enough]
  by_cases le : amount ≤ other
  next =>
    rw [taken_cons_of_le le] at before
    have := max_eq_left low
    omega
  next =>
    rw [taken_cons_of_not_le le] at before
    omega

end Cover

namespace TransferCondition

variable {tc : TransferCondition} {amount balance : Int64} {signal : Signal}

theorem withLock_poisoned (poisoned : tc.poisoned = true) (turn : TransferTurn) :
    tc.withLock turn = .returns tc .quiet .panicked := by
  rw [withLock, if_pos poisoned]

section Lock

variable (unpoisoned : tc.poisoned = false)

include unpoisoned

theorem withLock_unpoisoned (turn : TransferTurn) : tc.withLock turn = turn := by
  rw [withLock, unpoisoned, if_neg Bool.false_ne_true]

theorem waitAndDebit_short (short : tc.balance < amount) : tc.waitAndDebit amount = .waits amount := by
  rw [waitAndDebit, withLock_unpoisoned unpoisoned, if_pos short]

theorem waitAndDebit_enough (enough : amount ≤ tc.balance) : tc.waitAndDebit amount =
    .returns { tc with balance := tc.balance - amount } .quiet (.balance (tc.balance - amount)) := by
  rw [waitAndDebit, withLock_unpoisoned unpoisoned, if_neg (Int64.not_lt.mpr enough)]

theorem credit_overflow (overflow : checkedAdd tc.balance amount = none) :
    tc.credit signal amount = .returns { tc with poisoned := true } .quiet .panicked := by
  rw [credit, withLock_unpoisoned unpoisoned, overflow]

theorem credit_sum (sum : checkedAdd tc.balance amount = some balance) :
    tc.credit signal amount = .returns { tc with balance } signal (.balance balance) := by
  rw [credit, withLock_unpoisoned unpoisoned, sum]

end Lock

end TransferCondition

open TransferCondition

section Steps

variable {t : TransferThreads} {e : TransferEvent} {amount : Int64} {notified : Option Int64}
  {shared : TransferCondition} {asleep woken : Multiset Int64}

theorem covered_unpoisoned (unpoisoned : shared.poisoned = false) :
    SleepersCovered { shared, asleep, woken } ↔ CoversSleepers shared.balance asleep woken := by
  simp [SleepersCovered, unpoisoned]

theorem covered_poisoned (poisoned : shared.poisoned = true) :
    SleepersCovered { shared, asleep, woken } ↔ CoversSleepers shared.balance asleep 0 := by
  simp [SleepersCovered, poisoned]

@[simp] theorem enter_waitAndDebit (amount : Int64) :
    transferMonitor.enter shared (.waitAndDebit amount) = shared.waitAndDebit amount := rfl

@[simp] theorem enter_creditAndNotify (amount : Int64) :
    transferMonitor.enter shared (.creditAndNotify amount) = shared.credit .all amount := rfl

@[simp] theorem enter_creditAndNotifyOne (amount : Int64) :
    transferMonitor.enter shared (.creditAndNotifyOne amount) = shared.credit .one amount := rfl

@[simp] theorem recheck_eq (amount : Int64) :
    transferMonitor.recheck shared amount = shared.waitAndDebit amount := rfl

theorem enter_poisoned (poisoned : shared.poisoned = true) (c : TransferConditionCall) :
    transferMonitor.enter shared c = .returns shared .quiet .panicked := by
  cases c <;> exact withLock_poisoned poisoned _

theorem recheck_poisoned (poisoned : shared.poisoned = true) (amount : Int64) :
    transferMonitor.recheck shared amount = .returns shared .quiet .panicked :=
  withLock_poisoned poisoned _

theorem covered_next_poisoned (poisoned : t.shared.poisoned = true) (covered : SleepersCovered t) :
    SleepersCovered (transferMonitor.next t e) := by
  have covers := (covered_poisoned poisoned).mp covered
  cases e with
  | call c notified =>
    rw [System.next_call, enter_poisoned poisoned, Threads.settle_quiet]
    exact covered
  | resume amount notified =>
    rw [System.next_resume, recheck_poisoned poisoned, Threads.settle_quiet, covered_poisoned poisoned]
    exact covers
  | spurious amount =>
    rw [System.next_spurious, covered_poisoned poisoned]
    exact covers.left

theorem covered_waitAndDebit (unpoisoned : shared.poisoned = false)
    (safe : amount < 0 → amount ≤ shared.balance → CoversSleepers (shared.balance - amount) asleep woken)
    (slept : shared.balance < amount → CoversSleepers shared.balance asleep woken)
    (debited : 0 ≤ amount → amount ≤ shared.balance → CoversSleepers (shared.balance - amount) asleep woken) :
    SleepersCovered (Threads.settle { shared, asleep, woken } notified (shared.waitAndDebit amount)) := by
  by_cases short : shared.balance < amount
  next =>
    rw [waitAndDebit_short unpoisoned short, Threads.settle_waits, covered_unpoisoned unpoisoned]
    exact (slept short).slept short
  next =>
    have enough := Int64.not_lt.mp short
    have still : ({ shared with balance := shared.balance - amount } : TransferCondition).poisoned = false :=
      unpoisoned
    rw [waitAndDebit_enough unpoisoned enough, Threads.settle_quiet, covered_unpoisoned still]
    by_cases negative : amount < 0
    next => exact safe negative enough
    next => exact debited (Int64.not_lt.mp negative) enough

theorem covered_credit (unpoisoned : shared.poisoned = false) {signal : Signal}
    (overflows : checkedAdd shared.balance amount = none → CoversSleepers shared.balance asleep 0)
    (fits : ∀ balance, checkedAdd shared.balance amount = some balance →
      SleepersCovered (Threads.settle { shared, asleep, woken } notified
        (.returns { shared with balance } signal (.balance balance : TransferConditionReply)))) :
    SleepersCovered (Threads.settle { shared, asleep, woken } notified (shared.credit signal amount)) := by
  cases sum : checkedAdd shared.balance amount with
  | none =>
    rw [credit_overflow unpoisoned sum, Threads.settle_quiet, covered_poisoned rfl]
    exact overflows sum
  | some balance =>
    rw [credit_sum unpoisoned sum]
    exact fits balance sum

theorem covered_creditAndNotify (lock : t.shared.poisoned = false)
    (safe : SafeEvent t (.call (.creditAndNotify amount) notified)) :
    SleepersCovered (transferMonitor.next t (.call (.creditAndNotify amount) notified)) := by
  rw [System.next_call, enter_creditAndNotify]
  refine covered_credit lock (safe lock) fun balance _ => ?_
  have still : ({ t.shared with balance } : TransferCondition).poisoned = false := lock
  rw [Threads.settle_all, covered_unpoisoned still]
  exact fun _ member => absurd member (Multiset.notMem_zero _)

theorem covered_creditAndNotifyOne (lock : t.shared.poisoned = false) (notifies : Notifies t.asleep notified)
    (safe : SafeEvent t (.call (.creditAndNotifyOne amount) notified)) :
    SleepersCovered (transferMonitor.next t (.call (.creditAndNotifyOne amount) notified)) := by
  have safe := safe lock
  rw [System.next_call, enter_creditAndNotifyOne]
  refine covered_credit lock ?_ ?_
  · intro overflow
    simp only [overflow] at safe
    exact safe
  · intro balance sum
    have still : ({ t.shared with balance } : TransferCondition).poisoned = false := lock
    simp only [sum] at safe
    cases notified with
    | none =>
      have nobody : t.asleep = 0 := notifies
      rw [Threads.settle_one_none, covered_unpoisoned still, nobody]
      exact fun _ member => absurd member (Multiset.notMem_zero _)
    | some waiter =>
      rw [Threads.settle_one_some, covered_unpoisoned still]
      exact safe

theorem covered_next (covered : SleepersCovered t) (possible : Possible t e) (safe : SafeEvent t e) :
    SleepersCovered (transferMonitor.next t e) := by
  cases lock : t.shared.poisoned with
  | true => exact covered_next_poisoned lock covered
  | false =>
    have covers := (covered_unpoisoned lock).mp covered
    cases e with
    | spurious amount =>
      rw [System.next_spurious, covered_unpoisoned lock]
      exact covers.left.woke
    | resume amount notified =>
      have whole : amount ::ₘ t.woken.erase amount = t.woken := Multiset.cons_erase possible.1
      rw [← whole] at covers
      rw [System.next_resume, recheck_eq]
      exact covered_waitAndDebit lock (safe lock) covers.resleep covers.debit
    | call c notified =>
      cases c with
      | waitAndDebit amount =>
        rw [System.next_call, enter_waitAndDebit]
        exact covered_waitAndDebit lock (safe lock) (fun _ => covers) covers.woke.debit
      | creditAndNotify amount => exact covered_creditAndNotify lock safe
      | creditAndNotifyOne amount => exact covered_creditAndNotifyOne lock possible safe

theorem rested_of_covered (covered : SleepersCovered t) : Rested t := by
  intro quiet amount member
  have below := covered amount member
  rw [Threads.Quiescent] at quiet
  rw [quiet, ite_self, taken_zero] at below
  exact Int64.lt_iff_toInt_lt.mpr (by omega)

theorem covered_start (initialBalance : Int64) : SleepersCovered (transferStart initialBalance) :=
  fun _ member => absurd member (Multiset.notMem_zero _)

theorem rested_throughout {initialBalance : Int64} {events : List TransferEvent}
    (possible : Meets transferMonitor.next Possible (transferStart initialBalance) events)
    (safe : Meets transferMonitor.next SafeEvent (transferStart initialBalance) events) :
    Throughout transferMonitor.next Rested (transferStart initialBalance) events := by
  have covered : Throughout transferMonitor.next SleepersCovered (transferStart initialBalance) events :=
    throughout_of_meets (fun t e covered met => covered_next covered met.1 met.2) (possible.and safe)
      (covered_start initialBalance)
  exact fun first second split => rested_of_covered (covered first second split)

end Steps

section Exactness

variable {balance amount waiter : Int64} {asleep woken : Multiset Int64}

def DebitEvent : TransferEvent → Prop
  | .call (.waitAndDebit amount) _ => 0 ≤ amount
  | .resume _ _ => True
  | _ => False

def Strands (t : TransferThreads) : Prop :=
  ∃ events : List TransferEvent, (∀ e ∈ events, DebitEvent e) ∧ Meets transferMonitor.next Possible t events ∧
    ¬Rested (run transferMonitor.next t events)

theorem Strands.cons {t : TransferThreads} {e : TransferEvent} (debit : DebitEvent e) (possible : Possible t e)
    (strands : Strands (transferMonitor.next t e)) : Strands t := by
  obtain ⟨events, debits, rest, final⟩ := strands
  exact ⟨e :: events, List.forall_mem_cons.mpr ⟨debit, debits⟩, ⟨possible, rest⟩, final⟩

theorem taken_of_forall_lt (more : ∀ a ∈ woken, amount < a) : taken woken amount = 0 := by
  have none : woken.filter (· ≤ amount) = 0 :=
    Multiset.filter_eq_nil.mpr fun a member => Int64.not_le.mpr (more a member)
  rw [taken, none, Multiset.map_zero, Multiset.sum_zero]

theorem taken_erase_of_le (member : waiter ∈ woken) (le : waiter ≤ amount) (positive : 0 < waiter) :
    taken woken amount = waiter.toInt + taken (woken.erase waiter) amount := by
  have low := Int64.lt_iff_toInt_lt.mp positive
  rw [Int64.toInt_zero] at low
  have split : taken (waiter ::ₘ woken.erase waiter) amount = _ := taken_cons_of_le le
  rw [Multiset.cons_erase member, max_eq_left (Int.le_of_lt low)] at split
  exact split

section Resume

variable {member : Int64} (here : member ∈ woken) (sleeper : amount ∈ asleep)

include here sleeper

theorem Strands.debit (enough : member ≤ balance)
    (strands : Strands
      { shared := { balance := balance - member, poisoned := false }, asleep, woken := woken.erase member }) :
    Strands { shared := { balance, poisoned := false }, asleep, woken } := by
  refine Strands.cons (e := .resume member (some amount)) trivial ⟨here, sleeper⟩ ?_
  rw [System.next_resume, recheck_eq, waitAndDebit_enough rfl enough, Threads.settle_quiet]
  exact strands

theorem Strands.resleep (short : balance < member)
    (strands : Strands
      { shared := { balance, poisoned := false }, asleep := member ::ₘ asleep, woken := woken.erase member }) :
    Strands { shared := { balance, poisoned := false }, asleep, woken } := by
  refine Strands.cons (e := .resume member (some amount)) trivial ⟨here, sleeper⟩ ?_
  have turn : TransferCondition.waitAndDebit member { balance, poisoned := false } = .waits member :=
    waitAndDebit_short rfl short
  rw [System.next_resume, recheck_eq, turn, Threads.settle_waits]
  exact strands

end Resume

-- The waiters that ask for no more than the sleeper go first, so that the others find too little.
theorem strands_of_eq (positive : ∀ a ∈ woken, 0 < a) (sleeper : amount ∈ asleep)
    (left : balance.toInt = amount.toInt + taken woken amount) :
    Strands { shared := { balance, poisoned := false }, asleep, woken } := by
  induction size : woken.card generalizing balance asleep woken with
  | zero =>
    obtain rfl := Multiset.card_eq_zero.mp size
    rw [taken_zero, Int.add_zero] at left
    refine ⟨[], fun _ member => absurd member List.not_mem_nil, trivial, fun rested => ?_⟩
    have short := Int64.lt_iff_toInt_lt.mp (rested rfl amount sleeper)
    change balance.toInt < amount.toInt at short
    omega
  | succ rest ih =>
    have fewer : ∀ a ∈ woken, (woken.erase a).card = rest := fun a member => by
      rw [Multiset.card_erase_of_mem member, size, Nat.pred_eq_sub_one, Nat.add_sub_cancel]
    have others : ∀ a, ∀ b ∈ woken.erase a, 0 < b :=
      fun a b member => positive b (Multiset.mem_of_mem_erase member)
    by_cases small : ∃ a ∈ woken, a ≤ amount
    next =>
      obtain ⟨a, member, le⟩ := small
      have split := taken_erase_of_le member le (positive a member)
      have nonneg := taken_nonneg (woken.erase a) amount
      have enough : a ≤ balance := by
        have := Int64.le_iff_toInt_le.mp le
        have := Int64.lt_iff_toInt_lt.mp (positive a member)
        rw [Int64.toInt_zero] at this
        rw [Int64.le_iff_toInt_le]
        omega
      have debited : (balance - a).toInt = amount.toInt + taken (woken.erase a) amount := by
        rw [toInt_debit (Int64.le_of_lt (positive a member)) enough]
        omega
      exact Strands.debit member sleeper enough (ih (others a) sleeper debited (fewer a member))
    next =>
      have more : ∀ a ∈ woken, amount < a := fun a member => Int64.not_le.mp fun le => small ⟨a, member, le⟩
      have nobody := taken_of_forall_lt more
      obtain ⟨a, member⟩ := Multiset.card_pos_iff_exists_mem.mp (by omega : 0 < woken.card)
      have short : balance < a := by
        have := Int64.lt_iff_toInt_lt.mp (more a member)
        rw [Int64.lt_iff_toInt_lt]
        omega
      have still : balance.toInt = amount.toInt + taken (woken.erase a) amount := by
        have nobody' : taken (woken.erase a) amount = 0 :=
          taken_of_forall_lt fun b member => more b (Multiset.mem_of_mem_erase member)
        omega
      have kept := Multiset.mem_cons_of_mem (b := a) sleeper
      exact Strands.resleep member sleeper short (ih (others a) kept still (fewer a member))

theorem strands_of_not_covered {t : TransferThreads} (unpoisoned : t.shared.poisoned = false)
    (requests : t.All (0 < ·)) (bare : ¬SleepersCovered t) : Strands t := by
  cases t with
  | mk shared asleep woken =>
    obtain ⟨balance, rfl⟩ : ∃ balance, shared = { balance, poisoned := false } :=
      ⟨shared.balance, by rw [← unpoisoned]⟩
    rw [covered_unpoisoned rfl, CoversSleepers, not_forall] at bare
    obtain ⟨amount, bare⟩ := bare
    obtain ⟨sleeper, enough⟩ := Classical.not_imp.mp bare
    change ¬balance.toInt < amount.toInt + taken woken amount at enough
    have positive := Int64.lt_iff_toInt_lt.mp (requests.asleep amount sleeper)
    have nonneg := taken_nonneg woken amount
    rw [Int64.toInt_zero] at positive
    -- A call that debits the rest leaves exactly what the sleeper and the woken waiters ask for.
    let spare : Int := balance.toInt - (amount.toInt + taken woken amount)
    have inside : InRange spare := by
      have := bounds balance
      simp only [InRange, Int64.toInt_minValue, Int64.toInt_maxValue, spare]
      omega
    have exactly := toInt_ofInt_of_inRange inside
    have spareNonneg : 0 ≤ Int64.ofInt spare := by
      rw [Int64.le_iff_toInt_le, exactly, Int64.toInt_zero]
      omega
    have fits : Int64.ofInt spare ≤ balance := by
      rw [Int64.le_iff_toInt_le, exactly]
      omega
    have left : (balance - Int64.ofInt spare).toInt = amount.toInt + taken woken amount := by
      rw [toInt_debit spareNonneg fits, exactly]
      omega
    have strands : Strands
        { shared := { balance := balance - Int64.ofInt spare, poisoned := false }, asleep, woken } :=
      strands_of_eq requests.woken sleeper left
    have turn : TransferCondition.waitAndDebit (Int64.ofInt spare) { balance, poisoned := false } =
        .returns { balance := balance - Int64.ofInt spare, poisoned := false } .quiet
          (.balance (balance - Int64.ofInt spare)) :=
      waitAndDebit_enough rfl fits
    refine Strands.cons (e := .call (.waitAndDebit (Int64.ofInt spare)) (some amount)) spareNonneg sleeper ?_
    rw [System.next_call, enter_waitAndDebit, turn, Threads.settle_quiet]
    exact strands

end Exactness

def TransferConditionCall.amount : TransferConditionCall → Int64
  | .waitAndDebit amount => amount
  | .creditAndNotify amount => amount
  | .creditAndNotifyOne amount => amount

def PositiveEvent : TransferEvent → Prop
  | .call c _ => 0 < c.amount
  | _ => True

section Balance

variable {t : TransferThreads} {e : TransferEvent} {amount : Int64} {tc : TransferCondition}

def TransferTurn.balanceAfter (tc : TransferCondition) : TransferTurn → Int64
  | .waits _ => tc.balance
  | .returns shared _ _ => shared.balance

@[simp] theorem settle_balance (t : TransferThreads) (notified : Option Int64) (turn : TransferTurn) :
    (t.settle notified turn).shared.balance = TransferTurn.balanceAfter t.shared turn := by
  cases turn with
  | waits request => rfl
  | returns shared signal reply =>
    cases signal with
    | one => cases notified <;> rfl
    | _ => rfl

theorem nonneg_withLock (nonneg : 0 ≤ tc.balance) {turn : TransferTurn}
    (after : 0 ≤ TransferTurn.balanceAfter tc turn) : 0 ≤ TransferTurn.balanceAfter tc (tc.withLock turn) := by
  rw [withLock]
  by_cases poisoned : tc.poisoned = true
  next =>
    rw [if_pos poisoned]
    exact nonneg
  next =>
    rw [if_neg poisoned]
    exact after

theorem nonneg_waitAndDebit (nonneg : 0 ≤ tc.balance) (positive : 0 < amount) :
    0 ≤ TransferTurn.balanceAfter tc (tc.waitAndDebit amount) := by
  refine nonneg_withLock nonneg ?_
  by_cases short : tc.balance < amount
  next =>
    rw [if_pos short]
    exact nonneg
  next =>
    rw [if_neg short, TransferTurn.balanceAfter]
    have enough := Int64.le_iff_toInt_le.mp (Int64.not_lt.mp short)
    rw [Int64.le_iff_toInt_le, toInt_debit (Int64.le_of_lt positive) (Int64.not_lt.mp short), Int64.toInt_zero]
    omega

theorem nonneg_credit (nonneg : 0 ≤ tc.balance) (positive : 0 < amount) (signal : Signal) :
    0 ≤ TransferTurn.balanceAfter tc (tc.credit signal amount) := by
  refine nonneg_withLock nonneg ?_
  cases sum : checkedAdd tc.balance amount with
  | none => exact nonneg
  | some balance =>
    have exactly := checkedAdd_toInt sum
    have before := Int64.le_iff_toInt_le.mp nonneg
    have more := Int64.lt_iff_toInt_lt.mp positive
    rw [Int64.toInt_zero] at before more
    change 0 ≤ balance
    rw [Int64.le_iff_toInt_le, Int64.toInt_zero]
    omega

theorem waits_withLock {turn : TransferTurn} {request : Int64} (waits : tc.withLock turn = .waits request) :
    turn = .waits request := by
  rw [withLock] at waits
  by_cases poisoned : tc.poisoned = true
  next =>
    rw [if_pos poisoned] at waits
    cases waits
  next => rwa [if_neg poisoned] at waits

theorem waits_waitAndDebit {request : Int64} (waits : tc.waitAndDebit amount = .waits request) :
    request = amount := by
  have turn := waits_withLock waits
  by_cases short : tc.balance < amount
  next =>
    rw [if_pos short] at turn
    cases turn
    rfl
  next =>
    rw [if_neg short] at turn
    cases turn

theorem credit_ne_waits (signal : Signal) (request : Int64) : tc.credit signal amount ≠ .waits request := by
  intro waits
  have turn := waits_withLock waits
  cases sum : checkedAdd tc.balance amount with
  | none =>
    simp only [sum] at turn
    cases turn
  | some balance =>
    simp only [sum] at turn
    cases turn

theorem waits_enter {c : TransferConditionCall} {request : Int64} (waits : tc.enter c = .waits request) :
    request = c.amount := by
  cases c with
  | waitAndDebit amount => exact waits_waitAndDebit waits
  | creditAndNotify amount => exact absurd waits (credit_ne_waits _ _)
  | creditAndNotifyOne amount => exact absurd waits (credit_ne_waits _ _)

structure NonNegative (t : TransferThreads) : Prop where
  balance : 0 ≤ t.shared.balance
  requests : t.All (0 < ·)

theorem nonNegative_start {initialBalance : Int64} (nonneg : 0 ≤ initialBalance) :
    NonNegative (transferStart initialBalance) :=
  ⟨nonneg, Threads.all_start _⟩

theorem nonneg_next (nonNegative : NonNegative t) (possible : Possible t e) (positive : PositiveEvent e) :
    0 ≤ (transferMonitor.next t e).shared.balance := by
  cases e with
  | call c notified =>
    rw [System.next_call, settle_balance]
    cases c with
    | waitAndDebit amount => exact nonneg_waitAndDebit nonNegative.balance positive
    | creditAndNotify amount => exact nonneg_credit nonNegative.balance positive _
    | creditAndNotifyOne amount => exact nonneg_credit nonNegative.balance positive _
  | resume request notified =>
    rw [System.next_resume, settle_balance]
    exact nonneg_waitAndDebit nonNegative.balance (nonNegative.requests.woken request possible.1)
  | spurious request => exact nonNegative.balance

theorem nonNegative_next (nonNegative : NonNegative t) (possible : Possible t e) (positive : PositiveEvent e) :
    NonNegative (transferMonitor.next t e) where
  balance := nonneg_next nonNegative possible positive
  requests := by
    refine nonNegative.requests.next possible ?_ ?_
    · rintro c notified rfl request waits
      rw [waits_enter waits]
      exact positive
    · intro request more request' waits
      rw [waits_waitAndDebit waits]
      exact more

theorem nonneg_throughout {initialBalance : Int64} {events : List TransferEvent}
    (possible : Meets transferMonitor.next Possible (transferStart initialBalance) events)
    (nonneg : 0 ≤ initialBalance) (positive : ∀ e ∈ events, PositiveEvent e) :
    Throughout transferMonitor.next (fun t => 0 ≤ t.shared.balance) (transferStart initialBalance) events := by
  have all : Throughout transferMonitor.next NonNegative (transferStart initialBalance) events :=
    throughout_of_meets (fun t e nonNegative met => nonNegative_next nonNegative met.1 met.2)
      (possible.and (meets_of_forall_mem _ events fun _ => positive)) (nonNegative_start nonneg)
  exact fun first second split => (all first second split).balance

end Balance

section Evaluation

-- Through the members of the multiset, since there are finitely many `Int64` as well.
instance (t : TransferThreads) : Decidable (Rested t) :=
  have : Decidable (∀ amount ∈ t.asleep, t.shared.balance < amount) := Multiset.decidableForallMultiset
  inferInstanceAs (Decidable (t.Quiescent → _))

instance (balance : Int64) (asleep woken : Multiset Int64) : Decidable (CoversSleepers balance asleep woken) :=
  Multiset.decidableForallMultiset

instance (t : TransferThreads) (woken : Multiset Int64) (amount : Int64) : Decidable (SafeDebit t woken amount) :=
  inferInstanceAs (Decidable (amount < 0 → amount ≤ t.shared.balance →
    CoversSleepers (t.shared.balance - amount) t.asleep woken))

end Evaluation

/-- Where a credit that notifies one waiter leaves no other that could debit, nobody is left asleep that
the balance covers. -/
theorem waiters_rested (initialBalance : Int64) (events : List TransferEvent)
    (possible : Meets transferMonitor.next Possible (transferStart initialBalance) events) :
    (Meets transferMonitor.next SafeEvent (transferStart initialBalance) events →
      Throughout transferMonitor.next Rested (transferStart initialBalance) events) ∧
    (0 ≤ initialBalance → (∀ e ∈ events, PositiveEvent e) →
      Throughout transferMonitor.next (fun t => 0 ≤ t.shared.balance) (transferStart initialBalance) events) :=
  ⟨rested_throughout possible, nonneg_throughout possible⟩

-- The credit of 5 is enough for neither, and the one of 15 is shared.
def sharedCredit : List TransferEvent :=
  [.call (.waitAndDebit 10) none, .call (.waitAndDebit 6) (some 10), .call (.creditAndNotifyOne 5) (some 10),
    .resume 10 (some 6), .call (.creditAndNotify 15) (some 10), .resume 10 none, .resume 6 none]

theorem waiters_rested_sharedCredit :
    Throughout transferMonitor.next Rested (transferStart 0) sharedCredit ∧
      Throughout transferMonitor.next (fun t => 0 ≤ t.shared.balance) (transferStart 0) sharedCredit :=
  have possible : Meets transferMonitor.next Possible (transferStart 0) sharedCredit := by decide
  have safe : Meets transferMonitor.next SafeEvent (transferStart 0) sharedCredit :=
    ⟨fun _ => (by decide : SafeDebit _ _ 10), fun _ => (by decide : SafeDebit _ _ 6),
      fun _ => (by decide : CoversSleepers 5 {6} {10}), fun _ => (by decide : SafeDebit _ _ 10),
      fun _ overflow => absurd overflow (by decide), fun _ => (by decide : SafeDebit _ _ 10),
      fun _ => (by decide : SafeDebit _ _ 6), trivial⟩
  have positive : ∀ e ∈ sharedCredit, PositiveEvent e := by
    simp [sharedCredit, PositiveEvent, TransferConditionCall.amount]
  have both := waiters_rested 0 sharedCredit possible
  ⟨both.1 safe, both.2 (by decide) positive⟩

def misdirectedCredit : List TransferEvent :=
  [.call (.waitAndDebit 10) none, .call (.waitAndDebit 1) (some 10), .call (.creditAndNotifyOne 5) (some 10),
    .resume 10 (some 1)]

theorem waiter_sleeps_on_funds :
    Meets transferMonitor.next Possible (transferStart 0) misdirectedCredit ∧
      ¬Throughout transferMonitor.next Rested (transferStart 0) misdirectedCredit := by
  rw [throughout_iff]
  decide

end BankingLedger
