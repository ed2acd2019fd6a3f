import BankingLedger.Service.Postings

set_option autoImplicit false

namespace BankingLedger

open FiniteMap MachineInt Interleaving
open Account (Moved)

def atAccount {P : Type} (step : Account → P → Option (Account × P)) (missing : P) (id : AccountId)
    (accounts : Accounts) (pc : P) : Option (Accounts × P) :=
  match accounts.lookup id with
  | none => some (accounts, missing)
  | some a => (step a pc).map fun next => (accounts.insert id next.1, next.2)

def debitAt (id : AccountId) (amountCents : Int64) : Accounts → DebitPc → Option (Accounts × DebitPc) :=
  atAccount (debitStep amountCents) (.returned (.error (.accountNotFound id))) id

def creditAt (id : AccountId) (amountCents : Int64) :
    Accounts → CreditPc → Option (Accounts × CreditPc) :=
  atAccount (creditStep amountCents) (.returned (.error (.accountNotFound id))) id

section Alone

theorem debit_reaches (amount : Int64) (a : Account) :
    System.Reaches ⟨debitStep amount⟩ (a, .start)
      ((a.debit amount).2, .returned (a.debit amount).1) := by
  rw [← debit_alone]
  exact System.Reaches.solo 4 _

theorem credit_reaches (amount : Int64) (a : Account) :
    System.Reaches ⟨creditStep amount⟩ (a, .start)
      ((a.credit amount).2, .returned (a.credit amount).1) := by
  rw [← credit_alone]
  exact System.Reaches.solo 5 _

variable {P T M E A : Type} {step : Account → P → Option (Account × P)} {outer : System T M}
  {id : AccountId} {accounts : Accounts}

theorem atAccount_reaches (view : Accounts × P → T × M)
    (each : ∀ accounts a pc a' pc', accounts.lookup id = some a → step a pc = some (a', pc') →
      outer.step (view (accounts, pc)).1 (view (accounts, pc)).2 =
        some (view (accounts.insert id a', pc')))
    {a a' : Account} {pc pc' : P} (found : accounts.lookup id = some a)
    (inner : System.Reaches ⟨step⟩ (a, pc) (a', pc')) :
    outer.Reaches (view (accounts, pc)) (view (accounts.insert id a', pc')) := by
  have lifted : outer.Reaches (view (accounts.insert id a, pc)) (view (accounts.insert id a', pc')) := by
    apply inner.lift fun now => view (accounts.insert id now.1, now.2)
    rintro b pc ⟨b', pc'⟩ taken
    have moved := each (accounts.insert id b) b pc b' pc' (by simp) taken
    rwa [Finmap.insert_insert] at moved
  rwa [insert_lookup_self found] at lifted

-- An operation of the service is its steps on the account, when nothing comes between them.
theorem onAccount_reaches {operation : Account → Except E A × Account} {returned : Except E A → P}
    {start : P} {notFound : AccountId → E} (view : Accounts × P → T × M)
    (alone : ∀ a, System.Reaches ⟨step⟩ (a, start) ((operation a).2, returned (operation a).1))
    (stays : ∀ a result, step a (returned result) = none) (begins : ∀ result, start ≠ returned result)
    (each : ∀ accounts pc next, (∀ result, pc ≠ returned result) →
      atAccount step (returned (.error (notFound id))) id accounts pc = some next →
      outer.step (view (accounts, pc)).1 (view (accounts, pc)).2 = some (view next)) :
    outer.Reaches (view (accounts, start))
      (view ((AccountService.onAccount notFound operation accounts id).2,
        returned (AccountService.onAccount notFound operation accounts id).1)) := by
  unfold AccountService.onAccount
  cases found : accounts.lookup id with
  | none =>
    apply System.Reaches.step _ (.refl _)
    exact each accounts start _ begins (by simp [atAccount, found])
  | some a =>
    apply atAccount_reaches view _ found (alone a)
    intro accounts b pc b' pc' found taken
    apply each accounts pc
    · rintro result rfl
      rw [stays] at taken
      cases taken
    · simp [atAccount, found, taken]

end Alone

def SameStatus (accounts accounts' : Accounts) : Prop :=
  ∀ id, Option.Rel (fun a a' => a'.status = a.status) (accounts.lookup id) (accounts'.lookup id)

def NonnegAvailable (accounts : Accounts) : Prop :=
  ∀ id a, accounts.lookup id = some a → 0 ≤ a.availableBalance.toInt

def only (id : AccountId) (amount : Int) (other : AccountId) : Int :=
  if other = id then amount else 0

@[simp] theorem only_self (id : AccountId) (amount : Int) : only id amount id = amount := by
  simp [only]

@[simp] theorem only_zero (id other : AccountId) : only id 0 other = 0 := by simp [only]

theorem only_sub (id other : AccountId) (a b : Int) :
    only id (a - b) other = only id a other - only id b other := by
  unfold only; split <;> simp

theorem only_nonneg {id : AccountId} {amount : Int} (nonneg : 0 ≤ amount) (other : AccountId) :
    0 ≤ only id amount other := by
  unfold only; split <;> omega

theorem sum_only {keys : Finset AccountId} {id : AccountId} (present : id ∈ keys) (amount : Int) :
    ∑ other ∈ keys, only id amount other = amount := by
  simp [only, Finset.sum_ite_eq', present]

theorem SameStatus.refl (accounts : Accounts) : SameStatus accounts accounts := by
  intro id
  cases accounts.lookup id with
  | none => exact .none
  | some a => exact .some rfl

theorem SameStatus.insert {accounts : Accounts} {id : AccountId} {a a' : Account}
    (found : accounts.lookup id = some a) (same : a'.status = a.status) :
    SameStatus accounts (accounts.insert id a') := by
  intro other
  rw [lookup_insert_eq]
  split
  · rename_i here
    subst here
    rw [found]
    exact .some same
  · exact refl accounts other

theorem NonnegAvailable.insert {accounts : Accounts} {id : AccountId} {a' : Account}
    (nonneg : NonnegAvailable accounts) (here : 0 ≤ a'.availableBalance.toInt) :
    NonnegAvailable (accounts.insert id a') := by
  intro other b found
  rcases lookup_insert_cases found with ⟨-, rfl⟩ | before
  · exact here
  · exact nonneg other b before

structure RegistryStep (balance available : AccountId → Int) (accounts accounts' : Accounts) : Prop where
  moved : AccountsMoved accounts accounts' balance available
  status : SameStatus accounts accounts'
  nonneg : NonnegAvailable accounts → NonnegAvailable accounts'

theorem RegistryStep.unchanged {balance available : AccountId → Int} (accounts : Accounts)
    (balanceStill : ∀ id, balance id = 0) (availableStill : ∀ id, available id = 0) :
    RegistryStep balance available accounts accounts := by
  obtain rfl : balance = fun _ => 0 := funext balanceStill
  obtain rfl : available = fun _ => 0 := funext availableStill
  exact ⟨AccountsMoved.refl accounts, SameStatus.refl accounts, fun nonneg => nonneg⟩

theorem RegistryStep.insert {accounts : Accounts} {id : AccountId} {a a' : Account}
    {balance available : Int} (found : accounts.lookup id = some a)
    (moved : Moved a a' balance available) (status : a'.status = a.status)
    (nonneg : 0 ≤ a.availableBalance.toInt → 0 ≤ a'.availableBalance.toInt) :
    RegistryStep (only id balance) (only id available) accounts (accounts.insert id a') :=
  ⟨AccountsMoved.insert found moved, SameStatus.insert found status,
    fun all => all.insert (nonneg (all id a found))⟩

section Steps

variable {accounts accounts' : Accounts} {id : AccountId} {amount : Int64}

-- The step on the registry, from what the step does to the account it finds. A missing account
-- ends an operation that has applied nothing yet.
theorem atAccount_spec {P : Type} {inner : Account → P → Option (Account × P)} {missing : P}
    {balance available : P → Int} {pc pc' : P} {WF : P → Prop}
    (step : atAccount inner missing id accounts pc = some (accounts', pc'))
    (absent : accounts.lookup id = none → WF missing ∧ balance missing - balance pc = 0 ∧
      available missing - available pc = 0)
    (found : ∀ a a' pc', accounts.lookup id = some a → inner a pc = some (a', pc') →
      WF pc' ∧ Moved a a' (balance pc' - balance pc) (available pc' - available pc) ∧
        a'.status = a.status ∧ (0 ≤ a.availableBalance.toInt → 0 ≤ a'.availableBalance.toInt)) :
    WF pc' ∧ RegistryStep (only id (balance pc' - balance pc))
      (only id (available pc' - available pc)) accounts accounts' := by
  unfold atAccount at step
  cases here : accounts.lookup id with
  | none =>
    simp only [here, Option.some.injEq, Prod.mk.injEq] at step
    obtain ⟨rfl, rfl⟩ := step
    obtain ⟨wf, balanceStill, availableStill⟩ := absent here
    refine ⟨wf, RegistryStep.unchanged accounts (fun other => ?_) fun other => ?_⟩
    · rw [balanceStill, only_zero]
    · rw [availableStill, only_zero]
  | some a =>
    simp only [here, Option.map_eq_some_iff] at step
    obtain ⟨⟨a', pc''⟩, taken, same⟩ := step
    cases same
    obtain ⟨wf, moved, status, nonneg⟩ := found a a' pc'' here taken
    exact ⟨wf, RegistryStep.insert here moved status nonneg⟩

theorem debitAt_spec {pc pc' : DebitPc} (wf : pc.WF amount)
    (present : pc = .start ∨ (accounts.lookup id).isSome)
    (step : debitAt id amount accounts pc = some (accounts', pc'))
    (floor : pc = .subtract → ∀ a, accounts.lookup id = some a → amount.toInt ≤ a.balance.toInt) :
    pc'.WF amount ∧
      RegistryStep (only id (pc'.appliedBalance amount - pc.appliedBalance amount))
        (only id (pc'.appliedAvailable amount - pc.appliedAvailable amount)) accounts accounts' := by
  apply atAccount_spec step
  · intro absent
    obtain rfl : pc = .start := by simpa [absent] using present
    exact ⟨trivial, rfl, rfl⟩
  · intro a a' pc'' found taken
    apply debitStep_spec wf taken
    intro at_pc
    have covered := floor at_pc a found
    omega

theorem creditAt_spec {pc pc' : CreditPc} (wf : pc.WF amount)
    (present : pc = .start ∨ (accounts.lookup id).isSome)
    (step : creditAt id amount accounts pc = some (accounts', pc'))
    (room : ∀ newBalance, pc = .loadAvailable newBalance → ∀ a, accounts.lookup id = some a →
      a.availableBalance.toInt + amount.toInt ≤ 9223372036854775807) :
    pc'.WF amount ∧
      RegistryStep (only id (pc'.appliedBalance amount - pc.appliedBalance amount))
        (only id (pc'.appliedAvailable amount - pc.appliedAvailable amount)) accounts accounts' := by
  apply atAccount_spec step
  · intro absent
    obtain rfl : pc = .start := by simpa [absent] using present
    exact ⟨trivial, rfl, rfl⟩
  · intro a a' pc'' found taken
    apply creditStep_spec wf taken
    intro newBalance at_pc
    exact room newBalance at_pc a found

theorem creditAt_found {pc pc' : CreditPc}
    (step : creditAt id amount accounts pc = some (accounts', pc')) :
    (accounts.lookup id).isSome ∨ pc' = .returned (.error (.accountNotFound id)) := by
  unfold creditAt atAccount at step
  cases found : accounts.lookup id with
  | none =>
    simp only [found, Option.some.injEq, Prod.mk.injEq] at step
    exact .inr step.2.symm
  | some a => exact .inl rfl

theorem creditAt_succeeds {pc : CreditPc} {result : Except CreditError Int64}
    (positive : 0 < amount.toInt) (present : (accounts.lookup id).isSome)
    (step : creditAt id amount accounts pc = some (accounts', .returned result))
    (isOpen : pc = .start → ∀ a, accounts.lookup id = some a → a.status = .Open)
    (balanceRoom : pc = .loadBalance → ∀ a, accounts.lookup id = some a →
      a.balance.toInt + amount.toInt ≤ 9223372036854775807)
    (availableRoom : ∀ newBalance, pc = .loadAvailable newBalance → ∀ a,
      accounts.lookup id = some a →
      a.availableBalance.toInt + amount.toInt ≤ 9223372036854775807) :
    ∃ newBalance, result = .ok newBalance := by
  cases result with
  | ok newBalance => exact ⟨newBalance, rfl⟩
  | error e =>
    obtain ⟨a, found⟩ := Option.isSome_iff_exists.mp present
    unfold creditAt atAccount at step
    simp only [found, Option.map_eq_some_iff] at step
    obtain ⟨⟨a', pc''⟩, inner, same⟩ := step
    cases same
    have := bounds a.balance
    have := bounds a.availableBalance
    rcases creditStep_fails inner with ⟨rfl, nonpositive | notOpen⟩ | ⟨rfl, overflow⟩ |
      ⟨newBalance, rfl, overflow⟩
    · have := nonpos_iff.mp nonpositive
      omega
    · exact absurd (isOpen rfl a found) notOpen
    · have := checkedAdd_eq_none_iff.mp overflow
      have := balanceRoom rfl a found
      omega
    · have := checkedAdd_eq_none_iff.mp overflow
      have := availableRoom newBalance rfl a found
      omega

end Steps

theorem AccountsMoved.present_iff {accounts accounts' : Accounts} {b v : AccountId → Int}
    (moved : AccountsMoved accounts accounts' b v) (id : AccountId) :
    id ∈ accounts.keys ↔ (accounts'.lookup id).isSome := by
  rw [← moved.keys, mem_keys_iff]

theorem AccountsMoved.values {accounts accounts' : Accounts} {b v : AccountId → Int}
    (moved : AccountsMoved accounts accounts' b v) (id : AccountId) :
    valueAt (fun a => a.balance.toInt) accounts' id =
        valueAt (fun a => a.balance.toInt) accounts id +
          (if (accounts.lookup id).isSome then b id else 0) ∧
      valueAt (fun a => a.availableBalance.toInt) accounts' id =
        valueAt (fun a => a.availableBalance.toInt) accounts id +
          (if (accounts.lookup id).isSome then v id else 0) := by
  have related := moved id
  cases before : accounts.lookup id <;> cases after : accounts'.lookup id <;>
    rw [before, after] at related <;> cases related
  · simp [before, after]
  · rename_i one
    simp [before, after, one.balance, one.available]

section Threads

variable {I : Type} [Fintype I] {base accounts accounts' : Accounts}
  {balance available : I → AccountId → Int}

theorem AccountsMoved.inFlight_le
    (moved : AccountsMoved base accounts (fun id => ∑ i, balance i id) (fun id => ∑ i, available i id))
    (covered : Covered base) (i : I) {id : AccountId} (ahead : ∀ j, available j id ≤ balance j id)
    {a : Account} (found : accounts.lookup id = some a) :
    a.availableBalance.toInt + (balance i id - available i id) ≤ a.balance.toInt := by
  obtain ⟨a₀, before, one⟩ := moved.lookup found
  have start := covered id a₀ before
  have own : balance i id - available i id ≤ ∑ j, (balance j id - available j id) := by
    apply Finset.single_le_sum (f := fun j => balance j id - available j id)
    · intro j _
      have := ahead j
      omega
    · exact Finset.mem_univ i
  rw [Finset.sum_sub_distrib] at own
  have := one.balance
  have := one.available
  omega

theorem AccountsMoved.fire {L : Type} [DecidableEq I] {balance available : L → AccountId → Int}
    {thread : I → L} {i : I} {l : L}
    (moved : AccountsMoved base accounts (fun id => ∑ i, balance (thread i) id)
      (fun id => ∑ i, available (thread i) id))
    (step : AccountsMoved accounts accounts' (fun id => balance l id - balance (thread i) id)
      (fun id => available l id - available (thread i) id)) :
    AccountsMoved base accounts' (fun id => ∑ j, balance (Function.update thread i l j) id)
      (fun id => ∑ j, available (Function.update thread i l j) id) := by
  have total := moved.trans step
  simp only [fun id => sum_update (fun _ l => balance l id) thread i l,
    fun id => sum_update (fun _ l => available l id) thread i l]
  exact total

-- The steps of one thread add to a cell of an account what the thread has applied to it; an account
-- that is not in the registry stays out of it.
omit [Fintype I] in
theorem effect_on_cell {S L : Type} [DecidableEq I] (sys : System S L) (registry : S → Accounts)
    {condition : Config I S L → I → Prop} {Inv : Config I S L → Prop} {keys : Finset AccountId}
    (cell : Account → Int) (applied : L → AccountId → Int)
    (keep : ∀ c i s l, Inv c → condition c i → sys.step c.shared (c.thread i) = some (s, l) →
      Inv { shared := s, thread := Function.update c.thread i l })
    (present : ∀ c, Inv c → ∀ id, id ∈ keys ↔ ((registry c.shared).lookup id).isSome)
    (values : ∀ c i s l, Inv c → condition c i → sys.step c.shared (c.thread i) = some (s, l) →
      ∀ id, valueAt cell (registry s) id = valueAt cell (registry c.shared) id +
        if ((registry c.shared).lookup id).isSome then applied l id - applied (c.thread i) id else 0)
    (i : I) (c : Config I S L) (schedule : List I) (meets : sys.RunMeets condition c schedule)
    (start : Inv c) (id : AccountId) :
    sys.effect (fun s => valueAt cell (registry s) id) i c schedule =
      if id ∈ keys then applied ((sys.run c schedule).thread i) id - applied (c.thread i) id else 0 := by
  rw [sys.effect_eq _ (fun l => if id ∈ keys then applied l id else 0) keep ?_ i c schedule meets start]
  · split <;> simp
  · intro c j s l inv met step
    rw [values c j s l inv met step id]
    simp only [← present c inv]
    split <;> simp

end Threads

end BankingLedger
