import BankingLedger.Service.AccountService
import BankingLedger.Service.SagaRuns

set_option autoImplicit false

namespace BankingLedger

open FiniteMap MachineInt

section Execution

def okAccounts {E A : Type} : Except E A × Accounts → Option Accounts
  | (.ok _, accounts) => some accounts
  | (.error _, _) => none

/-- The caller's execution of an action by the account operation of its name, `none` unless that
returns `Ok`. A call to another service is no account operation. -/
def SagaAction.execute (accounts : Accounts) : SagaAction → Option Accounts
  | .debit id amount => okAccounts (AccountService.performDebit accounts id amount)
  | .credit id amount => okAccounts (AccountService.performCredit accounts id amount)
  | .hold id amount => okAccounts (AccountService.placeHold accounts id amount)
  | .releaseHold id amount => okAccounts (AccountService.releaseHold accounts id amount)
  | .externalCall .. => none
  | .noOp => some accounts

def executeAll (accounts : Accounts) (actions : List SagaAction) : Option Accounts :=
  actions.foldlM SagaAction.execute accounts

/-- The caller's loop: `k` times the next action is executed and reported as successful. -/
def drive (id : SagaId) : Nat → SagaOrchestrator → Accounts → Option (SagaOrchestrator × Accounts)
  | 0, o, accounts => some (o, accounts)
  | k + 1, o, accounts =>
    match o.nextAction id with
    | some (.ok (_, action)) =>
      match action.execute accounts, o.stepSucceeded id with
      | some accounts', some (.ok _, o') => drive id k o' accounts'
      | _, _ => none
    | _ => none

end Execution

inductive SagaStep.Invertible : SagaStep → Prop
  | noOp : Invertible ⟨.noOp, .noOp⟩
  | debit (id : AccountId) (amount : Int64) : Invertible ⟨.debit id amount, .credit id amount⟩
  | credit (id : AccountId) (amount : Int64) : Invertible ⟨.credit id amount, .debit id amount⟩
  | hold (id : AccountId) (amount : Int64) : Invertible ⟨.hold id amount, .releaseHold id amount⟩
  | releaseHold (id : AccountId) (amount : Int64) : Invertible ⟨.releaseHold id amount, .hold id amount⟩

structure Account.InFunds (a : Account) : Prop where
  isOpen : a.status = .Open
  nonnegative : 0 ≤ a.availableBalance.toInt
  covered : a.availableBalance.toInt ≤ a.balance.toInt

def InFunds (accounts : Accounts) : Prop := ∀ id a, accounts.lookup id = some a → a.InFunds

section Inverses

def TakesBack {E F A B : Type} (forward : Account → Except E A × Account)
    (backward : Account → Except F B × Account) : Prop :=
  ∀ a v b, a.InFunds → forward a = (.ok v, b) → b.InFunds ∧ ∃ w, backward b = (.ok w, a)

theorem credit_takesBack_debit (amount : Int64) : TakesBack (·.debit amount) (·.credit amount) := by
  intro a v b inFunds done
  obtain ⟨isOpen, nonnegative, covered⟩ := inFunds
  by_cases passes : a.DebitPasses amount
  · simp only [Account.debit_of_passes passes, Prod.mk.injEq] at done
    obtain ⟨-, rfl⟩ := done
    have positive := pos_iff.mp passes.1
    have enough := Int64.le_iff_toInt_le.mp passes.2.2
    have balance : (a.shift (-amount)).balance.toInt = a.balance.toInt - amount.toInt :=
      toInt_add_neg positive (by omega)
    have available : (a.shift (-amount)).availableBalance.toInt = a.availableBalance.toInt - amount.toInt :=
      toInt_add_neg positive enough
    have bounds := bounds a.balance
    have back : (a.shift (-amount)).CreditPasses amount :=
      ⟨passes.1, isOpen, isSome_checkedAdd.mpr (by omega), isSome_checkedAdd.mpr (by omega)⟩
    refine ⟨⟨isOpen, by omega, by omega⟩, (a.shift (-amount)).balance + amount, ?_⟩
    change (a.shift (-amount)).credit amount = _
    rw [Account.credit_of_passes back, Account.shift_shift, Int64.add_left_neg, Account.shift_zero]
  · obtain ⟨e, refused⟩ := Account.debit_of_refused passes
    simp only [refused, Prod.mk.injEq, reduceCtorEq, false_and] at done

theorem debit_takesBack_credit (amount : Int64) : TakesBack (·.credit amount) (·.debit amount) := by
  intro a v b inFunds done
  obtain ⟨isOpen, nonnegative, covered⟩ := inFunds
  by_cases passes : a.CreditPasses amount
  · simp only [Account.credit_of_passes passes, Prod.mk.injEq] at done
    obtain ⟨-, rfl⟩ := done
    have positive := pos_iff.mp passes.1
    obtain ⟨_, balanceSum⟩ := Option.isSome_iff_exists.mp passes.2.2.1
    obtain ⟨_, availableSum⟩ := Option.isSome_iff_exists.mp passes.2.2.2
    obtain ⟨low, high, -⟩ := checkedAdd_eq_some_iff.mp balanceSum
    obtain ⟨low', high', -⟩ := checkedAdd_eq_some_iff.mp availableSum
    have balance : (a.shift amount).balance.toInt = a.balance.toInt + amount.toInt :=
      toInt_add_of_bounds low high
    have available : (a.shift amount).availableBalance.toInt = a.availableBalance.toInt + amount.toInt :=
      toInt_add_of_bounds low' high'
    have back : (a.shift amount).DebitPasses amount :=
      ⟨passes.1, isOpen, Int64.le_iff_toInt_le.mpr (by omega)⟩
    refine ⟨⟨isOpen, by omega, by omega⟩, (a.shift amount).balance - amount, ?_⟩
    change (a.shift amount).debit amount = _
    rw [Account.debit_of_passes back, Account.shift_shift, Int64.add_right_neg, Account.shift_zero]
  · by_cases strands : a.CreditStrands amount
    · simp only [Account.credit_of_strands strands, Prod.mk.injEq, reduceCtorEq, false_and] at done
    · obtain ⟨e, refused⟩ := Account.credit_of_refused passes strands
      simp only [refused, Prod.mk.injEq, reduceCtorEq, false_and] at done

theorem releaseHold_takesBack_placeHold (amount : Int64) :
    TakesBack (·.placeHold amount) (·.releaseHold amount) := by
  intro a v b inFunds done
  obtain ⟨isOpen, nonnegative, covered⟩ := inFunds
  by_cases passes : a.DebitPasses amount
  · simp only [Account.placeHold_of_passes passes, Prod.mk.injEq] at done
    obtain ⟨-, rfl⟩ := done
    have positive := pos_iff.mp passes.1
    have enough := Int64.le_iff_toInt_le.mp passes.2.2
    have available : (a.earmark (-amount)).availableBalance.toInt = a.availableBalance.toInt - amount.toInt :=
      toInt_add_neg positive enough
    have balance : (a.earmark (-amount)).balance.toInt = a.balance.toInt := rfl
    have undone : (a.earmark (-amount)).earmark amount = a := by
      rw [Account.earmark_earmark, Int64.add_left_neg, Account.earmark_zero]
    have held : (a.earmark (-amount)).availableBalance + amount = a.availableBalance :=
      congrArg Account.availableBalance undone
    have bounds := bounds a.availableBalance
    have back : (a.earmark (-amount)).ReleasePasses amount := by
      refine ⟨passes.1, isOpen, isSome_checkedAdd.mpr (by omega), ?_⟩
      rw [held]
      exact Int64.le_iff_toInt_le.mpr covered
    refine ⟨⟨isOpen, by omega, by omega⟩, (), ?_⟩
    change (a.earmark (-amount)).releaseHold amount = _
    rw [Account.releaseHold_of_passes back, undone]
  · obtain ⟨e, refused⟩ := Account.placeHold_of_refused passes
    simp only [refused, Prod.mk.injEq, reduceCtorEq, false_and] at done

theorem placeHold_takesBack_releaseHold (amount : Int64) :
    TakesBack (·.releaseHold amount) (·.placeHold amount) := by
  intro a v b inFunds done
  obtain ⟨isOpen, nonnegative, covered⟩ := inFunds
  by_cases passes : a.ReleasePasses amount
  · simp only [Account.releaseHold_of_passes passes, Prod.mk.injEq] at done
    obtain ⟨-, rfl⟩ := done
    have positive := pos_iff.mp passes.1
    obtain ⟨_, sum⟩ := Option.isSome_iff_exists.mp passes.2.2.1
    obtain ⟨low, high, -⟩ := checkedAdd_eq_some_iff.mp sum
    have held := Int64.le_iff_toInt_le.mp passes.2.2.2
    have available : (a.earmark amount).availableBalance.toInt = a.availableBalance.toInt + amount.toInt :=
      toInt_add_of_bounds low high
    have back : (a.earmark amount).DebitPasses amount :=
      ⟨passes.1, isOpen, Int64.le_iff_toInt_le.mpr (by omega)⟩
    refine ⟨⟨isOpen, by omega, held⟩, (), ?_⟩
    change (a.earmark amount).placeHold amount = _
    rw [Account.placeHold_of_passes back, Account.earmark_earmark, Int64.add_right_neg,
      Account.earmark_zero]
  · obtain ⟨e, refused⟩ := Account.releaseHold_of_refused passes
    simp only [refused, Prod.mk.injEq, reduceCtorEq, false_and] at done

variable {accounts accounts' : Accounts}

theorem okAccounts_onAccount {E A : Type} {notFound : AccountId → E}
    {operation : Account → Except E A × Account} {id : AccountId} :
    okAccounts (AccountService.onAccount notFound operation accounts id) = some accounts' ↔
      ∃ a v b, accounts.lookup id = some a ∧ operation a = (.ok v, b) ∧ accounts' = accounts.insert id b := by
  unfold AccountService.onAccount
  cases found : accounts.lookup id with
  | none => simp [okAccounts]
  | some a =>
    rcases done : operation a with ⟨result, b⟩
    cases result with
    | error e => simp [okAccounts, done]
    | ok v => simp [okAccounts, done, eq_comm]

theorem TakesBack.onAccount {E F A B : Type} {forward : Account → Except E A × Account}
    {backward : Account → Except F B × Account} (takesBack : TakesBack forward backward)
    {missing : AccountId → E} {missing' : AccountId → F} {id : AccountId} (inFunds : InFunds accounts)
    (done : okAccounts (AccountService.onAccount missing forward accounts id) = some accounts') :
    InFunds accounts' ∧ okAccounts (AccountService.onAccount missing' backward accounts' id) = some accounts := by
  obtain ⟨a, v, b, found, forwards, rfl⟩ := okAccounts_onAccount.mp done
  obtain ⟨after, w, backwards⟩ := takesBack a v b (inFunds id a found) forwards
  constructor
  · intro other c found'
    rcases lookup_insert_cases found' with ⟨-, rfl⟩ | before
    · exact after
    · exact inFunds other c before
  · refine okAccounts_onAccount.mpr ⟨b, w, a, Finmap.lookup_insert _, backwards, ?_⟩
    rw [Finmap.insert_insert, insert_lookup_self found]

theorem SagaStep.Invertible.takesBack {step : SagaStep} (invertible : step.Invertible)
    (inFunds : InFunds accounts) (done : step.action.execute accounts = some accounts') :
    InFunds accounts' ∧ step.compensation.execute accounts' = some accounts := by
  cases invertible with
  | noOp =>
    cases done
    exact ⟨inFunds, rfl⟩
  | debit id amount => exact (credit_takesBack_debit amount).onAccount inFunds done
  | credit id amount => exact (debit_takesBack_credit amount).onAccount inFunds done
  | hold id amount => exact (releaseHold_takesBack_placeHold amount).onAccount inFunds done
  | releaseHold id amount => exact (placeHold_takesBack_releaseHold amount).onAccount inFunds done

theorem executeAll_compensations {steps : List SagaStep} (invertible : ∀ step ∈ steps, step.Invertible)
    (inFunds : InFunds accounts) (done : executeAll accounts (steps.map SagaStep.action) = some accounts') :
    executeAll accounts' (steps.map SagaStep.compensation).reverse = some accounts := by
  induction steps generalizing accounts with
  | nil =>
    cases done
    rfl
  | cons step rest ih =>
    rw [List.forall_mem_cons] at invertible
    obtain ⟨middle, first, later⟩ := Option.bind_eq_some_iff.mp done
    obtain ⟨inFunds', back⟩ := invertible.1.takesBack inFunds first
    have undone := ih invertible.2 inFunds' later
    rw [executeAll] at undone ⊢
    rw [List.map_cons, List.reverse_cons, List.foldlM_append, undone]
    simpa using back

end Inverses

section Orchestration

variable {o o' : SagaOrchestrator} {id : SagaId} {definition : SagaDefinition} {j : Nat}
  {accounts accounts' : Accounts}

structure Waiting (o : SagaOrchestrator) (id : SagaId) (definition : SagaDefinition) (j : Nat)
    (saga : SagaInstance) : Prop where
  active : o.activeSagas.lookup id = some saga
  found : o.definitions.lookup saga.definitionName = some definition
  runs : saga.status = .pending ∨ saga.status = .inProgress
  current : saga.currentStep = j
  inOrder : saga.completedSteps = List.range j
  below : j < definition.steps.length

theorem Waiting.nextAction {saga : SagaInstance} (waiting : Waiting o id definition j saga) :
    ∃ step, definition.steps[j]? = some step ∧ o.nextAction id = some (.ok (j, step.action)) := by
  obtain ⟨active, found, runs, rfl, -, below⟩ := waiting
  have step := List.getElem?_eq_getElem below
  refine ⟨_, step, ?_⟩
  have running : ¬ (saga.status ≠ .pending ∧ saga.status ≠ .inProgress) := by
    rcases runs with status | status <;> simp [status]
  simp only [SagaOrchestrator.nextAction, active, if_neg running, found, step]

theorem Waiting.stepSucceeded {saga : SagaInstance} (waiting : Waiting o id definition j saga) :
    (j + 1 < definition.steps.length ∧ ∃ o', o.stepSucceeded id = some (.ok false, o') ∧
      Waiting o' id definition (j + 1) saga.advance) ∨
    (j + 1 = definition.steps.length ∧ ∃ o', o.stepSucceeded id = some (.ok true, o') ∧
      o'.activeSagas.lookup id = none) := by
  obtain ⟨active, found, runs, rfl, inOrder, below⟩ := waiting
  by_cases last : definition.steps.length ≤ saga.currentStep + 1
  · have finished : o.stepSucceeded id =
        some (.ok true,
          { o with
            activeSagas := o.activeSagas.erase id
            completedSagas := o.completedSagas ++ [saga.advance.complete] }) := by
      simp only [SagaOrchestrator.stepSucceeded, active, found]
      exact if_pos last
    exact .inr ⟨Nat.le_antisymm below last, _, finished, Finmap.lookup_erase ..⟩
  · have more := Nat.lt_of_not_le last
    have advanced : o.stepSucceeded id =
        some (.ok false, { o with activeSagas := o.activeSagas.insert id saga.advance }) := by
      simp only [SagaOrchestrator.stepSucceeded, active, found]
      exact if_neg last
    refine .inl ⟨more, _, advanced, ?_⟩
    exact ⟨Finmap.lookup_insert _, found, .inr rfl, rfl, SagaOrchestrator.advance_inOrder inOrder, more⟩

theorem drive_spec {k : Nat} {saga : SagaInstance} (waiting : Waiting o id definition j saga)
    (driven : drive id k o accounts = some (o', accounts')) :
    executeAll accounts (((definition.steps.drop j).take k).map SagaStep.action) = some accounts' ∧
      ((∃ saga', Waiting o' id definition (j + k) saga') ∨
        j + k = definition.steps.length ∧ o'.activeSagas.lookup id = none) := by
  induction k generalizing o j accounts saga with
  | zero =>
    cases driven
    exact ⟨rfl, .inl ⟨saga, waiting⟩⟩
  | succ k ih =>
    obtain ⟨step, at_j, asked⟩ := waiting.nextAction
    obtain ⟨within, rfl⟩ := List.getElem?_eq_some_iff.mp at_j
    have actions : ((definition.steps.drop j).take (k + 1)).map SagaStep.action =
        definition.steps[j].action :: ((definition.steps.drop (j + 1)).take k).map SagaStep.action := by
      rw [List.drop_eq_getElem_cons within, List.take_succ_cons, List.map_cons]
    rw [drive, asked] at driven
    dsimp only at driven
    rw [actions]
    cases executed : definition.steps[j].action.execute accounts with
    | none => simp [executed] at driven
    | some middle =>
      have first (rest : List SagaAction) :
          executeAll accounts (definition.steps[j].action :: rest) = executeAll middle rest := by
        rw [executeAll, List.foldlM_cons, executed]
        rfl
      rw [first, ← Nat.add_assoc, Nat.add_right_comm]
      rcases waiting.stepSucceeded with ⟨-, o₁, reported, waiting'⟩ | ⟨last, o₁, reported, gone⟩
      · simp only [executed, reported] at driven
        exact ih waiting' driven
      · simp only [executed, reported] at driven
        -- The saga is complete, so the loop can only end here.
        cases k with
        | zero =>
          cases driven
          exact ⟨rfl, .inr ⟨last, gone⟩⟩
        | succ k => simp [drive, SagaOrchestrator.nextAction, gone] at driven

/-- Whatever number `k` of steps has been executed, the compensations that `step_failed` returns are all
accepted in their order and restore every account; with all steps done there is no saga left to fail. -/
theorem compensation_restores_accounts (o o₁ o₂ : SagaOrchestrator) (name : String)
    (definition : SagaDefinition) (id : SagaId) (accounts accounts' : Accounts) (k : Nat) (error : String)
    (found : o.definitions.lookup name = some definition)
    (invertible : ∀ step ∈ definition.steps, step.Invertible) (inFunds : InFunds accounts)
    (started : o.start id name = (.ok id, o₁)) (driven : drive id k o₁ accounts = some (o₂, accounts')) :
    (k < definition.steps.length ∧ ∃ compensations o₃,
      o₂.stepFailed id error = some (.ok compensations, o₃) ∧
        executeAll accounts' compensations = some accounts) ∨
    (k = definition.steps.length ∧ o₂.stepFailed id error = some (.error (.sagaNotFound id), o₂)) := by
  have waiting : Waiting o₁ id definition 0 (.new id name) := by
    simp only [SagaOrchestrator.start, found] at started
    split at started
    · cases started
    · next nonempty =>
      cases started
      refine ⟨Finmap.lookup_insert _, found, .inl rfl, rfl, rfl, List.length_pos_iff.mpr ?_⟩
      simpa using nonempty
  obtain ⟨executed, rest⟩ := drive_spec waiting driven
  rw [List.drop_zero] at executed
  rw [Nat.zero_add] at rest
  rcases rest with ⟨saga, active, known, -, current, inOrder, below⟩ | ⟨all, gone⟩
  · refine .inl ⟨below, ((definition.steps.take k).map SagaStep.compensation).reverse,
      { o₂ with activeSagas := o₂.activeSagas.insert id (saga.startCompensating error) }, ?_, ?_⟩
    · have collected := SagaOrchestrator.compensations_range (Nat.le_of_lt below)
      simp only [SagaOrchestrator.stepFailed, active, known, inOrder, collected, Option.map_some]
    · exact executeAll_compensations (fun step member => invertible step (List.mem_of_mem_take member))
        inFunds executed
  · refine .inr ⟨all, ?_⟩
    simp only [SagaOrchestrator.stepFailed, gone]

end Orchestration

namespace SagaSample

def payerAccount : Account := .new payer .asset "USD" 500 none
def payeeAccount : Account := .new payee .asset "USD" 0 none

def accounts : Accounts := insertAll ∅ [(payer, payerAccount), (payee, payeeAccount)]

theorem accounts_inFunds : InFunds accounts := by
  intro id a found
  have member := ((Lists.insertAll (by decide)).mem_iff id a).mpr found
  simp only [List.mem_cons, Prod.mk.injEq, List.not_mem_nil, or_false] at member
  rcases member with ⟨-, rfl⟩ | ⟨-, rfl⟩ <;> exact ⟨rfl, by decide, by decide⟩

theorem bankTransfer_invertible : ∀ step ∈ bankTransfer.steps, step.Invertible := by
  intro step member
  simp only [bankTransfer, List.mem_cons, List.not_mem_nil, or_false] at member
  rcases member with rfl | rfl
  · exact .debit payer 100
  · exact .credit payee 100

def registered : SagaOrchestrator := SagaOrchestrator.new.register bankTransfer

end SagaSample

open SagaSample

theorem compensation_restores_accounts_payer :
    ∃ o₁ o₂ accounts', registered.start sagaId "BankTransfer" = (.ok sagaId, o₁) ∧
      drive sagaId 1 o₁ accounts = some (o₂, accounts') ∧
      ((1 < bankTransfer.steps.length ∧ ∃ compensations o₃,
        o₂.stepFailed sagaId "timeout" = some (.ok compensations, o₃) ∧
          executeAll accounts' compensations = some accounts) ∨
        (1 = bankTransfer.steps.length ∧
          o₂.stepFailed sagaId "timeout" = some (.error (.sagaNotFound sagaId), o₂))) := by
  refine ⟨_, _, _, rfl, rfl, ?_⟩
  exact compensation_restores_accounts registered _ _ "BankTransfer" bankTransfer sagaId accounts _ 1 "timeout"
    rfl bankTransfer_invertible accounts_inFunds rfl rfl

end BankingLedger
