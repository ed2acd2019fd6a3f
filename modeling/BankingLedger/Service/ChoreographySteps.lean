import BankingLedger.Service.Choreography
import BankingLedger.Shared.Interleaving

set_option autoImplicit false

namespace BankingLedger

open FiniteMap Interleaving

-- Each operation on a map is a step of its own: a balance is read in one and written back in another.
inductive ChoreographyPc where
  | debit (event : TransferInitiatedEvent) (now : Timestamp)
  | debitRead (event : TransferInitiatedEvent) (now : Timestamp)
  | debitWrite (event : TransferInitiatedEvent) (now : Timestamp) (b : Decimal)
  | debitMark (event : TransferInitiatedEvent) (now : Timestamp)
  | credit (event : AccountDebitedEvent) (toAccount : String) (now : Timestamp)
  | creditRead (event : AccountDebitedEvent) (toAccount : String) (now : Timestamp)
  | creditWrite (event : AccountDebitedEvent) (toAccount : String) (now : Timestamp) (b : Decimal)
  | creditMark (event : AccountDebitedEvent) (toAccount : String) (now : Timestamp)
  | refund (event : AccountDebitedEvent) (toAccount : String) (now : Timestamp)
  | debitReturned (result : Except AccountDebitFailedEvent AccountDebitedEvent)
  | creditReturned (result : Except AccountCreditFailedEvent AccountCreditedEvent)

/-- The service, with the debits, credits and refunds that calls have made: the account and what was
added to it. -/
structure ChoreographyShared where
  service : ChoreographyAccountService
  movements : List (String × Int)

namespace ChoreographyShared

def write (account : String) (balance : Decimal) (moved : Int) (s : ChoreographyShared) :
    ChoreographyShared where
  service := { s.service with balances := s.service.balances.insert account balance }
  movements := s.movements ++ [(account, moved)]

def markDebit (id : Uuid) (s : ChoreographyShared) : ChoreographyShared :=
  { s with service := { s.service with processedDebits := insert id s.service.processedDebits } }

def markCredit (id : Uuid) (s : ChoreographyShared) : ChoreographyShared :=
  { s with service := { s.service with processedCredits := insert id s.service.processedCredits } }

end ChoreographyShared

open ChoreographyPc

def choreographyStep (s : ChoreographyShared) : ChoreographyPc → Option (ChoreographyShared × ChoreographyPc)
  | debit event now =>
    if event.correlationId ∈ s.service.processedDebits then some (s, debitReturned (.ok (event.debited now)))
    else some (s, debitRead event now)
  | debitRead event now =>
    match s.service.balances.lookup event.fromAccount with
    | some b =>
      if b ≥ event.amount then some (s, debitWrite event now b)
      else some (s, debitReturned (.error (event.debitFailed now "INSUFFICIENT_FUNDS")))
    | none => some (s, debitReturned (.error (event.debitFailed now "ACCOUNT_NOT_FOUND")))
  | debitWrite event now b =>
    some (s.write event.fromAccount (b - event.amount) (-event.amount), debitMark event now)
  | debitMark event now =>
    some (s.markDebit event.correlationId, debitReturned (.ok (event.debited now)))
  | credit event toAccount now =>
    if event.correlationId ∈ s.service.processedCredits then
      some (s, creditReturned (.ok (event.credited now toAccount)))
    else some (s, creditRead event toAccount now)
  | creditRead event toAccount now =>
    match s.service.balances.lookup toAccount with
    | some b => some (s, creditWrite event toAccount now b)
    | none => some (s, refund event toAccount now)
  | creditWrite event toAccount now b =>
    some (s.write toAccount (b + event.amount) event.amount, creditMark event toAccount now)
  | creditMark event toAccount now =>
    some (s.markCredit event.correlationId, creditReturned (.ok (event.credited now toAccount)))
  | refund event toAccount now =>
    match s.service.balances.lookup event.accountId with
    | some b =>
      some (s.write event.accountId (b + event.amount) event.amount,
        creditReturned (.error (event.creditFailed now toAccount)))
    | none => some (s, creditReturned (.error (event.creditFailed now toAccount)))
  | debitReturned _ | creditReturned _ => none

def choreographers : System ChoreographyShared ChoreographyPc := ⟨choreographyStep⟩

inductive ChoreographyCall where
  | transferInitiated (event : TransferInitiatedEvent) (now : Timestamp)
  | accountDebited (event : AccountDebitedEvent) (toAccount : String) (now : Timestamp)
deriving DecidableEq, Repr

def ChoreographyCall.start : ChoreographyCall → ChoreographyPc
  | .transferInitiated event now => debit event now
  | .accountDebited event toAccount now => credit event toAccount now

section Alone

variable (s : ChoreographyShared) (now : Timestamp)

theorem debit_alone_result (event : TransferInitiatedEvent) :
    let final := choreographers.solo 4 (s, debit event now)
    (final.1.service, final.2) = ((s.service.handleTransferInitiated now event).2,
      debitReturned (s.service.handleTransferInitiated now event).1) := by
  by_cases known : event.correlationId ∈ s.service.processedDebits
  · simp [System.solo, choreographers, choreographyStep, ChoreographyAccountService.handleTransferInitiated, known]
  · cases found : s.service.balances.lookup event.fromAccount with
    | none =>
      simp [System.solo, choreographers, choreographyStep, ChoreographyAccountService.handleTransferInitiated,
        known, found]
    | some b =>
      by_cases enough : event.amount ≤ b <;>
        simp [System.solo, choreographers, choreographyStep,
          ChoreographyAccountService.handleTransferInitiated, ChoreographyShared.write,
          ChoreographyShared.markDebit, known, found, enough]

theorem credit_alone_result (event : AccountDebitedEvent) (toAccount : String) :
    let final := choreographers.solo 4 (s, credit event toAccount now)
    (final.1.service, final.2) = ((s.service.handleAccountDebited now event toAccount).2,
      creditReturned (s.service.handleAccountDebited now event toAccount).1) := by
  by_cases known : event.correlationId ∈ s.service.processedCredits
  · simp [System.solo, choreographers, choreographyStep, ChoreographyAccountService.handleAccountDebited, known]
  · cases found : s.service.balances.lookup toAccount with
    | some b =>
      simp [System.solo, choreographers, choreographyStep, ChoreographyAccountService.handleAccountDebited,
        ChoreographyShared.write, ChoreographyShared.markCredit, known, found]
    | none =>
      cases source : s.service.balances.lookup event.accountId <;>
        simp [System.solo, choreographers, choreographyStep, ChoreographyAccountService.handleAccountDebited,
          ChoreographyAccountService.refund, ChoreographyShared.write, known, found, source]

end Alone

section Balances

def ChoreographyShared.balanceAt (account : String) (s : ChoreographyShared) : Int :=
  valueAt (fun b : Decimal => b) s.service.balances account

def ChoreographyShared.moved (account : String) (s : ChoreographyShared) : Int :=
  ((s.movements.filter fun m => m.1 = account).map (·.2)).sum

-- The account that is about to be written, and the balance that was read for it.
def ChoreographyPc.writes : ChoreographyPc → Option (String × Decimal)
  | debitWrite event _ b => some (event.fromAccount, b)
  | creditWrite _ toAccount _ b => some (toAccount, b)
  | _ => none

variable {I : Type}

def choreographyStart (seeds : Map String Decimal) (calls : I → ChoreographyCall) :
    Config I ChoreographyShared ChoreographyPc where
  shared := { service := { ChoreographyAccountService.new with balances := seeds }, movements := [] }
  thread i := (calls i).start

def BalancesAddUp (seeds : Map String Decimal) (c : Config I ChoreographyShared ChoreographyPc) : Prop :=
  ∀ account, c.shared.balanceAt account =
    valueAt (fun b : Decimal => b) seeds account + c.shared.moved account

/-- How much more the next write takes the balance to have been than it is. -/
def misread (account : String) (c : Config I ChoreographyShared ChoreographyPc) (i : I) : Int :=
  match (c.thread i).writes with
  | some (written, b) => if written = account then b - c.shared.balanceAt account else 0
  | none => 0

def FindsWhatItRead (c : Config I ChoreographyShared ChoreographyPc) (i : I) : Prop :=
  ∀ p ∈ (c.thread i).writes, c.shared.service.balances.lookup p.1 = some p.2

variable {s s' : ChoreographyShared} {pc pc' : ChoreographyPc}

theorem write_balanceAt (account written : String) (balance : Decimal) (moved : Int) :
    (s.write written balance moved).balanceAt account =
      if account = written then balance else s.balanceAt account := by
  simp only [ChoreographyShared.balanceAt, ChoreographyShared.write, valueAt, lookup_insert_eq]
  split <;> rfl

theorem write_moved (account written : String) (balance : Decimal) (moved : Int) :
    (s.write written balance moved).moved account =
      s.moved account + if account = written then moved else 0 := by
  by_cases same : account = written
  · simp [ChoreographyShared.moved, ChoreographyShared.write, same]
  · simp [ChoreographyShared.moved, ChoreographyShared.write, same, Ne.symm same]

def ChoreographyShared.gap (account : String) (s : ChoreographyShared) : Int :=
  s.balanceAt account - s.moved account

-- What a write of the balance `b + moved` adds to the balance beyond the movement it stands for.
theorem write_gap (account written : String) (b moved : Int) :
    (s.write written (b + moved) moved).gap account =
      s.gap account + if written = account then b - s.balanceAt account else 0 := by
  rw [ChoreographyShared.gap, write_balanceAt, write_moved, ChoreographyShared.gap]
  by_cases same : written = account
  · rw [if_pos same.symm, if_pos same.symm, if_pos same]
    omega
  · rw [if_neg (Ne.symm same), if_neg (Ne.symm same), if_neg same]
    omega

inductive BalanceMove (s : ChoreographyShared) (pc : ChoreographyPc) : ChoreographyShared → Prop where
  | unmoved {s' : ChoreographyShared} : pc.writes = none → s'.service.balances = s.service.balances →
      s'.movements = s.movements → BalanceMove s pc s'
  | overwritten {account : String} {b moved : Int} : pc.writes = some (account, b) →
      BalanceMove s pc (s.write account (b + moved) moved)
  | inPlace {account : String} {b moved : Int} : pc.writes = none →
      s.service.balances.lookup account = some b → BalanceMove s pc (s.write account (b + moved) moved)

theorem balanceMove_of_step (taken : choreographyStep s pc = some (s', pc')) : BalanceMove s pc s' := by
  cases pc with
  | debitWrite event now b | creditWrite event toAccount now b =>
    obtain ⟨rfl, -⟩ := Prod.mk.inj (Option.some.inj taken)
    exact .overwritten rfl
  | debitMark event now | creditMark event toAccount now =>
    obtain ⟨rfl, -⟩ := Prod.mk.inj (Option.some.inj taken)
    exact .unmoved rfl rfl rfl
  | refund event toAccount now =>
    simp only [choreographyStep] at taken
    split at taken <;> obtain ⟨rfl, -⟩ := Prod.mk.inj (Option.some.inj taken)
    · next b found => exact .inPlace rfl found
    · exact .unmoved rfl rfl rfl
  | debit event now | credit event toAccount now | creditRead event toAccount now =>
    simp only [choreographyStep] at taken
    split at taken <;> obtain ⟨rfl, -⟩ := Prod.mk.inj (Option.some.inj taken) <;> exact .unmoved rfl rfl rfl
  | debitRead event now =>
    simp only [choreographyStep] at taken
    repeat' split at taken
    all_goals
      obtain ⟨rfl, -⟩ := Prod.mk.inj (Option.some.inj taken)
      exact .unmoved rfl rfl rfl
  | debitReturned result | creditReturned result => cases taken

theorem BalanceMove.gap (account : String) (move : BalanceMove s pc s') :
    s'.gap account = s.gap account + match pc.writes with
      | some (written, b) => if written = account then b - s.balanceAt account else 0
      | none => 0 := by
  cases move with
  | unmoved writes balances movements =>
    rw [writes, ChoreographyShared.gap, ChoreographyShared.balanceAt, ChoreographyShared.moved, balances, movements]
    exact (Int.add_zero _).symm
  | @overwritten written b moved writes =>
    rw [writes]
    exact write_gap account written b moved
  | @inPlace written b moved writes found =>
    -- What is added to is what is found.
    rw [writes, write_gap]
    split
    · next same =>
      have balance : s.balanceAt account = b := valueAt_of_found (same ▸ found)
      rw [balance, Int.sub_self]
    · rfl

variable {c : Config I ChoreographyShared ChoreographyPc}

theorem misread_of_found {i : I} (finds : FindsWhatItRead c i) (account : String) : misread account c i = 0 := by
  unfold misread
  split
  · next written b write =>
    split
    · next same =>
      have balance : c.shared.balanceAt account = b := valueAt_of_found (same ▸ finds (written, b) write)
      rw [balance]
      exact Int.sub_self b
    · rfl
  · rfl

theorem balancesAddUp_iff_gap {seeds : Map String Decimal} :
    BalancesAddUp seeds c ↔
      ∀ account, c.shared.gap account = valueAt (fun b : Decimal => b) seeds account := by
  refine forall_congr' fun account => ?_
  rw [ChoreographyShared.gap]
  omega

theorem start_addsUp (seeds : Map String Decimal) (calls : I → ChoreographyCall) :
    BalancesAddUp seeds (choreographyStart seeds calls) :=
  fun _ => (Int.add_zero _).symm

variable [DecidableEq I]

theorem fire_gap (account : String) (c : Config I ChoreographyShared ChoreographyPc) (i : I) :
    (choreographers.fire c i).shared.gap account = c.shared.gap account + misread account c i := by
  unfold System.fire
  split
  · next done =>
    have nothing : (c.thread i).writes = none := by
      cases at_ : c.thread i with
      | debitWrite | creditWrite =>
        rw [at_] at done
        cases done
      | _ => rfl
    rw [misread, nothing]
    exact (Int.add_zero _).symm
  · next taken => exact (balanceMove_of_step taken).gap account

namespace Sample

def twoDebits (toBob : Bool) : ChoreographyCall :=
  if toBob then .transferInitiated ⟨⟨1⟩, "tx-1", "alice", "bob", (200 : Int), ⟨0⟩⟩ ⟨1⟩
  else .transferInitiated ⟨⟨2⟩, "tx-2", "alice", "carol", (300 : Int), ⟨0⟩⟩ ⟨1⟩

end Sample

open Sample

end Balances

end BankingLedger
