import BankingLedger.Service.ChoreographySteps
import BankingLedger.Shared.Runs

set_option autoImplicit false

namespace BankingLedger

open FiniteMap Runs

/-- What stands for an exact sum or difference. `none` is the panic on overflow. -/
abbrev Rounding : Type := Decimal → Option Decimal

-- A negative result is not rounded up to zero, since no operand has more than 28 decimals.
def Rounding.KeepsSign (round : Rounding) : Prop :=
  ∀ exactly rounded, round exactly = some rounded → ((0 : Int) ≤ rounded ↔ (0 : Int) ≤ exactly)

namespace ChoreographyAccountService

/-- `none` is a panic, which comes before anything is written. -/
def handleTransferInitiatedRounded (round : Rounding) (now : Timestamp) (event : TransferInitiatedEvent)
    (svc : ChoreographyAccountService) :
    Option (Except AccountDebitFailedEvent AccountDebitedEvent × ChoreographyAccountService) :=
  if event.correlationId ∈ svc.processedDebits then some (.ok (event.debited now), svc)
  else
    match svc.balances.lookup event.fromAccount with
    | some b =>
      if b ≥ event.amount then
        (round (b - event.amount)).map fun newBalance =>
          (.ok (event.debited now),
            { svc with
              balances := svc.balances.insert event.fromAccount newBalance
              processedDebits := insert event.correlationId svc.processedDebits })
      else some (.error (event.debitFailed now "INSUFFICIENT_FUNDS"), svc)
    | none => some (.error (event.debitFailed now "ACCOUNT_NOT_FOUND"), svc)

def refundRounded (round : Rounding) (event : AccountDebitedEvent) (svc : ChoreographyAccountService) :
    Option ChoreographyAccountService :=
  match svc.balances.lookup event.accountId with
  | some b =>
    (round (b + event.amount)).map fun balance =>
      { svc with balances := svc.balances.insert event.accountId balance }
  | none => some svc

def handleAccountDebitedRounded (round : Rounding) (now : Timestamp) (event : AccountDebitedEvent)
    (toAccount : String) (svc : ChoreographyAccountService) :
    Option (Except AccountCreditFailedEvent AccountCreditedEvent × ChoreographyAccountService) :=
  if event.correlationId ∈ svc.processedCredits then some (.ok (event.credited now toAccount), svc)
  else
    match svc.balances.lookup toAccount with
    | some b =>
      (round (b + event.amount)).map fun newBalance =>
        (.ok (event.credited now toAccount),
          { svc with
            balances := svc.balances.insert toAccount newBalance
            processedCredits := insert event.correlationId svc.processedCredits })
    | none =>
      (svc.refundRounded round event).map fun refunded => (.error (event.creditFailed now toAccount), refunded)

section Exact

variable (svc : ChoreographyAccountService) (now : Timestamp)

theorem handleTransferInitiatedRounded_some (event : TransferInitiatedEvent) :
    svc.handleTransferInitiatedRounded some now event = some (svc.handleTransferInitiated now event) := by
  rw [handleTransferInitiatedRounded, handleTransferInitiated]
  by_cases known : event.correlationId ∈ svc.processedDebits
  next => rw [if_pos known, if_pos known]
  next =>
    rw [if_neg known, if_neg known]
    cases svc.balances.lookup event.fromAccount with
    | none => rfl
    | some b => by_cases enough : event.amount ≤ b <;> simp [enough]

theorem handleAccountDebitedRounded_some (event : AccountDebitedEvent) (toAccount : String) :
    svc.handleAccountDebitedRounded some now event toAccount =
      some (svc.handleAccountDebited now event toAccount) := by
  rw [handleAccountDebitedRounded, handleAccountDebited]
  by_cases known : event.correlationId ∈ svc.processedCredits
  next => rw [if_pos known, if_pos known]
  next =>
    rw [if_neg known, if_neg known]
    cases svc.balances.lookup toAccount with
    | some b => rfl
    | none =>
      rw [refundRounded, refund]
      cases svc.balances.lookup event.accountId <;> rfl

end Exact

def handle (round : Rounding) (svc : ChoreographyAccountService) : ChoreographyCall → ChoreographyAccountService
  | .transferInitiated event now => ((svc.handleTransferInitiatedRounded round now event).map (·.2)).getD svc
  | .accountDebited event toAccount now =>
    ((svc.handleAccountDebitedRounded round now event toAccount).map (·.2)).getD svc

def NonNegative (svc : ChoreographyAccountService) : Prop :=
  ∀ account b, svc.balances.lookup account = some b → (0 : Int) ≤ b

def credited (event : AccountDebitedEvent) (toAccount : String) (svc : ChoreographyAccountService) : Option Decimal :=
  (svc.balances.lookup toAccount).or (svc.balances.lookup event.accountId)

/-- The amount of a credit or a refund takes no more from the balance than it holds. -/
def Affordable (round : Rounding) (svc : ChoreographyAccountService) : ChoreographyCall → Prop
  | .transferInitiated _ _ => True
  | .accountDebited event toAccount _ =>
    event.correlationId ∉ svc.processedCredits → ∀ b ∈ svc.credited event toAccount,
      (round (b + event.amount)).isSome → (0 : Int) ≤ b + event.amount

instance (round : Rounding) (svc : ChoreographyAccountService) : ∀ call, Decidable (svc.Affordable round call)
  | .transferInitiated _ _ => isTrue trivial
  | .accountDebited event toAccount _ => inferInstanceAs (Decidable (event.correlationId ∉ svc.processedCredits →
      ∀ b ∈ svc.credited event toAccount, (round (b + event.amount)).isSome → (0 : Int) ≤ b + event.amount))

section Handle

variable {round : Rounding} {svc : ChoreographyAccountService} {account : String} {b balance exactly : Decimal}

theorem NonNegative.insert (nonNegative : svc.NonNegative) (nonneg : (0 : Int) ≤ balance) (account : String)
    (debits credits : Finset Uuid) : NonNegative
      { balances := svc.balances.insert account balance, processedDebits := debits, processedCredits := credits } := by
  intro other b found
  rcases lookup_insert_cases found with ⟨_, rfl⟩ | found
  next => exact nonneg
  next => exact nonNegative other b found

theorem nonNegative_insert_iff (nonNegative : svc.NonNegative) (account : String) (debits credits : Finset Uuid) :
    NonNegative
      { balances := svc.balances.insert account balance, processedDebits := debits, processedCredits := credits } ↔
      (0 : Int) ≤ balance :=
  ⟨fun all => all account balance (by rw [lookup_insert_eq, if_pos rfl]),
    fun nonneg => nonNegative.insert nonneg account debits credits⟩

theorem nonNegative_handleTransferInitiated (keeps : round.KeepsSign) (nonNegative : svc.NonNegative)
    (event : TransferInitiatedEvent) (now : Timestamp) :
    (svc.handle round (.transferInitiated event now)).NonNegative := by
  rw [handle, handleTransferInitiatedRounded]
  by_cases known : event.correlationId ∈ svc.processedDebits
  next =>
    rw [if_pos known]
    exact nonNegative
  next =>
    rw [if_neg known]
    cases svc.balances.lookup event.fromAccount with
    | none => exact nonNegative
    | some b =>
      by_cases enough : event.amount ≤ b
      next =>
        cases sum : round (b - event.amount) with
        | none => simpa [enough, sum] using nonNegative
        | some newBalance =>
          have nonneg : (0 : Int) ≤ newBalance := (keeps _ _ sum).mpr (Int.sub_nonneg_of_le enough)
          simpa [enough, sum] using nonNegative.insert nonneg _ _ _
      next => simpa [enough] using nonNegative

-- What a sum that is written does to the balances, of a credit and of a refund alike.
theorem nonNegative_written_iff (keeps : round.KeepsSign) (nonNegative : svc.NonNegative)
    (write : Decimal → ChoreographyAccountService)
    (written : ∀ balance, (write balance).NonNegative ↔ (0 : Int) ≤ balance) :
    (((round exactly).map write).getD svc).NonNegative ↔ ((round exactly).isSome → (0 : Int) ≤ exactly) := by
  cases sum : round exactly with
  | none => simpa using nonNegative
  | some balance => simpa [written] using keeps _ _ sum

theorem nonNegative_handleAccountDebited_iff (keeps : round.KeepsSign) (nonNegative : svc.NonNegative)
    (event : AccountDebitedEvent) (toAccount : String) (now : Timestamp) :
    (svc.handle round (.accountDebited event toAccount now)).NonNegative ↔
      svc.Affordable round (.accountDebited event toAccount now) := by
  rw [handle, handleAccountDebitedRounded, Affordable]
  by_cases known : event.correlationId ∈ svc.processedCredits
  next =>
    rw [if_pos known]
    exact iff_of_true nonNegative fun new => absurd known new
  next =>
    rw [if_neg known, forall_prop_of_true known, credited]
    cases svc.balances.lookup toAccount with
    | some b =>
      simp only [Option.map_map, Function.comp_def, Option.some_or, Option.mem_def, Option.some.injEq, forall_eq']
      exact nonNegative_written_iff keeps nonNegative _ fun balance => nonNegative_insert_iff nonNegative _ _ _
    | none =>
      rw [refundRounded, Option.none_or]
      cases svc.balances.lookup event.accountId with
      | some b =>
        simp only [Option.map_map, Function.comp_def, Option.mem_def, Option.some.injEq, forall_eq']
        exact nonNegative_written_iff keeps nonNegative _ fun balance => nonNegative_insert_iff nonNegative _ _ _
      | none => exact iff_of_true nonNegative fun b member => absurd member (Option.not_mem_none b)

theorem nonNegative_handle_iff (keeps : round.KeepsSign) (nonNegative : svc.NonNegative) (call : ChoreographyCall) :
    (svc.handle round call).NonNegative ↔ svc.Affordable round call := by
  cases call with
  | transferInitiated event now =>
    exact iff_of_true (nonNegative_handleTransferInitiated keeps nonNegative event now) trivial
  | accountDebited event toAccount now =>
    exact nonNegative_handleAccountDebited_iff keeps nonNegative event toAccount now

theorem throughout_nonNegative_iff (keeps : round.KeepsSign) (start : svc.NonNegative)
    (calls : List ChoreographyCall) :
    Throughout (handle round) NonNegative svc calls ↔ Meets (handle round) (Affordable round) svc calls :=
  throughout_iff_meets (P := NonNegative) (fun _ call nonNegative => nonNegative_handle_iff keeps nonNegative call)
    start calls

end Handle

def seeded (seeds : Map String Decimal) : ChoreographyAccountService := { new with balances := seeds }

/-- No balance goes negative exactly if no credit or refund of a negative amount takes more from its
account than that holds. Debits never do. -/
theorem balances_nonneg_iff (round : Rounding) (keeps : round.KeepsSign) (seeds : Map String Decimal)
    (seedsNonneg : ∀ account b, seeds.lookup account = some b → (0 : Int) ≤ b) (calls : List ChoreographyCall) :
    Throughout (handle round) NonNegative (seeded seeds) calls ↔
      Meets (handle round) (Affordable round) (seeded seeds) calls :=
  have start : (seeded seeds).NonNegative := seedsNonneg
  throughout_nonNegative_iff keeps start calls

namespace Sample

-- Whole numbers only, up to the largest mantissa.
def wholeRounding : Rounding := fun exactly =>
  if (-79228162514264337593543950335 : Int) ≤ exactly ∧ exactly ≤ (79228162514264337593543950335 : Int) then
    some exactly
  else none

def oneAccount : Map String Decimal := Finmap.insert "alice" (100 : Int) ∅

def takenBack (amount : Int) : List ChoreographyCall :=
  [.transferInitiated ⟨⟨1⟩, "tx-1", "alice", "bob", (30 : Int), ⟨0⟩⟩ ⟨1⟩,
    .accountDebited ⟨⟨2⟩, "tx-2", "bob", amount, ⟨0⟩⟩ "alice" ⟨2⟩]

end Sample

open ChoreographyAccountService.Sample

theorem balances_nonneg_iff_takenBack :
    Throughout (handle wholeRounding) NonNegative (seeded oneAccount) (takenBack (-70)) := by
  have keeps : wholeRounding.KeepsSign := by
    intro exactly rounded sum
    rw [Option.some.inj (Option.ite_none_right_eq_some.mp sum).2]
  have seedsNonneg : ∀ account b, oneAccount.lookup account = some b → (0 : Int) ≤ b := by
    intro account b found
    rcases lookup_insert_cases found with ⟨_, rfl⟩ | found
    next => decide
    next => cases found
  exact (balances_nonneg_iff wholeRounding keeps oneAccount seedsNonneg _).mpr (by decide +kernel)

/-- A credit of a negative amount is applied without a look at the balance. -/
theorem negative_credit_overdraws :
    (run (handle wholeRounding) (seeded oneAccount) (takenBack (-71))).balances.lookup "alice" = some (-1 : Int) ∧
      ¬Throughout (handle wholeRounding) NonNegative (seeded oneAccount) (takenBack (-71)) := by
  have overdrawn : (run (handle wholeRounding) (seeded oneAccount) (takenBack (-71))).balances.lookup "alice" =
      some (-1 : Int) := by decide +kernel
  refine ⟨overdrawn, fun all => ?_⟩
  exact absurd (all (takenBack (-71)) [] (List.append_nil _).symm "alice" _ overdrawn) (by decide)

end ChoreographyAccountService

end BankingLedger
