import BankingLedger.Domain.Account
import Mathlib.Algebra.Ring.Int.Defs

set_option autoImplicit false

namespace BankingLedger

open MachineInt

structure Timestamp where
  nanos : Int
deriving DecidableEq, Repr

abbrev JournalEntryId := Uuid
abbrev TransactionId := Uuid

inductive EntrySide where
  | debit
  | credit
deriving DecidableEq, Repr

-- The decimal form that a leg may carry is left out: nothing reads it.
structure EntryLeg where
  accountId : AccountId
  side : EntrySide
  amountCents : Int64
deriving DecidableEq, Repr

namespace EntryLeg

-- Release builds: an amount that is not positive becomes 0, the debug assertion is compiled out.
def debit (accountId : AccountId) (amountCents : Int64) : EntryLeg :=
  { accountId, side := .debit, amountCents := if 0 < amountCents then amountCents else 0 }

def credit (accountId : AccountId) (amountCents : Int64) : EntryLeg :=
  { accountId, side := .credit, amountCents := if 0 < amountCents then amountCents else 0 }

def flipped (leg : EntryLeg) : EntryLeg :=
  { leg with
    side := match leg.side with
      | .debit => .credit
      | .credit => .debit }

end EntryLeg

structure JournalEntry where
  id : JournalEntryId
  transactionId : TransactionId
  sequenceNumber : Nat
  legs : List EntryLeg
  description : String
  recordedAt : Timestamp
  reverses : Option JournalEntryId
deriving DecidableEq, Repr

inductive JournalError where
  | notEnoughLegs
  | missingSide
  | unbalanced (totalDebits totalCredits : Int64)
deriving DecidableEq, Repr

def sideTotal (side : EntrySide) (legs : List EntryLeg) : Int :=
  ((legs.filter fun leg => leg.side = side).map fun leg => leg.amountCents.toInt).sum

def legTotal (side : EntrySide) (legs : List EntryLeg) (id : AccountId) : Int :=
  ((legs.filter fun leg => leg.side = side ∧ leg.accountId = id).map
    fun leg => leg.amountCents.toInt).sum

namespace JournalEntry

-- `id` and `recordedAt` are the values `Uuid::now_v7` and `Utc::now` return.
def new (id : JournalEntryId) (recordedAt : Timestamp) (transactionId : TransactionId)
    (sequenceNumber : Nat) (legs : List EntryLeg) (description : String) :
    Except JournalError JournalEntry :=
  if legs.length < 2 then .error .notEnoughLegs
  else
    let totalDebits := sideTotal .debit legs
    let totalCredits := sideTotal .credit legs
    if totalDebits = 0 ∨ totalCredits = 0 then .error .missingSide
    else if totalDebits ≠ totalCredits then
      .error (.unbalanced (clampToMax totalDebits) (clampToMax totalCredits))
    else
      .ok { id, transactionId, sequenceNumber, legs, description, recordedAt, reverses := none }

-- `printUuid` is the display form of an identifier.
def reverse (printUuid : Uuid → String) (id : JournalEntryId) (recordedAt : Timestamp)
    (entry : JournalEntry) (newTransactionId : TransactionId) (sequenceNumber : Nat) :
    Except JournalError JournalEntry :=
  match new id recordedAt newTransactionId sequenceNumber (entry.legs.map EntryLeg.flipped)
    ("REVERSAL of " ++ printUuid entry.id) with
  | .error e => .error e
  | .ok reversal => .ok { reversal with reverses := some entry.id }

def verifyBalance (entry : JournalEntry) : Bool :=
  let debits := sideTotal .debit entry.legs
  let credits := sideTotal .credit entry.legs
  decide (debits = credits ∧ 0 < debits)

end JournalEntry

def netPosition (legs : List EntryLeg) (accountId : AccountId) : Int × Int × Int :=
  let credits := legTotal .credit legs accountId
  let debits := legTotal .debit legs accountId
  (credits, debits, credits - debits)

inductive TransactionStatus where
  | pending
  | committed
  | rejected
  | reversed
deriving DecidableEq, Repr

structure Transaction where
  id : TransactionId
  reference : String
  status : TransactionStatus
  createdAt : Timestamp
  completedAt : Option Timestamp
deriving DecidableEq, Repr

namespace Transaction

def new (id : TransactionId) (now : Timestamp) (reference : String) : Transaction :=
  { id, reference, status := .pending, createdAt := now, completedAt := none }

def commit (now : Timestamp) (txn : Transaction) : Bool × Transaction :=
  if txn.status ≠ .pending then (false, txn)
  else (true, { txn with status := .committed, completedAt := some now })

def reject (now : Timestamp) (txn : Transaction) : Bool × Transaction :=
  if txn.status ≠ .pending then (false, txn)
  else (true, { txn with status := .rejected, completedAt := some now })

end Transaction

def Balanced (legs : List EntryLeg) : Prop :=
  2 ≤ legs.length ∧ sideTotal .debit legs ≠ 0 ∧ sideTotal .debit legs = sideTotal .credit legs

instance (legs : List EntryLeg) : Decidable (Balanced legs) :=
  inferInstanceAs (Decidable (_ ∧ _ ∧ _))

namespace JournalEntry

variable {id : JournalEntryId} {recordedAt : Timestamp} {transactionId : TransactionId}
  {sequenceNumber : Nat} {legs : List EntryLeg} {description : String}

theorem new_of_balanced (balanced : Balanced legs) :
    new id recordedAt transactionId sequenceNumber legs description =
      .ok { id, transactionId, sequenceNumber, legs, description, recordedAt, reverses := none } := by
  obtain ⟨enough, nonzero, equal⟩ := balanced
  have credits : sideTotal .credit legs ≠ 0 := equal ▸ nonzero
  simp [new, show ¬ legs.length < 2 by omega, credits, equal]

theorem new_of_unbalanced (unbalanced : ¬ Balanced legs) :
    ∃ e, new id recordedAt transactionId sequenceNumber legs description = .error e := by
  unfold new
  simp only
  split_ifs with short missing equal
  · exact ⟨_, rfl⟩
  · exact ⟨_, rfl⟩
  · exact ⟨_, rfl⟩
  · push Not at missing equal
    exact absurd ⟨by omega, missing.1, equal⟩ unbalanced

end JournalEntry

theorem sideTotal_flipped (side : EntrySide) (legs : List EntryLeg) :
    sideTotal side (legs.map EntryLeg.flipped) =
      sideTotal (match side with | .debit => .credit | .credit => .debit) legs := by
  induction legs with
  | nil => rfl
  | cons leg rest ih =>
    obtain ⟨account, legSide, amount⟩ := leg
    simp only [sideTotal] at ih ⊢
    cases side <;> cases legSide <;> simpa [EntryLeg.flipped] using ih

theorem balanced_flipped {legs : List EntryLeg} :
    Balanced (legs.map EntryLeg.flipped) ↔ Balanced legs := by
  unfold Balanced
  rw [sideTotal_flipped, sideTotal_flipped, List.length_map]
  constructor
  · rintro ⟨enough, nonzero, equal⟩
    exact ⟨enough, equal ▸ nonzero, equal.symm⟩
  · rintro ⟨enough, nonzero, equal⟩
    exact ⟨enough, equal ▸ nonzero, equal.symm⟩

namespace JournalEntry

variable {printUuid : Uuid → String} {id : JournalEntryId} {recordedAt : Timestamp}
  {entry : JournalEntry} {transactionId : TransactionId} {sequenceNumber : Nat}

theorem reverse_of_balanced (balanced : Balanced entry.legs) :
    entry.reverse printUuid id recordedAt transactionId sequenceNumber =
      .ok { id, transactionId, sequenceNumber
            legs := entry.legs.map EntryLeg.flipped
            description := "REVERSAL of " ++ printUuid entry.id
            recordedAt
            reverses := some entry.id } := by
  simp [reverse, new_of_balanced (balanced_flipped.mpr balanced)]

theorem reverse_of_unbalanced (unbalanced : ¬ Balanced entry.legs) :
    ∃ e, entry.reverse printUuid id recordedAt transactionId sequenceNumber = .error e := by
  obtain ⟨e, refused⟩ := new_of_unbalanced (mt balanced_flipped.mp unbalanced)
  exact ⟨e, by simp only [reverse]; rw [refused]⟩

end JournalEntry

theorem new_fits {id : JournalEntryId} {recordedAt : Timestamp} {transactionId : TransactionId}
    {sequence : Nat} {legs : List EntryLeg} {description : String} {entry : JournalEntry}
    (built : JournalEntry.new id recordedAt transactionId sequence legs description = .ok entry) :
    entry.sequenceNumber = sequence ∧ entry.id = id ∧ Balanced entry.legs ∧ entry.reverses = none := by
  by_cases balanced : Balanced legs
  · rw [JournalEntry.new_of_balanced balanced] at built
    cases built
    exact ⟨rfl, rfl, balanced, rfl⟩
  · obtain ⟨e, refused⟩ := JournalEntry.new_of_unbalanced balanced
    rw [refused] at built
    cases built

theorem reverse_fits {printUuid : Uuid → String} {id : JournalEntryId} {recordedAt : Timestamp}
    {transactionId : TransactionId} {sequence : Nat} {original entry : JournalEntry}
    (built : original.reverse printUuid id recordedAt transactionId sequence = .ok entry) :
    entry.sequenceNumber = sequence ∧ entry.id = id ∧ Balanced entry.legs ∧
      entry.reverses = some original.id ∧ entry.legs = original.legs.map EntryLeg.flipped := by
  by_cases balanced : Balanced original.legs
  · rw [JournalEntry.reverse_of_balanced balanced] at built
    cases built
    exact ⟨rfl, rfl, balanced_flipped.mpr balanced, rfl, rfl⟩
  · obtain ⟨e, refused⟩ := JournalEntry.reverse_of_unbalanced balanced
    rw [refused] at built
    cases built

theorem balanced_pair (receiver sender : AccountId) (amount : Int64) :
    Balanced [.debit receiver amount, .credit sender amount] ↔ 0 < amount := by
  by_cases positive : 0 < amount
  · have value := pos_iff.mp positive
    simp [Balanced, sideTotal, EntryLeg.debit, EntryLeg.credit, positive]
    omega
  · simp [Balanced, sideTotal, EntryLeg.debit, EntryLeg.credit, positive]

end BankingLedger
