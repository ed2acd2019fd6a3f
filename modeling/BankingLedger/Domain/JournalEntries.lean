import BankingLedger.Domain.Journal
import BankingLedger.Shared.CheckedSum
import Mathlib.Data.List.Forall2

set_option autoImplicit false

namespace BankingLedger

open MachineInt CheckedSum

def addI128 (a b : Int) : Option Int := signedAdd 127 a b

def sideTotalTrapping (side : EntrySide) (legs : List EntryLeg) : Option Int :=
  checkedSum addI128 0 ((legs.filter fun leg => leg.side = side).map fun leg => leg.amountCents.toInt)

def legTotalTrapping (side : EntrySide) (legs : List EntryLeg) (id : AccountId) : Option Int :=
  checkedSum addI128 0 ((legs.filter fun leg => leg.side = side ∧ leg.accountId = id).map
    fun leg => leg.amountCents.toInt)

def netPositionTrapping (legs : List EntryLeg) (accountId : AccountId) : Option (Int × Int × Int) := do
  let credits ← legTotalTrapping .credit legs accountId
  let debits ← legTotalTrapping .debit legs accountId
  let net ← addI128 credits (-debits)
  some (credits, debits, net)

/-- The entries that the documentation describes. -/
structure Proper (legs : List EntryLeg) : Prop where
  enough : 2 ≤ legs.length
  positive : ∀ leg ∈ legs, 0 < leg.amountCents
  debits : ∃ leg ∈ legs, leg.side = .debit
  credits : ∃ leg ∈ legs, leg.side = .credit
  balanced : sideTotal .debit legs = sideTotal .credit legs

theorem sideTotal_cons (side : EntrySide) (leg : EntryLeg) (rest : List EntryLeg) :
    sideTotal side (leg :: rest) =
      (if leg.side = side then leg.amountCents.toInt else 0) + sideTotal side rest := by
  by_cases here : leg.side = side <;> simp [sideTotal, here]

theorem legTotal_cons (side : EntrySide) (leg : EntryLeg) (rest : List EntryLeg) (id : AccountId) :
    legTotal side (leg :: rest) id =
      (if leg.side = side ∧ leg.accountId = id then leg.amountCents.toInt else 0) +
        legTotal side rest id := by
  by_cases here : leg.side = side ∧ leg.accountId = id <;> simp [legTotal, here]

theorem legTotal_append (side : EntrySide) (first second : List EntryLeg) (id : AccountId) :
    legTotal side (first ++ second) id = legTotal side first id + legTotal side second id := by
  simp [legTotal]

-- Among positive amounts a side sums to zero only where it does not occur.
theorem sideTotal_of_positive (side : EntrySide) {legs : List EntryLeg}
    (positive : ∀ leg ∈ legs, 0 < leg.amountCents) :
    0 ≤ sideTotal side legs ∧ (sideTotal side legs ≠ 0 ↔ ∃ leg ∈ legs, leg.side = side) := by
  induction legs with
  | nil => simp [sideTotal]
  | cons leg rest ih =>
    rw [List.forall_mem_cons, pos_iff] at positive
    have here := positive.1
    have later := ih positive.2
    simp only [sideTotal_cons, List.mem_cons, exists_eq_or_imp]
    by_cases same : leg.side = side
    next =>
      simp only [same, if_true, true_or, iff_true]
      omega
    next =>
      simp only [same, if_false, false_or, Int.zero_add]
      exact later

theorem balanced_iff_proper {legs : List EntryLeg} (positive : ∀ leg ∈ legs, 0 < leg.amountCents) :
    Balanced legs ↔ Proper legs := by
  have debits := (sideTotal_of_positive .debit positive).2
  have credits := (sideTotal_of_positive .credit positive).2
  constructor
  case mp =>
    intro balanced
    obtain ⟨enough, nonzero, equal⟩ := balanced
    exact
      { enough
        positive
        debits := debits.mp nonzero
        credits := credits.mp (equal ▸ nonzero)
        balanced := equal }
  case mpr =>
    intro proper
    exact ⟨proper.enough, debits.mpr proper.debits, proper.balanced⟩

section Acceptance

variable {id : JournalEntryId} {recordedAt : Timestamp} {transactionId : TransactionId}
  {sequenceNumber : Nat} {legs : List EntryLeg} {description : String}

theorem accepted_iff_balanced :
    (∃ entry, JournalEntry.new id recordedAt transactionId sequenceNumber legs description = .ok entry) ↔
      Balanced legs := by
  by_cases balanced : Balanced legs
  next => simp [JournalEntry.new_of_balanced balanced, balanced]
  next =>
    obtain ⟨e, refused⟩ :
        ∃ e, JournalEntry.new id recordedAt transactionId sequenceNumber legs description = .error e :=
      JournalEntry.new_of_unbalanced balanced
    simp [refused, balanced]

theorem verifyBalance_of_accepted {entry : JournalEntry}
    (positive : ∀ leg ∈ legs, 0 < leg.amountCents)
    (accepted : JournalEntry.new id recordedAt transactionId sequenceNumber legs description = .ok entry) :
    entry.verifyBalance = true := by
  have balanced : Balanced legs := accepted_iff_balanced.mp ⟨entry, accepted⟩
  rw [JournalEntry.new_of_balanced balanced] at accepted
  cases accepted
  have debits := (sideTotal_of_positive .debit positive).1
  obtain ⟨_, nonzero, equal⟩ := balanced
  simp only [JournalEntry.verifyBalance, decide_eq_true_eq]
  omega

/-- The entries accepted are the proper ones, and each of them passes its own check, unless amounts that
are not positive add up like those that are. -/
theorem new_accepts_proper_iff (id : JournalEntryId) (recordedAt : Timestamp)
    (transactionId : TransactionId) (sequenceNumber : Nat) (legs : List EntryLeg)
    (description : String) :
    (((∃ entry,
          JournalEntry.new id recordedAt transactionId sequenceNumber legs description = .ok entry) ↔
        Proper legs) ∧
      ∀ entry,
        JournalEntry.new id recordedAt transactionId sequenceNumber legs description = .ok entry →
        entry.verifyBalance = true) ↔
      ((∃ leg ∈ legs, leg.amountCents ≤ 0) →
        legs.length < 2 ∨ sideTotal .debit legs = 0 ∨ sideTotal .debit legs ≠ sideTotal .credit legs) := by
  rw [accepted_iff_balanced]
  constructor
  case mp =>
    intro exactly improper
    obtain ⟨leg, member, nonpositive⟩ := improper
    by_contra offset
    push Not at offset
    have proper := exactly.1.mp offset
    exact absurd (proper.positive leg member) (Int64.not_lt.mpr nonpositive)
  case mpr =>
    intro offsets
    by_cases positive : ∀ leg ∈ legs, 0 < leg.amountCents
    next => exact ⟨balanced_iff_proper positive, fun entry => verifyBalance_of_accepted positive⟩
    next =>
      have refused : ¬ Balanced legs := by
        intro balanced
        push Not at positive
        simp only [Int64.not_lt] at positive
        obtain ⟨enough, nonzero, equal⟩ := balanced
        have := offsets positive
        omega
      constructor
      · exact iff_of_false refused fun proper => positive proper.positive
      · exact fun entry accepted => absurd (accepted_iff_balanced.mp ⟨entry, accepted⟩) refused

-- A leg of nothing beside two legs that balance, and two negative amounts: both lists are accepted,
-- the first is not proper and the entry of the second fails its own check.
theorem improper_accepted :
    (¬((∃ entry, JournalEntry.new ⟨1⟩ ⟨0⟩ ⟨2⟩ 0 [.debit ⟨10⟩ 5, .credit ⟨20⟩ 5, .debit ⟨30⟩ 0] "rent" =
            .ok entry) ↔
          Proper [.debit ⟨10⟩ 5, .credit ⟨20⟩ 5, .debit ⟨30⟩ 0])) ∧
      ∃ entry, JournalEntry.new ⟨1⟩ ⟨0⟩ ⟨2⟩ 0
          [{ accountId := ⟨10⟩, side := .debit, amountCents := -5 },
            { accountId := ⟨20⟩, side := .credit, amountCents := -5 }] "rent" = .ok entry ∧
        entry.verifyBalance = false := by
  constructor
  next =>
    intro exactly
    have proper := exactly.mp ⟨_, rfl⟩
    exact absurd (proper.positive (.debit ⟨30⟩ 0) (by simp)) (by decide)
  next => exact ⟨_, rfl, by decide⟩

end Acceptance

theorem flipped_flipped (leg : EntryLeg) : leg.flipped.flipped = leg := by
  obtain ⟨account, side, amount⟩ := leg
  cases side <;> rfl

theorem map_flipped_flipped (legs : List EntryLeg) :
    (legs.map EntryLeg.flipped).map EntryLeg.flipped = legs := by
  simp [List.map_map, Function.comp_def, flipped_flipped]

theorem legTotal_flipped (side : EntrySide) (legs : List EntryLeg) (id : AccountId) :
    legTotal side (legs.map EntryLeg.flipped) id =
      legTotal (match side with | .debit => .credit | .credit => .debit) legs id := by
  induction legs with
  | nil => rfl
  | cons leg rest ih =>
    obtain ⟨account, legSide, amount⟩ := leg
    rw [List.map_cons, legTotal_cons, legTotal_cons, ih]
    cases side <;> cases legSide <;> simp [EntryLeg.flipped]

theorem netPosition_flipped (legs : List EntryLeg) (id : AccountId) :
    netPosition (legs.map EntryLeg.flipped) id =
      ((netPosition legs id).2.1, (netPosition legs id).1, -(netPosition legs id).2.2) := by
  simp [netPosition, legTotal_flipped]

theorem netPosition_append_flipped (legs : List EntryLeg) (id : AccountId) :
    (netPosition (legs ++ legs.map EntryLeg.flipped) id).2.2 = 0 := by
  simp only [netPosition, legTotal_append, legTotal_flipped]
  omega

structure Inverts (entry reversal : JournalEntry) : Prop where
  reverses : reversal.reverses = some entry.id
  legs : List.Forall₂ (fun leg back => back.accountId = leg.accountId ∧
    back.amountCents = leg.amountCents ∧ back.side ≠ leg.side) entry.legs reversal.legs
  verifies : reversal.verifyBalance = entry.verifyBalance
  exchanged : ∀ account, netPosition reversal.legs account =
    ((netPosition entry.legs account).2.1, (netPosition entry.legs account).1,
      -(netPosition entry.legs account).2.2)
  cancelled : ∀ account, (netPosition (entry.legs ++ reversal.legs) account).2.2 = 0

theorem inverts_of_flipped {entry reversal : JournalEntry}
    (reverses : reversal.reverses = some entry.id)
    (flipped : reversal.legs = entry.legs.map EntryLeg.flipped) : Inverts entry reversal where
  reverses := reverses
  legs := by
    rw [flipped, List.forall₂_map_right_iff, List.forall₂_same]
    intro leg _
    obtain ⟨account, side, amount⟩ := leg
    cases side <;> simp [EntryLeg.flipped]
  verifies := by
    simp only [JournalEntry.verifyBalance, flipped, sideTotal_flipped, decide_eq_decide]
    omega
  exchanged := fun account => by rw [flipped, netPosition_flipped]
  cancelled := fun account => by rw [flipped, netPosition_append_flipped]

section Overflow

def amounts (legs : List EntryLeg) : List Int := legs.map fun leg => leg.amountCents.toInt

-- An amount is at most 2^63, so the sum of fewer than 2^63 of them is below 2^126.
theorem amounts_small {legs : List EntryLeg} (few : legs.length < 2 ^ 63) :
    gains (amounts legs) + losses (amounts legs) < 2 ^ 126 := by
  have small : ∀ term ∈ amounts legs, -(2 ^ 63) ≤ term ∧ term ≤ 2 ^ 63 := by
    intro term member
    obtain ⟨leg, _, rfl⟩ := List.mem_map.mp member
    have := bounds leg.amountCents
    omega
  have bounded := gains_add_losses_le small
  rw [amounts, List.length_map] at bounded
  rw [amounts]
  omega

theorem checkedSum_amounts {legs : List EntryLeg} (few : legs.length < 2 ^ 63) :
    checkedSum addI128 0 (amounts legs) = some (amounts legs).sum := by
  have small := amounts_small few
  have gained := gains_nonneg (amounts legs)
  have lost := losses_nonneg (amounts legs)
  have summed : checkedSum (signedAdd 127) 0 (amounts legs) = some (0 + (amounts legs).sum) :=
    checkedSum_signedAdd (by omega) (by omega)
  rw [Int.zero_add] at summed
  exact summed

theorem amounts_sum_small {legs : List EntryLeg} (few : legs.length < 2 ^ 63) :
    -(2 ^ 126) < (amounts legs).sum ∧ (amounts legs).sum < 2 ^ 126 := by
  have small := amounts_small few
  have gained := gains_nonneg (amounts legs)
  have lost := losses_nonneg (amounts legs)
  rw [sum_eq_gains_sub_losses]
  omega

theorem few_filtered {legs : List EntryLeg} (few : legs.length < 2 ^ 63) (picked : EntryLeg → Bool) :
    (legs.filter picked).length < 2 ^ 63 :=
  Nat.lt_of_le_of_lt (List.length_filter_le picked legs) few

variable {legs : List EntryLeg}

theorem sideTotal_exact (few : legs.length < 2 ^ 63) (side : EntrySide) :
    sideTotalTrapping side legs = some (sideTotal side legs) :=
  checkedSum_amounts (few_filtered few _)

theorem legTotal_exact (few : legs.length < 2 ^ 63) (side : EntrySide) (id : AccountId) :
    legTotalTrapping side legs id = some (legTotal side legs id) :=
  checkedSum_amounts (few_filtered few _)

theorem netPosition_exact (few : legs.length < 2 ^ 63) (id : AccountId) :
    netPositionTrapping legs id = some (netPosition legs id) := by
  have credits : -(2 ^ 126) < legTotal .credit legs id ∧ legTotal .credit legs id < 2 ^ 126 :=
    amounts_sum_small (few_filtered few _)
  have debits : -(2 ^ 126) < legTotal .debit legs id ∧ legTotal .debit legs id < 2 ^ 126 :=
    amounts_sum_small (few_filtered few _)
  have fits : addI128 (legTotal .credit legs id) (-legTotal .debit legs id) =
      some (legTotal .credit legs id - legTotal .debit legs id) :=
    if_pos (by omega)
  simp [netPositionTrapping, legTotal_exact few, fits, netPosition]

end Overflow

/-- A reversal undoes its entry, and no sum of fewer than 2^63 legs overflows on the way. -/
theorem reverse_inverts {printUuid : Uuid → String} {id : JournalEntryId} {recordedAt : Timestamp}
    {transactionId : TransactionId} {sequenceNumber : Nat} {legs : List EntryLeg}
    {description : String} {entry : JournalEntry}
    (accepted : JournalEntry.new id recordedAt transactionId sequenceNumber legs description = .ok entry)
    (id' : JournalEntryId) (recordedAt' : Timestamp) (transactionId' : TransactionId)
    (sequenceNumber' : Nat) :
    (∃ reversal,
      entry.reverse printUuid id' recordedAt' transactionId' sequenceNumber' = .ok reversal ∧
        Inverts entry reversal ∧
        ∀ id'' recordedAt'' transactionId'' sequenceNumber'', ∃ again,
          reversal.reverse printUuid id'' recordedAt'' transactionId'' sequenceNumber'' = .ok again ∧
            again.legs = entry.legs) ∧
      ∀ anyLegs : List EntryLeg, anyLegs.length < 2 ^ 63 →
        (∀ side, sideTotalTrapping side anyLegs = some (sideTotal side anyLegs)) ∧
          ∀ account, netPositionTrapping anyLegs account = some (netPosition anyLegs account) := by
  have balanced : Balanced entry.legs := (new_fits accepted).2.2.1
  constructor
  next =>
    refine ⟨_, JournalEntry.reverse_of_balanced balanced, inverts_of_flipped rfl rfl, ?_⟩
    intro id'' recordedAt'' transactionId'' sequenceNumber''
    refine ⟨_, JournalEntry.reverse_of_balanced (balanced_flipped.mpr balanced), ?_⟩
    exact map_flipped_flipped entry.legs
  next =>
    intro anyLegs few
    exact ⟨sideTotal_exact few, netPosition_exact few⟩

def compoundEntry : JournalEntry :=
  { id := ⟨1⟩, transactionId := ⟨2⟩, sequenceNumber := 0
    legs := [.debit ⟨10⟩ Int64.maxValue, .credit ⟨20⟩ 7, .credit ⟨10⟩ Int64.maxValue, .debit ⟨30⟩ 7]
    description := "month end"
    recordedAt := ⟨0⟩
    reverses := none }

theorem reverse_inverts_compound :
    (∃ reversal, compoundEntry.reverse (fun _ => "1") ⟨3⟩ ⟨1⟩ ⟨4⟩ 1 = .ok reversal ∧
        Inverts compoundEntry reversal ∧
        ∀ id recordedAt transactionId sequenceNumber, ∃ again,
          reversal.reverse (fun _ => "1") id recordedAt transactionId sequenceNumber = .ok again ∧
            again.legs = compoundEntry.legs) ∧
      ∀ legs : List EntryLeg, legs.length < 2 ^ 63 →
        (∀ side, sideTotalTrapping side legs = some (sideTotal side legs)) ∧
          ∀ account, netPositionTrapping legs account = some (netPosition legs account) :=
  have accepted : JournalEntry.new ⟨1⟩ ⟨0⟩ ⟨2⟩ 0 compoundEntry.legs "month end" = .ok compoundEntry := rfl
  reverse_inverts accepted ⟨3⟩ ⟨1⟩ ⟨4⟩ 1

end BankingLedger
