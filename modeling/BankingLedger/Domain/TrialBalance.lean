import BankingLedger.Domain.JournalEntries
import BankingLedger.Shared.FiniteMap

set_option autoImplicit false

namespace BankingLedger

open FiniteMap MachineInt CheckedSum

abbrev Balances : Type := Map AccountId (Int64 × Int64)

namespace JournalExt

def allLegs (entries : List JournalEntry) : List EntryLeg := entries.flatMap JournalEntry.legs

def signedAmount (leg : EntryLeg) : Int64 :=
  match leg.side with
  | .debit => leg.amountCents
  | .credit => -leg.amountCents

def legsOf (legs : List EntryLeg) (accountId : AccountId) : List EntryLeg :=
  legs.filter fun leg => leg.accountId = accountId

-- Release builds wrap here, and the trial balance saturates.
def netPosition (entries : List JournalEntry) (accountId : AccountId) : Int64 :=
  ((legsOf (allLegs entries) accountId).map signedAmount).foldl (· + ·) 0

def tallyLeg (balances : Balances) (leg : EntryLeg) : Balances :=
  let (debits, credits) := (balances.lookup leg.accountId).getD (0, 0)
  match leg.side with
  | .debit => balances.insert leg.accountId (saturatingAdd debits leg.amountCents, credits)
  | .credit => balances.insert leg.accountId (debits, saturatingAdd credits leg.amountCents)

def trialBalance (entries : List JournalEntry) : Balances :=
  entries.foldl (fun balances entry => entry.legs.foldl tallyLeg balances) ∅

def signedAmountTrapping (leg : EntryLeg) : Option Int64 :=
  match leg.side with
  | .debit => some leg.amountCents
  | .credit => checkedSub 0 leg.amountCents

def netPositionTrapping (entries : List JournalEntry) (accountId : AccountId) : Option Int64 := do
  let amounts ← (legsOf (allLegs entries) accountId).mapM signedAmountTrapping
  checkedSum checkedAdd 0 amounts

def tallyLegTrapping (balances : Balances) (leg : EntryLeg) : Option Balances :=
  let (debits, credits) := (balances.lookup leg.accountId).getD (0, 0)
  match leg.side with
  | .debit =>
    (checkedAdd debits leg.amountCents).map fun sum => balances.insert leg.accountId (sum, credits)
  | .credit =>
    (checkedAdd credits leg.amountCents).map fun sum => balances.insert leg.accountId (debits, sum)

def trialBalanceTrapping (entries : List JournalEntry) : Option Balances :=
  entries.foldlM (fun balances entry => entry.legs.foldlM tallyLegTrapping balances) ∅

end JournalExt

open JournalExt

theorem checkedAdd_exact : Exact checkedAdd Int64.toInt InRange := by
  intro a b inside
  refine ⟨a + b, if_pos inside, ?_⟩
  rw [InRange, Int64.toInt_minValue, Int64.toInt_maxValue] at inside
  exact toInt_add_of_bounds inside.1 inside.2

theorem saturatingAdd_of_checked {a b c : Int64} (added : checkedAdd a b = some c) :
    saturatingAdd a b = c := by
  unfold checkedAdd at added
  split at added
  next inside =>
    rw [saturatingAdd, if_neg (by omega), if_neg (by omega)]
    exact Option.some.inj added
  next => cases added

theorem sideTotal_append (side : EntrySide) (first second : List EntryLeg) :
    sideTotal side (first ++ second) = sideTotal side first + sideTotal side second := by
  simp [sideTotal]

theorem legTotal_nonneg (side : EntrySide) {legs : List EntryLeg} (id : AccountId)
    (positive : ∀ leg ∈ legs, 0 < leg.amountCents) : 0 ≤ legTotal side legs id := by
  induction legs with
  | nil => exact Int.le_refl 0
  | cons leg rest ih =>
    rw [List.forall_mem_cons, pos_iff] at positive
    have later := ih positive.2
    rw [legTotal_cons]
    split <;> omega

structure Tallied (legs : List EntryLeg) (balances : Balances) : Prop where
  debits : ∀ id, ((balances.lookup id).getD (0, 0)).1.toInt = legTotal .debit legs id
  credits : ∀ id, ((balances.lookup id).getD (0, 0)).2.toInt = legTotal .credit legs id
  allDebits : total (fun sums => sums.1.toInt) balances = sideTotal .debit legs
  allCredits : total (fun sums => sums.2.toInt) balances = sideTotal .credit legs

theorem tallied_nil : Tallied [] ∅ where
  debits := fun _ => rfl
  credits := fun _ => rfl
  allDebits := rfl
  allCredits := rfl

theorem valueAt_getD {measure : Int64 × Int64 → Int} (zero : measure (0, 0) = 0) (balances : Balances)
    (id : AccountId) : valueAt measure balances id = measure ((balances.lookup id).getD (0, 0)) := by
  unfold valueAt
  cases balances.lookup id with
  | none => exact zero.symm
  | some sums => rfl

theorem Tallied.insert {done : List EntryLeg} {balances : Balances} (tallied : Tallied done balances)
    {leg : EntryLeg} {sums : Int64 × Int64}
    (debits : sums.1.toInt = ((balances.lookup leg.accountId).getD (0, 0)).1.toInt +
      if leg.side = .debit then leg.amountCents.toInt else 0)
    (credits : sums.2.toInt = ((balances.lookup leg.accountId).getD (0, 0)).2.toInt +
      if leg.side = .credit then leg.amountCents.toInt else 0) :
    Tallied (done ++ [leg]) (balances.insert leg.accountId sums) where
  debits := by
    intro id
    rw [legTotal_append, legTotal_cons, ← tallied.debits id, lookup_insert_eq]
    by_cases here : id = leg.accountId
    next =>
      subst here
      simp [debits, legTotal]
    next => simp [here, Ne.symm here, legTotal]
  credits := by
    intro id
    rw [legTotal_append, legTotal_cons, ← tallied.credits id, lookup_insert_eq]
    by_cases here : id = leg.accountId
    next =>
      subst here
      simp [credits, legTotal]
    next => simp [here, Ne.symm here, legTotal]
  allDebits := by
    rw [total_insert_eq, valueAt_getD rfl, debits, tallied.allDebits, sideTotal_append, sideTotal_cons]
    simp only [sideTotal, List.filter_nil, List.map_nil, List.sum_nil]
    omega
  allCredits := by
    rw [total_insert_eq, valueAt_getD rfl, credits, tallied.allCredits, sideTotal_append, sideTotal_cons]
    simp only [sideTotal, List.filter_nil, List.map_nil, List.sum_nil]
    omega

theorem Tallied.step {done : List EntryLeg} {balances : Balances} (tallied : Tallied done balances)
    {leg : EntryLeg}
    (room : InRange (legTotal leg.side done leg.accountId + leg.amountCents.toInt)) :
    ∃ balances', tallyLegTrapping balances leg = some balances' ∧ Tallied (done ++ [leg]) balances' := by
  unfold tallyLegTrapping
  cases side : leg.side with
  | debit =>
    rw [side, ← tallied.debits] at room
    obtain ⟨sum, added, value⟩ := checkedAdd_exact _ _ room
    let sums : Int64 × Int64 := (sum, ((balances.lookup leg.accountId).getD (0, 0)).2)
    exact ⟨balances.insert leg.accountId sums, by simp [sums, added],
      tallied.insert (by simp [sums, value, side]) (by simp [sums, side])⟩
  | credit =>
    rw [side, ← tallied.credits] at room
    obtain ⟨sum, added, value⟩ := checkedAdd_exact _ _ room
    let sums : Int64 × Int64 := (((balances.lookup leg.accountId).getD (0, 0)).1, sum)
    exact ⟨balances.insert leg.accountId sums, by simp [sums, added],
      tallied.insert (by simp [sums, side]) (by simp [sums, value, side])⟩

theorem Tallied.legs {done legs : List EntryLeg} {balances : Balances} (tallied : Tallied done balances)
    (positive : ∀ leg ∈ done ++ legs, 0 < leg.amountCents)
    (fits : ∀ side id, InRange (legTotal side (done ++ legs) id)) :
    ∃ balances', legs.foldlM tallyLegTrapping balances = some balances' ∧
      Tallied (done ++ legs) balances' := by
  induction legs generalizing done balances with
  | nil => exact ⟨balances, rfl, by rwa [List.append_nil]⟩
  | cons leg rest ih =>
    have room : InRange (legTotal leg.side done leg.accountId + leg.amountCents.toInt) := by
      have whole := fits leg.side leg.accountId
      rw [legTotal_append, legTotal_cons, if_pos ⟨rfl, rfl⟩] at whole
      rw [List.forall_mem_append, List.forall_mem_cons, pos_iff] at positive
      have before := legTotal_nonneg leg.side leg.accountId positive.1
      have after := legTotal_nonneg leg.side leg.accountId positive.2.2
      simp only [InRange, Int64.toInt_minValue, Int64.toInt_maxValue] at whole ⊢
      omega
    obtain ⟨middle, first, talliedNext⟩ := tallied.step room
    rw [List.append_cons] at positive fits ⊢
    obtain ⟨last, later, talliedLast⟩ := ih talliedNext positive fits
    refine ⟨last, ?_, talliedLast⟩
    rw [List.foldlM_cons, first]
    exact later

theorem Tallied.entries {done : List EntryLeg} {entries : List JournalEntry} {balances : Balances}
    (tallied : Tallied done balances)
    (positive : ∀ leg ∈ done ++ allLegs entries, 0 < leg.amountCents)
    (fits : ∀ side id, InRange (legTotal side (done ++ allLegs entries) id)) :
    ∃ balances', entries.foldlM (fun balances entry => entry.legs.foldlM tallyLegTrapping balances)
        balances = some balances' ∧ Tallied (done ++ allLegs entries) balances' := by
  induction entries generalizing done balances with
  | nil => exact ⟨balances, rfl, by simpa [allLegs] using tallied⟩
  | cons entry rest ih =>
    have split : done ++ allLegs (entry :: rest) = (done ++ entry.legs) ++ allLegs rest := by
      simp [allLegs]
    rw [split] at positive fits ⊢
    have positiveHere := (List.forall_mem_append.mp positive).1
    have fitsHere : ∀ side id, InRange (legTotal side (done ++ entry.legs) id) := by
      intro side id
      have whole := fits side id
      rw [legTotal_append] at whole
      have here := legTotal_nonneg side id positiveHere
      have after := legTotal_nonneg side id (List.forall_mem_append.mp positive).2
      simp only [InRange, Int64.toInt_minValue, Int64.toInt_maxValue] at whole ⊢
      omega
    obtain ⟨middle, first, talliedNext⟩ := tallied.legs positiveHere fitsHere
    obtain ⟨last, later, talliedLast⟩ := ih talliedNext positive fits
    refine ⟨last, ?_, talliedLast⟩
    rw [List.foldlM_cons, first]
    exact later

theorem trialBalance_of_trapping {entries : List JournalEntry} {balances : Balances}
    (tallied : trialBalanceTrapping entries = some balances) : trialBalance entries = balances := by
  refine foldl_of_foldlM (fun balances entry balances' folded => ?_) tallied
  refine foldl_of_foldlM (fun balances leg balances' added => ?_) folded
  unfold tallyLegTrapping at added
  unfold tallyLeg
  cases side : leg.side with
  | debit =>
    simp only [side, Option.map_eq_some_iff] at added ⊢
    obtain ⟨sum, fits, rfl⟩ := added
    rw [saturatingAdd_of_checked fits]
  | credit =>
    simp only [side, Option.map_eq_some_iff] at added ⊢
    obtain ⟨sum, fits, rfl⟩ := added
    rw [saturatingAdd_of_checked fits]

theorem signedAmount_of_positive {leg : EntryLeg} (positive : 0 < leg.amountCents) :
    signedAmountTrapping leg = some (signedAmount leg) ∧
      (signedAmount leg).toInt =
        match leg.side with
        | .debit => leg.amountCents.toInt
        | .credit => -leg.amountCents.toInt := by
  have value := pos_iff.mp positive
  have bound := bounds leg.amountCents
  unfold signedAmountTrapping signedAmount
  cases leg.side with
  | debit => exact ⟨rfl, rfl⟩
  | credit =>
    have negated : (0 : Int64) - leg.amountCents = -leg.amountCents := Int64.zero_sub _
    have fits := toInt_sub_of_bounds (a := 0) (b := leg.amountCents) (by simp; omega) (by simp; omega)
    constructor
    · rw [checkedSub, Int64.toInt_minValue, Int64.toInt_maxValue, Int64.toInt_zero, if_pos (by omega)]
      exact congrArg some negated
    · rw [← negated, fits]
      exact Int.zero_sub _

theorem mapM_signedAmount {legs : List EntryLeg} (positive : ∀ leg ∈ legs, 0 < leg.amountCents) :
    legs.mapM signedAmountTrapping = some (legs.map signedAmount) := by
  induction legs with
  | nil => rfl
  | cons leg rest ih =>
    rw [List.forall_mem_cons] at positive
    simp [(signedAmount_of_positive positive.1).1, ih positive.2]

-- What an account gains and loses as the legs are added up is what they debit and credit it.
theorem gains_signedAmount {legs : List EntryLeg} (id : AccountId)
    (positive : ∀ leg ∈ legs, 0 < leg.amountCents) :
    gains (((legsOf legs id).map signedAmount).map Int64.toInt) = legTotal .debit legs id ∧
      losses (((legsOf legs id).map signedAmount).map Int64.toInt) = legTotal .credit legs id := by
  induction legs with
  | nil => exact ⟨rfl, rfl⟩
  | cons leg rest ih =>
    rw [List.forall_mem_cons] at positive
    have later := ih positive.2
    have value := pos_iff.mp positive.1
    have signed := (signedAmount_of_positive positive.1).2
    rw [legTotal_cons, legTotal_cons]
    by_cases here : leg.accountId = id
    next =>
      cases side : leg.side <;>
        simp only [legsOf, here, decide_true, List.filter_cons_of_pos, List.map_cons, gains, losses,
          List.sum_cons, signed, side, and_true, if_true, reduceCtorEq, if_false] at later ⊢ <;>
        omega
    next => simpa [legsOf, here] using later

theorem netTotal_exact {entries : List JournalEntry} {id : AccountId}
    (positive : ∀ leg ∈ allLegs entries, 0 < leg.amountCents)
    (fits : ∀ side, InRange (legTotal side (allLegs entries) id)) :
    ∃ net, JournalExt.netPositionTrapping entries id = some net ∧ JournalExt.netPosition entries id = net ∧
      net.toInt = legTotal .debit (allLegs entries) id - legTotal .credit (allLegs entries) id := by
  have debits := fits .debit
  have credits := fits .credit
  simp only [InRange, Int64.toInt_minValue, Int64.toInt_maxValue] at debits credits
  obtain ⟨gained, lost⟩ := gains_signedAmount id positive
  have inside : ∀ n : Int, -9223372036854775807 ≤ n → n ≤ 9223372036854775807 → InRange n := by
    simp only [InRange, Int64.toInt_minValue, Int64.toInt_maxValue]
    omega
  have picked : ∀ leg ∈ legsOf (allLegs entries) id, 0 < leg.amountCents :=
    fun leg member => positive leg (List.mem_of_mem_filter member)
  obtain ⟨net, summed, value⟩ := checkedSum_exact checkedAdd_exact inside 0
    ((legsOf (allLegs entries) id).map signedAmount)
    (by rw [lost, Int64.toInt_zero]; omega) (by rw [gained, Int64.toInt_zero]; omega)
  refine ⟨net, ?_, ?_, ?_⟩
  · simp only [JournalExt.netPositionTrapping, mapM_signedAmount picked]
    exact summed
  · exact foldl_of_foldlM (fun a b c added => (checkedAdd_eq_some_iff.mp added).2.2.symm) summed
  · rw [value, sum_eq_gains_sub_losses, gained, lost, Int64.toInt_zero, Int.zero_add]

theorem legTotalTrapping_exact {legs : List EntryLeg} {side : EntrySide} {id : AccountId}
    (positive : ∀ leg ∈ legs, 0 < leg.amountCents) (fits : InRange (legTotal side legs id)) :
    legTotalTrapping side legs id = some (legTotal side legs id) := by
  have nonneg : ∀ term ∈ (legs.filter fun leg => leg.side = side ∧ leg.accountId = id).map
      (fun leg => leg.amountCents.toInt), 0 ≤ term := by
    intro term member
    obtain ⟨leg, picked, rfl⟩ := List.mem_map.mp member
    exact (pos_iff.mp (positive leg (List.mem_of_mem_filter picked))).le
  have split := gains_of_nonneg nonneg
  have total := legTotal_nonneg side id positive
  simp only [InRange, Int64.toInt_minValue, Int64.toInt_maxValue] at fits
  rw [legTotal] at fits total ⊢
  have summed : checkedSum (signedAdd 127) 0 _ = some (0 + _) :=
    checkedSum_signedAdd (by rw [split.2]; omega) (by rw [split.1]; omega)
  rw [Int.zero_add] at summed
  exact summed

theorem netPosition_of_fits {legs : List EntryLeg} {id : AccountId}
    (positive : ∀ leg ∈ legs, 0 < leg.amountCents) (fits : ∀ side, InRange (legTotal side legs id)) :
    netPositionTrapping legs id = some (netPosition legs id) := by
  have credits := fits .credit
  have debits := fits .debit
  simp only [InRange, Int64.toInt_minValue, Int64.toInt_maxValue] at credits debits
  have difference : addI128 (legTotal .credit legs id) (-legTotal .debit legs id) =
      some (legTotal .credit legs id - legTotal .debit legs id) :=
    if_pos (by omega)
  simp [netPositionTrapping, legTotalTrapping_exact positive (fits _), difference, netPosition]

/-- The three views of the books give one account of them, and nothing overflows or saturates on the
way. -/
structure BooksAgree (entries : List JournalEntry) : Prop where
  balanced : total (fun sums => sums.1.toInt) (trialBalance entries) =
    total (fun sums => sums.2.toInt) (trialBalance entries)
  agree : ∀ account,
    let sums := ((trialBalance entries).lookup account).getD (0, 0)
    sums.1.toInt - sums.2.toInt = (JournalExt.netPosition entries account).toInt ∧
      (JournalExt.netPosition entries account).toInt = -(netPosition (allLegs entries) account).2.2
  trialBalance_exact : trialBalanceTrapping entries = some (trialBalance entries)
  netPosition_exact : ∀ account,
    JournalExt.netPositionTrapping entries account = some (JournalExt.netPosition entries account) ∧
      netPositionTrapping (allLegs entries) account =
        some (netPosition (allLegs entries) account)

theorem sideTotal_allLegs {entries : List JournalEntry}
    (balanced : ∀ entry ∈ entries, Balanced entry.legs) :
    sideTotal .debit (allLegs entries) = sideTotal .credit (allLegs entries) := by
  induction entries with
  | nil => rfl
  | cons entry rest ih =>
    rw [List.forall_mem_cons] at balanced
    obtain ⟨⟨_, _, equal⟩, later⟩ := balanced
    have whole : allLegs (entry :: rest) = entry.legs ++ allLegs rest := rfl
    rw [whole, sideTotal_append, sideTotal_append, equal, ih later]

theorem books_agree {entries : List JournalEntry}
    (accepted : ∀ entry ∈ entries, ∃ id recordedAt transactionId sequenceNumber legs description,
      JournalEntry.new id recordedAt transactionId sequenceNumber legs description = .ok entry)
    (positive : ∀ entry ∈ entries, ∀ leg ∈ entry.legs, 0 < leg.amountCents)
    (fits : ∀ account, InRange (legTotal .debit (allLegs entries) account) ∧
      InRange (legTotal .credit (allLegs entries) account)) : BooksAgree entries := by
  have positiveAll : ∀ leg ∈ allLegs entries, 0 < leg.amountCents := by
    intro leg member
    obtain ⟨entry, listed, member⟩ := List.mem_flatMap.mp member
    exact positive entry listed leg member
  have fitsAll : ∀ side id, InRange (legTotal side (allLegs entries) id) := by
    intro side id
    cases side with
    | debit => exact (fits id).1
    | credit => exact (fits id).2
  obtain ⟨balances, summed, tallied⟩ := tallied_nil.entries positiveAll fitsAll
  have balance : trialBalance entries = balances := trialBalance_of_trapping summed
  have balancedAll : ∀ entry ∈ entries, Balanced entry.legs := by
    intro entry member
    obtain ⟨_, _, _, _, _, _, built⟩ := accepted entry member
    exact (new_fits built).2.2.1
  rw [List.nil_append] at tallied
  exact
    { balanced := by rw [balance, tallied.allDebits, tallied.allCredits, sideTotal_allLegs balancedAll]
      agree := by
        intro account sums
        obtain ⟨net, _, here, value⟩ := netTotal_exact positiveAll fun side => fitsAll side account
        rw [here, value]
        simp only [sums, balance, tallied.debits, tallied.credits, netPosition]
        exact ⟨trivial, (Int.neg_sub _ _).symm⟩
      trialBalance_exact := by rw [balance]; exact summed
      netPosition_exact := by
        intro account
        obtain ⟨net, trapping, here, _⟩ := netTotal_exact positiveAll fun side => fitsAll side account
        rw [here]
        exact ⟨trapping, netPosition_of_fits positiveAll fun side => fitsAll side account⟩ }

namespace Sample

def payments : List JournalEntry :=
  [{ id := ⟨1⟩, transactionId := ⟨2⟩, sequenceNumber := 0
     legs := [.debit ⟨10⟩ 5, .credit ⟨20⟩ 5], description := "rent", recordedAt := ⟨0⟩, reverses := none },
    { id := ⟨3⟩, transactionId := ⟨4⟩, sequenceNumber := 1
      legs := [.debit ⟨20⟩ Int64.maxValue, .credit ⟨30⟩ Int64.maxValue]
      description := "refund", recordedAt := ⟨1⟩, reverses := none }]

theorem fits_payments (side : EntrySide) (account : AccountId) :
    InRange (legTotal side (allLegs payments) account) := by
  by_cases listed : account ∈ (allLegs payments).map EntryLeg.accountId
  next =>
    have fits : ∀ account ∈ (allLegs payments).map EntryLeg.accountId,
        InRange (legTotal side (allLegs payments) account) := by
      cases side <;> decide
    exact fits account listed
  next =>
    have absent : ∀ leg ∈ allLegs payments, ¬(leg.side = side ∧ leg.accountId = account) := by
      rintro leg member ⟨_, rfl⟩
      exact listed (List.mem_map_of_mem member)
    rw [legTotal, List.filter_eq_nil_iff.mpr (by simpa using absent)]
    decide

end Sample

theorem books_agree_payments : BooksAgree Sample.payments := by
  apply books_agree
  · intro entry member
    rcases List.mem_pair.mp member with same | same
    · exact ⟨⟨1⟩, ⟨0⟩, ⟨2⟩, 0, entry.legs, "rent", by rw [same]; rfl⟩
    · exact ⟨⟨3⟩, ⟨1⟩, ⟨4⟩, 1, entry.legs, "refund", by rw [same]; rfl⟩
  · decide
  · intro account
    exact ⟨Sample.fits_payments .debit account, Sample.fits_payments .credit account⟩

end BankingLedger
