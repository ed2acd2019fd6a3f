import BankingLedger.Api.Outcomes

set_option autoImplicit false

namespace BankingLedger

open FiniteMap MachineInt

section RoundTrip

variable {rt : Runtime} {draws draws' : Draws} {req : TransferRequest} {st st₁ st₂ : AppState}

theorem netCents_postings (req : TransferRequest) (id : AccountId) :
    netCents req.postings id =
      (if req.fromAccount = id then -req.amountCents else 0) +
        (if req.toAccount = id then req.amountCents else 0) := by
  simp [TransferRequest.postings, netCents, EntryLeg.signed]

theorem netCents_flipped_legs {req : TransferRequest} (positive : 0 < req.amountCents)
    (id : AccountId) : netCents (req.legs.map EntryLeg.flipped) id = netCents req.postings id := by
  rw [netCents_postings]
  simp [TransferRequest.legs, netCents, EntryLeg.signed, EntryLeg.flipped, EntryLeg.debit,
    EntryLeg.credit, positive, Int64.add_comm]

theorem entryById_fresh {journal : List JournalEntry} {entry : JournalEntry}
    (fresh : ∀ e ∈ journal, e.id ≠ entry.id) : entryById (journal ++ [entry]) entry.id = some entry := by
  have missing : journal.find? (fun e => decide (e.id = entry.id)) = none := by
    simpa [List.find?_eq_none] using fresh
  simp [entryById, List.find?_append, missing]

theorem reversal_repeats_transfer {response : TransferResponse} {reversal : ReversalResponse}
    (fresh : ∀ e ∈ st.journal, e.id ≠ draws.entryId)
    (transferred : transfer rt draws req st = (.ok response, st₁))
    (reversed : reverseJournalEntry rt draws' response.journalEntryId st₁ = (.ok reversal, st₂)) :
    0 < req.amountCents ∧ LegsPass st.accounts req.postings ∧
      Shifted (fun id => netCents req.postings id + netCents req.postings id)
        st.accounts st₂.accounts := by
  have outcome := transfer_outcome rt draws req st
  rw [transferred] at outcome
  obtain _ | _ | ⟨_, _, ⟨-, -, positive, -⟩, entryId, journal, pass, shifted⟩ := outcome
  have outcome := reversal_outcome rt draws' response.journalEntryId st₁
  rw [reversed] at outcome
  obtain _ | _ | ⟨_, _, original, found, -, -, again, -⟩ := outcome
  have written : entryById st₁.journal response.journalEntryId =
      some (req.entry draws (st.journalSeq + 1)) := by
    rw [journal, entryId]
    exact entryById_fresh fresh
  obtain rfl : req.entry draws (st.journalSeq + 1) = original := by
    rw [written] at found
    exact Option.some.inj found
  have same : netCents ((req.entry draws (st.journalSeq + 1)).legs.map EntryLeg.flipped) =
      netCents req.postings := funext (netCents_flipped_legs positive)
  rw [same] at again
  exact ⟨positive, pass, shifted.trans again⟩

theorem doubled_net_zero_iff {req : TransferRequest} (positive : 0 < req.amountCents) :
    (∀ id, netCents req.postings id + netCents req.postings id = 0) ↔
      req.fromAccount = req.toAccount := by
  have value := pos_iff.mp positive
  constructor
  · intro zero
    by_contra different
    have receiver := zero req.toAccount
    rw [netCents_postings] at receiver
    simp only [different, if_false, if_true, Int64.zero_add] at receiver
    exact add_self_ne_zero value receiver
  · intro same id
    rw [netCents_postings, same]
    split <;> grind

/-- Transferring and then reversing the entry restores the balances of a transfer to the sender
itself, and of no other. -/
theorem reversal_undoes_transfer_iff (rt : Runtime) (draws draws' : Draws) (req : TransferRequest)
    (st : AppState) {response : TransferResponse} {reversal : ReversalResponse}
    (fresh : ∀ e ∈ st.journal, e.id ≠ draws.entryId)
    (transferred : transfer rt draws req st = (.ok response, st₁))
    (reversed : reverseJournalEntry rt draws' response.journalEntryId st₁ = (.ok reversal, st₂)) :
    (∀ id, cells st₂.accounts id = cells st.accounts id) ↔ req.fromAccount = req.toAccount := by
  obtain ⟨positive, pass, shifted⟩ := reversal_repeats_transfer fresh transferred reversed
  rw [shifted.cells_eq_iff, doubled_net_zero_iff positive]
  intro id moved
  apply pass.found_of_net
  intro zero
  rw [zero] at moved
  exact moved rfl

end RoundTrip

namespace Sample

-- Stand-ins for the library texts; no balance depends on them.
def runtime : Runtime where
  hashing := { sha256Hex := fun _ => "", toRfc3339 := fun _ => "" }
  printUuid := fun _ => ""
  toUppercase := fun text => text
  entryToJson := fun _ => .ok ""
  reversalToJson := fun _ _ _ _ => ""

def uuid (n : Nat) : Uuid := ⟨.ofNat 128 n⟩

def draws (n : Nat) : Draws where
  accountId := uuid n
  transactionId := uuid (n + 1)
  entryId := uuid (n + 2)
  recordedAt := ⟨0⟩
  blockTime := ⟨0⟩
  arrival := 0
  failure := 0

def twoAccounts (first second : Int64) : AppState :=
  { AppState.new runtime ⟨0⟩ with
    accounts := (∅ : Accounts).insert (uuid 1) (.new (uuid 1) .asset "USD" first none)
      |>.insert (uuid 2) (.new (uuid 2) .asset "USD" second none) }

def transferred (first second amount : Int64) : AppState :=
  (transfer runtime (draws 10) ⟨uuid 1, uuid 2, amount, none⟩ (twoAccounts first second)).2

def reversed (first second amount : Int64) : Except AppError ReversalResponse × AppState :=
  reverseJournalEntry runtime (draws 20) (uuid 12) (transferred first second amount)

end Sample

open Sample

/-- 100 moved from 1000 to 0 and reversed: 800 and 200 are left. -/
theorem reversal_moves_funds_again :
    ∃ response reversal st₁ st₂,
      transfer runtime (draws 10) ⟨uuid 1, uuid 2, 100, none⟩ (twoAccounts 1000 0) =
        (.ok response, st₁) ∧
      reverseJournalEntry runtime (draws 20) response.journalEntryId st₁ = (.ok reversal, st₂) ∧
      cells st₂.accounts (uuid 1) = some (800, 800) ∧ cells st₂.accounts (uuid 2) = some (200, 200) ∧
      ¬ ∀ id, cells st₂.accounts id = cells (twoAccounts 1000 0).accounts id :=
  ⟨_, _, _, _, rfl, rfl, by decide +kernel, by decide +kernel,
    fun same => absurd (same (uuid 1)) (by decide +kernel)⟩

theorem reversal_undoes_transfer_iff_hundred :
    ∃ response reversal st₁ st₂,
      transfer runtime (draws 10) ⟨uuid 1, uuid 2, 100, none⟩ (twoAccounts 1000 0) =
        (.ok response, st₁) ∧
      reverseJournalEntry runtime (draws 20) response.journalEntryId st₁ = (.ok reversal, st₂) ∧
      ((∀ id, cells st₂.accounts id = cells (twoAccounts 1000 0).accounts id) ↔ uuid 1 = uuid 2) := by
  refine ⟨_, _, _, _, rfl, rfl, ?_⟩
  have fresh : ∀ e ∈ (twoAccounts 1000 0).journal, e.id ≠ (draws 10).entryId := by
    simp [twoAccounts, AppState.new]
  have transferred : transfer runtime (draws 10) ⟨uuid 1, uuid 2, 100, none⟩ (twoAccounts 1000 0) =
    (.ok _, _) := rfl
  exact reversal_undoes_transfer_iff runtime (draws 10) (draws 20) _ _ fresh transferred rfl

def ReversalAllOrNothing (rt : Runtime) (draws : Draws) (entryId : JournalEntryId) (st : AppState) :
    Prop :=
  ∀ e st', reverseJournalEntry rt draws entryId st = (.error e, st') →
    (∀ id, cells st'.accounts id = cells st.accounts id) ∧
      st'.journal = st.journal ∧ st'.hashChain = st.hashChain

theorem reversal_all_or_nothing_iff (rt : Runtime) (draws : Draws) (entryId : JournalEntryId)
    (st : AppState) :
    ReversalAllOrNothing rt draws entryId st ↔
      ∀ original, entryById st.journal entryId = some original → Balanced original.legs →
        StopsClean st.accounts (original.legs.map EntryLeg.flipped) := by
  unfold ReversalAllOrNothing
  have outcome := reversal_outcome rt draws entryId st
  generalize reverseJournalEntry rt draws entryId st = result at outcome ⊢
  cases outcome with
  | refused e st' accounts journal hashChain unfit =>
    constructor
    · intro _ original found balanced
      exact absurd balanced (unfit original found)
    · rintro - _ _ ⟨⟩
      exact ⟨fun id => by rw [accounts], journal, hashChain⟩
  | stopped e st' original found balanced posted journal hashChain =>
    have clean := reversalLeg_posts.stopped_cells_iff posted
    constructor
    · rintro traceless _ same -
      obtain rfl : original = _ := Option.some.inj (found.symm.trans same)
      exact clean.mp (traceless e st' rfl).1
    · rintro stops _ _ ⟨⟩
      exact ⟨clean.mpr (stops original found balanced), journal, hashChain⟩
  | done response st' original found balanced pass shifted journal =>
    constructor
    · rintro - _ same - before leg first
      obtain rfl : original = _ := Option.some.inj (found.symm.trans same)
      exact absurd pass (firstRefused_not_legsPass first)
    · rintro - _ _ ⟨⟩

/-- All of 100 moved to the other account: the reversal credits that account with 100 more, finds
nothing to debit at the first one and returns. -/
theorem failed_reversal_keeps_credit :
    ¬ ReversalAllOrNothing runtime (draws 20) (uuid 12) (transferred 100 0 100) := by
  intro traceless
  have kept : cells (transferred 100 0 100).accounts (uuid 2) = some (100, 100) := by decide +kernel
  have moved : cells (reversed 100 0 100).2.accounts (uuid 2) = some (200, 200) := by decide +kernel
  have same := (traceless _ (reversed 100 0 100).2 rfl).1 (uuid 2)
  rw [kept, moved] at same
  exact absurd same (by decide)

end BankingLedger
