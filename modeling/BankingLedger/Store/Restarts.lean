import BankingLedger.Api.JournalOrder
import BankingLedger.Store.HashBlocks

set_option autoImplicit false

namespace BankingLedger

open Interleaving

/-- `restore_from_store`, given what the two reads from the store return. -/
def AppState.restoredFromStore (accounts : Except String (List Account))
    (chain : Except String HashChain) (st : AppState) : AppState :=
  { st with
    accounts := restoreFromStore accounts st.accounts
    hashChain :=
      match chain with
      | .ok chain => if 1 < chain.blocks.length then chain else st.hashChain
      | .error _ => st.hashChain }

structure ServerLife (I : Type) where
  started : Timestamp
  accounts : Except String (List Account)
  chain : Except String HashChain
  calls : I → EntryCall
  schedule : List I

namespace ServerLife

variable {I : Type} [DecidableEq I] (rt : Runtime) (life : ServerLife I)

def start : Config I Books EntryWorker :=
  entryStart ((AppState.new rt life.started).restoredFromStore life.accounts life.chain).toBooks
    life.calls

def numbers : List Nat :=
  ((entrySystem rt).run (life.start rt) life.schedule).shared.journal.map JournalEntry.sequenceNumber

end ServerLife

section Lives

variable {I : Type} [DecidableEq I] {rt : Runtime}

/-- No two entries of the history share a number, and the numbers increase from run to run. -/
def NumberedApart (rt : Runtime) (history : List (ServerLife I)) : Prop :=
  (history.flatMap (ServerLife.numbers rt)).Nodup ∧
    history.Pairwise fun earlier later =>
      ∀ n ∈ earlier.numbers rt, ∀ m ∈ later.numbers rt, n < m

/-- A run draws a number for an entry only once its own counter has reached every number of the
runs before it. -/
def CountsOn (rt : Runtime) (history : List (ServerLife I)) : Prop :=
  history.Pairwise fun earlier later => ∀ n ∈ earlier.numbers rt,
    (entrySystem rt).RunMeets
      (fun c i => journalTickets.Draws (entrySystem rt) c i → n ≤ c.shared.journalSeq)
      (later.start rt) later.schedule

omit [DecidableEq I] in
theorem ServerLife.start_empty (life : ServerLife I) :
    journalTickets.log (life.start rt).shared = [] := rfl

omit [DecidableEq I] in
theorem ServerLife.start_idle (life : ServerLife I) (i : I) :
    journalTickets.held ((life.start rt).thread i) = none :=
  entryStart_idle _ life.calls i

theorem ServerLife.numbers_nodup (life : ServerLife I) : (life.numbers rt).Nodup :=
  Tickets.log_nodup entryStep_ticket life.start_idle life.start_empty life.schedule

/-- The numbers stay apart in every history whose runs count on from those before. -/
theorem numbered_apart (rt : Runtime) (history : List (ServerLife I)) (countsOn : CountsOn rt history) :
    NumberedApart rt history := by
  have increasing : history.Pairwise fun earlier later =>
      ∀ n ∈ earlier.numbers rt, ∀ m ∈ later.numbers rt, n < m := by
    refine countsOn.imp fun {earlier later} reached n before => ?_
    exact Tickets.above_floor entryStep_ticket later.start_idle later.start_empty (reached n before)
  refine ⟨List.nodup_flatMap.mpr ⟨fun life _ => life.numbers_nodup, ?_⟩, increasing⟩
  refine increasing.imp fun {earlier later} above => ?_
  intro n before after
  exact absurd (above n before n after) (Nat.lt_irrefl n)

end Lives

namespace Sample

def lifeWith (calls : Bool → TransferRequest) (schedule : List Bool) : ServerLife Bool where
  started := ⟨0⟩
  accounts := .ok [.new (uuid 1) .asset "USD" 1000 none, .new (uuid 2) .asset "USD" 0 none]
  chain := .error "load_hash_chain"
  calls := fun i => .transfer ⟨calls i, true, draws 10⟩
  schedule := schedule

def oneTransfer : ServerLife Bool :=
  lifeWith (fun _ => ⟨uuid 1, uuid 2, 100, none⟩) (List.replicate 20 true)

-- A transfer of nothing comes first: it uses up the number 1 and is refused.
def refusedThenTransfer : ServerLife Bool :=
  lifeWith (fun i => ⟨uuid 1, uuid 2, if i then 100 else 0, none⟩)
    (List.replicate 20 false ++ List.replicate 20 true)

end Sample

open Sample

/-- Two runs with a transfer each: both entries have the number 1. -/
theorem restart_repeats_number :
    [oneTransfer, oneTransfer].flatMap (ServerLife.numbers runtime) = [1, 1] ∧
      ¬ NumberedApart runtime [oneTransfer, oneTransfer] := by
  have numbers : [oneTransfer, oneTransfer].flatMap (ServerLife.numbers runtime) = [1, 1] := by
    decide +kernel
  refine ⟨numbers, fun apart => ?_⟩
  have distinct := apart.1
  rw [numbers] at distinct
  exact absurd distinct (by decide)

theorem numbered_apart_refused_first :
    [oneTransfer, refusedThenTransfer].flatMap (ServerLife.numbers runtime) = [1, 2] ∧
      NumberedApart runtime [oneTransfer, refusedThenTransfer] := by
  refine ⟨by decide +kernel, numbered_apart runtime _ ?_⟩
  unfold CountsOn
  decide +kernel

end BankingLedger
