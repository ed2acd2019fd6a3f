import BankingLedger.Shared.Interleaving
import Mathlib.Data.Finset.Card

set_option autoImplicit false

namespace BankingLedger

open Interleaving

structure Bulkhead where
  maxConcurrent : UInt32
  active : UInt32
  rejected : UInt64
deriving DecidableEq, Repr

namespace Bulkhead

def new (maxConcurrent : UInt32) : Bulkhead :=
  { maxConcurrent, active := 0, rejected := 0 }

def release (bulkhead : Bulkhead) : Bulkhead :=
  { bulkhead with active := bulkhead.active - 1 }

def activeCount (bulkhead : Bulkhead) : UInt32 := bulkhead.active

end Bulkhead

-- Guards are told apart by the order in which they were handed out.
inductive BulkheadOp where
  | tryAcquire
  | drop (guard : Nat)
deriving DecidableEq, Repr

-- `full` says what the failed call had loaded.
inductive BulkheadOutcome where
  | acquired (guard : Nat)
  | full (loaded : UInt32)
  | dropped (guard : Nat)
deriving DecidableEq, Repr

-- The load, the exchange, the count of a rejection and the subtraction of a drop are a step each.
inductive AcquireStage where
  | ready
  | load
  | exchange (current : UInt32)
  | reject (current : UInt32)
deriving DecidableEq, Repr

/-- The program chooses the next operation from the outcomes so far. -/
structure BulkheadThread where
  program : List BulkheadOutcome → Option BulkheadOp
  stage : AcquireStage
  outcomes : List BulkheadOutcome

def BulkheadThread.returns (thread : BulkheadThread) (outcome : BulkheadOutcome) : BulkheadThread :=
  { thread with stage := .ready, outcomes := thread.outcomes ++ [outcome] }

-- `guards` are the guards that exist, `handedOut` is how many there have been. A guard is owned by
-- one place in the program at a time, so only one that exists can be dropped.
structure SharedBulkhead where
  bulkhead : Bulkhead
  guards : Finset Nat
  handedOut : Nat

def bulkheadStep (s : SharedBulkhead) (thread : BulkheadThread) :
    Option (SharedBulkhead × BulkheadThread) :=
  match thread.stage with
  | .ready =>
    match thread.program thread.outcomes with
    | none => none
    | some .tryAcquire => some (s, { thread with stage := .load })
    | some (.drop guard) =>
      if guard ∈ s.guards then
        some ({ s with bulkhead := s.bulkhead.release, guards := s.guards.erase guard },
          thread.returns (.dropped guard))
      else none
  | .load =>
    let current := s.bulkhead.active
    if current ≥ s.bulkhead.maxConcurrent then some (s, { thread with stage := .reject current })
    else some (s, { thread with stage := .exchange current })
  | .exchange current =>
    if s.bulkhead.active = current then
      some ({ bulkhead := { s.bulkhead with active := current + 1 }
              guards := insert s.handedOut s.guards, handedOut := s.handedOut + 1 },
        thread.returns (.acquired s.handedOut))
    else some (s, { thread with stage := .load })
  | .reject current =>
    some ({ s with bulkhead := { s.bulkhead with rejected := s.bulkhead.rejected + 1 } },
      thread.returns (.full current))

def bulkheadSystem : System SharedBulkhead BulkheadThread where
  step := bulkheadStep

variable {I : Type}

def bulkheadStart (maxConcurrent : UInt32) (program : I → List BulkheadOutcome → Option BulkheadOp) :
    Config I SharedBulkhead BulkheadThread where
  shared := { bulkhead := .new maxConcurrent, guards := ∅, handedOut := 0 }
  thread i := { program := program i, stage := .ready, outcomes := [] }

inductive BulkheadMove (s : SharedBulkhead) (thread : BulkheadThread) :
    SharedBulkhead → BulkheadThread → Prop where
  | call : BulkheadMove s thread s { thread with stage := .load }
  | drop (guard : Nat) (exists_guard : guard ∈ s.guards) :
    BulkheadMove s thread { s with bulkhead := s.bulkhead.release, guards := s.guards.erase guard }
      (thread.returns (.dropped guard))
  | loadFull (full : s.bulkhead.maxConcurrent ≤ s.bulkhead.active) :
    BulkheadMove s thread s { thread with stage := .reject s.bulkhead.active }
  | loadFree (free : s.bulkhead.active < s.bulkhead.maxConcurrent) :
    BulkheadMove s thread s { thread with stage := .exchange s.bulkhead.active }
  | exchange (at_exchange : thread.stage = .exchange s.bulkhead.active) :
    BulkheadMove s thread
      { bulkhead := { s.bulkhead with active := s.bulkhead.active + 1 }
        guards := insert s.handedOut s.guards, handedOut := s.handedOut + 1 }
      (thread.returns (.acquired s.handedOut))
  | reject (current : UInt32) (at_reject : thread.stage = .reject current) :
    BulkheadMove s thread { s with bulkhead := { s.bulkhead with rejected := s.bulkhead.rejected + 1 } }
      (thread.returns (.full current))

theorem bulkheadStep_cases {s s' : SharedBulkhead} {thread thread' : BulkheadThread}
    (step : bulkheadStep s thread = some (s', thread')) : BulkheadMove s thread s' thread' := by
  unfold bulkheadStep at step
  cases stage : thread.stage with
  | ready =>
    simp only [stage] at step
    split at step
    next => cases step
    next => cases step; exact .call
    next guard _ =>
      split_ifs at step with present
      cases step
      exact .drop guard present
  | load =>
    simp only [stage] at step
    split_ifs at step with full
    next => cases step; exact .loadFull full
    next => cases step; exact .loadFree (UInt32.not_le.mp full)
  | exchange current =>
    simp only [stage] at step
    split_ifs at step with same
    next => cases step; subst same; exact .exchange stage
    next => cases step; exact .call
  | reject current =>
    simp only [stage] at step
    cases step
    exact .reject current stage

def Logged (c : Config I SharedBulkhead BulkheadThread) (outcome : BulkheadOutcome) : Prop :=
  ∃ i, outcome ∈ (c.thread i).outcomes

section Logs

variable [DecidableEq I] {c : Config I SharedBulkhead BulkheadThread} {s : SharedBulkhead} {i : I}

theorem logged_returns {outcome outcome' : BulkheadOutcome} :
    Logged { shared := s, thread := Function.update c.thread i ((c.thread i).returns outcome) } outcome' ↔
      Logged c outcome' ∨ outcome' = outcome := by
  have before := exists_thread_iff (fun thread => outcome' ∈ thread.outcomes) c.thread i
  have after := exists_update_iff (fun thread => outcome' ∈ thread.outcomes) c.thread i
    ((c.thread i).returns outcome)
  unfold Logged
  rw [before, after]
  simp only [BulkheadThread.returns, List.mem_append, List.mem_singleton]
  exact or_right_comm

theorem logged_stage {stage : AcquireStage} {outcome : BulkheadOutcome} :
    Logged { shared := s, thread := Function.update c.thread i { c.thread i with stage } } outcome ↔
      Logged c outcome := by
  have before := exists_thread_iff (fun thread => outcome ∈ thread.outcomes) c.thread i
  have after := exists_update_iff (fun thread => outcome ∈ thread.outcomes) c.thread i
    { c.thread i with stage }
  unfold Logged
  rw [before, after]

end Logs

def AcquireStage.Allowed (limit : UInt32) : AcquireStage → Prop
  | .exchange current => current < limit
  | .reject current => current = limit
  | _ => True

structure BulkheadInvariant (limit : UInt32) (c : Config I SharedBulkhead BulkheadThread) :
    Prop where
  maxConcurrent : c.shared.bulkhead.maxConcurrent = limit
  active : c.shared.bulkhead.active.toNat = c.shared.guards.card
  bounded : c.shared.bulkhead.active ≤ limit
  handedOut : ∀ guard, Logged c (.acquired guard) ↔ guard < c.shared.handedOut
  dropped : ∀ guard, Logged c (.dropped guard) → guard < c.shared.handedOut
  guards : ∀ guard, guard ∈ c.shared.guards ↔
    Logged c (.acquired guard) ∧ ¬ Logged c (.dropped guard)
  loaded : ∀ i, (c.thread i).stage.Allowed limit
  full : ∀ loaded, Logged c (.full loaded) → loaded = limit

section Runs

variable {limit : UInt32} {c : Config I SharedBulkhead BulkheadThread}

theorem bulkheadStart_invariant (program : I → List BulkheadOutcome → Option BulkheadOp) :
    BulkheadInvariant limit (bulkheadStart limit program) where
  maxConcurrent := rfl
  active := rfl
  bounded := UInt32.zero_le
  handedOut guard := by simp [Logged, bulkheadStart]
  dropped guard := by simp [Logged, bulkheadStart]
  guards guard := by simp [Logged, bulkheadStart]
  loaded i := trivial
  full loaded := by simp [Logged, bulkheadStart]

theorem BulkheadInvariant.active_pos (inv : BulkheadInvariant limit c) {guard : Nat}
    (present : guard ∈ c.shared.guards) : 0 < c.shared.bulkhead.active.toNat := by
  rw [inv.active]
  exact Finset.card_pos.mpr ⟨guard, present⟩

variable [DecidableEq I]

theorem BulkheadInvariant.stage (inv : BulkheadInvariant limit c) (i : I) {stage : AcquireStage}
    (allowed : stage.Allowed limit) : BulkheadInvariant limit
      { shared := c.shared, thread := Function.update c.thread i { c.thread i with stage } } where
  maxConcurrent := inv.maxConcurrent
  active := inv.active
  bounded := inv.bounded
  handedOut guard := by rw [logged_stage, inv.handedOut]
  dropped guard := by rw [logged_stage]; exact inv.dropped guard
  guards guard := by rw [logged_stage, logged_stage, inv.guards]
  loaded := forall_update (fun _ (thread : BulkheadThread) => thread.stage.Allowed limit) allowed inv.loaded
  full loaded := by rw [logged_stage]; exact inv.full loaded

theorem toNat_release {bulkhead : Bulkhead} (positive : 0 < bulkhead.active.toNat) :
    bulkhead.release.active.toNat + 1 = bulkhead.active.toNat := by
  have one : (1 : UInt32) ≤ bulkhead.active := UInt32.le_iff_toNat_le.mpr positive
  rw [Bulkhead.release, UInt32.toNat_sub_of_le _ _ one, UInt32.toNat_one]
  omega

theorem BulkheadInvariant.drop (inv : BulkheadInvariant limit c) (i : I) {guard : Nat}
    (present : guard ∈ c.shared.guards) : BulkheadInvariant limit
      { shared := { c.shared with
          bulkhead := c.shared.bulkhead.release, guards := c.shared.guards.erase guard }
        thread := Function.update c.thread i ((c.thread i).returns (.dropped guard)) } where
  maxConcurrent := inv.maxConcurrent
  active := by
    have released := toNat_release (inv.active_pos present)
    have erased := Finset.card_erase_add_one present
    have active := inv.active
    simp only
    omega
  bounded := by
    have released := toNat_release (inv.active_pos present)
    have below := UInt32.le_iff_toNat_le.mp inv.bounded
    rw [UInt32.le_iff_toNat_le]
    simp only
    omega
  handedOut other := by simpa [logged_returns] using inv.handedOut other
  dropped other := by
    rw [logged_returns]
    rintro (before | same)
    · exact inv.dropped other before
    · cases same
      exact (inv.handedOut guard).mp ((inv.guards guard).mp present).1
  guards other := by
    simp only [logged_returns, Finset.mem_erase, inv.guards other, BulkheadOutcome.dropped.injEq,
      reduceCtorEq, or_false, not_or]
    tauto
  loaded := forall_update (fun _ (thread : BulkheadThread) => thread.stage.Allowed limit) trivial
    inv.loaded
  full loaded := by simpa [logged_returns] using inv.full loaded

theorem toNat_acquired {bulkhead : Bulkhead} (free : bulkhead.active < limit) :
    (bulkhead.active + 1).toNat = bulkhead.active.toNat + 1 := by
  have below := UInt32.lt_iff_toNat_lt.mp free
  have bound := limit.toNat_lt
  rw [UInt32.toNat_add, UInt32.toNat_one, Nat.mod_eq_of_lt (by omega)]

theorem BulkheadInvariant.exchange (inv : BulkheadInvariant limit c) (i : I)
    (at_exchange : (c.thread i).stage = .exchange c.shared.bulkhead.active) : BulkheadInvariant limit
      { shared :=
          { bulkhead := { c.shared.bulkhead with active := c.shared.bulkhead.active + 1 }
            guards := insert c.shared.handedOut c.shared.guards, handedOut := c.shared.handedOut + 1 }
        thread := Function.update c.thread i ((c.thread i).returns (.acquired c.shared.handedOut)) } := by
  have free : c.shared.bulkhead.active < limit := by
    have allowed := inv.loaded i
    rwa [at_exchange] at allowed
  have fresh : c.shared.handedOut ∉ c.shared.guards := by
    intro present
    have before := (inv.handedOut _).mp ((inv.guards _).mp present).1
    omega
  have undropped : ¬ Logged c (.dropped c.shared.handedOut) := by
    intro dropped
    have before := inv.dropped _ dropped
    omega
  constructor
  case maxConcurrent => exact inv.maxConcurrent
  case active =>
    rw [Finset.card_insert_of_notMem fresh, ← inv.active]
    exact toNat_acquired free
  case bounded =>
    rw [UInt32.le_iff_toNat_le]
    exact (toNat_acquired free).trans_le (UInt32.lt_iff_toNat_lt.mp free)
  case handedOut =>
    intro guard
    rw [logged_returns, inv.handedOut, BulkheadOutcome.acquired.injEq]
    exact Nat.lt_succ_iff_lt_or_eq.symm
  case dropped =>
    intro guard
    simp only [logged_returns, reduceCtorEq, or_false]
    intro dropped
    exact (inv.dropped guard dropped).trans (Nat.lt_succ_self _)
  case guards =>
    intro guard
    simp only [logged_returns, Finset.mem_insert, inv.guards guard, BulkheadOutcome.acquired.injEq,
      reduceCtorEq, or_false]
    by_cases same : guard = c.shared.handedOut
    next => simp [same, undropped]
    next => simp [same]
  case loaded =>
    exact forall_update (fun _ (thread : BulkheadThread) => thread.stage.Allowed limit) trivial inv.loaded
  case full =>
    intro loaded
    simpa [logged_returns] using inv.full loaded

theorem BulkheadInvariant.reject (inv : BulkheadInvariant limit c) (i : I) {current : UInt32}
    (at_reject : (c.thread i).stage = .reject current) (rejected : UInt64) : BulkheadInvariant limit
      { shared := { c.shared with bulkhead := { c.shared.bulkhead with rejected } }
        thread := Function.update c.thread i ((c.thread i).returns (.full current)) } where
  maxConcurrent := inv.maxConcurrent
  active := inv.active
  bounded := inv.bounded
  handedOut guard := by simpa [logged_returns] using inv.handedOut guard
  dropped guard := by simpa [logged_returns] using inv.dropped guard
  guards guard := by simpa [logged_returns] using inv.guards guard
  loaded := forall_update (fun _ (thread : BulkheadThread) => thread.stage.Allowed limit) trivial
    inv.loaded
  full loaded := by
    rw [logged_returns]
    rintro (before | same)
    · exact inv.full loaded before
    · cases same
      have allowed := inv.loaded i
      rwa [at_reject] at allowed

theorem BulkheadInvariant.move (inv : BulkheadInvariant limit c) (i : I) {s : SharedBulkhead}
    {thread : BulkheadThread} (move : BulkheadMove c.shared (c.thread i) s thread) :
    BulkheadInvariant limit { shared := s, thread := Function.update c.thread i thread } := by
  cases move with
  | call => exact inv.stage i trivial
  | drop guard present => exact inv.drop i present
  | loadFull full =>
    rw [inv.maxConcurrent] at full
    exact inv.stage i (UInt32.le_antisymm inv.bounded full)
  | loadFree free =>
    rw [inv.maxConcurrent] at free
    exact inv.stage i free
  | exchange at_exchange => exact inv.exchange i at_exchange
  | reject current at_reject => exact inv.reject i at_reject _

theorem bulkhead_invariant (limit : UInt32) (program : I → List BulkheadOutcome → Option BulkheadOp)
    (schedule : List I) :
    BulkheadInvariant limit (bulkheadSystem.run (bulkheadStart limit program) schedule) :=
  bulkheadSystem.run_invariant (fun _ i _ _ inv step => inv.move i (bulkheadStep_cases step)) _ schedule
    (bulkheadStart_invariant program)

end Runs

/-- The counter is the number of guards handed out and not dropped, it stays within the limit, every
operation moves it by one without wrapping, and a call is turned away only by a load that found the
limit. -/
structure BulkheadBounded (limit : UInt32) (c : Config I SharedBulkhead BulkheadThread) : Prop where
  guards : ∀ guard, guard ∈ c.shared.guards ↔
    Logged c (.acquired guard) ∧ ¬ Logged c (.dropped guard)
  active : c.shared.bulkhead.active.toNat = c.shared.guards.card
  bounded : c.shared.bulkhead.active ≤ limit
  acquires : ∀ i s thread guard, bulkheadStep c.shared (c.thread i) = some (s, thread) →
    thread.outcomes = (c.thread i).outcomes ++ [.acquired guard] →
      s.bulkhead.active.toNat = c.shared.bulkhead.active.toNat + 1
  drops : ∀ i s thread guard, bulkheadStep c.shared (c.thread i) = some (s, thread) →
    thread.outcomes = (c.thread i).outcomes ++ [.dropped guard] →
      s.bulkhead.active.toNat + 1 = c.shared.bulkhead.active.toNat
  turnsAway : ∀ i s thread current, bulkheadStep c.shared (c.thread i) = some (s, thread) →
    thread.stage = .reject current → current = c.shared.bulkhead.active ∧ current = limit
  fails : ∀ i s thread loaded, bulkheadStep c.shared (c.thread i) = some (s, thread) →
    thread.outcomes = (c.thread i).outcomes ++ [.full loaded] →
      (c.thread i).stage = .reject loaded ∧ loaded = limit

theorem bulkhead_bounded [DecidableEq I] (limit : UInt32)
    (program : I → List BulkheadOutcome → Option BulkheadOp) (schedule : List I) :
    BulkheadBounded limit (bulkheadSystem.run (bulkheadStart limit program) schedule) := by
  have inv := bulkhead_invariant limit program schedule
  constructor
  case guards => exact inv.guards
  case active => exact inv.active
  case bounded => exact inv.bounded
  case acquires =>
    intro i s thread guard step logged
    cases bulkheadStep_cases step with
    | exchange at_exchange =>
      have allowed := inv.loaded i
      rw [at_exchange] at allowed
      exact toNat_acquired allowed
    | call | loadFull | loadFree | drop | reject => simp [BulkheadThread.returns] at logged
  case drops =>
    intro i s thread guard step logged
    cases bulkheadStep_cases step with
    | drop guard present => exact toNat_release (inv.active_pos present)
    | call | loadFull | loadFree | exchange | reject => simp [BulkheadThread.returns] at logged
  case turnsAway =>
    intro i s thread current step at_reject
    cases bulkheadStep_cases step with
    | loadFull full =>
      cases at_reject
      rw [inv.maxConcurrent] at full
      exact ⟨rfl, UInt32.le_antisymm inv.bounded full⟩
    | call | loadFree | drop | exchange | reject => cases at_reject
  case fails =>
    intro i s thread loaded step logged
    cases bulkheadStep_cases step with
    | reject current at_reject =>
      simp only [BulkheadThread.returns, List.append_cancel_left_eq, List.cons.injEq,
        BulkheadOutcome.full.injEq, and_true] at logged
      subst logged
      have allowed := inv.loaded i
      rw [at_reject] at allowed
      exact ⟨at_reject, allowed⟩
    | call | loadFull | loadFree | drop | exchange => simp [BulkheadThread.returns] at logged

end BankingLedger
