import BankingLedger.Service.CircuitBreaker
import BankingLedger.Shared.Runs
import Mathlib.Algebra.Group.Nat.Defs
import Mathlib.Data.List.DropRight

set_option autoImplicit false

namespace BankingLedger

inductive BreakerCall where
  | allowRequest (now : Nat)
  | recordSuccess
  | recordFailure (now : Nat)
deriving DecidableEq, Repr

namespace CircuitBreaker

def call (breaker : CircuitBreaker) : BreakerCall → CircuitBreaker
  | .allowRequest now => (breaker.allowRequest now).2
  | .recordSuccess => breaker.recordSuccess
  | .recordFailure now => breaker.recordFailure now

def afterCalls (threshold : UInt32) (cooldown : Nat) (calls : List BreakerCall) : CircuitBreaker :=
  Runs.run call (new threshold cooldown) calls

end CircuitBreaker

namespace BreakerCall

def failedAt : BreakerCall → Option Nat
  | .recordFailure now => some now
  | _ => none

def consecutiveFailures (calls : List BreakerCall) : Nat :=
  ((calls.rtakeWhile (· ≠ .recordSuccess)).filterMap failedAt).length

def lastFailure (calls : List BreakerCall) : Option Nat := (calls.filterMap failedAt).getLast?

section History

variable (calls : List BreakerCall) (now : Nat)

@[simp] theorem consecutiveFailures_nil : consecutiveFailures [] = 0 := rfl

@[simp] theorem consecutiveFailures_allowRequest :
    consecutiveFailures (calls ++ [.allowRequest now]) = consecutiveFailures calls := by
  simp [consecutiveFailures, failedAt]

@[simp] theorem consecutiveFailures_recordSuccess :
    consecutiveFailures (calls ++ [.recordSuccess]) = 0 := by
  simp [consecutiveFailures]

@[simp] theorem consecutiveFailures_recordFailure :
    consecutiveFailures (calls ++ [.recordFailure now]) = consecutiveFailures calls + 1 := by
  simp [consecutiveFailures, failedAt]

theorem consecutiveFailures_le : consecutiveFailures calls ≤ calls.length := by
  have suffix := (List.rtakeWhile_suffix (· ≠ .recordSuccess) calls).length_le
  exact (List.length_filterMap_le _ _).trans suffix

@[simp] theorem lastFailure_nil : lastFailure [] = none := rfl

@[simp] theorem lastFailure_allowRequest :
    lastFailure (calls ++ [.allowRequest now]) = lastFailure calls := by
  simp [lastFailure, failedAt]

@[simp] theorem lastFailure_recordSuccess :
    lastFailure (calls ++ [.recordSuccess]) = lastFailure calls := by
  simp [lastFailure, failedAt]

@[simp] theorem lastFailure_recordFailure :
    lastFailure (calls ++ [.recordFailure now]) = some now := by
  simp [lastFailure, failedAt]

end History

end BreakerCall

namespace CircuitBreaker

open BreakerCall

structure Recalls (threshold : UInt32) (cooldown : Nat) (calls : List BreakerCall)
    (breaker : CircuitBreaker) : Prop where
  failureThreshold : breaker.failureThreshold = threshold
  cooldown : breaker.cooldown = cooldown
  failures : breaker.failureCount.toNat = consecutiveFailures calls % 2 ^ 32
  lastFailureTime : breaker.lastFailureTime = lastFailure calls
  opened : breaker.state = .Open → (lastFailure calls).isSome

theorem new_recalls (threshold : UInt32) (cooldown : Nat) :
    Recalls threshold cooldown [] (new threshold cooldown) where
  failureThreshold := rfl
  cooldown := rfl
  failures := rfl
  lastFailureTime := rfl
  opened opened := nomatch opened

section Recall

variable {threshold : UInt32} {cooldown : Nat} {calls : List BreakerCall} {breaker : CircuitBreaker}

theorem Recalls.allowRequest (recalls : Recalls threshold cooldown calls breaker) (now : Nat) :
    Recalls threshold cooldown (calls ++ [.allowRequest now]) (breaker.allowRequest now).2 := by
  have kept : Recalls threshold cooldown (calls ++ [.allowRequest now]) breaker :=
    { recalls with
      failures := by simpa using recalls.failures
      lastFailureTime := by simpa using recalls.lastFailureTime
      opened := by simpa using recalls.opened }
  cases state : breaker.state with
  | Closed => rwa [allowRequest_closed state]
  | HalfOpen => rwa [allowRequest_halfOpen state]
  | Open =>
    by_cases waited : breaker.Waited now
    next =>
      rw [allowRequest_waited state waited]
      exact { kept with opened := nofun }
    next => rwa [allowRequest_early state waited]

theorem Recalls.recordSuccess (recalls : Recalls threshold cooldown calls breaker) :
    Recalls threshold cooldown (calls ++ [.recordSuccess]) breaker.recordSuccess := by
  have opened := recalls.opened
  rcases recordSuccess_cases breaker with ⟨_, same⟩ | ⟨state, _, more⟩ | ⟨_, _, enough⟩
  case inl =>
    rw [same]
    exact ⟨recalls.failureThreshold, recalls.cooldown, by simp, by simpa using recalls.lastFailureTime,
      by simpa using opened⟩
  case inr.inl =>
    rw [more]
    exact ⟨recalls.failureThreshold, recalls.cooldown, by simp, by simpa using recalls.lastFailureTime,
      by simp [state]⟩
  case inr.inr =>
    rw [enough]
    exact ⟨recalls.failureThreshold, recalls.cooldown, by simp, by simpa using recalls.lastFailureTime,
      nofun⟩

theorem Recalls.failures_succ (recalls : Recalls threshold cooldown calls breaker) :
    (breaker.failureCount + 1).toNat = (consecutiveFailures calls + 1) % 2 ^ 32 := by
  rw [UInt32.toNat_add, UInt32.toNat_one, recalls.failures, Nat.mod_add_mod]

theorem Recalls.recordFailure (recalls : Recalls threshold cooldown calls breaker) (now : Nat) :
    Recalls threshold cooldown (calls ++ [.recordFailure now]) (breaker.recordFailure now) := by
  have counted := recalls.failures_succ
  by_cases reached : breaker.failureThreshold ≤ breaker.failureCount + 1
  next =>
    rw [recordFailure_reached reached]
    exact ⟨recalls.failureThreshold, recalls.cooldown, by simpa using counted, by simp, by simp⟩
  next =>
    rw [recordFailure_under reached]
    exact ⟨recalls.failureThreshold, recalls.cooldown, by simpa using counted, by simp, by simp⟩

theorem Recalls.call (recalls : Recalls threshold cooldown calls breaker) (c : BreakerCall) :
    Recalls threshold cooldown (calls ++ [c]) (breaker.call c) := by
  cases c with
  | allowRequest now => exact recalls.allowRequest now
  | recordSuccess => exact recalls.recordSuccess
  | recordFailure now => exact recalls.recordFailure now

theorem afterCalls_append (first second : List BreakerCall) :
    afterCalls threshold cooldown (first ++ second) =
      Runs.run CircuitBreaker.call (afterCalls threshold cooldown first) second :=
  Runs.run_append CircuitBreaker.call _ first second

theorem afterCalls_concat (first : List BreakerCall) (c : BreakerCall) :
    afterCalls threshold cooldown (first ++ [c]) = (afterCalls threshold cooldown first).call c :=
  afterCalls_append first [c]

theorem afterCalls_recalls (threshold : UInt32) (cooldown : Nat) (calls : List BreakerCall) :
    Recalls threshold cooldown calls (afterCalls threshold cooldown calls) := by
  induction calls using List.reverseRecOn with
  | nil => exact new_recalls threshold cooldown
  | append_singleton calls c ih =>
    rw [afterCalls_concat]
    exact ih.call c

end Recall

section Transitions

variable {threshold : UInt32} {cooldown : Nat} {calls probes : List BreakerCall}
  {breaker : CircuitBreaker} {c : BreakerCall}

theorem call_failureThreshold (breaker : CircuitBreaker) (c : BreakerCall) :
    (breaker.call c).failureThreshold = breaker.failureThreshold := by
  cases c with
  | allowRequest now =>
    unfold call allowRequest
    grind
  | recordSuccess => rcases recordSuccess_cases breaker with ⟨_, h⟩ | ⟨_, _, h⟩ | ⟨_, _, h⟩ <;> rw [call, h]
  | recordFailure now =>
    unfold call recordFailure
    grind

def BelowThreshold (breaker : CircuitBreaker) : Prop :=
  0 < breaker.failureThreshold ∧
    (breaker.state = .Closed → breaker.failureCount < breaker.failureThreshold)

theorem call_belowThreshold (below : BelowThreshold breaker) : BelowThreshold (breaker.call c) := by
  refine ⟨(call_failureThreshold breaker c).symm ▸ below.1, fun closed => ?_⟩
  cases c with
  | allowRequest now =>
    rw [call] at closed ⊢
    cases state : breaker.state with
    | Closed =>
      rw [allowRequest_closed state]
      exact below.2 state
    | HalfOpen =>
      rw [allowRequest_halfOpen state, state] at closed
      cases closed
    | Open =>
      by_cases waited : breaker.Waited now
      next =>
        rw [allowRequest_waited state waited] at closed
        cases closed
      next =>
        rw [allowRequest_early state waited, state] at closed
        cases closed
  | recordSuccess =>
    rw [call]
    rcases recordSuccess_cases breaker with ⟨_, same⟩ | ⟨_, _, more⟩ | ⟨_, _, enough⟩
    case inl => rw [same]; exact below.1
    case inr.inl => rw [more]; exact below.1
    case inr.inr => rw [enough]; exact below.1
  | recordFailure now =>
    rw [call] at closed ⊢
    by_cases reached : breaker.failureThreshold ≤ breaker.failureCount + 1
    next =>
      rw [recordFailure_reached reached] at closed
      cases closed
    next =>
      rw [recordFailure_under reached]
      exact UInt32.not_le.mp reached

theorem call_trips (closed : breaker.state = .Closed) :
    (breaker.call c).state = .Open ↔
      (∃ now, c = .recordFailure now) ∧ breaker.failureThreshold ≤ breaker.failureCount + 1 := by
  cases c with
  | allowRequest now => simp [call, allowRequest_closed closed, closed]
  | recordSuccess => simp [call, recordSuccess, closed]
  | recordFailure now =>
    by_cases reached : breaker.failureThreshold ≤ breaker.failureCount + 1
    next => simp [call, recordFailure_reached reached, reached]
    next => simp [call, recordFailure_under reached, reached, closed]

theorem call_leavesOpen (opened : breaker.state = .Open) (left : (breaker.call c).state ≠ .Open) :
    ∃ now, c = .allowRequest now ∧ breaker.Waited now := by
  cases c with
  | allowRequest now =>
    refine ⟨now, rfl, ?_⟩
    by_contra early
    rw [call, allowRequest_early opened early] at left
    exact left opened
  | recordSuccess => simp [call, recordSuccess, opened] at left
  | recordFailure now =>
    by_cases reached : breaker.failureThreshold ≤ breaker.failureCount + 1
    next => simp [call, recordFailure_reached reached] at left
    next => simp [call, recordFailure_under reached, opened] at left

theorem toNat_successCount_succ (few : breaker.successCount.toNat < 2) :
    (breaker.successCount + 1).toNat = breaker.successCount.toNat + 1 := by
  rw [UInt32.toNat_add, UInt32.toNat_one, Nat.mod_eq_of_lt (by omega)]

theorem call_closes (halfOpen : breaker.state = .HalfOpen) (few : breaker.successCount.toNat < 2) :
    (breaker.call c).state = .Closed ↔ c = .recordSuccess ∧ breaker.successCount.toNat = 1 := by
  cases c with
  | allowRequest now => simp [call, allowRequest_halfOpen halfOpen, halfOpen]
  | recordSuccess =>
    have counted := toNat_successCount_succ few
    have two : 2 ≤ breaker.successCount + 1 ↔ breaker.successCount.toNat = 1 := by
      rw [UInt32.le_iff_toNat_le, counted]
      change 2 ≤ _ ↔ _
      omega
    rcases recordSuccess_cases breaker with ⟨steady, _⟩ | ⟨_, more, result⟩ | ⟨_, enough, result⟩
    case inl => exact absurd halfOpen steady
    case inr.inl => simp [call, result, halfOpen, mt two.mpr more]
    case inr.inr => simp [call, result, two.mp enough]
  | recordFailure now =>
    by_cases reached : breaker.failureThreshold ≤ breaker.failureCount + 1
    next => simp [call, recordFailure_reached reached]
    next => simp [call, recordFailure_under reached, halfOpen]

-- A call that finds the breaker half-open and leaves it so counts if it is a success.
theorem call_probed (halfOpen : breaker.state = .HalfOpen) (few : breaker.successCount.toNat < 2)
    (still : (breaker.call c).state = .HalfOpen) :
    (breaker.call c).successCount.toNat = breaker.successCount.toNat + [c].count .recordSuccess ∧
      (breaker.call c).successCount.toNat < 2 := by
  cases c with
  | allowRequest now => simpa [call, allowRequest_halfOpen halfOpen] using few
  | recordSuccess =>
    have counted := toNat_successCount_succ few
    rcases recordSuccess_cases breaker with ⟨steady, _⟩ | ⟨_, more, result⟩ | ⟨_, _, result⟩
    case inl => exact absurd halfOpen steady
    case inr.inl =>
      rw [UInt32.le_iff_toNat_le, counted, Nat.not_le] at more
      simp only [call, result, counted, List.count_singleton_self, true_and]
      exact more
    case inr.inr => simp [call, result] at still
  | recordFailure now =>
    by_cases reached : breaker.failureThreshold ≤ breaker.failureCount + 1
    next => simp [call, recordFailure_reached reached] at still
    next => simpa [call, recordFailure_under reached] using few

theorem call_entersHalfOpen (halfOpen : (breaker.call c).state = .HalfOpen) :
    breaker.state = .HalfOpen ∨
      breaker.state = .Open ∧ (∃ now, c = .allowRequest now) ∧ (breaker.call c).successCount = 0 := by
  cases state : breaker.state with
  | HalfOpen => exact .inl rfl
  | Open =>
    have left : (breaker.call c).state ≠ .Open := by simp [halfOpen]
    obtain ⟨now, rfl, waited⟩ := call_leavesOpen state left
    exact .inr ⟨rfl, ⟨now, rfl⟩, by simp [call, allowRequest_waited state waited]⟩
  | Closed =>
    cases c with
    | allowRequest now => simp [call, allowRequest_closed state, state] at halfOpen
    | recordSuccess => simp [call, recordSuccess, state] at halfOpen
    | recordFailure now =>
      by_cases reached : breaker.failureThreshold ≤ breaker.failureCount + 1
      next => simp [call, recordFailure_reached reached] at halfOpen
      next => simp [call, recordFailure_under reached, state] at halfOpen

end Transitions

def HalfOpenSince (threshold : UInt32) (cooldown : Nat) (calls probes : List BreakerCall) : Prop :=
  ∃ before now, calls = before ++ .allowRequest now :: probes ∧
    (afterCalls threshold cooldown before).state = .Open ∧
    Runs.Throughout call (fun breaker => breaker.state = .HalfOpen)
      (afterCalls threshold cooldown (before ++ [.allowRequest now])) probes

section Probing

variable {threshold : UInt32} {cooldown : Nat} {calls probes : List BreakerCall}

theorem probed_count {breaker : CircuitBreaker} (few : breaker.successCount.toNat < 2)
    (during : Runs.Throughout call (fun breaker => breaker.state = .HalfOpen) breaker probes) :
    (Runs.run call breaker probes).successCount.toNat =
        breaker.successCount.toNat + probes.count .recordSuccess ∧
      (Runs.run call breaker probes).successCount.toNat < 2 := by
  induction probes generalizing breaker with
  | nil => simpa using few
  | cons c rest ih =>
    obtain ⟨halfOpen, later⟩ := Runs.throughout_cons.mp during
    have still : (breaker.call c).state = .HalfOpen := (Runs.throughout_iff.mp later).1
    obtain ⟨counted, below⟩ := call_probed halfOpen few still
    obtain ⟨total, final⟩ := ih below later
    refine ⟨?_, final⟩
    rw [Runs.run_cons, total, counted, List.count_cons, List.count_cons, List.count_nil]
    omega

theorem HalfOpenSince.successCount (since : HalfOpenSince threshold cooldown calls probes) :
    (afterCalls threshold cooldown calls).state = .HalfOpen ∧
    (afterCalls threshold cooldown calls).successCount.toNat = probes.count .recordSuccess ∧
      (afterCalls threshold cooldown calls).successCount.toNat < 2 := by
  obtain ⟨before, now, rfl, opened, during⟩ := since
  have entered : (afterCalls threshold cooldown (before ++ [.allowRequest now])).state = .HalfOpen :=
    (Runs.throughout_iff.mp during).1
  have fresh : (afterCalls threshold cooldown (before ++ [.allowRequest now])).successCount = 0 := by
    rw [afterCalls_concat] at entered ⊢
    rcases call_entersHalfOpen entered with halfOpen | ⟨_, _, fresh⟩
    case inl => rw [opened] at halfOpen; cases halfOpen
    case inr => exact fresh
  have counted := probed_count (by simp [fresh]) during
  rw [← afterCalls_append, ← List.append_cons, fresh] at counted
  refine ⟨?_, by simpa using counted⟩
  have last := during probes [] (List.append_nil probes).symm
  rwa [← afterCalls_append, ← List.append_cons] at last

theorem exists_halfOpenSince (halfOpen : (afterCalls threshold cooldown calls).state = .HalfOpen) :
    ∃ probes, HalfOpenSince threshold cooldown calls probes := by
  induction calls using List.reverseRecOn with
  | nil => cases halfOpen
  | append_singleton calls c ih =>
    rw [afterCalls_concat] at halfOpen
    rcases call_entersHalfOpen halfOpen with already | ⟨opened, ⟨now, rfl⟩, _⟩
    case inl =>
      obtain ⟨probes, before, now, rfl, opened, during⟩ := ih already
      refine ⟨probes ++ [c], before, now, by simp, opened, Runs.throughout_concat.mpr ⟨during, ?_⟩⟩
      rwa [← afterCalls_append, ← List.append_assoc, ← List.append_cons, afterCalls_concat]
    case inr =>
      refine ⟨[], calls, now, rfl, opened, ?_⟩
      rw [Runs.throughout_iff, afterCalls_concat]
      exact ⟨halfOpen, trivial⟩

end Probing

theorem toNat_of_short {threshold : UInt32} {cooldown : Nat} {calls : List BreakerCall}
    (short : calls.length < 2 ^ 32) :
    (afterCalls threshold cooldown calls).failureCount.toNat = consecutiveFailures calls := by
  have few := consecutiveFailures_le calls
  rw [(afterCalls_recalls threshold cooldown calls).failures, Nat.mod_eq_of_lt (by omega)]

structure StateTold (threshold : UInt32) (cooldown : Nat) (calls : List BreakerCall) : Prop where
  failures : (afterCalls threshold cooldown calls).failureCount.toNat = consecutiveFailures calls
  closed : (afterCalls threshold cooldown calls).state = .Closed →
    consecutiveFailures calls < threshold.toNat
  opened : (afterCalls threshold cooldown calls).state = .Open →
    ∃ failed, (afterCalls threshold cooldown calls).lastFailureTime = some failed ∧
      lastFailure calls = some failed

structure ChangeTold (threshold : UInt32) (cooldown : Nat) (calls : List BreakerCall) (c : BreakerCall) :
    Prop where
  trips : (afterCalls threshold cooldown calls).state = .Closed →
    ((afterCalls threshold cooldown (calls ++ [c])).state = .Open ↔
      (∃ now, c = .recordFailure now) ∧ consecutiveFailures (calls ++ [c]) = threshold.toNat)
  recovers : (afterCalls threshold cooldown calls).state = .Open →
    (afterCalls threshold cooldown (calls ++ [c])).state ≠ .Open →
      ∃ now failed, c = .allowRequest now ∧ lastFailure calls = some failed ∧ cooldown ≤ now - failed
  probed : (afterCalls threshold cooldown calls).state = .HalfOpen →
    ∃ probes, HalfOpenSince threshold cooldown calls probes
  closes : ∀ probes, HalfOpenSince threshold cooldown calls probes →
    ((afterCalls threshold cooldown (calls ++ [c])).state = .Closed ↔
      c = .recordSuccess ∧ (probes ++ [c]).count .recordSuccess = 2)

section Told

variable {threshold : UInt32} {cooldown : Nat} {calls : List BreakerCall}

theorem afterCalls_belowThreshold (positive : 0 < threshold) :
    BelowThreshold (afterCalls threshold cooldown calls) :=
  Runs.run_invariant (fun _ _ => call_belowThreshold) _ calls ⟨positive, fun _ => positive⟩

theorem stateTold (positive : 0 < threshold) (short : calls.length < 2 ^ 32) :
    StateTold threshold cooldown calls where
  failures := toNat_of_short short
  closed closed := by
    have safe : BelowThreshold (afterCalls threshold cooldown calls) := afterCalls_belowThreshold positive
    have below := safe.2 closed
    rwa [(afterCalls_recalls threshold cooldown calls).failureThreshold, UInt32.lt_iff_toNat_lt,
      toNat_of_short short] at below
  opened opened := by
    have recalls := afterCalls_recalls threshold cooldown calls
    obtain ⟨failed, last⟩ := Option.isSome_iff_exists.mp (recalls.opened opened)
    exact ⟨failed, recalls.lastFailureTime.trans last, last⟩

theorem changeTold (positive : 0 < threshold) (c : BreakerCall) (short : (calls ++ [c]).length < 2 ^ 32) :
    ChangeTold threshold cooldown calls c where
  trips closed := by
    have length : (calls ++ [c]).length = calls.length + 1 := List.length_append
    have below := (stateTold positive (by omega)).closed closed
    have few := consecutiveFailures_le calls
    have recalls := afterCalls_recalls threshold cooldown calls
    rw [afterCalls_concat, call_trips closed, UInt32.le_iff_toNat_le, recalls.failures_succ,
      recalls.failureThreshold, Nat.mod_eq_of_lt (by omega)]
    apply and_congr_right
    rintro ⟨now, rfl⟩
    rw [consecutiveFailures_recordFailure]
    omega
  recovers opened left := by
    have recalls := afterCalls_recalls threshold cooldown calls
    rw [afterCalls_concat] at left
    obtain ⟨now, rfl, failed, recorded, long⟩ := call_leavesOpen opened left
    rw [recalls.lastFailureTime] at recorded
    rw [recalls.cooldown] at long
    exact ⟨now, failed, rfl, recorded, long⟩
  probed := exists_halfOpenSince
  closes probes since := by
    obtain ⟨halfOpen, counted, few⟩ := since.successCount
    rw [afterCalls_concat, call_closes halfOpen few, counted]
    apply and_congr_right
    rintro rfl
    simp

end Told

/-- The breaker trips on consecutive failures and recovers after the cooldown and two successes. -/
theorem breaker_follows_calls (threshold : UInt32) (positive : 1 ≤ threshold) (cooldown : Nat)
    (calls : List BreakerCall) (short : calls.length < 2 ^ 32) :
    (∀ first rest, calls = first ++ rest → StateTold threshold cooldown first) ∧
      ∀ first c rest, calls = first ++ c :: rest → ChangeTold threshold cooldown first c := by
  have positive' : 0 < threshold := by
    rw [UInt32.le_iff_toNat_le] at positive
    exact UInt32.lt_iff_toNat_lt.mpr positive
  constructor
  · rintro first rest rfl
    exact stateTold positive' (by rw [List.length_append] at short; omega)
  · rintro first c rest rfl
    exact changeTold positive' c (by simp only [List.length_append, List.length_cons, List.length_nil] at short ⊢; omega)

-- Two failures trip it, the third call finds the cooldown over, two successes close it again.
theorem breaker_follows_calls_at_two :
    let calls : List BreakerCall :=
      [.recordFailure 0, .recordFailure 1, .allowRequest 11, .recordSuccess, .recordSuccess]
    calls.length < 2 ^ 32 ∧ (∀ first rest, calls = first ++ rest → StateTold 2 10 first) ∧
      (∀ first c rest, calls = first ++ c :: rest → ChangeTold 2 10 first c) ∧
      (afterCalls 2 10 calls).state = .Closed :=
  have told := breaker_follows_calls 2 (by decide) 10
    [.recordFailure 0, .recordFailure 1, .allowRequest 11, .recordSuccess, .recordSuccess] (by decide)
  ⟨by decide, told.1, told.2, by decide⟩

def ShutUntilCooldown (breaker : CircuitBreaker) : Prop :=
  ∀ later, Runs.Meets call (fun b c => ∀ now, c = .allowRequest now → ¬ b.Waited now) breaker later →
    (Runs.run call breaker later).state = .Open ∧
      ∀ now, ¬ (Runs.run call breaker later).Waited now →
        ((Runs.run call breaker later).allowRequest now).1 = false

theorem shutUntilCooldown_iff (breaker : CircuitBreaker) :
    breaker.ShutUntilCooldown ↔ breaker.state = .Open := by
  constructor
  · intro shut
    exact (shut [] trivial).1
  · intro opened later early
    have keep : ∀ (b : CircuitBreaker) c, b.state = .Open →
        (∀ now, c = .allowRequest now → ¬ b.Waited now) → (b.call c).state = .Open := by
      intro b c opened early
      by_contra left
      obtain ⟨now, request, waited⟩ := call_leavesOpen opened left
      exact early now request waited
    have still := Runs.run_keeps keep breaker later early opened
    refine ⟨still, fun now early => ?_⟩
    rw [allowRequest_early still early]

theorem recordFailure_opens {breaker : CircuitBreaker} (halfOpen : breaker.state = .HalfOpen) (now : Nat) :
    (breaker.recordFailure now).state = .Open ↔
      breaker.failureThreshold ≤ breaker.failureCount + 1 := by
  by_cases reached : breaker.failureThreshold ≤ breaker.failureCount + 1
  next => simp [recordFailure_reached reached, reached]
  next => simp [recordFailure_under reached, reached, halfOpen]

/-- Every failure that finds the breaker half-open shuts it for a new cooldown. -/
def ProbeFailuresReopen (threshold : UInt32) (cooldown : Nat) (calls : List BreakerCall) : Prop :=
  ∀ first now rest, calls = first ++ .recordFailure now :: rest →
    (afterCalls threshold cooldown first).state = .HalfOpen →
      (afterCalls threshold cooldown (first ++ [.recordFailure now])).ShutUntilCooldown ∧
        (afterCalls threshold cooldown (first ++ [.recordFailure now])).lastFailureTime = some now

/-- A failed probe re-opens the breaker exactly when the failures since the last success, which need
not be the ones that opened it, have reached the threshold. -/
theorem probeFailuresReopen_iff (threshold : UInt32) (cooldown : Nat) (calls : List BreakerCall) :
    ProbeFailuresReopen threshold cooldown calls ↔
      ∀ first now rest, calls = first ++ .recordFailure now :: rest →
        (afterCalls threshold cooldown first).state = .HalfOpen →
          threshold.toNat ≤ (consecutiveFailures first + 1) % 2 ^ 32 := by
  have each : ∀ first now, (afterCalls threshold cooldown first).state = .HalfOpen →
      ((afterCalls threshold cooldown (first ++ [.recordFailure now])).ShutUntilCooldown ∧
          (afterCalls threshold cooldown (first ++ [.recordFailure now])).lastFailureTime = some now ↔
        threshold.toNat ≤ (consecutiveFailures first + 1) % 2 ^ 32) := by
    intro first now halfOpen
    have recalls := afterCalls_recalls threshold cooldown first
    have recorded := (recalls.recordFailure now).lastFailureTime
    rw [lastFailure_recordFailure] at recorded
    have reached := recordFailure_opens halfOpen now
    rw [UInt32.le_iff_toNat_le, recalls.failureThreshold, recalls.failures_succ] at reached
    rw [afterCalls_concat, call, and_iff_left recorded, shutUntilCooldown_iff, reached]
  constructor
  · intro reopen first now rest split halfOpen
    exact (each first now halfOpen).mp (reopen first now rest split halfOpen)
  · intro reached first now rest split halfOpen
    exact (each first now halfOpen).mpr (reached first now rest split halfOpen)

-- After one successful probe the failures that opened the breaker no longer count.
theorem failed_probe_leaves_half_open :
    ¬ ProbeFailuresReopen 2 10
      [.recordFailure 0, .recordFailure 1, .allowRequest 11, .recordSuccess, .recordFailure 12] := by
  intro reopen
  have shut := (reopen [.recordFailure 0, .recordFailure 1, .allowRequest 11, .recordSuccess] 12 [] rfl
    (by decide)).1
  rw [shutUntilCooldown_iff] at shut
  revert shut
  decide

def admits (breaker : CircuitBreaker) : BreakerCall → Bool
  | .allowRequest now => (breaker.allowRequest now).1
  | _ => false

def admissions : CircuitBreaker → List BreakerCall → Nat
  | _, [] => 0
  | breaker, c :: rest => (if breaker.admits c then 1 else 0) + admissions (breaker.call c) rest

/-- From the request that makes the breaker half-open to the next outcome, at most three requests are
admitted. -/
def ProbesLimited (threshold : UInt32) (cooldown : Nat) (calls : List BreakerCall) : Prop :=
  ∀ before now burst rest, calls = before ++ .allowRequest now :: (burst ++ rest) →
    (afterCalls threshold cooldown before).state = .Open →
    (afterCalls threshold cooldown (before ++ [.allowRequest now])).state = .HalfOpen →
    (∀ c ∈ burst, ∃ next, c = .allowRequest next) →
      admissions (afterCalls threshold cooldown before) (.allowRequest now :: burst) ≤ 3

theorem admissions_halfOpen {breaker : CircuitBreaker} (halfOpen : breaker.state = .HalfOpen)
    (fresh : breaker.successCount = 0) {burst : List BreakerCall}
    (requests : ∀ c ∈ burst, ∃ next, c = .allowRequest next) : admissions breaker burst = burst.length := by
  induction burst with
  | nil => rfl
  | cons c rest ih =>
    obtain ⟨next, rfl⟩ := requests c List.mem_cons_self
    have later := ih fun c member => requests c (List.mem_cons_of_mem _ member)
    simp [admissions, admits, call, allowRequest_halfOpen halfOpen, fresh, later, Nat.add_comm]

/-- The limit counts successes and not requests, so it holds exactly of the runs that ask at most three
times themselves. -/
theorem probesLimited_iff (threshold : UInt32) (cooldown : Nat) (calls : List BreakerCall) :
    ProbesLimited threshold cooldown calls ↔
      ∀ before now burst rest, calls = before ++ .allowRequest now :: (burst ++ rest) →
        (afterCalls threshold cooldown before).state = .Open →
        (afterCalls threshold cooldown before).Waited now →
        (∀ c ∈ burst, ∃ next, c = .allowRequest next) →
          (.allowRequest now :: burst).length ≤ 3 := by
  have entered : ∀ before now, (afterCalls threshold cooldown before).state = .Open →
      ((afterCalls threshold cooldown (before ++ [.allowRequest now])).state = .HalfOpen ↔
        (afterCalls threshold cooldown before).Waited now) := by
    intro before now opened
    rw [afterCalls_concat, call]
    by_cases waited : (afterCalls threshold cooldown before).Waited now
    next => simp [allowRequest_waited opened waited, waited]
    next => simp [allowRequest_early opened waited, waited, opened]
  have all : ∀ before now burst, (afterCalls threshold cooldown before).state = .Open →
      (afterCalls threshold cooldown before).Waited now →
      (∀ c ∈ burst, ∃ next, c = BreakerCall.allowRequest next) →
        admissions (afterCalls threshold cooldown before) (.allowRequest now :: burst) =
          (BreakerCall.allowRequest now :: burst).length := by
    intro before now burst opened waited requests
    simp only [admissions, admits, call, allowRequest_waited opened waited, if_true, List.length_cons]
    rw [admissions_halfOpen rfl rfl requests, Nat.add_comm]
  constructor
  · intro limited before now burst rest split opened waited requests
    have few := limited before now burst rest split opened ((entered before now opened).mpr waited) requests
    rwa [all before now burst opened waited requests] at few
  · intro few before now burst rest split opened halfOpen requests
    have waited := (entered before now opened).mp halfOpen
    rw [all before now burst opened waited requests]
    exact few before now burst rest split opened waited requests

-- Four requests in a row after the cooldown are all admitted.
theorem burst_of_four_admitted :
    ¬ ProbesLimited 1 10
      [.recordFailure 0, .allowRequest 10, .allowRequest 10, .allowRequest 11, .allowRequest 12] := by
  intro limited
  have few := limited [.recordFailure 0] 10 [.allowRequest 10, .allowRequest 11, .allowRequest 12] [] rfl
    (by decide) (by decide) (by simp)
  revert few
  decide

end CircuitBreaker

end BankingLedger
