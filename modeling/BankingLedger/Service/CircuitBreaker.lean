import Mathlib.Tactic.Common

set_option autoImplicit false

namespace BankingLedger

inductive CircuitState where
  | Closed
  | Open
  | HalfOpen
deriving DecidableEq, Repr

-- Instants are counted in nanoseconds. The counters that only feed the error rate are left out.
structure CircuitBreaker where
  state : CircuitState
  failureCount : UInt32
  successCount : UInt32
  failureThreshold : UInt32
  cooldown : Nat
  lastFailureTime : Option Nat
deriving DecidableEq, Repr

namespace CircuitBreaker

def new (failureThreshold : UInt32) (cooldown : Nat) : CircuitBreaker :=
  { state := .Closed, failureCount := 0, successCount := 0, failureThreshold, cooldown
    lastFailureTime := none }

def allowRequest (now : Nat) (breaker : CircuitBreaker) : Bool × CircuitBreaker :=
  match breaker.state with
  | .Closed => (true, breaker)
  | .Open =>
    let shouldHalfOpen := match breaker.lastFailureTime with
      | some t => decide (breaker.cooldown ≤ now - t)
      | none => false
    if shouldHalfOpen then (true, { breaker with state := .HalfOpen, successCount := 0 })
    else (false, breaker)
  | .HalfOpen => (decide (breaker.successCount < 3), breaker)

def recordSuccess (breaker : CircuitBreaker) : CircuitBreaker :=
  let breaker := { breaker with failureCount := 0 }
  if breaker.state = .HalfOpen then
    let count := breaker.successCount + 1
    if 2 ≤ count then { breaker with state := .Closed, successCount := 0 }
    else { breaker with successCount := count }
  else breaker

def recordFailure (now : Nat) (breaker : CircuitBreaker) : CircuitBreaker :=
  let count := breaker.failureCount + 1
  let breaker := { breaker with failureCount := count, lastFailureTime := some now }
  if breaker.failureThreshold ≤ count then { breaker with state := .Open } else breaker

def Waited (breaker : CircuitBreaker) (now : Nat) : Prop :=
  ∃ failed, breaker.lastFailureTime = some failed ∧ breaker.cooldown ≤ now - failed

section Steps

variable {breaker : CircuitBreaker} {now : Nat}

theorem allowRequest_closed (closed : breaker.state = .Closed) :
    breaker.allowRequest now = (true, breaker) := by
  simp [allowRequest, closed]

theorem allowRequest_waited (opened : breaker.state = .Open) (waited : breaker.Waited now) :
    breaker.allowRequest now = (true, { breaker with state := .HalfOpen, successCount := 0 }) := by
  obtain ⟨failed, recorded, long⟩ := waited
  simp [allowRequest, opened, recorded, long]

theorem allowRequest_early (opened : breaker.state = .Open) (early : ¬ breaker.Waited now) :
    breaker.allowRequest now = (false, breaker) := by
  cases recorded : breaker.lastFailureTime with
  | none => simp [allowRequest, opened, recorded]
  | some failed =>
    have short : ¬ breaker.cooldown ≤ now - failed := fun long => early ⟨failed, recorded, long⟩
    simp only [allowRequest, opened, recorded, short, decide_false, Bool.false_eq_true, if_false]

theorem allowRequest_halfOpen (halfOpen : breaker.state = .HalfOpen) :
    breaker.allowRequest now = (decide (breaker.successCount < 3), breaker) := by
  simp [allowRequest, halfOpen]

-- Only the success that brings a half-open breaker to two closes it.
theorem recordSuccess_cases (breaker : CircuitBreaker) :
    breaker.state ≠ .HalfOpen ∧ breaker.recordSuccess = { breaker with failureCount := 0 } ∨
    breaker.state = .HalfOpen ∧ ¬ 2 ≤ breaker.successCount + 1 ∧ breaker.recordSuccess =
      { breaker with failureCount := 0, successCount := breaker.successCount + 1 } ∨
    breaker.state = .HalfOpen ∧ 2 ≤ breaker.successCount + 1 ∧ breaker.recordSuccess =
      { breaker with failureCount := 0, state := .Closed, successCount := 0 } := by
  by_cases halfOpen : breaker.state = .HalfOpen
  case neg => exact .inl ⟨halfOpen, by simp [recordSuccess, halfOpen]⟩
  by_cases enough : 2 ≤ breaker.successCount + 1
  case neg => exact .inr (.inl ⟨halfOpen, enough, by simp only [recordSuccess, halfOpen, enough, if_true, if_false]⟩)
  exact .inr (.inr ⟨halfOpen, enough, by simp only [recordSuccess, halfOpen, enough, if_true]⟩)

theorem recordFailure_reached (reached : breaker.failureThreshold ≤ breaker.failureCount + 1) :
    breaker.recordFailure now = { breaker with
      failureCount := breaker.failureCount + 1, lastFailureTime := some now, state := .Open } := by
  simp [recordFailure, reached]

theorem recordFailure_under (under : ¬ breaker.failureThreshold ≤ breaker.failureCount + 1) :
    breaker.recordFailure now =
      { breaker with failureCount := breaker.failureCount + 1, lastFailureTime := some now } := by
  simp only [recordFailure, under, if_false]

end Steps

end CircuitBreaker

end BankingLedger
