import Mathlib.Logic.Function.Basic
import Mathlib.Tactic.Common

set_option autoImplicit false

namespace LockPaths

inductive Mode where
  | shared
  | exclusive
deriving DecidableEq, Repr

def Mode.conflicts : Mode → Mode → Bool
  | .shared, .shared => false
  | _, _ => true

inductive Action (K : Type) where
  | acquire (lock : K) (mode : Mode)
  | release (lock : K)
deriving DecidableEq, Repr

variable {K I : Type} [DecidableEq K] [DecidableEq I]

structure Thread (K : Type) where
  held : List (K × Mode)
  rest : List (Action K)

namespace Thread

def start (path : List (Action K)) : Thread K := { held := [], rest := path }

-- A release drops the guard that was taken last.
def advance : Thread K → Thread K
  | ⟨held, []⟩ => ⟨held, []⟩
  | ⟨held, .acquire lock mode :: rest⟩ => ⟨(lock, mode) :: held, rest⟩
  | ⟨held, .release lock :: rest⟩ => ⟨held.eraseP fun guard => guard.1 = lock, rest⟩

def BlockedBy (t other : Thread K) : Prop :=
  ∃ lock mode rest, t.rest = .acquire lock mode :: rest ∧
    ∃ guard ∈ other.held, guard.1 = lock ∧ mode.conflicts guard.2 = true

end Thread

/-- Somewhere on the path a lock is acquired that is held already, and one of the two is exclusive. -/
def Reacquires : List (K × Mode) → List (Action K) → Prop
  | _, [] => False
  | held, .acquire lock mode :: rest =>
    (∃ guard ∈ held, guard.1 = lock ∧ mode.conflicts guard.2 = true) ∨
      Reacquires ((lock, mode) :: held) rest
  | held, .release lock :: rest => Reacquires (held.eraseP fun guard => guard.1 = lock) rest

instance decidableReacquires : ∀ (held : List (K × Mode)) (path : List (Action K)),
    Decidable (Reacquires held path)
  | _, [] => isFalse id
  | held, .acquire lock mode :: rest =>
    have := decidableReacquires ((lock, mode) :: held) rest
    inferInstanceAs (Decidable (_ ∨ _))
  | held, .release lock :: rest =>
    decidableReacquires (held.eraseP fun guard => guard.1 = lock) rest

inductive Reachable (paths : I → List (Action K)) : (I → Thread K) → Prop where
  | start : Reachable paths fun i => .start (paths i)
  | step {threads : I → Thread K} (i : I) (reached : Reachable paths threads)
      (free : ∀ j, ¬ (threads i).BlockedBy (threads j)) :
      Reachable paths (Function.update threads i (threads i).advance)

theorem Thread.advance_reacquires {t : Thread K} (later : Reacquires t.advance.held t.advance.rest) :
    Reacquires t.held t.rest := by
  obtain ⟨held, rest⟩ := t
  cases rest with
  | nil => exact later
  | cons action rest =>
    cases action with
    | acquire lock mode => exact .inr later
    | release lock => exact later

theorem Thread.reacquires_of_blocked {t : Thread K} (blocked : t.BlockedBy t) :
    Reacquires t.held t.rest := by
  obtain ⟨lock, mode, rest, next, holds⟩ := blocked
  rw [next]
  exact .inl holds

-- A thread that is not at the second acquisition has it still ahead.
theorem Thread.reacquires_advance {t : Thread K} (later : Reacquires t.held t.rest)
    (unblocked : ¬ t.BlockedBy t) : Reacquires t.advance.held t.advance.rest := by
  obtain ⟨held, rest⟩ := t
  cases rest with
  | nil => exact later
  | cons action rest =>
    cases action with
    | acquire lock mode =>
      rcases later with now | ahead
      · exact absurd ⟨lock, mode, rest, rfl, now⟩ unblocked
      · exact ahead
    | release lock => exact later

theorem Thread.advance_rest {t : Thread K} {action : Action K} {rest : List (Action K)}
    (next : t.rest = action :: rest) : t.advance.rest = rest := by
  obtain ⟨held, _⟩ := t
  cases next
  cases action <;> rfl

theorem Reachable.reacquires {paths : I → List (Action K)} {threads : I → Thread K}
    (reached : Reachable paths threads) (i : I) (later : Reacquires (threads i).held (threads i).rest) :
    Reacquires [] (paths i) := by
  induction reached with
  | start => exact later
  | step j _ _ ih =>
    by_cases own : i = j
    · subst own
      rw [Function.update_self] at later
      exact ih (Thread.advance_reacquires later)
    · rw [Function.update_of_ne own] at later
      exact ih later

-- While the others hold nothing, a thread only ever waits for itself.
theorem Reachable.blocked_alone {paths : I → List (Action K)} {threads : I → Thread K} {i : I}
    (reached : Reachable paths threads) (idle : ∀ j, j ≠ i → (threads j).held = [])
    (later : Reacquires (threads i).held (threads i).rest) :
    ∃ threads', Reachable paths threads' ∧ (threads' i).BlockedBy (threads' i) := by
  generalize path : (threads i).rest = rest
  induction rest generalizing threads with
  | nil =>
    rw [path] at later
    cases later
  | cons action rest ih =>
    by_cases blocked : (threads i).BlockedBy (threads i)
    · exact ⟨threads, reached, blocked⟩
    · have free : ∀ j, ¬ (threads i).BlockedBy (threads j) := by
        rintro j ⟨lock, mode, after, next, guard, held, conflict⟩
        by_cases own : j = i
        · subst own
          exact blocked ⟨lock, mode, after, next, guard, held, conflict⟩
        · rw [idle j own] at held
          cases held
      apply ih (reached.step i free)
      · intro j apart
        rw [Function.update_of_ne apart]
        exact idle j apart
      · rw [Function.update_self]
        exact Thread.reacquires_advance later blocked
      · rw [Function.update_self]
        exact Thread.advance_rest path

theorem blocked_on_itself_iff (paths : I → List (Action K)) :
    (∃ threads, Reachable paths threads ∧ ∃ i, (threads i).BlockedBy (threads i)) ↔
      ∃ i, Reacquires [] (paths i) := by
  constructor
  · rintro ⟨threads, reached, i, blocked⟩
    exact ⟨i, reached.reacquires i (Thread.reacquires_of_blocked blocked)⟩
  · rintro ⟨i, later⟩
    obtain ⟨threads, reached, blocked⟩ :=
      Reachable.blocked_alone (i := i) Reachable.start (fun _ _ => rfl) later
    exact ⟨threads, reached, i, blocked⟩

end LockPaths
