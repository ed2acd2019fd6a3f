import Mathlib.Tactic.Common

set_option autoImplicit false

/-- `pushed` is the number of elements that have ever been let in. -/
structure BoundedQueue (T : Type) where
  capacity : Nat
  items : List T
  pushed : Nat
  bounded : items.length ≤ capacity

namespace BoundedQueue

variable {T : Type}

def empty (capacity : Nat) : BoundedQueue T where
  capacity
  items := []
  pushed := 0
  bounded := Nat.zero_le _

-- The number of the element, if there is room for it.
def push (item : T) (q : BoundedQueue T) : Option (Nat × BoundedQueue T) :=
  if room : q.items.length < q.capacity then
    some (q.pushed,
      { q with items := q.items ++ [item], pushed := q.pushed + 1, bounded := by simpa using Nat.succ_le_of_lt room })
  else none

def drop (n : Nat) (q : BoundedQueue T) : BoundedQueue T where
  capacity := q.capacity
  items := q.items.drop n
  pushed := q.pushed
  bounded := by
    rw [List.length_drop]
    exact Nat.le_trans (Nat.sub_le _ _) q.bounded

def pop (q : BoundedQueue T) : Option T × BoundedQueue T := (q.items.head?, q.drop 1)

def take (n : Nat) (q : BoundedQueue T) : List T × BoundedQueue T := (q.items.take n, q.drop n)

@[simp] theorem drop_capacity (n : Nat) (q : BoundedQueue T) : (q.drop n).capacity = q.capacity := rfl

@[simp] theorem drop_items (n : Nat) (q : BoundedQueue T) : (q.drop n).items = q.items.drop n := rfl

@[simp] theorem drop_pushed (n : Nat) (q : BoundedQueue T) : (q.drop n).pushed = q.pushed := rfl

variable {q : BoundedQueue T} {item : T}

theorem push_full (full : q.items.length = q.capacity) : q.push item = none := by
  rw [push, dif_neg (Nat.not_lt.mpr (Nat.le_of_eq full.symm))]

theorem push_room (room : q.items.length < q.capacity) (item : T) :
    ∃ q', q.push item = some (q.pushed, q') ∧ q'.capacity = q.capacity ∧ q'.items = q.items ++ [item] ∧
      q'.pushed = q.pushed + 1 := by
  rw [push, dif_pos room]
  exact ⟨_, rfl, rfl, rfl, rfl⟩

theorem pushed_le_push {number : Nat} {q' : BoundedQueue T} (accepted : q.push item = some (number, q')) :
    q.pushed ≤ q'.pushed := by
  by_cases room : q.items.length < q.capacity
  · rw [push, dif_pos room, Option.some.injEq, Prod.mk.injEq] at accepted
    rw [← accepted.2]
    exact Nat.le_succ _
  · rw [push, dif_neg room] at accepted
    exact absurd accepted (Option.some_ne_none _).symm

theorem take_nil (n : Nat) (none : q.items = []) : q.take n = ([], q) := by
  obtain ⟨capacity, items, pushed, bounded⟩ := q
  subst none
  simp [take, drop]

theorem take_cons {rest : List T} (n : Nat) (first : q.items = item :: rest) :
    q.take (n + 1) = (item :: ((q.drop 1).take n).1, ((q.drop 1).take n).2) := by
  obtain ⟨capacity, items, pushed, bounded⟩ := q
  subst first
  simp [take, drop]

end BoundedQueue

theorem mod_eq_mod_iff_of_window {size base a b : Nat} (above : base ≤ a) (above' : base ≤ b)
    (below : a < base + size) (below' : b < base + size) : a % size = b % size ↔ a = b := by
  have ordered {a b : Nat} (up : a ≤ b) (near : b < a + size) (same : b % size = a % size) : a = b := by
    have divides : (b - a) % size = 0 := Nat.sub_mod_eq_zero_of_mod_eq same
    rw [Nat.mod_eq_of_lt (by omega)] at divides
    omega
  constructor
  · intro same
    rcases Nat.le_total a b with up | up
    · exact ordered up (by omega) same.symm
    · exact (ordered up (by omega) same).symm
  · exact congrArg (· % size)
