import BankingLedger.Shared.FiniteMap

set_option autoImplicit false

namespace WriteBehind

open FiniteMap

variable {K V K' R : Type} [DecidableEq K] [DecidableEq K']

/-- `tasks` are what each task has still to write, the one spawned last first. -/
structure Store (K V K' R : Type) where
  memory : Map K V
  rows : Map K' R
  tasks : List (Map K V)

namespace Store

def spawn (s : Store K V K' R) : Store K V K' R := { s with tasks := s.memory :: s.tasks }

def save (key : K → K') (encode : V → R) (s : Store K V K' R) (task : Nat) (k : K) : Store K V K' R :=
  match s.tasks[task]?.bind (·.lookup k) with
  | none => s
  | some v =>
    { s with
      rows := s.rows.insert (key k) (encode v)
      tasks := s.tasks.modify task (·.erase k) }

def Finished (s : Store K V K' R) : Prop := ∀ task ∈ s.tasks, ∀ k, task.lookup k = none

def Converged (key : K → K') (encode : V → R) (s : Store K V K' R) : Prop :=
  ∀ k v, s.memory.lookup k = some v → s.rows.lookup (key k) = some (encode v)

def latest (s : Store K V K' R) (k : K) : Option V := s.tasks.head?.bind (·.lookup k)

/-- The task is the latest, or the latest has `k` still to write. -/
def Newest (s : Store K V K' R) (task : Nat) (k : K) : Prop := 0 < task → s.latest k ≠ none

def Current (key : K → K') (encode : V → R) (s : Store K V K' R) : Prop :=
  ∀ k v, s.memory.lookup k = some v →
    s.latest k = some v ∨ s.latest k = none ∧ s.rows.lookup (key k) = some (encode v)

variable {key : K → K'} {encode : V → R} {s : Store K V K' R}

theorem current_spawn : s.spawn.Current key encode := fun _ _ found => .inl found

theorem Current.converged (current : s.Current key encode) (finished : s.Finished) :
    s.Converged key encode := by
  intro k v found
  rcases current k v found with pending | ⟨-, row⟩
  · obtain ⟨last, first, value⟩ := Option.bind_eq_some_iff.mp pending
    rw [finished last (List.mem_of_mem_head? first) k] at value
    cases value
  · exact row

theorem current_of_converged (idle : s.tasks = []) (converged : s.Converged key encode) :
    s.Current key encode := by
  intro k v found
  exact .inr ⟨by simp [latest, idle], converged k v found⟩

theorem Current.save (injective : Function.Injective key) {task : Nat} {k : K}
    (current : s.Current key encode) (newest : s.Newest task k) :
    (s.save key encode task k).Current key encode := by
  unfold Store.save
  cases taken : s.tasks[task]?.bind (·.lookup k) with
  | none => exact current
  | some v =>
    obtain ⟨own, listed, pending⟩ := Option.bind_eq_some_iff.mp taken
    intro other w found
    have before := current other w found
    have apart (different : other ≠ k) :
        (s.rows.insert (key k) (encode v)).lookup (key other) = s.rows.lookup (key other) := by
      rw [lookup_insert_eq, if_neg fun same => different (injective same)]
    cases tasks : s.tasks with
    | nil => simp [tasks] at listed
    | cons last rest =>
      simp only [latest, tasks, List.head?_cons, Option.bind_some] at before ⊢
      cases task with
      | zero =>
        -- The latest task writes: what it had of `k` moves to the row.
        rw [List.modify_zero_cons, List.head?_cons, Option.bind_some, lookup_erase_eq]
        rw [tasks, List.getElem?_cons_zero, Option.some.injEq] at listed
        subst listed
        by_cases same : other = k
        · subst same
          rw [pending] at before
          have value : v = w := by simpa using before
          exact .inr ⟨if_pos rfl, by rw [value]; exact Finmap.lookup_insert _⟩
        · rw [if_neg same, apart same]
          exact before
      | succ earlier =>
        -- A write of an older task does not show as long as the latest has the key still to write.
        rw [List.modify_succ_cons, List.head?_cons, Option.bind_some]
        by_cases same : other = k
        · subst same
          have unwritten := newest (Nat.succ_pos earlier)
          simp only [latest, tasks, List.head?_cons, Option.bind_some] at unwritten
          rcases before with still | ⟨written, -⟩
          · exact .inl still
          · exact absurd written unwritten
        · rw [apart same]
          exact before

end Store

end WriteBehind
