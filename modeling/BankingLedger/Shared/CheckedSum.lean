import Mathlib.Algebra.Order.Ring.Int
import Mathlib.Tactic.Common

set_option autoImplicit false

namespace CheckedSum

def gains (terms : List Int) : Int := (terms.map fun term => max term 0).sum

def losses (terms : List Int) : Int := (terms.map fun term => max (-term) 0).sum

theorem gains_nonneg (terms : List Int) : 0 ≤ gains terms := by
  induction terms with
  | nil => exact Int.le_refl 0
  | cons term rest ih =>
    simp only [gains, List.map_cons, List.sum_cons] at ih ⊢
    omega

theorem losses_nonneg (terms : List Int) : 0 ≤ losses terms := by
  induction terms with
  | nil => exact Int.le_refl 0
  | cons term rest ih =>
    simp only [losses, List.map_cons, List.sum_cons] at ih ⊢
    omega

theorem gains_of_nonneg {terms : List Int} (nonneg : ∀ term ∈ terms, 0 ≤ term) :
    gains terms = terms.sum ∧ losses terms = 0 := by
  induction terms with
  | nil => exact ⟨rfl, rfl⟩
  | cons term rest ih =>
    rw [List.forall_mem_cons] at nonneg
    have later := ih nonneg.2
    simp only [gains, losses, List.map_cons, List.sum_cons] at later ⊢
    omega

theorem sum_eq_gains_sub_losses (terms : List Int) : terms.sum = gains terms - losses terms := by
  induction terms with
  | nil => rfl
  | cons term rest ih =>
    simp only [gains, losses, List.map_cons, List.sum_cons] at ih ⊢
    omega

theorem gains_add_losses_le {terms : List Int} {bound : Int}
    (small : ∀ term ∈ terms, -bound ≤ term ∧ term ≤ bound) :
    gains terms + losses terms ≤ terms.length * bound := by
  induction terms with
  | nil => simp [gains, losses]
  | cons term rest ih =>
    rw [List.forall_mem_cons] at small
    have later := ih small.2
    have here := small.1
    simp only [gains, losses, List.map_cons, List.sum_cons, List.length_cons] at later ⊢
    push_cast
    rw [Int.add_mul]
    omega

section Sums

variable {V : Type} {add : V → V → Option V} {value : V → Int} {fits : Int → Prop}

def checkedSum (add : V → V → Option V) (start : V) (terms : List V) : Option V :=
  terms.foldlM add start

def Exact (add : V → V → Option V) (value : V → Int) (fits : Int → Prop) : Prop :=
  ∀ a b, fits (value a + value b) → ∃ c, add a b = some c ∧ value c = value a + value b

theorem checkedSum_exact (exact : Exact add value fits) {low high : Int}
    (inside : ∀ n, low ≤ n → n ≤ high → fits n) (start : V) (terms : List V)
    (above : low ≤ value start - losses (terms.map value))
    (below : value start + gains (terms.map value) ≤ high) :
    ∃ c, checkedSum add start terms = some c ∧ value c = value start + (terms.map value).sum := by
  induction terms generalizing start with
  | nil => exact ⟨start, rfl, by simp⟩
  | cons term rest ih =>
    have gained := gains_nonneg (rest.map value)
    have lost := losses_nonneg (rest.map value)
    simp only [gains, losses, List.map_cons, List.sum_cons] at above below gained lost ih ⊢
    obtain ⟨next, added, here⟩ := exact start term (inside _ (by omega) (by omega))
    obtain ⟨last, summed, there⟩ := ih next (by omega) (by omega)
    refine ⟨last, ?_, by omega⟩
    simp only [checkedSum, List.foldlM_cons] at summed ⊢
    rw [added]
    exact summed

end Sums

-- The signed integers with this many bits below the sign.
def signedAdd (bits : Nat) (a b : Int) : Option Int :=
  if -(2 ^ bits) ≤ a + b ∧ a + b < 2 ^ bits then some (a + b) else none

theorem signedAdd_exact (bits : Nat) : Exact (signedAdd bits) id fun n => -(2 ^ bits) ≤ n ∧ n < 2 ^ bits :=
  fun _ _ inside => ⟨_, if_pos inside, rfl⟩

theorem checkedSum_signedAdd {bits : Nat} {start : Int} {terms : List Int}
    (above : -(2 ^ bits) ≤ start - losses terms) (below : start + gains terms < 2 ^ bits) :
    checkedSum (signedAdd bits) start terms = some (start + terms.sum) := by
  have inside : ∀ n : Int, -(2 ^ bits) ≤ n → n ≤ 2 ^ bits - 1 → -(2 ^ bits) ≤ n ∧ n < 2 ^ bits := by
    intro n low high
    omega
  obtain ⟨total, summed, rfl⟩ := checkedSum_exact (signedAdd_exact bits) inside start terms
    (by simpa using above) (by simpa using Int.le_sub_one_of_lt below)
  simpa using summed

-- A fold that stops at an overflow, where it does not stop, is the fold without the check.
theorem foldl_of_foldlM {S A : Type} {checked : S → A → Option S} {unchecked : S → A → S}
    (agree : ∀ s a s', checked s a = some s' → unchecked s a = s') {s s' : S} {events : List A}
    (folded : events.foldlM checked s = some s') : events.foldl unchecked s = s' := by
  induction events generalizing s with
  | nil => exact Option.some.inj folded
  | cons a rest ih =>
    rw [List.foldlM_cons] at folded
    obtain ⟨middle, first, later⟩ := Option.bind_eq_some_iff.mp folded
    rw [List.foldl_cons, agree s a middle first]
    exact ih later

end CheckedSum
