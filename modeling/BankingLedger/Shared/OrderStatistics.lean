import Mathlib.Algebra.BigOperators.Group.List.Basic
import Mathlib.Algebra.Ring.Nat
import Mathlib.Data.List.Count
import Mathlib.Data.List.Sort

set_option autoImplicit false

namespace OrderStatistics

section Rank

variable {A : Type} [LinearOrder A] {xs : List A} {p : A → Bool} {rank : Nat} {value : A}

def sort (xs : List A) : List A := xs.insertionSort (· ≤ ·)

/-- The smallest value has rank 1. -/
def ranked (xs : List A) (rank : Nat) : Option A := (sort xs)[rank - 1]?

theorem pairwise_sort (xs : List A) : (sort xs).Pairwise (· ≤ ·) := List.pairwise_insertionSort _ _

theorem perm_sort (xs : List A) : (sort xs).Perm xs := List.perm_insertionSort _ _

theorem length_sort (xs : List A) : (sort xs).length = xs.length := (perm_sort xs).length_eq

theorem exists_ranked (positive : 0 < rank) (within : rank ≤ xs.length) :
    ∃ value, ranked xs rank = some value := by
  have inside : rank - 1 < (sort xs).length := by
    rw [length_sort]
    omega
  exact ⟨_, List.getElem?_eq_getElem inside⟩

theorem mem_of_ranked (found : ranked xs rank = some value) : value ∈ xs :=
  (perm_sort xs).mem_iff.mp (List.mem_of_getElem? found)

theorem ranked_mono {rank' : Nat} {value' : A} (found : ranked xs rank = some value)
    (found' : ranked xs rank' = some value') (le : rank ≤ rank') : value ≤ value' := by
  obtain ⟨inside, rfl⟩ := List.getElem?_eq_some_iff.mp found
  obtain ⟨inside', rfl⟩ := List.getElem?_eq_some_iff.mp found'
  rcases (Nat.sub_le_sub_right le 1).lt_or_eq with less | same
  next => exact List.pairwise_iff_getElem.mp (pairwise_sort xs) _ _ inside inside' less
  next => exact le_of_eq (by simp only [same])

-- In a sorted list the values of a kind that small ones have come first.
theorem lt_countP_iff (closed : ∀ a b, a ≤ b → p b = true → p a = true) {sorted : List A}
    (pairwise : sorted.Pairwise (· ≤ ·)) {i : Nat} (found : sorted[i]? = some value) :
    i < sorted.countP p ↔ p value = true := by
  induction sorted generalizing i with
  | nil => cases found
  | cons first rest ih =>
    rw [List.pairwise_cons] at pairwise
    by_cases small : p first = true
    next =>
      rw [List.countP_cons_of_pos small]
      cases i with
      | zero =>
        cases found
        exact iff_of_true (Nat.succ_pos _) small
      | succ i => rw [Nat.succ_lt_succ_iff, ih pairwise.2 found]
    next =>
      have large : ∀ x ∈ rest, ¬p x = true :=
        fun x member holds => small (closed first x (pairwise.1 x member) holds)
      rw [List.countP_cons_of_neg small, List.countP_eq_zero.mpr large]
      refine iff_of_false (Nat.not_lt_zero i) ?_
      rcases List.mem_cons.mp (List.mem_of_getElem? found) with rfl | member
      next => exact small
      next => exact large value member

theorem rank_le_countP_iff (closed : ∀ a b, a ≤ b → p b = true → p a = true) (positive : 0 < rank)
    (found : ranked xs rank = some value) : rank ≤ xs.countP p ↔ p value = true := by
  rw [← lt_countP_iff closed (pairwise_sort xs) found, (perm_sort xs).countP_eq]
  omega

end Rank

section Buckets

variable {A : Type} {bucket : A → Nat} {size : Nat} {xs : List A}

def tally (bucket : A → Nat) (size : Nat) (xs : List A) : List Nat :=
  (List.range size).map fun i => xs.countP fun x => bucket x = i

@[simp] theorem length_tally : (tally bucket size xs).length = size := by simp [tally]

theorem countP_le_succ (xs : List A) (i : Nat) : xs.countP (fun x => bucket x ≤ i + 1) =
    xs.countP (fun x => bucket x ≤ i) + xs.countP fun x => bucket x = i + 1 := by
  induction xs with
  | nil => rfl
  | cons x rest ih =>
    simp only [List.countP_cons, ih, decide_eq_true_eq]
    split_ifs <;> omega

theorem sum_map_range (xs : List A) (i : Nat) :
    ((List.range (i + 1)).map fun j => xs.countP fun x => bucket x = j).sum = xs.countP fun x => bucket x ≤ i := by
  induction i with
  | zero => simp
  | succ i ih => rw [List.range_succ, List.map_append, List.sum_append, ih, countP_le_succ, List.map_singleton,
      List.sum_singleton]

theorem sum_take_tally {i : Nat} (inside : i < size) :
    ((tally bucket size xs).take (i + 1)).sum = xs.countP fun x => bucket x ≤ i := by
  rw [tally, ← List.map_take, List.take_range, Nat.min_eq_left inside, sum_map_range]

theorem sum_tally (inside : ∀ x ∈ xs, bucket x < size) : (tally bucket size xs).sum = xs.length := by
  cases size with
  | zero =>
    have nothing : xs = [] := List.eq_nil_iff_forall_not_mem.mpr fun x member => Nat.not_lt_zero _ (inside x member)
    rw [nothing]
    rfl
  | succ last =>
    rw [tally, sum_map_range, List.countP_eq_length]
    intro x member
    simpa using Nat.le_of_lt_succ (inside x member)

theorem tally_concat (x : A) : tally bucket size (xs ++ [x]) = (tally bucket size xs).modify (bucket x) (· + 1) := by
  refine List.ext_getElem (by simp) fun i _ _ => ?_
  rw [List.getElem_modify]
  by_cases here : bucket x = i <;> simp [tally, here]

def reach (target : Nat) : Nat → Nat → List Nat → Option Nat
  | _, _, [] => none
  | i, cumulative, count :: rest =>
    if cumulative + count ≥ target then some i else reach target (i + 1) (cumulative + count) rest

theorem reach_eq {target cumulative first k : Nat} {counts : List Nat} (inside : k < counts.length)
    (reached : target ≤ cumulative + (counts.take (k + 1)).sum)
    (before : ∀ j < k, cumulative + (counts.take (j + 1)).sum < target) :
    reach target first cumulative counts = some (first + k) := by
  induction k generalizing cumulative first counts with
  | zero =>
    cases counts with
    | nil => cases inside
    | cons count rest =>
      rw [List.take_succ_cons, List.take_zero, List.sum_singleton] at reached
      rw [reach, if_pos reached, Nat.add_zero]
  | succ k ih =>
    cases counts with
    | nil => cases inside
    | cons count rest =>
      have short := before 0 (Nat.succ_pos k)
      rw [List.take_succ_cons, List.take_zero, List.sum_singleton] at short
      rw [List.take_succ_cons, List.sum_cons, ← Nat.add_assoc] at reached
      have later : ∀ j < k, cumulative + count + (rest.take (j + 1)).sum < target := by
        intro j less
        have earlier := before (j + 1) (Nat.succ_lt_succ less)
        rwa [List.take_succ_cons, List.sum_cons, ← Nat.add_assoc] at earlier
      rw [reach, if_neg (Nat.not_le.mpr short), ih (Nat.lt_of_succ_lt_succ inside) reached later]
      congr 1
      omega

theorem reach_eq_none {target cumulative first : Nat} {counts : List Nat} (short : cumulative + counts.sum < target) :
    reach target first cumulative counts = none := by
  induction counts generalizing first cumulative with
  | nil => rfl
  | cons count rest ih =>
    rw [List.sum_cons, ← Nat.add_assoc] at short
    rw [reach, if_neg (by omega), ih short]

theorem reach_tally [LinearOrder A] (monotone : ∀ a b, a ≤ b → bucket a ≤ bucket b) {rank : Nat} {value : A}
    (positive : 0 < rank) (found : ranked xs rank = some value) (inside : bucket value < size) :
    reach rank 0 0 (tally bucket size xs) = some (bucket value) := by
  have counted : ∀ i < size, rank ≤ ((tally bucket size xs).take (i + 1)).sum ↔ bucket value ≤ i := by
    intro i less
    rw [sum_take_tally less, rank_le_countP_iff _ positive found, decide_eq_true_eq]
    intro a b le small
    simp only [decide_eq_true_eq] at small ⊢
    exact Nat.le_trans (monotone a b le) small
  rw [reach_eq (k := bucket value) (by simpa using inside), Nat.zero_add]
  · rw [Nat.zero_add]
    exact (counted _ inside).mpr (Nat.le_refl _)
  · intro j less
    rw [Nat.zero_add, ← Nat.not_le, counted j (Nat.lt_trans less inside), Nat.not_le]
    exact less

end Buckets

end OrderStatistics
