import Mathlib.Data.Multiset.AddSub

set_option autoImplicit false

namespace LastEntries

variable {A : Type} {log : List A} {count : Nat}

def lastOf (count : Nat) (log : List A) : List A := log.drop (log.length - count)

@[simp] theorem lastOf_nil : lastOf count ([] : List A) = [] := List.drop_nil

theorem length_lastOf : (lastOf count log).length = min count log.length := by
  rw [lastOf, List.length_drop]
  omega

theorem lastOf_concat_of_room (room : (lastOf count log).length < count) (x : A) :
    lastOf count (log ++ [x]) = lastOf count log ++ [x] := by
  rw [length_lastOf] at room
  have short : log.length < count := by omega
  have whole : log.length - count = 0 := by omega
  have still : (log ++ [x]).length - count = 0 := by
    rw [List.length_append, List.length_singleton]
    omega
  rw [lastOf, lastOf, whole, still, List.drop_zero, List.drop_zero]

theorem lastOf_concat_of_full (positive : 0 < count) (full : count ≤ (lastOf count log).length) (x : A) :
    lastOf count (log ++ [x]) = (lastOf count log).tail ++ [x] := by
  rw [length_lastOf] at full
  have later : (log ++ [x]).length - count = log.length - count + 1 := by
    rw [List.length_append, List.length_singleton]
    omega
  rw [lastOf, lastOf, later, List.tail_drop, List.drop_append_of_le_length (by omega)]

theorem lastOf_concat_of_makes_room (limit : Nat) (log : List A) (x : A) :
    (if limit ≤ (lastOf (max limit 1) log).length then (lastOf (max limit 1) log).tail else lastOf (max limit 1) log) ++
      [x] = lastOf (max limit 1) (log ++ [x]) := by
  split
  next reached =>
    by_cases empty : lastOf (max limit 1) log = []
    next =>
      have room : (lastOf (max limit 1) log).length < max limit 1 := by
        rw [empty, List.length_nil]
        omega
      rw [lastOf_concat_of_room room, empty, List.tail_nil]
    next =>
      have some : 0 < (lastOf (max limit 1) log).length := List.length_pos_iff.mpr empty
      rw [lastOf_concat_of_full (by omega) (by omega)]
  next room => rw [lastOf_concat_of_room (by omega)]

-- Of two windows with the same entries, what stays is the same exactly if what is lost is.
theorem tail_perm_tail_iff {first second : List A} (perm : first.Perm second) :
    first.tail.Perm second.tail ↔ first.head? = second.head? := by
  cases first with
  | nil => simp [perm.symm.eq_nil]
  | cons a rest =>
    cases second with
    | nil => exact absurd perm.length_eq (by simp)
    | cons b rest' =>
      simp only [List.tail_cons, List.head?_cons, Option.some.injEq]
      constructor
      · intro same
        have entries : a ::ₘ (rest : Multiset A) = b ::ₘ (rest : Multiset A) := by
          rw [Multiset.cons_coe, Multiset.cons_coe, Multiset.coe_eq_coe]
          exact perm.trans (same.symm.cons b)
        exact (Multiset.cons_inj_left _).mp entries
      · intro same
        subst same
        exact perm.cons_inv

end LastEntries
