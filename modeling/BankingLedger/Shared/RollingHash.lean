import Mathlib.Data.Nat.Digits.Lemmas
import Mathlib.Data.Nat.ModEq

set_option autoImplicit false

namespace RollingHash

variable (base : Nat)

def value (digits : List Nat) : Nat := Nat.ofDigits base digits.reverse

theorem value_eq_foldl (digits : List Nat) :
    value base digits = digits.foldl (fun sum digit => sum * base + digit) 0 := by
  have swap : (fun digit sum => digit + base * sum) = fun (digit sum : Nat) => sum * base + digit := by
    funext digit sum
    rw [Nat.mul_comm, Nat.add_comm]
  simp only [value, Nat.ofDigits_eq_foldr, List.foldr_reverse, Nat.cast_id, swap]

theorem value_append (front back : List Nat) :
    value base (front ++ back) = value base back + base ^ back.length * value base front := by
  rw [value, List.reverse_append, Nat.ofDigits_append, List.length_reverse, value, value]

theorem value_lt {limit : Nat} (several : 1 < limit) (below : base ≤ limit) {digits : List Nat}
    (small : ∀ digit ∈ digits, digit < limit) : value base digits < limit ^ digits.length := by
  have monotone : value base digits ≤ value limit digits := Nat.ofDigits_monotone _ below
  have bounded : Nat.ofDigits limit digits.reverse < limit ^ digits.reverse.length :=
    Nat.ofDigits_lt_base_pow_length several (by simpa using small)
  rw [List.length_reverse] at bounded
  exact Nat.lt_of_le_of_lt monotone bounded

variable {base} {modulus : Nat}

theorem value_window_iff (coprime : Nat.Coprime modulus base) (front back : List Nat) {old new : List Nat}
    (length : old.length = new.length) :
    value base (front ++ old ++ back) ≡ value base (front ++ new ++ back) [MOD modulus] ↔
      value base old ≡ value base new [MOD modulus] := by
  simp only [value_append, length]
  constructor
  · intro same
    have shifted := Nat.ModEq.cancel_left_of_coprime (coprime.pow_right back.length)
      (Nat.ModEq.add_left_cancel' _ same)
    exact Nat.ModEq.add_right_cancel' _ shifted
  · intro same
    exact Nat.ModEq.add_left _ (Nat.ModEq.mul_left _ (Nat.ModEq.add_right _ same))

theorem value_window_eq_iff (coprime : Nat.Coprime modulus base) (front back : List Nat) {old new : List Nat}
    (length : old.length = new.length) (old_small : value base old < modulus)
    (new_small : value base new < modulus) :
    value base (front ++ old ++ back) ≡ value base (front ++ new ++ back) [MOD modulus] ↔
      value base old = value base new := by
  rw [value_window_iff coprime front back length]
  constructor
  · intro same
    exact Nat.ModEq.eq_of_lt_of_lt same old_small new_small
  · intro same
    exact congrArg (· % modulus) same

end RollingHash
