import BankingLedger.Shared.ByteText
import Mathlib.Data.List.Basic

set_option autoImplicit false

namespace FixedPoint

-- The last digits of a number, which starts with zeros if it has fewer.
def lastDigits : Nat → Nat → List Char
  | 0, _ => []
  | places + 1, n => lastDigits places (n / 10) ++ [(n % 10).digitChar]

def print (places : Nat) (n : Int) : List Char :=
  (if n < 0 then ['-'] else []) ++ Nat.toDigits 10 (n.natAbs / 10 ^ places) ++
    if places = 0 then [] else '.' :: lastDigits places n.natAbs

def read (text : List Char) : Int × Nat :=
  let size : Int := Nat.ofDigitChars 10 (text.filter Char.isDigit) 0
  (if text.head? = some '-' then -size else size, (text.dropWhile (· ≠ '.')).length - 1)

theorem length_lastDigits (places n : Nat) : (lastDigits places n).length = places := by
  induction places generalizing n with
  | zero => rfl
  | succ places ih => rw [lastDigits, List.length_append, ih, List.length_singleton]

theorem isDigit_of_mem_lastDigits {places n : Nat} {c : Char} (member : c ∈ lastDigits places n) :
    c.isDigit = true := by
  induction places generalizing n with
  | zero => cases member
  | succ places ih =>
    rcases List.mem_append.mp member with before | last
    next => exact ih before
    next =>
      rw [List.mem_singleton.mp last]
      exact Nat.isDigit_digitChar.trans (decide_eq_true (Nat.mod_lt n (by decide)))

theorem ofDigitChars_lastDigits (places n : Nat) :
    Nat.ofDigitChars 10 (lastDigits places n) 0 = n % 10 ^ places := by
  induction places generalizing n with
  | zero => simp [lastDigits, Nat.mod_one]
  | succ places ih =>
    rw [lastDigits, Nat.ofDigitChars_append, ih, Nat.ofDigitChars_cons_digitChar_of_lt_ten (Nat.mod_lt n (by decide)),
      Nat.ofDigitChars_nil, Nat.pow_succ', Nat.mod_mul, Nat.add_comm]

theorem isDigit_of_mem_toDigits {n : Nat} {c : Char} (member : c ∈ Nat.toDigits 10 n) : c.isDigit = true :=
  Nat.isDigit_of_mem_toDigits (by decide) (by decide) member

theorem filter_print (places : Nat) (n : Int) :
    (print places n).filter Char.isDigit = Nat.toDigits 10 (n.natAbs / 10 ^ places) ++ lastDigits places n.natAbs := by
  have sign : ((if n < 0 then ['-'] else []) : List Char).filter Char.isDigit = [] := by
    split <;> rfl
  have point : ((if places = 0 then [] else '.' :: lastDigits places n.natAbs) : List Char).filter Char.isDigit =
      lastDigits places n.natAbs := by
    split
    next none => rw [none]; rfl
    next =>
      rw [List.filter_cons_of_neg (by decide)]
      exact List.filter_eq_self.mpr fun c member => isDigit_of_mem_lastDigits member
  rw [print, List.filter_append, List.filter_append, sign, point, List.nil_append,
    List.filter_eq_self.mpr fun c member => isDigit_of_mem_toDigits member]

theorem mem_whole {negative : Prop} [Decidable negative] {n : Nat} {c : Char}
    (member : c ∈ (if negative then ['-'] else []) ++ Nat.toDigits 10 n) : c = '-' ∨ c.isDigit = true := by
  rcases List.mem_append.mp member with sign | digit
  next =>
    split at sign
    next => exact .inl (List.mem_singleton.mp sign)
    next => cases sign
  next => exact .inr (isDigit_of_mem_toDigits digit)

theorem head?_print (places : Nat) (n : Int) : (print places n).head? = some '-' ↔ n < 0 := by
  rw [print, List.append_assoc]
  by_cases negative : n < 0
  next => simp [negative]
  next =>
    rw [if_neg negative, List.nil_append, List.head?_append_of_ne_nil _ Nat.toDigits_ne_nil]
    refine iff_of_false (fun first => ?_) negative
    exact absurd (isDigit_of_mem_toDigits (List.mem_of_mem_head? first)) (by decide)

theorem length_dropWhile_print (places : Nat) (n : Int) :
    ((print places n).dropWhile (· ≠ '.')).length - 1 = places := by
  have before : ∀ c ∈ (if n < 0 then ['-'] else []) ++ Nat.toDigits 10 (n.natAbs / 10 ^ places),
      decide (c ≠ '.') = true := by
    intro c member
    rcases mem_whole member with sign | digit
    next => rw [sign]; rfl
    next =>
      apply decide_eq_true
      intro point
      rw [point] at digit
      cases digit
  rw [print, List.dropWhile_append_of_pos before]
  split
  next none => rw [none]; rfl
  next =>
    rw [List.dropWhile_cons_of_neg (by decide), List.length_cons, length_lastDigits, Nat.add_sub_cancel]

theorem read_print (places : Nat) (n : Int) : read (print places n) = (n, places) := by
  have size : Nat.ofDigitChars 10 ((print places n).filter Char.isDigit) 0 = n.natAbs := by
    rw [filter_print, Nat.ofDigitChars_append, Nat.ofDigitChars_ten_toDigits,
      Nat.ofDigitChars_eq_ofDigitChars_zero, length_lastDigits, ofDigitChars_lastDigits]
    exact Nat.div_add_mod n.natAbs (10 ^ places)
  simp only [read, size, head?_print, length_dropWhile_print, Prod.mk.injEq, and_true]
  split <;> omega

theorem mem_print {places : Nat} {n : Int} {c : Char} (member : c ∈ print places n) :
    c = '-' ∨ c = '.' ∨ c.isDigit = true := by
  rcases List.mem_append.mp member with whole | fraction
  next => exact (mem_whole whole).imp_right .inr
  next =>
    split at fraction
    next => cases fraction
    next => exact .inr ((List.mem_cons.mp fraction).imp_right isDigit_of_mem_lastDigits)

end FixedPoint
