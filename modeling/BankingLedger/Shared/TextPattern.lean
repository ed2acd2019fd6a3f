import Mathlib.Data.List.Forall2
import Mathlib.Tactic.Common

set_option autoImplicit false

namespace TextPattern

def Matches (p c : Char) : Prop := if p = '0' then c.isDigit = true else c = p

def Fits (pattern text : List Char) : Prop := List.Forall₂ Matches pattern text

theorem fits_self {pattern : List Char} : Fits pattern pattern := by
  refine List.forall₂_same.mpr fun p _ => ?_
  unfold Matches
  split
  · next zero => rw [zero]; decide
  · rfl

theorem fits_digits {text : List Char} (digits : ∀ c ∈ text, c.isDigit) :
    Fits (List.replicate text.length '0') text := by
  induction text with
  | nil => exact .nil
  | cons c rest ih =>
    rw [List.forall_mem_cons] at digits
    exact .cons digits.1 (ih digits.2)

-- No character matches both.
def apart (p q : Char) : Bool := p != q && !(p == '0' && q.isDigit) && !(q == '0' && p.isDigit)

theorem apart_eq_false {p q c : Char} (first : Matches p c) (second : Matches q c) :
    apart p q = false := by
  unfold Matches at first second
  unfold apart
  split at first <;> split at second <;> simp_all

-- Patterns that are apart at some place, counted from the end.
def clash (p q : List Char) : Bool := (p.reverse.zip q.reverse).any fun pair => apart pair.1 pair.2

theorem matches_reverse {pattern text : List Char} (fits : Fits pattern text) {i : Nat} {p c : Char}
    (at_p : pattern.reverse[i]? = some p) (at_c : text.reverse[i]? = some c) : Matches p c := by
  obtain ⟨within, rfl⟩ := List.getElem?_eq_some_iff.mp at_p
  obtain ⟨inside, rfl⟩ := List.getElem?_eq_some_iff.mp at_c
  exact (List.forall₂_reverse_iff.mpr fits).get within inside

theorem Fits.suffix_unique {p q d e t u : List Char} (same : d ++ t = e ++ u) (first : Fits p t)
    (second : Fits q u) (shapes : p = q ∨ clash p q = true) : d = e ∧ t = u := by
  rcases shapes with rfl | clashes
  · exact List.append_inj' same (first.length_eq.symm.trans second.length_eq)
  · exfalso
    obtain ⟨⟨a, b⟩, member, differ⟩ := List.any_eq_true.mp clashes
    obtain ⟨i, within, at_i⟩ := List.getElem_of_mem member
    have places := List.getElem?_eq_some_iff.mpr ⟨within, at_i⟩
    rw [List.getElem?_zip_eq_some] at places
    obtain ⟨at_a, at_b⟩ := places
    have backwards : t.reverse ++ d.reverse = u.reverse ++ e.reverse := by
      rw [← List.reverse_append, ← List.reverse_append, same]
    have inT : i < t.reverse.length := by
      have := (List.getElem?_eq_some_iff.mp at_a).1
      rwa [List.length_reverse, first.length_eq, ← List.length_reverse] at this
    have inU : i < u.reverse.length := by
      have := (List.getElem?_eq_some_iff.mp at_b).1
      rwa [List.length_reverse, second.length_eq, ← List.length_reverse] at this
    have at_t := List.getElem?_eq_getElem inT
    have at_u : u.reverse[i]? = some t.reverse[i] := by
      rw [← at_t, ← List.getElem?_append_left inT, ← List.getElem?_append_left inU, backwards]
    rw [apart_eq_false (matches_reverse first at_a at_t) (matches_reverse second at_b at_u)] at differ
    cases differ

end TextPattern
