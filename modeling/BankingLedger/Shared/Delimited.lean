import Mathlib.Data.List.Basic

set_option autoImplicit false

namespace Delimited

variable {A : Type} {c : A} {xs ys us vs : List A}

/-- Text between two delimiters ends the first piece in one reading and starts the second in the
other. -/
def Shifts (c : A) (xs us ys vs : List A) : Prop :=
  ∃ between, ys = xs ++ c :: between ∧ us = between ++ c :: vs

theorem append_cons_eq_iff : xs ++ c :: us = ys ++ c :: vs ↔
    (xs = ys ∧ us = vs) ∨ Shifts c xs us ys vs ∨ Shifts c ys vs xs us := by
  constructor
  · intro same
    rcases List.append_eq_append_iff.mp same with ⟨between, right, left⟩ | ⟨between, right, left⟩
    · cases between with
      | nil => exact .inl ⟨by simpa using right.symm, by simpa using left⟩
      | cons d rest =>
        obtain ⟨rfl, rest_eq⟩ := List.cons.inj left
        exact .inr (.inl ⟨rest, right, rest_eq⟩)
    · cases between with
      | nil => exact .inl ⟨by simpa using right, by simpa using left.symm⟩
      | cons d rest =>
        obtain ⟨rfl, rest_eq⟩ := List.cons.inj left
        exact .inr (.inr ⟨rest, right, rest_eq⟩)
  · rintro (⟨rfl, rfl⟩ | ⟨between, rfl, rfl⟩ | ⟨between, rfl, rfl⟩)
    · rfl
    · simp
    · simp

theorem append_cons_inj_of_plain_right (plain : c ∉ us) (plain' : c ∉ vs) :
    xs ++ c :: us = ys ++ c :: vs ↔ xs = ys ∧ us = vs := by
  rw [append_cons_eq_iff]
  constructor
  · rintro (same | ⟨between, -, rfl⟩ | ⟨between, -, rfl⟩)
    · exact same
    · simp at plain
    · simp at plain'
  · exact .inl

theorem append_cons_inj_of_plain_left (plain : c ∉ xs) (plain' : c ∉ ys) :
    xs ++ c :: us = ys ++ c :: vs ↔ xs = ys ∧ us = vs := by
  rw [append_cons_eq_iff]
  constructor
  · rintro (same | ⟨between, rfl, -⟩ | ⟨between, rfl, -⟩)
    · exact same
    · simp at plain'
    · simp at plain
  · exact .inl

end Delimited
