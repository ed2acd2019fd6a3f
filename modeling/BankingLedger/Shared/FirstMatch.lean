import Mathlib.Data.List.Nodup

set_option autoImplicit false

namespace FirstMatch

variable {A B K : Type} {p : A → Bool} {f : A → A}

def updateFirst (p : A → Bool) (f : A → A) : List A → List A
  | [] => []
  | item :: rest => if p item then f item :: rest else item :: updateFirst p f rest

-- What the change leaves alone stays the same all over the list.
theorem map_updateFirst {view : A → B} (kept : ∀ item, view (f item) = view item) (items : List A) :
    (updateFirst p f items).map view = items.map view := by
  induction items with
  | nil => rfl
  | cons item rest ih =>
    rw [updateFirst]
    split <;> simp [kept, ih]

theorem updateFirst_eq_map [DecidableEq K] {key : A → K} {items : List A}
    (distinct : (items.map key).Nodup) (k : K) :
    updateFirst (fun item => key item = k) f items =
      items.map fun item => if key item = k then f item else item := by
  induction items with
  | nil => rfl
  | cons item rest ih =>
    simp only [List.map_cons, List.nodup_cons] at distinct
    rw [updateFirst]
    by_cases here : key item = k
    next =>
      have others : ∀ other ∈ rest, key other ≠ k := by
        intro other member same
        exact distinct.1 (List.mem_map.mpr ⟨other, member, same.trans here.symm⟩)
      have unchanged : (rest.map fun other => if key other = k then f other else other) = rest := by
        rw [List.map_congr_left fun other member => if_neg (others other member), List.map_id']
      simp [here, unchanged]
    next => simp [here, ih distinct.2]

end FirstMatch
