import Mathlib.Data.List.Basic
import Mathlib.Tactic.Common

set_option autoImplicit false

namespace KeyedHash

-- Some text is always hashed like another, so a collision is one between given texts.
def Collision {X H : Type} (hash : X → H) (first second : List X) : Prop :=
  ∃ x ∈ first, ∃ y ∈ second, x ≠ y ∧ hash x = hash y

theorem Collision.mono {X H : Type} {hash : X → H} {first first' second second' : List X}
    (found : Collision hash first second) (grows : first ⊆ first') (grows' : second ⊆ second') :
    Collision hash first' second' := by
  obtain ⟨x, at_x, y, at_y, differ, same⟩ := found
  exact ⟨x, grows at_x, y, grows' at_y, differ, same⟩

variable {A : Type} (hash : List A → List A)

-- A key that is too long is hashed first.
def pad (zero : A) (size : Nat) (key : List A) : List A :=
  let short := if size < key.length then hash key else key
  short ++ List.replicate (size - short.length) zero

theorem length_pad (zero : A) {size : Nat} (fits : ∀ text, (hash text).length ≤ size) (key : List A) :
    (pad hash zero size key).length = size := by
  have short : (if size < key.length then hash key else key).length ≤ size := by
    split
    next => exact fits key
    next within => omega
  simp only [pad, List.length_append, List.length_replicate]
  omega

variable (inner outer : A → A)

def innerText (key message : List A) : List A := key.map inner ++ message

def outerText (key message : List A) : List A := key.map outer ++ hash (innerText inner key message)

def mac (key message : List A) : List A := hash (outerText hash inner outer key message)

def texts (key message : List A) : List (List A) :=
  [innerText inner key message, outerText hash inner outer key message]

variable {hash inner outer} {key key' message message' : List A}

theorem innerText_injective (length : key.length = key'.length)
    (same : innerText inner key message = innerText inner key' message') : message = message' :=
  (List.append_inj same (by rw [List.length_map, List.length_map, length])).2

theorem outerText_injective (mask : Function.Injective outer) (length : key.length = key'.length)
    (same : outerText hash inner outer key message = outerText hash inner outer key' message') :
    key = key' ∧ hash (innerText inner key message) = hash (innerText inner key' message') := by
  have parts := List.append_inj same (by rw [List.length_map, List.length_map, length])
  exact ⟨List.map_injective_iff.mpr mask parts.1, parts.2⟩

theorem mac_eq_or_collision (mask : Function.Injective outer) (length : key.length = key'.length)
    (same : mac hash inner outer key message = mac hash inner outer key' message') :
    (key = key' ∧ message = message') ∨
      Collision hash (texts hash inner outer key message) (texts hash inner outer key' message') := by
  by_cases outerSame : outerText hash inner outer key message = outerText hash inner outer key' message'
  next =>
    have parts := outerText_injective mask length outerSame
    by_cases innerSame : innerText inner key message = innerText inner key' message'
    next => exact .inl ⟨parts.1, innerText_injective length innerSame⟩
    next => exact .inr ⟨_, List.mem_cons_self, _, List.mem_cons_self, innerSame, parts.2⟩
  next =>
    exact .inr ⟨_, by simp [texts], _, by simp [texts], outerSame, same⟩

end KeyedHash
