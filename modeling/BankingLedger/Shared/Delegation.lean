import Mathlib.Logic.Relation
import Mathlib.Tactic.Common

set_option autoImplicit false

namespace Delegation

variable {S R : Type}

structure Policy (S R : Type) where
  seeds : S → R → Prop
  manages : R → Prop

/-- `given sender subject right` says that `sender` has given `subject` the right. -/
inductive Held (policy : Policy S R) (given : S → S → R → Prop) : S → R → Prop where
  | seed {subject : S} {right : R} (seeded : policy.seeds subject right) : Held policy given subject right
  | gift {sender subject : S} {manager right : R} (authority : Held policy given sender manager)
      (manages : policy.manages manager) (gave : given sender subject right) : Held policy given subject right

variable {policy : Policy S R} {given given' : S → S → R → Prop} {subject : S} {right : R}

theorem Held.mono (more : ∀ sender subject right, given sender subject right → given' sender subject right)
    (held : Held policy given subject right) : Held policy given' subject right := by
  induction held with
  | seed seeded => exact .seed seeded
  | gift _ manages gave ih => exact .gift ih manages (more _ _ _ gave)

def Passes (policy : Policy S R) (given : S → S → R → Prop) (sender subject : S) : Prop :=
  ∃ manager, policy.manages manager ∧ given sender subject manager

def Root (policy : Policy S R) (root : S) : Prop := ∃ manager, policy.manages manager ∧ policy.seeds root manager

theorem Held.chain (held : Held policy given subject right) : policy.seeds subject right ∨
    ∃ root sender, Root policy root ∧ Relation.ReflTransGen (Passes policy given) root sender ∧
      given sender subject right := by
  induction held with
  | seed seeded => exact .inl seeded
  | @gift sender subject manager right authority manages gave ih =>
    cases ih with
    | inl seeded => exact .inr ⟨sender, sender, ⟨manager, manages, seeded⟩, .refl, gave⟩
    | inr passed =>
      obtain ⟨root, giver, rooted, chain, given⟩ := passed
      exact .inr ⟨root, sender, rooted, chain.tail ⟨manager, manages, given⟩, gave⟩

-- As long as the trusted make no others managers, nobody else gives anything.
theorem Held.confined {trusted : S → Prop} (roots : ∀ root, Root policy root → trusted root)
    (closed : ∀ sender subject, trusted sender → Passes policy given sender subject → trusted subject)
    (held : Held policy given subject right) :
    policy.seeds subject right ∨ ∃ sender, trusted sender ∧ given sender subject right := by
  cases held.chain with
  | inl seeded => exact .inl seeded
  | inr passed =>
    obtain ⟨root, sender, rooted, chain, gave⟩ := passed
    have trusts : trusted sender := by
      clear gave
      induction chain with
      | refl => exact roots root rooted
      | tail _ passes ih => exact closed _ _ ih passes
    exact .inr ⟨sender, trusts, gave⟩

end Delegation
