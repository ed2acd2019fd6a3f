import BankingLedger.Shared.CycleSearch
import Mathlib.Data.Finset.Max

set_option autoImplicit false

namespace CompletionOrder

open CycleSearch Relation

variable {N : Type} {needs : N → List N} {a b node : N} {done order first second : List N}

def Ordered (needs : N → List N) : List N → Prop
  | [] => True
  | node :: before => (∀ b ∈ needs node, b ∈ before) ∧ Ordered needs before

theorem Ordered.closed (ordered : Ordered needs order) (member : a ∈ order)
    (reached : ReflTransGen (Edge needs) a b) : b ∈ order := by
  induction reached with
  | refl => exact member
  | tail _ edge ih =>
    have step (order : List N) (ordered : Ordered needs order) {x y : N} (member : x ∈ order)
        (edge : y ∈ needs x) : y ∈ order := by
      induction order with
      | nil => cases member
      | cons node before ih =>
        rcases List.mem_cons.mp member with rfl | earlier
        next => exact List.mem_cons_of_mem _ (ordered.1 y edge)
        next => exact List.mem_cons_of_mem _ (ih ordered.2 earlier)
    exact step order ordered ih edge

theorem Ordered.not_onCycle (ordered : Ordered needs order) (member : a ∈ order) : ¬OnCycle needs a := by
  induction order with
  | nil => cases member
  | cons node before ih =>
    -- What was completed before closes no cycle, and the node needs nothing that leads back to it.
    by_cases earlier : a ∈ before
    next => exact ih ordered.2 earlier
    next =>
      obtain rfl := (List.mem_cons.mp member).resolve_right earlier
      intro cycle
      obtain ⟨b, edge, back⟩ := TransGen.head'_iff.mp cycle
      exact earlier (ordered.2.closed (ordered.1 b edge) back)

theorem Ordered.append (one : Ordered needs first) (two : Ordered needs second) : Ordered needs (first ++ second) := by
  induction first with
  | nil => exact two
  | cons node before ih =>
    exact ⟨fun b member => List.mem_append_left _ (one.1 b member), ih one.2⟩

theorem exists_ordered_of_forall {wanted : List N} {P : N → Prop}
    (each : ∀ b ∈ wanted, ∃ order, Ordered needs order ∧ b ∈ order ∧ ∀ x ∈ order, P x) :
    ∃ order, Ordered needs order ∧ (∀ b ∈ wanted, b ∈ order) ∧ ∀ x ∈ order, P x := by
  induction wanted with
  | nil => exact ⟨[], trivial, nofun, nofun⟩
  | cons b rest ih =>
    rw [List.forall_mem_cons] at each
    obtain ⟨one, ordered, member, holds⟩ := each.1
    obtain ⟨others, ordered', members, holds'⟩ := ih each.2
    refine ⟨one ++ others, ordered.append ordered', ?_, ?_⟩
    next =>
      refine List.forall_mem_cons.mpr ⟨List.mem_append_left _ member, fun x here => ?_⟩
      exact List.mem_append_right _ (members x here)
    next => exact List.forall_mem_append.mpr ⟨holds, holds'⟩

theorem exists_ordered (nodes : Finset N) (a : N) (inside : ∀ b, ReflTransGen (Edge needs) a b → b ∈ nodes)
    (acyclic : ∀ b, ReflTransGen (Edge needs) a b → ¬OnCycle needs b) :
    ∃ order, Ordered needs order ∧ a ∈ order ∧ ∀ b ∈ order, ReflTransGen (Edge needs) a b := by
  classical
  -- What a node leads to shrinks along an edge, since no cycle leads back.
  induction measured : (nodes.filter (TransGen (Edge needs) a)).card using Nat.strong_induction_on generalizing a with
  | h size ih =>
    have each : ∀ b ∈ needs a, ∃ order, Ordered needs order ∧ b ∈ order ∧
        ∀ x ∈ order, ReflTransGen (Edge needs) a x := by
      intro b edge
      have from_a {x : N} (reached : ReflTransGen (Edge needs) b x) : ReflTransGen (Edge needs) a x :=
        .head edge reached
      have fewer : (nodes.filter (TransGen (Edge needs) b)).card < (nodes.filter (TransGen (Edge needs) a)).card := by
        refine Finset.card_lt_card ((Finset.ssubset_iff_of_subset fun x member => ?_).mpr ⟨b, ?_, ?_⟩)
        next =>
          rw [Finset.mem_filter] at member ⊢
          exact ⟨member.1, .head edge member.2⟩
        next => exact Finset.mem_filter.mpr ⟨inside b (.single edge), .single edge⟩
        next => exact fun member => acyclic b (.single edge) (Finset.mem_filter.mp member).2
      obtain ⟨order, ordered, member, reached⟩ := ih _ (measured ▸ fewer) b (fun x here => inside x (from_a here))
        (fun x here => acyclic x (from_a here)) rfl
      exact ⟨order, ordered, member, fun x here => from_a (reached x here)⟩
    obtain ⟨order, ordered, members, reached⟩ := exists_ordered_of_forall each
    refine ⟨a :: order, ⟨members, ordered⟩, List.mem_cons_self, ?_⟩
    exact List.forall_mem_cons.mpr ⟨.refl, reached⟩

end CompletionOrder
