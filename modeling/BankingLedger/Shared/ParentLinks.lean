import Mathlib.Data.Finset.Card
import Mathlib.Data.Fintype.Pigeonhole
import Mathlib.Logic.Relation

set_option autoImplicit false

namespace ParentLinks

open Relation

variable {N : Type} {next next' : N → Option N} {x y z : N}

def Link (next : N → Option N) (x y : N) : Prop := next x = some y

def follow (next : N → Option N) : Nat → N → Option N
  | 0, x => some x
  | count + 1, x => (next x).bind (follow next count)

def Ends (next : N → Option N) (x : N) : Prop := ∃ count, follow next count x = none

def NeverRevisits (next : N → Option N) (x : N) : Prop :=
  ∀ i j, i < j → ∀ node, follow next i x = some node → follow next j x ≠ some node

def Unshared (next : N → Option N) : Prop := ∀ x y z, Link next x z → Link next y z → x = y

def Acyclic (next : N → Option N) : Prop := ∀ x, ¬TransGen (Link next) x x

@[simp] theorem follow_one : follow next 1 x = next x := by
  cases linked : next x <;> simp [follow, linked]

theorem follow_add (i j : Nat) : follow next (i + j) x = (follow next i x).bind (follow next j) := by
  induction i generalizing x with
  | zero => simp [follow]
  | succ i ih =>
    rw [Nat.succ_add]
    cases linked : next x with
    | none => simp [follow, linked]
    | some parent => simp [follow, linked, ih]

theorem reflTransGen_of_follow {count : Nat} (found : follow next count x = some y) :
    ReflTransGen (Link next) x y := by
  induction count generalizing x with
  | zero =>
    simp only [follow, Option.some.injEq] at found
    subst found
    exact .refl
  | succ count ih =>
    simp only [follow, Option.bind_eq_some_iff] at found
    obtain ⟨parent, linked, found⟩ := found
    exact .head linked (ih found)

theorem transGen_of_follow {count : Nat} (found : follow next (count + 1) x = some y) :
    TransGen (Link next) x y := by
  simp only [follow, Option.bind_eq_some_iff] at found
  obtain ⟨parent, linked, found⟩ := found
  exact .head' linked (reflTransGen_of_follow found)

theorem exists_follow_of_transGen (path : TransGen (Link next) x y) :
    ∃ count, follow next (count + 1) x = some y := by
  induction path with
  | single linked => exact ⟨0, follow_one.trans linked⟩
  | tail _ linked ih =>
    obtain ⟨count, found⟩ := ih
    refine ⟨count + 1, ?_⟩
    rw [follow_add (count + 1) 1, found]
    exact follow_one.trans linked

theorem Acyclic.neverRevisits (acyclic : Acyclic next) (x : N) : NeverRevisits next x := by
  intro i j less node first second
  obtain ⟨between, rfl⟩ := Nat.exists_eq_add_of_lt less
  rw [Nat.add_assoc, follow_add, first] at second
  exact acyclic node (transGen_of_follow second)

theorem not_neverRevisits_of_cycle (cycle : TransGen (Link next) x x) : ¬NeverRevisits next x := by
  intro never
  obtain ⟨count, found⟩ := exists_follow_of_transGen cycle
  exact never 0 (count + 1) (Nat.succ_pos count) x rfl found

theorem Acyclic.ends (acyclic : Acyclic next) {support : Finset N}
    (supported : ∀ x y, Link next x y → x ∈ support) (x : N) : Ends next x := by
  by_contra endless
  have reaches : ∀ count, ∃ node, follow next count x = some node := by
    intro count
    exact Option.ne_none_iff_exists'.mp fun ended => endless ⟨count, ended⟩
  choose node reached using reaches
  have inside : ∀ count, node count ∈ support := by
    intro count
    have further : follow next 1 (node count) = some (node (count + 1)) := by
      have both := reached (count + 1)
      rw [follow_add count 1, reached count] at both
      exact both
    exact supported _ _ (follow_one.symm.trans further)
  obtain ⟨i, j, apart, same⟩ := Finite.exists_ne_map_eq_of_infinite
    fun count => (⟨node count, inside count⟩ : support)
  have same : node i = node j := congrArg Subtype.val same
  have never := acyclic.neverRevisits x
  cases Nat.lt_or_gt_of_ne apart with
  | inl less => exact never i j less (node i) (reached i) (same ▸ reached j)
  | inr more => exact never j i more (node j) (reached j) (same ▸ reached i)

theorem acyclic_of_no_more (acyclic : Acyclic next') (fewer : ∀ x y, Link next x y → Link next' x y) :
    Acyclic next :=
  fun x cycle => acyclic x (TransGen.mono fewer _ _ cycle)

theorem Unshared.comparable (unshared : Unshared next) (first : ReflTransGen (Link next) x z)
    (second : ReflTransGen (Link next) y z) :
    ReflTransGen (Link next) x y ∨ ReflTransGen (Link next) y x := by
  induction first with
  | refl => exact .inr second
  | tail path linked ih =>
    cases second with
    | refl => exact .inl (.tail path linked)
    | tail path' linked' =>
      have same := unshared _ _ _ linked linked'
      exact ih (same ▸ path')

section Bind

variable (free : next x = none) (bound : next' x = some y) (others : ∀ z, z ≠ x → next' z = next z)

include free others in
theorem link_of_bind {z w : N} (linked : Link next z w) : Link next' z w := by
  have apart : z ≠ x := by
    intro same
    rw [Link, same, free] at linked
    cases linked
  rw [Link, others z apart]
  exact linked

include bound others in
theorem link_bind_cases {z w : N} (linked : Link next' z w) : (z = x ∧ w = y) ∨ Link next z w := by
  by_cases here : z = x
  next =>
    subst here
    exact .inl ⟨rfl, Option.some.inj (linked.symm.trans bound)⟩
  next => exact .inr ((others z here).symm.trans linked)

include bound others in
-- A path takes the new link or it does not. It takes it once, as `y` does not lead back to `x`.
theorem path_of_bind (outside : ¬ReflTransGen (Link next) y x) {z w : N}
    (path : ReflTransGen (Link next') z w) :
    ReflTransGen (Link next) z w ∨ (ReflTransGen (Link next) z x ∧ ReflTransGen (Link next) y w) := by
  induction path using ReflTransGen.head_induction_on with
  | refl => exact .inl .refl
  | head linked _ ih =>
    cases link_bind_cases bound others linked with
    | inl new =>
      obtain ⟨rfl, rfl⟩ := new
      cases ih with
      | inl direct => exact .inr ⟨.refl, direct⟩
      | inr around => exact absurd around.1 outside
    | inr old =>
      cases ih with
      | inl direct => exact .inl (.head old direct)
      | inr around => exact .inr ⟨.head old around.1, around.2⟩

include free bound others in
theorem acyclic_bind_iff : Acyclic next' ↔ Acyclic next ∧ ¬ReflTransGen (Link next) y x := by
  have grows : ∀ z w, Link next z w → Link next' z w := fun _ _ => link_of_bind free others
  constructor
  case mp =>
    intro acyclic
    refine ⟨acyclic_of_no_more acyclic grows, fun path => ?_⟩
    exact acyclic x (.head' bound (ReflTransGen.mono grows _ _ path))
  case mpr =>
    rintro ⟨acyclic, outside⟩ z cycle
    obtain ⟨middle, linked, back⟩ := TransGen.head'_iff.mp cycle
    have path := path_of_bind bound others outside back
    cases link_bind_cases bound others linked with
    | inl new =>
      obtain ⟨rfl, rfl⟩ := new
      cases path with
      | inl direct => exact outside direct
      | inr around => exact outside around.1
    | inr old =>
      cases path with
      | inl direct => exact acyclic z (.head' old direct)
      | inr around => exact outside (around.2.trans (.head old around.1))

include free bound others in
theorem unshared_bind_iff : Unshared next' ↔ Unshared next ∧ ∀ z, ¬Link next z y := by
  have grows : ∀ z w, Link next z w → Link next' z w := fun _ _ => link_of_bind free others
  constructor
  case mp =>
    intro unshared
    refine ⟨fun z w t one other => unshared z w t (grows z t one) (grows w t other), fun z linked => ?_⟩
    have same := unshared z x y (grows z y linked) bound
    rw [Link, same, free] at linked
    cases linked
  case mpr =>
    rintro ⟨unshared, unused⟩ z w t one other
    cases link_bind_cases bound others one with
    | inl new =>
      obtain ⟨rfl, rfl⟩ := new
      cases link_bind_cases bound others other with
      | inl again => exact again.1.symm
      | inr old => exact absurd old (unused w)
    | inr first =>
      cases link_bind_cases bound others other with
      | inl new =>
        obtain ⟨rfl, rfl⟩ := new
        exact absurd first (unused z)
      | inr second => exact unshared z w t first second

end Bind

section Walk

variable [DecidableEq N]

/-- Follows the links until there is none (`true`) or one leads to a node visited before
(`false`). There is no answer if the fuel runs out. -/
def walk (next : N → Option N) : Nat → Finset N → Option N → Option Bool
  | _, _, none => some true
  | 0, _, some _ => none
  | fuel + 1, visited, some node =>
    if node ∈ visited then some false else walk next fuel (insert node visited) (next node)

theorem walk_isSome {support : Finset N} (supported : ∀ x y, Link next x y → x ∈ support) {fuel : Nat}
    {visited : Finset N} {current : Option N} (enough : (support \ visited).card < fuel) :
    (walk next fuel visited current).isSome := by
  induction fuel generalizing visited current with
  | zero => cases enough
  | succ fuel ih =>
    cases current with
    | none => rfl
    | some node =>
      rw [walk]
      by_cases seen : node ∈ visited
      next => simp [seen]
      next =>
        simp only [seen, if_false]
        cases linked : next node with
        | none => cases fuel <;> rfl
        | some parent =>
          have member : node ∈ support \ visited :=
            Finset.mem_sdiff.mpr ⟨supported node parent linked, seen⟩
          have fewer : (support \ insert node visited).card < (support \ visited).card := by
            rw [Finset.sdiff_insert]
            exact Finset.card_erase_lt_of_mem member
          exact ih (by omega)

theorem walk_true {fuel : Nat} {visited : Finset N} (done : walk next fuel visited (some x) = some true)
    (path : ReflTransGen (Link next) x y) : y ∉ visited := by
  induction fuel generalizing visited x with
  | zero => cases done
  | succ fuel ih =>
    rw [walk] at done
    by_cases seen : x ∈ visited
    next => simp [seen] at done
    next =>
      simp only [seen, if_false] at done
      cases ReflTransGen.cases_head path with
      | inl here => exact here ▸ seen
      | inr later =>
        obtain ⟨parent, linked, rest⟩ := later
        rw [linked] at done
        exact fun before => ih done rest (Finset.mem_insert_of_mem before)

theorem walk_false {fuel : Nat} {visited : Finset N}
    (stopped : walk next fuel visited (some x) = some false) :
    (∃ y ∈ visited, ReflTransGen (Link next) x y) ∨ ∃ y, TransGen (Link next) y y := by
  induction fuel generalizing visited x with
  | zero => cases stopped
  | succ fuel ih =>
    rw [walk] at stopped
    by_cases seen : x ∈ visited
    next => exact .inl ⟨x, seen, .refl⟩
    next =>
      simp only [seen, if_false] at stopped
      cases linked : next x with
      | none =>
        rw [linked] at stopped
        cases fuel <;> cases stopped
      | some parent =>
        rw [linked] at stopped
        cases ih stopped with
        | inr cycle => exact .inr cycle
        | inl met =>
          obtain ⟨y, member, path⟩ := met
          cases Finset.mem_insert.mp member with
          | inl back => exact .inr ⟨x, .head' linked (back ▸ path)⟩
          | inr before => exact .inl ⟨y, before, .head linked path⟩

theorem walk_eq_true_iff (acyclic : Acyclic next) {support : Finset N}
    (supported : ∀ x y, Link next x y → x ∈ support) {fuel : Nat}
    (enough : (support \ {x}).card < fuel) {current : Option N} :
    walk next fuel {x} current = some true ↔
      ∀ parent, current = some parent → ¬ReflTransGen (Link next) parent x := by
  cases current with
  | none => cases fuel <;> simp [walk]
  | some parent =>
    have answers : (walk next fuel {x} (some parent)).isSome := walk_isSome supported enough
    obtain ⟨clear, answered⟩ := Option.isSome_iff_exists.mp answers
    simp only [Option.some.injEq, forall_eq']
    rw [answered]
    cases clear with
    | true =>
      have outside := fun path => walk_true (y := x) answered path (Finset.mem_singleton_self x)
      simpa using outside
    | false =>
      cases walk_false answered with
      | inl met =>
        obtain ⟨y, here, path⟩ := met
        rw [Finset.mem_singleton] at here
        simpa [here] using path
      | inr cycle =>
        obtain ⟨y, cycle⟩ := cycle
        exact absurd cycle (acyclic y)

theorem walk_of_more_fuel {fuel fuel' : Nat} {visited : Finset N} {current : Option N} {clear : Bool}
    (answered : walk next fuel visited current = some clear) (more : fuel ≤ fuel') :
    walk next fuel' visited current = some clear := by
  induction fuel generalizing fuel' visited current with
  | zero =>
    cases current with
    | none => cases fuel' <;> exact answered
    | some node => cases answered
  | succ fuel ih =>
    cases current with
    | none => cases fuel' <;> exact answered
    | some node =>
      cases fuel' with
      | zero => cases more
      | succ fuel' =>
        rw [walk] at answered ⊢
        by_cases seen : node ∈ visited
        next => rwa [if_pos seen] at answered ⊢
        next =>
          rw [if_neg seen] at answered ⊢
          exact ih answered (Nat.le_of_succ_le_succ more)

structure EndsUnrepeated (trail : Nat → Option N) : Prop where
  ends : ∃ n, trail n = none
  unrepeated : ∀ i j, i < j → ∀ node, trail i = some node → trail j ≠ some node

def after (next : N → Option N) (first : N) (current : Option N) : Nat → Option N
  | 0 => some first
  | n + 1 => current.bind (follow next n)

omit [DecidableEq N] in
theorem bind_follow_some (node : N) :
    (fun n => (some node).bind (follow next n)) = after next node (next node) := by
  funext n
  cases n <;> rfl

omit [DecidableEq N] in
theorem endsUnrepeated_after_iff {first : N} {current : Option N} :
    EndsUnrepeated (after next first current) ↔
      EndsUnrepeated (fun n => current.bind (follow next n)) ∧ ∀ n, current.bind (follow next n) ≠ some first := by
  constructor
  · rintro ⟨⟨n, ended⟩, unrepeated⟩
    refine ⟨⟨?_, fun i j less => unrepeated (i + 1) (j + 1) (Nat.succ_lt_succ less)⟩, ?_⟩
    · cases n with
      | zero => cases ended
      | succ n => exact ⟨n, ended⟩
    · exact fun n => unrepeated 0 (n + 1) (Nat.succ_pos n) first rfl
  · rintro ⟨⟨⟨n, ended⟩, unrepeated⟩, apart⟩
    refine ⟨⟨n + 1, ended⟩, fun i j less node here => ?_⟩
    cases j with
    | zero => cases less
    | succ j =>
      cases i with
      | zero =>
        cases here
        exact apart j
      | succ i => exact unrepeated i j (Nat.lt_of_succ_lt_succ less) node here

omit [DecidableEq N] in
theorem endsUnrepeated_none : EndsUnrepeated (fun _ => (none : Option N)) where
  ends := ⟨0, rfl⟩
  unrepeated _ _ _ _ here := nomatch here

omit [DecidableEq N] in
theorem forall_bind_follow_some {P : N → Prop} (node : N) :
    (∀ n other, (some node).bind (follow next n) = some other → P other) ↔
      P node ∧ ∀ n other, (next node).bind (follow next n) = some other → P other := by
  constructor
  · exact fun all => ⟨all 0 node rfl, fun n => all (n + 1)⟩
  · rintro ⟨first, later⟩ n other here
    cases n with
    | zero =>
      cases here
      exact first
    | succ n => exact later n other here

theorem walk_eq_true_iff_of_isSome {fuel : Nat} {visited : Finset N} {current : Option N}
    (answers : (walk next fuel visited current).isSome) :
    walk next fuel visited current = some true ↔
      EndsUnrepeated (fun n => current.bind (follow next n)) ∧
        ∀ n node, current.bind (follow next n) = some node → node ∉ visited := by
  induction fuel generalizing visited current with
  | zero =>
    cases current with
    | none => simp [walk, endsUnrepeated_none]
    | some node => cases answers
  | succ fuel ih =>
    cases current with
    | none => simp [walk, endsUnrepeated_none]
    | some node =>
      rw [walk] at answers ⊢
      by_cases seen : node ∈ visited
      next =>
        rw [if_pos seen]
        refine iff_of_false (fun same => by cases same) fun ⟨_, fresh⟩ => ?_
        exact fresh 0 node rfl seen
      next =>
        rw [if_neg seen] at answers ⊢
        rw [ih answers, bind_follow_some, endsUnrepeated_after_iff, forall_bind_follow_some, and_assoc]
        refine and_congr_right fun _ => ?_
        simp only [Finset.mem_insert, not_or]
        constructor
        · intro fresh
          exact ⟨fun n here => (fresh n node here).1 rfl, seen, fun n other here => (fresh n other here).2⟩
        · rintro ⟨apart, _, later⟩ n other here
          exact ⟨fun same => apart n (same ▸ here), later n other here⟩

theorem walk_eq_true_iff_endsUnrepeated {fuel : Nat} {current : Option N}
    (answers : (walk next fuel {x} current).isSome) :
    walk next fuel {x} current = some true ↔ EndsUnrepeated (after next x current) := by
  rw [walk_eq_true_iff_of_isSome answers, endsUnrepeated_after_iff]
  refine and_congr_right fun _ => forall_congr' fun n => ?_
  simp only [Finset.mem_singleton]
  exact ⟨fun fresh here => fresh x here rfl, fun apart node here same => apart (same ▸ here)⟩

end Walk

end ParentLinks
