import Mathlib.Data.Finset.Card
import Mathlib.Data.Finset.SDiff
import Mathlib.Data.List.Chain
import Mathlib.Logic.Relation
import Mathlib.Tactic.Common

set_option autoImplicit false

namespace CycleSearch

variable {N : Type} [DecidableEq N]

structure Trail (N : Type) where
  visited : Finset N
  inStack : Finset N
  path : List N

namespace Trail

def start : Trail N := { visited := ∅, inStack := ∅, path := [] }

def enter (node : N) (t : Trail N) : Trail N :=
  { visited := insert node t.visited
    inStack := insert node t.inStack
    path := t.path ++ [node] }

def leave (node : N) (t : Trail N) : Trail N :=
  { t with path := t.path.dropLast, inStack := t.inStack.erase node }

-- The path from its first `neighbor` on, closed by `neighbor`.
def cycleAt (neighbor : N) (t : Trail N) : List N := t.path.drop (t.path.idxOf neighbor) ++ [neighbor]

end Trail

abbrev Result (N : Type) : Type := Option (Option (List N) × Trail N)

def scan (visit : N → Trail N → Result N) : List N → Trail N → Result N
  | [], t => some (none, t)
  | neighbor :: rest, t =>
    if neighbor ∉ t.visited then
      match visit neighbor t with
      | none => none
      | some (some cycle, t) => some (some cycle, t)
      | some (none, t) => scan visit rest t
    else if neighbor ∈ t.inStack then some (some (t.cycleAt neighbor), t)
    else scan visit rest t

def dfsCycle (neighbors : N → List N) : Nat → N → Trail N → Result N
  | 0, _, _ => none
  | fuel + 1, node, t =>
    match scan (dfsCycle neighbors fuel) (neighbors node) (t.enter node) with
    | none => none
    | some (some cycle, t) => some (some cycle, t)
    | some (none, t) => some (none, t.leave node)

def search (neighbors : N → List N) (fuel : Nat) : List N → Trail N → Result N
  | [], t => some (none, t)
  | node :: rest, t =>
    if node ∉ t.visited then
      match dfsCycle neighbors fuel node t with
      | none => none
      | some (some cycle, t) => some (some cycle, t)
      | some (none, t) => search neighbors fuel rest t
    else search neighbors fuel rest t

def nodes (neighbors : N → List N) (keys : List N) : Finset N :=
  (keys ++ keys.flatMap neighbors).toFinset

def findCycle (neighbors : N → List N) (keys : List N) : Option (Option (List N)) :=
  (search neighbors (nodes neighbors keys).card keys .start).map Prod.fst

def Edge (neighbors : N → List N) (a b : N) : Prop := b ∈ neighbors a

def OnCycle (neighbors : N → List N) (x : N) : Prop := Relation.TransGen (Edge neighbors) x x

structure IsCycle (neighbors : N → List N) (cycle : List N) : Prop where
  linked : cycle.IsChain (Edge neighbors)
  closed : ∃ x middle, cycle = x :: middle ++ [x]

namespace Trail

variable {neighbors : N → List N} {t t' : Trail N} {node x y : N} {fuel : Nat}

-- Entered and left again.
def Done (t : Trail N) (x : N) : Prop := x ∈ t.visited ∧ x ∉ t.path

structure Consistent (neighbors : N → List N) (t : Trail N) : Prop where
  inStack : ∀ x, x ∈ t.inStack ↔ x ∈ t.path
  visited : ∀ x ∈ t.path, x ∈ t.visited
  linked : t.path.IsChain (Edge neighbors)
  closed : ∀ x y, t.Done x → Edge neighbors x y → t.Done y
  acyclic : ∀ x, t.Done x → ¬ OnCycle neighbors x

omit [DecidableEq N] in
theorem Consistent.start : Consistent neighbors (.start : Trail N) := by
  constructor <;> simp [Trail.start, Done]

theorem done_enter (new : node ∉ t.visited) : (t.enter node).Done x ↔ t.Done x := by
  by_cases same : x = node
  next => simp [same, enter, Done, new]
  next => simp [same, enter, Done]

theorem Consistent.enter (consistent : t.Consistent neighbors) (new : node ∉ t.visited)
    (step : ∀ last ∈ t.path.getLast?, Edge neighbors last node) :
    (t.enter node).Consistent neighbors where
  inStack x := by simp [Trail.enter, consistent.inStack, or_comm]
  visited x member := by
    rcases List.mem_append.mp member with before | here
    · exact Finset.mem_insert_of_mem (consistent.visited x before)
    · simp [Trail.enter, List.mem_singleton.mp here]
  linked := by simpa [Trail.enter, List.isChain_append, consistent.linked] using step
  closed x y := by
    simp only [done_enter new]
    exact consistent.closed x y
  acyclic x := by
    simp only [done_enter new]
    exact consistent.acyclic x

omit [DecidableEq N] in
-- From a node that is done every walk stays among the nodes that are done.
theorem Consistent.done_of_walk (consistent : t.Consistent neighbors) (done : t.Done x)
    (walk : Relation.TransGen (Edge neighbors) x y) : t.Done y := by
  induction walk with
  | single edge => exact consistent.closed _ _ done edge
  | tail _ edge ih => exact consistent.closed _ _ ih edge

theorem done_leave {below : List N} (top : t.path = below ++ [node]) (outside : node ∉ below)
    (visited : node ∈ t.visited) : (t.leave node).Done x ↔ t.Done x ∨ x = node := by
  by_cases same : x = node
  next => simp [same, leave, Done, top, visited, outside]
  next => simp [same, leave, Done, top]

theorem Consistent.leave {below : List N} (consistent : t.Consistent neighbors)
    (top : t.path = below ++ [node]) (outside : node ∉ below)
    (scanned : ∀ y ∈ neighbors node, t.Done y) : (t.leave node).Consistent neighbors := by
  have visited : node ∈ t.visited := consistent.visited node (by simp [top])
  have left : ∀ x, (t.leave node).Done x ↔ t.Done x ∨ x = node :=
    fun x => done_leave top outside visited
  constructor
  case inStack =>
    intro x
    by_cases same : x = node
    next => simp [same, Trail.leave, top, outside]
    next => simp [same, Trail.leave, consistent.inStack, top]
  case visited =>
    intro x member
    exact consistent.visited x (List.mem_of_mem_dropLast member)
  case linked => exact consistent.linked.dropLast
  case closed =>
    intro x y done edge
    simp only [left] at done ⊢
    rcases done with before | rfl
    · exact .inl (consistent.closed x y before edge)
    · exact .inl (scanned y edge)
  case acyclic =>
    intro x done onCycle
    simp only [left] at done
    rcases done with before | rfl
    · exact consistent.acyclic x before onCycle
    · -- The cycle leaves the node through a neighbour, which is done, and never comes back.
      have here : t.Done x := by
        cases onCycle using Relation.TransGen.head_induction_on with
        | single edge => exact scanned _ edge
        | head edge walk _ => exact consistent.done_of_walk (scanned _ edge) walk
      exact here.2 (by simp [top])

structure Clears (neighbors : N → List N) (targets : List N) (t t' : Trail N) : Prop where
  consistent : t'.Consistent neighbors
  path : t'.path = t.path
  grows : t.visited ⊆ t'.visited
  done : ∀ y ∈ targets, t'.Done y

omit [DecidableEq N] in
theorem Clears.keeps {targets : List N} (clears : Clears neighbors targets t t') (done : t.Done x) :
    t'.Done x :=
  ⟨clears.grows done.1, clears.path ▸ done.2⟩

omit [DecidableEq N] in
theorem Clears.trans {first second : List N} {t'' : Trail N} (one : Clears neighbors first t t')
    (two : Clears neighbors second t' t'') : Clears neighbors (first ++ second) t t'' where
  consistent := two.consistent
  path := two.path.trans one.path
  grows := one.grows.trans two.grows
  done y member := by
    rcases List.mem_append.mp member with early | late
    · exact two.keeps (one.done y early)
    · exact two.done y late

omit [DecidableEq N] in
theorem Clears.of_done {targets : List N} (consistent : t.Consistent neighbors)
    (done : ∀ y ∈ targets, t.Done y) : Clears neighbors targets t t :=
  ⟨consistent, rfl, Finset.Subset.refl _, done⟩

inductive Explores (neighbors : N → List N) (targets : List N) (t : Trail N) : Result N → Prop where
  | clear (t' : Trail N) (clears : Clears neighbors targets t t') :
      Explores neighbors targets t (some (none, t'))
  | found (cycle : List N) (t' : Trail N) (isCycle : IsCycle neighbors cycle) :
      Explores neighbors targets t (some (some cycle, t'))

theorem Consistent.cycleAt {below : List N} (consistent : t.Consistent neighbors)
    (top : t.path = below ++ [node]) (edge : Edge neighbors node y) (onPath : y ∈ t.path) :
    IsCycle neighbors (t.cycleAt y) := by
  have inside := List.idxOf_lt_length_of_mem onPath
  have head : t.path.drop (t.path.idxOf y) = y :: t.path.drop (t.path.idxOf y + 1) := by
    rw [List.drop_eq_getElem_cons inside, List.getElem_idxOf]
  have last : (t.path.drop (t.path.idxOf y)).getLast? = some node := by
    rw [List.getLast?_drop, if_neg (Nat.not_le_of_lt inside), top, List.getLast?_concat]
  constructor
  case linked =>
    refine (consistent.linked.drop _).append (List.isChain_singleton y) ?_
    intro a isLast b isHead
    rw [last, Option.mem_some] at isLast
    rw [List.head?_singleton, Option.mem_some] at isHead
    rw [← isLast, ← isHead]
    exact edge
  case closed =>
    refine ⟨y, t.path.drop (t.path.idxOf y + 1), ?_⟩
    rw [Trail.cycleAt, head]

omit [DecidableEq N] in
theorem Explores.after {first second : List N} {r : Result N} (clears : Clears neighbors first t t')
    (explores : Explores neighbors second t' r) : Explores neighbors (first ++ second) t r := by
  cases explores with
  | clear t'' later => exact .clear t'' (clears.trans later)
  | found cycle t'' isCycle => exact .found cycle t'' isCycle

omit [DecidableEq N] in
theorem Explores.after_done {targets : List N} {r : Result N} (consistent : t.Consistent neighbors)
    (done : t.Done y) (explores : Explores neighbors targets t r) : Explores neighbors (y :: targets) t r := by
  have first : Clears neighbors [y] t t := .of_done consistent (by simpa using done)
  exact explores.after first

/-- What a search of a new node does, as long as no more than `fuel` nodes are new. -/
def Visits (neighbors : N → List N) (region : Finset N) (fuel : Nat) (visit : N → Trail N → Result N) :
    Prop :=
  ∀ (t : Trail N) (y : N), t.Consistent neighbors → y ∉ t.visited → y ∈ region →
    (∀ last ∈ t.path.getLast?, Edge neighbors last y) → (region \ t.visited).card ≤ fuel →
    Explores neighbors [y] t (visit y t)

variable {region : Finset N}

theorem card_sdiff_of_grows (grows : t.visited ⊆ t'.visited)
    (enough : (region \ t.visited).card ≤ fuel) : (region \ t'.visited).card ≤ fuel :=
  Nat.le_trans (Finset.card_le_card (Finset.sdiff_subset_sdiff (Finset.Subset.refl _) grows)) enough

theorem scan_explores {visit : N → Trail N → Result N} (visits : Visits neighbors region fuel visit)
    (targets : List N) (t : Trail N) {below : List N} (consistent : t.Consistent neighbors)
    (top : t.path = below ++ [node]) (edges : ∀ y ∈ targets, Edge neighbors node y)
    (inside : ∀ y ∈ targets, y ∈ region) (enough : (region \ t.visited).card ≤ fuel) :
    Explores neighbors targets t (scan visit targets t) := by
  induction targets generalizing t with
  | nil => exact .clear t (.of_done consistent (by simp))
  | cons y rest ih =>
    rw [List.forall_mem_cons] at edges inside
    rw [scan]
    split_ifs with seen onPath
    next =>
      have onPath : y ∈ t.path := (consistent.inStack y).mp onPath
      exact .found _ t (consistent.cycleAt top edges.1 onPath)
    next =>
      have done : t.Done y := ⟨seen, fun member => onPath ((consistent.inStack y).mpr member)⟩
      exact .after_done consistent done (ih t consistent top edges.2 inside.2 enough)
    next =>
      have step : ∀ last ∈ t.path.getLast?, Edge neighbors last y := by
        simpa [top] using edges.1
      have visit_y := visits t y consistent seen inside.1 step enough
      generalize visit y t = result at visit_y
      cases visit_y with
      | clear t' clears =>
        have later := ih t' clears.consistent (clears.path.trans top) edges.2 inside.2
          (card_sdiff_of_grows clears.grows enough)
        exact later.after clears
      | found cycle t' isCycle => exact .found cycle t' isCycle

end Trail

namespace Trail

structure Simple (t : Trail N) : Prop where
  nodup : t.path.Nodup
  visited : ∀ x ∈ t.path, x ∈ t.visited

inductive KeepsSimple (t : Trail N) : Result N → Prop where
  | stuck : KeepsSimple t none
  | clear (t' : Trail N) (simple : t'.Simple) (path : t'.path = t.path) : KeepsSimple t (some (none, t'))
  | found (cycle : List N) (t' : Trail N) (nodup : cycle.dropLast.Nodup) :
      KeepsSimple t (some (some cycle, t'))

section Simple

variable {neighbors : N → List N} {t t' : Trail N} {node : N}

theorem Simple.enter (simple : t.Simple) (new : node ∉ t.visited) : (t.enter node).Simple where
  nodup := by
    have outside : ∀ x ∈ t.path, x ≠ node := by
      rintro x member rfl
      exact new (simple.visited x member)
    simpa [Trail.enter, List.nodup_append, simple.nodup] using outside
  visited x member := by
    rcases List.mem_append.mp member with before | here
    · exact Finset.mem_insert_of_mem (simple.visited x before)
    · simp [Trail.enter, List.mem_singleton.mp here]

omit [DecidableEq N] in
theorem KeepsSimple.of_path {r : Result N} (same : t'.path = t.path) (keeps : KeepsSimple t' r) :
    KeepsSimple t r := by
  cases keeps with
  | stuck => exact .stuck
  | clear t'' simple path => exact .clear t'' simple (path.trans same)
  | found cycle t'' nodup => exact .found cycle t'' nodup

theorem Simple.cycleAt (simple : t.Simple) (y : N) : (t.cycleAt y).dropLast.Nodup := by
  rw [Trail.cycleAt, List.dropLast_concat]
  exact simple.nodup.sublist (List.drop_sublist _ _)

theorem scan_simple {visit : N → Trail N → Result N}
    (visits : ∀ (t : Trail N) y, t.Simple → y ∉ t.visited → KeepsSimple t (visit y t)) (targets : List N)
    (simple : t.Simple) : KeepsSimple t (scan visit targets t) := by
  induction targets generalizing t with
  | nil => exact .clear t simple rfl
  | cons y rest ih =>
    rw [scan]
    split_ifs with seen onPath
    next => exact .found _ t (simple.cycleAt y)
    next => exact ih simple
    next =>
      have visit_y := visits t y simple seen
      generalize visit y t = result at visit_y
      cases visit_y with
      | stuck => exact .stuck
      | clear t' simple' path => exact .of_path path (ih simple')
      | found cycle t' nodup => exact .found cycle t' nodup

theorem dfsCycle_simple (neighbors : N → List N) (fuel : Nat) (t : Trail N) (node : N) (simple : t.Simple)
    (new : node ∉ t.visited) : KeepsSimple t (dfsCycle neighbors fuel node t) := by
  induction fuel generalizing t node with
  | zero => exact .stuck
  | succ fuel ih =>
    have scanned := scan_simple ih (neighbors node) (simple.enter new)
    rw [dfsCycle]
    generalize scan (dfsCycle neighbors fuel) (neighbors node) (t.enter node) = result at scanned
    cases scanned with
    | stuck => exact .stuck
    | found cycle t' nodup => exact .found cycle t' nodup
    | clear t' simple' path =>
      have stacked : t'.path = t.path ++ [node] := path
      have left : (t'.leave node).path = t.path := by simp [Trail.leave, stacked]
      refine .clear _ ⟨left ▸ simple.nodup, fun x member => ?_⟩ left
      rw [left] at member
      exact simple'.visited x (by simp [stacked, member])

theorem search_simple (neighbors : N → List N) (fuel : Nat) (keys : List N) (simple : t.Simple) :
    KeepsSimple t (search neighbors fuel keys t) := by
  induction keys generalizing t with
  | nil => exact .clear t simple rfl
  | cons y rest ih =>
    rw [search]
    split_ifs with seen
    next => exact ih simple
    next =>
      have visit_y := dfsCycle_simple neighbors fuel t y simple seen
      generalize dfsCycle neighbors fuel y t = result at visit_y
      cases visit_y with
      | stuck => exact .stuck
      | clear t' simple' path => exact .of_path path (ih simple')
      | found cycle t' nodup => exact .found cycle t' nodup

end Simple

end Trail

theorem findCycle_nodup {neighbors : N → List N} {keys cycle : List N}
    (found : findCycle neighbors keys = some (some cycle)) : cycle.dropLast.Nodup := by
  obtain ⟨⟨answer, t⟩, searched, rfl⟩ := Option.map_eq_some_iff.mp found
  have start : (Trail.start : Trail N).Simple := ⟨List.nodup_nil, by simp [Trail.start]⟩
  have keeps := Trail.search_simple neighbors (nodes neighbors keys).card keys start
  rw [searched] at keeps
  cases keeps with
  | found cycle t nodup => exact nodup

section Correctness

open Trail

variable {neighbors : N → List N} {region : Finset N} {keys : List N}

theorem dfsCycle_visits (inside : ∀ x ∈ region, ∀ y ∈ neighbors x, y ∈ region) (fuel : Nat) :
    Visits neighbors region fuel (dfsCycle neighbors fuel) := by
  induction fuel with
  | zero =>
    intro t y _ new member _ enough
    have positive : 0 < (region \ t.visited).card :=
      Finset.card_pos.mpr ⟨y, Finset.mem_sdiff.mpr ⟨member, new⟩⟩
    omega
  | succ fuel ih =>
    intro t node consistent new member step enough
    have outside : node ∉ t.path := fun onPath => new (consistent.visited node onPath)
    have fewer : (region \ (t.enter node).visited).card ≤ fuel := by
      have erased : region \ (t.enter node).visited = (region \ t.visited).erase node := by
        simp [Trail.enter, Finset.sdiff_insert]
      rw [erased, Finset.card_erase_of_mem (Finset.mem_sdiff.mpr ⟨member, new⟩)]
      omega
    have top : (t.enter node).path = t.path ++ [node] := rfl
    have scanned := scan_explores ih (neighbors node) (t.enter node)
      (consistent.enter new step) top (fun y edge => edge) (inside node member) fewer
    rw [dfsCycle]
    generalize scan (dfsCycle neighbors fuel) (neighbors node) (t.enter node) = result at scanned
    cases scanned with
    | found cycle t' isCycle => exact .found cycle t' isCycle
    | clear t' clears =>
      have stacked : t'.path = t.path ++ [node] := clears.path
      have visited : node ∈ t'.visited := clears.grows (by simp [Trail.enter])
      have left := clears.consistent.leave stacked outside clears.done
      refine .clear _ ⟨left, by simp [Trail.leave, stacked], ?_, ?_⟩
      next =>
        exact (Finset.subset_insert node t.visited).trans clears.grows
      next =>
        intro y target
        rw [List.mem_singleton] at target
        exact (done_leave stacked outside visited).mpr (.inr target)

theorem search_explores {fuel : Nat} (visits : Visits neighbors region fuel (dfsCycle neighbors fuel))
    (keys : List N) (t : Trail N) (consistent : t.Consistent neighbors) (empty : t.path = [])
    (inside : ∀ y ∈ keys, y ∈ region) (enough : (region \ t.visited).card ≤ fuel) :
    Explores neighbors keys t (search neighbors fuel keys t) := by
  induction keys generalizing t with
  | nil => exact .clear t (.of_done consistent (by simp))
  | cons y rest ih =>
    rw [List.forall_mem_cons] at inside
    rw [search]
    split_ifs with seen
    next =>
      have done : t.Done y := ⟨seen, by simp [empty]⟩
      exact .after_done consistent done (ih t consistent empty inside.2 enough)
    next =>
      have visit_y := visits t y consistent seen inside.1 (by simp [empty]) enough
      generalize dfsCycle neighbors fuel y t = result at visit_y
      cases visit_y with
      | clear t' clears =>
        have later := ih t' clears.consistent (clears.path.trans empty) inside.2
          (card_sdiff_of_grows clears.grows enough)
        exact later.after clears
      | found cycle t' isCycle => exact .found cycle t' isCycle

omit [DecidableEq N] in
theorem IsCycle.onCycle {cycle : List N} (isCycle : IsCycle neighbors cycle) :
    ∃ x, OnCycle neighbors x := by
  obtain ⟨x, middle, rfl⟩ := isCycle.closed
  have linked := isCycle.linked
  refine ⟨x, ?_⟩
  cases middle with
  | nil =>
    have edge : Edge neighbors x x := by simpa using linked
    exact .single edge
  | cons y rest =>
    rw [List.cons_append, List.cons_append, List.isChain_cons_cons] at linked
    have walk := List.relationReflTransGen_of_exists_isChain_cons (b := x) _ linked.2 (by simp)
    exact Relation.TransGen.head' linked.1 walk

theorem findCycle_spec (complete : ∀ x, neighbors x ≠ [] → x ∈ keys) :
    ∃ answer, findCycle neighbors keys = some answer ∧
      (answer.isSome ↔ ∃ x, OnCycle neighbors x) ∧ ∀ cycle ∈ answer, IsCycle neighbors cycle := by
  have listed : ∀ x ∈ nodes neighbors keys, ∀ y ∈ neighbors x, y ∈ nodes neighbors keys := by
    intro x _ y edge
    have key : x ∈ keys := complete x (List.ne_nil_of_mem edge)
    simp only [nodes, List.mem_toFinset, List.mem_append, List.mem_flatMap]
    exact .inr ⟨x, key, edge⟩
  have explored := search_explores (dfsCycle_visits listed _) keys .start .start rfl
    (fun y key => by simp [nodes, key]) (Finset.card_le_card Finset.sdiff_subset)
  unfold findCycle
  generalize search neighbors _ keys .start = result at explored
  cases explored with
  | found cycle t isCycle =>
    refine ⟨some cycle, rfl, ?_, ?_⟩
    next => simpa using isCycle.onCycle
    next =>
      intro other same
      rw [← Option.some.inj same]
      exact isCycle
  | clear t clears =>
    refine ⟨none, rfl, ?_, by simp⟩
    have acyclic : ¬ ∃ x, OnCycle neighbors x := by
      rintro ⟨x, onCycle⟩
      have key : x ∈ keys := by
        apply complete x
        cases onCycle using Relation.TransGen.head_induction_on with
        | single edge => exact List.ne_nil_of_mem edge
        | head edge _ _ => exact List.ne_nil_of_mem edge
      exact clears.consistent.acyclic x (clears.done x key) onCycle
    simpa using acyclic

end Correctness

end CycleSearch
