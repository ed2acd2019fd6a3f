import BankingLedger.Shared.CompletionOrder
import BankingLedger.Shared.Runs

set_option autoImplicit false

namespace BankingLedger

open CompletionOrder CycleSearch Relation Runs

structure DependencyGraph where
  dependencies : List (List Nat)
  completed : List Bool
deriving DecidableEq, Repr

namespace DependencyGraph

def new (numNodes : Nat) : DependencyGraph where
  dependencies := List.replicate numNodes []
  completed := List.replicate numNodes false

def addDependency (dependent dependency : Nat) (g : DependencyGraph) : Option DependencyGraph :=
  if dependent < g.dependencies.length then
    some { g with dependencies := g.dependencies.modify dependent (· ++ [dependency]) }
  else none

def complete (node : Nat) (g : DependencyGraph) : Option DependencyGraph :=
  if node < g.completed.length then some { g with completed := g.completed.set node true } else none

-- `all` stops at the first dependency that is not completed.
def allCompleted (completed : List Bool) : List Nat → Option Bool
  | [] => some true
  | dep :: rest =>
    match completed[dep]? with
    | none => none
    | some false => some false
    | some true => allCompleted completed rest

def allDependenciesDone (node : Nat) (g : DependencyGraph) : Option Bool :=
  match g.dependencies[node]? with
  | none => none
  | some deps => allCompleted g.completed deps

def build (numNodes : Nat) (edges : List (Nat × Nat)) : Option DependencyGraph :=
  edges.foldlM (fun g edge => g.addDependency edge.1 edge.2) (new numNodes)

def needs (g : DependencyGraph) (node : Nat) : List Nat := g.dependencies[node]?.getD []

def isDone (g : DependencyGraph) (node : Nat) : Prop := g.completed[node]? = some true

instance (g : DependencyGraph) (node : Nat) : Decidable (g.isDone node) :=
  inferInstanceAs (Decidable (g.completed[node]? = some true))

end DependencyGraph

structure DependencyRun where
  graph : DependencyGraph
  passed : List Nat

inductive DependencyCall where
  | check (node : Nat)
  | complete (node : Nat)
deriving DecidableEq, Repr

namespace DependencyRun

open DependencyGraph

def start (graph : DependencyGraph) : DependencyRun := { graph, passed := [] }

-- A call that panics changes nothing.
def step (s : DependencyRun) : DependencyCall → DependencyRun
  | .check node =>
    { s with passed := if s.graph.allDependenciesDone node = some true then node :: s.passed else s.passed }
  | .complete node => { s with graph := (s.graph.complete node).getD s.graph }

/-- A node is completed after a check of it that has passed, however long ago. -/
def Waits (s : DependencyRun) : DependencyCall → Prop
  | .check _ => True
  | .complete node => node ∈ s.passed

instance (s : DependencyRun) : DecidablePred s.Waits
  | .check _ => isTrue trivial
  | .complete node => inferInstanceAs (Decidable (node ∈ s.passed))

section Graph

variable {g : DependencyGraph} {node other : Nat}

theorem allCompleted_iff {completed : List Bool} {deps : List Nat} :
    allCompleted completed deps = some true ↔ ∀ dep ∈ deps, completed[dep]? = some true := by
  induction deps with
  | nil => simp [allCompleted]
  | cons dep rest ih =>
    rw [List.forall_mem_cons, allCompleted]
    cases found : completed[dep]? with
    | none => simp
    | some done => cases done <;> simp [ih]

theorem allDependenciesDone_iff : g.allDependenciesDone node = some true ↔
    node < g.dependencies.length ∧ ∀ dep ∈ g.needs node, g.isDone dep := by
  rw [allDependenciesDone, needs]
  cases found : g.dependencies[node]? with
  | none =>
    have outside := List.getElem?_eq_none_iff.mp found
    exact iff_of_false nofun fun inside => absurd inside.1 (Nat.not_lt.mpr outside)
  | some deps =>
    have inside := (List.getElem?_eq_some_iff.mp found).1
    exact allCompleted_iff.trans (and_iff_right inside).symm

theorem complete_isDone_iff (inside : node < g.completed.length) :
    ((g.complete node).getD g).isDone other ↔ other = node ∨ g.isDone other := by
  rw [complete, if_pos inside, Option.getD_some, isDone, isDone, List.getElem?_set]
  by_cases same : node = other
  next => simp [same ▸ inside, same]
  next => simp [same, Ne.symm same]

theorem complete_dependencies (node : Nat) (g : DependencyGraph) :
    ((g.complete node).getD g).dependencies = g.dependencies := by
  unfold complete
  split <;> rfl

theorem complete_length (node : Nat) (g : DependencyGraph) :
    ((g.complete node).getD g).completed.length = g.completed.length := by
  unfold complete
  split
  next => exact List.length_set
  next => rfl

theorem isDone_of_complete (done : g.isDone other) : ((g.complete node).getD g).isDone other := by
  by_cases inside : node < g.completed.length
  next => exact (complete_isDone_iff inside).mpr (.inr done)
  next => rwa [complete, if_neg inside]

end Graph

section Invariant

variable {g : DependencyGraph} {s : DependencyRun} {call : DependencyCall}

structure InOrder (g : DependencyGraph) (s : DependencyRun) (order : List Nat) : Prop where
  dependencies : s.graph.dependencies = g.dependencies
  length : s.graph.completed.length = g.dependencies.length
  ordered : Ordered g.needs order
  done : ∀ node, s.graph.isDone node ↔ node ∈ order
  passed : ∀ node ∈ s.passed, node < g.dependencies.length ∧ ∀ dep ∈ g.needs node, dep ∈ order

theorem InOrder.step {order : List Nat} (inOrder : InOrder g s order) (waits : s.Waits call) :
    ∃ order', InOrder g (s.step call) order' := by
  obtain ⟨dependencies, length, ordered, done, passed⟩ := inOrder
  have same : s.graph.needs = g.needs := funext fun node => by rw [needs, needs, dependencies]
  cases call with
  | check node =>
    refine ⟨order, dependencies, length, ordered, done, fun other member => ?_⟩
    by_cases pass : s.graph.allDependenciesDone node = some true
    next =>
      rw [DependencyRun.step, if_pos pass] at member
      rcases List.mem_cons.mp member with rfl | before
      next =>
        obtain ⟨inside, finished⟩ := allDependenciesDone_iff.mp pass
        rw [same] at finished
        exact ⟨dependencies ▸ inside, fun dep needed => (done dep).mp (finished dep needed)⟩
      next => exact passed other before
    next =>
      rw [DependencyRun.step, if_neg pass] at member
      exact passed other member
  | complete node =>
    obtain ⟨inside, finished⟩ := passed node waits
    refine ⟨node :: order, (complete_dependencies node s.graph).trans dependencies,
      (complete_length node s.graph).trans length, ⟨finished, ordered⟩, fun other => ?_, fun other member => ?_⟩
    next => rw [DependencyRun.step, complete_isDone_iff (length ▸ inside), List.mem_cons, done]
    next =>
      obtain ⟨within, needed⟩ := passed other member
      exact ⟨within, fun dep here => List.mem_cons_of_mem _ (needed dep here)⟩

theorem start_inOrder (fresh : ∀ node, ¬g.isDone node) (length : g.completed.length = g.dependencies.length) :
    InOrder g (start g) [] where
  dependencies := rfl
  length := length
  ordered := trivial
  done node := iff_of_false (fresh node) nofun
  passed := nofun

theorem run_inOrder (fresh : ∀ node, ¬g.isDone node) (length : g.completed.length = g.dependencies.length)
    {calls : List DependencyCall} (waits : Meets step Waits (start g) calls) :
    ∃ order, InOrder g (run step (start g) calls) order := by
  have keep (s : DependencyRun) (call : DependencyCall) (before : ∃ order, InOrder g s order) (waits : s.Waits call) :
      ∃ order, InOrder g (s.step call) order := before.elim fun _ inOrder => inOrder.step waits
  exact run_keeps keep (start g) calls waits ⟨[], start_inOrder fresh length⟩

end Invariant

section Completing

variable {g : DependencyGraph} {s : DependencyRun}

def completing (order : List Nat) : List DependencyCall :=
  order.reverse.flatMap fun node => [.check node, .complete node]

theorem completing_cons (node : Nat) (before : List Nat) :
    completing (node :: before) = completing before ++ [.check node, .complete node] := by
  simp [completing]

theorem run_completing {order : List Nat} (ordered : Ordered g.needs order)
    (inside : ∀ node ∈ order, node < g.dependencies.length)
    (fresh : ∀ node, ¬g.isDone node) (length : g.completed.length = g.dependencies.length) :
    Meets step Waits (start g) (completing order) ∧
      ∀ node ∈ order, (run step (start g) (completing order)).graph.isDone node := by
  induction order with
  | nil => exact ⟨trivial, nofun⟩
  | cons node before ih =>
    rw [List.forall_mem_cons] at inside
    obtain ⟨waits, done⟩ := ih ordered.2 inside.2
    obtain ⟨_, inOrder⟩ := run_inOrder fresh length waits
    generalize reached : run step (start g) (completing before) = s at done inOrder
    have same : s.graph.needs = g.needs := funext fun node => by rw [needs, needs, inOrder.dependencies]
    have pass : s.graph.allDependenciesDone node = some true := by
      rw [allDependenciesDone_iff, same, inOrder.dependencies]
      exact ⟨inside.1, fun dep needed => done dep (ordered.1 dep needed)⟩
    have within : node < s.graph.completed.length := inOrder.length ▸ inside.1
    have checked : s.step (.check node) = { s with passed := node :: s.passed } := by
      rw [DependencyRun.step, if_pos pass]
    rw [completing_cons, meets_append, run_append, reached]
    refine ⟨⟨waits, trivial, ?_, trivial⟩, ?_⟩
    next =>
      rw [checked]
      exact List.mem_cons_self
    next =>
      rw [run_cons, run_cons, run_nil, checked]
      exact List.forall_mem_cons.mpr
        ⟨(complete_isDone_iff within).mpr (.inl rfl), fun other member => isDone_of_complete (done other member)⟩

end Completing

section Build

theorem addDependency_some {g g' : DependencyGraph} {dependent dependency : Nat}
    (added : g.addDependency dependent dependency = some g') :
    g'.completed = g.completed ∧ g'.dependencies.length = g.dependencies.length := by
  unfold addDependency at added
  split at added
  next =>
    cases added
    exact ⟨rfl, List.length_modify _ _ _⟩
  next => cases added

theorem build_some {numNodes : Nat} {edges : List (Nat × Nat)} {g : DependencyGraph}
    (built : build numNodes edges = some g) :
    g.completed = List.replicate numNodes false ∧ g.dependencies.length = numNodes := by
  have keep (edges : List (Nat × Nat)) (g₀ : DependencyGraph)
      (built : edges.foldlM (fun g edge => g.addDependency edge.1 edge.2) g₀ = some g) :
      g.completed = g₀.completed ∧ g.dependencies.length = g₀.dependencies.length := by
    induction edges generalizing g₀ with
    | nil =>
      cases built
      exact ⟨rfl, rfl⟩
    | cons edge rest ih =>
      rw [List.foldlM_cons] at built
      obtain ⟨g₁, added, later⟩ := Option.bind_eq_some_iff.mp built
      have first := addDependency_some added
      have others := ih g₁ later
      exact ⟨others.1.trans first.1, others.2.trans first.2⟩
  have same := keep edges (new numNodes) built
  exact ⟨same.1, same.2.trans List.length_replicate⟩

end Build

/-- While handlers complete no node before a check of it has passed, whatever a completed node depends on,
directly or not, is completed. A node can be completed so exactly if all that it leads to is in the
graph and on no cycle. -/
theorem dependency_graph_completes (numNodes : Nat) (edges : List (Nat × Nat)) (g : DependencyGraph)
    (built : build numNodes edges = some g) :
    (∀ calls, Meets step Waits (start g) calls → ∀ node other, (run step (start g) calls).graph.isDone node →
      ReflTransGen (Edge g.needs) node other → (run step (start g) calls).graph.isDone other) ∧
    ∀ node, (∃ calls, Meets step Waits (start g) calls ∧ (run step (start g) calls).graph.isDone node) ↔
      ∀ other, ReflTransGen (Edge g.needs) node other → other < numNodes ∧ ¬OnCycle g.needs other := by
  obtain ⟨completed, size⟩ := build_some built
  have fresh : ∀ node, ¬g.isDone node := by
    intro node done
    rw [isDone, completed, List.getElem?_replicate] at done
    split at done <;> cases done
  have length : g.completed.length = g.dependencies.length := by
    rw [completed, List.length_replicate, size]
  constructor
  next =>
    intro calls waits node other done reached
    obtain ⟨order, inOrder⟩ := run_inOrder fresh length waits
    exact (inOrder.done other).mpr (inOrder.ordered.closed ((inOrder.done node).mp done) reached)
  next =>
    intro node
    constructor
    next =>
      rintro ⟨calls, waits, done⟩ other reached
      obtain ⟨order, inOrder⟩ := run_inOrder fresh length waits
      have member := inOrder.ordered.closed ((inOrder.done node).mp done) reached
      have finished : (run step (start g) calls).graph.completed[other]? = some true := (inOrder.done other).mpr member
      have inside := (List.getElem?_eq_some_iff.mp finished).1
      rw [inOrder.length, size] at inside
      exact ⟨inside, inOrder.ordered.not_onCycle member⟩
    next =>
      intro leads
      obtain ⟨order, ordered, member, reached⟩ := exists_ordered (Finset.range numNodes) node
        (fun other here => Finset.mem_range.mpr (leads other here).1) fun other here => (leads other here).2
      have inside : ∀ x ∈ order, x < g.dependencies.length := fun x here => size ▸ (leads x (reached x here)).1
      obtain ⟨waits, done⟩ := run_completing ordered inside fresh length
      exact ⟨completing order, waits, done node member⟩

namespace Sample

def chain : DependencyGraph := { dependencies := [[], [0], [1]], completed := [false, false, false] }

def inTurn : List DependencyCall := [.check 0, .complete 0, .check 1, .complete 1, .check 2, .complete 2]

end Sample

open DependencyRun.Sample

theorem dependency_graph_completes_chain : (run step (start chain) inTurn).graph.isDone 0 := by
  have direct : Edge chain.needs 2 1 := List.mem_singleton_self 1
  have last : Edge chain.needs 1 0 := List.mem_singleton_self 0
  exact (dependency_graph_completes 3 [(1, 0), (2, 1)] chain rfl).1 inTurn (by decide) 2 0 (by decide)
    (.head direct (.single last))

end DependencyRun

end BankingLedger
