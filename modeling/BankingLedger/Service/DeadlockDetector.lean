import BankingLedger.Shared.CycleSearch
import BankingLedger.Shared.FiniteMap
import BankingLedger.Shared.Runs

set_option autoImplicit false

namespace BankingLedger

open FiniteMap CycleSearch

abbrev ThreadId := UInt64

structure DeadlockDetector where
  held : Map ThreadId (List String)
  waiting : Map ThreadId (List String)
  owners : Map String ThreadId

namespace DeadlockDetector

def new : DeadlockDetector := { held := ∅, waiting := ∅, owners := ∅ }

-- `entry(thread_id).or_default().push(resource)`
def pushResource (m : Map ThreadId (List String)) (threadId : ThreadId) (resource : String) :
    Map ThreadId (List String) :=
  m.insert threadId ((m.lookup threadId).getD [] ++ [resource])

-- `get_mut(&thread_id)` and `retain(|r| r != resource)`
def retainOthers (m : Map ThreadId (List String)) (threadId : ThreadId) (resource : String) :
    Map ThreadId (List String) :=
  match m.lookup threadId with
  | none => m
  | some resources => m.insert threadId (resources.filter fun r => r ≠ resource)

def acquire (threadId : ThreadId) (resource : String) (dd : DeadlockDetector) : DeadlockDetector :=
  { dd with
    held := pushResource dd.held threadId resource
    owners := dd.owners.insert resource threadId }

def waitFor (threadId : ThreadId) (resource : String) (dd : DeadlockDetector) : DeadlockDetector :=
  { dd with waiting := pushResource dd.waiting threadId resource }

def release (threadId : ThreadId) (resource : String) (dd : DeadlockDetector) : DeadlockDetector where
  held := retainOthers dd.held threadId resource
  owners := dd.owners.erase resource
  waiting := retainOthers dd.waiting threadId resource

abbrev Graph : Type := Map ThreadId (Finset ThreadId)

-- `graph.entry(waiter).or_default().insert(holder)`
def addEdge (waiter holder : ThreadId) (graph : Graph) : Graph :=
  graph.insert waiter (insert holder ((graph.lookup waiter).getD ∅))

def addWaits (dd : DeadlockDetector) (graph : Graph) (entry : ThreadId × List String) : Graph :=
  entry.2.foldl (fun graph res =>
    match dd.owners.lookup res with
    | some holder => addEdge entry.1 holder graph
    | none => graph) graph

def graph (dd : DeadlockDetector) (entries : List (ThreadId × List String)) : Graph :=
  entries.foldl dd.addWaits ∅

def successors (graph : Graph) (threadId : ThreadId) : Finset ThreadId := (graph.lookup threadId).getD ∅

/-- The orders in which the hash maps and sets are iterated, which are any. -/
structure HashOrder (dd : DeadlockDetector) where
  entries : List (ThreadId × List String)
  lists : Lists entries dd.waiting
  keys : List ThreadId
  mem_keys : ∀ t, t ∈ keys ↔ t ∈ (dd.graph entries).keys
  neighbors : ThreadId → List ThreadId
  mem_neighbors : ∀ t u, u ∈ neighbors t ↔ u ∈ successors (dd.graph entries) t

def detectCycle (dd : DeadlockDetector) (order : HashOrder dd) : Option (Option (List ThreadId)) :=
  findCycle order.neighbors order.keys

def waitingFor (dd : DeadlockDetector) (threadId : ThreadId) : List String :=
  (dd.waiting.lookup threadId).getD []

end DeadlockDetector

inductive LockCall where
  | acquire (threadId : ThreadId) (resource : String)
  | waitFor (threadId : ThreadId) (resource : String)
  | release (threadId : ThreadId) (resource : String)
deriving DecidableEq

def DeadlockDetector.handle (dd : DeadlockDetector) : LockCall → DeadlockDetector
  | .acquire threadId resource => dd.acquire threadId resource
  | .waitFor threadId resource => dd.waitFor threadId resource
  | .release threadId resource => dd.release threadId resource

/-- Who owns what, who is blocked on what, and the resources whose owner had to wait for them. -/
structure LockTable where
  owner : Map String ThreadId
  blocked : Finset (ThreadId × String)
  waitedFor : Finset String

namespace LockTable

def start : LockTable := { owner := ∅, blocked := ∅, waitedFor := ∅ }

def step (locks : LockTable) : LockCall → LockTable
  | .acquire threadId resource =>
    { owner := locks.owner.insert resource threadId
      blocked := locks.blocked.erase (threadId, resource)
      waitedFor :=
        if (threadId, resource) ∈ locks.blocked then insert resource locks.waitedFor
        else locks.waitedFor }
  | .waitFor threadId resource => { locks with blocked := insert (threadId, resource) locks.blocked }
  | .release _ resource =>
    { locks with
      owner := locks.owner.erase resource
      waitedFor := locks.waitedFor.erase resource }

/-- A free resource is acquired, one of another thread is waited for, an own one is released. -/
def Allowed (locks : LockTable) : LockCall → Prop
  | .acquire _ resource => locks.owner.lookup resource = none
  | .waitFor threadId resource =>
    ∃ holder, locks.owner.lookup resource = some holder ∧ holder ≠ threadId
  | .release threadId resource => locks.owner.lookup resource = some threadId

def WaitsOn (locks : LockTable) (t u : ThreadId) : Prop :=
  ∃ resource, (t, resource) ∈ locks.blocked ∧ locks.owner.lookup resource = some u

/-- Some threads wait for each other in a circle. -/
def Deadlocked (locks : LockTable) : Prop := ∃ t, Relation.TransGen locks.WaitsOn t t

end LockTable

namespace DeadlockDetector

variable {dd : DeadlockDetector} {locks : LockTable} {t u : ThreadId} {resource : String}

section Graph

theorem mem_successors_addEdge {graph : Graph} {waiter holder : ThreadId} :
    u ∈ successors (addEdge waiter holder graph) t ↔
      u ∈ successors graph t ∨ (t = waiter ∧ u = holder) := by
  by_cases same : t = waiter
  next =>
    subst same
    simp [successors, addEdge, or_comm]
  next => simp [successors, addEdge, same]

theorem mem_successors_addWaits {graph : Graph} {entry : ThreadId × List String} :
    u ∈ successors (dd.addWaits graph entry) t ↔
      u ∈ successors graph t ∨ (t = entry.1 ∧ ∃ res ∈ entry.2, dd.owners.lookup res = some u) := by
  obtain ⟨waiter, resources⟩ := entry
  simp only [addWaits]
  induction resources generalizing graph with
  | nil => simp
  | cons res rest ih =>
    rw [List.foldl_cons, ih]
    cases owned : dd.owners.lookup res with
    | none => simp [owned]
    | some holder =>
      simp only [mem_successors_addEdge, List.exists_mem_cons_iff, owned, Option.some.injEq, eq_comm]
      tauto

theorem mem_successors_graph {entries : List (ThreadId × List String)} :
    u ∈ successors (dd.graph entries) t ↔
      ∃ resources, (t, resources) ∈ entries ∧ ∃ res ∈ resources, dd.owners.lookup res = some u := by
  have scan : ∀ graph, u ∈ successors (entries.foldl dd.addWaits graph) t ↔
      u ∈ successors graph t ∨
        ∃ resources, (t, resources) ∈ entries ∧ ∃ res ∈ resources, dd.owners.lookup res = some u := by
    induction entries with
    | nil => simp
    | cons entry rest ih =>
      intro graph
      rw [List.foldl_cons, ih, mem_successors_addWaits, or_assoc]
      refine or_congr_right ?_
      obtain ⟨waiter, resources⟩ := entry
      simp only [List.mem_cons, Prod.mk.injEq]
      constructor
      · rintro (⟨rfl, waits⟩ | ⟨others, member, waits⟩)
        · exact ⟨resources, .inl ⟨rfl, rfl⟩, waits⟩
        · exact ⟨others, .inr member, waits⟩
      · rintro ⟨others, ⟨rfl, rfl⟩ | member, waits⟩
        · exact .inl ⟨rfl, waits⟩
        · exact .inr ⟨others, member, waits⟩
  have empty : u ∉ successors ∅ t := by simp [successors]
  rw [graph, scan]
  simp only [empty, false_or]

-- An edge leads from a thread to the owner of a resource it has an entry for.
theorem edge_iff (order : HashOrder dd) :
    Edge order.neighbors t u ↔ ∃ res ∈ dd.waitingFor t, dd.owners.lookup res = some u := by
  rw [Edge, order.mem_neighbors, mem_successors_graph]
  simp only [order.lists.mem_iff, waitingFor]
  cases dd.waiting.lookup t with
  | none => simp
  | some resources => simp

theorem HashOrder.complete (order : HashOrder dd) : ∀ t, order.neighbors t ≠ [] → t ∈ order.keys := by
  intro t nonempty
  obtain ⟨u, member⟩ := List.exists_mem_of_ne_nil _ nonempty
  rw [order.mem_neighbors] at member
  rw [order.mem_keys, mem_keys_iff]
  by_contra absent
  rw [Option.not_isSome_iff_eq_none] at absent
  simp [successors, absent] at member

theorem detectCycle_spec (order : HashOrder dd) :
    ∃ answer, dd.detectCycle order = some answer ∧
      (answer.isSome ↔ ∃ t, OnCycle order.neighbors t) := by
  obtain ⟨answer, found, exact, -⟩ := findCycle_spec order.complete
  exact ⟨answer, found, exact⟩

def Waits (dd : DeadlockDetector) (t u : ThreadId) : Prop :=
  ∃ res ∈ dd.waitingFor t, dd.owners.lookup res = some u

/-- A walk along the waits that comes back to its first thread and meets no other twice. -/
structure ClosedWalk (dd : DeadlockDetector) (walk : List ThreadId) : Prop where
  linked : walk.IsChain dd.Waits
  closed : ∃ t middle, walk = t :: middle ++ [t] ∧ (t :: middle).Nodup

theorem closedWalk_of_isCycle {order : HashOrder dd} {cycle : List ThreadId}
    (isCycle : IsCycle order.neighbors cycle) (nodup : cycle.dropLast.Nodup) : dd.ClosedWalk cycle where
  linked := isCycle.linked.imp fun _ _ => (edge_iff order).mp
  closed := by
    obtain ⟨t, middle, rfl⟩ := isCycle.closed
    rw [List.dropLast_concat] at nodup
    exact ⟨t, middle, rfl, nodup⟩

/-- The search ends in any state and order. It finds something exactly if some threads wait for each other
in a circle, and what it finds is such a circle. -/
theorem detectCycle_decides (dd : DeadlockDetector) (order : HashOrder dd) :
    ∃ answer, dd.detectCycle order = some answer ∧
      (answer.isSome ↔ ∃ t, Relation.TransGen dd.Waits t t) ∧ ∀ cycle ∈ answer, dd.ClosedWalk cycle := by
  have edges : Edge order.neighbors = dd.Waits := funext fun t => funext fun u => propext (edge_iff order)
  obtain ⟨answer, found, exact, cycles⟩ := findCycle_spec order.complete
  refine ⟨answer, found, ?_, ?_⟩
  next => simpa only [OnCycle, edges] using exact
  next =>
    rintro cycle ⟨rfl⟩
    exact closedWalk_of_isCycle (cycles cycle rfl) (findCycle_nodup found)

theorem exists_hashOrder (dd : DeadlockDetector) : Nonempty (HashOrder dd) := by
  obtain ⟨entries, lists⟩ := exists_lists dd.waiting
  exact ⟨{
    entries, lists
    keys := (dd.graph entries).keys.toList
    mem_keys := fun t => Finset.mem_toList
    neighbors := fun t => (successors (dd.graph entries) t).toList
    mem_neighbors := fun t u => Finset.mem_toList }⟩

end Graph

section Locks

@[simp] theorem mem_pushResource {m : Map ThreadId (List String)} {threadId : ThreadId} {res : String} :
    res ∈ ((pushResource m threadId resource).lookup t).getD [] ↔
      res ∈ (m.lookup t).getD [] ∨ (t = threadId ∧ res = resource) := by
  by_cases same : t = threadId
  next =>
    subst same
    simp [pushResource]
  next => simp [pushResource, same]

@[simp] theorem mem_retainOthers {m : Map ThreadId (List String)} {threadId : ThreadId} {res : String} :
    res ∈ ((retainOthers m threadId resource).lookup t).getD [] ↔
      res ∈ (m.lookup t).getD [] ∧ ¬ (t = threadId ∧ res = resource) := by
  by_cases same : t = threadId
  next =>
    subst same
    cases found : m.lookup t <;> simp [retainOthers, found]
  next =>
    cases found : m.lookup threadId <;> simp [retainOthers, found, same]

/-- The detector knows the owners. It takes a thread to be waiting for what it is blocked on and
for what it owns after a wait. -/
structure Follows (dd : DeadlockDetector) (locks : LockTable) : Prop where
  owners : dd.owners = locks.owner
  waiting : ∀ t res, res ∈ dd.waitingFor t ↔
    (t, res) ∈ locks.blocked ∨ (locks.owner.lookup res = some t ∧ res ∈ locks.waitedFor)
  blocked : ∀ t res, (t, res) ∈ locks.blocked → locks.owner.lookup res ≠ some t
  waitedFor : ∀ res ∈ locks.waitedFor, ∃ t, locks.owner.lookup res = some t

theorem follows_start : Follows .new .start := by
  constructor <;> simp [new, LockTable.start, waitingFor]

theorem Follows.acquire (follows : Follows dd locks) (threadId : ThreadId)
    (free : locks.owner.lookup resource = none) :
    Follows (dd.acquire threadId resource) (locks.step (.acquire threadId resource)) := by
  have fresh : resource ∉ locks.waitedFor := by
    intro member
    obtain ⟨t, owned⟩ := follows.waitedFor resource member
    simp [free] at owned
  constructor
  case owners => simp [DeadlockDetector.acquire, LockTable.step, follows.owners]
  case waiting =>
    intro t res
    have before := follows.waiting t res
    simp only [waitingFor, DeadlockDetector.acquire, LockTable.step, lookup_insert_eq] at before ⊢
    rw [before]
    by_cases here : res = resource
    next =>
      subst here
      by_cases same : t = threadId
      next => by_cases waited : (threadId, res) ∈ locks.blocked <;> simp [same, waited, fresh, free]
      next => simp [same, fresh, Ne.symm same]
    next =>
      by_cases waited : (threadId, resource) ∈ locks.blocked <;> simp [here, waited]
  case blocked =>
    intro t res member
    have before := follows.blocked t res
    simp only [LockTable.step, Finset.mem_erase, lookup_insert_eq] at member ⊢
    by_cases here : res = resource
    next =>
      have other : t ≠ threadId := by
        rintro rfl
        exact member.1 (by rw [here])
      simp [here, Ne.symm other]
    next => simpa [here] using before member.2
  case waitedFor =>
    intro res member
    simp only [LockTable.step, lookup_insert_eq] at member ⊢
    by_cases here : res = resource
    next => simp [here]
    next =>
      have before : res ∈ locks.waitedFor := by
        split at member <;> simpa [here] using member
      simpa [here] using follows.waitedFor res before

theorem Follows.waitFor (follows : Follows dd locks) {threadId holder : ThreadId}
    (owned : locks.owner.lookup resource = some holder) (other : holder ≠ threadId) :
    Follows (dd.waitFor threadId resource) (locks.step (.waitFor threadId resource)) where
  owners := follows.owners
  waiting t res := by
    have before := follows.waiting t res
    simp only [waitingFor] at before
    simp only [waitingFor, DeadlockDetector.waitFor, LockTable.step, mem_pushResource, before,
      Finset.mem_insert, Prod.mk.injEq]
    tauto
  blocked t res member := by
    simp only [LockTable.step, Finset.mem_insert, Prod.mk.injEq] at member ⊢
    rcases member with ⟨rfl, rfl⟩ | before
    · simpa [owned] using other
    · exact follows.blocked t res before
  waitedFor := follows.waitedFor

theorem Follows.release (follows : Follows dd locks) {threadId : ThreadId}
    (owned : locks.owner.lookup resource = some threadId) :
    Follows (dd.release threadId resource) (locks.step (.release threadId resource)) := by
  constructor
  case owners => simp [DeadlockDetector.release, LockTable.step, follows.owners]
  case waiting =>
    intro t res
    have before := follows.waiting t res
    have unblocked := follows.blocked t res
    simp only [waitingFor] at before
    simp only [waitingFor, DeadlockDetector.release, LockTable.step, mem_retainOthers, before,
      lookup_erase_eq, Finset.mem_erase]
    by_cases here : res = resource
    next =>
      subst here
      by_cases same : t = threadId
      next =>
        subst same
        simpa [owned] using unblocked
      next => simp [same, owned, Ne.symm same]
    next => simp [here]
  case blocked =>
    intro t res member
    have before := follows.blocked t res member
    simp only [LockTable.step, lookup_erase_eq]
    split <;> simp [before]
  case waitedFor =>
    intro res member
    simp only [LockTable.step, Finset.mem_erase, lookup_erase_eq] at member ⊢
    simpa [member.1] using follows.waitedFor res member.2

theorem Follows.step (follows : Follows dd locks) {call : LockCall} (allowed : locks.Allowed call) :
    Follows (dd.handle call) (locks.step call) := by
  cases call with
  | acquire threadId resource => exact follows.acquire threadId allowed
  | waitFor threadId resource =>
    obtain ⟨holder, owned, other⟩ := allowed
    exact follows.waitFor owned other
  | release threadId resource => exact follows.release allowed

theorem Follows.run (follows : Follows dd locks) {calls : List LockCall}
    (allowed : Runs.Meets LockTable.step LockTable.Allowed locks calls) :
    Follows (Runs.run handle dd calls) (Runs.run LockTable.step locks calls) := by
  induction calls generalizing dd locks with
  | nil => exact follows
  | cons call rest ih => exact ih (follows.step allowed.1) allowed.2

theorem Follows.edge_iff (follows : Follows dd locks) (order : HashOrder dd) :
    Edge order.neighbors t u ↔
      locks.WaitsOn t u ∨ (t = u ∧ ∃ res ∈ locks.waitedFor, locks.owner.lookup res = some t) := by
  simp only [DeadlockDetector.edge_iff, follows.waiting, follows.owners, LockTable.WaitsOn]
  constructor
  · rintro ⟨res, waits | ⟨own, waited⟩, owned⟩
    · exact .inl ⟨res, waits, owned⟩
    · have same : t = u := by simpa [own] using owned
      exact .inr ⟨same, res, waited, own⟩
  · rintro (⟨res, waits, owned⟩ | ⟨rfl, res, waited, own⟩)
    · exact ⟨res, .inl waits, owned⟩
    · exact ⟨res, .inr ⟨own, waited⟩, own⟩

theorem Follows.onCycle_iff (follows : Follows dd locks) (order : HashOrder dd) :
    (∃ t, OnCycle order.neighbors t) ↔ locks.Deadlocked ∨ locks.waitedFor ≠ ∅ := by
  constructor
  · rintro ⟨t, walk⟩
    by_cases none : locks.waitedFor = ∅
    next =>
      have edges : ∀ a b, Edge order.neighbors a b → locks.WaitsOn a b := by
        intro a b edge
        simpa [none] using (follows.edge_iff order).mp edge
      exact .inl ⟨t, Relation.TransGen.mono edges _ _ walk⟩
    next => exact .inr none
  · rintro (⟨t, walk⟩ | some)
    · have edges : ∀ a b, locks.WaitsOn a b → Edge order.neighbors a b :=
        fun a b waits => (follows.edge_iff order).mpr (.inl waits)
      exact ⟨t, Relation.TransGen.mono edges _ _ walk⟩
    · obtain ⟨res, waited⟩ := Finset.nonempty_iff_ne_empty.mpr some
      obtain ⟨t, owned⟩ := follows.waitedFor res waited
      exact ⟨t, .single ((follows.edge_iff order).mpr (.inr ⟨rfl, res, waited, owned⟩))⟩

end Locks

end DeadlockDetector

/-- After any run of the protocol the detector is right exactly if there is a deadlock or no thread
owns a resource that it had to wait for. -/
theorem deadlocks_detected_iff (calls : List LockCall)
    (allowed : Runs.Meets LockTable.step LockTable.Allowed .start calls)
    (order : DeadlockDetector.HashOrder (Runs.run DeadlockDetector.handle .new calls)) :
    let locks := Runs.run LockTable.step .start calls
    ∃ answer, DeadlockDetector.detectCycle _ order = some answer ∧
      ((answer.isSome ↔ locks.Deadlocked) ↔ locks.Deadlocked ∨ locks.waitedFor = ∅) := by
  intro locks
  have follows := DeadlockDetector.follows_start.run allowed
  obtain ⟨answer, found, exact⟩ := DeadlockDetector.detectCycle_spec order
  refine ⟨answer, found, ?_⟩
  rw [exact, follows.onCycle_iff order]
  by_cases deadlocked : locks.Deadlocked
  next => simp [locks, deadlocked]
  next => simp [locks, deadlocked]

namespace LockSample

def handedOver : List LockCall :=
  [.acquire 2 "A", .waitFor 1 "A", .release 2 "A", .acquire 1 "A"]

def crossed : List LockCall :=
  [.acquire 1 "A", .acquire 2 "B", .waitFor 1 "B", .waitFor 2 "A"]

end LockSample

open LockSample

/-- A thread that has got what it waited for is reported as a deadlock with itself. -/
theorem handed_over_lock_reported :
    Runs.Meets LockTable.step LockTable.Allowed .start handedOver ∧
      ∃ order, DeadlockDetector.detectCycle (Runs.run DeadlockDetector.handle .new handedOver) order =
          some (some [1, 1]) ∧
        ¬ (Runs.run LockTable.step .start handedOver).Deadlocked := by
  have allowed : Runs.Meets LockTable.step LockTable.Allowed .start handedOver :=
    ⟨rfl, ⟨2, rfl, by decide⟩, rfl, rfl, trivial⟩
  have graph : (Runs.run DeadlockDetector.handle .new handedOver).graph [(1, ["A"])] =
      (Finmap.insert 1 {1} ∅ : Map ThreadId (Finset ThreadId)) := rfl
  have waiting : (Runs.run DeadlockDetector.handle .new handedOver).waiting =
      (Finmap.insert 1 ["A"] ∅ : Map ThreadId (List String)) := rfl
  refine ⟨allowed, {
    entries := [(1, ["A"])]
    lists := by
      rw [waiting]
      exact Lists.singleton 1 ["A"]
    keys := [1]
    mem_keys := by simp [graph, keys_insert]
    neighbors := fun t => if t = 1 then [1] else []
    mem_neighbors := by
      intro t u
      simp only [graph, DeadlockDetector.successors, lookup_insert_eq]
      by_cases same : t = 1 <;> simp [same] }, rfl, ?_⟩
  rintro ⟨t, walk⟩
  have nobody : (Runs.run LockTable.step .start handedOver).blocked = ∅ := rfl
  cases walk using Relation.TransGen.head_induction_on with
  | single waits => simp [LockTable.WaitsOn, nobody] at waits
  | head waits _ _ => simp [LockTable.WaitsOn, nobody] at waits

theorem deadlocks_detected_iff_crossed :
    ∃ order answer,
      DeadlockDetector.detectCycle (Runs.run DeadlockDetector.handle .new crossed) order = some answer ∧
        (answer.isSome ↔ (Runs.run LockTable.step .start crossed).Deadlocked) := by
  have allowed : Runs.Meets LockTable.step LockTable.Allowed .start crossed :=
    ⟨rfl, rfl, ⟨2, rfl, by decide⟩, ⟨1, rfl, by decide⟩, trivial⟩
  obtain ⟨order⟩ := DeadlockDetector.exists_hashOrder (Runs.run DeadlockDetector.handle .new crossed)
  obtain ⟨answer, found, exactly⟩ := deadlocks_detected_iff crossed allowed order
  exact ⟨order, answer, found, exactly.mpr (.inr rfl)⟩

end BankingLedger
