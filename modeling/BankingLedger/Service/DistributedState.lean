import BankingLedger.Service.Choreography
import BankingLedger.Shared.LatestWins
import Mathlib.Data.Multiset.Basic
import Mathlib.Order.Lattice

set_option autoImplicit false

namespace BankingLedger

open FiniteMap LatestWins

theorem Timestamp.nanos_injective : Function.Injective Timestamp.nanos := by
  intro one other same
  cases one
  cases other
  simpa using same

instance : LinearOrder Timestamp := LinearOrder.lift' Timestamp.nanos Timestamp.nanos_injective

namespace DistributedState

inductive TransactionStatus where
  | initiated
  | fundsReserved
  | completed
  | failed
deriving DecidableEq, Repr

structure TransactionEvent where
  transactionId : Uuid
  eventType : TransactionStatus
  fromAccount : String
  toAccount : String
  amount : Decimal
  timestamp : Timestamp
deriving DecidableEq, Repr

structure TransactionState where
  transactionId : Uuid
  currentStatus : TransactionStatus
  fromAccount : String
  toAccount : String
  amount : Decimal
  lastUpdated : Timestamp
  eventCount : Nat
deriving DecidableEq, Repr

namespace TransactionState

def ofEvent (event : TransactionEvent) : TransactionState where
  transactionId := event.transactionId
  currentStatus := event.eventType
  fromAccount := event.fromAccount
  toAccount := event.toAccount
  amount := event.amount
  lastUpdated := event.timestamp
  eventCount := 1

def update (state : TransactionState) (event : TransactionEvent) : TransactionState :=
  if state.lastUpdated < event.timestamp then
    { state with
      currentStatus := event.eventType
      lastUpdated := event.timestamp
      eventCount := state.eventCount + 1
      amount := event.amount }
  else
    state

end TransactionState

structure TransactionStateProjector where
  states : Map Uuid TransactionState

namespace TransactionStateProjector

def new : TransactionStateProjector := { states := ∅ }

def get (projector : TransactionStateProjector) (transactionId : Uuid) : Option TransactionState :=
  projector.states.lookup transactionId

-- The entry keeps its shard locked, so the whole call is one step.
def apply (projector : TransactionStateProjector) (event : TransactionEvent) :
    TransactionStateProjector :=
  match projector.get event.transactionId with
  | some state => { states := projector.states.insert event.transactionId (state.update event) }
  | none => { states := projector.states.insert event.transactionId (.ofEvent event) }

-- `entries` are the bindings in the order the map is iterated.
def byStatus (entries : List (Uuid × TransactionState)) (status : TransactionStatus) :
    List TransactionState :=
  (entries.map Prod.snd).filter fun state => state.currentStatus = status

def len (projector : TransactionStateProjector) : Nat := projector.states.keys.card

def isEmpty (projector : TransactionStateProjector) : Bool := projector.len = 0

def project (events : List TransactionEvent) : TransactionStateProjector := events.foldl apply new

end TransactionStateProjector

open TransactionStateProjector

structure View where
  status : TransactionStatus
  amount : Decimal
  lastUpdated : Timestamp
deriving DecidableEq

def TransactionState.view (state : TransactionState) : View :=
  { status := state.currentStatus, amount := state.amount, lastUpdated := state.lastUpdated }

def TransactionEvent.view (event : TransactionEvent) : View :=
  { status := event.eventType, amount := event.amount, lastUpdated := event.timestamp }

def eventsOf (transactionId : Uuid) (events : List TransactionEvent) : List TransactionEvent :=
  events.filter fun event => event.transactionId = transactionId

variable {events : List TransactionEvent} {event : TransactionEvent} {transactionId : Uuid}

@[simp] theorem mem_eventsOf :
    event ∈ eventsOf transactionId events ↔ event ∈ events ∧ event.transactionId = transactionId := by
  simp [eventsOf]

@[simp] theorem eventsOf_concat : eventsOf transactionId (events ++ [event]) =
    eventsOf transactionId events ++ if event.transactionId = transactionId then [event] else [] := by
  by_cases own : event.transactionId = transactionId <;> simp [eventsOf, own]

@[simp] theorem project_concat : project (events ++ [event]) = (project events).apply event := by
  simp [project]

@[simp] theorem view_ofEvent : (TransactionState.ofEvent event).view = event.view := rfl

-- An entry and an event that say the same are told apart from the next event by the same time.
theorem view_update {state : TransactionState} {kept : TransactionEvent}
    (same : state.view = kept.view) :
    some (state.update event).view =
      (keep TransactionEvent.timestamp (some kept) event).map TransactionEvent.view := by
  have times : state.lastUpdated = kept.timestamp := congrArg View.lastUpdated same
  by_cases newer : kept.timestamp < event.timestamp
  next =>
    simp only [TransactionState.update, times, newer, if_true, keep, Option.map_some]
    rfl
  next => simp [TransactionState.update, times, newer, keep, same]

theorem get_apply_of_ne {projector : TransactionStateProjector}
    (other : event.transactionId ≠ transactionId) :
    (projector.apply event).get transactionId = projector.get transactionId := by
  simp only [TransactionStateProjector.apply]
  cases projector.get event.transactionId <;> simp [TransactionStateProjector.get, other.symm]

theorem get_apply_self {projector : TransactionStateProjector} :
    (projector.apply event).get event.transactionId =
      some ((projector.get event.transactionId).elim (.ofEvent event) fun state => state.update event) := by
  simp only [TransactionStateProjector.apply]
  cases projector.get event.transactionId <;> simp [TransactionStateProjector.get]

theorem view_project :
    ((project events).get transactionId).map TransactionState.view =
      (latest TransactionEvent.timestamp (eventsOf transactionId events)).map TransactionEvent.view := by
  induction events using List.reverseRecOn with
  | nil => rfl
  | append_singleton events event ih =>
    rw [project_concat, eventsOf_concat]
    by_cases own : event.transactionId = transactionId
    next =>
      subst own
      rw [get_apply_self, if_pos rfl, latest_concat]
      cases shown : (project events).get event.transactionId with
      | none =>
        have first : latest TransactionEvent.timestamp (eventsOf event.transactionId events) = none := by
          simpa [shown, eq_comm] using ih
        simp [first, keep]
      | some state =>
        cases kept : latest TransactionEvent.timestamp (eventsOf event.transactionId events) with
        | none => simp [shown, kept] at ih
        | some last =>
          have same : state.view = last.view := by simpa [shown, kept] using ih
          simp [← view_update same]
    next => simpa [own, get_apply_of_ne own] using ih

theorem mem_states_project :
    transactionId ∈ (project events).states.keys ↔ ∃ event ∈ events, event.transactionId = transactionId := by
  have shown : ((project events).get transactionId).isSome =
      (latest TransactionEvent.timestamp (eventsOf transactionId events)).isSome := by
    have views := congrArg Option.isSome (@view_project events transactionId)
    simpa using views
  rw [mem_keys_iff]
  change ((project events).get transactionId).isSome ↔ _
  rw [shown, ← Option.ne_none_iff_isSome, ne_eq, latest_eq_none_iff, List.eq_nil_iff_forall_not_mem]
  simp

/-- The events arrive in any order, each any number of times but at least once. -/
def Delivers (delivered : List TransactionEvent) (events : Multiset TransactionEvent) : Prop :=
  ∀ event, event ∈ delivered ↔ event ∈ events

/-- Events of one transaction with different content have different timestamps. -/
def Distinguished (events : Multiset TransactionEvent) : Prop :=
  ∀ one ∈ events, ∀ other ∈ events, one.transactionId = other.transactionId →
    one.timestamp = other.timestamp → one = other

structure IsLatestOf (transactionId : Uuid) (events : Multiset TransactionEvent)
    (event : TransactionEvent) : Prop where
  published : event ∈ events
  own : event.transactionId = transactionId
  greatest : ∀ other ∈ events, other.transactionId = transactionId → other.timestamp ≤ event.timestamp

theorem Delivers.shows_latest {events : Multiset TransactionEvent} {delivered : List TransactionEvent}
    (delivers : Delivers delivered events) (apart : Distinguished events)
    (latestOf : IsLatestOf transactionId events event) :
    ((project delivered).get transactionId).map TransactionState.view = some event.view := by
  have toldApart : ToldApart TransactionEvent.timestamp (eventsOf transactionId delivered) := by
    intro one first other second
    rw [mem_eventsOf, delivers] at first second
    exact apart one first.1 other second.1 (first.2.trans second.2.symm)
  have isLatest : IsLatest TransactionEvent.timestamp (eventsOf transactionId delivered) event := by
    refine { delivered := ?_, greatest := ?_ }
    next => simpa [delivers event] using ⟨latestOf.published, latestOf.own⟩
    next =>
      intro other member
      rw [mem_eventsOf, delivers] at member
      exact latestOf.greatest other member.1 member.2
  rw [view_project, (latest_eq_some_iff toldApart).mpr isLatest]
  rfl

theorem Delivers.exists_latest {events : Multiset TransactionEvent} {delivered : List TransactionEvent}
    (delivers : Delivers delivered events)
    (tracked : transactionId ∈ (project delivered).states.keys) :
    ∃ event, IsLatestOf transactionId events event := by
  have listed : eventsOf transactionId delivered ≠ [] := by
    obtain ⟨event, member, own⟩ := mem_states_project.mp tracked
    exact List.ne_nil_of_mem (mem_eventsOf.mpr ⟨member, own⟩)
  have kept : latest TransactionEvent.timestamp (eventsOf transactionId delivered) ≠ none :=
    latest_eq_none_iff.not.mpr listed
  obtain ⟨event, held⟩ := Option.ne_none_iff_exists'.mp kept
  have isLatest := latest_isLatest held
  have member := mem_eventsOf.mp isLatest.delivered
  refine ⟨event, { published := (delivers event).mp member.1, own := member.2, greatest := ?_ }⟩
  intro other published own
  exact isLatest.greatest other (mem_eventsOf.mpr ⟨(delivers other).mpr published, own⟩)

/-- Any two deliveries of the same events end with the transactions of these events, each shown as its
latest event has it. -/
theorem projections_converge {events : Multiset TransactionEvent} (apart : Distinguished events)
    {first second : List TransactionEvent} (one : Delivers first events)
    (other : Delivers second events) :
    (∀ transactionId, transactionId ∈ (project first).states.keys ↔
      ∃ event ∈ events, event.transactionId = transactionId) ∧
    (project first).states.keys = (project second).states.keys ∧
      ∀ transactionId ∈ (project first).states.keys, ∃ event state state',
        IsLatestOf transactionId events event ∧
        (project first).get transactionId = some state ∧
        (project second).get transactionId = some state' ∧
        state.view = event.view ∧ state'.view = event.view := by
  have tracked (transactionId : Uuid) : transactionId ∈ (project first).states.keys ↔
      ∃ event ∈ events, event.transactionId = transactionId := by
    simp only [mem_states_project, one _]
  refine ⟨tracked, ?_, fun transactionId member => ?_⟩
  next =>
    ext transactionId
    simp only [mem_states_project, one _, other _]
  next =>
    obtain ⟨event, latestOf⟩ := one.exists_latest member
    obtain ⟨state, found, shown⟩ := Option.map_eq_some_iff.mp (one.shows_latest apart latestOf)
    obtain ⟨state', found', shown'⟩ := Option.map_eq_some_iff.mp (other.shows_latest apart latestOf)
    exact ⟨event, state, state', latestOf, found, found', shown, shown'⟩

private def transferEvent (eventType : TransactionStatus) (amount nanos : Int) : TransactionEvent where
  transactionId := ⟨7⟩
  eventType := eventType
  fromAccount := "alice"
  toAccount := "bob"
  amount := amount
  timestamp := { nanos }

-- The completion arrives first and the start of the transfer twice after it.
theorem projections_converge_late_start :
    let started := transferEvent .initiated 100 1
    let completed := transferEvent .completed 90 2
    (∀ transactionId, transactionId ∈ (project [started, completed]).states.keys ↔
      ∃ event ∈ ({started, completed} : Multiset TransactionEvent), event.transactionId = transactionId) ∧
    (project [started, completed]).states.keys = (project [completed, started, started]).states.keys ∧
      ∀ transactionId ∈ (project [started, completed]).states.keys, ∃ event state state',
        IsLatestOf transactionId {started, completed} event ∧
        (project [started, completed]).get transactionId = some state ∧
        (project [completed, started, started]).get transactionId = some state' ∧
        state.view = event.view ∧ state'.view = event.view := by
  intro started completed
  have apart : Distinguished {started, completed} := by
    simp [Distinguished, started, completed, transferEvent]
  have inOrder : Delivers [started, completed] {started, completed} := by simp [Delivers]
  have reordered : Delivers [completed, started, started] {started, completed} := by
    simp [Delivers, or_comm]
  exact projections_converge apart inOrder reordered

theorem transactionId_of_get {state : TransactionState}
    (found : (project events).get transactionId = some state) : state.transactionId = transactionId := by
  induction events using List.reverseRecOn generalizing state with
  | nil => cases found
  | append_singleton events event ih =>
    rw [project_concat] at found
    by_cases own : event.transactionId = transactionId
    next =>
      subst own
      rw [get_apply_self, Option.some.injEq] at found
      subst found
      cases before : (project events).get event.transactionId with
      | none => rfl
      | some old =>
        have kept : (old.update event).transactionId = old.transactionId := by
          unfold TransactionState.update
          split <;> rfl
        simpa [kept] using ih before
    next =>
      rw [get_apply_of_ne own] at found
      exact ih found

theorem mem_byStatus {projector : TransactionStateProjector} {entries : List (Uuid × TransactionState)}
    (lists : Lists entries projector.states) {status : TransactionStatus} {state : TransactionState} :
    state ∈ byStatus entries status ↔
      (∃ transactionId, projector.get transactionId = some state) ∧ state.currentStatus = status := by
  simp [byStatus, lists.mem_iff, TransactionStateProjector.get]

theorem byStatus_converges {events : Multiset TransactionEvent} (apart : Distinguished events)
    {first second : List TransactionEvent} (one : Delivers first events)
    (other : Delivers second events) {entries entries' : List (Uuid × TransactionState)}
    (lists : Lists entries (project first).states) (lists' : Lists entries' (project second).states)
    {status : TransactionStatus} {transactionId : Uuid}
    (listed : transactionId ∈ (byStatus entries status).map TransactionState.transactionId) :
    transactionId ∈ (byStatus entries' status).map TransactionState.transactionId := by
  obtain ⟨state, member, rfl⟩ := List.mem_map.mp listed
  obtain ⟨⟨key, found⟩, current⟩ := (mem_byStatus lists).mp member
  have own := transactionId_of_get found
  subst own
  have tracked : state.transactionId ∈ (project first).states.keys := mem_keys_of_found found
  obtain ⟨event, latestOf⟩ := one.exists_latest tracked
  have shown := one.shows_latest apart latestOf
  obtain ⟨state', found', shown'⟩ := Option.map_eq_some_iff.mp (other.shows_latest apart latestOf)
  rw [found, Option.map_some, Option.some.injEq] at shown
  have same : state'.currentStatus = state.currentStatus :=
    congrArg View.status (shown'.trans shown.symm)
  have member' := (mem_byStatus lists').mpr ⟨⟨_, found'⟩, same.trans current⟩
  exact List.mem_map.mpr ⟨state', member', transactionId_of_get found'⟩

end DistributedState

end BankingLedger
