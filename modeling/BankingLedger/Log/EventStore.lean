import BankingLedger.Domain.Journal
import BankingLedger.Shared.Runs
import Mathlib.Data.Finset.Insert

set_option autoImplicit false

namespace BankingLedger

open Runs

structure Event where
  id : Uuid
  eventType : String
  aggregateId : Uuid
  payload : String
  aggregateVersion : UInt64
  timestamp : Timestamp
deriving DecidableEq, Repr

-- `id` and `timestamp` are the values `Uuid::now_v7` and `Utc::now` return.
def Event.new (id : Uuid) (timestamp : Timestamp) (eventType : String) (aggregateId : Uuid)
    (payload : String) (version : UInt64) : Event :=
  { id, eventType, aggregateId, payload, aggregateVersion := version, timestamp }

structure Command where
  id : Uuid
  commandType : String
  aggregateId : Uuid
  payload : String
  expectedVersion : Option UInt64
deriving DecidableEq, Repr

structure EventStore where
  events : List Event
  processedCommands : Finset Uuid
deriving DecidableEq

inductive CommandError where
  | alreadyProcessed
  | versionConflict (expected actual : UInt64)
deriving DecidableEq, Repr

namespace EventStore

def new : EventStore := { events := [], processedCommands := ∅ }

def isDuplicate (commandId : Uuid) (store : EventStore) : Bool := commandId ∈ store.processedCommands

def append (event : Event) (commandId : Uuid) (store : EventStore) : EventStore :=
  { events := store.events ++ [event], processedCommands := insert commandId store.processedCommands }

@[simp] theorem append_events (event : Event) (commandId : Uuid) (store : EventStore) :
    (store.append event commandId).events = store.events ++ [event] := rfl

@[simp] theorem append_isDuplicate (event : Event) (commandId id : Uuid) (store : EventStore) :
    (store.append event commandId).isDuplicate id = true ↔
      id = commandId ∨ store.isDuplicate id = true := by
  simp [isDuplicate, append]

-- In the order of the log; nothing sorts them by version.
def eventsForAggregate (aggregateId : Uuid) (store : EventStore) : List Event :=
  store.events.filter fun e => e.aggregateId = aggregateId

end EventStore

def processCommandIdempotent {m : Type → Type} [Monad m] (command : Command)
    (handler : Command → m (List Event)) (store : EventStore) :
    m (Except CommandError (List Event) × EventStore) :=
  if store.isDuplicate command.id then
    pure (.ok (store.eventsForAggregate command.aggregateId), store)
  else do
    let events ← handler command
    pure (.ok events, events.foldl (fun store event => store.append event command.id) store)

abbrev CommandCall := Command × (Command → List Event)

def answerCommand (store : EventStore) (call : CommandCall) :
    Except CommandError (List Event) × EventStore :=
  processCommandIdempotent (m := Id) call.1 call.2 store

def handleCommand (store : EventStore) (call : CommandCall) : EventStore := (answerCommand store call).2

section Spec

variable {store : EventStore} {call : CommandCall}

theorem foldl_append_events (events : List Event) (commandId : Uuid) (store : EventStore) :
    (events.foldl (fun store event => store.append event commandId) store).events =
      store.events ++ events := by
  induction events generalizing store with
  | nil => simp
  | cons event rest ih => rw [List.foldl_cons, ih, EventStore.append_events, List.append_assoc]; rfl

theorem foldl_append_isDuplicate (events : List Event) (commandId : Uuid) (store : EventStore)
    (id : Uuid) :
    (events.foldl (fun store event => store.append event commandId) store).isDuplicate id = true ↔
      store.isDuplicate id = true ∨ id = commandId ∧ events ≠ [] := by
  induction events generalizing store with
  | nil => simp
  | cons event rest ih =>
    rw [List.foldl_cons, ih, EventStore.append_isDuplicate]
    by_cases same : id = commandId <;> simp [same]

theorem answerCommand_of_duplicate (duplicate : store.isDuplicate call.1.id = true) :
    answerCommand store call = (.ok (store.eventsForAggregate call.1.aggregateId), store) := by
  simp only [answerCommand, processCommandIdempotent, duplicate, if_true]
  rfl

theorem answerCommand_of_new (unseen : store.isDuplicate call.1.id = false) :
    answerCommand store call = (.ok (call.2 call.1),
      (call.2 call.1).foldl (fun store event => store.append event call.1.id) store) := by
  simp only [answerCommand, processCommandIdempotent, unseen, Bool.false_eq_true, if_false]
  rfl

def appended (store : EventStore) (call : CommandCall) : List Event :=
  if store.isDuplicate call.1.id then [] else call.2 call.1

theorem handleCommand_events : (handleCommand store call).events = store.events ++ appended store call := by
  cases seen : store.isDuplicate call.1.id with
  | true => simp [handleCommand, answerCommand_of_duplicate seen, appended, seen]
  | false => simp [handleCommand, answerCommand_of_new seen, appended, seen, foldl_append_events]

theorem handleCommand_isDuplicate (id : Uuid) :
    (handleCommand store call).isDuplicate id = true ↔
      store.isDuplicate id = true ∨ id = call.1.id ∧ appended store call ≠ [] := by
  cases seen : store.isDuplicate call.1.id with
  | true => simp [handleCommand, answerCommand_of_duplicate seen, appended, seen]
  | false =>
    simp only [handleCommand, answerCommand_of_new seen, appended, seen, foldl_append_isDuplicate,
      Bool.false_eq_true, if_false]

theorem handleCommand_eventsForAggregate (aggregateId : Uuid) :
    (handleCommand store call).eventsForAggregate aggregateId =
      store.eventsForAggregate aggregateId ++
        (appended store call).filter fun e => e.aggregateId = aggregateId := by
  rw [EventStore.eventsForAggregate, handleCommand_events, List.filter_append]
  rfl

end Spec

end BankingLedger
