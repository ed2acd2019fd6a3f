import BankingLedger.Log.FencingToken
import BankingLedger.Log.IdempotentProducer
import BankingLedger.Log.TransactionalProducer

set_option autoImplicit false

namespace BankingLedger

structure WiredEventBus where
  bus : PartitionedEventBus
  fencing : FencingToken
  idempotentProducer : IdempotentProducer
  transactionalProducer : TransactionalProducer

namespace WiredEventBus

def new (producerId : String) (numPartitions : Nat) : WiredEventBus where
  bus := .new numPartitions
  fencing := (FencingToken.new.registerProducer producerId).2
  idempotentProducer := .new producerId
  transactionalProducer := .new producerId

def produceIdempotent (now : Timestamp) (key payload : String) (w : WiredEventBus) :
    Except String (UInt64 × UInt64) × WiredEventBus :=
  let (epoch, fencing) := w.fencing.registerProducer "default"
  let (seq, idempotentProducer) := w.idempotentProducer.nextSequence
  if !fencing.isValid "default" epoch then
    (.error "fenced out — another producer with higher epoch active",
      { w with fencing, idempotentProducer })
  else
    let (_, bus) := w.bus.produce now key payload "default" seq
    (.ok (seq, epoch),
      { w with bus, fencing, idempotentProducer := idempotentProducer.acknowledge "default" seq })

end WiredEventBus

inductive WiredCall where
  | produceIdempotent (now : Timestamp) (key payload : String)
  | fence (producerId : String)
  | registerProducer (producerId : String)
deriving DecidableEq, Repr

def WiredEventBus.step (w : WiredEventBus) : WiredCall → WiredEventBus
  | .produceIdempotent now key payload => (w.produceIdempotent now key payload).2
  | .fence producerId => { w with fencing := (w.fencing.fence producerId).2 }
  | .registerProducer producerId => { w with fencing := (w.fencing.registerProducer producerId).2 }

theorem registerProducer_isValid (producerId : String) (t : FencingToken) :
    (t.registerProducer producerId).2.isValid producerId (t.registerProducer producerId).1 := by
  have valid : (t.fetchAdd.2.insert producerId t.fetchAdd.1).isValid producerId t.fetchAdd.1 :=
    FencingToken.insert_isValid.mpr (by rw [if_pos rfl])
  exact valid

-- The epoch that is checked is the one that has just been registered.
theorem produceIdempotent_ok (now : Timestamp) (key payload : String) (w : WiredEventBus) :
    (w.produceIdempotent now key payload).1 =
        .ok (w.idempotentProducer.lastSeq + 1, w.fencing.epoch) ∧
      (w.produceIdempotent now key payload).2.bus =
        (w.bus.produce now key payload "default" (w.idempotentProducer.lastSeq + 1)).2 := by
  have valid := registerProducer_isValid "default" w.fencing
  simp only [WiredEventBus.produceIdempotent, valid]
  exact ⟨rfl, rfl⟩

section Fencing

open Runs

/-- The call fences the producer that the bus was created with, or the one it publishes under. Fencing
a producer is registering it again. -/
def WiredCall.Fences (producerId : String) : WiredCall → Prop
  | .fence id | .registerProducer id => id = producerId ∨ id = "default"
  | .produceIdempotent .. => False

def WiredCall.Produces : WiredCall → Prop
  | .produceIdempotent .. => True
  | _ => False

def WiredEventBus.Refuses (now : Timestamp) (key payload : String) (w : WiredEventBus) : Prop :=
  (∃ error, (w.produceIdempotent now key payload).1 = .error error) ∧
    (w.produceIdempotent now key payload).2.bus.messages = w.bus.messages

/-- Every `produce_idempotent` that comes after a fence is refused. -/
def FencedOut (producerId : String) (w : WiredEventBus) (calls : List WiredCall) : Prop :=
  ∀ before fence between now key payload after,
    calls = before ++ fence :: (between ++ .produceIdempotent now key payload :: after) →
    fence.Fences producerId → (run WiredEventBus.step w (before ++ fence :: between)).Refuses now key payload

def ProducesBeforeFences (producerId : String) (calls : List WiredCall) : Prop :=
  ∀ before fence later, calls = before ++ fence :: later → fence.Fences producerId →
    ∀ call ∈ later, ¬ call.Produces

theorem not_refuses (now : Timestamp) (key payload : String) (w : WiredEventBus) :
    ¬ w.Refuses now key payload := by
  rintro ⟨⟨error, refused⟩, -⟩
  rw [(produceIdempotent_ok now key payload w).1] at refused
  cases refused

/-- A fence turns nothing away: it is respected in the runs that publish nothing after it. -/
theorem fenced_out_iff (producerId : String) (numPartitions : Nat) (calls : List WiredCall) :
    FencedOut producerId (.new producerId numPartitions) calls ↔ ProducesBeforeFences producerId calls := by
  constructor
  · intro fencedOut before fence later split fences call member produces
    obtain ⟨between, after, rfl⟩ := List.append_of_mem member
    cases call with
    | produceIdempotent now key payload =>
      exact not_refuses _ _ _ _ (fencedOut before fence between now key payload after split fences)
    | _ => exact produces
  · intro none before fence between now key payload after split fences
    have member : .produceIdempotent now key payload ∈ between ++ .produceIdempotent now key payload :: after :=
      List.mem_append_right _ List.mem_cons_self
    exact absurd trivial (none before fence _ split fences _ member)

theorem fenced_bus_publishes :
    ¬ FencedOut "fence-test" (.new "fence-test" 2) [.fence "default", .produceIdempotent ⟨0⟩ "key" "second"] := by
  intro fencedOut
  exact not_refuses _ _ _ _ (fencedOut [] (.fence "default") [] ⟨0⟩ "key" "second" [] rfl (Or.inr rfl))

end Fencing

end BankingLedger
