import BankingLedger.Domain.Journal
import BankingLedger.Shared.FirstMatch
import BankingLedger.Shared.Runs
import Mathlib.Data.Finset.Insert

set_option autoImplicit false

namespace BankingLedger

open FirstMatch Runs

inductive OutboxStatus where
  | pending
  | published
  | failed
deriving DecidableEq, Repr

structure OutboxMessage where
  id : Uuid
  aggregateId : Uuid
  eventType : String
  payload : String
  createdAt : Timestamp
  status : OutboxStatus
  retryCount : UInt32
deriving DecidableEq

structure Outbox where
  messages : List OutboxMessage
deriving DecidableEq

namespace Outbox

def new : Outbox := { messages := [] }

def enqueue (id : Uuid) (now : Timestamp) (aggregateId : Uuid) (eventType payload : String)
    (outbox : Outbox) : Outbox where
  messages := outbox.messages ++ [{
    id := id
    aggregateId := aggregateId
    eventType := eventType
    payload := payload
    createdAt := now
    status := .pending
    retryCount := 0 }]

def pendingMessages (outbox : Outbox) : List OutboxMessage :=
  outbox.messages.filter fun m => m.status = .pending

def markPublished (messageId : Uuid) (outbox : Outbox) : Outbox where
  messages := updateFirst (fun m => m.id = messageId)
    (fun msg => { msg with status := .published }) outbox.messages

-- The count wraps in a release build, a debug build panics there.
def markFailed (messageId : Uuid) (outbox : Outbox) : Outbox where
  messages := updateFirst (fun m => m.id = messageId)
    (fun msg => { msg with status := .failed, retryCount := msg.retryCount + 1 }) outbox.messages

def retryable (outbox : Outbox) (maxRetries : UInt32) : List OutboxMessage :=
  outbox.messages.filter fun m => m.status = .failed ∧ m.retryCount < maxRetries

def ids (outbox : Outbox) : List Uuid := outbox.messages.map OutboxMessage.id

end Outbox

inductive OutboxCall where
  | enqueue (id : Uuid) (now : Timestamp) (aggregateId : Uuid) (eventType payload : String)
  | markPublished (messageId : Uuid)
  | markFailed (messageId : Uuid)

structure OutboxRun where
  outbox : Outbox
  published : Finset Uuid
  failures : Uuid → Nat

namespace OutboxRun

def start : OutboxRun := { outbox := .new, published := ∅, failures := fun _ => 0 }

def step (s : OutboxRun) : OutboxCall → OutboxRun
  | .enqueue id now aggregateId eventType payload =>
    { s with outbox := s.outbox.enqueue id now aggregateId eventType payload }
  | .markPublished messageId =>
    { s with
      outbox := s.outbox.markPublished messageId
      published := insert messageId s.published }
  | .markFailed messageId =>
    { s with
      outbox := s.outbox.markFailed messageId
      failures := Function.update s.failures messageId (s.failures messageId + 1) }

def Fresh (s : OutboxRun) : OutboxCall → Prop
  | .enqueue id _ _ _ _ => id ∉ s.outbox.ids ∧ id ∉ s.published ∧ s.failures id = 0
  | _ => True

/-- A published message is never offered again, any other is pending or retryable as long as it
has not failed too often. -/
structure Delivering (s : OutboxRun) : Prop where
  published : ∀ id ∈ s.published, (∀ m ∈ s.outbox.pendingMessages, m.id ≠ id) ∧
    ∀ maxRetries, ∀ m ∈ s.outbox.retryable maxRetries, m.id ≠ id
  unpublished : ∀ msg ∈ s.outbox.messages, msg.id ∉ s.published → ∀ maxRetries : UInt32,
    s.failures msg.id < maxRetries.toNat →
      Xor (msg ∈ s.outbox.pendingMessages) (msg ∈ s.outbox.retryable maxRetries)

/-- A failure does not reach a message after its publication, or it brings the count of the
message to its largest value. -/
def InTime (s : OutboxRun) : OutboxCall → Prop
  | .markFailed messageId => messageId ∈ s.published →
    ∀ msg ∈ s.outbox.messages, msg.id = messageId → msg.retryCount.toNat + 2 = UInt32.size
  | _ => True

/-- What the status and the count of a message say about the calls so far. -/
structure Recorded (s : OutboxRun) : Prop where
  distinct : s.outbox.ids.Nodup
  unpublished : ∀ msg ∈ s.outbox.messages, msg.id ∉ s.published →
    msg.status = (if s.failures msg.id = 0 then .pending else .failed) ∧
      msg.retryCount.toNat = s.failures msg.id % UInt32.size
  published : ∀ msg ∈ s.outbox.messages, msg.id ∈ s.published → msg.status ≠ .pending

variable {s : OutboxRun} {call : OutboxCall} {messageId : Uuid}

theorem recorded_start : Recorded start where
  distinct := by simp [start, Outbox.new, Outbox.ids]
  unpublished := by simp [start, Outbox.new]
  published := by simp [start, Outbox.new]

section Steps

theorem messages_markPublished (distinct : s.outbox.ids.Nodup) :
    (s.step (.markPublished messageId)).outbox.messages = s.outbox.messages.map fun msg =>
      if msg.id = messageId then { msg with status := .published } else msg :=
  updateFirst_eq_map distinct messageId

theorem messages_markFailed (distinct : s.outbox.ids.Nodup) :
    (s.step (.markFailed messageId)).outbox.messages = s.outbox.messages.map fun msg =>
      if msg.id = messageId then { msg with status := .failed, retryCount := msg.retryCount + 1 }
      else msg :=
  updateFirst_eq_map distinct messageId

theorem ids_step : (s.step call).outbox.ids =
    s.outbox.ids ++ match call with
      | .enqueue id .. => [id]
      | _ => [] := by
  cases call with
  | enqueue id now aggregateId eventType payload => simp [step, Outbox.ids, Outbox.enqueue]
  | markPublished messageId =>
    simp only [step, Outbox.ids, Outbox.markPublished, List.append_nil]
    apply map_updateFirst
    simp
  | markFailed messageId =>
    simp only [step, Outbox.ids, Outbox.markFailed, List.append_nil]
    apply map_updateFirst
    simp

theorem toNat_add_one (count : UInt32) : (count + 1).toNat = (count.toNat + 1) % UInt32.size := by
  simp [UInt32.toNat_add]

theorem Recorded.step (recorded : Recorded s) (fresh : s.Fresh call) : Recorded (s.step call) := by
  cases call with
  | enqueue id now aggregateId eventType payload =>
    obtain ⟨new, unnamed, untried⟩ := fresh
    refine { distinct := ?_, unpublished := ?_, published := ?_ }
    next =>
      rw [ids_step, List.nodup_append_comm]
      exact List.nodup_cons.mpr ⟨new, recorded.distinct⟩
    next =>
      simp only [OutboxRun.step, Outbox.enqueue, List.forall_mem_append, List.forall_mem_singleton]
      exact ⟨recorded.unpublished, fun _ => by simp [untried]⟩
    next =>
      simp only [OutboxRun.step, Outbox.enqueue, List.forall_mem_append, List.forall_mem_singleton]
      exact ⟨recorded.published, fun named => absurd named unnamed⟩
  | markPublished messageId =>
    refine { distinct := ?_, unpublished := ?_, published := ?_ }
    next => simpa [ids_step] using recorded.distinct
    next =>
      rw [messages_markPublished recorded.distinct, List.forall_mem_map]
      intro msg member
      by_cases here : msg.id = messageId
      next => simp [OutboxRun.step, here]
      next => simpa [OutboxRun.step, here] using recorded.unpublished msg member
    next =>
      rw [messages_markPublished recorded.distinct, List.forall_mem_map]
      intro msg member
      by_cases here : msg.id = messageId
      next => simp [here]
      next => simpa [OutboxRun.step, here] using recorded.published msg member
  | markFailed messageId =>
    refine { distinct := ?_, unpublished := ?_, published := ?_ }
    next => simpa [ids_step] using recorded.distinct
    next =>
      rw [messages_markFailed recorded.distinct, List.forall_mem_map]
      intro msg member
      by_cases here : msg.id = messageId
      next =>
        subst here
        intro unpublished
        have counted := (recorded.unpublished msg member (by simpa [OutboxRun.step] using unpublished)).2
        simp only [if_true, OutboxRun.step, Function.update_self, toNat_add_one, counted]
        simp
      next => simpa [OutboxRun.step, here] using recorded.unpublished msg member
    next =>
      rw [messages_markFailed recorded.distinct, List.forall_mem_map]
      intro msg member
      by_cases here : msg.id = messageId
      next => simp [here]
      next => simpa [OutboxRun.step, here] using recorded.published msg member

end Steps

def Quiet (s : OutboxRun) : Prop :=
  ∀ msg ∈ s.outbox.messages, msg.id ∈ s.published → msg.status = .failed →
    msg.retryCount.toNat + 1 = UInt32.size

theorem exists_above_iff (count : UInt32) :
    (∃ maxRetries, count < maxRetries) ↔ count.toNat + 1 ≠ UInt32.size := by
  constructor
  case mp =>
    rintro ⟨maxRetries, less⟩
    have bound := maxRetries.toNat_lt_size
    have less : count.toNat < maxRetries.toNat := UInt32.lt_iff_toNat_lt.mp less
    omega
  case mpr =>
    intro small
    have bound := count.toNat_lt_size
    have room : (count.toNat + 1) % UInt32.size = count.toNat + 1 := Nat.mod_eq_of_lt (by omega)
    refine ⟨count + 1, UInt32.lt_iff_toNat_lt.mpr ?_⟩
    rw [toNat_add_one, room]
    exact Nat.lt_succ_self _

theorem Recorded.unpublished_offered (recorded : Recorded s) {msg : OutboxMessage}
    (member : msg ∈ s.outbox.messages) (unpublished : msg.id ∉ s.published) {maxRetries : UInt32}
    (few : s.failures msg.id < maxRetries.toNat) :
    Xor (msg ∈ s.outbox.pendingMessages) (msg ∈ s.outbox.retryable maxRetries) := by
  obtain ⟨status, count⟩ := recorded.unpublished msg member unpublished
  simp only [Outbox.pendingMessages, Outbox.retryable, List.mem_filter, member, true_and,
    decide_eq_true_eq]
  by_cases untried : s.failures msg.id = 0
  next => simp [status, untried, Xor]
  next =>
    have bound := maxRetries.toNat_lt_size
    have exactly : msg.retryCount.toNat = s.failures msg.id := by
      rw [count]
      exact Nat.mod_eq_of_lt (by omega)
    simp [status, untried, Xor, UInt32.lt_iff_toNat_lt, exactly, few]

theorem Recorded.delivering_iff (recorded : Recorded s) : s.Delivering ↔ s.Quiet := by
  constructor
  case mp =>
    intro delivering msg member published failed
    by_contra small
    obtain ⟨maxRetries, less⟩ := (exists_above_iff msg.retryCount).mpr small
    have offered : msg ∈ s.outbox.retryable maxRetries := by
      simp [Outbox.retryable, member, failed, less]
    exact (delivering.published msg.id published).2 maxRetries msg offered rfl
  case mpr =>
    intro quiet
    refine { published := ?_, unpublished := ?_ }
    next =>
      intro id published
      constructor
      next =>
        intro m pending same
        simp only [Outbox.pendingMessages, List.mem_filter, decide_eq_true_eq] at pending
        exact recorded.published m pending.1 (same ▸ published) pending.2
      next =>
        intro maxRetries m offered same
        simp only [Outbox.retryable, List.mem_filter, decide_eq_true_eq] at offered
        obtain ⟨member, failed, less⟩ := offered
        exact (exists_above_iff m.retryCount).mp ⟨maxRetries, less⟩
          (quiet m member (same ▸ published) failed)
    next => exact fun msg member unpublished maxRetries few => recorded.unpublished_offered member unpublished few

theorem Recorded.quiet_step_iff (recorded : Recorded s) (fresh : s.Fresh call) (quiet : s.Quiet) :
    (s.step call).Quiet ↔ s.InTime call := by
  cases call with
  | enqueue id now aggregateId eventType payload =>
    simp only [Quiet, OutboxRun.step, Outbox.enqueue, List.forall_mem_append, List.forall_mem_singleton,
      InTime, iff_true]
    exact ⟨quiet, fun named => absurd named fresh.2.1⟩
  | markPublished messageId =>
    simp only [InTime, iff_true]
    rw [Quiet, messages_markPublished recorded.distinct, List.forall_mem_map]
    intro msg member
    by_cases here : msg.id = messageId
    next => simp [here]
    next => simpa [OutboxRun.step, here] using quiet msg member
  | markFailed messageId =>
    rw [Quiet, messages_markFailed recorded.distinct, List.forall_mem_map]
    simp only [InTime, OutboxRun.step]
    constructor
    case mp =>
      intro still published msg member here
      have full := still msg member
      simp only [here, if_true, published, toNat_add_one, forall_const] at full
      have bound := msg.retryCount.toNat_lt_size
      by_cases last : msg.retryCount.toNat + 1 = UInt32.size
      next => simp [last, UInt32.size] at full
      next =>
        rw [Nat.mod_eq_of_lt (by omega)] at full
        omega
    case mpr =>
      intro inTime msg member
      by_cases here : msg.id = messageId
      next =>
        simp only [here, if_true, toNat_add_one]
        intro published _
        have last := inTime published msg member here
        rw [Nat.mod_eq_of_lt (by omega)]
        omega
      next => simpa [here] using quiet msg member

/-- An outbox keeps its promise in every state of a run exactly if no failure arrives too late. -/
theorem published_stay_published_iff {calls : List OutboxCall} (fresh : Meets step Fresh start calls) :
    Throughout step Delivering start calls ↔ Meets step InTime start calls := by
  have promise : start.Delivering := by
    rw [recorded_start.delivering_iff]
    simp [Quiet, start, Outbox.new]
  have exactly : ∀ s call, Recorded s → s.Fresh call → s.Delivering →
      ((s.step call).Delivering ↔ s.InTime call) := by
    intro s call recorded fresh delivering
    rw [(recorded.step fresh).delivering_iff]
    exact recorded.quiet_step_iff fresh (recorded.delivering_iff.mp delivering)
  have keep : ∀ s call, Recorded s → s.Fresh call → s.Delivering → s.InTime call →
      Recorded (s.step call) := fun s call recorded fresh _ _ => recorded.step fresh
  exact throughout_iff_meets_of_allowed exactly keep fresh recorded_start promise

private def enqueued : OutboxCall := .enqueue ⟨1⟩ ⟨0⟩ ⟨2⟩ "FundsTransferred" "{}"

theorem published_stay_published_iff_retried :
    Throughout step Delivering start [enqueued, .markFailed ⟨1⟩, .markPublished ⟨1⟩] := by
  have fresh : Meets step Fresh start [enqueued, .markFailed ⟨1⟩, .markPublished ⟨1⟩] :=
    ⟨by simp [enqueued, Fresh, start, Outbox.new, Outbox.ids], trivial, trivial, trivial⟩
  refine (published_stay_published_iff fresh).mpr ⟨trivial, ?_, trivial, trivial⟩
  intro published
  simp [step, enqueued, start] at published

-- The failure of an earlier attempt arrives after the publication.
theorem late_failure_reoffered :
    Meets step Fresh start [enqueued, .markPublished ⟨1⟩, .markFailed ⟨1⟩] ∧
      ¬Throughout step Delivering start [enqueued, .markPublished ⟨1⟩, .markFailed ⟨1⟩] := by
  constructor
  next => exact ⟨by simp [enqueued, Fresh, start, Outbox.new, Outbox.ids], trivial, trivial, trivial⟩
  next =>
    intro all
    have final := all _ [] (List.append_nil _).symm
    have offered : ∃ m ∈ (run step start [enqueued, .markPublished ⟨1⟩, .markFailed ⟨1⟩]).outbox.retryable 2,
        m.id = ⟨1⟩ := by decide
    obtain ⟨m, member, same⟩ := offered
    exact (final.published ⟨1⟩ (by decide)).2 2 m member same

end OutboxRun

end BankingLedger
