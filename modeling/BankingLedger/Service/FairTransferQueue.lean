import BankingLedger.Domain.Account
import BankingLedger.Shared.Monitor
import BankingLedger.Shared.Runs
import Mathlib.Algebra.Ring.Nat

set_option autoImplicit false

namespace BankingLedger

open Monitor Runs

namespace FairTransferQueue

structure TransferRequest where
  fromAccount : Uuid
  toAccount : Uuid
  amountCents : Int64
deriving DecidableEq, Repr

end FairTransferQueue

structure FairTransferQueue where
  queue : List FairTransferQueue.TransferRequest
deriving DecidableEq, Repr

namespace FairTransferQueue

inductive Call where
  | enqueue (request : TransferRequest)
  | dequeueWait
deriving DecidableEq, Repr

inductive Reply where
  | enqueued
  | dequeued (request : TransferRequest)
deriving DecidableEq, Repr

abbrev QueueTurn : Type := Monitor.Turn FairTransferQueue Unit Reply

def new : FairTransferQueue := { queue := [] }

def enqueue (request : TransferRequest) (q : FairTransferQueue) : QueueTurn :=
  .returns { queue := q.queue ++ [request] } .one .enqueued

def dequeueWait (q : FairTransferQueue) : QueueTurn :=
  match q.queue with
  | [] => .waits ()
  | request :: rest => .returns { queue := rest } .quiet (.dequeued request)

def enter (q : FairTransferQueue) : Call → QueueTurn
  | .enqueue request => q.enqueue request
  | .dequeueWait => q.dequeueWait

def waiting (q : FairTransferQueue) : Nat := q.queue.length

def Reply.handedOut : Option Reply → List TransferRequest
  | some (.dequeued request) => [request]
  | some .enqueued | none => []

end FairTransferQueue

open FairTransferQueue

def fairQueue : System FairTransferQueue FairTransferQueue.Call Unit FairTransferQueue.Reply where
  enter := FairTransferQueue.enter
  recheck q _ := q.dequeueWait

namespace FairTransferQueue

abbrev QueueThreads : Type := Threads FairTransferQueue Unit
abbrev QueueEvent : Type := Monitor.Event Call Unit

def QueueEvent.enqueues : QueueEvent → List TransferRequest
  | .call (.enqueue request) _ => [request]
  | .call .dequeueWait _ | .resume _ _ | .spurious _ => []

def QueueEvent.dequeues : QueueEvent → Nat
  | .call .dequeueWait _ => 1
  | .call (.enqueue _) _ | .resume _ _ | .spurious _ => 0

def putIn (events : List QueueEvent) : List TransferRequest := events.flatMap QueueEvent.enqueues

def dequeueCalls (events : List QueueEvent) : Nat := (events.map QueueEvent.dequeues).sum

def handedOut (t : QueueThreads) (events : List QueueEvent) : List TransferRequest :=
  (outputs (fun t e => (fairQueue.reply t e, fairQueue.next t e)) t events).flatMap Reply.handedOut

section Paced

theorem dequeueWait_waits {q : FairTransferQueue} (waits : q.dequeueWait = .waits ()) : q.waiting = 0 := by
  unfold dequeueWait at waits
  split at waits
  next empty => rw [waiting, empty, List.length_nil]
  next => cases waits

theorem dequeueWait_returns {q q' : FairTransferQueue} {signal : Signal} {reply : Reply}
    (returned : q.dequeueWait = .returns q' signal reply) :
    signal = .quiet ∧ ∃ request, reply = .dequeued request ∧ q.queue = request :: q'.queue := by
  unfold dequeueWait at returned
  split at returned
  next => cases returned
  next request rest found =>
    cases returned
    exact ⟨rfl, request, rfl, found⟩

-- Each item is announced to one waiter, and each waiter takes one.
theorem fairQueue_paced : Paced fairQueue waiting where
  enter_waits q c request waits := by
    cases c with
    | enqueue request => cases waits
    | dequeueWait => exact dequeueWait_waits waits
  enter_quiet q c q' reply returned := by
    cases c with
    | enqueue request => cases returned
    | dequeueWait =>
      obtain ⟨_, request, _, split⟩ := dequeueWait_returns returned
      rw [waiting, waiting, split, List.length_cons]
      exact Nat.le_succ _
  enter_one q c q' reply returned := by
    cases c with
    | enqueue request =>
      cases returned
      rw [waiting, waiting, List.length_append, List.length_singleton]
    | dequeueWait => cases (dequeueWait_returns returned).1
  recheck_waits q request request' waits := dequeueWait_waits waits
  recheck_quiet q request q' reply returned := by
    obtain ⟨_, request, _, split⟩ := dequeueWait_returns returned
    rw [waiting, waiting, split, List.length_cons]
    exact Nat.lt_succ_self _
  recheck_one q request q' reply returned := by cases (dequeueWait_returns returned).1

end Paced

section Steps

variable {t : QueueThreads} {e : QueueEvent}

theorem next_queue (t : QueueThreads) (e : QueueEvent) :
    Reply.handedOut (fairQueue.reply t e) ++ (fairQueue.next t e).shared.queue = t.shared.queue ++ e.enqueues := by
  have dequeued (t' : QueueThreads) (same : t'.shared = t.shared) (notified : Option Unit) :
      Reply.handedOut t.shared.dequeueWait.reply ++ (t'.settle notified t.shared.dequeueWait).shared.queue =
        t.shared.queue := by
    cases turn : t.shared.dequeueWait with
    | waits request => exact congrArg FairTransferQueue.queue same
    | returns q signal reply =>
      obtain ⟨rfl, request, rfl, split⟩ := dequeueWait_returns turn
      exact split.symm
  cases e with
  | call c notified =>
    cases c with
    | enqueue request => cases notified <;> rfl
    | dequeueWait => exact (dequeued t rfl notified).trans (List.append_nil _).symm
  | resume request notified =>
    exact (dequeued { t with woken := t.woken.erase request } rfl notified).trans (List.append_nil _).symm
  | spurious request => exact (List.append_nil _).symm

theorem next_dequeuers (possible : Possible t e) :
    (Reply.handedOut (fairQueue.reply t e)).length + (fairQueue.next t e).asleep.card +
      (fairQueue.next t e).woken.card = t.asleep.card + t.woken.card + e.dequeues := by
  have dequeued (t' : QueueThreads) (notified : Option Unit) :
      (Reply.handedOut t.shared.dequeueWait.reply).length + (t'.settle notified t.shared.dequeueWait).asleep.card +
        (t'.settle notified t.shared.dequeueWait).woken.card = t'.asleep.card + t'.woken.card + 1 := by
    cases turn : t.shared.dequeueWait with
    | waits request =>
      rw [Threads.settle_waits, Multiset.card_cons]
      change 0 + (t'.asleep.card + 1) + t'.woken.card = _
      omega
    | returns q signal reply =>
      obtain ⟨rfl, request, rfl, split⟩ := dequeueWait_returns turn
      change 1 + t'.asleep.card + t'.woken.card = _
      omega
  cases e with
  | call c notified =>
    cases c with
    | enqueue request =>
      cases notified with
      | none =>
        change 0 + t.asleep.card + t.woken.card = t.asleep.card + t.woken.card + 0
        omega
      | some waiter =>
        have fewer := Multiset.card_erase_add_one possible
        change 0 + (t.asleep.erase waiter).card + (waiter ::ₘ t.woken).card = t.asleep.card + t.woken.card + 0
        rw [Multiset.card_cons]
        omega
    | dequeueWait => exact dequeued t notified
  | resume request notified =>
    have fewer := Multiset.card_erase_add_one possible.1
    refine (dequeued _ notified).trans ?_
    change t.asleep.card + (t.woken.erase request).card + 1 = t.asleep.card + t.woken.card + 0
    omega
  | spurious request =>
    have fewer := Multiset.card_erase_add_one possible
    rw [System.next_spurious, Multiset.card_cons]
    change 0 + (t.asleep.erase request).card + (t.woken.card + 1) = t.asleep.card + t.woken.card + 0
    omega

end Steps

section Runs

theorem handedOut_cons (t : QueueThreads) (e : QueueEvent) (rest : List QueueEvent) :
    handedOut t (e :: rest) = Reply.handedOut (fairQueue.reply t e) ++ handedOut (fairQueue.next t e) rest := rfl

theorem run_queue (t : QueueThreads) (events : List QueueEvent) :
    handedOut t events ++ (run fairQueue.next t events).shared.queue = t.shared.queue ++ putIn events := by
  induction events generalizing t with
  | nil => exact (List.append_nil _).symm
  | cons e rest ih =>
    have first := next_queue t e
    rw [handedOut_cons, run_cons, List.append_assoc, ih, ← List.append_assoc, first, putIn, putIn,
      List.flatMap_cons, List.append_assoc]

theorem run_dequeuers {t : QueueThreads} {events : List QueueEvent}
    (possible : Meets fairQueue.next Possible t events) :
    (handedOut t events).length + (run fairQueue.next t events).asleep.card +
      (run fairQueue.next t events).woken.card = t.asleep.card + t.woken.card + dequeueCalls events := by
  induction events generalizing t with
  | nil => exact Nat.add_assoc 0 _ _ ▸ Nat.zero_add _
  | cons e rest ih =>
    have first := next_dequeuers possible.1
    have later := ih possible.2
    rw [handedOut_cons, run_cons, List.length_append, dequeueCalls, List.map_cons, List.sum_cons, ← dequeueCalls]
    omega

theorem run_attended {events : List QueueEvent} (possible : Meets fairQueue.next Possible (.start new) events) :
    Attended waiting (run fairQueue.next (.start new) events) :=
  run_keeps (fun _ _ attended possible => attended.next fairQueue_paced possible) _ events possible
    (attended_start waiting new)

/-- Requests are handed out in the order in which they were put in, none twice and none left out, and when
nobody is on the way to the lock as many have been handed out as there were requests and calls to take
them: no caller is left asleep beside a request. -/
theorem fair_queue_serves (events : List QueueEvent)
    (possible : Meets fairQueue.next Possible (.start new) events) :
    let t := run fairQueue.next (.start new) events
    handedOut (.start new) events ++ t.shared.queue = putIn events ∧
      (t.Quiescent →
        (handedOut (.start new) events).length = min (putIn events).length (dequeueCalls events)) := by
  intro t
  have order := run_queue (.start new) events
  refine ⟨order, fun quiescent => ?_⟩
  have calls : (handedOut (.start new) events).length + t.asleep.card + t.woken.card =
      0 + 0 + dequeueCalls events := run_dequeuers possible
  have lengths := congrArg List.length order
  rw [List.length_append] at lengths
  change (handedOut (.start new) events).length + t.shared.waiting = (putIn events).length at lengths
  rw [quiescent, Multiset.card_zero] at calls
  by_cases asleep : t.asleep = 0
  next =>
    rw [asleep, Multiset.card_zero] at calls
    omega
  next =>
    have none : t.shared.waiting = 0 := (run_attended possible).rested quiescent asleep
    omega

namespace Sample

-- Two callers sleep, the one that is woken finds the request taken, sleeps again, and is served later.
def twoSleepers : List QueueEvent :=
  [.call .dequeueWait none, .call .dequeueWait (some ()), .call (.enqueue ⟨⟨1⟩, ⟨2⟩, 100⟩) (some ()),
    .call .dequeueWait (some ()), .resume () (some ()), .call (.enqueue ⟨⟨3⟩, ⟨4⟩, 200⟩) (some ()),
    .resume () (some ())]

end Sample

open FairTransferQueue.Sample

theorem fair_queue_serves_twoSleepers :
    handedOut (.start new) twoSleepers ++ (run fairQueue.next (.start new) twoSleepers).shared.queue =
        putIn twoSleepers ∧
      (handedOut (.start new) twoSleepers).length = min (putIn twoSleepers).length (dequeueCalls twoSleepers) :=
  have serves := fair_queue_serves twoSleepers (by decide +kernel)
  ⟨serves.1, serves.2 (by decide +kernel)⟩

end Runs

end FairTransferQueue

end BankingLedger
