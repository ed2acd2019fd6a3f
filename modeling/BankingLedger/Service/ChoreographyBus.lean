import BankingLedger.Domain.Journal
import BankingLedger.Shared.FiniteMap
import BankingLedger.Shared.Runs
import Mathlib.Data.Finset.Lattice.Fold
import Mathlib.Order.Lattice.Nat

set_option autoImplicit false

namespace BankingLedger

open FiniteMap

structure BusEvent where
  eventType : String
  payload : String
  producedBy : String
  timestamp : Timestamp
deriving DecidableEq, Repr

-- A handler reads and writes a world of its own, so its answer may differ from call to call.
structure Subscriber (W : Type) where
  service : String
  handler : String → W → Except String String × W

abbrev Subscriptions (W : Type) : Type := Map String (List (Subscriber W))

structure Publication (W : Type) where
  eventType : String
  notified : List (Subscriber W)

structure EventBus (W : Type) where
  subscribers : Subscriptions W
  history : List BusEvent

/-- What a call of `publish` returns and leaves, with all calls made on the way, itself first. -/
structure Published (W : Type) where
  bus : EventBus W
  world : W
  outputEvents : List BusEvent
  publications : List (Publication W)

variable {W : Type}

def Subscriptions.to (subscriptions : Subscriptions W) (eventType : String) : List (Subscriber W) :=
  (subscriptions.lookup eventType).getD []

-- `entry(event_type).or_default().push(..)`
def Subscriptions.push (subscriptions : Subscriptions W) (eventType : String)
    (subscriber : Subscriber W) : Subscriptions W :=
  subscriptions.insert eventType (subscriptions.to eventType ++ [subscriber])

def Subscriptions.longest (subscriptions : Subscriptions W) : Nat := subscriptions.keys.sup String.length

-- The event that the answer of a handler is published as.
def emitted (eventType payload : String) : Except String String → String × String
  | .ok newPayload => (eventType ++ "_SUCCESS", newPayload)
  | .error err =>
    (eventType ++ "_FAILED", "\x7b\"error\":\"" ++ err ++ "\",\"original\":" ++ payload ++ "\x7d")

def Published.followedBy (sub : Published W) (result : Except String String) (rest : Published W) :
    Published W :=
  { rest with
    outputEvents :=
      (match result with
        | .ok _ => sub.outputEvents
        | .error _ => []) ++ rest.outputEvents
    publications := sub.publications ++ rest.publications }

namespace EventBus

def new : EventBus W := { subscribers := ∅, history := [] }

def subscribe (service eventType : String) (handler : String → W → Except String String × W)
    (bus : EventBus W) : EventBus W :=
  { bus with subscribers := bus.subscribers.push eventType { service, handler } }

-- `clock n` is the time that is read for the event at position `n` of the history.
def record (clock : Nat → Timestamp) (eventType payload source : String) (bus : EventBus W) :
    EventBus W :=
  { bus with
    history := bus.history ++
      [{ eventType, payload, producedBy := source, timestamp := clock bus.history.length }] }

-- `handlers.remove(0)`
def takeFirst (eventType : String) (bus : EventBus W) : Option (Subscriber W × EventBus W) :=
  match bus.subscribers.lookup eventType with
  | none => none
  | some [] => none
  | some (first :: rest) =>
    some (first, { bus with subscribers := bus.subscribers.insert eventType rest })

-- The loop over the handlers; `publish` is the recursive call.
def notify (publish : String → String → String → EventBus W → W → Option (Published W))
    (eventType payload : String) :
    Nat → EventBus W → W → Option (List (Subscriber W) × Published W)
  | 0, bus, world => some ([], ⟨bus, world, [], []⟩)
  | count + 1, bus, world =>
    match bus.takeFirst eventType with
    | none => some ([], ⟨bus, world, [], []⟩)
    | some (subscriber, bus) => do
      let (result, world) := subscriber.handler payload world
      let event := emitted eventType payload result
      let sub ← publish event.1 event.2 subscriber.service bus world
      let (notified, rest) ← notify publish eventType payload count sub.bus sub.world
      return (subscriber :: notified, sub.followedBy result rest)

/-- `none` where the fuel runs out. -/
def publishFuel (clock : Nat → Timestamp) :
    Nat → String → String → String → EventBus W → W → Option (Published W)
  | 0, _, _, _, _, _ => none
  | fuel + 1, eventType, payload, source, bus, world => do
    let bus := bus.record clock eventType payload source
    let handlerCount := (bus.subscribers.to eventType).length
    let (notified, done) ← notify (publishFuel clock fuel) eventType payload handlerCount bus world
    return { done with publications := { eventType, notified } :: done.publications }

end EventBus

section Table

variable {subscriptions : Subscriptions W} {eventType other : String}

@[simp] theorem Subscriptions.to_insert {subscribers : List (Subscriber W)} :
    Subscriptions.to (subscriptions.insert eventType subscribers) other =
      if other = eventType then subscribers else subscriptions.to other := by
  simp only [Subscriptions.to, lookup_insert_eq]
  split <;> rfl

@[simp] theorem Subscriptions.to_push {subscriber : Subscriber W} :
    (subscriptions.push eventType subscriber).to other =
      subscriptions.to other ++ if other = eventType then [subscriber] else [] := by
  rw [Subscriptions.push, Subscriptions.to_insert]
  split
  next same => rw [same]
  next => simp

theorem Subscriptions.mem_keys (subscribed : subscriptions.to eventType ≠ []) :
    eventType ∈ subscriptions.keys := by
  rw [mem_keys_iff]
  by_contra absent
  rw [Option.not_isSome_iff_eq_none] at absent
  simp [Subscriptions.to, absent] at subscribed

theorem Subscriptions.length_le_longest (subscribed : subscriptions.to eventType ≠ []) :
    eventType.length ≤ subscriptions.longest :=
  Finset.le_sup (f := String.length) (Subscriptions.mem_keys subscribed)

theorem lt_length_emitted (eventType payload : String) (result : Except String String) :
    eventType.length < (emitted eventType payload result).1.length := by
  have success : "_SUCCESS".length = 8 := rfl
  have failed : "_FAILED".length = 7 := rfl
  cases result <;> simp only [emitted, String.length_append] <;> omega

theorem EventBus.takeFirst_of_nil {bus : EventBus W} (none : bus.subscribers.to eventType = []) :
    bus.takeFirst eventType = Option.none := by
  unfold EventBus.takeFirst
  cases found : bus.subscribers.lookup eventType with
  | none => rfl
  | some subscribers =>
    have empty : subscribers = [] := by simpa [Subscriptions.to, found] using none
    rw [empty]

theorem EventBus.takeFirst_of_cons {bus : EventBus W} {first : Subscriber W} {rest : List (Subscriber W)}
    (some : bus.subscribers.to eventType = first :: rest) :
    bus.takeFirst eventType =
      Option.some (first, { bus with subscribers := bus.subscribers.insert eventType rest }) := by
  unfold EventBus.takeFirst
  cases found : bus.subscribers.lookup eventType with
  | none => simp [Subscriptions.to, found] at some
  | some subscribers =>
    have listed : subscribers = first :: rest := by simpa [Subscriptions.to, found] using some
    rw [listed]

end Table

section Steps

variable {publish : String → String → String → EventBus W → W → Option (Published W)}
  {eventType payload : String} {bus : EventBus W} {world : W} {count : Nat}

theorem notify_of_nil (none : bus.subscribers.to eventType = []) :
    EventBus.notify publish eventType payload count bus world = some ([], ⟨bus, world, [], []⟩) := by
  cases count with
  | zero => rfl
  | succ count => simp [EventBus.notify, EventBus.takeFirst_of_nil none]

theorem notify_of_cons {subscriber : Subscriber W} {rest : List (Subscriber W)}
    (subscribed : bus.subscribers.to eventType = subscriber :: rest) :
    EventBus.notify publish eventType payload (count + 1) bus world =
      let answered := subscriber.handler payload world
      let event := emitted eventType payload answered.1
      (publish event.1 event.2 subscriber.service
        { bus with subscribers := bus.subscribers.insert eventType rest } answered.2).bind fun sub =>
          (EventBus.notify publish eventType payload count sub.bus sub.world).map fun others =>
            (subscriber :: others.1, sub.followedBy answered.1 others.2) := by
  simp only [EventBus.notify, EventBus.takeFirst_of_cons subscribed, Option.bind_eq_bind]
  congr 1
  funext sub
  cases EventBus.notify publish eventType payload count sub.bus sub.world <;> rfl

theorem publishFuel_succ (clock : Nat → Timestamp) (fuel : Nat) (source : String) :
    EventBus.publishFuel clock (fuel + 1) eventType payload source bus world =
      (EventBus.notify (EventBus.publishFuel clock fuel) eventType payload
        (bus.subscribers.to eventType).length (bus.record clock eventType payload source) world).map
          fun done => { done.2 with publications := ⟨eventType, done.1⟩ :: done.2.publications } := by
  have table : (bus.record clock eventType payload source).subscribers = bus.subscribers := rfl
  simp only [EventBus.publishFuel, table, Option.bind_eq_bind]
  cases EventBus.notify (EventBus.publishFuel clock fuel) eventType payload
    (bus.subscribers.to eventType).length (bus.record clock eventType payload source) world <;> rfl

end Steps

section Ends

variable {eventType : String} {before after later : Subscriptions W} {bound fuel : Nat}

-- No one has subscribed to an event type longer than `bound`.
def Subscriptions.Within (bound : Nat) (subscriptions : Subscriptions W) : Prop :=
  ∀ t, subscriptions.to t ≠ [] → t.length ≤ bound

structure Takes (eventType : String) (before after : Subscriptions W) : Prop where
  suffix : ∀ t, after.to t <:+ before.to t
  others : ∀ t, t.length ≤ eventType.length → t ≠ eventType → after.to t = before.to t

theorem Takes.refl : Takes eventType before before :=
  ⟨fun _ => List.suffix_refl _, fun _ _ _ => rfl⟩

theorem Takes.trans (first : Takes eventType before after) (second : Takes eventType after later) :
    Takes eventType before later where
  suffix t := (second.suffix t).trans (first.suffix t)
  others t short other := (second.others t short other).trans (first.others t short other)

theorem Takes.within (takes : Takes eventType before after) (within : before.Within bound) :
    after.Within bound := by
  intro t some
  apply within t
  intro none
  have suffix := takes.suffix t
  rw [none, List.suffix_nil] at suffix
  exact some suffix

theorem Takes.of_longer {longer : String} (takes : Takes longer before after)
    (long : eventType.length < longer.length) :
    Takes eventType before after ∧ after.to eventType = before.to eventType := by
  have shorter : ∀ t, t.length ≤ eventType.length → after.to t = before.to t := by
    intro t short
    apply takes.others t (by omega)
    rintro rfl
    omega
  exact ⟨⟨takes.suffix, fun t short _ => shorter t short⟩, shorter eventType (Nat.le_refl _)⟩

theorem Takes.tail {first : Subscriber W} {rest : List (Subscriber W)}
    (subscribed : before.to eventType = first :: rest) :
    Takes eventType before (before.insert eventType rest) where
  suffix t := by
    rw [Subscriptions.to_insert]
    split
    next same => rw [same, subscribed]; exact List.suffix_cons first rest
    next => exact List.suffix_refl _
  others t _ other := by simp [other]

def Returns (bound least : Nat)
    (publish : String → String → String → EventBus W → W → Option (Published W)) : Prop :=
  ∀ t payload source (bus : EventBus W) world, least ≤ t.length → bus.subscribers.Within bound →
    ∃ done, publish t payload source bus world = some done ∧
      Takes t bus.subscribers done.bus.subscribers

theorem notify_returns {publish : String → String → String → EventBus W → W → Option (Published W)}
    (returns : eventType.length ≤ bound → Returns bound (eventType.length + 1) publish)
    (payload : String) (count : Nat) (bus : EventBus W) (world : W)
    (within : bus.subscribers.Within bound) :
    ∃ notified done, EventBus.notify publish eventType payload count bus world = some (notified, done) ∧
      Takes eventType bus.subscribers done.bus.subscribers ∧ notified.length ≤ count := by
  induction count generalizing bus world with
  | zero => exact ⟨[], ⟨bus, world, [], []⟩, rfl, .refl, by simp⟩
  | succ count ih =>
    cases subscribed : bus.subscribers.to eventType with
    | nil => exact ⟨[], ⟨bus, world, [], []⟩, notify_of_nil subscribed, .refl, by simp⟩
    | cons subscriber rest =>
      have short : eventType.length ≤ bound := within eventType (by simp [subscribed])
      have taken := Takes.tail subscribed
      have long := lt_length_emitted eventType payload (subscriber.handler payload world).1
      obtain ⟨sub, answer, takes⟩ := returns short _ (emitted eventType payload
        (subscriber.handler payload world).1).2 subscriber.service
        { bus with subscribers := bus.subscribers.insert eventType rest }
        (subscriber.handler payload world).2 long (taken.within within)
      have nested := (takes.of_longer long).1
      obtain ⟨notified, done, others, takesRest, few⟩ := ih sub.bus sub.world
        (nested.within (taken.within within))
      refine ⟨subscriber :: notified, sub.followedBy (subscriber.handler payload world).1 done, ?_,
        (taken.trans nested).trans takesRest, Nat.succ_le_succ few⟩
      simp [notify_of_cons subscribed, answer, others]

theorem publishFuel_returns (clock : Nat → Timestamp) (least : Nat) (positive : 0 < fuel)
    (enough : bound + 2 ≤ fuel + least) :
    Returns (W := W) bound least (EventBus.publishFuel clock fuel) := by
  induction fuel generalizing least with
  | zero => omega
  | succ fuel ih =>
    intro t payload source bus world long within
    have nested : t.length ≤ bound → Returns (W := W) bound (t.length + 1)
        (EventBus.publishFuel clock fuel) :=
      fun short => ih (t.length + 1) (by omega) (by omega)
    obtain ⟨notified, done, answer, takes, -⟩ := notify_returns nested payload
      (bus.subscribers.to t).length (bus.record clock t payload source) world within
    refine ⟨{ done with publications := ⟨t, notified⟩ :: done.publications }, ?_, takes⟩
    rw [publishFuel_succ, answer]
    rfl

theorem Subscriptions.within_longest (subscriptions : Subscriptions W) :
    subscriptions.Within subscriptions.longest :=
  fun _ subscribed => Subscriptions.length_le_longest subscribed

theorem publishFuel_isSome (clock : Nat → Timestamp) (t payload source : String) (bus : EventBus W)
    (world : W) :
    (EventBus.publishFuel clock (bus.subscribers.longest + 2) t payload source bus world).isSome := by
  obtain ⟨done, answer, -⟩ := publishFuel_returns clock 0 (Nat.succ_pos _) (Nat.le_refl _)
    t payload source bus world (Nat.zero_le _) bus.subscribers.within_longest
  rw [answer]
  rfl

end Ends

def EventBus.publish (clock : Nat → Timestamp) (eventType payload source : String) (bus : EventBus W)
    (world : W) : Published W :=
  (EventBus.publishFuel clock (bus.subscribers.longest + 2) eventType payload source bus world).get
    (publishFuel_isSome clock eventType payload source bus world)

end BankingLedger
