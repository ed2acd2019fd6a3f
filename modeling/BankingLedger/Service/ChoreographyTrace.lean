import BankingLedger.Service.ChoreographyBus

set_option autoImplicit false

namespace BankingLedger

open FiniteMap

variable {W : Type}

/-- A handler is called with a payload, in the world it finds. -/
structure NotifiedHandler (W : Type) where
  subscriber : Subscriber W
  eventType : String
  payload : String
  world : W

def NotifiedHandler.answer (call : NotifiedHandler W) : Except String String × W :=
  call.subscriber.handler call.payload call.world

structure Announcement where
  eventType : String
  payload : String
  producedBy : String
deriving DecidableEq, Repr

def BusEvent.announcement (event : BusEvent) : Announcement :=
  ⟨event.eventType, event.payload, event.producedBy⟩

def NotifiedHandler.announcement (call : NotifiedHandler W) : Announcement :=
  let event := emitted call.eventType call.payload call.answer.1
  ⟨event.1, event.2, call.subscriber.service⟩

def notifyTraced
    (publish : String → String → String → EventBus W → W → Option (Published W × List (NotifiedHandler W)))
    (eventType payload : String) :
    Nat → EventBus W → W → Option ((List (Subscriber W) × Published W) × List (NotifiedHandler W))
  | 0, bus, world => some (([], ⟨bus, world, [], []⟩), [])
  | count + 1, bus, world =>
    match bus.takeFirst eventType with
    | none => some (([], ⟨bus, world, [], []⟩), [])
    | some (subscriber, bus) => do
      let call : NotifiedHandler W := { subscriber, eventType, payload, world }
      let (result, world) := call.answer
      let event := emitted eventType payload result
      let (sub, nested) ← publish event.1 event.2 subscriber.service bus world
      let ((notified, rest), later) ← notifyTraced publish eventType payload count sub.bus sub.world
      return ((subscriber :: notified, sub.followedBy result rest), call :: (nested ++ later))

def publishTraced (clock : Nat → Timestamp) :
    Nat → String → String → String → EventBus W → W → Option (Published W × List (NotifiedHandler W))
  | 0, _, _, _, _, _ => none
  | fuel + 1, eventType, payload, source, bus, world => do
    let bus := bus.record clock eventType payload source
    let handlerCount := (bus.subscribers.to eventType).length
    let ((notified, done), calls) ← notifyTraced (publishTraced clock fuel) eventType payload handlerCount bus world
    return ({ done with publications := { eventType, notified } :: done.publications }, calls)

section Erasure

theorem notifyTraced_erases
    {publish : String → String → String → EventBus W → W → Option (Published W × List (NotifiedHandler W))}
    {plain : String → String → String → EventBus W → W → Option (Published W)}
    (erases : ∀ t p s bus world, (publish t p s bus world).map Prod.fst = plain t p s bus world)
    (eventType payload : String) (count : Nat) (bus : EventBus W) (world : W) :
    (notifyTraced publish eventType payload count bus world).map Prod.fst =
      EventBus.notify plain eventType payload count bus world := by
  induction count generalizing bus world with
  | zero => rfl
  | succ count ih =>
    unfold notifyTraced EventBus.notify
    cases bus.takeFirst eventType with
    | none => rfl
    | some taken =>
      obtain ⟨subscriber, bus⟩ := taken
      simp only [NotifiedHandler.answer, Option.bind_eq_bind, ← erases]
      cases publish _ _ subscriber.service bus _ with
      | none => rfl
      | some answer =>
        obtain ⟨sub, nested⟩ := answer
        simp only [Option.bind_some, Option.map_some, ← ih]
        cases notifyTraced publish eventType payload count sub.bus sub.world <;> rfl

theorem publishTraced_erases (clock : Nat → Timestamp) (fuel : Nat) (t p s : String) (bus : EventBus W)
    (world : W) :
    (publishTraced clock fuel t p s bus world).map Prod.fst =
      EventBus.publishFuel clock fuel t p s bus world := by
  induction fuel generalizing t p s bus world with
  | zero => rfl
  | succ fuel ih =>
    unfold publishTraced EventBus.publishFuel
    simp only [Option.bind_eq_bind, ← notifyTraced_erases ih]
    cases notifyTraced (publishTraced clock fuel) t p _ _ world <;> rfl

end Erasure

def Subscriptions.registered (subscriptions : Subscriptions W) : Nat :=
  ∑ t ∈ subscriptions.keys, (subscriptions.to t).length

theorem Subscriptions.registered_insert {subscriptions : Subscriptions W} {eventType : String}
    {first : Subscriber W} {rest : List (Subscriber W)}
    (subscribed : subscriptions.to eventType = first :: rest) :
    Subscriptions.registered (subscriptions.insert eventType rest) + 1 = subscriptions.registered := by
  have member : eventType ∈ subscriptions.keys :=
    Subscriptions.mem_keys (by rw [subscribed]; exact List.cons_ne_nil first rest)
  have keys : Finmap.keys (subscriptions.insert eventType rest) = subscriptions.keys := by
    rw [keys_insert, Finset.insert_eq_of_mem member]
  have others : ∑ t ∈ subscriptions.keys.erase eventType,
      (Subscriptions.to (subscriptions.insert eventType rest) t).length =
        ∑ t ∈ subscriptions.keys.erase eventType, (subscriptions.to t).length := by
    apply Finset.sum_congr rfl
    intro t other
    rw [Subscriptions.to_insert, if_neg (Finset.ne_of_mem_erase other)]
  rw [Subscriptions.registered, Subscriptions.registered, keys, ← Finset.add_sum_erase _ _ member,
    ← Finset.add_sum_erase _ _ member, others, Subscriptions.to_insert, if_pos rfl, subscribed,
    List.length_cons]
  omega

structure CallsRecorded (bus bus' : EventBus W) (own : List Announcement) (calls : List (NotifiedHandler W)) :
    Prop where
  registered : calls.length + bus'.subscribers.registered = bus.subscribers.registered
  history : ∃ events, bus'.history = bus.history ++ events ∧
    events.map BusEvent.announcement = own ++ calls.map NotifiedHandler.announcement

section Accounting

variable {bus bus' bus'' : EventBus W}

theorem CallsRecorded.refl : CallsRecorded bus bus [] [] where
  registered := Nat.zero_add _
  history := ⟨[], by simp⟩

theorem CallsRecorded.trans {calls later : List (NotifiedHandler W)} {own : List Announcement}
    (first : CallsRecorded bus bus' own calls) (second : CallsRecorded bus' bus'' [] later) :
    CallsRecorded bus bus'' own (calls ++ later) where
  registered := by
    have spent := first.registered
    have spentLater := second.registered
    rw [List.length_append]
    omega
  history := by
    obtain ⟨events, appended, announced⟩ := first.history
    obtain ⟨others, appendedLater, announcedLater⟩ := second.history
    refine ⟨events ++ others, by rw [appendedLater, appended, List.append_assoc], ?_⟩
    rw [List.map_append, announced, announcedLater, List.map_append, List.nil_append, List.append_assoc]

-- A subscriber is taken off, called, and what it answers is published.
theorem CallsRecorded.call {call : NotifiedHandler W} {rest : List (Subscriber W)} {nested : List (NotifiedHandler W)}
    (subscribed : bus.subscribers.to call.eventType = call.subscriber :: rest)
    (published : CallsRecorded { bus with subscribers := bus.subscribers.insert call.eventType rest } bus'
      [call.announcement] nested) : CallsRecorded bus bus' [] (call :: nested) where
  registered := by
    have spent := published.registered
    have taken := Subscriptions.registered_insert subscribed
    rw [List.length_cons]
    simp only at spent
    omega
  history := published.history

theorem notifyTraced_accounts
    {publish : String → String → String → EventBus W → W → Option (Published W × List (NotifiedHandler W))}
    (accounts : ∀ t p s (bus : EventBus W) world done calls, publish t p s bus world = some (done, calls) →
      CallsRecorded bus done.bus [⟨t, p, s⟩] calls)
    {eventType payload : String} {count : Nat} {world : W} {notified : List (Subscriber W)}
    {done : Published W} {calls : List (NotifiedHandler W)}
    (answered : notifyTraced publish eventType payload count bus world = some ((notified, done), calls)) :
    CallsRecorded bus done.bus [] calls := by
  induction count generalizing bus world notified done calls with
  | zero =>
    cases answered
    exact .refl
  | succ count ih =>
    cases subscribed : bus.subscribers.to eventType with
    | nil =>
      rw [notifyTraced, EventBus.takeFirst_of_nil subscribed] at answered
      cases answered
      exact .refl
    | cons subscriber rest =>
      simp only [notifyTraced, EventBus.takeFirst_of_cons subscribed, Option.bind_eq_bind,
        Option.bind_eq_some_iff, Prod.exists] at answered
      obtain ⟨sub, nested, published, others, rest', later, loop, result⟩ := answered
      cases result
      have first := accounts _ _ _ _ _ sub nested published
      let call : NotifiedHandler W := { subscriber, eventType, payload, world }
      have called : CallsRecorded bus sub.bus [] (call :: nested) := CallsRecorded.call subscribed first
      have remaining : CallsRecorded sub.bus rest'.bus [] later := ih loop
      exact called.trans remaining

theorem publishTraced_accounts (clock : Nat → Timestamp) {fuel : Nat} {t p s : String} {world : W}
    {done : Published W} {calls : List (NotifiedHandler W)}
    (answered : publishTraced clock fuel t p s bus world = some (done, calls)) :
    CallsRecorded bus done.bus [⟨t, p, s⟩] calls := by
  induction fuel generalizing t p s bus world done calls with
  | zero => cases answered
  | succ fuel ih =>
    simp only [publishTraced, Option.bind_eq_bind, Option.bind_eq_some_iff, Prod.exists] at answered
    obtain ⟨notified, inner, nested, loop, result⟩ := answered
    cases result
    have inside : CallsRecorded (bus.record clock t p s) inner.bus [] calls :=
      notifyTraced_accounts (fun _ _ _ _ _ _ _ => ih) loop
    have own : CallsRecorded bus (bus.record clock t p s) [⟨t, p, s⟩] [] :=
      ⟨Nat.zero_add _, [_], rfl, rfl⟩
    exact own.trans inside

end Accounting

theorem publishTraced_isSome (clock : Nat → Timestamp) (t p s : String) (bus : EventBus W) (world : W) :
    (publishTraced clock (bus.subscribers.longest + 2) t p s bus world).isSome := by
  have ends := publishFuel_isSome clock t p s bus world
  rwa [← publishTraced_erases, Option.isSome_map] at ends

/-- All of the handler calls that a call of `publish` leads to, in order. -/
def handlerCalls (clock : Nat → Timestamp) (eventType payload source : String) (bus : EventBus W)
    (world : W) : List (NotifiedHandler W) :=
  ((publishTraced clock (bus.subscribers.longest + 2) eventType payload source bus world).get
    (publishTraced_isSome clock eventType payload source bus world)).2

/-- A call of `publish` ends, whatever the handlers answer. It calls as many of them as it takes off the
table, and the history gets its own event and one for each of the calls, in order. -/
theorem publish_accounts (clock : Nat → Timestamp) (eventType payload source : String) (bus : EventBus W)
    (world : W) :
    (∃ fuel, EventBus.publishFuel clock fuel eventType payload source bus world =
      some (EventBus.publish clock eventType payload source bus world)) ∧
    (handlerCalls clock eventType payload source bus world).length ≤ bus.subscribers.registered ∧
    ∃ events, (EventBus.publish clock eventType payload source bus world).bus.history =
        bus.history ++ events ∧
      events.map BusEvent.announcement = ⟨eventType, payload, source⟩ ::
        (handlerCalls clock eventType payload source bus world).map NotifiedHandler.announcement := by
  have plain : EventBus.publishFuel clock (bus.subscribers.longest + 2) eventType payload source bus world =
      some (EventBus.publish clock eventType payload source bus world) := (Option.some_get _).symm
  obtain ⟨⟨done, calls⟩, answered⟩ := Option.isSome_iff_exists.mp
    (publishTraced_isSome clock eventType payload source bus world)
  have trace : handlerCalls clock eventType payload source bus world = calls := by
    simp only [handlerCalls, answered, Option.get_some]
  have same : EventBus.publish clock eventType payload source bus world = done := by
    rw [← publishTraced_erases, answered] at plain
    exact (Option.some.inj plain).symm
  have accounts := publishTraced_accounts clock answered
  rw [trace, same]
  refine ⟨⟨bus.subscribers.longest + 2, plain.trans (congrArg some same)⟩, ?_, accounts.history⟩
  have spent := accounts.registered
  omega

end BankingLedger
