import BankingLedger.Service.ChoreographyBus

set_option autoImplicit false

namespace BankingLedger

open FiniteMap

variable {W : Type}

section Cascade

def notifyAll (publish : String → String → W → Option (List (Publication W) × W))
    (eventType payload : String) : List (Subscriber W) → W → Option (List (Publication W) × W)
  | [], world => some ([], world)
  | subscriber :: rest, world => do
    let (result, world) := subscriber.handler payload world
    let event := emitted eventType payload result
    let (first, world) ← publish event.1 event.2 world
    let (later, world) ← notifyAll publish eventType payload rest world
    return (first ++ later, world)

def cascadeFuel (subscribed : Subscriptions W) :
    Nat → String → String → W → Option (List (Publication W) × W)
  | 0, _, _, _ => none
  | fuel + 1, eventType, payload, world => do
    let (publications, world) ←
      notifyAll (cascadeFuel subscribed fuel) eventType payload (subscribed.to eventType) world
    return ({ eventType, notified := subscribed.to eventType } :: publications, world)

variable {subscribed : Subscriptions W} {bound fuel : Nat} {eventType : String}

theorem cascadeFuel_succ (payload : String) (world : W) :
    cascadeFuel subscribed (fuel + 1) eventType payload world =
      (notifyAll (cascadeFuel subscribed fuel) eventType payload (subscribed.to eventType) world).map
        fun done => (⟨eventType, subscribed.to eventType⟩ :: done.1, done.2) := by
  simp only [cascadeFuel, Option.bind_eq_bind]
  cases notifyAll (cascadeFuel subscribed fuel) eventType payload (subscribed.to eventType) world <;> rfl

def Delivered (subscribed : Subscriptions W) (publications : List (Publication W)) : Prop :=
  ∀ p ∈ publications, p.notified = subscribed.to p.eventType

theorem delivered_append {first second : List (Publication W)} :
    Delivered subscribed (first ++ second) ↔ Delivered subscribed first ∧ Delivered subscribed second := by
  simp only [Delivered, List.mem_append, or_imp, forall_and]

theorem delivered_cons {first : Publication W} {rest : List (Publication W)} :
    Delivered subscribed (first :: rest) ↔
      first.notified = subscribed.to first.eventType ∧ Delivered subscribed rest :=
  List.forall_mem_cons

def Cascades (subscribed : Subscriptions W) (least : Nat)
    (publish : String → String → W → Option (List (Publication W) × W)) : Prop :=
  ∀ t payload world, least ≤ t.length →
    ∃ publications world', publish t payload world = some (publications, world') ∧
      Delivered subscribed publications

theorem notifyAll_cascades {publish : String → String → W → Option (List (Publication W) × W)}
    (payload : String) (subscribers : List (Subscriber W)) (world : W)
    (cascades : subscribers ≠ [] → Cascades subscribed (eventType.length + 1) publish) :
    ∃ publications world', notifyAll publish eventType payload subscribers world =
        some (publications, world') ∧ Delivered subscribed publications := by
  induction subscribers generalizing world with
  | nil => exact ⟨[], world, rfl, by simp [Delivered]⟩
  | cons subscriber rest ih =>
    have nested := cascades (List.cons_ne_nil _ _)
    obtain ⟨first, world', answer, delivered⟩ := nested _ (emitted eventType payload
      (subscriber.handler payload world).1).2 (subscriber.handler payload world).2
      (lt_length_emitted eventType payload (subscriber.handler payload world).1)
    obtain ⟨later, world'', others, rest⟩ := ih world' fun _ => nested
    refine ⟨first ++ later, world'', ?_, ?_⟩
    next =>
      simp only [notifyAll, answer, others, Option.bind_eq_bind, Option.bind_some]
      rfl
    next => exact delivered_append.mpr ⟨delivered, rest⟩

theorem cascadeFuel_cascades (within : subscribed.Within bound) (least : Nat) (positive : 0 < fuel)
    (enough : bound + 2 ≤ fuel + least) : Cascades subscribed least (cascadeFuel subscribed fuel) := by
  induction fuel generalizing least with
  | zero => omega
  | succ fuel ih =>
    intro t payload world long
    have nested : subscribed.to t ≠ [] → Cascades subscribed (t.length + 1) (cascadeFuel subscribed fuel) := by
      intro some
      have short := within t some
      exact ih (t.length + 1) (by omega) (by omega)
    obtain ⟨publications, world', answer, delivered⟩ :=
      notifyAll_cascades payload (subscribed.to t) world nested
    refine ⟨⟨t, subscribed.to t⟩ :: publications, world', ?_, ?_⟩
    next =>
      rw [cascadeFuel_succ, answer]
      rfl
    next => exact delivered_cons.mpr ⟨rfl, delivered⟩

theorem cascadeFuel_isSome (subscribed : Subscriptions W) (t payload : String) (world : W) :
    (cascadeFuel subscribed (subscribed.longest + 2) t payload world).isSome := by
  obtain ⟨publications, world', answer, -⟩ := cascadeFuel_cascades subscribed.within_longest 0
    (Nat.succ_pos _) (Nat.le_refl _) t payload world (Nat.zero_le _)
  rw [answer]
  rfl

def cascade (subscribed : Subscriptions W) (eventType payload : String) (world : W) :
    List (Publication W) × W :=
  (cascadeFuel subscribed (subscribed.longest + 2) eventType payload world).get
    (cascadeFuel_isSome subscribed eventType payload world)

end Cascade

section Spending

variable {subscribed table : Subscriptions W} {spent : Finset String} {eventType : String}

def spend (spent : Finset String) (p : Publication W) : Finset String :=
  if p.notified.isEmpty then spent else insert p.eventType spent

def FirstTime (spent : Finset String) (publications : List (Publication W)) : Prop :=
  Runs.Meets spend (fun spent p => p.eventType ∉ spent) spent publications

-- The table has lost subscribers of the event types in `spent` and of no others.
def LostAt (subscribed : Subscriptions W) (spent : Finset String) (table : Subscriptions W)
    (t : String) : Prop :=
  if t ∈ spent then (table.to t).length < (subscribed.to t).length else table.to t = subscribed.to t

theorem spend_subset (spent : Finset String) (publications : List (Publication W)) :
    spent ⊆ Runs.run spend spent publications := by
  induction publications generalizing spent with
  | nil => exact Finset.Subset.refl _
  | cons p rest ih =>
    have first : spent ⊆ spend spent p := by
      unfold spend
      split
      next => exact Finset.Subset.refl _
      next => exact Finset.subset_insert _ _
    exact first.trans (ih (spend spent p))

structure Agrees (subscribed : Subscriptions W) (spent : Finset String)
    (expected : List (Publication W) × W) (done : Published W) : Prop where
  publications : done.publications = expected.1
  world : done.world = expected.2
  firstTime : FirstTime spent expected.1
  lost : ∀ t, LostAt subscribed (Runs.run spend spent expected.1) done.bus.subscribers t

def Misses (subscribed : Subscriptions W) (spent : Finset String)
    (expected : List (Publication W) × W) (done : Published W) : Prop :=
  ¬ FirstTime spent expected.1 ∧ ¬ Delivered subscribed done.publications

theorem firstTime_append {first second : List (Publication W)} :
    FirstTime spent (first ++ second) ↔
      FirstTime spent first ∧ FirstTime (Runs.run spend spent first) second :=
  Runs.meets_append

end Spending

section Simulation

variable {subscribed : Subscriptions W} {bound fuel : Nat} {eventType payload : String}
  {publish : String → String → String → EventBus W → W → Option (Published W)}
  {expect : String → String → W → Option (List (Publication W) × W)}

def Follows (subscribed : Subscriptions W) (bound least : Nat)
    (publish : String → String → String → EventBus W → W → Option (Published W))
    (expect : String → String → W → Option (List (Publication W) × W)) : Prop :=
  ∀ t payload source (bus : EventBus W) world spent done expected, least ≤ t.length →
    bus.subscribers.Within bound → (∀ t, LostAt subscribed spent bus.subscribers t) →
    publish t payload source bus world = some done → expect t payload world = some expected →
    Agrees subscribed spent expected done ∨ Misses subscribed spent expected done

theorem notifyAll_of_cons {subscriber : Subscriber W} {rest : List (Subscriber W)} {world : W} :
    notifyAll expect eventType payload (subscriber :: rest) world =
      let answered := subscriber.handler payload world
      let event := emitted eventType payload answered.1
      (expect event.1 event.2 answered.2).bind fun first =>
        (notifyAll expect eventType payload rest first.2).map fun later =>
          (first.1 ++ later.1, later.2) := by
  simp only [notifyAll, Option.bind_eq_bind]
  congr 1
  funext first
  cases notifyAll expect eventType payload rest first.2 <;> rfl

theorem notify_follows
    (returns : eventType.length ≤ bound → Returns bound (eventType.length + 1) publish)
    (nested : eventType.length ≤ bound → Follows subscribed bound (eventType.length + 1) publish expect)
    (subscribers notified : List (Subscriber W)) (bus : EventBus W) (world : W) (spent : Finset String)
    (done : Published W) (expected : List (Publication W) × W)
    (within : bus.subscribers.Within bound) (spending : eventType ∈ spent)
    (others : ∀ t, t ≠ eventType → LostAt subscribed spent bus.subscribers t)
    (own : bus.subscribers.to eventType = subscribers)
    (few : subscribers.length ≤ (subscribed.to eventType).length)
    (ran : EventBus.notify publish eventType payload subscribers.length bus world = some (notified, done))
    (expecting : notifyAll expect eventType payload subscribers world = some expected) :
    (notified = subscribers ∧ done.publications = expected.1 ∧ done.world = expected.2 ∧
        FirstTime spent expected.1 ∧ done.bus.subscribers.to eventType = [] ∧
        ∀ t, t ≠ eventType → LostAt subscribed (Runs.run spend spent expected.1) done.bus.subscribers t) ∨
      Misses subscribed spent expected done := by
  induction subscribers generalizing notified bus world spent done expected with
  | nil =>
    cases ran
    cases expecting
    exact .inl ⟨rfl, rfl, rfl, trivial, own, others⟩
  | cons subscriber rest ih =>
    have short : eventType.length ≤ bound := within eventType (by simp [own])
    have long := lt_length_emitted eventType payload (subscriber.handler payload world).1
    have left : Subscriptions.Within bound (bus.subscribers.insert eventType rest) :=
      (Takes.tail own).within within
    rw [List.length_cons, notify_of_cons own] at ran
    rw [notifyAll_of_cons] at expecting
    obtain ⟨sub, answer, ran⟩ := Option.bind_eq_some_iff.mp ran
    obtain ⟨⟨notifiedRest, doneRest⟩, ranRest, joined⟩ := Option.map_eq_some_iff.mp ran
    obtain ⟨first, expectFirst, expecting⟩ := Option.bind_eq_some_iff.mp expecting
    obtain ⟨later, expectRest, rfl⟩ := Option.map_eq_some_iff.mp expecting
    obtain ⟨rfl, rfl⟩ := Prod.mk.inj joined
    have lost : ∀ t, LostAt subscribed spent (bus.subscribers.insert eventType rest) t := by
      intro t
      by_cases same : t = eventType
      next =>
        subst same
        rw [LostAt, if_pos spending, Subscriptions.to_insert, if_pos rfl]
        exact few
      next =>
        rw [LostAt, Subscriptions.to_insert, if_neg same]
        exact others t same
    obtain ⟨_, again, takes⟩ := returns short _ _ subscriber.service
      { bus with subscribers := bus.subscribers.insert eventType rest } _ long left
    obtain rfl := Option.some.inj (answer.symm.trans again)
    rcases nested short _ _ _ _ _ _ _ _ long left lost answer expectFirst with agrees | misses
    next =>
      have ownRest : sub.bus.subscribers.to eventType = rest := by
        simpa using (takes.of_longer long).2
      have outcome := ih notifiedRest sub.bus sub.world (Runs.run spend spent first.1) doneRest later
        (takes.within left) (spend_subset spent first.1 spending) (fun t _ => agrees.lost t) ownRest
        (Nat.le_of_succ_le few) ranRest (by rw [agrees.world]; exact expectRest)
      rcases outcome with ⟨all, publications, same, firstTime, empty, lostRest⟩ | ⟨stale, missed⟩
      next =>
        refine .inl ⟨by rw [all], ?_, same, firstTime_append.mpr ⟨agrees.firstTime, firstTime⟩, empty, ?_⟩
        next => simp [Published.followedBy, agrees.publications, publications]
        next => rwa [Runs.run_append]
      next =>
        refine .inr ⟨fun fresh => stale (firstTime_append.mp fresh).2, fun all => missed ?_⟩
        exact (delivered_append.mp all).2
    next =>
      refine .inr ⟨fun fresh => misses.1 (firstTime_append.mp fresh).1, fun all => misses.2 ?_⟩
      exact (delivered_append.mp all).1

theorem publishFuel_follows (clock : Nat → Timestamp) (least fuel' : Nat) (positive : 0 < fuel)
    (enough : bound + 2 ≤ fuel + least) :
    Follows subscribed bound least (EventBus.publishFuel clock fuel) (cascadeFuel subscribed fuel') := by
  induction fuel generalizing least fuel' with
  | zero => omega
  | succ fuel ih =>
    intro t payload source bus world spent _ _ long within lost called expected
    obtain ⟨fuel', rfl⟩ : ∃ n, fuel' = n + 1 := by
      cases fuel' with
      | zero => cases expected
      | succ n => exact ⟨n, rfl⟩
    have returns : t.length ≤ bound → Returns (W := W) bound (t.length + 1)
        (EventBus.publishFuel clock fuel) :=
      fun short => publishFuel_returns clock (t.length + 1) (by omega) (by omega)
    have nested : t.length ≤ bound → Follows subscribed bound (t.length + 1)
        (EventBus.publishFuel clock fuel) (cascadeFuel subscribed fuel') :=
      fun short => ih (t.length + 1) fuel' (by omega) (by omega)
    rw [publishFuel_succ] at called
    rw [cascadeFuel_succ] at expected
    obtain ⟨⟨notified, done⟩, ran, rfl⟩ := Option.map_eq_some_iff.mp called
    obtain ⟨⟨publications, world'⟩, expecting, rfl⟩ := Option.map_eq_some_iff.mp expected
    obtain ⟨_, _, again, -, few⟩ := notify_returns returns payload (bus.subscribers.to t).length
      (bus.record clock t payload source) world within
    obtain ⟨rfl, rfl⟩ := Prod.mk.inj (Option.some.inj (ran.symm.trans again))
    have here := lost t
    by_cases member : t ∈ spent
    next =>
      rw [LostAt, if_pos member] at here
      refine .inr ⟨fun fresh => fresh.1 member, fun all => ?_⟩
      have complete : notified = subscribed.to t := (delivered_cons.mp all).1
      rw [complete] at few
      omega
    next =>
      rw [LostAt, if_neg member] at here
      cases all : subscribed.to t with
      | nil =>
        rw [here.trans all] at ran
        rw [all] at expecting
        cases ran
        cases expecting
        exact .inl ⟨rfl, rfl, ⟨member, trivial⟩, lost⟩
      | cons subscriber rest =>
        have spends : spend spent ⟨t, subscriber :: rest⟩ = insert t spent := by simp [spend]
        have others : ∀ other, other ≠ t →
            LostAt subscribed (insert t spent) (bus.record clock t payload source).subscribers other := by
          intro other apart
          simpa [LostAt, apart, EventBus.record] using lost other
        have outcome := notify_follows returns nested (subscribed.to t) notified
          (bus.record clock t payload source) world (insert t spent) done (publications, world') within
          (Finset.mem_insert_self t spent) others here (Nat.le_refl _) (by rw [← here]; exact ran) expecting
        rw [all] at outcome
        rcases outcome with ⟨rfl, same, sameWorld, firstTime, empty, lostOthers⟩ | ⟨stale, missed⟩
        next =>
          refine .inl ⟨by simp [same], sameWorld, ⟨member, by rwa [spends]⟩, ?_⟩
          intro other
          rw [Runs.run_cons, spends]
          by_cases own : other = t
          next =>
            have spent' : t ∈ Runs.run spend (insert t spent) publications :=
              spend_subset _ publications (Finset.mem_insert_self t spent)
            subst own
            simp [LostAt, spent', empty, all]
          next => exact lostOthers other own
        next =>
          refine .inr ⟨fun fresh => stale ?_, fun complete => missed ?_⟩
          next =>
            have later := fresh.2
            rwa [spends] at later
          next => exact (delivered_cons.mp complete).2

end Simulation

theorem publish_follows (clock : Nat → Timestamp) {subscribed : Subscriptions W} {spent : Finset String}
    {bus : EventBus W} (lost : ∀ t, LostAt subscribed spent bus.subscribers t)
    (eventType payload source : String) (world : W) :
    Agrees subscribed spent (cascade subscribed eventType payload world)
        (bus.publish clock eventType payload source world) ∨
      Misses subscribed spent (cascade subscribed eventType payload world)
        (bus.publish clock eventType payload source world) :=
  publishFuel_follows clock 0 _ (Nat.succ_pos _) (Nat.le_refl _) eventType payload source bus world spent
    _ _ (Nat.zero_le _) bus.subscribers.within_longest lost (Option.some_get _).symm
    (Option.some_get _).symm

theorem cascade_delivered (subscribed : Subscriptions W) (eventType payload : String) (world : W) :
    Delivered subscribed (cascade subscribed eventType payload world).1 := by
  obtain ⟨publications, world', answer, delivered⟩ := cascadeFuel_cascades subscribed.within_longest 0
    (Nat.succ_pos _) (Nat.le_refl _) eventType payload world (Nat.zero_le _)
  have same : cascade subscribed eventType payload world = (publications, world') :=
    Option.get_of_eq_some _ answer
  rwa [same]

section Runs

inductive BusCall (W : Type) where
  | subscribe (service eventType : String) (handler : String → W → Except String String × W)
  | publish (eventType payload source : String)

structure BusRun (W : Type) where
  bus : EventBus W
  world : W
  subscribed : Subscriptions W

def BusRun.start (world : W) : BusRun W := { bus := .new, world, subscribed := ∅ }

def BusRun.step (clock : Nat → Timestamp) (s : BusRun W) : BusCall W → BusRun W
  | .subscribe service eventType handler =>
    { s with
      bus := s.bus.subscribe service eventType handler
      subscribed := s.subscribed.push eventType { service, handler } }
  | .publish eventType payload source =>
    let done := s.bus.publish clock eventType payload source s.world
    { s with bus := done.bus, world := done.world }

/-- Every publication that the call makes, its own and the nested ones, notifies in order everyone
who has subscribed to its event type. -/
def BusRun.NotifiesAll (clock : Nat → Timestamp) (s : BusRun W) : BusCall W → Prop
  | .subscribe .. => True
  | .publish eventType payload source =>
    Delivered s.subscribed (s.bus.publish clock eventType payload source s.world).publications

/-- What the calls amount to if all subscribers stay, and the event types published to someone. -/
structure CascadeRun (W : Type) where
  subscribed : Subscriptions W
  world : W
  spent : Finset String

def CascadeRun.start (world : W) : CascadeRun W := { subscribed := ∅, world, spent := ∅ }

def CascadeRun.step (s : CascadeRun W) : BusCall W → CascadeRun W
  | .subscribe service eventType handler =>
    { s with subscribed := s.subscribed.push eventType { service, handler } }
  | .publish eventType payload _ =>
    let (publications, world) := cascade s.subscribed eventType payload s.world
    { s with world, spent := Runs.run spend s.spent publications }

def CascadeRun.PublishesFirstTime (s : CascadeRun W) : BusCall W → Prop
  | .subscribe .. => True
  | .publish eventType payload _ => FirstTime s.spent (cascade s.subscribed eventType payload s.world).1

structure Abreast (s : BusRun W) (c : CascadeRun W) : Prop where
  subscribed : s.subscribed = c.subscribed
  world : s.world = c.world
  lost : ∀ t, LostAt c.subscribed c.spent s.bus.subscribers t

variable {s : BusRun W} {c : CascadeRun W}

theorem abreast_start (world : W) : Abreast (.start world) (.start world) :=
  ⟨rfl, rfl, fun t => by simp [LostAt, CascadeRun.start, BusRun.start, EventBus.new]⟩

theorem Abreast.notifiesAll_iff (abreast : Abreast s c) (clock : Nat → Timestamp) (call : BusCall W) :
    s.NotifiesAll clock call ↔ c.PublishesFirstTime call := by
  cases call with
  | subscribe => rfl
  | publish eventType payload source =>
    rw [BusRun.NotifiesAll, CascadeRun.PublishesFirstTime, abreast.subscribed, abreast.world]
    rcases publish_follows clock abreast.lost eventType payload source c.world with agrees | ⟨stale, missed⟩
    next =>
      rw [agrees.publications]
      exact iff_of_true (cascade_delivered c.subscribed eventType payload c.world) agrees.firstTime
    next => exact iff_of_false missed stale

theorem Abreast.step (abreast : Abreast s c) (clock : Nat → Timestamp) (call : BusCall W)
    (first : c.PublishesFirstTime call) : Abreast (s.step clock call) (c.step call) := by
  cases call with
  | subscribe service eventType handler =>
    refine ⟨by rw [BusRun.step, CascadeRun.step, abreast.subscribed], abreast.world, fun t => ?_⟩
    have before := abreast.lost t
    simp only [LostAt, BusRun.step, CascadeRun.step, EventBus.subscribe, Subscriptions.to_push] at before ⊢
    split at before <;> simp [*]
  | publish eventType payload source =>
    rcases publish_follows clock abreast.lost eventType payload source c.world with agrees | ⟨stale, -⟩
    next =>
      refine ⟨abreast.subscribed, ?_, ?_⟩
      next => rw [BusRun.step, abreast.world, agrees.world]; rfl
      next => rw [BusRun.step, abreast.world]; exact agrees.lost
    next => exact absurd first stale

/-- Along a run every publication notifies everyone who has subscribed exactly if, with all
subscribers staying, no event type would be published again after it was published to someone. -/
theorem subscribers_notified_iff (clock : Nat → Timestamp) (world : W) (calls : List (BusCall W)) :
    Runs.Meets (BusRun.step clock) (BusRun.NotifiesAll clock) (.start world) calls ↔
      Runs.Meets CascadeRun.step CascadeRun.PublishesFirstTime (.start world) calls :=
  Runs.meets_iff_of_related (fun _ _ call abreast => abreast.notifiesAll_iff clock call)
    (fun _ _ call abreast first => abreast.step clock call first) (abreast_start world) calls

end Runs

namespace BusSample

def clock : Nat → Timestamp := fun _ => ⟨0⟩

def passOn : String → Unit → Except String String × Unit := fun payload world => (.ok payload, world)

def twoTransfers : List (BusCall Unit) :=
  [.subscribe "AccountService" "TransferRequested" passOn,
    .publish "TransferRequested" "first" "api",
    .publish "TransferRequested" "second" "api"]

end BusSample

open BusSample

/-- The second event reaches no one. -/
theorem second_event_unnoticed :
    ¬ Runs.Meets (BusRun.step clock) (BusRun.NotifiesAll clock) (.start ()) twoTransfers := by
  rintro ⟨-, -, second, -⟩
  have missed := second ⟨"TransferRequested", []⟩ List.mem_cons_self
  have subscribed := congrArg List.length missed
  revert subscribed
  decide

end BankingLedger
