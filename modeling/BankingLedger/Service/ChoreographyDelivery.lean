import BankingLedger.Service.Choreography
import BankingLedger.Shared.Runs

set_option autoImplicit false

namespace BankingLedger

open FiniteMap Runs

inductive Delivery where
  | initiated (event : TransferInitiatedEvent) (now : Timestamp)
  | debited (event : AccountDebitedEvent) (toAccount : String) (now : Timestamp)
deriving DecidableEq, Repr

def ChoreographyAccountService.funds (svc : ChoreographyAccountService) : Int :=
  total (fun balance : Decimal => balance) svc.balances

/-- The service, with the deliveries that have been made: the transfers, the events that were returned
for them with the destination they go to, and the ids of the events delivered back. `debits` are the
deliveries that took funds out of the accounts, `settlements` those that put funds in. -/
structure ChoreographyRun where
  service : ChoreographyAccountService
  initiated : List TransferInitiatedEvent
  returned : List (AccountDebitedEvent × String)
  handled : List Uuid
  debits : List TransferInitiatedEvent
  settlements : List AccountDebitedEvent

namespace ChoreographyRun

def deliver (s : ChoreographyRun) : Delivery → ChoreographyRun
  | .initiated event now =>
    let (result, service) := s.service.handleTransferInitiated now event
    { s with
      service
      initiated := s.initiated ++ [event]
      returned := match result with
        | .ok debited => s.returned ++ [(debited, event.toAccount)]
        | .error _ => s.returned
      debits := if service.funds < s.service.funds then s.debits ++ [event] else s.debits }
  | .debited event toAccount now =>
    let (_, service) := s.service.handleAccountDebited now event toAccount
    { s with
      service
      handled := s.handled ++ [event.correlationId]
      settlements := if s.service.funds < service.funds then s.settlements ++ [event] else s.settlements }

def start (balances : Map String Decimal) : ChoreographyRun where
  service := { ChoreographyAccountService.new with balances }
  initiated := []
  returned := []
  handled := []
  debits := []
  settlements := []

/-- Amounts are positive, two transfers do not share a correlation id, and an `AccountDebited` event
goes to the destination of the transfer it was returned for. -/
def Possible (s : ChoreographyRun) : Delivery → Prop
  | .initiated event _ =>
    (0 : Int) < event.amount ∧ ∀ other ∈ s.initiated, other.correlationId = event.correlationId → other = event
  | .debited event toAccount _ => (event, toAccount) ∈ s.returned

instance (s : ChoreographyRun) : ∀ d, Decidable (s.Possible d)
  | .initiated event _ => inferInstanceAs (Decidable ((0 : Int) < event.amount ∧
      ∀ other ∈ s.initiated, other.correlationId = event.correlationId → other = event))
  | .debited event toAccount _ => inferInstanceAs (Decidable ((event, toAccount) ∈ s.returned))

def debitIds (s : ChoreographyRun) : List Uuid := s.debits.map (·.correlationId)

def settledIds (s : ChoreographyRun) : List Uuid := s.settlements.map (·.correlationId)

def unsettled (settled : List Uuid) (debits : List TransferInitiatedEvent) : Int :=
  ((debits.filter fun t => t.correlationId ∉ settled).map (·.amount)).sum

/-- What the accounts and the unsettled transfers hold together has not changed, and no transfer is
debited twice, or credited or refunded twice. -/
structure Conserves (seeded : Int) (s : ChoreographyRun) : Prop where
  funds : s.service.funds + unsettled s.settledIds s.debits = seeded
  debitedOnce : s.debitIds.Nodup
  settledOnce : s.settledIds.Nodup

/-- An `AccountDebited` event whose destination does not exist is delivered for the first time. -/
def MissingOnce (s : ChoreographyRun) : Delivery → Prop
  | .initiated _ _ => True
  | .debited event toAccount _ =>
    s.service.balances.lookup toAccount = none → event.correlationId ∉ s.handled

instance (s : ChoreographyRun) : ∀ d, Decidable (s.MissingOnce d)
  | .initiated _ _ => isTrue trivial
  | .debited event toAccount _ => inferInstanceAs (Decidable
      (s.service.balances.lookup toAccount = none → event.correlationId ∉ s.handled))

section Unsettled

variable {settled : List Uuid} {debits : List TransferInitiatedEvent} {t : TransferInitiatedEvent}

theorem unsettled_append (open_ : t.correlationId ∉ settled) (debits : List TransferInitiatedEvent) :
    unsettled settled (debits ++ [t]) = unsettled settled debits + t.amount := by
  simp [unsettled, open_]

theorem unsettled_of_other (id : Uuid) (other : id ∉ debits.map (·.correlationId)) :
    unsettled (settled ++ [id]) debits = unsettled settled debits := by
  unfold unsettled
  congr 2
  refine List.filter_congr fun t member => ?_
  have apart : t.correlationId ≠ id := by
    rintro rfl
    exact other (List.mem_map_of_mem member)
  simp [apart]

theorem unsettled_settle (unique : (debits.map (·.correlationId)).Nodup) (member : t ∈ debits)
    (open_ : t.correlationId ∉ settled) :
    unsettled (settled ++ [t.correlationId]) debits + t.amount = unsettled settled debits := by
  induction debits with
  | nil => cases member
  | cons first rest ih =>
    rw [List.map_cons, List.nodup_cons] at unique
    have head (settled : List Uuid) : unsettled settled (first :: rest) =
        (if first.correlationId ∈ settled then 0 else first.amount) + unsettled settled rest := by
      unfold unsettled
      by_cases inside : first.correlationId ∈ settled <;> simp [inside]
    rw [head, head]
    rcases List.mem_cons.mp member with rfl | later
    · rw [unsettled_of_other t.correlationId unique.1, if_pos (by simp), if_neg open_]
      omega
    · have apart : first.correlationId ≠ t.correlationId := by
        intro same
        exact unique.1 (same ▸ List.mem_map_of_mem later)
      have rest := ih unique.2 later
      simp only [List.mem_append, List.mem_singleton, apart, or_false]
      omega

end Unsettled

section Deliver

variable {s : ChoreographyRun}

theorem funds_insert {svc svc' : ChoreographyAccountService} {account : String} {b v : Decimal}
    (found : svc.balances.lookup account = some b) (written : svc'.balances = svc.balances.insert account v) :
    svc'.funds = svc.funds + (v - b) := by
  rw [ChoreographyAccountService.funds, written]
  exact total_insert found v

inductive InitiatedMove (s : ChoreographyRun) (event : TransferInitiatedEvent) (now : Timestamp) :
    ChoreographyRun → Prop where
  | repeated : event.correlationId ∈ s.service.processedDebits →
      InitiatedMove s event now { s with
        initiated := s.initiated ++ [event]
        returned := s.returned ++ [(event.debited now, event.toAccount)] }
  | debited (service : ChoreographyAccountService) : event.correlationId ∉ s.service.processedDebits →
      event.fromAccount ∈ s.service.balances →
      (∀ account, account ∈ service.balances ↔ account ∈ s.service.balances) →
      service.funds = s.service.funds - event.amount →
      service.processedDebits = insert event.correlationId s.service.processedDebits →
      service.processedCredits = s.service.processedCredits →
      InitiatedMove s event now { s with
        service
        initiated := s.initiated ++ [event]
        returned := s.returned ++ [(event.debited now, event.toAccount)]
        debits := s.debits ++ [event] }
  | refused : InitiatedMove s event now { s with initiated := s.initiated ++ [event] }

theorem mem_insert_iff {balances : Map String Decimal} {account : String} {b : Decimal} (v : Decimal)
    (found : balances.lookup account = some b) (other : String) :
    other ∈ balances.insert account v ↔ other ∈ balances := by
  rw [Finmap.mem_insert, or_iff_right_of_imp]
  rintro rfl
  exact Finmap.mem_of_lookup_eq_some found

theorem initiatedMove (event : TransferInitiatedEvent) (now : Timestamp) (positive : (0 : Int) < event.amount) :
    InitiatedMove s event now (s.deliver (.initiated event now)) := by
  have outcome := debitOutcome s.service now event
  simp only [deliver]
  generalize (s.service.handleTransferInitiated now event).1 = result at outcome ⊢
  generalize (s.service.handleTransferInitiated now event).2 = service at outcome ⊢
  cases outcome with
  | repeated known =>
    rw [if_neg (Int.lt_irrefl _)]
    exact .repeated known
  | @debited b new found enough =>
    let service : ChoreographyAccountService :=
      { s.service with
        balances := s.service.balances.insert event.fromAccount (b - event.amount)
        processedDebits := insert event.correlationId s.service.processedDebits }
    have funds : service.funds = s.service.funds + (b - event.amount - b) := funds_insert found rfl
    have lower : service.funds < s.service.funds := by omega
    rw [if_pos lower]
    refine .debited service new (Finmap.mem_of_lookup_eq_some found) (mem_insert_iff _ found) ?_ rfl rfl
    omega
  | refused =>
    rw [if_neg (Int.lt_irrefl _)]
    exact .refused

inductive DebitedMove (s : ChoreographyRun) (event : AccountDebitedEvent) (toAccount : String) :
    ChoreographyRun → Prop where
  | repeated : event.correlationId ∈ s.service.processedCredits →
      DebitedMove s event toAccount { s with handled := s.handled ++ [event.correlationId] }
  | settled (service : ChoreographyAccountService) : event.correlationId ∉ s.service.processedCredits →
      (∀ account, account ∈ service.balances ↔ account ∈ s.service.balances) →
      service.funds = s.service.funds + event.amount →
      service.processedDebits = s.service.processedDebits →
      service.processedCredits =
        (if toAccount ∈ s.service.balances then insert event.correlationId s.service.processedCredits
        else s.service.processedCredits) →
      DebitedMove s event toAccount { s with
        service
        handled := s.handled ++ [event.correlationId]
        settlements := s.settlements ++ [event] }

theorem debitedMove (event : AccountDebitedEvent) (toAccount : String) (now : Timestamp)
    (positive : (0 : Int) < event.amount) (source : event.accountId ∈ s.service.balances) :
    DebitedMove s event toAccount (s.deliver (.debited event toAccount now)) := by
  have outcome := creditOutcome s.service now event toAccount
  simp only [deliver]
  generalize (s.service.handleAccountDebited now event toAccount).1 = result at outcome
  generalize (s.service.handleAccountDebited now event toAccount).2 = service at outcome ⊢
  cases outcome with
  | repeated known =>
    rw [if_neg (Int.lt_irrefl _)]
    exact .repeated known
  | @credited b new found =>
    let service : ChoreographyAccountService :=
      { s.service with
        balances := s.service.balances.insert toAccount (b + event.amount)
        processedCredits := insert event.correlationId s.service.processedCredits }
    have funds : service.funds = s.service.funds + (b + event.amount - b) := funds_insert found rfl
    have higher : s.service.funds < service.funds := by omega
    rw [if_pos higher]
    refine .settled service new (mem_insert_iff _ found) (by omega) rfl ?_
    rw [if_pos (Finmap.mem_of_lookup_eq_some found)]
  | refunded new missing =>
    obtain ⟨b, found⟩ := Finmap.mem_iff.mp source
    let service : ChoreographyAccountService :=
      { s.service with balances := s.service.balances.insert event.accountId (b + event.amount) }
    have funds : service.funds = s.service.funds + (b + event.amount - b) := funds_insert found rfl
    have refunded : s.service.refund event = service := by
      rw [ChoreographyAccountService.refund, found]
    have higher : s.service.funds < service.funds := by omega
    rw [refunded, if_pos higher]
    refine .settled service new (mem_insert_iff _ found) (by omega) rfl ?_
    rw [if_neg (Finmap.lookup_eq_none.mp missing)]

end Deliver

section Invariant

variable {s : ChoreographyRun}

@[simp] theorem debited_correlationId (t : TransferInitiatedEvent) (now : Timestamp) :
    (t.debited now).correlationId = t.correlationId := rfl

theorem settledIds_append (service : ChoreographyAccountService) (handled : List Uuid)
    (event : AccountDebitedEvent) :
    ({ s with service, handled, settlements := s.settlements ++ [event] } : ChoreographyRun).settledIds =
      s.settledIds ++ [event.correlationId] := List.map_append

structure Accounted (s : ChoreographyRun) : Prop where
  processed : ∀ id, id ∈ s.service.processedDebits ↔ id ∈ s.debitIds
  debited : ∀ t ∈ s.debits, t ∈ s.initiated ∧ (0 : Int) < t.amount ∧ t.fromAccount ∈ s.service.balances
  returned : ∀ p ∈ s.returned, ∃ t ∈ s.debits, ∃ now, p = (t.debited now, t.toAccount)
  known : ∀ id, id ∈ s.settledIds ∨ id ∈ s.service.processedCredits ∨ id ∈ s.handled → id ∈ s.debitIds
  credited : ∀ t ∈ s.debits, t.toAccount ∈ s.service.balances →
    (t.correlationId ∈ s.settledIds ↔ t.correlationId ∈ s.service.processedCredits)
  refunded : ∀ t ∈ s.debits, t.toAccount ∉ s.service.balances →
    t.correlationId ∉ s.service.processedCredits ∧ (t.correlationId ∈ s.settledIds ↔ t.correlationId ∈ s.handled)

theorem start_accounted (balances : Map String Decimal) : Accounted (start balances) where
  processed id := by simp [start, debitIds, ChoreographyAccountService.new]
  debited := nofun
  returned := nofun
  known id := by simp [start, settledIds, ChoreographyAccountService.new]
  credited := nofun
  refunded := nofun

variable {s' : ChoreographyRun} {event : TransferInitiatedEvent} {now : Timestamp}

theorem Accounted.new_id (inv : Accounted s) {id : Uuid} (new : id ∉ s.service.processedDebits) :
    id ∉ s.settledIds ∧ id ∉ s.service.processedCredits ∧ id ∉ s.handled := by
  have unknown := fun some => new ((inv.processed id).mpr (inv.known id some))
  exact ⟨unknown ∘ .inl, unknown ∘ .inr ∘ .inl, unknown ∘ .inr ∘ .inr⟩

theorem Accounted.initiated (inv : Accounted s) (positive : (0 : Int) < event.amount)
    (distinct : ∀ other ∈ s.initiated, other.correlationId = event.correlationId → other = event)
    (move : InitiatedMove s event now s') : Accounted s' := by
  have earlier {t : TransferInitiatedEvent} (member : t ∈ s.debits) :
      t ∈ s.initiated ++ [event] ∧ (0 : Int) < t.amount ∧ t.fromAccount ∈ s.service.balances := by
    obtain ⟨initiated, positive, source⟩ := inv.debited t member
    exact ⟨List.mem_append_left _ initiated, positive, source⟩
  cases move with
  | repeated known =>
    refine ⟨inv.processed, fun t => earlier, fun p member => ?_, inv.known, inv.credited, inv.refunded⟩
    rcases List.mem_append.mp member with old | new
    · exact inv.returned p old
    · obtain ⟨t, debited, same⟩ := List.mem_map.mp ((inv.processed _).mp known)
      obtain rfl := distinct t (inv.debited t debited).1 same
      exact ⟨t, debited, now, List.mem_singleton.mp new⟩
  | refused => exact ⟨inv.processed, fun t => earlier, inv.returned, inv.known, inv.credited, inv.refunded⟩
  | debited service new source accounts funds debits credits =>
    obtain ⟨notSettled, notCredited, notHandled⟩ := inv.new_id new
    have cases {t : TransferInitiatedEvent} (member : t ∈ s.debits ++ [event]) : t ∈ s.debits ∨ t = event :=
      (List.mem_append.mp member).imp_right List.mem_singleton.mp
    refine ⟨fun id => ?_, fun t member => ?_, fun p member => ?_, fun id some => ?_, fun t member there => ?_,
      fun t member there => ?_⟩
    · simp only [debitIds, debits, List.map_append, List.map_singleton, Finset.mem_insert, List.mem_append,
        List.mem_singleton, inv.processed, or_comm]
    · rcases cases member with old | rfl
      · obtain ⟨initiated, positive, source⟩ := earlier old
        exact ⟨initiated, positive, (accounts _).mpr source⟩
      · exact ⟨List.mem_append_right _ (List.mem_singleton_self _), positive, (accounts _).mpr source⟩
    · rcases List.mem_append.mp member with old | new
      · obtain ⟨t, member, returned⟩ := inv.returned p old
        exact ⟨t, List.mem_append_left _ member, returned⟩
      · exact ⟨event, List.mem_append_right _ (List.mem_singleton_self _), now, List.mem_singleton.mp new⟩
    · rw [credits] at some
      rw [debitIds, List.map_append]
      exact List.mem_append_left _ (inv.known id some)
    · rw [credits]
      rcases cases member with old | rfl
      · exact inv.credited t old ((accounts _).mp there)
      · exact iff_of_false notSettled notCredited
    · rw [credits]
      rcases cases member with old | rfl
      · exact inv.refunded t old (mt (accounts _).mpr there)
      · exact ⟨notCredited, iff_of_false notSettled notHandled⟩

theorem Conserves.initiated {seeded : Int} (inv : Accounted s) (holds : Conserves seeded s)
    (move : InitiatedMove s event now s') : Conserves seeded s' := by
  obtain ⟨funds, debitedOnce, settledOnce⟩ := holds
  cases move with
  | repeated => exact ⟨funds, debitedOnce, settledOnce⟩
  | refused => exact ⟨funds, debitedOnce, settledOnce⟩
  | debited service new source accounts lower =>
    obtain ⟨notSettled, -, -⟩ := inv.new_id new
    refine ⟨?_, ?_, settledOnce⟩
    · have open_ := unsettled_append notSettled s.debits
      change service.funds + unsettled s.settledIds (s.debits ++ [event]) = seeded
      omega
    · rw [debitIds, List.map_append]
      refine debitedOnce.append (List.nodup_singleton _) ?_
      rw [List.map_singleton, List.disjoint_singleton]
      exact mt (inv.processed _).mpr new

variable {t : TransferInitiatedEvent}

theorem Accounted.handled (inv : Accounted s) (debited : t ∈ s.debits) (unique : s.debitIds.Nodup)
    (move : DebitedMove s (t.debited now) t.toAccount s') : Accounted s' := by
  have own : t.correlationId ∈ s.debitIds := List.mem_map_of_mem debited
  have cases {id : Uuid} {ids : List Uuid} (member : id ∈ ids ++ [t.correlationId]) :
      id ∈ ids ∨ id = t.correlationId := (List.mem_append.mp member).imp_right List.mem_singleton.mp
  have append {id : Uuid} (apart : id ≠ t.correlationId) (ids : List Uuid) :
      id ∈ ids ++ [t.correlationId] ↔ id ∈ ids := by simp [apart]
  cases move with
  | repeated known =>
    refine ⟨inv.processed, inv.debited, inv.returned, fun id some => ?_, inv.credited, fun u member there => ?_⟩
    · rcases some with settled | credited | handled
      · exact inv.known id (.inl settled)
      · exact inv.known id (.inr (.inl credited))
      · exact (cases handled).elim (fun old => inv.known id (.inr (.inr old))) fun same => same ▸ own
    · obtain ⟨notCredited, once⟩ := inv.refunded u member there
      have apart : u.correlationId ≠ t.correlationId := fun same => notCredited (same ▸ known)
      exact ⟨notCredited, once.trans (append apart s.handled).symm⟩
  | settled service new accounts funds debits credits =>
    have others {id : Uuid} (apart : id ≠ t.correlationId) :
        id ∈ service.processedCredits ↔ id ∈ s.service.processedCredits := by
      rw [credits]
      split
      · rw [Finset.mem_insert]
        exact or_iff_right apart
      · rfl
    have only {u : TransferInitiatedEvent} (member : u ∈ s.debits) (same : u.correlationId = t.correlationId) :
        u = t := List.inj_on_of_nodup_map unique member debited same
    refine ⟨fun id => debits ▸ inv.processed id, fun u member => ?_, inv.returned, fun id some => ?_,
      fun u member there => ?_, fun u member there => ?_⟩
    · obtain ⟨initiated, positive, source⟩ := inv.debited u member
      exact ⟨initiated, positive, (accounts _).mpr source⟩
    · by_cases apart : id = t.correlationId
      · exact apart ▸ own
      · refine inv.known id ?_
        simp only [settledIds_append, debited_correlationId] at some
        rwa [append apart, others apart, append apart] at some
    · simp only [settledIds_append, debited_correlationId]
      by_cases apart : u.correlationId = t.correlationId
      · obtain rfl := only member apart
        refine iff_of_true (List.mem_append_right _ (List.mem_singleton_self _)) ?_
        rw [credits, if_pos ((accounts _).mp there)]
        exact Finset.mem_insert_self _ _
      · rw [append apart, others apart]
        exact inv.credited u member ((accounts _).mp there)
    · simp only [settledIds_append, debited_correlationId]
      have missing := mt (accounts _).mpr there
      by_cases apart : u.correlationId = t.correlationId
      · obtain rfl := only member apart
        rw [credits, if_neg missing]
        have last (ids : List Uuid) : u.correlationId ∈ ids ++ [u.correlationId] :=
          List.mem_append_right _ (List.mem_singleton_self _)
        exact ⟨(inv.refunded u member missing).1, iff_of_true (last _) (last _)⟩
      · rw [append apart, others apart, append apart]
        exact inv.refunded u member missing

theorem Accounted.settled_iff (inv : Accounted s) (debited : t ∈ s.debits)
    (new : t.correlationId ∉ s.service.processedCredits) :
    t.correlationId ∉ s.settledIds ↔ (t.toAccount ∉ s.service.balances → t.correlationId ∉ s.handled) := by
  by_cases there : t.toAccount ∈ s.service.balances
  · exact iff_of_true (mt (inv.credited t debited there).mp new) fun missing => absurd there missing
  · rw [(inv.refunded t debited there).2]
    exact (imp_iff_right there).symm

-- A refund is the only settlement that may come a second time.
theorem conserves_debited_iff {seeded : Int} (inv : Accounted s) (holds : Conserves seeded s)
    (debited : t ∈ s.debits) (move : DebitedMove s (t.debited now) t.toAccount s') :
    Conserves seeded s' ↔ (t.toAccount ∉ s.service.balances → t.correlationId ∉ s.handled) := by
  obtain ⟨funds, debitedOnce, settledOnce⟩ := holds
  cases move with
  | repeated known =>
    refine iff_of_true ⟨funds, debitedOnce, settledOnce⟩ fun missing => ?_
    exact absurd known (inv.refunded t debited missing).1
  | settled service new accounts raised =>
    rw [← inv.settled_iff debited new]
    constructor
    · rintro ⟨-, -, once⟩
      rw [settledIds_append] at once
      exact fun before => (List.nodup_append.mp once).2.2 _ before _ (List.mem_singleton_self _) rfl
    · intro first
      refine ⟨?_, debitedOnce, ?_⟩
      · have settle := unsettled_settle debitedOnce debited first
        rw [settledIds_append]
        change service.funds + unsettled (s.settledIds ++ [t.correlationId]) s.debits = seeded
        have raised : service.funds = s.service.funds + t.amount := raised
        omega
      · rw [settledIds_append]
        refine settledOnce.append (List.nodup_singleton _) ?_
        rwa [List.disjoint_singleton]

end Invariant

section Runs

variable {s : ChoreographyRun} {seeded : Int} {d : Delivery}

theorem debitedMove_of_possible {event : AccountDebitedEvent} {toAccount : String} (inv : Accounted s)
    (now : Timestamp) (possible : (event, toAccount) ∈ s.returned) :
    ∃ t ∈ s.debits, ∃ then_, event = t.debited then_ ∧ toAccount = t.toAccount ∧
      DebitedMove s (t.debited then_) t.toAccount (s.deliver (.debited event toAccount now)) := by
  obtain ⟨t, member, then_, same⟩ := inv.returned _ possible
  obtain ⟨rfl, rfl⟩ := Prod.mk.inj same
  obtain ⟨-, positive, source⟩ := inv.debited t member
  exact ⟨t, member, then_, rfl, rfl, debitedMove (t.debited then_) t.toAccount now positive source⟩

theorem deliver_accounted (inv : Accounted s) (possible : s.Possible d) (holds : Conserves seeded s) :
    Accounted (s.deliver d) := by
  cases d with
  | initiated event now => exact inv.initiated possible.1 possible.2 (initiatedMove event now possible.1)
  | debited event toAccount now =>
    obtain ⟨t, member, then_, -, -, move⟩ := debitedMove_of_possible inv now possible
    exact inv.handled member holds.debitedOnce move

theorem deliver_conserves_iff (inv : Accounted s) (possible : s.Possible d) (holds : Conserves seeded s) :
    Conserves seeded (s.deliver d) ↔ s.MissingOnce d := by
  cases d with
  | initiated event now =>
    exact iff_of_true (holds.initiated inv (initiatedMove event now possible.1)) trivial
  | debited event toAccount now =>
    obtain ⟨t, member, then_, rfl, rfl, move⟩ := debitedMove_of_possible inv now possible
    rw [conserves_debited_iff inv holds member move, MissingOnce, Finmap.lookup_eq_none]
    rfl

theorem start_conserves (balances : Map String Decimal) :
    Conserves (start balances).service.funds (start balances) where
  funds := Int.add_zero _
  debitedOnce := List.nodup_nil
  settledOnce := List.nodup_nil

namespace Sample

def alone : Map String Decimal := Finmap.insert "alice" (1000 : Int) ∅

def toNobody : TransferInitiatedEvent :=
  ⟨⟨1⟩, "tx-1", "alice", "bob", (200 : Int), ⟨0⟩⟩

end Sample

open ChoreographyRun.Sample

end Runs

end ChoreographyRun

end BankingLedger
