import BankingLedger.Service.ChoreographyStages

set_option autoImplicit false

namespace BankingLedger

open FiniteMap MessagePassing Runs

namespace ChoreographySystem

structure Distinct (sagas : Multiset TransferSaga) : Prop where
  correlationIds : (sagas.map fun saga => saga.transfer.correlationId).Nodup
  transactionIds : (sagas.map fun saga => saga.transfer.transactionId).Nodup

structure TracksAccounts (seeds : Map String Decimal) (accounts : ChoreographyAccountService)
    (sagas : Multiset TransferSaga) : Prop where
  debits : ∀ id, id ∈ accounts.processedDebits ↔
    ∃ saga ∈ sagas, saga.stage.isDebited ∧ saga.transfer.correlationId = id
  credits : ∀ id, id ∈ accounts.processedCredits ↔
    ∃ saga ∈ sagas, saga.stage.isCredited ∧ saga.transfer.correlationId = id
  balances : Explains (TransferSaga.allMoved sagas) seeds accounts.balances
  sources : ∀ saga ∈ sagas, saga.stage.isDebited → saga.transfer.fromAccount ∈ seeds

structure TracksTransactions (s : ChoreographySystem) (sagas : Multiset TransferSaga) : Prop where
  shown : ∀ saga ∈ sagas, s.transactions.states.lookup saga.transfer.transactionId = some saga.stage.shown
  announced : ∀ saga ∈ sagas,
    s.announced.filter (fun a => a.correlationId = saga.transfer.correlationId) = saga.stage.announced saga.transfer
  known : ∀ a ∈ s.announced, ∃ saga ∈ sagas, saga.transfer.correlationId = a.correlationId

structure Tracks (seeds : Map String Decimal) (n : Network ChoreographySystem ChoreographyMessage)
    (sagas : Multiset TransferSaga) : Prop where
  inFlight : n.inFlight = sagas.bind TransferSaga.messages
  transfers : (n.state.transfers : Multiset TransferInitiatedEvent) = sagas.map (·.transfer)
  distinct : Distinct sagas
  accounts : TracksAccounts seeds n.state.accounts sagas
  transactions : TracksTransactions n.state sagas

section Replace

variable {seeds : Map String Decimal} {s s' : ChoreographySystem} {rest : Multiset TransferSaga}
  {t : TransferInitiatedEvent} {stage stage' : TransferStage} {accounts accounts' : ChoreographyAccountService}

theorem Distinct.others (distinct : Distinct (⟨t, stage⟩ ::ₘ rest)) {other : TransferSaga} (member : other ∈ rest) :
    other.transfer.correlationId ≠ t.correlationId ∧ other.transfer.transactionId ≠ t.transactionId := by
  have ids := distinct.correlationIds
  have transactionIds := distinct.transactionIds
  rw [Multiset.map_cons, Multiset.nodup_cons] at ids transactionIds
  constructor
  next =>
    intro same
    exact ids.1 (Multiset.mem_map.mpr ⟨other, member, same⟩)
  next =>
    intro same
    exact transactionIds.1 (Multiset.mem_map.mpr ⟨other, member, same⟩)

theorem Distinct.advance (distinct : Distinct (⟨t, stage⟩ ::ₘ rest)) : Distinct (⟨t, stage'⟩ ::ₘ rest) := by
  obtain ⟨ids, transactionIds⟩ := distinct
  rw [Multiset.map_cons] at ids transactionIds
  exact ⟨by rwa [Multiset.map_cons], by rwa [Multiset.map_cons]⟩

theorem allMoved_cons (saga : TransferSaga) (account : String) :
    TransferSaga.allMoved (saga ::ₘ rest) account = saga.moved account + TransferSaga.allMoved rest account := by
  rw [TransferSaga.allMoved, Multiset.map_cons, Multiset.sum_cons, TransferSaga.allMoved]

theorem marked_cons_iff {is : TransferStage → Bool} {id : Uuid} :
    (∃ saga ∈ ⟨t, stage⟩ ::ₘ rest, is saga.stage ∧ saga.transfer.correlationId = id) ↔
      (is stage ∧ t.correlationId = id) ∨ ∃ saga ∈ rest, is saga.stage ∧ saga.transfer.correlationId = id := by
  simp only [Multiset.mem_cons, or_and_right, exists_or, exists_eq_left]

theorem mark_grows {before after own others : Prop} (grows : before → after) :
    ((before ∧ own) ∨ others) ∨ after ∧ own ↔ (after ∧ own) ∨ others := by
  tauto

theorem TracksAccounts.advance (tracks : TracksAccounts seeds accounts (⟨t, stage⟩ ::ₘ rest))
    (debits : ∀ id, id ∈ accounts'.processedDebits ↔
      id ∈ accounts.processedDebits ∨ stage'.isDebited ∧ t.correlationId = id)
    (debited : stage.isDebited → stage'.isDebited)
    (credits : ∀ id, id ∈ accounts'.processedCredits ↔
      id ∈ accounts.processedCredits ∨ stage'.isCredited ∧ t.correlationId = id)
    (credited : stage.isCredited → stage'.isCredited)
    (balances : Explains (TransferSaga.allMoved (⟨t, stage'⟩ ::ₘ rest)) seeds accounts'.balances)
    (source : stage'.isDebited → t.fromAccount ∈ seeds) : TracksAccounts seeds accounts' (⟨t, stage'⟩ ::ₘ rest) where
  debits id := by
    rw [debits, tracks.debits, marked_cons_iff, marked_cons_iff]
    exact mark_grows debited
  credits id := by
    rw [credits, tracks.credits, marked_cons_iff, marked_cons_iff]
    exact mark_grows credited
  balances := balances
  sources := by
    refine Multiset.forall_mem_cons.mpr ⟨source, fun other member => ?_⟩
    exact tracks.sources other (Multiset.mem_cons_of_mem member)

theorem TracksAccounts.unmoved (tracks : TracksAccounts seeds accounts (⟨t, stage⟩ ::ₘ rest))
    (debited : stage'.isDebited = stage.isDebited) (credited : stage'.isCredited = stage.isCredited)
    (refunded : stage'.isRefunded = stage.isRefunded) : TracksAccounts seeds accounts (⟨t, stage'⟩ ::ₘ rest) := by
  refine tracks.advance (fun id => ?_) (fun before => debited ▸ before) (fun id => ?_) (fun before => credited ▸ before)
    (fun account => ?_) fun after => ?_
  next =>
    rw [debited, tracks.debits, marked_cons_iff]
    exact (or_iff_left_of_imp Or.inl).symm
  next =>
    rw [credited, tracks.credits, marked_cons_iff]
    exact (or_iff_left_of_imp Or.inl).symm
  next =>
    have same : (⟨t, stage'⟩ : TransferSaga).moved account = (⟨t, stage⟩ : TransferSaga).moved account := by
      simp only [TransferSaga.moved, TransferStage.moved, debited, credited, refunded]
    rw [allMoved_cons, same, ← allMoved_cons]
    exact tracks.balances account
  next =>
    have before : stage.isDebited := debited ▸ after
    exact tracks.sources _ (Multiset.mem_cons_self _ _) before

theorem known_advance {id : Uuid} (known : ∃ saga ∈ ⟨t, stage⟩ ::ₘ rest, saga.transfer.correlationId = id) :
    ∃ saga ∈ ⟨t, stage'⟩ ::ₘ rest, saga.transfer.correlationId = id := by
  simpa only [Multiset.mem_cons, or_and_right, exists_or, exists_eq_left] using known

theorem TracksTransactions.unseen (tracks : TracksTransactions s (⟨t, stage⟩ ::ₘ rest))
    (transactions : s'.transactions = s.transactions) (same : s'.announced = s.announced)
    (shown : stage'.shown = stage.shown) (announced : stage'.announced t = stage.announced t) :
    TracksTransactions s' (⟨t, stage'⟩ ::ₘ rest) := by
  obtain ⟨before, said, known⟩ := tracks
  rw [← transactions] at before
  rw [← same] at said known
  obtain ⟨own, others⟩ := Multiset.forall_mem_cons.mp before
  obtain ⟨ownSaid, othersSaid⟩ := Multiset.forall_mem_cons.mp said
  exact ⟨Multiset.forall_mem_cons.mpr ⟨own.trans (congrArg some shown.symm), others⟩,
    Multiset.forall_mem_cons.mpr ⟨ownSaid.trans announced.symm, othersSaid⟩,
    fun a member => known_advance (known a member)⟩

theorem TracksTransactions.tell (tracks : TracksTransactions s (⟨t, stage⟩ ::ₘ rest))
    (distinct : Distinct (⟨t, stage⟩ ::ₘ rest)) {more : List SagaAnnouncement}
    (about : ∀ a ∈ more, a.correlationId = t.correlationId)
    (announced : stage'.announced t = stage.announced t ++ more) :
    TracksTransactions (s.tell t.transactionId stage'.shown more) (⟨t, stage'⟩ ::ₘ rest) := by
  have shown := Multiset.forall_mem_cons.mp tracks.shown
  have said := Multiset.forall_mem_cons.mp tracks.announced
  refine ⟨Multiset.forall_mem_cons.mpr ⟨?_, fun other member => ?_⟩,
    Multiset.forall_mem_cons.mpr ⟨?_, fun other member => ?_⟩, fun a member => ?_⟩
  next => exact Finmap.lookup_insert _
  next =>
    have apart := (distinct.others member).2
    rw [ChoreographySystem.tell, lookup_insert_eq, if_neg apart]
    exact shown.2 other member
  next =>
    have own : more.filter (fun a => a.correlationId = t.correlationId) = more := by
      rw [List.filter_eq_self]
      exact fun a member => decide_eq_true (about a member)
    rw [ChoreographySystem.tell, List.filter_append, said.1, own, announced]
  next =>
    have apart := (distinct.others member).1
    have none : more.filter (fun a => a.correlationId = other.transfer.correlationId) = [] := by
      rw [List.filter_eq_nil_iff]
      exact fun a member => by simp [about a member, Ne.symm apart]
    rw [ChoreographySystem.tell, List.filter_append, none, List.append_nil]
    exact said.2 other member
  next =>
    rcases List.mem_append.mp member with before | now
    next => exact known_advance (tracks.known a before)
    next => exact ⟨_, Multiset.mem_cons_self _ _, (about a now).symm⟩

end Replace

section Steps

variable {seeds : Map String Decimal} {n : Network ChoreographySystem ChoreographyMessage}
  {rest sagas : Multiset TransferSaga} {t : TransferInitiatedEvent} {stage stage' : TransferStage}
  {message : ChoreographyMessage} {remaining : Multiset ChoreographyMessage}
  {answer : ChoreographySystem × Multiset ChoreographyMessage} {accounts : ChoreographyAccountService}

theorem Tracks.advance (tracks : Tracks seeds n (⟨t, stage⟩ ::ₘ rest))
    (taken : stage.messages t = message ::ₘ remaining) (sent : stage'.messages t = answer.2 + remaining)
    (transfers : answer.1.transfers = n.state.transfers)
    (accounts : TracksAccounts seeds answer.1.accounts (⟨t, stage'⟩ ::ₘ rest))
    (transactions : TracksTransactions answer.1 (⟨t, stage'⟩ ::ₘ rest)) :
    Tracks seeds ((n.without message).sends answer) (⟨t, stage'⟩ ::ₘ rest) where
  inFlight := by
    have before : n.inFlight = message ::ₘ (remaining + rest.bind TransferSaga.messages) := by
      rw [tracks.inFlight, Multiset.cons_bind, TransferSaga.messages, taken, Multiset.cons_add]
    have after : (⟨t, stage'⟩ : TransferSaga).messages = answer.2 + remaining := sent
    rw [Network.sends, Network.without, before, Multiset.erase_cons_head, Multiset.cons_bind, after, add_assoc]
  transfers := by
    have before := tracks.transfers
    rw [Multiset.map_cons] at before ⊢
    exact (congrArg _ transfers).trans before
  distinct := tracks.distinct.advance
  accounts := accounts
  transactions := transactions

theorem held_of_found (tracks : TracksAccounts seeds n.state.accounts sagas) {account : String} {b : Decimal}
    (found : n.state.accounts.balances.lookup account = some b) : TransferSaga.held seeds sagas account = b := by
  have explained := tracks.balances account
  rw [found] at explained
  obtain ⟨seed, seeded, same⟩ := Option.map_eq_some_iff.mp explained.symm
  rw [TransferSaga.held, valueAt_of_found seeded, ← same]

theorem unmarked (tracks : TracksAccounts seeds n.state.accounts (⟨t, stage⟩ ::ₘ rest))
    (distinct : Distinct (⟨t, stage⟩ ::ₘ rest)) (undebited : stage.isDebited = false) :
    t.correlationId ∉ n.state.accounts.processedDebits := by
  rw [tracks.debits, marked_cons_iff, undebited]
  rintro (⟨debited, _⟩ | ⟨saga, member, _, same⟩)
  next => cases debited
  next => exact (distinct.others member).1 same

theorem TracksAccounts.debit_marked (tracks : TracksAccounts seeds accounts (⟨t, stage⟩ ::ₘ rest))
    (debited : stage.isDebited) (id : Uuid) {after : Prop} :
    id ∈ accounts.processedDebits ↔ id ∈ accounts.processedDebits ∨ after ∧ t.correlationId = id := by
  have own : after ∧ t.correlationId = id → id ∈ accounts.processedDebits :=
    fun marked => (tracks.debits id).mpr ⟨_, Multiset.mem_cons_self _ _, debited, marked.2⟩
  exact (or_iff_left_of_imp own).symm

theorem unset {after : Prop} (set : (false : Bool)) : after := absurd set Bool.false_ne_true

theorem uncredited (tracks : TracksAccounts seeds n.state.accounts (⟨t, stage⟩ ::ₘ rest))
    (distinct : Distinct (⟨t, stage⟩ ::ₘ rest)) (notYet : stage.isCredited = false) :
    t.correlationId ∉ n.state.accounts.processedCredits := by
  rw [tracks.credits, marked_cons_iff, notYet]
  rintro (⟨credited, _⟩ | ⟨saga, member, _, same⟩)
  next => cases credited
  next => exact (distinct.others member).1 same

variable {now : Timestamp}

theorem initiated_step (tracks : Tracks seeds n (⟨t, .requested⟩ ::ₘ rest)) :
    ∃ stage', TransferStage.Advances seeds (TransferSaga.held seeds (⟨t, .requested⟩ ::ₘ rest)) t .requested stage' ∧
      Tracks seeds (parties.once n (.deliver (.initiated t) now)) (⟨t, stage'⟩ ::ₘ rest) := by
  have accounts := tracks.accounts
  have taken : TransferStage.requested.messages t = .initiated t ::ₘ 0 := rfl
  have turn := initiatedTurn n.state t now
  rw [System.once, show parties.receive = receive from rfl]
  generalize receive now n.state (.initiated t) = answer at turn ⊢
  cases turn with
  | repeated known => exact absurd known (unmarked accounts tracks.distinct rfl)
  | @debited b new found enough =>
    have source : t.fromAccount ∈ seeds := (accounts.balances.mem_iff _).mp (Finmap.mem_of_lookup_eq_some found)
    refine ⟨.debited now (some now), .debit now source (held_of_found accounts found ▸ enough), ?_⟩
    have sent : (TransferStage.debited now (some now)).messages t =
        {.debitNotice (t.debited now), .debited (t.debited now) t.toAccount} + 0 :=
      (Multiset.cons_swap _ _ 0).trans (add_zero _).symm
    refine tracks.advance taken sent rfl ?_ (tracks.transactions.unseen rfl rfl rfl rfl)
    refine accounts.advance (fun id => ?_) unset (fun id => ?_) unset ?_ fun _ => source
    next =>
      simp only [markDebit, Finset.mem_insert, TransferStage.isDebited, true_and, or_comm, eq_comm]
    next => simp only [markDebit, TransferStage.isCredited, Bool.false_eq_true, false_and, or_false]
    next =>
      refine accounts.balances.insert found fun other => ?_
      rw [allMoved_cons, allMoved_cons]
      by_cases here : t.fromAccount = other <;>
        simp [TransferSaga.moved, TransferStage.moved, TransferStage.isCredited, TransferStage.isDebited,
          TransferStage.isRefunded, outOf, here, add_comm]
  | @refused reason new short =>
    refine ⟨.refused reason now, .refuse reason now fun source => ?_, ?_⟩
    next =>
      obtain ⟨b, found⟩ := Finmap.mem_iff.mp ((accounts.balances.mem_iff _).mpr source)
      rw [held_of_found accounts found]
      exact short b found
    next =>
      have sent : (TransferStage.refused reason now).messages t = {.debitFailed (t.debitFailed now reason)} + 0 :=
        (add_zero _).symm
      exact tracks.advance taken sent rfl (accounts.unmoved rfl rfl rfl) (tracks.transactions.unseen rfl rfl rfl rfl)

theorem debited_step {answered : Timestamp} {notice : Option Timestamp}
    (tracks : Tracks seeds n (⟨t, .debited answered notice⟩ ::ₘ rest)) :
    ∃ stage', TransferStage.Advances seeds (TransferSaga.held seeds (⟨t, .debited answered notice⟩ ::ₘ rest)) t
        (.debited answered notice) stage' ∧
      Tracks seeds (parties.once n (.deliver (.debited (t.debited answered) t.toAccount) now))
        (⟨t, stage'⟩ ::ₘ rest) := by
  have accounts := tracks.accounts
  have taken : (TransferStage.debited answered notice).messages t =
      .debited (t.debited answered) t.toAccount ::ₘ noticeMessages t notice := rfl
  have source : t.fromAccount ∈ seeds := accounts.sources _ (Multiset.mem_cons_self _ _) rfl
  have turn := debitedTurn n.state t answered now ((accounts.balances.mem_iff _).mpr source)
  rw [System.once, show parties.receive = receive from rfl]
  generalize receive now n.state (.debited (t.debited answered) t.toAccount) = answer at turn ⊢
  cases turn with
  | repeated known => exact absurd known (uncredited accounts tracks.distinct rfl)
  | @credited b new found =>
    have destination : t.toAccount ∈ seeds := (accounts.balances.mem_iff _).mp (Finmap.mem_of_lookup_eq_some found)
    refine ⟨.credited now notice, .credit answered now notice destination, ?_⟩
    have shown : (TransferStage.credited now notice).shown = (TransferStage.debited answered notice).shown := by
      cases notice <;> rfl
    refine tracks.advance taken (Multiset.singleton_add _ _).symm rfl ?_ (tracks.transactions.unseen rfl rfl shown rfl)
    refine accounts.advance (fun id => ?_) (fun _ => rfl) (fun id => ?_) unset ?_ fun _ => source
    next => exact accounts.debit_marked rfl id
    next => simp only [markCredit, Finset.mem_insert, TransferStage.isCredited, true_and, or_comm, eq_comm]
    next =>
      refine accounts.balances.insert found fun other => ?_
      rw [allMoved_cons, allMoved_cons]
      by_cases here : t.toAccount = other
      next =>
        simp only [TransferSaga.moved, TransferStage.moved, TransferStage.isCredited, TransferStage.isDebited,
          TransferStage.isRefunded, into, here, if_true, Bool.not_false, Bool.and_self, Bool.false_eq_true, if_false]
        omega
      next =>
        simp only [TransferSaga.moved, TransferStage.moved, TransferStage.isCredited, TransferStage.isDebited,
          TransferStage.isRefunded, into, here, if_true, Bool.not_false, Bool.and_self, Bool.false_eq_true, if_false]
        omega
  | @refunded b new missing found =>
    have nowhere : t.toAccount ∉ seeds := mt (accounts.balances.mem_iff _).mpr missing
    refine ⟨.refunded now notice, .refund answered now notice nowhere, ?_⟩
    have shown : (TransferStage.refunded now notice).shown = (TransferStage.debited answered notice).shown := by
      cases notice <;> rfl
    refine tracks.advance taken (Multiset.singleton_add _ _).symm rfl ?_ (tracks.transactions.unseen rfl rfl shown rfl)
    refine accounts.advance (fun id => ?_) (fun _ => rfl) (fun id => ?_) unset ?_ fun _ => source
    next => exact accounts.debit_marked rfl id
    next => simp only [payBack, TransferStage.isCredited, Bool.false_eq_true, false_and, or_false]
    next =>
      refine accounts.balances.insert found fun other => ?_
      rw [allMoved_cons, allMoved_cons]
      by_cases here : t.fromAccount = other
      next =>
        simp only [TransferSaga.moved, TransferStage.moved, TransferStage.isCredited, TransferStage.isDebited,
          TransferStage.isRefunded, outOf, here, if_true, Bool.not_false, Bool.not_true, Bool.and_self, Bool.and_false,
          Bool.false_eq_true, if_false, TransferInitiatedEvent.debited]
        omega
      next =>
        simp [TransferSaga.moved, TransferStage.moved, TransferStage.isCredited, TransferStage.isDebited,
          TransferStage.isRefunded, outOf, here, TransferInitiatedEvent.debited]

theorem told_step (tracks : Tracks seeds n (⟨t, stage⟩ ::ₘ rest))
    (taken : stage.messages t = message ::ₘ stage'.messages t) (debited : stage'.isDebited = stage.isDebited)
    (credited : stage'.isCredited = stage.isCredited) (refunded : stage'.isRefunded = stage.isRefunded)
    {more : List SagaAnnouncement} (about : ∀ a ∈ more, a.correlationId = t.correlationId)
    (announced : stage'.announced t = stage.announced t ++ more) :
    Tracks seeds ((n.without message).sends (n.state.tell t.transactionId stage'.shown more, 0))
      (⟨t, stage'⟩ ::ₘ rest) :=
  tracks.advance taken (Multiset.zero_add _).symm rfl (tracks.accounts.unmoved debited credited refunded)
    (tracks.transactions.tell tracks.distinct about announced)

/-- The notice of a debit arrives before its transfer is closed. -/
def NoticeFirst (n : Network ChoreographySystem ChoreographyMessage) : ChoreographyStep → Prop
  | .deliver (.debitNotice event) _ => ∀ a ∈ n.state.announced, a.correlationId ≠ event.correlationId
  | _ => True

instance (n : Network ChoreographySystem ChoreographyMessage) : DecidablePred (NoticeFirst n)
  | .deliver (.debitNotice event) _ =>
    inferInstanceAs (Decidable (∀ a ∈ n.state.announced, a.correlationId ≠ event.correlationId))
  | .request _ | .deliver (.initiated _) _ | .deliver (.debited _ _) _ | .deliver (.debitFailed _) _
  | .deliver (.credited _) _ | .deliver (.creditFailed _) _ => isTrue trivial

def AllInTime (sagas : Multiset TransferSaga) : Prop := ∀ saga ∈ sagas, saga.stage.isLate = false

theorem deliver_step (tracks : Tracks seeds n (⟨t, stage⟩ ::ₘ rest)) (awaits : stage.Awaits t message) :
    ∃ stage', stage.Advances seeds (TransferSaga.held seeds (⟨t, stage⟩ ::ₘ rest)) t stage' ∧
      Tracks seeds (parties.once n (.deliver message now)) (⟨t, stage'⟩ ::ₘ rest) := by
  cases awaits with
  | initiated => exact initiated_step tracks
  | debited answered notice => exact debited_step tracks
  | debitFailed reason answered =>
    have taken : (TransferStage.refused reason answered).messages t =
        .debitFailed (t.debitFailed answered reason) ::ₘ (TransferStage.failed reason now).messages t := rfl
    have announced : (TransferStage.failed reason now).announced t =
        (TransferStage.refused reason answered).announced t ++
          [.failed ⟨t.correlationId, t.transactionId, reason, now⟩] := rfl
    refine ⟨.failed reason now, .fail reason answered now, ?_⟩
    exact told_step tracks taken rfl rfl rfl (List.forall_mem_singleton.mpr rfl) announced
  | credited answered notice =>
    have taken : (TransferStage.credited answered notice).messages t =
        .credited ((t.debited answered).credited answered t.toAccount) ::ₘ
          (TransferStage.completed now (.ofNotice notice)).messages t := by
      rw [TransferStage.messages, TransferStage.messages, NoticeStatus.notice_ofNotice]
    have announced : (TransferStage.completed now (.ofNotice notice)).announced t =
        (TransferStage.credited answered notice).announced t ++
          [.completed ⟨t.correlationId, t.transactionId, now⟩] := rfl
    refine ⟨.completed now (.ofNotice notice), .complete answered now notice, ?_⟩
    have step := told_step tracks taken rfl rfl rfl (List.forall_mem_singleton.mpr rfl) announced
    rw [TransferStage.shown, NoticeStatus.shown_ofNotice] at step
    exact step
  | creditFailed answered notice =>
    have taken : (TransferStage.refunded answered notice).messages t =
        .creditFailed ((t.debited answered).creditFailed answered t.toAccount) ::ₘ
          (TransferStage.returned now (.ofNotice notice)).messages t := by
      rw [TransferStage.messages, TransferStage.messages, NoticeStatus.notice_ofNotice]
    have announced : (TransferStage.returned now (.ofNotice notice)).announced t =
        (TransferStage.refunded answered notice).announced t ++
          [.failed ⟨t.correlationId, t.transactionId, "DESTINATION_NOT_FOUND", now⟩,
            .refundInitiated ⟨t.correlationId, t.transactionId, t.toAccount, t.amount, now⟩] := rfl
    refine ⟨.returned now (.ofNotice notice), .giveBack answered now notice, ?_⟩
    have step := told_step tracks taken rfl rfl rfl
      (List.forall_mem_cons.mpr ⟨rfl, List.forall_mem_singleton.mpr rfl⟩) announced
    rw [TransferStage.shown, NoticeStatus.shown_ofNotice] at step
    exact step
  | notice sent heard taken =>
    obtain ⟨debited, credited, refunded, announced, shown⟩ := TransferStage.hear_same heard
    refine ⟨_, .hear heard, ?_⟩
    have step := told_step tracks taken debited credited refunded (List.forall_mem_nil _)
      (announced.trans (List.append_nil _).symm)
    rw [shown, ChoreographySystem.tell, List.append_nil] at step
    exact step

-- A message that arrives in time finds its transfer open.
theorem unannounced (tracks : Tracks seeds n (⟨t, stage⟩ ::ₘ rest)) (awaits : stage.Awaits t message)
    (first : NoticeFirst n (.deliver message now)) : stage.announced t = [] := by
  cases awaits with
  | initiated | debitFailed | debited | credited | creditFailed => rfl
  | notice sent heard taken =>
    rw [← (Multiset.forall_mem_cons.mp tracks.transactions.announced).1, List.filter_eq_nil_iff]
    exact fun a member => decide_eq_true_iff.not.mpr (first a member)

theorem initiate_step (tracks : Tracks seeds n sagas) {r : Initiation} (fresh : Fresh n.state r) :
    ∃ t, (∀ saga ∈ sagas, saga.transfer.correlationId ≠ t.correlationId ∧
        saga.transfer.transactionId ≠ t.transactionId) ∧
      Tracks seeds (parties.once n (.request r)) (⟨t, .requested⟩ ::ₘ sagas) := by
  let t : TransferInitiatedEvent :=
    ⟨r.correlationId, r.transactionId, r.fromAccount, r.toAccount, r.amount, r.now⟩
  have known {saga : TransferSaga} (member : saga ∈ sagas) : saga.transfer ∈ n.state.transfers := by
    rw [← Multiset.mem_coe, tracks.transfers]
    exact Multiset.mem_map_of_mem _ member
  have others : ∀ saga ∈ sagas, saga.transfer.correlationId ≠ t.correlationId ∧
      saga.transfer.transactionId ≠ t.transactionId := by
    intro saga member
    constructor
    next => exact fun same => fresh.1 (List.mem_map.mpr ⟨saga.transfer, known member, same⟩)
    next => exact fun same => fresh.2 (List.mem_map.mpr ⟨saga.transfer, known member, same⟩)
  refine ⟨t, others, ⟨?_, ?_, ⟨?_, ?_⟩, ⟨fun id => ?_, fun id => ?_, fun account => ?_, ?_⟩, ⟨?_, ?_, ?_⟩⟩⟩
  next =>
    have here : n.inFlight = sagas.bind TransferSaga.messages := tracks.inFlight
    rw [Multiset.cons_bind, ← here]
    rfl
  next =>
    rw [Multiset.map_cons, ← tracks.transfers]
    exact (Multiset.coe_add _ _).symm.trans (add_comm _ _)
  next =>
    rw [Multiset.map_cons, Multiset.nodup_cons, Multiset.mem_map]
    refine ⟨?_, tracks.distinct.correlationIds⟩
    rintro ⟨saga, member, same⟩
    exact (others saga member).1 same
  next =>
    rw [Multiset.map_cons, Multiset.nodup_cons, Multiset.mem_map]
    refine ⟨?_, tracks.distinct.transactionIds⟩
    rintro ⟨saga, member, same⟩
    exact (others saga member).2 same
  next =>
    rw [marked_cons_iff]
    exact (tracks.accounts.debits id).trans (or_iff_right fun own => Bool.false_ne_true own.1).symm
  next =>
    rw [marked_cons_iff]
    exact (tracks.accounts.credits id).trans (or_iff_right fun own => Bool.false_ne_true own.1).symm
  next =>
    rw [allMoved_cons]
    have nothing : (⟨t, .requested⟩ : TransferSaga).moved account = 0 := rfl
    rw [nothing, Int.zero_add]
    exact tracks.accounts.balances account
  next => exact Multiset.forall_mem_cons.mpr ⟨nofun, tracks.accounts.sources⟩
  next =>
    refine Multiset.forall_mem_cons.mpr ⟨Finmap.lookup_insert _, fun saga member => ?_⟩
    exact (Finmap.lookup_insert_of_ne _ (others saga member).2).trans (tracks.transactions.shown saga member)
  next =>
    refine Multiset.forall_mem_cons.mpr ⟨List.filter_eq_nil_iff.mpr fun a member => ?_, tracks.transactions.announced⟩
    obtain ⟨saga, there, same⟩ := tracks.transactions.known a member
    rw [decide_eq_true_iff, ← same]
    exact (others saga there).1
  next =>
    intro a member
    obtain ⟨saga, there, same⟩ := tracks.transactions.known a member
    exact ⟨saga, Multiset.mem_cons_of_mem there, same⟩

theorem once_step {e : ChoreographyStep} (tracks : Tracks seeds n sagas)
    (possible : Possible Fresh n e) :
    ∃ sagas', TransferSaga.Step seeds sagas sagas' ∧ Tracks seeds (parties.once n e) sagas' ∧
      (NoticeFirst n e → AllInTime sagas → AllInTime sagas') := by
  cases e with
  | request r =>
    obtain ⟨t, others, tracks'⟩ := initiate_step tracks possible
    exact ⟨_, .start t others, tracks', fun _ inTime => Multiset.forall_mem_cons.mpr ⟨rfl, inTime⟩⟩
  | deliver message now =>
    have member : message ∈ sagas.bind TransferSaga.messages := tracks.inFlight ▸ possible
    obtain ⟨⟨t, stage⟩, there, carried⟩ := Multiset.mem_bind.mp member
    obtain ⟨rest, rfl⟩ := Multiset.exists_cons_of_mem there
    have awaits := TransferStage.awaits_of_mem carried
    obtain ⟨stage', advances, tracks'⟩ := deliver_step tracks awaits
    refine ⟨_, .advance advances, tracks', fun first inTime => ?_⟩
    have others := (Multiset.forall_mem_cons.mp inTime).2
    refine Multiset.forall_mem_cons.mpr ⟨?_, others⟩
    rw [← Bool.not_eq_true]
    exact fun late => TransferStage.late_of_advances advances late (unannounced tracks awaits first)

theorem start_tracks (seeds : Map String Decimal) : Tracks seeds (start seeds) 0 where
  inFlight := rfl
  transfers := rfl
  distinct := ⟨Multiset.nodup_zero, Multiset.nodup_zero⟩
  accounts := by
    refine ⟨fun id => ?_, fun id => ?_, fun account => ?_, fun saga member => absurd member (Multiset.notMem_zero _)⟩
    next => simp [start, ChoreographyAccountService.new]
    next => simp [start, ChoreographyAccountService.new]
    next =>
      change seeds.lookup account = (seeds.lookup account).map fun b : Int => b + 0
      cases seeds.lookup account with
      | none => rfl
      | some b => simp
  transactions := by
    refine ⟨fun saga member => absurd member (Multiset.notMem_zero _),
      fun saga member => absurd member (Multiset.notMem_zero _), nofun⟩

end Steps

section Rest

def paidFrom (account : String) (s : ChoreographySystem) : Int :=
  markedSum s.accounts.processedCredits (outOf account) s.transfers

def announcementsOf (t : TransferInitiatedEvent) (s : ChoreographySystem) : List SagaAnnouncement :=
  s.announced.filter fun a => a.correlationId = t.correlationId

inductive ClosedAs (seeds : Map String Decimal) (s : ChoreographySystem) (t : TransferInitiatedEvent) : Prop where
  | completed (closed : Timestamp) : t.correlationId ∈ s.accounts.processedCredits → t.toAccount ∈ seeds →
      s.announcementsOf t = [.completed ⟨t.correlationId, t.transactionId, closed⟩] → ClosedAs seeds s t
  | failed (reason : String) (closed : Timestamp) : t.correlationId ∉ s.accounts.processedDebits →
      s.announcementsOf t = [.failed ⟨t.correlationId, t.transactionId, reason, closed⟩] → ClosedAs seeds s t
  | returned (closed : Timestamp) : t.correlationId ∈ s.accounts.processedDebits →
      t.correlationId ∉ s.accounts.processedCredits → t.toAccount ∉ seeds →
      s.announcementsOf t = [.failed ⟨t.correlationId, t.transactionId, "DESTINATION_NOT_FOUND", closed⟩,
        .refundInitiated ⟨t.correlationId, t.transactionId, t.toAccount, t.amount, closed⟩] → ClosedAs seeds s t

def RefundAnnounced (s : ChoreographySystem) (t : TransferInitiatedEvent) : Prop :=
  ∃ event, .refundInitiated event ∈ s.announcementsOf t

/-- The balances are what the transfers that were made have left, and every transfer is closed. A refund is
announced for those that were debited and have no destination. -/
structure Settled (seeds : Map String Decimal) (s : ChoreographySystem) : Prop where
  balances : ∀ account, s.accounts.balances.lookup account = (seeds.lookup account).map fun b =>
    b - s.paidFrom account + s.creditedTo account
  closed : ∀ t ∈ s.transfers, s.ClosedAs seeds t
  refunds : ∀ t ∈ s.transfers,
    s.RefundAnnounced t ↔ t.correlationId ∈ s.accounts.processedDebits ∧ t.toAccount ∉ seeds

def ShowsOutcomes (s : ChoreographySystem) : Prop :=
  ∀ t ∈ s.transfers, s.transactions.states.lookup t.transactionId =
    some (if t.correlationId ∈ s.accounts.processedCredits then .completed else .failed)

variable {seeds : Map String Decimal} {n : Network ChoreographySystem ChoreographyMessage}
  {sagas : Multiset TransferSaga} {saga : TransferSaga}

theorem Tracks.debited_iff (tracks : Tracks seeds n sagas) (member : saga ∈ sagas) :
    saga.transfer.correlationId ∈ n.state.accounts.processedDebits ↔ saga.stage.isDebited := by
  obtain ⟨rest, rfl⟩ := Multiset.exists_cons_of_mem member
  rw [tracks.accounts.debits, marked_cons_iff, and_iff_left rfl]
  refine or_iff_left ?_
  rintro ⟨other, there, _, same⟩
  exact (tracks.distinct.others there).1 same

theorem Tracks.credited_iff (tracks : Tracks seeds n sagas) (member : saga ∈ sagas) :
    saga.transfer.correlationId ∈ n.state.accounts.processedCredits ↔ saga.stage.isCredited := by
  obtain ⟨rest, rfl⟩ := Multiset.exists_cons_of_mem member
  rw [tracks.accounts.credits, marked_cons_iff, and_iff_left rfl]
  refine or_iff_left ?_
  rintro ⟨other, there, _, same⟩
  exact (tracks.distinct.others there).1 same

theorem Tracks.saga_of (tracks : Tracks seeds n sagas) {t : TransferInitiatedEvent} (member : t ∈ n.state.transfers) :
    ∃ saga ∈ sagas, saga.transfer = t := by
  rw [← Multiset.mem_coe, tracks.transfers] at member
  exact Multiset.mem_map.mp member

theorem Tracks.creditedSum (tracks : Tracks seeds n sagas) (measure : TransferInitiatedEvent → Int) :
    markedSum n.state.accounts.processedCredits measure n.state.transfers =
      (sagas.map fun saga => if saga.stage.isCredited then measure saga.transfer else 0).sum := by
  have listed : markedSum n.state.accounts.processedCredits measure n.state.transfers =
      ((n.state.transfers : Multiset TransferInitiatedEvent).map fun t =>
        if t.correlationId ∈ n.state.accounts.processedCredits then measure t else 0).sum := rfl
  rw [listed, tracks.transfers, Multiset.map_map]
  congr 1
  refine Multiset.map_congr rfl fun saga member => ?_
  simp only [Function.comp_apply, tracks.credited_iff member]

theorem Tracks.closed (tracks : Tracks seeds n sagas) (quiet : n.inFlight = 0) (member : saga ∈ sagas) :
    saga.stage.Closed := by
  have silent : saga.stage.messages saga.transfer = 0 := by
    by_contra some
    obtain ⟨message, carried⟩ := Multiset.exists_mem_of_ne_zero some
    have there : message ∈ sagas.bind TransferSaga.messages := Multiset.mem_bind.mpr ⟨saga, member, carried⟩
    rw [← tracks.inFlight, quiet] at there
    exact Multiset.notMem_zero message there
  exact TransferStage.closed_of_silent silent

theorem Tracks.closedAs (tracks : Tracks seeds n sagas) (member : saga ∈ sagas) (closed : saga.stage.Closed)
    (sited : saga.Sited seeds) : n.state.ClosedAs seeds saga.transfer := by
  have announced := tracks.transactions.announced saga member
  have debited := tracks.debited_iff member
  have credited := tracks.credited_iff member
  obtain ⟨t, stage⟩ := saga
  cases closed with
  | failed reason closed => exact .failed reason closed (fun marked => Bool.false_ne_true (debited.mp marked)) announced
  | completed closed _ => exact .completed closed (credited.mpr rfl) (sited.credited rfl) announced
  | returned closed _ =>
    exact .returned closed (debited.mpr rfl) (fun marked => Bool.false_ne_true (credited.mp marked))
      (sited.refunded rfl) announced

theorem Tracks.refunds (tracks : Tracks seeds n sagas) (member : saga ∈ sagas) (closed : saga.stage.Closed)
    (sited : saga.Sited seeds) : n.state.RefundAnnounced saga.transfer ↔
      saga.transfer.correlationId ∈ n.state.accounts.processedDebits ∧ saga.transfer.toAccount ∉ seeds := by
  have announced : n.state.announcementsOf saga.transfer = saga.stage.announced saga.transfer :=
    tracks.transactions.announced saga member
  rw [RefundAnnounced, announced, tracks.debited_iff member]
  obtain ⟨t, stage⟩ := saga
  cases closed with
  | failed reason closed => simp [TransferStage.announced, TransferStage.isDebited]
  | completed closed _ =>
    have destination : t.toAccount ∈ seeds := sited.credited rfl
    simp [TransferStage.announced, destination]
  | returned closed _ =>
    have missing : t.toAccount ∉ seeds := sited.refunded rfl
    simp [TransferStage.announced, TransferStage.isDebited, missing]

theorem Tracks.settled (tracks : Tracks seeds n sagas) (quiet : n.inFlight = 0)
    (sited : ∀ saga ∈ sagas, saga.Sited seeds) : Settled seeds n.state where
  balances account := by
    have moves : TransferSaga.allMoved sagas account =
        n.state.creditedTo account - n.state.paidFrom account := by
      rw [creditedTo, paidFrom, tracks.creditedSum, tracks.creditedSum, ← Multiset.sum_map_sub,
        TransferSaga.allMoved]
      congr 1
      exact Multiset.map_congr rfl fun saga member => (tracks.closed quiet member).moved account
    rw [tracks.accounts.balances account, moves]
    congr 1
    funext b
    omega
  closed t member := by
    obtain ⟨saga, there, rfl⟩ := tracks.saga_of member
    exact tracks.closedAs there (tracks.closed quiet there) (sited saga there)
  refunds t member := by
    obtain ⟨saga, there, rfl⟩ := tracks.saga_of member
    exact tracks.refunds there (tracks.closed quiet there) (sited saga there)

theorem Tracks.showsOutcomes (tracks : Tracks seeds n sagas) (quiet : n.inFlight = 0) (inTime : AllInTime sagas) :
    n.state.ShowsOutcomes := by
  intro t member
  obtain ⟨saga, there, rfl⟩ := tracks.saga_of member
  rw [tracks.transactions.shown saga there, (tracks.closed quiet there).shown (inTime saga there)]
  simp only [tracks.credited_iff there]

end Rest

section Runs

namespace Sample

def toCarol : TransferInitiatedEvent := ⟨⟨2⟩, "tx-2", "alice", "carol", (300 : Int), ⟨3⟩⟩

-- One transfer is made, the other has no destination.
def bothClosed : List ChoreographyStep :=
  [startToBob, .deliver (.initiated toBob) ⟨1⟩, .request ⟨⟨2⟩, "tx-2", "alice", "carol", (300 : Int), ⟨3⟩⟩,
    .deliver (.debited (toBob.debited ⟨1⟩) "bob") ⟨4⟩, .deliver (.initiated toCarol) ⟨5⟩,
    .deliver (.debited (toCarol.debited ⟨5⟩) "carol") ⟨6⟩, .deliver (.debitNotice (toBob.debited ⟨1⟩)) ⟨7⟩,
    .deliver (.credited ((toBob.debited ⟨1⟩).credited ⟨4⟩ "bob")) ⟨8⟩,
    .deliver (.debitNotice (toCarol.debited ⟨5⟩)) ⟨9⟩,
    .deliver (.creditFailed ((toCarol.debited ⟨5⟩).creditFailed ⟨6⟩ "carol")) ⟨10⟩]

end Sample

open ChoreographySystem.Sample

theorem exists_sagas (seeds : Map String Decimal) (events : List ChoreographyStep)
    (possible : Meets parties.once (Possible Fresh) (start seeds) events) :
    ∃ sagas, Relation.ReflTransGen (TransferSaga.Step seeds) 0 sagas ∧
      Tracks seeds (run parties.once (start seeds) events) sagas := by
  refine run_simulates (fun n e sagas tracks possible => ?_) (start_tracks seeds) possible
  obtain ⟨sagas', step, tracks', -⟩ := once_step tracks possible
  exact ⟨sagas', .single step, tracks'⟩

end Runs

end ChoreographySystem

end BankingLedger
