import BankingLedger.Service.ChoreographyRedelivery
import Mathlib.Data.Multiset.Bind

set_option autoImplicit false

namespace BankingLedger

open FiniteMap MessagePassing Runs

inductive NoticeStatus where
  | pending (sent : Timestamp)
  | inTime
  | late
deriving DecidableEq, Repr

/-- How far a transfer has come. What has been answered and not yet been handled is a stage of its own.
`notice` is the time of the notice of the debit, while that is on its way. -/
inductive TransferStage where
  | requested
  | refused (reason : String) (answered : Timestamp)
  | failed (reason : String) (closed : Timestamp)
  | debited (answered : Timestamp) (notice : Option Timestamp)
  | credited (answered : Timestamp) (notice : Option Timestamp)
  | completed (closed : Timestamp) (status : NoticeStatus)
  | refunded (answered : Timestamp) (notice : Option Timestamp)
  | returned (closed : Timestamp) (status : NoticeStatus)
deriving DecidableEq, Repr

structure TransferSaga where
  transfer : TransferInitiatedEvent
  stage : TransferStage
deriving DecidableEq, Repr

namespace NoticeStatus

def ofNotice : Option Timestamp → NoticeStatus
  | some sent => pending sent
  | none => inTime

def notice : NoticeStatus → Option Timestamp
  | pending sent => some sent
  | inTime | late => none

def shown (outcome : SagaState) : NoticeStatus → SagaState
  | pending _ | inTime => outcome
  | late => .debited

@[simp] theorem notice_ofNotice (notice : Option Timestamp) : (ofNotice notice).notice = notice := by
  cases notice <;> rfl

theorem shown_ofNotice (outcome : SagaState) (notice : Option Timestamp) :
    (ofNotice notice).shown outcome = outcome := by
  cases notice <;> rfl

end NoticeStatus

def noticeMessages (t : TransferInitiatedEvent) : Option Timestamp → Multiset ChoreographyMessage
  | some sent => {.debitNotice (t.debited sent)}
  | none => 0

namespace TransferStage

def messages (t : TransferInitiatedEvent) : TransferStage → Multiset ChoreographyMessage
  | requested => {.initiated t}
  | refused reason answered => {.debitFailed (t.debitFailed answered reason)}
  | failed _ _ => 0
  | debited answered notice => .debited (t.debited answered) t.toAccount ::ₘ noticeMessages t notice
  | credited answered notice =>
    .credited ((t.debited answered).credited answered t.toAccount) ::ₘ noticeMessages t notice
  | refunded answered notice =>
    .creditFailed ((t.debited answered).creditFailed answered t.toAccount) ::ₘ noticeMessages t notice
  | completed _ status | returned _ status => noticeMessages t status.notice

def shown : TransferStage → SagaState
  | requested | refused _ _ => .initiated
  | failed _ _ => .failed
  | debited _ (some _) | credited _ (some _) | refunded _ (some _) => .initiated
  | debited _ none | credited _ none | refunded _ none => .debited
  | completed _ status => status.shown .completed
  | returned _ status => status.shown .failed

def announced (t : TransferInitiatedEvent) : TransferStage → List SagaAnnouncement
  | requested | refused _ _ | debited _ _ | credited _ _ | refunded _ _ => []
  | failed reason closed => [.failed ⟨t.correlationId, t.transactionId, reason, closed⟩]
  | completed closed _ => [.completed ⟨t.correlationId, t.transactionId, closed⟩]
  | returned closed _ =>
    [.failed ⟨t.correlationId, t.transactionId, "DESTINATION_NOT_FOUND", closed⟩,
      .refundInitiated ⟨t.correlationId, t.transactionId, t.toAccount, t.amount, closed⟩]

def isDebited : TransferStage → Bool
  | requested | refused _ _ | failed _ _ => false
  | debited _ _ | credited _ _ | completed _ _ | refunded _ _ | returned _ _ => true

def isCredited : TransferStage → Bool
  | credited _ _ | completed _ _ => true
  | _ => false

def isRefunded : TransferStage → Bool
  | refunded _ _ | returned _ _ => true
  | _ => false

def moved (t : TransferInitiatedEvent) (stage : TransferStage) (account : String) : Int :=
  (if stage.isCredited then ChoreographySystem.into account t else 0) -
    if stage.isDebited && !stage.isRefunded then ChoreographySystem.outOf account t else 0

def hear : TransferStage → Option TransferStage
  | debited answered (some _) => some (debited answered none)
  | credited answered (some _) => some (credited answered none)
  | refunded answered (some _) => some (refunded answered none)
  | completed closed (.pending _) => some (completed closed .late)
  | returned closed (.pending _) => some (returned closed .late)
  | _ => none

inductive Advances (seeds : Map String Decimal) (held : String → Int) (t : TransferInitiatedEvent) :
    TransferStage → TransferStage → Prop where
  | debit (now : Timestamp) : t.fromAccount ∈ seeds → t.amount ≤ held t.fromAccount →
      Advances seeds held t requested (debited now (some now))
  | refuse (reason : String) (now : Timestamp) : (t.fromAccount ∈ seeds → held t.fromAccount < t.amount) →
      Advances seeds held t requested (refused reason now)
  | fail (reason : String) (answered now : Timestamp) :
      Advances seeds held t (refused reason answered) (failed reason now)
  | credit (answered now : Timestamp) (notice : Option Timestamp) : t.toAccount ∈ seeds →
      Advances seeds held t (debited answered notice) (credited now notice)
  | refund (answered now : Timestamp) (notice : Option Timestamp) : t.toAccount ∉ seeds →
      Advances seeds held t (debited answered notice) (refunded now notice)
  | complete (answered now : Timestamp) (notice : Option Timestamp) :
      Advances seeds held t (credited answered notice) (completed now (.ofNotice notice))
  | giveBack (answered now : Timestamp) (notice : Option Timestamp) :
      Advances seeds held t (refunded answered notice) (returned now (.ofNotice notice))
  | hear {stage stage' : TransferStage} : stage.hear = some stage' → Advances seeds held t stage stage'

end TransferStage

namespace TransferSaga

def messages (saga : TransferSaga) : Multiset ChoreographyMessage := saga.stage.messages saga.transfer

def moved (saga : TransferSaga) (account : String) : Int := saga.stage.moved saga.transfer account

def allMoved (sagas : Multiset TransferSaga) (account : String) : Int := (sagas.map fun saga => saga.moved account).sum

def held (seeds : Map String Decimal) (sagas : Multiset TransferSaga) (account : String) : Int :=
  valueAt (fun b : Decimal => b) seeds account + allMoved sagas account

/-- A transfer is started under new ids, or one of them takes a step. -/
inductive Step (seeds : Map String Decimal) : Multiset TransferSaga → Multiset TransferSaga → Prop where
  | start {sagas : Multiset TransferSaga} (t : TransferInitiatedEvent) :
      (∀ saga ∈ sagas, saga.transfer.correlationId ≠ t.correlationId ∧ saga.transfer.transactionId ≠ t.transactionId) →
      Step seeds sagas (⟨t, .requested⟩ ::ₘ sagas)
  | advance {rest : Multiset TransferSaga} {t : TransferInitiatedEvent} {stage stage' : TransferStage} :
      stage.Advances seeds (held seeds (⟨t, stage⟩ ::ₘ rest)) t stage' →
      Step seeds (⟨t, stage⟩ ::ₘ rest) (⟨t, stage'⟩ ::ₘ rest)

end TransferSaga

namespace TransferStage

def isLate : TransferStage → Bool
  | completed _ status | returned _ status => status = .late
  | _ => false

section Messages

variable {t : TransferInitiatedEvent} {stage stage' : TransferStage} {message : ChoreographyMessage}

inductive Awaits (t : TransferInitiatedEvent) : TransferStage → ChoreographyMessage → Prop where
  | initiated : Awaits t requested (.initiated t)
  | debitFailed (reason : String) (answered : Timestamp) :
      Awaits t (refused reason answered) (.debitFailed (t.debitFailed answered reason))
  | debited (answered : Timestamp) (notice : Option Timestamp) :
      Awaits t (debited answered notice) (.debited (t.debited answered) t.toAccount)
  | credited (answered : Timestamp) (notice : Option Timestamp) :
      Awaits t (credited answered notice) (.credited ((t.debited answered).credited answered t.toAccount))
  | creditFailed (answered : Timestamp) (notice : Option Timestamp) :
      Awaits t (refunded answered notice) (.creditFailed ((t.debited answered).creditFailed answered t.toAccount))
  | notice {stage stage' : TransferStage} (sent : Timestamp) : stage.hear = some stage' →
      stage.messages t = .debitNotice (t.debited sent) ::ₘ stage'.messages t →
      Awaits t stage (.debitNotice (t.debited sent))

theorem mem_notice {notice : Option Timestamp} (member : message ∈ noticeMessages t notice) :
    ∃ sent, notice = some sent ∧ message = .debitNotice (t.debited sent) := by
  cases notice with
  | some sent => exact ⟨sent, rfl, Multiset.mem_singleton.mp member⟩
  | none => exact absurd member (Multiset.notMem_zero _)

theorem mem_status {status : NoticeStatus} (member : message ∈ noticeMessages t status.notice) :
    ∃ sent, status = .pending sent ∧ message = .debitNotice (t.debited sent) := by
  cases status with
  | pending sent => exact ⟨sent, rfl, Multiset.mem_singleton.mp member⟩
  | inTime | late => exact absurd member (Multiset.notMem_zero _)

theorem cons_notice (answer : ChoreographyMessage) (sent : Timestamp) :
    answer ::ₘ noticeMessages t (some sent) = .debitNotice (t.debited sent) ::ₘ answer ::ₘ noticeMessages t none :=
  Multiset.cons_swap _ _ 0

theorem awaits_of_mem (member : message ∈ stage.messages t) : Awaits t stage message := by
  cases stage with
  | requested => exact Multiset.mem_singleton.mp member ▸ .initiated
  | refused reason answered => exact Multiset.mem_singleton.mp member ▸ .debitFailed reason answered
  | failed reason closed => exact absurd member (Multiset.notMem_zero _)
  | debited answered notice =>
    rcases Multiset.mem_cons.mp member with rfl | member
    next => exact .debited answered notice
    next =>
      obtain ⟨sent, rfl, rfl⟩ := mem_notice member
      exact .notice sent rfl (cons_notice _ sent)
  | credited answered notice =>
    rcases Multiset.mem_cons.mp member with rfl | member
    next => exact .credited answered notice
    next =>
      obtain ⟨sent, rfl, rfl⟩ := mem_notice member
      exact .notice sent rfl (cons_notice _ sent)
  | refunded answered notice =>
    rcases Multiset.mem_cons.mp member with rfl | member
    next => exact .creditFailed answered notice
    next =>
      obtain ⟨sent, rfl, rfl⟩ := mem_notice member
      exact .notice sent rfl (cons_notice _ sent)
  | completed closed status | returned closed status =>
    obtain ⟨sent, rfl, rfl⟩ := mem_status member
    exact .notice sent rfl rfl

theorem hear_same (heard : stage.hear = some stage') : stage'.isDebited = stage.isDebited ∧
    stage'.isCredited = stage.isCredited ∧ stage'.isRefunded = stage.isRefunded ∧
    stage'.announced t = stage.announced t ∧ stage'.shown = .debited := by
  unfold hear at heard
  split at heard <;> cases heard <;> exact ⟨rfl, rfl, rfl, rfl, rfl⟩

theorem late_of_advances {seeds : Map String Decimal} {held : String → Int}
    (advances : stage.Advances seeds held t stage') (late : stage'.isLate) : stage.announced t ≠ [] := by
  cases advances with
  | debit | refuse | fail | credit | refund => cases late
  | complete answered now notice | giveBack answered now notice => cases notice <;> cases late
  | hear heard =>
    unfold hear at heard
    split at heard <;> cases heard
    next => cases late
    next => cases late
    next => cases late
    next => exact List.cons_ne_nil _ _
    next => exact List.cons_ne_nil _ _

end Messages

section Closed

variable {t : TransferInitiatedEvent} {stage : TransferStage}

inductive Closed : TransferStage → Prop where
  | failed (reason : String) (closed : Timestamp) : Closed (.failed reason closed)
  | completed (closed : Timestamp) {status : NoticeStatus} : status.notice = none → Closed (.completed closed status)
  | returned (closed : Timestamp) {status : NoticeStatus} : status.notice = none → Closed (.returned closed status)

theorem notice_of_silent {notice : Option Timestamp} (silent : noticeMessages t notice = 0) : notice = none := by
  cases notice with
  | none => rfl
  | some sent => exact absurd silent (Multiset.singleton_ne_zero _)

theorem closed_of_silent (silent : stage.messages t = 0) : stage.Closed := by
  cases stage with
  | failed reason closed => exact .failed reason closed
  | completed closed status => exact .completed closed (notice_of_silent silent)
  | returned closed status => exact .returned closed (notice_of_silent silent)
  | requested => exact absurd silent (Multiset.singleton_ne_zero _)
  | refused reason answered => exact absurd silent (Multiset.singleton_ne_zero _)
  | debited answered notice => exact absurd silent Multiset.cons_ne_zero
  | credited answered notice => exact absurd silent Multiset.cons_ne_zero
  | refunded answered notice => exact absurd silent Multiset.cons_ne_zero

theorem Closed.moved (closed : stage.Closed) (account : String) :
    stage.moved t account = (if stage.isCredited then ChoreographySystem.into account t else 0) -
      if stage.isCredited then ChoreographySystem.outOf account t else 0 := by
  cases closed <;> rfl

theorem Closed.shown (closed : stage.Closed) (inTime : stage.isLate = false) :
    stage.shown = if stage.isCredited then .completed else .failed := by
  cases closed with
  | failed reason closed => rfl
  | @completed closed status quiet | @returned closed status quiet =>
    cases status with
    | pending sent => cases quiet
    | inTime => rfl
    | late => cases inTime

end Closed

end TransferStage

namespace TransferSaga

section Sited

variable {seeds : Map String Decimal} {held : String → Int} {t : TransferInitiatedEvent}
  {stage stage' : TransferStage} {sagas sagas' : Multiset TransferSaga}

structure Sited (seeds : Map String Decimal) (saga : TransferSaga) : Prop where
  credited : saga.stage.isCredited → saga.transfer.toAccount ∈ seeds
  refunded : saga.stage.isRefunded → saga.transfer.toAccount ∉ seeds

theorem Sited.advance (sited : Sited seeds ⟨t, stage⟩) (advances : stage.Advances seeds held t stage') :
    Sited seeds ⟨t, stage'⟩ := by
  have unset {after : Prop} (set : (false : Bool)) : after := absurd set Bool.false_ne_true
  cases advances with
  | debit | refuse | fail => exact ⟨unset, unset⟩
  | credit answered now notice destination => exact ⟨fun _ => destination, unset⟩
  | refund answered now notice missing => exact ⟨unset, fun _ => missing⟩
  | complete answered now notice => exact ⟨fun _ => sited.credited rfl, unset⟩
  | giveBack answered now notice => exact ⟨unset, fun _ => sited.refunded rfl⟩
  | hear heard =>
    obtain ⟨-, credited, refunded, -⟩ := TransferStage.hear_same (t := t) heard
    exact ⟨fun set => sited.credited (credited ▸ set), fun set => sited.refunded (refunded ▸ set)⟩

theorem Step.sited (step : Step seeds sagas sagas') (sited : ∀ saga ∈ sagas, Sited seeds saga) :
    ∀ saga ∈ sagas', Sited seeds saga := by
  cases step with
  | start t new =>
    refine Multiset.forall_mem_cons.mpr ⟨⟨fun set => ?_, fun set => ?_⟩, sited⟩ <;> cases set
  | advance advances =>
    obtain ⟨own, others⟩ := Multiset.forall_mem_cons.mp sited
    exact Multiset.forall_mem_cons.mpr ⟨own.advance advances, others⟩

theorem sited_of_steps (steps : Relation.ReflTransGen (Step seeds) 0 sagas) : ∀ saga ∈ sagas, Sited seeds saga := by
  induction steps with
  | refl => exact fun saga member => absurd member (Multiset.notMem_zero saga)
  | tail _ step ih => exact step.sited ih

end Sited

end TransferSaga

end BankingLedger
