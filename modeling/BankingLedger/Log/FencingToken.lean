import BankingLedger.Shared.FiniteMap
import BankingLedger.Shared.Interleaving

set_option autoImplicit false

namespace BankingLedger

open FiniteMap Interleaving

structure FencingToken where
  epoch : UInt64
  registrations : Map String UInt64

namespace FencingToken

def new : FencingToken where
  epoch := 1
  registrations := ∅

-- `epoch.fetch_add(1)`
def fetchAdd (t : FencingToken) : UInt64 × FencingToken := (t.epoch, { t with epoch := t.epoch + 1 })

def insert (producerId : String) (epoch : UInt64) (t : FencingToken) : FencingToken :=
  { t with registrations := t.registrations.insert producerId epoch }

def registerProducer (producerId : String) (t : FencingToken) : UInt64 × FencingToken :=
  let (epoch, t) := t.fetchAdd
  (epoch, t.insert producerId epoch)

def isValid (producerId : String) (epoch : UInt64) (t : FencingToken) : Bool :=
  (t.registrations.lookup producerId).any fun current => current = epoch

def fence (producerId : String) (t : FencingToken) : UInt64 × FencingToken := t.registerProducer producerId

theorem isValid_iff {producerId : String} {epoch : UInt64} {t : FencingToken} :
    t.isValid producerId epoch ↔ t.registrations.lookup producerId = some epoch := by
  cases found : t.registrations.lookup producerId <;> simp [isValid, found]

@[simp] theorem fetchAdd_isValid (producerId : String) (epoch : UInt64) (t : FencingToken) :
    t.fetchAdd.2.isValid producerId epoch = t.isValid producerId epoch := rfl

theorem insert_isValid {producerId other : String} {epoch current : UInt64} {t : FencingToken} :
    (t.insert producerId current).isValid other epoch ↔
      if other = producerId then current = epoch else t.isValid other epoch := by
  rw [isValid_iff, insert, lookup_insert_eq]
  split
  · exact Option.some_inj
  · exact isValid_iff.symm

end FencingToken

section Model

inductive RegisterAt where
  | start
  | drawn (epoch : UInt64)
  | returned (epoch : UInt64)
deriving DecidableEq, Repr

structure RegisterThread where
  producerId : String
  at_ : RegisterAt
deriving DecidableEq, Repr

structure FencingState where
  token : FencingToken
  returned : List (String × UInt64)

def registerStep (s : FencingState) (l : RegisterThread) : Option (FencingState × RegisterThread) :=
  match l.at_ with
  | .start =>
    let (epoch, token) := s.token.fetchAdd
    some ({ s with token }, { l with at_ := .drawn epoch })
  | .drawn epoch =>
    some ({ token := s.token.insert l.producerId epoch, returned := s.returned ++ [(l.producerId, epoch)] },
      { l with at_ := .returned epoch })
  | .returned _ => none

def registrars : System FencingState RegisterThread := ⟨registerStep⟩

-- Alone, the steps of a call are the call.
theorem register_solo (s : FencingState) (producerId : String) :
    registrars.solo 2 (s, ⟨producerId, .start⟩) =
      let (epoch, token) := s.token.registerProducer producerId
      (⟨token, s.returned ++ [(producerId, epoch)]⟩, ⟨producerId, .returned epoch⟩) := rfl

variable {I : Type}

def fencingStart (producers : I → String) : Config I FencingState RegisterThread where
  shared := { token := .new, returned := [] }
  thread i := ⟨producers i, .start⟩

def RegisterThread.InProgress (producerId : String) (l : RegisterThread) : Prop :=
  l.producerId = producerId ∧ ∃ epoch, l.at_ = .drawn epoch

/-- Only the largest epoch that was returned for a producer is valid, unless a call is in progress. -/
def NewestAdmitted (c : Config I FencingState RegisterThread) : Prop :=
  ∀ producerId, (∀ j, ¬ (c.thread j).InProgress producerId) →
    ∀ epoch, c.shared.token.isValid producerId epoch →
      (producerId, epoch) ∈ c.shared.returned ∧
        ∀ other, (producerId, other) ∈ c.shared.returned → other ≤ epoch

/-- A call that publishes its epoch while no other one for its producer is in progress has not been
overtaken by one with a larger epoch. -/
def PublishesNewest (c : Config I FencingState RegisterThread) (i : I) : Prop :=
  ∀ epoch, (c.thread i).at_ = .drawn epoch →
    (∀ j, j ≠ i → ¬ (c.thread j).InProgress (c.thread i).producerId) →
    ∀ other, ((c.thread i).producerId, other) ∈ c.shared.returned → other ≤ epoch

end Model

section Runs

variable {I : Type} [DecidableEq I] {c : Config I FencingState RegisterThread} {i : I}

theorem inProgress_update {l : RegisterThread} (producerId : String) :
    (∀ j, ¬ (Function.update c.thread i l j).InProgress producerId) ↔
      ¬ l.InProgress producerId ∧ ∀ j, j ≠ i → ¬ (c.thread j).InProgress producerId :=
  Function.forall_update_iff c.thread fun _ l => ¬ l.InProgress producerId

-- The call is now in progress, so nothing is asked of its own producer.
theorem newestAdmitted_draw (at_ : (c.thread i).at_ = .start) (newest : NewestAdmitted c) :
    NewestAdmitted (registrars.fire c i) := by
  have fired : registrars.fire c i =
      ⟨{ c.shared with token := c.shared.token.fetchAdd.2 },
        Function.update c.thread i ⟨(c.thread i).producerId, .drawn c.shared.token.epoch⟩⟩ := by
    simp [System.fire, registrars, registerStep, at_, FencingToken.fetchAdd]
  rw [fired]
  intro producerId idle
  obtain ⟨notOwn, others⟩ := (inProgress_update producerId).mp idle
  refine newest producerId fun j busy => ?_
  by_cases own : j = i
  · subst own
    exact notOwn ⟨busy.1, _, rfl⟩
  · exact others j own busy

theorem newestAdmitted_publish_iff {epoch : UInt64} (at_ : (c.thread i).at_ = .drawn epoch)
    (newest : NewestAdmitted c) : NewestAdmitted (registrars.fire c i) ↔ PublishesNewest c i := by
  have fired : registrars.fire c i =
      ⟨⟨c.shared.token.insert (c.thread i).producerId epoch,
          c.shared.returned ++ [((c.thread i).producerId, epoch)]⟩,
        Function.update c.thread i ⟨(c.thread i).producerId, .returned epoch⟩⟩ := by
    simp [System.fire, registrars, registerStep, at_]
  have done (producerId : String) :
      ¬ RegisterThread.InProgress producerId ⟨(c.thread i).producerId, .returned epoch⟩ := by
    rintro ⟨-, _, none⟩
    cases none
  rw [fired]
  constructor
  · intro after current drawn others other member
    obtain rfl : epoch = current := RegisterAt.drawn.inj (at_.symm.trans drawn)
    have idle := (inProgress_update (c.thread i).producerId).mpr ⟨done _, others⟩
    have valid : (c.shared.token.insert (c.thread i).producerId epoch).isValid (c.thread i).producerId epoch :=
      FencingToken.insert_isValid.mpr (by rw [if_pos rfl])
    exact (after _ idle epoch valid).2 other (List.mem_append_left _ member)
  · intro last producerId idle current valid
    have others := ((inProgress_update producerId).mp idle).2
    rw [FencingToken.insert_isValid] at valid
    split at valid
    · next same =>
      subst same valid
      refine ⟨List.mem_append_right _ (List.mem_singleton_self _), fun other member => ?_⟩
      rcases List.mem_append.mp member with earlier | own
      · exact last epoch at_ others other earlier
      · have same := (Prod.mk.inj (List.mem_singleton.mp own)).2
        exact UInt64.le_of_eq same
    · next apart =>
      have idleBefore (j : I) : ¬ (c.thread j).InProgress producerId := by
        by_cases own : j = i
        · subst own
          exact fun busy => apart busy.1.symm
        · exact others j own
      obtain ⟨member, largest⟩ := newest producerId idleBefore current valid
      refine ⟨List.mem_append_left _ member, fun other found => ?_⟩
      rcases List.mem_append.mp found with earlier | own
      · exact largest other earlier
      · exact absurd (Prod.mk.inj (List.mem_singleton.mp own)).1 apart

theorem newestAdmitted_fire_iff (newest : NewestAdmitted c) :
    NewestAdmitted (registrars.fire c i) ↔ PublishesNewest c i := by
  cases at_ : (c.thread i).at_ with
  | start =>
    refine iff_of_true (newestAdmitted_draw at_ newest) fun epoch drawn => ?_
    cases at_.symm.trans drawn
  | drawn epoch => exact newestAdmitted_publish_iff at_ newest
  | returned epoch =>
    have stays : registrars.fire c i = c := by simp [System.fire, registrars, registerStep, at_]
    rw [stays]
    refine iff_of_true newest fun epoch drawn => ?_
    cases at_.symm.trans drawn

/-- In every state of a run only the newest epochs are valid exactly if no call that is the last one in
progress has been overtaken. -/
theorem newest_epoch_admitted_iff (producers : I → String) (schedule : List I) :
    Runs.Throughout registrars.fire NewestAdmitted (fencingStart producers) schedule ↔
      registrars.RunMeets PublishesNewest (fencingStart producers) schedule := by
  refine Runs.throughout_iff_meets (fun c i newest => newestAdmitted_fire_iff newest) ?_ schedule
  intro producerId idle epoch valid
  simp [fencingStart, FencingToken.new, FencingToken.isValid] at valid

-- The call that drew 1 is overtaken by the one that drew 2.
theorem zombie_epoch_admitted :
    let final := registrars.run (fencingStart fun _ : Bool => "p1") [false, true, true, false]
    final.shared.token.isValid "p1" 1 ∧ ("p1", 2) ∈ final.shared.returned ∧ ¬ NewestAdmitted final := by
  intro final
  have valid : final.shared.token.isValid "p1" 1 := by decide +kernel
  have member : ("p1", 2) ∈ final.shared.returned := by decide +kernel
  refine ⟨valid, member, fun newest => ?_⟩
  have idle (j : Bool) : ¬ (final.thread j).InProgress "p1" := by
    rintro ⟨-, epoch, drawn⟩
    cases j <;> cases drawn
  exact absurd ((newest "p1" idle 1 valid).2 2 member) (by decide)

end Runs

end BankingLedger
