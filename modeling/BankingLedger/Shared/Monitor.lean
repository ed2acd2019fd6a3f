import Mathlib.Data.Multiset.AddSub
import Mathlib.Data.Multiset.Filter

set_option autoImplicit false

namespace Monitor

inductive Signal where
  | quiet
  | one
  | all
deriving DecidableEq

inductive Turn (S W R : Type) where
  | waits (request : W)
  | returns (shared : S) (signal : Signal) (reply : R)

def Turn.reply {S W R : Type} : Turn S W R → Option R
  | waits _ => none
  | returns _ _ reply => some reply

/-- `recheck` is the turn of a waiter that has got the lock back. -/
structure System (S C W R : Type) where
  enter : S → C → Turn S W R
  recheck : S → W → Turn S W R

-- A waiter is told apart by what it waits for.
structure Threads (S W : Type) where
  shared : S
  asleep : Multiset W
  woken : Multiset W

inductive Event (C W : Type) where
  | call (c : C) (notified : Option W)
  | resume (request : W) (notified : Option W)
  | spurious (request : W)
deriving DecidableEq

variable {S C W R : Type} [DecidableEq W]

namespace Threads

def start (shared : S) : Threads S W := { shared, asleep := 0, woken := 0 }

def wake (request : W) (t : Threads S W) : Threads S W :=
  { t with asleep := t.asleep.erase request, woken := request ::ₘ t.woken }

def settle (t : Threads S W) (notified : Option W) : Turn S W R → Threads S W
  | .waits request => { t with asleep := request ::ₘ t.asleep }
  | .returns shared .quiet _ => { t with shared }
  | .returns shared .one _ =>
    match notified with
    | none => { t with shared }
    | some request => { t.wake request with shared }
  | .returns shared .all _ => { shared, asleep := 0, woken := t.asleep + t.woken }

section Settle

variable {t : Threads S W} {notified : Option W} {shared : S} {reply : R}

@[simp] theorem settle_waits (request : W) :
    t.settle notified (.waits request : Turn S W R) = { t with asleep := request ::ₘ t.asleep } := rfl

@[simp] theorem settle_quiet : t.settle notified (.returns shared .quiet reply) = { t with shared } := rfl

@[simp] theorem settle_one_none : t.settle none (.returns shared .one reply) = { t with shared } := rfl

@[simp] theorem settle_one_some (request : W) : t.settle (some request) (.returns shared .one reply) =
    { shared, asleep := t.asleep.erase request, woken := request ::ₘ t.woken } := rfl

@[simp] theorem settle_all : t.settle notified (.returns shared .all reply) =
    { shared, asleep := 0, woken := t.asleep + t.woken } := rfl

end Settle

def Quiescent (t : Threads S W) : Prop := t.woken = 0

end Threads

def Notifies (asleep : Multiset W) : Option W → Prop
  | none => asleep = 0
  | some request => request ∈ asleep

def Possible (t : Threads S W) : Event C W → Prop
  | .call _ notified => Notifies t.asleep notified
  | .resume request notified => request ∈ t.woken ∧ Notifies t.asleep notified
  | .spurious request => request ∈ t.asleep

section Decidability

instance (t : Threads S W) : Decidable t.Quiescent := inferInstanceAs (Decidable (t.woken = 0))

instance (asleep : Multiset W) : ∀ notified : Option W, Decidable (Notifies asleep notified)
  | none => inferInstanceAs (Decidable (asleep = 0))
  | some request => inferInstanceAs (Decidable (request ∈ asleep))

instance (t : Threads S W) : ∀ e : Event C W, Decidable (Possible t e)
  | .call _ notified => inferInstanceAs (Decidable (Notifies t.asleep notified))
  | .resume request notified => inferInstanceAs (Decidable (request ∈ t.woken ∧ Notifies t.asleep notified))
  | .spurious request => inferInstanceAs (Decidable (request ∈ t.asleep))

end Decidability

def System.next (m : System S C W R) (t : Threads S W) : Event C W → Threads S W
  | .call c notified => t.settle notified (m.enter t.shared c)
  | .resume request notified =>
    { t with woken := t.woken.erase request }.settle notified (m.recheck t.shared request)
  | .spurious request => t.wake request

section Next

variable {m : System S C W R} {t : Threads S W}

@[simp] theorem System.next_call (c : C) (notified : Option W) :
    m.next t (.call c notified) = t.settle notified (m.enter t.shared c) := rfl

@[simp] theorem System.next_resume (request : W) (notified : Option W) : m.next t (.resume request notified) =
    { t with woken := t.woken.erase request }.settle notified (m.recheck t.shared request) := rfl

@[simp] theorem System.next_spurious (request : W) : m.next t (.spurious request) =
    { t with asleep := t.asleep.erase request, woken := request ::ₘ t.woken } := rfl

end Next

section Requests

variable {m : System S C W R} {P : W → Prop} {t : Threads S W} {notified : Option W}

structure Threads.All (P : W → Prop) (t : Threads S W) : Prop where
  asleep : ∀ request ∈ t.asleep, P request
  woken : ∀ request ∈ t.woken, P request

omit [DecidableEq W] in
theorem Threads.all_start (shared : S) : (start shared : Threads S W).All P where
  asleep _ member := absurd member (Multiset.notMem_zero _)
  woken _ member := absurd member (Multiset.notMem_zero _)

theorem Threads.All.wake (all : t.All P) {request : W} (member : request ∈ t.asleep) : (t.wake request).All P where
  asleep other here := all.asleep other (Multiset.mem_of_mem_erase here)
  woken := Multiset.forall_mem_cons.mpr ⟨all.asleep request member, all.woken⟩

theorem Threads.All.settle (all : t.All P) (notifies : Notifies t.asleep notified) (turn : Turn S W R)
    (waiting : ∀ request, turn = .waits request → P request) : (t.settle notified turn).All P := by
  cases turn with
  | waits request => exact ⟨Multiset.forall_mem_cons.mpr ⟨waiting request rfl, all.asleep⟩, all.woken⟩
  | returns shared signal reply =>
    cases signal with
    | quiet => exact ⟨all.asleep, all.woken⟩
    | one =>
      cases notified with
      | none => exact ⟨all.asleep, all.woken⟩
      | some request =>
        have woken := all.wake notifies
        exact ⟨woken.asleep, woken.woken⟩
    | all =>
      refine ⟨fun _ member => absurd member (Multiset.notMem_zero _), fun request member => ?_⟩
      exact (Multiset.mem_add.mp member).elim (all.asleep request) (all.woken request)

theorem Threads.All.next (all : t.All P) {e : Event C W} (possible : Possible t e)
    (entering : ∀ c notified, e = .call c notified → ∀ request, m.enter t.shared c = .waits request → P request)
    (again : ∀ request, P request → ∀ request', m.recheck t.shared request = .waits request' → P request') :
    (m.next t e).All P := by
  cases e with
  | call c notified => exact all.settle possible _ (entering c notified rfl)
  | resume request notified =>
    have rest : ({ t with woken := t.woken.erase request } : Threads S W).All P :=
      ⟨all.asleep, fun other member => all.woken other (Multiset.mem_of_mem_erase member)⟩
    exact rest.settle possible.2 _ (again request (all.woken request possible.1))
  | spurious request => exact all.wake possible

end Requests

section Replies

def System.reply (m : System S C W R) (t : Threads S W) : Event C W → Option R
  | .call c _ => (m.enter t.shared c).reply
  | .resume request _ => (m.recheck t.shared request).reply
  | .spurious _ => none

end Replies

section Pacing

/-- `level` is how much there is to be had. A call waits only where there is nothing. One that returns leaves no
more than there was and what it notifies of, and a waiter takes one. -/
structure Paced (m : System S C W R) (level : S → Nat) : Prop where
  enter_waits : ∀ s c request, m.enter s c = .waits request → level s = 0
  enter_quiet : ∀ s c s' reply, m.enter s c = .returns s' .quiet reply → level s' ≤ level s
  enter_one : ∀ s c s' reply, m.enter s c = .returns s' .one reply → level s' ≤ level s + 1
  recheck_waits : ∀ s request request', m.recheck s request = .waits request' → level s = 0
  recheck_quiet : ∀ s request s' reply, m.recheck s request = .returns s' .quiet reply → level s' < level s
  recheck_one : ∀ s request s' reply, m.recheck s request = .returns s' .one reply → level s' ≤ level s

def Attended (level : S → Nat) (t : Threads S W) : Prop := t.asleep ≠ 0 → level t.shared ≤ t.woken.card

variable {m : System S C W R} {level : S → Nat} {t : Threads S W}

omit [DecidableEq W] in
theorem attended_start (level : S → Nat) (s : S) : Attended level (.start s : Threads S W) :=
  fun asleep => absurd rfl asleep

omit [DecidableEq W] in
theorem Attended.of_mem (attended : Attended level t) {request : W} (member : request ∈ t.asleep) :
    level t.shared ≤ t.woken.card :=
  attended fun nobody => Multiset.notMem_zero request (nobody ▸ member)

theorem Attended.wake (attended : Attended level t) {request : W} (member : request ∈ t.asleep) :
    Attended level (t.wake request) := by
  intro _
  have before := attended.of_mem member
  rw [Threads.wake, Multiset.card_cons]
  exact before.trans (Nat.le_succ _)

theorem Attended.call (paced : Paced m level) (attended : Attended level t) (c : C) {notified : Option W}
    (notifies : Notifies t.asleep notified) : Attended level (m.next t (.call c notified)) := by
  rw [System.next_call]
  cases turn : m.enter t.shared c with
  | waits request =>
    rw [Threads.settle_waits]
    intro _
    rw [paced.enter_waits _ _ _ turn]
    exact Nat.zero_le _
  | returns shared signal reply =>
    cases signal with
    | quiet =>
      rw [Threads.settle_quiet]
      exact fun asleep => (paced.enter_quiet _ _ _ _ turn).trans (attended asleep)
    | one =>
      cases notified with
      | none =>
        rw [Threads.settle_one_none]
        exact fun asleep => absurd notifies asleep
      | some request =>
        rw [Threads.settle_one_some]
        intro _
        rw [Multiset.card_cons]
        have before := attended.of_mem notifies
        exact (paced.enter_one _ _ _ _ turn).trans (Nat.succ_le_succ before)
    | all =>
      rw [Threads.settle_all]
      exact fun asleep => absurd rfl asleep

theorem Attended.resume (paced : Paced m level) (attended : Attended level t) {request : W}
    (member : request ∈ t.woken) {notified : Option W} (notifies : Notifies t.asleep notified) :
    Attended level (m.next t (.resume request notified)) := by
  have fewer := Multiset.card_erase_add_one member
  rw [System.next_resume]
  cases turn : m.recheck t.shared request with
  | waits request' =>
    rw [Threads.settle_waits]
    intro _
    rw [paced.recheck_waits _ _ _ turn]
    exact Nat.zero_le _
  | returns shared signal reply =>
    cases signal with
    | quiet =>
      rw [Threads.settle_quiet]
      intro asleep
      have before := attended asleep
      have taken := paced.recheck_quiet _ _ _ _ turn
      change level shared ≤ (t.woken.erase request).card
      omega
    | one =>
      cases notified with
      | none =>
        rw [Threads.settle_one_none]
        exact fun asleep => absurd notifies asleep
      | some other =>
        rw [Threads.settle_one_some]
        intro _
        have before := attended.of_mem notifies
        have taken := paced.recheck_one _ _ _ _ turn
        rw [Multiset.card_cons]
        change level shared ≤ (t.woken.erase request).card + 1
        omega
    | all =>
      rw [Threads.settle_all]
      exact fun asleep => absurd rfl asleep

theorem Attended.next (paced : Paced m level) (attended : Attended level t) {e : Event C W} (possible : Possible t e) :
    Attended level (m.next t e) := by
  cases e with
  | call c notified => exact attended.call paced c possible
  | resume request notified => exact attended.resume paced possible.1 possible.2
  | spurious request => exact attended.wake possible

omit [DecidableEq W] in
theorem Attended.rested (attended : Attended level t) (quiescent : t.Quiescent) (asleep : t.asleep ≠ 0) :
    level t.shared = 0 := by
  have none := attended asleep
  rw [quiescent, Multiset.card_zero] at none
  exact Nat.le_zero.mp none

end Pacing

end Monitor
