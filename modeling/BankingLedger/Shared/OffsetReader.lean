import Mathlib.Data.List.Perm.Basic
import Mathlib.Tactic.Common

set_option autoImplicit false

namespace OffsetReader

variable {A : Type} (offset : A → Nat)

def Ordered (log : List A) : Prop := log.Pairwise fun a b => offset a < offset b

instance (log : List A) : Decidable (Ordered offset log) := inferInstanceAs (Decidable (List.Pairwise _ _))

structure Reader (A : Type) where
  next : Nat
  received : List A

def Reader.receive (r : Reader A) (batch : List A) : Reader A :=
  { next := batch.foldr (fun a next => max (offset a + 1) next) r.next
    received := r.received ++ batch }

def Reader.poll (r : Reader A) (log : List A) : Reader A :=
  r.receive offset (log.filter fun a => r.next ≤ offset a)

variable {offset} {log : List A} {r : Reader A} {a : A}

theorem lt_receive_next {batch : List A} (member : a ∈ batch) :
    offset a < (r.receive offset batch).next := by
  induction batch with
  | nil => cases member
  | cons b rest ih =>
    rcases List.mem_cons.mp member with rfl | later
    · exact Nat.lt_of_succ_le (Nat.le_max_left _ _)
    · exact Nat.lt_of_lt_of_le (ih later) (Nat.le_max_right _ _)

theorem le_receive_next (batch : List A) : r.next ≤ (r.receive offset batch).next := by
  induction batch with
  | nil => exact Nat.le_refl _
  | cons b rest ih => exact Nat.le_trans ih (Nat.le_max_right _ _)

theorem receive_next_eq (batch : List A) : (r.receive offset batch).next = r.next ∨
    ∃ a ∈ batch, (r.receive offset batch).next = offset a + 1 := by
  induction batch with
  | nil => exact .inl rfl
  | cons b rest ih =>
    rcases Nat.le_total (r.receive offset rest).next (offset b + 1) with top | above
    · exact .inr ⟨b, List.mem_cons_self, Nat.max_eq_left top⟩
    · have kept : (r.receive offset (b :: rest)).next = (r.receive offset rest).next :=
        Nat.max_eq_right above
      rcases ih with same | ⟨a, member, reached⟩
      · exact .inl (kept.trans same)
      · exact .inr ⟨a, List.mem_cons_of_mem _ member, kept.trans reached⟩

-- After a poll nothing in the log is asked for again.
theorem lt_poll_next (member : a ∈ log) : offset a < (r.poll offset log).next := by
  rcases Nat.lt_or_ge (offset a) r.next with below | above
  · exact Nat.lt_of_lt_of_le below (le_receive_next _)
  · exact lt_receive_next (List.mem_filter.mpr ⟨member, decide_eq_true above⟩)

variable (offset)

-- Fewer items have been received than the log has below the offset the reader asks for.
def Missed (log : List A) (r : Reader A) : Prop :=
  r.received.length < (log.filter fun a => offset a < r.next).length

def UpTo (log : List A) (r : Reader A) : Prop :=
  ∃ rest, log = r.received ++ rest ∧ (∀ a ∈ r.received, offset a < r.next) ∧
    ∀ a ∈ rest, r.next ≤ offset a

structure Tracks (log : List A) (r : Reader A) : Prop where
  reach : r.next = 0 ∨ ∃ a ∈ log, r.next = offset a + 1
  standing : Missed offset log r ∨ UpTo offset log r
  ordered : Ordered offset log → UpTo offset log r

variable {offset}

theorem tracks_new : Tracks offset [] { next := 0, received := [] } where
  reach := .inl rfl
  standing := .inr ⟨[], by simp⟩
  ordered _ := ⟨[], by simp⟩

theorem UpTo.append (upTo : UpTo offset log r) (above : r.next ≤ offset a) :
    UpTo offset (log ++ [a]) r := by
  obtain ⟨rest, split, below, later⟩ := upTo
  refine ⟨rest ++ [a], by rw [split, List.append_assoc], below, ?_⟩
  intro b member
  rcases List.mem_append.mp member with old | new
  · exact later b old
  · exact List.mem_singleton.mp new ▸ above

theorem UpTo.filter_lt (upTo : UpTo offset log r) :
    (log.filter fun a => offset a < r.next) = r.received := by
  obtain ⟨rest, rfl, below, later⟩ := upTo
  rw [List.filter_append, List.filter_eq_self.mpr (by simpa using below),
    List.filter_eq_nil_iff.mpr (by simpa using later), List.append_nil]

theorem UpTo.poll_received (upTo : UpTo offset log r) : (r.poll offset log).received = log := by
  obtain ⟨rest, rfl, below, later⟩ := upTo
  have batch : ((r.received ++ rest).filter fun a => r.next ≤ offset a) = rest := by
    rw [List.filter_append, List.filter_eq_nil_iff.mpr (by simpa using below),
      List.filter_eq_self.mpr (by simpa using later), List.nil_append]
  rw [Reader.poll, batch]
  rfl

theorem UpTo.poll (upTo : UpTo offset log r) : UpTo offset log (r.poll offset log) := by
  refine ⟨[], by rw [upTo.poll_received, List.append_nil], ?_, by simp⟩
  rw [upTo.poll_received]
  exact fun a => lt_poll_next

theorem Missed.append (missed : Missed offset log r) : Missed offset (log ++ [a]) r := by
  refine Nat.lt_of_lt_of_le missed ?_
  rw [List.filter_append, List.length_append]
  exact Nat.le_add_right _ _

theorem Missed.of_late (upTo : UpTo offset log r) (late : offset a < r.next) :
    Missed offset (log ++ [a]) r := by
  rw [Missed, List.filter_append, upTo.filter_lt]
  simp [late]

-- What has been missed stays missed: the batch has only what is not below the offset.
theorem Missed.poll_length (missed : Missed offset log r) :
    (r.poll offset log).received.length < log.length := by
  have parts := log.length_eq_length_filter_add fun a => decide (offset a < r.next)
  have batch : (log.filter fun a => !decide (offset a < r.next)) =
      log.filter fun a => decide (r.next ≤ offset a) := by
    simp only [← decide_not, Nat.not_lt]
  rw [batch] at parts
  have fewer : r.received.length < (log.filter fun a => offset a < r.next).length := missed
  simp only [Reader.poll, Reader.receive, List.length_append]
  omega

theorem Missed.poll (missed : Missed offset log r) : Missed offset log (r.poll offset log) := by
  have all : (log.filter fun a => offset a < (r.poll offset log).next) = log :=
    List.filter_eq_self.mpr fun a member => decide_eq_true (lt_poll_next member)
  rw [Missed, all]
  exact missed.poll_length

theorem Tracks.append (tracks : Tracks offset log r) (a : A) : Tracks offset (log ++ [a]) r where
  reach := tracks.reach.imp_right fun ⟨b, member, reached⟩ =>
    ⟨b, List.mem_append_left _ member, reached⟩
  standing := by
    rcases tracks.standing with missed | upTo
    · exact .inl missed.append
    · rcases Nat.lt_or_ge (offset a) r.next with late | above
      · exact .inl (.of_late upTo late)
      · exact .inr (upTo.append above)
  ordered := by
    intro ordered
    obtain ⟨before, -, last⟩ := List.pairwise_append.mp ordered
    refine (tracks.ordered before).append ?_
    rcases tracks.reach with start | ⟨b, member, reached⟩
    · omega
    · have := last b member a (List.mem_singleton_self a)
      omega

theorem Tracks.poll (tracks : Tracks offset log r) : Tracks offset log (r.poll offset log) where
  reach := by
    rcases receive_next_eq (r := r) (log.filter fun a => r.next ≤ offset a) with same | ⟨a, member, reached⟩
    · rcases tracks.reach with start | ⟨b, member, reached⟩
      · exact .inl (same.trans start)
      · exact .inr ⟨b, member, same.trans reached⟩
    · exact .inr ⟨a, (List.mem_filter.mp member).1, reached⟩
  standing := tracks.standing.imp Missed.poll UpTo.poll
  ordered ordered := (tracks.ordered ordered).poll

theorem Tracks.complete_iff (tracks : Tracks offset log r) :
    (r.poll offset log).received.Perm log ∧ Ordered offset (r.poll offset log).received ↔
      Ordered offset log := by
  constructor
  · rintro ⟨all, ordered⟩
    rcases tracks.standing with missed | upTo
    · have fewer := missed.poll_length
      rw [all.length_eq] at fewer
      exact absurd fewer (Nat.lt_irrefl _)
    · rwa [upTo.poll_received] at ordered
  · intro ordered
    rw [(tracks.ordered ordered).poll_received]
    exact ⟨List.Perm.refl _, ordered⟩

end OffsetReader
