import Mathlib.Data.List.Nodup
import Mathlib.Data.List.Count
import Mathlib.Data.List.TakeDrop
import Mathlib.Tactic.Common

set_option autoImplicit false

namespace SlidingWindow

variable {α : Type} [DecidableEq α]

structure Window (α : Type) where
  log : List α
  sent : List α
  flushed : Nat

namespace Window

def append (w : Window α) (a : α) : Window α := { w with log := w.log ++ [a] }

def flush (width : Nat) (w : Window α) : Window α :=
  { w with
    sent := w.sent ++ w.log.reverse.take width
    flushed := w.log.length }

def Once (w : Window α) : Prop := ∀ a ∈ w.log.take w.flushed, w.sent.count a = 1

/-- What has been sent was there to be sent, the newest entry of the last flush included. -/
structure Sound (w : Window α) : Prop where
  nodup : w.log.Nodup
  bound : w.flushed ≤ w.log.length
  sent_subset : ∀ a ∈ w.sent, a ∈ w.log.take w.flushed
  newest : ∀ i a, i + 1 = w.flushed → w.log[i]? = some a → a ∈ w.sent

def Fits (width : Nat) (w : Window α) : Prop :=
  if w.flushed = 0 then w.log.length ≤ width else w.log.length = w.flushed + width

variable {w : Window α} {width : Nat}

theorem once_append (bound : w.flushed ≤ w.log.length) (a : α) : (w.append a).Once ↔ w.Once := by
  simp only [Once, append]
  rw [List.take_append_of_le_length bound]

omit [DecidableEq α] in
theorem Sound.append (sound : w.Sound) {a : α} (fresh : a ∉ w.log) : (w.append a).Sound := by
  obtain ⟨nodup, bound, subset, newest⟩ := sound
  have same : (w.log ++ [a]).take w.flushed = w.log.take w.flushed := List.take_append_of_le_length bound
  refine ⟨?_, ?_, ?_, ?_⟩
  · exact List.nodup_append.mpr ⟨nodup, List.nodup_singleton a, by
      intro b member c new equal
      rw [List.mem_singleton.mp new] at equal
      exact fresh (equal ▸ member)⟩
  · simp only [Window.append, List.length_append]
    omega
  · simp only [Window.append, same]
    exact subset
  · intro i b last found
    simp only [Window.append] at last found
    rw [List.getElem?_append_left (by omega)] at found
    exact newest i b last found

omit [DecidableEq α] in
-- The last `width` entries, newest first, are the log from `length - width` on.
theorem window_perm (w : Window α) (width : Nat) :
    (w.log.reverse.take width).Perm (w.log.drop (w.log.length - width)) := by
  rw [List.take_reverse]
  exact List.reverse_perm _

omit [DecidableEq α] in
theorem mem_drop_of_getElem? {log : List α} {i k : Nat} {a : α} (found : log[i]? = some a)
    (late : k ≤ i) : a ∈ log.drop k := by
  apply List.mem_of_getElem? (i := i - k)
  rw [List.getElem?_drop, Nat.add_sub_cancel' late]
  exact found

omit [DecidableEq α] in
theorem mem_take_of_getElem? {log : List α} {i k : Nat} {a : α} (found : log[i]? = some a)
    (early : i < k) : a ∈ log.take k := by
  apply List.mem_of_getElem? (i := i)
  rw [List.getElem?_take_of_lt early]
  exact found

omit [DecidableEq α] in
theorem Sound.flush (sound : w.Sound) (positive : 0 < width) : (w.flush width).Sound := by
  obtain ⟨nodup, bound, subset, newest⟩ := sound
  refine ⟨nodup, Nat.le_refl _, ?_, ?_⟩
  · intro a member
    simp only [Window.flush, List.take_length] at member ⊢
    rcases List.mem_append.mp member with before | now
    · exact List.mem_of_mem_take (subset a before)
    · exact List.mem_reverse.mp (List.mem_of_mem_take now)
  · intro i a last found
    simp only [Window.flush] at last found ⊢
    refine List.mem_append.mpr (.inr ((w.window_perm width).mem_iff.mpr ?_))
    exact mem_drop_of_getElem? found (by omega)

theorem count_flush (a : α) :
    (w.flush width).sent.count a = w.sent.count a + (w.log.drop (w.log.length - width)).count a := by
  rw [flush, List.count_append, (w.window_perm width).count_eq]

theorem once_iff_getElem? : w.Once ↔ ∀ i a, i < w.flushed → w.log[i]? = some a → w.sent.count a = 1 := by
  constructor
  · intro once i a early found
    exact once a (mem_take_of_getElem? found early)
  · intro each a member
    obtain ⟨i, found⟩ := List.mem_iff_getElem?.mp member
    have early : i < w.flushed := by
      by_contra late
      rw [List.getElem?_take_eq_none (by omega)] at found
      cases found
    rw [List.getElem?_take_of_lt early] at found
    exact each i a early found

section Counts

variable (sound : w.Sound)

include sound

theorem Sound.count_sent_of_late {i : Nat} {a : α} (found : w.log[i]? = some a)
    (late : w.flushed ≤ i) : w.sent.count a = 0 := by
  apply List.count_eq_zero_of_not_mem
  intro member
  exact List.disjoint_take_drop sound.nodup (Nat.le_refl w.flushed) (sound.sent_subset a member)
    (mem_drop_of_getElem? found late)

theorem Sound.count_drop {i k : Nat} {a : α} (found : w.log[i]? = some a) :
    (w.log.drop k).count a = if k ≤ i then 1 else 0 := by
  split_ifs with late
  · exact List.count_eq_one_of_mem (sound.nodup.sublist (List.drop_sublist k w.log))
      (mem_drop_of_getElem? found late)
  · apply List.count_eq_zero_of_not_mem
    intro member
    exact List.disjoint_take_drop sound.nodup (Nat.le_refl k)
      (mem_take_of_getElem? found (by omega)) member

-- Every entry is sent once: the old ones before, the new ones by this window.
theorem Sound.once_flush_iff (grown : w.flushed < w.log.length) :
    (w.flush width).Once ↔ w.Once ∧ w.Fits width := by
  rw [once_iff_getElem?, once_iff_getElem?]
  have total {i : Nat} {a : α} (found : w.log[i]? = some a) : (w.flush width).sent.count a =
      w.sent.count a + if w.log.length - width ≤ i then 1 else 0 := by
    rw [count_flush, sound.count_drop found]
  have inside {i : Nat} {a : α} (found : w.log[i]? = some a) : i < w.log.length :=
    (List.getElem?_eq_some_iff.mp found).1
  constructor
  · intro each
    -- The entry after the last flush is new, so the window starts no later than there.
    obtain ⟨first, atFirst⟩ : ∃ a, w.log[w.flushed]? = some a := ⟨_, List.getElem?_eq_getElem grown⟩
    have covered : w.log.length - width ≤ w.flushed := by
      have once := each _ first grown atFirst
      rw [total atFirst, sound.count_sent_of_late atFirst (Nat.le_refl _)] at once
      by_contra gap
      simp [gap] at once
    -- The newest entry of the last flush has been sent, so the window does not reach back to it.
    have apart : w.flushed ≤ w.log.length - width := by
      by_contra overlap
      obtain ⟨last, atLast⟩ : ∃ a, w.log[w.flushed - 1]? = some a :=
        ⟨_, List.getElem?_eq_getElem (by omega)⟩
      have once := each (w.flushed - 1) last (show w.flushed - 1 < w.log.length by omega) atLast
      have before := List.one_le_count_iff.mpr (sound.newest _ last (by omega) atLast)
      rw [total atLast, if_pos (by omega)] at once
      omega
    refine ⟨fun i a early found => ?_, ?_⟩
    · have once := each i a (inside found) found
      rw [total found, if_neg (by omega)] at once
      exact once
    · unfold Fits
      split_ifs <;> omega
  · rintro ⟨old, fits⟩ i a - found
    have bound := inside found
    unfold Fits at fits
    rw [total found]
    by_cases early : i < w.flushed
    · rw [if_neg (by omega)] at fits
      rw [old i a early found, if_neg (by omega)]
    · rw [sound.count_sent_of_late found (by omega)]
      split_ifs at fits ⊢ <;> omega

end Counts

end Window

end SlidingWindow
