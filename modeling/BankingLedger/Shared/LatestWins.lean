import Mathlib.Order.Lattice
import Mathlib.Data.List.Induction

set_option autoImplicit false

namespace LatestWins

variable {E T : Type} [LinearOrder T] {time : E → T}

def keep (time : E → T) (held : Option E) (event : E) : Option E :=
  match held with
  | none => some event
  | some kept => if time kept < time event then some event else some kept

def latest (time : E → T) (events : List E) : Option E := events.foldl (keep time) none

structure IsLatest (time : E → T) (events : List E) (kept : E) : Prop where
  delivered : kept ∈ events
  greatest : ∀ event ∈ events, time event ≤ time kept

def ToldApart (time : E → T) (events : List E) : Prop :=
  ∀ one ∈ events, ∀ other ∈ events, time one = time other → one = other

@[simp] theorem latest_nil : latest time [] = none := rfl

@[simp] theorem latest_concat (events : List E) (event : E) :
    latest time (events ++ [event]) = keep time (latest time events) event := by
  simp [latest]

theorem keep_isSome (held : Option E) (event : E) : (keep time held event).isSome := by
  cases held with
  | none => rfl
  | some kept =>
    rw [keep]
    split <;> rfl

theorem latest_eq_none_iff {events : List E} : latest time events = none ↔ events = [] := by
  cases events using List.reverseRecOn with
  | nil => simp
  | append_singleton events event =>
    have kept : (keep time (latest time events) event).isSome := keep_isSome _ event
    simp [← Option.not_isSome_iff_eq_none, kept]

theorem latest_isLatest {events : List E} {kept : E} (held : latest time events = some kept) :
    IsLatest time events kept := by
  induction events using List.reverseRecOn generalizing kept with
  | nil => cases held
  | append_singleton events event ih =>
    rw [latest_concat] at held
    cases before : latest time events with
    | none =>
      rw [latest_eq_none_iff] at before
      simp only [before, latest_nil, keep, Option.some.injEq] at held
      subst before held
      exact { delivered := by simp, greatest := by simp }
    | some old =>
      have oldest := ih before
      simp only [before, keep] at held
      by_cases newer : time old < time event
      next =>
        simp only [newer, if_true, Option.some.injEq] at held
        subst held
        have later : ∀ other ∈ events, time other ≤ time event := fun other member =>
          (oldest.greatest other member).trans newer.le
        exact { delivered := by simp, greatest := by simpa [or_imp, forall_and] using later }
      next =>
        simp only [newer, if_false, Option.some.injEq] at held
        subst held
        have last := le_of_not_gt newer
        exact
          { delivered := by simp [oldest.delivered]
            greatest := by simpa [or_imp, forall_and, last] using oldest.greatest }

theorem IsLatest.unique {events : List E} {one other : E} (apart : ToldApart time events)
    (first : IsLatest time events one) (second : IsLatest time events other) : one = other := by
  have same : time one = time other := le_antisymm
    (second.greatest one first.delivered) (first.greatest other second.delivered)
  exact apart one first.delivered other second.delivered same

theorem latest_eq_some_iff {events : List E} (apart : ToldApart time events) {kept : E} :
    latest time events = some kept ↔ IsLatest time events kept := by
  constructor
  case mp => exact latest_isLatest
  case mpr =>
    intro isLatest
    cases held : latest time events with
    | none =>
      rw [latest_eq_none_iff] at held
      simpa [held] using isLatest.delivered
    | some other => rw [(latest_isLatest held).unique apart isLatest]

end LatestWins
