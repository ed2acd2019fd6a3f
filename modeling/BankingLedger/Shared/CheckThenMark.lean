import BankingLedger.Shared.Interleaving
import Mathlib.Data.Multiset.Count

set_option autoImplicit false

namespace CheckThenMark

open Interleaving

variable {I K : Type}

inductive Point where
  | checking
  | acting
  | marking
  | skipped
  | failed
  | done
deriving DecidableEq, Repr

structure Call (K : Type) where
  key : K
  succeeds : Bool
  point : Point
deriving DecidableEq, Repr

/-- The marks, and the keys of the actions that have succeeded. -/
structure Marks (K : Type) where
  seen : Finset K
  acted : Multiset K

section Model

variable [DecidableEq K]

def step (s : Marks K) (call : Call K) : Option (Marks K × Call K) :=
  match call.point with
  | .checking => some (s, { call with point := if call.key ∈ s.seen then .skipped else .acting })
  | .acting =>
    if call.succeeds then some ({ s with acted := call.key ::ₘ s.acted }, { call with point := .marking })
    else some (s, { call with point := .failed })
  | .marking => some ({ s with seen := insert call.key s.seen }, { call with point := .done })
  | .skipped | .failed | .done => none

def system : System (Marks K) (Call K) := ⟨step⟩

def start (key : I → K) (succeeds : I → Bool) : Config I (Marks K) (Call K) where
  shared := { seen := ∅, acted := 0 }
  thread i := { key := key i, succeeds := succeeds i, point := .checking }

def Call.Inside (k : K) (call : Call K) : Prop :=
  call.key = k ∧ call.succeeds ∧ (call.point = .acting ∨ call.point = .marking)

def ChecksAlone (c : Config I (Marks K) (Call K)) (i : I) : Prop :=
  (c.thread i).point = .checking → (c.thread i).succeeds → (c.thread i).key ∉ c.shared.seen →
    ∀ j, ¬ (c.thread j).Inside (c.thread i).key

def Returned (c : Config I (Marks K) (Call K)) : Prop :=
  ∀ i, (c.thread i).point = .skipped ∨ (c.thread i).point = .failed ∨ (c.thread i).point = .done

end Model

section Steps

-- Where a call is says what it has found and what has become of its action.
def Call.Fits (seen : Finset K) (call : Call K) : Prop :=
  match call.point with
  | .checking | .acting => True
  | .marking => call.succeeds
  | .skipped => call.key ∈ seen
  | .failed => ¬ call.succeeds
  | .done => call.succeeds

theorem Call.Fits.mono {seen seen' : Finset K} {call : Call K} (fits : call.Fits seen)
    (more : seen ⊆ seen') : call.Fits seen' := by
  unfold Call.Fits at fits ⊢
  split <;> simp_all [more _]

inductive Move [DecidableEq K] : Marks K → Call K → Marks K → Call K → Prop where
  | skip {s : Marks K} {k : K} {b : Bool} : k ∈ s.seen → Move s ⟨k, b, .checking⟩ s ⟨k, b, .skipped⟩
  | enter {s : Marks K} {k : K} {b : Bool} : k ∉ s.seen → Move s ⟨k, b, .checking⟩ s ⟨k, b, .acting⟩
  | act {s : Marks K} {k : K} :
      Move s ⟨k, true, .acting⟩ { s with acted := k ::ₘ s.acted } ⟨k, true, .marking⟩
  | fail {s : Marks K} {k : K} : Move s ⟨k, false, .acting⟩ s ⟨k, false, .failed⟩
  | mark {s : Marks K} {k : K} {b : Bool} :
      Move s ⟨k, b, .marking⟩ { s with seen := insert k s.seen } ⟨k, b, .done⟩

-- The step lets a call that will act on `k` past the check.
def Admits (k : K) (s : Marks K) (call : Call K) : Prop :=
  call.key = k ∧ call.succeeds ∧ call.point = .checking ∧ k ∉ s.seen

def Call.Waits (k : K) (call : Call K) : Prop := call.key = k ∧ call.succeeds ∧ call.point = .acting

theorem not_admits_of_seen {s : Marks K} {k key : K} {b : Bool} {point : Point} (known : key ∈ s.seen) :
    ¬ Admits k s ⟨key, b, point⟩ := by
  rintro ⟨rfl, -, -, unseen⟩
  exact unseen known

theorem admits_checking {s : Marks K} {k key : K} {b : Bool} (unseen : key ∉ s.seen) :
    Admits k s ⟨key, b, .checking⟩ ↔ key = k ∧ b := by
  constructor
  · exact fun admits => ⟨admits.1, admits.2.1⟩
  · rintro ⟨rfl, succeeds⟩
    exact ⟨rfl, succeeds, rfl, unseen⟩

variable [DecidableEq K] {s s' : Marks K} {call call' : Call K}

theorem move_of_step (taken : step s call = some (s', call')) : Move s call s' call' := by
  obtain ⟨k, succeeds, point⟩ := call
  cases point with
  | checking =>
    by_cases known : k ∈ s.seen
    · simp only [step, known, if_true, Option.some.injEq, Prod.mk.injEq] at taken
      obtain ⟨rfl, rfl⟩ := taken
      exact .skip known
    · simp only [step, known, if_false, Option.some.injEq, Prod.mk.injEq] at taken
      obtain ⟨rfl, rfl⟩ := taken
      exact .enter known
  | acting =>
    cases succeeds with
    | true => cases taken; exact .act
    | false => cases taken; exact .fail
  | marking => cases taken; exact .mark
  | skipped => cases taken
  | failed => cases taken
  | done => cases taken

instance (k : K) (s : Marks K) (call : Call K) : Decidable (Admits k s call) :=
  inferInstanceAs (Decidable (_ ∧ _))

instance (k : K) (call : Call K) : Decidable (call.Waits k) := inferInstanceAs (Decidable (_ ∧ _))

theorem Move.seen (move : Move s call s' call') : s.seen ⊆ s'.seen := by
  cases move with
  | mark => exact Finset.subset_insert _ _
  | _ => exact Finset.Subset.refl _

theorem Move.fits (move : Move s call s' call') (fits : call.Fits s.seen) : call'.Fits s'.seen := by
  cases move with
  | skip known => exact known
  | enter => trivial
  | act => rfl
  | fail => exact Bool.false_ne_true
  | mark => exact fits

theorem Move.counts (move : Move s call s' call') (k : K) :
    (s'.acted.count k : Int) + (if call'.Waits k then 1 else 0) =
      s.acted.count k + (if call.Waits k then 1 else 0) + if Admits k s call then 1 else 0 := by
  cases move with
  | skip known => simp [Call.Waits, not_admits_of_seen known]
  | enter unseen => simp [Call.Waits, admits_checking unseen]
  | act => simp [Call.Waits, Admits, Multiset.count_cons, eq_comm]
  | fail => simp [Call.Waits, Admits]
  | mark => simp [Call.Waits, Admits]

theorem Move.acted (move : Move s call s' call') (k : K) :
    s'.acted.count k +
        (if call.key = k ∧ (call.point = .marking ∨ call.point = .done) then 1 else 0) =
      s.acted.count k +
        if call'.key = k ∧ (call'.point = .marking ∨ call'.point = .done) then 1 else 0 := by
  cases move <;> simp [Multiset.count_cons, eq_comm]

theorem Move.busy (move : Move s call s' call') (fits : call.Fits s.seen) (k : K) :
    k ∈ s'.seen ∨ call'.Inside k ↔ (k ∈ s.seen ∨ call.Inside k) ∨ Admits k s call := by
  cases move with
  | skip known => simp [Call.Inside, not_admits_of_seen known]
  | enter unseen => simp [Call.Inside, admits_checking unseen]
  | act => simp [Call.Inside, Admits]
  | fail => simp [Call.Inside, Admits]
  | @mark key b =>
    obtain rfl : b = true := fits
    simp [Call.Inside, Admits, or_comm, eq_comm]

end Steps

section Runs

variable [DecidableEq K] [Fintype I]

def entered (k : K) (c : Config I (Marks K) (Call K)) : Int :=
  c.shared.acted.count k + ∑ j, if (c.thread j).Waits k then 1 else 0

theorem entered_nonneg (k : K) (c : Config I (Marks K) (Call K)) : 0 ≤ entered k c := by
  have threads : (0 : Int) ≤ ∑ j, if (c.thread j).Waits k then 1 else 0 :=
    Finset.sum_nonneg fun j _ => by split <;> decide
  exact Int.add_nonneg (Int.natCast_nonneg _) threads

theorem count_le_entered (k : K) (c : Config I (Marks K) (Call K)) : c.shared.acted.count k ≤ entered k c := by
  have threads : (0 : Int) ≤ ∑ j, if (c.thread j).Waits k then 1 else 0 :=
    Finset.sum_nonneg fun j _ => by split <;> decide
  exact Int.le_add_of_nonneg_right threads

structure Consistent (c : Config I (Marks K) (Call K)) : Prop where
  fits : ∀ j, (c.thread j).Fits c.shared.seen
  busy : ∀ k, 0 < entered k c ↔ k ∈ c.shared.seen ∨ ∃ j, (c.thread j).Inside k

theorem start_consistent (key : I → K) (succeeds : I → Bool) : Consistent (start key succeeds) where
  fits _ := trivial
  busy k := by simp [entered, start, Call.Waits, Call.Inside]

variable {c : Config I (Marks K) (Call K)} {i : I} {s : Marks K} {call : Call K}

theorem checksAlone_iff (inv : Consistent c) (i : I) :
    ChecksAlone c i ↔ ∀ k, Admits k c.shared (c.thread i) → entered k c ≤ 0 := by
  constructor
  · rintro alone k ⟨rfl, succeeds, checking, unseen⟩
    by_contra some
    rcases (inv.busy _).mp (Int.not_le.mp some) with seen | ⟨j, inside⟩
    · exact unseen seen
    · exact alone checking succeeds unseen j inside
  · intro none checking succeeds unseen j inside
    have busy := (inv.busy _).mpr (Or.inr ⟨j, inside⟩)
    exact Int.not_le.mpr busy (none _ ⟨rfl, succeeds, checking, unseen⟩)

theorem entered_returned (returned : Returned c) (k : K) : entered k c = c.shared.acted.count k := by
  have none (j : I) : ¬ (c.thread j).Waits k := by
    rintro ⟨-, -, acting⟩
    rcases returned j with at_ | at_ | at_ <;> rw [at_] at acting <;> cases acting
  simp [entered, none]

variable [DecidableEq I]

theorem entered_update (k : K) (move : Move c.shared (c.thread i) s call) :
    entered k ⟨s, Function.update c.thread i call⟩ =
      entered k c + if Admits k c.shared (c.thread i) then 1 else 0 := by
  have counts := move.counts k
  have threads := sum_update (fun _ (call : Call K) => if call.Waits k then (1 : Int) else 0) c.thread i call
  simp only [entered, threads]
  omega

theorem Consistent.update (inv : Consistent c) (move : Move c.shared (c.thread i) s call) :
    Consistent ⟨s, Function.update c.thread i call⟩ where
  fits := forall_update (fun _ (call : Call K) => call.Fits s.seen) (move.fits (inv.fits i))
    fun j => (inv.fits j).mono move.seen
  busy k := by
    have before := inv.busy k
    have step := move.busy (inv.fits i) k
    have nonneg := entered_nonneg k c
    rw [entered_update k move, exists_update_iff (Call.Inside k), ← or_assoc, step]
    rw [exists_thread_iff (Call.Inside k) c.thread i, ← or_assoc] at before
    by_cases admits : Admits k c.shared (c.thread i)
    · simp only [admits, if_true, or_true, true_or, iff_true]
      omega
    · simpa only [admits, if_false, or_false, add_zero] using before

theorem Consistent.fire (inv : Consistent c) (i : I) : Consistent (system.fire c i) :=
  system.fire_keeps inv fun _ _ taken => inv.update (move_of_step taken)

-- No key is entered twice exactly as long as every call checks alone.
def EnteredOnce (c : Config I (Marks K) (Call K)) : Prop := ∀ k, entered k c ≤ 1

theorem enteredOnce_fire_iff (inv : Consistent c) (i : I) :
    EnteredOnce (system.fire c i) ↔ EnteredOnce c ∧ ChecksAlone c i := by
  rw [checksAlone_iff inv]
  cases taken : step c.shared (c.thread i) with
  | none =>
    have admits (k : K) : ¬ Admits k c.shared (c.thread i) := by
      rintro ⟨-, -, checking, -⟩
      simp [step, checking] at taken
    simp [System.fire, system, taken, admits]
  | some next =>
    have move := move_of_step taken
    have fired : system.fire c i = ⟨next.1, Function.update c.thread i next.2⟩ := by
      simp [System.fire, system, taken]
    simp only [EnteredOnce, fired, entered_update _ move, ← forall_and]
    refine forall_congr' fun k => ?_
    split
    · next admits =>
      simp only [admits, true_implies]
      omega
    · next other => simp [other]

theorem enteredOnce_run_iff (key : I → K) (succeeds : I → Bool) (schedule : List I) :
    EnteredOnce (system.run (start key succeeds) schedule) ↔
      system.RunMeets ChecksAlone (start key succeeds) schedule := by
  have none : EnteredOnce (start key succeeds) := fun k => by simp [entered, start, Call.Waits]
  have exactly (c : Config I (Marks K) (Call K)) (i : I) (inv : Consistent c) := enteredOnce_fire_iff inv i
  have keep (c : Config I (Marks K) (Call K)) (i : I) (inv : Consistent c) := inv.fire i
  have run := Runs.run_iff_meets_of_invariant exactly keep (start_consistent key succeeds) schedule
  exact run.trans (and_iff_right none)

theorem acted_at_most_once {key : I → K} {succeeds : I → Bool} {schedule : List I}
    (alone : system.RunMeets ChecksAlone (start key succeeds) schedule) :
    Runs.Throughout system.fire (fun c => ∀ k, c.shared.acted.count k ≤ 1) (start key succeeds) schedule := by
  rintro first second rfl k
  have early := (enteredOnce_run_iff key succeeds first).mpr (Runs.meets_append.mp alone).1
  exact Int.ofNat_le.mp (Int.le_trans (count_le_entered k _) (early k))

theorem returned_at_most_once_iff {key : I → K} {succeeds : I → Bool} {schedule : List I}
    (returned : Returned (system.run (start key succeeds) schedule)) :
    (∀ k, (system.run (start key succeeds) schedule).shared.acted.count k ≤ 1) ↔
      system.RunMeets ChecksAlone (start key succeeds) schedule := by
  rw [← enteredOnce_run_iff]
  refine forall_congr' fun k => ?_
  rw [entered_returned returned]
  omega

theorem acted_eq_card (key : I → K) (succeeds : I → Bool) (schedule : List I) (k : K) :
    (system.run (start key succeeds) schedule).shared.acted.count k =
      (Finset.univ.filter fun i =>
        let call := (system.run (start key succeeds) schedule).thread i
        call.key = k ∧ (call.point = .marking ∨ call.point = .done)).card := by
  have counted := system.run_counts (fun s => s.acted.count k)
    (fun (_ : I) (call : Call K) => call.key = k ∧ (call.point = .marking ∨ call.point = .done))
    (fun i s call s' call' (_ : True) taken => ⟨trivial, (move_of_step taken).acted k⟩)
    (start key succeeds) schedule (fun _ => trivial) (by simp [start])
  simpa [start] using counted

theorem acted_of_succeeds {key : I → K} {succeeds : I → Bool} {schedule : List I}
    (returned : Returned (system.run (start key succeeds) schedule)) {i : I}
    (good : ((system.run (start key succeeds) schedule).thread i).succeeds) :
    0 < (system.run (start key succeeds) schedule).shared.acted.count
      ((system.run (start key succeeds) schedule).thread i).key := by
  have inv : Consistent (system.run (start key succeeds) schedule) :=
    Runs.run_invariant (fun _ i inv => inv.fire i) _ schedule (start_consistent key succeeds)
  have fits := inv.fits i
  unfold Call.Fits at fits
  rcases returned i with at_ | at_ | at_ <;> rw [at_] at fits
  · have busy := (inv.busy _).mpr (Or.inl fits)
    rw [entered_returned returned] at busy
    exact Int.natCast_pos.mp busy
  · exact absurd good fits
  · rw [acted_eq_card]
    exact Finset.card_pos.mpr ⟨i, by simp [at_]⟩

end Runs

end CheckThenMark
