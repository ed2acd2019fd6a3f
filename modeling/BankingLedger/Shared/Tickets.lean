import BankingLedger.Shared.Interleaving

set_option autoImplicit false

namespace Interleaving

/-- `held` is the number a thread has drawn and not yet logged, `ready` the one its next step
logs. -/
structure Tickets (S L : Type) where
  counter : S → Nat
  log : S → List Nat
  held : L → Option Nat
  ready : L → Option Nat

namespace Tickets

variable {I S L : Type}

-- All that a step can do.
inductive Move (t : Tickets S L) (s : S) (l : L) (s' : S) (l' : L) : Prop where
  | quiet : t.ready l = none → t.counter s' = t.counter s → t.log s' = t.log s →
      (t.held l' = none ∨ t.held l' = t.held l) → Move t s l s' l'
  | draw : t.ready l = none → t.held l = none → t.counter s' = t.counter s + 1 →
      t.log s' = t.log s → (t.held l' = none ∨ t.held l' = some (t.counter s + 1)) → Move t s l s' l'
  | file (n : Nat) : t.ready l = some n → t.held l = some n → t.held l' = none →
      t.counter s' = t.counter s → t.log s' = t.log s ++ [n] → Move t s l s' l'

section Move

variable {t : Tickets S L} {s s' : S} {l l' : L}

theorem Move.log_eq (move : t.Move s l s' l') : t.log s' = t.log s ++ (t.ready l).toList := by
  cases move with
  | quiet unready _ log _ => simp [unready, log]
  | draw unready _ _ log _ => simp [unready, log]
  | file n ready _ _ _ log => simp [ready, log]

theorem Move.counter_le (move : t.Move s l s' l') : t.counter s ≤ t.counter s' := by
  cases move with
  | quiet _ counter _ _ => exact counter.ge
  | draw _ _ counter _ _ => omega
  | file _ _ _ _ counter _ => exact counter.ge

theorem Move.held_of_ready (move : t.Move s l s' l') {n : Nat} (ready : t.ready l = some n) :
    t.held l = some n := by
  cases move with
  | quiet unready _ _ _ => rw [ready] at unready; cases unready
  | draw unready _ _ _ _ => rw [ready] at unready; cases unready
  | file m filed held _ _ _ =>
    rw [held]
    exact filed.symm.trans ready

-- What a thread holds after its step it held before, or it has drawn it in this step.
theorem Move.held_cases (move : t.Move s l s' l') {n : Nat} (now : t.held l' = some n) :
    t.ready l = none ∧
      (t.held l = some n ∨ t.held l = none ∧ n = t.counter s + 1 ∧ t.counter s' = t.counter s + 1) := by
  cases move with
  | quiet unready _ _ kept =>
    rcases kept with gone | same
    · rw [gone] at now; cases now
    · exact ⟨unready, .inl (same ▸ now)⟩
  | draw unready idle counter _ drawn =>
    rcases drawn with gone | fresh
    · rw [gone] at now; cases now
    · exact ⟨unready, .inr ⟨idle, Option.some.inj (now.symm.trans fresh), counter⟩⟩
  | file _ _ _ gone _ _ => rw [gone] at now; cases now

end Move

/-- Every number in flight is in the range of the counter, differs from the others in flight and
is not in the log. -/
structure Distinct (t : Tickets S L) (c : Config I S L) : Prop where
  logged : ∀ n ∈ t.log c.shared, n ≤ t.counter c.shared
  nodup : (t.log c.shared).Nodup
  bounded : ∀ i n, t.held (c.thread i) = some n → n ≤ t.counter c.shared ∧ n ∉ t.log c.shared
  apart : ∀ i j n, t.held (c.thread i) = some n → t.held (c.thread j) = some n → i = j

variable [DecidableEq I] {t : Tickets S L} {c : Config I S L} {i : I} {s : S} {l : L}

-- The numbers in flight after a step: those before it, less the one it logs, or a new one.
theorem held_step (move : t.Move c.shared (c.thread i) s l) {j : I} {n : Nat}
    (now : t.held (Function.update c.thread i l j) = some n) :
    t.held (c.thread j) = some n ∧ (j = i → t.ready (c.thread i) = none) ∨
      j = i ∧ t.held (c.thread i) = none ∧ t.ready (c.thread i) = none ∧
        n = t.counter c.shared + 1 ∧ t.counter s = t.counter c.shared + 1 := by
  by_cases own : j = i
  · subst own
    rw [Function.update_self] at now
    obtain ⟨unready, old | ⟨idle, new⟩⟩ := move.held_cases now
    · exact .inl ⟨old, fun _ => unready⟩
    · exact .inr ⟨rfl, idle, unready, new⟩
  · rw [Function.update_of_ne own] at now
    exact .inl ⟨now, fun same => absurd same own⟩

-- A number in flight after the step is not the one the step has logged.
omit [DecidableEq I] in
theorem Distinct.ready_ne (distinct : t.Distinct c) (move : t.Move c.shared (c.thread i) s l) {j : I}
    {n : Nat} (old : t.held (c.thread j) = some n) (unready : j = i → t.ready (c.thread i) = none) :
    t.ready (c.thread i) ≠ some n := by
  intro ready
  have same := distinct.apart j i n old (move.held_of_ready ready)
  rw [unready same] at ready
  cases ready

theorem Distinct.step (distinct : t.Distinct c) (move : t.Move c.shared (c.thread i) s l) :
    t.Distinct ({ shared := s, thread := Function.update c.thread i l } : Config I S L) := by
  have grows := move.counter_le
  have member : ∀ n, n ∈ t.log s ↔ n ∈ t.log c.shared ∨ t.ready (c.thread i) = some n := by
    simp [move.log_eq]
  have ready : ∀ n, t.ready (c.thread i) = some n →
      n ≤ t.counter c.shared ∧ n ∉ t.log c.shared :=
    fun n filed => distinct.bounded i n (move.held_of_ready filed)
  refine ⟨?_, ?_, ?_, ?_⟩
  · intro n logged
    rcases (member n).mp logged with old | new
    · exact (distinct.logged n old).trans grows
    · exact (ready n new).1.trans grows
  · rw [move.log_eq]
    refine List.nodup_append.mpr ⟨distinct.nodup, ?_, ?_⟩
    · cases t.ready (c.thread i) <;> simp
    · rintro n old m new rfl
      exact (ready n (by simpa using new)).2 old
  · intro j n now
    rcases held_step move now with ⟨old, unready⟩ | ⟨-, -, unready, rfl, counter⟩
    · have bounds := distinct.bounded j n old
      refine ⟨bounds.1.trans grows, fun logged => ?_⟩
      rcases (member n).mp logged with before | filed
      · exact bounds.2 before
      · exact distinct.ready_ne move old unready filed
    · refine ⟨counter.ge, fun logged => ?_⟩
      rcases (member _).mp logged with before | filed
      · have := distinct.logged _ before
        omega
      · rw [unready] at filed
        cases filed
  · intro j k n first second
    rcases held_step move first with ⟨old, -⟩ | ⟨rfl, -, -, fresh, -⟩
    · rcases held_step move second with ⟨other, -⟩ | ⟨-, -, -, fresh, -⟩
      · exact distinct.apart j k n old other
      · have := (distinct.bounded j n old).1
        omega
    · rcases held_step move second with ⟨other, -⟩ | ⟨rfl, -⟩
      · have := (distinct.bounded k n other).1
        omega
      · rfl

section Order

variable (t) (sys : System S L)

def Files (m : Nat) : Config I S L → List I → Prop
  | _, [] => False
  | c, i :: rest => t.ready (c.thread i) = some m ∨ Files m (sys.fire c i) rest

def Overtakes (c : Config I S L) (i : I) (m : Nat) : Prop :=
  ∃ n j, t.ready (c.thread i) = some n ∧ t.held (c.thread j) = some m ∧ m < n

/-- No number that is logged in the run has been overtaken before. -/
def KeepsTurns : Config I S L → List I → Prop
  | _, [] => True
  | c, i :: rest =>
    (∀ m, t.Overtakes c i m → ¬ t.Files sys m (sys.fire c i) rest) ∧ KeepsTurns (sys.fire c i) rest

def InTurn (c : Config I S L) (i : I) : Prop := ∀ m, ¬ t.Overtakes c i m

variable {t sys}

theorem keepsTurns_of_inTurn {schedule : List I} (meets : sys.RunMeets t.InTurn c schedule) :
    t.KeepsTurns sys c schedule := by
  induction schedule generalizing c with
  | nil => trivial
  | cons i rest ih => exact ⟨fun m past => absurd past (meets.1 m), ih meets.2⟩

def Late (t : Tickets S L) (c : Config I S L) (m : Nat) : Prop :=
  (∃ j, t.held (c.thread j) = some m) ∧ ∃ n ∈ t.log c.shared, m < n

-- A step that logs nothing makes no number late.
theorem late_of_step (distinct : t.Distinct c) (move : t.Move c.shared (c.thread i) s l)
    (quiet : t.ready (c.thread i) = none) {m : Nat}
    (late : t.Late ({ shared := s, thread := Function.update c.thread i l } : Config I S L) m) :
    t.Late c m := by
  obtain ⟨⟨j, held⟩, n, member, less⟩ := late
  simp only [move.log_eq, quiet, Option.toList_none, List.append_nil] at member
  rcases held_step move held with ⟨old, -⟩ | ⟨-, -, -, rfl, -⟩
  · exact ⟨⟨j, old⟩, n, member, less⟩
  · have bound := distinct.logged n member
    omega

-- A step that logs `n` makes late what it overtakes, and nothing else.
theorem late_of_file (move : t.Move c.shared (c.thread i) s l) {m n : Nat}
    (ready : t.ready (c.thread i) = some n)
    (late : t.Late ({ shared := s, thread := Function.update c.thread i l } : Config I S L) m) :
    t.Late c m ∨ t.Overtakes c i m := by
  obtain ⟨⟨j, held⟩, k, member, less⟩ := late
  simp only [move.log_eq, ready, Option.toList_some, List.mem_append, List.mem_singleton] at member
  rcases held_step move held with ⟨old, -⟩ | ⟨-, -, unready, -⟩
  · rcases member with logged | rfl
    · exact .inl ⟨⟨j, old⟩, k, logged, less⟩
    · exact .inr ⟨k, j, ready, old, less⟩
  · rw [unready] at ready
    cases ready

variable (moves : ∀ s l s' l', sys.step s l = some (s', l') → t.Move s l s' l')
  (returned : ∀ s l, sys.step s l = none → t.ready l = none)

include moves returned

theorem log_fire (c : Config I S L) (i : I) :
    t.log (sys.fire c i).shared = t.log c.shared ++ (t.ready (c.thread i)).toList := by
  cases step : sys.step c.shared (c.thread i) with
  | none => simp [System.fire, step, returned _ _ step]
  | some next => simp [System.fire, step, (moves _ _ _ _ step).log_eq]

theorem log_grows (c : Config I S L) (schedule : List I) :
    t.log c.shared <+: t.log (sys.run c schedule).shared := by
  induction schedule generalizing c with
  | nil => exact List.prefix_refl _
  | cons i rest ih =>
    refine List.IsPrefix.trans ?_ (ih (sys.fire c i))
    rw [log_fire moves returned]
    exact List.prefix_append _ _

theorem log_files {m : Nat} {schedule : List I} (files : t.Files sys m c schedule) :
    (t.log c.shared ++ [m]).Sublist (t.log (sys.run c schedule).shared) := by
  induction schedule generalizing c with
  | nil => cases files
  | cons i rest ih =>
    have fired := log_fire moves returned c i
    rcases files with now | later
    · simp only [now, Option.toList_some] at fired
      rw [← fired]
      exact (log_grows moves returned _ rest).sublist
    · refine List.Sublist.trans ?_ (ih later)
      rw [fired]
      exact List.Sublist.append_right (List.sublist_append_left _ _) [m]

theorem keepsTurns_of_ordered {schedule : List I}
    (ordered : (t.log (sys.run c schedule).shared).Pairwise (· < ·)) : t.KeepsTurns sys c schedule := by
  induction schedule generalizing c with
  | nil => trivial
  | cons i rest ih =>
    refine ⟨?_, ih ordered⟩
    rintro m ⟨n, j, ready, -, less⟩ files
    have both := ordered.sublist (log_files moves returned files)
    have earlier : n ∈ t.log (sys.fire c i).shared := by simp [log_fire moves returned, ready]
    have := (List.pairwise_append.mp both).2.2 n earlier m (List.mem_singleton_self m)
    omega

theorem ordered_of_keepsTurns {schedule : List I} (distinct : t.Distinct c)
    (sorted : (t.log c.shared).Pairwise (· < ·)) (turns : t.KeepsTurns sys c schedule)
    (punctual : ∀ m, t.Late c m → ¬ t.Files sys m c schedule) :
    (t.log (sys.run c schedule).shared).Pairwise (· < ·) := by
  induction schedule generalizing c with
  | nil => exact sorted
  | cons i rest ih =>
    have fired := log_fire moves returned c i
    have later : ∀ m, t.Late c m → ¬ t.Files sys m (sys.fire c i) rest :=
      fun m late files => punctual m late (.inr files)
    cases step : sys.step c.shared (c.thread i) with
    | none =>
      have same : sys.fire c i = c := by simp [System.fire, step]
      have next := turns.2
      rw [same] at next later
      rw [System.run_cons, same]
      exact ih distinct sorted next later
    | some next =>
      obtain ⟨s, l⟩ := next
      have move := moves _ _ _ _ step
      have same : sys.fire c i = { shared := s, thread := Function.update c.thread i l } := by
        simp [System.fire, step]
      refine ih (same ▸ distinct.step move) ?_ turns.2 ?_
      · rw [fired]
        cases ready : t.ready (c.thread i) with
        | none => simpa using sorted
        | some n =>
          -- The number is in flight and not late, so it is above the whole log.
          have held := move.held_of_ready ready
          refine List.pairwise_append.mpr ⟨sorted, List.pairwise_singleton _ _, ?_⟩
          intro k member n' new
          rw [List.mem_singleton.mp new]
          have apart : k ≠ n := fun same => (distinct.bounded i n held).2 (same ▸ member)
          have above : ¬ n < k := fun less => punctual n ⟨⟨i, held⟩, k, member, less⟩ (.inl ready)
          omega
      · intro m late
        rw [same] at late
        cases ready : t.ready (c.thread i) with
        | none => exact later m (late_of_step distinct move ready late)
        | some n =>
          rcases late_of_file move ready late with before | past
          · exact later m before
          · exact turns.1 m past

theorem ordered_iff_keepsTurns {schedule : List I}
    (logged : ∀ n ∈ t.log c.shared, n ≤ t.counter c.shared)
    (sorted : (t.log c.shared).Pairwise (· < ·)) (idle : ∀ i, t.held (c.thread i) = none) :
    (t.log (sys.run c schedule).shared).Pairwise (· < ·) ↔ t.KeepsTurns sys c schedule := by
  constructor
  · exact keepsTurns_of_ordered moves returned
  · intro turns
    have distinct : t.Distinct c :=
      ⟨logged, sorted.imp fun less => Nat.ne_of_lt less, by simp [idle], by simp [idle]⟩
    refine ordered_of_keepsTurns moves returned distinct sorted turns ?_
    rintro m ⟨⟨j, held⟩, -⟩
    simp [idle] at held

end Order

section Floor

variable (t) (sys : System S L)

def Draws (c : Config I S L) (i : I) : Prop :=
  t.held (c.thread i) = none ∧ ∃ s l, sys.step c.shared (c.thread i) = some (s, l) ∧ t.held l ≠ none

instance (c : Config I S L) (i : I) : Decidable (t.Draws sys c i) :=
  match taken : sys.step c.shared (c.thread i) with
  | none => isFalse fun ⟨_, _, _, step, _⟩ => by simp [taken] at step
  | some (s, l) => decidable_of_iff (t.held (c.thread i) = none ∧ t.held l ≠ none) (by simp [Draws, taken])

variable {t sys} (moves : ∀ s l s' l', sys.step s l = some (s', l') → t.Move s l s' l')

include moves

theorem above_floor {floor : Nat} {schedule : List I} (idle : ∀ i, t.held (c.thread i) = none)
    (empty : t.log c.shared = [])
    (meets : sys.RunMeets (fun c i => t.Draws sys c i → floor ≤ t.counter c.shared) c schedule) :
    ∀ n ∈ t.log (sys.run c schedule).shared, floor < n := by
  let Inv (d : Config I S L) : Prop :=
    (∀ n ∈ t.log d.shared, floor < n) ∧ ∀ i n, t.held (d.thread i) = some n → floor < n
  have start : Inv c := ⟨by simp [empty], by simp [idle]⟩
  refine (sys.run_keeps ?_ c schedule meets start : Inv _).1
  rintro d i s l ⟨logged, held⟩ reached step
  have move := moves _ _ _ _ step
  refine ⟨fun n member => ?_, fun j n now => ?_⟩
  · simp only [move.log_eq, List.mem_append, Option.mem_toList] at member
    rcases member with old | ready
    · exact logged n old
    · exact held i n (move.held_of_ready ready)
  · rcases held_step move now with ⟨old, -⟩ | ⟨rfl, idle, -, rfl, -⟩
    · exact held j n old
    · have drawn : t.held l = some (t.counter d.shared + 1) := by simpa using now
      have above := reached ⟨idle, s, l, step, by simp [drawn]⟩
      omega

-- Whatever the schedule, no number is logged twice.
theorem log_nodup (idle : ∀ i, t.held (c.thread i) = none) (empty : t.log c.shared = [])
    (schedule : List I) : (t.log (sys.run c schedule).shared).Nodup := by
  have start : t.Distinct c := ⟨by simp [empty], by simp [empty], by simp [idle], by simp [idle]⟩
  have kept := sys.run_invariant (fun _ _ _ _ distinct step => Distinct.step distinct (moves _ _ _ _ step))
    c schedule start
  exact kept.nodup

end Floor

end Tickets

end Interleaving
