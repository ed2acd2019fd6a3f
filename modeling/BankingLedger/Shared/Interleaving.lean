import BankingLedger.Shared.Runs
import Mathlib.Algebra.BigOperators.Group.Finset.Basic
import Mathlib.Algebra.BigOperators.Fin
import Mathlib.Algebra.Order.BigOperators.Group.Finset

set_option autoImplicit false

namespace Interleaving

/-- `step` is `none` exactly when the thread has returned. -/
structure System (S L : Type) where
  step : S → L → Option (S × L)

structure Config (I S L : Type) where
  shared : S
  thread : I → L

variable {I S L : Type}

-- A thread running alone: its steps are the only ones, and it stays put once it has returned.
def System.solo (sys : System S L) : Nat → S × L → S × L
  | 0, now => now
  | n + 1, (s, l) =>
    match sys.step s l with
    | none => (s, l)
    | some next => sys.solo n next

theorem System.solo_returned (sys : System S L) (n : Nat) {s : S} {l : L}
    (returned : sys.step s l = none) : sys.solo n (s, l) = (s, l) := by
  cases n <;> simp [System.solo, returned]

theorem System.solo_succ (sys : System S L) (n : Nat) {s s' : S} {l l' : L}
    (step : sys.step s l = some (s', l')) : sys.solo (n + 1) (s, l) = sys.solo n (s', l') := by
  simp [System.solo, step]

-- What a thread that runs alone gets to.
inductive System.Reaches (sys : System S L) : S × L → S × L → Prop where
  | refl (now : S × L) : sys.Reaches now now
  | step {s : S} {l : L} {next later : S × L} :
      sys.step s l = some next → sys.Reaches next later → sys.Reaches (s, l) later

namespace System.Reaches

variable {sys : System S L} {now next later : S × L}

theorem solo (n : Nat) (now : S × L) : sys.Reaches now (sys.solo n now) := by
  induction n generalizing now with
  | zero => exact .refl now
  | succ n ih =>
    obtain ⟨s, l⟩ := now
    cases taken : sys.step s l with
    | none => rw [sys.solo_returned _ taken]; exact .refl _
    | some next => rw [sys.solo_succ n taken]; exact .step taken (ih next)

theorem trans (first : sys.Reaches now next) (second : sys.Reaches next later) :
    sys.Reaches now later := by
  induction first with
  | refl now => exact second
  | step taken _ ih => exact .step taken (ih second)

-- The steps of one system are steps of another, seen through `view`.
theorem lift {T M : Type} {outer : System T M} (view : S × L → T × M)
    (each : ∀ s l next, sys.step s l = some next →
      outer.step (view (s, l)).1 (view (s, l)).2 = some (view next))
    (inner : sys.Reaches now later) : outer.Reaches (view now) (view later) := by
  induction inner with
  | refl now => exact .refl (view now)
  | step taken _ ih => exact .step (each _ _ _ taken) ih

end System.Reaches

variable [DecidableEq I]

theorem forall_update (P : I → L → Prop) {thread : I → L} {i : I} {l : L} (here : P i l)
    (others : ∀ j, P j (thread j)) : ∀ j, P j (Function.update thread i l j) :=
  (Function.forall_update_iff thread P).mpr ⟨here, fun j _ => others j⟩

theorem exists_thread_iff (P : L → Prop) (thread : I → L) (i : I) :
    (∃ j, P (thread j)) ↔ P (thread i) ∨ ∃ j, j ≠ i ∧ P (thread j) := by
  have updated := Function.exists_update_iff thread (fun _ l => P l) (a := i) (b := thread i)
  rwa [Function.update_eq_self] at updated

theorem exists_update_iff (P : L → Prop) (thread : I → L) (i : I) (l : L) :
    (∃ j, P (Function.update thread i l j)) ↔ P l ∨ ∃ j, j ≠ i ∧ P (thread j) :=
  Function.exists_update_iff thread fun _ l => P l

def System.fire (sys : System S L) (c : Config I S L) (i : I) : Config I S L :=
  match sys.step c.shared (c.thread i) with
  | none => c
  | some (s, l) => { shared := s, thread := Function.update c.thread i l }

def System.run (sys : System S L) : Config I S L → List I → Config I S L := Runs.run sys.fire

@[simp] theorem System.run_nil (sys : System S L) (c : Config I S L) : sys.run c [] = c := rfl

@[simp] theorem System.run_cons (sys : System S L) (c : Config I S L) (i : I) (rest : List I) :
    sys.run c (i :: rest) = sys.run (sys.fire c i) rest := rfl

theorem System.run_append (sys : System S L) (c : Config I S L) (first second : List I) :
    sys.run c (first ++ second) = sys.run (sys.run c first) second :=
  Runs.run_append sys.fire c first second

-- Scheduled alone, a thread takes the whole configuration where it gets to by itself.
theorem System.Reaches.run {sys : System S L} {now later : S × L} (alone : sys.Reaches now later)
    (c : Config I S L) (i : I) (start : (c.shared, c.thread i) = now) :
    ∃ n, sys.run c (List.replicate n i) =
      { shared := later.1, thread := Function.update c.thread i later.2 } := by
  induction alone generalizing c with
  | refl now =>
    refine ⟨0, ?_⟩
    subst start
    simp
  | @step s l next later taken _ ih =>
    obtain ⟨rfl, rfl⟩ := Prod.mk.inj start
    have fired : sys.fire c i = { shared := next.1, thread := Function.update c.thread i next.2 } := by
      simp [System.fire, taken]
    obtain ⟨n, rest⟩ := ih (sys.fire c i) (by simp [fired])
    refine ⟨n + 1, ?_⟩
    rw [List.replicate_succ, System.run_cons, rest, fired]
    simp

def System.RunMeets (sys : System S L) (condition : Config I S L → I → Prop) :
    Config I S L → List I → Prop :=
  Runs.Meets sys.fire condition

instance (sys : System S L) (condition : Config I S L → I → Prop)
    [∀ c i, Decidable (condition c i)] (c : Config I S L) (schedule : List I) :
    Decidable (sys.RunMeets condition c schedule) :=
  Runs.decidableMeets sys.fire condition c schedule

section Invariants

variable (sys : System S L) {condition : Config I S L → I → Prop}

theorem System.fire_keeps {Inv : Config I S L → Prop} {c : Config I S L} {i : I} (holds : Inv c)
    (keep : ∀ s l, sys.step c.shared (c.thread i) = some (s, l) →
      Inv { shared := s, thread := Function.update c.thread i l }) :
    Inv (sys.fire c i) := by
  unfold System.fire
  split
  · exact holds
  · exact keep _ _ (by assumption)

theorem System.run_keeps {Inv : Config I S L → Prop}
    (keep : ∀ c i s l, Inv c → condition c i → sys.step c.shared (c.thread i) = some (s, l) →
      Inv { shared := s, thread := Function.update c.thread i l })
    (c : Config I S L) (schedule : List I) (meets : sys.RunMeets condition c schedule)
    (start : Inv c) : Inv (sys.run c schedule) :=
  Runs.run_keeps (fun c i holds met => sys.fire_keeps holds fun s l => keep c i s l holds met)
    c schedule meets start

theorem System.run_invariant {Inv : Config I S L → Prop}
    (keep : ∀ c i s l, Inv c → sys.step c.shared (c.thread i) = some (s, l) →
      Inv { shared := s, thread := Function.update c.thread i l })
    (c : Config I S L) (schedule : List I) (start : Inv c) : Inv (sys.run c schedule) :=
  sys.run_keeps (fun c i s l holds (_ : True) step => keep c i s l holds step) c schedule
    (Runs.meets_of_forall (fun _ _ => trivial) c schedule) start

theorem System.runMeets_of_invariant {Inv : Config I S L → Prop}
    (implied : ∀ c i, Inv c → condition c i)
    (keep : ∀ c i s l, Inv c → sys.step c.shared (c.thread i) = some (s, l) →
      Inv { shared := s, thread := Function.update c.thread i l })
    (c : Config I S L) (schedule : List I) (start : Inv c) :
    sys.RunMeets condition c schedule :=
  Runs.meets_of_invariant implied
    (fun c i holds => sys.fire_keeps holds fun s l => keep c i s l holds) c schedule start

end Invariants

section Views

variable {T M : Type} (f : S → T) (g : L → M)

def Config.view (c : Config I S L) : Config I T M where
  shared := f c.shared
  thread i := g (c.thread i)

variable {sys : System S L} {outer : System T M} {condition : Config I S L → I → Prop} {f g}

theorem System.fire_view {c : Config I S L} {i : I}
    (each : outer.step (f c.shared) (g (c.thread i)) =
      (sys.step c.shared (c.thread i)).map (Prod.map f g)) :
    outer.fire (c.view f g) i = (sys.fire c i).view f g := by
  have taken : outer.step (c.view f g).shared ((c.view f g).thread i) = _ := each
  unfold System.fire
  rw [taken]
  cases sys.step c.shared (c.thread i) with
  | none => rfl
  | some next =>
    have moved : (fun j => g (Function.update c.thread i next.2 j)) =
        Function.update (fun j => g (c.thread j)) i (g next.2) :=
      funext fun j => Function.apply_update (fun _ => g) c.thread i next.2 j
    simp only [Option.map_some, Prod.map_fst, Prod.map_snd, Config.view, moved]

theorem System.run_view
    (each : ∀ (c : Config I S L) i, condition c i → outer.step (f c.shared) (g (c.thread i)) =
      (sys.step c.shared (c.thread i)).map (Prod.map f g))
    {c : Config I S L} {schedule : List I} (meets : sys.RunMeets condition c schedule) :
    outer.run (c.view f g) schedule = (sys.run c schedule).view f g := by
  induction schedule generalizing c with
  | nil => rfl
  | cons i rest ih => rw [System.run_cons, System.run_cons, System.fire_view (each c i meets.1), ih meets.2]

theorem System.runMeets_view (condition' : Config I T M → I → Prop)
    (each : ∀ (c : Config I S L) i, condition c i → outer.step (f c.shared) (g (c.thread i)) =
      (sys.step c.shared (c.thread i)).map (Prod.map f g))
    {c : Config I S L} {schedule : List I} (meets : sys.RunMeets condition c schedule) :
    outer.RunMeets condition' (c.view f g) schedule ↔
      sys.RunMeets (fun d i => condition' (d.view f g) i) c schedule := by
  induction schedule generalizing c with
  | nil => rfl
  | cons i rest ih =>
    have later := ih meets.2
    rw [← System.fire_view (each c i meets.1)] at later
    exact and_congr_right fun _ => later

end Views

section Stuttering

variable {T M : Type} {f : S → T} {g : L → M} {sys : System S L} {outer : System T M}

-- Where the views of the steps are steps or no change, a schedule of some of them does the same.
theorem System.exists_run_view (Inv : Config I S L → Prop)
    (each : ∀ c i s l, Inv c → sys.step c.shared (c.thread i) = some (s, l) →
      Inv { shared := s, thread := Function.update c.thread i l } ∧
        (f s = f c.shared ∧ g l = g (c.thread i) ∨ outer.step (f c.shared) (g (c.thread i)) = some (f s, g l)))
    {c : Config I S L} (start : Inv c) (schedule : List I) :
    ∃ schedule', outer.run (c.view f g) schedule' = (sys.run c schedule).view f g := by
  induction schedule generalizing c with
  | nil => exact ⟨[], rfl⟩
  | cons i rest ih =>
    cases taken : sys.step c.shared (c.thread i) with
    | none =>
      have still : sys.fire c i = c := by simp [System.fire, taken]
      rw [System.run_cons, still]
      exact ih start
    | some next =>
      obtain ⟨inv, moved⟩ := each c i next.1 next.2 start taken
      obtain ⟨schedule', runs⟩ := ih inv
      have fired : sys.fire c i = { shared := next.1, thread := Function.update c.thread i next.2 } := by
        simp [System.fire, taken]
      have threads : (fun j => g (Function.update c.thread i next.2 j)) =
          Function.update (fun j => g (c.thread j)) i (g next.2) :=
        funext fun j => Function.apply_update (fun _ => g) c.thread i next.2 j
      rw [System.run_cons, fired, ← runs]
      cases moved with
      | inl same =>
        refine ⟨schedule', ?_⟩
        congr 1
        simp only [Config.view, threads, same.1, same.2, Function.update_eq_self]
      | inr step =>
        refine ⟨i :: schedule', ?_⟩
        rw [System.run_cons]
        congr 1
        simp only [System.fire, Config.view, step, threads]

end Stuttering

section Turns

variable {sys : System S L} {i : I}

-- What has returned has returned for good, if that does not hang on the shared state.
theorem System.run_returned (stays : ∀ s s' l, sys.step s l = none → sys.step s' l = none) {c : Config I S L}
    (returned : sys.step c.shared (c.thread i) = none) (schedule : List I) (s : S) :
    sys.step s ((sys.run c schedule).thread i) = none := by
  have keep (d : Config I S L) (j : I) (s' : S) (l : L) (before : ∀ s, sys.step s (d.thread i) = none)
      (step : sys.step d.shared (d.thread j) = some (s', l)) :
      ∀ s, sys.step s (Function.update d.thread j l i) = none := by
    intro s
    by_cases own : i = j
    next => simp [own ▸ before d.shared] at step
    next => simpa [Function.update_of_ne own] using before s
  exact sys.run_invariant keep c schedule (fun s => stays _ s _ returned) s

theorem System.returned_of_turns (measure : Config I S L → Nat) (Inv : Config I S L → Prop)
    (stays : ∀ s s' l, sys.step s l = none → sys.step s' l = none)
    (each : ∀ c j s l, Inv c → sys.step c.shared (c.thread j) = some (s, l) →
      Inv { shared := s, thread := Function.update c.thread j l } ∧
        measure { shared := s, thread := Function.update c.thread j l } + (if j = i then 1 else 0) ≤ measure c)
    {c : Config I S L} (start : Inv c) (schedule : List I) (turns : measure c ≤ schedule.count i) (s : S) :
    sys.step s ((sys.run c schedule).thread i) = none := by
  induction schedule generalizing c with
  | nil =>
    cases taken : sys.step c.shared (c.thread i) with
    | none => exact sys.run_returned stays taken [] s
    | some next =>
      have nearer := (each c i next.1 next.2 start taken).2
      rw [if_pos rfl] at nearer
      rw [List.count_nil] at turns
      omega
  | cons j rest ih =>
    rw [List.count_cons] at turns
    simp only [beq_iff_eq] at turns
    rw [System.run_cons]
    cases taken : sys.step c.shared (c.thread j) with
    | none =>
      have still : sys.fire c j = c := by simp [System.fire, taken]
      rw [still]
      by_cases own : j = i
      next => exact sys.run_returned stays (own ▸ taken) rest s
      next =>
        rw [if_neg own] at turns
        exact ih start turns
    | some next =>
      obtain ⟨inv, nearer⟩ := each c j next.1 next.2 start taken
      have fired : sys.fire c j = { shared := next.1, thread := Function.update c.thread j next.2 } := by
        simp [System.fire, taken]
      rw [fired]
      exact ih inv (by omega)

end Turns

section Totals

theorem sum_update [Fintype I] (f : I → L → Int) (thread : I → L) (i : I) (l : L) :
    ∑ j, f j (Function.update thread i l j) = ∑ j, f j (thread j) + (f i l - f i (thread i)) := by
  have updated := Finset.add_sum_erase Finset.univ
    (fun j => f j (Function.update thread i l j)) (Finset.mem_univ i)
  have original := Finset.add_sum_erase Finset.univ (fun j => f j (thread j)) (Finset.mem_univ i)
  have others : ∑ j ∈ Finset.univ.erase i, f j (Function.update thread i l j) =
      ∑ j ∈ Finset.univ.erase i, f j (thread j) := by
    apply Finset.sum_congr rfl
    intro j member
    rw [Function.update_of_ne (Finset.ne_of_mem_erase member)]
  simp only [Function.update_self] at updated
  omega

-- Where nothing can be taken away, what the thread had is on the other side.
theorem sum_update_balance {M : Type} [AddCommMonoid M] [Fintype I] (f : L → M) (thread : I → L) (i : I) (l : L) :
    ∑ j, f (Function.update thread i l j) + f (thread i) = ∑ j, f (thread j) + f l := by
  have others : ∑ j ∈ Finset.univ.erase i, f (Function.update thread i l j) =
      ∑ j ∈ Finset.univ.erase i, f (thread j) := by
    apply Finset.sum_congr rfl
    intro j member
    rw [Function.update_of_ne (Finset.ne_of_mem_erase member)]
  rw [← Finset.add_sum_erase Finset.univ (fun j => f (Function.update thread i l j)) (Finset.mem_univ i),
    ← Finset.add_sum_erase Finset.univ (fun j => f (thread j)) (Finset.mem_univ i), others, Function.update_self,
    add_right_comm, add_comm (f l), add_right_comm]

-- Each step adds to `measure` what it adds to the number of threads that are `counted`, so along a
-- run `measure` counts them.
theorem System.run_counts [Fintype I] (sys : System S L) {P : I → L → Prop} (measure : S → Nat)
    (counted : I → L → Prop) [∀ i, DecidablePred (counted i)]
    (keep : ∀ i s l s' l', P i l → sys.step s l = some (s', l') → P i l' ∧
      measure s' + (if counted i l then 1 else 0) = measure s + if counted i l' then 1 else 0)
    (c : Config I S L) (schedule : List I) (start : ∀ i, P i (c.thread i))
    (uncounted : ∀ i, ¬ counted i (c.thread i)) :
    measure (sys.run c schedule).shared = measure c.shared +
      (Finset.univ.filter fun i => counted i ((sys.run c schedule).thread i)).card := by
  let Inv (d : Config I S L) : Prop := (∀ i, P i (d.thread i)) ∧
    (measure d.shared : Int) = measure c.shared + ∑ i, if counted i (d.thread i) then 1 else 0
  have final : Inv (sys.run c schedule) := by
    apply sys.run_invariant _ c schedule
    · exact ⟨start, by simp [uncounted]⟩
    · rintro d i s l ⟨fits, total⟩ step
      obtain ⟨here, change⟩ := keep i _ _ _ _ (fits i) step
      refine ⟨forall_update P here fits, ?_⟩
      have added : (measure s : Int) = measure d.shared +
          ((if counted i l then 1 else 0) - if counted i (d.thread i) then 1 else 0) := by
        split_ifs at change ⊢ <;> omega
      rw [sum_update (fun i l => if counted i l then (1 : Int) else 0), added, total]
      omega
  have total := final.2
  rw [Finset.card_filter]
  exact_mod_cast total

def System.effect (sys : System S L) (measure : S → Int) (i : I) : Config I S L → List I → Int
  | _, [] => 0
  | c, j :: rest =>
    (if j = i then measure (sys.fire c j).shared - measure c.shared else 0) +
      sys.effect measure i (sys.fire c j) rest

theorem System.effect_eq (sys : System S L) {condition : Config I S L → I → Prop}
    {Inv : Config I S L → Prop} (measure : S → Int) (applied : L → Int)
    (keep : ∀ c i s l, Inv c → condition c i → sys.step c.shared (c.thread i) = some (s, l) →
      Inv { shared := s, thread := Function.update c.thread i l })
    (exact : ∀ c i s l, Inv c → condition c i → sys.step c.shared (c.thread i) = some (s, l) →
      measure s = measure c.shared + (applied l - applied (c.thread i)))
    (i : I) (c : Config I S L) (schedule : List I) (meets : sys.RunMeets condition c schedule)
    (start : Inv c) :
    sys.effect measure i c schedule =
      applied ((sys.run c schedule).thread i) - applied (c.thread i) := by
  induction schedule generalizing c with
  | nil => simp [System.effect]
  | cons j rest ih =>
    have next := sys.fire_keeps start fun s l step => keep c j s l start meets.1 step
    simp only [System.effect, System.run_cons, ih _ meets.2 next]
    cases step : sys.step c.shared (c.thread j) with
    | none => simp [System.fire, step]
    | some result =>
      obtain ⟨s, l⟩ := result
      have change := exact c j s l start meets.1 step
      by_cases own : j = i
      · subst own
        simp only [System.fire, step, if_true, Function.update_self]
        omega
      · simp [System.fire, step, own, Function.update_of_ne (Ne.symm own)]

end Totals

end Interleaving
