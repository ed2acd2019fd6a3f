import BankingLedger.Shared.Interleaving
import Mathlib.Data.List.Dedup

set_option autoImplicit false

namespace Movers

open Interleaving

variable {I S A : Type} [DecidableEq I] (apply : A → S → S)

def perform (s : S) (actions : List A) : S := actions.foldl (fun s a => apply a s) s

theorem perform_append (s : S) (first second : List A) :
    perform apply s (first ++ second) = perform apply (perform apply s first) second := List.foldl_append

def Mover (a : A) : Prop := ∀ b s, apply a (apply b s) = apply b (apply a s)

section Traces

variable {apply} {trace front : List (I × A)} {i : I}

def actionsOf (trace : List (I × A)) (i : I) : List A := (trace.filter fun e => e.1 = i).map Prod.snd

def lastActions (trace : List (I × A)) : List I := (trace.map Prod.fst).dedup

theorem dedup_append_filter (first second : List I) :
    (first ++ second).dedup = (first.filter (· ∉ second)).dedup ++ second.dedup := by
  induction first with
  | nil => rfl
  | cons i rest ih =>
    rw [List.cons_append, List.dedup_cons, ih]
    by_cases later : i ∈ second
    next => simp [later]
    next =>
      rw [List.filter_cons_of_pos (by simpa using later), List.dedup_cons]
      by_cases again : i ∈ rest
      next => simp [again, later]
      next => simp [again, later]

theorem Mover.passes {a : A} (mover : Mover apply a) (s : S) (actions : List A) :
    apply a (perform apply s actions) = perform apply (apply a s) actions := by
  induction actions generalizing s with
  | nil => rfl
  | cons b rest ih =>
    have swapped : perform apply (apply b (apply a s)) rest = perform apply (apply a (apply b s)) rest := by
      rw [mover b s]
    exact (ih (apply b s)).trans swapped.symm

omit [DecidableEq I] in
-- What moves may be put off.
theorem perform_eq_of_movers (mine : I × A → Bool) (movers : ∀ e ∈ front, mine e → Mover apply e.2) (s : S) :
    perform apply s (front.map Prod.snd) =
      perform apply (perform apply s ((front.filter fun e => !mine e).map Prod.snd))
        ((front.filter mine).map Prod.snd) := by
  induction front generalizing s with
  | nil => rfl
  | cons e rest ih =>
    rw [List.forall_mem_cons] at movers
    have later := ih movers.2 (apply e.2 s)
    by_cases own : mine e = true
    next =>
      rw [List.filter_cons_of_neg (by simpa using own), List.filter_cons_of_pos own]
      have moved := (movers.1 own).passes s ((rest.filter fun e => !mine e).map Prod.snd)
      rw [← moved] at later
      exact later
    next =>
      rw [List.filter_cons_of_pos (by simpa using own), List.filter_cons_of_neg own]
      exact later

theorem lastActions_concat (front : List (I × A)) (e : I × A) :
    lastActions (front ++ [e]) = lastActions (front.filter fun other => !decide (other.1 = e.1)) ++ [e.1] := by
  rw [lastActions, lastActions, List.map_append, List.map_singleton, dedup_append_filter, List.filter_map]
  congr 3
  apply List.filter_congr
  intro other here
  simp

theorem actionsOf_others (front : List (I × A)) (e : I × A) {i : I} (other : i ≠ e.1) :
    actionsOf (front.filter fun other => !decide (other.1 = e.1)) i = actionsOf (front ++ [e]) i := by
  rw [actionsOf, actionsOf, List.filter_append, List.filter_filter, List.filter_cons_of_neg (by simpa using other.symm),
    List.filter_nil, List.append_nil]
  congr 1
  apply List.filter_congr
  intro entry here
  by_cases own : entry.1 = i
  next => simp [own, other]
  next => simp [own]

theorem actionsOf_own (front : List (I × A)) (e : I × A) :
    actionsOf (front.filter fun other => !decide (other.1 = e.1)) e.1 = [] := by
  rw [actionsOf, List.filter_filter, List.filter_eq_nil_iff.mpr fun other here => by simp, List.map_nil]

theorem actionsOf_concat_self (front : List (I × A)) (e : I × A) :
    actionsOf (front ++ [e]) e.1 = actionsOf front e.1 ++ [e.2] := by
  simp [actionsOf, List.filter_append]

theorem not_mem_lastActions_others (front : List (I × A)) (e : I × A) :
    e.1 ∉ lastActions (front.filter fun other => !decide (other.1 = e.1)) := by
  simp [lastActions]

theorem perform_trace (movers : ∀ i, ∀ a ∈ (actionsOf trace i).dropLast, Mover apply a) (s : S) :
    perform apply s (trace.map Prod.snd) =
      (lastActions trace).foldl (fun s i => perform apply s (actionsOf trace i)) s := by
  -- The last action ends its thread, and what the thread did before moves up to it.
  induction length : trace.length using Nat.strong_induction_on generalizing trace with
  | _ n ih =>
    cases trace using List.reverseRecOn with
    | nil => rfl
    | append_singleton front e =>
      let others := front.filter fun other => !decide (other.1 = e.1)
      have own : ∀ entry ∈ front, decide (entry.1 = e.1) = true → Mover apply entry.2 := by
        intro entry here same
        have mover := movers e.1 entry.2
        rw [actionsOf_concat_self, List.dropLast_concat] at mover
        exact mover (List.mem_map.mpr ⟨entry, List.mem_filter.mpr ⟨here, same⟩, rfl⟩)
      have moved := perform_eq_of_movers (fun entry => decide (entry.1 = e.1)) own s
      have fewer : others.length < n := by
        have le : others.length ≤ front.length := List.length_filter_le _ front
        rw [List.length_append, List.length_singleton] at length
        omega
      have theirs : ∀ i, ∀ a ∈ (actionsOf others i).dropLast, Mover apply a := by
        intro i
        by_cases here : i = e.1
        next =>
          rw [here, actionsOf_own]
          exact List.forall_mem_nil _
        next =>
          rw [actionsOf_others front e here]
          exact movers i
      have before : perform apply s (others.map Prod.snd) =
          (lastActions others).foldl (fun s i => perform apply s (actionsOf (front ++ [e]) i)) s := by
        rw [ih others.length fewer theirs rfl]
        apply List.foldl_ext
        intro s i member
        have here : i ≠ e.1 := by
          intro same
          rw [same] at member
          exact not_mem_lastActions_others front e member
        rw [actionsOf_others front e here]
      rw [lastActions_concat, List.foldl_append, List.foldl_cons, List.foldl_nil, ← before, actionsOf_concat_self,
        List.map_append, perform_append, perform_append, moved]
      rfl

end Traces

section Threads

variable {apply} {c : Config I S (List A)} {schedule : List I}

def threads (apply : A → S → S) : System S (List A) where
  step
    | _, [] => none
    | s, a :: rest => some (apply a s, rest)

def trace (apply : A → S → S) : Config I S (List A) → List I → List (I × A)
  | _, [] => []
  | c, i :: rest => ((c.thread i).head?.map (Prod.mk i)).toList ++ trace apply ((threads apply).fire c i) rest

theorem fire_returned {i : I} (returned : c.thread i = []) : (threads apply).fire c i = c := by
  simp [System.fire, threads, returned]

theorem fire_taken {i : I} {a : A} {rest : List A} (next : c.thread i = a :: rest) :
    (threads apply).fire c i = { shared := apply a c.shared, thread := Function.update c.thread i rest } := by
  simp [System.fire, threads, next]

theorem trace_append (c : Config I S (List A)) (first second : List I) :
    trace apply c (first ++ second) = trace apply c first ++ trace apply ((threads apply).run c first) second := by
  induction first generalizing c with
  | nil => rfl
  | cons i rest ih => rw [List.cons_append, trace, ih, trace, List.append_assoc, System.run_cons]

theorem run_shared (c : Config I S (List A)) (schedule : List I) :
    ((threads apply).run c schedule).shared = perform apply c.shared ((trace apply c schedule).map Prod.snd) := by
  induction schedule generalizing c with
  | nil => rfl
  | cons i rest ih =>
    rw [System.run_cons, ih, trace]
    cases next : c.thread i with
    | nil => simp [fire_returned next]
    | cons a later => simp [fire_taken next, perform]

theorem run_thread (apply : A → S → S) (c : Config I S (List A)) (schedule : List I) (j : I) :
    actionsOf (trace apply c schedule) j ++ ((threads apply).run c schedule).thread j = c.thread j := by
  induction schedule generalizing c with
  | nil => rfl
  | cons i rest ih =>
    rw [System.run_cons, trace]
    cases next : c.thread i with
    | nil => simpa [fire_returned next] using ih c
    | cons a later =>
      have after := ih ((threads apply).fire c i)
      rw [fire_taken next] at after ⊢
      change _ = Function.update c.thread i later j at after
      by_cases own : i = j
      next =>
        subst own
        rw [Function.update_self] at after
        have begins (later' : List (I × A)) :
            actionsOf (((a :: later).head?.map (Prod.mk i)).toList ++ later') i = a :: actionsOf later' i := by
          simp [actionsOf]
        rw [next, begins, List.cons_append, after]
      next =>
        rw [Function.update_of_ne (Ne.symm own)] at after
        rw [← after]
        simp [actionsOf, own]

def serialOrder (apply : A → S → S) (c : Config I S (List A)) (schedule : List I) : List I :=
  lastActions (trace apply c schedule)

theorem mem_lastActions_iff {trace : List (I × A)} {i : I} : i ∈ lastActions trace ↔ actionsOf trace i ≠ [] := by
  simp [lastActions, actionsOf, List.filter_eq_nil_iff]

theorem actionsOf_of_returned (returned : ∀ i, ((threads apply).run c schedule).thread i = []) (i : I) :
    actionsOf (trace apply c schedule) i = c.thread i := by
  have all := run_thread apply c schedule i
  rwa [returned i, List.append_nil] at all

theorem nodup_serialOrder (c : Config I S (List A)) (schedule : List I) : (serialOrder apply c schedule).Nodup :=
  List.nodup_dedup _

theorem mem_serialOrder (returned : ∀ i, ((threads apply).run c schedule).thread i = []) {i : I} :
    i ∈ serialOrder apply c schedule ↔ c.thread i ≠ [] := by
  rw [serialOrder, mem_lastActions_iff, actionsOf_of_returned returned]

theorem run_serial (movers : ∀ i, ∀ a ∈ (c.thread i).dropLast, Mover apply a)
    (returned : ∀ i, ((threads apply).run c schedule).thread i = []) :
    ((threads apply).run c schedule).shared =
      (serialOrder apply c schedule).foldl (fun s i => perform apply s (c.thread i)) c.shared := by
  have each := actionsOf_of_returned returned
  rw [run_shared, perform_trace, serialOrder]
  next =>
    congr 1
    funext s i
    rw [each i]
  next =>
    intro i
    rw [each i]
    exact movers i

theorem perform_comm {first : List A} (movers : ∀ a ∈ first, Mover apply a) (s : S) (second : List A) :
    perform apply (perform apply s first) second = perform apply (perform apply s second) first := by
  induction first generalizing s with
  | nil => rfl
  | cons a rest ih =>
    rw [List.forall_mem_cons] at movers
    have later := ih movers.2 (apply a s)
    rw [← movers.1.passes s second] at later
    exact later

theorem run_any_order (movers : ∀ i, ∀ a ∈ c.thread i, Mover apply a)
    (returned : ∀ i, ((threads apply).run c schedule).thread i = []) (acts : ∀ i, c.thread i ≠ []) {order : List I}
    (nodup : order.Nodup) (complete : ∀ i, i ∈ order) :
    ((threads apply).run c schedule).shared = order.foldl (fun s i => perform apply s (c.thread i)) c.shared := by
  rw [run_serial (fun i a member => movers i a (List.mem_of_mem_dropLast member)) returned]
  have perm : (serialOrder apply c schedule).Perm order := by
    rw [List.perm_ext_iff_of_nodup (nodup_serialOrder c schedule) nodup]
    exact fun i => iff_of_true ((mem_serialOrder returned).mpr (acts i)) (complete i)
  exact perm.foldl_eq' (fun i _ j _ s => perform_comm (movers i) s (c.thread j)) c.shared

-- A thread that returns before another begins comes before it.
theorem serialOrder_sublist {first rest : List I} {i j : I} (i_acts : c.thread i ≠ [])
    (i_returned : ((threads apply).run c first).thread i = []) (j_acts : c.thread j ≠ [])
    (j_waits : ((threads apply).run c first).thread j = c.thread j)
    (j_returned : ((threads apply).run c (first ++ rest)).thread j = []) :
    [i, j].Sublist (serialOrder apply c (first ++ rest)) := by
  have i_first := run_thread apply c first i
  have i_rest := run_thread apply ((threads apply).run c first) rest i
  have j_rest := run_thread apply ((threads apply).run c first) rest j
  rw [i_returned, List.append_nil] at i_first
  rw [i_returned] at i_rest
  rw [System.run_append] at j_returned
  rw [j_returned, List.append_nil, j_waits] at j_rest
  have i_done : i ∈ (trace apply c first).map Prod.fst := by
    rw [← List.mem_dedup]
    exact mem_lastActions_iff.mpr (i_first ▸ i_acts)
  have i_gone : i ∉ (trace apply ((threads apply).run c first) rest).map Prod.fst := by
    rw [← List.mem_dedup]
    exact fun again => mem_lastActions_iff.mp again (List.append_eq_nil_iff.mp i_rest).1
  have j_later : j ∈ ((trace apply ((threads apply).run c first) rest).map Prod.fst).dedup :=
    mem_lastActions_iff.mpr (j_rest ▸ j_acts)
  rw [serialOrder, lastActions, trace_append, List.map_append, dedup_append_filter]
  have before : [i].Sublist ((trace apply c first).map Prod.fst |>.filter
      (· ∉ (trace apply ((threads apply).run c first) rest).map Prod.fst)).dedup := by
    rw [List.singleton_sublist, List.mem_dedup, List.mem_filter]
    exact ⟨i_done, by simpa using i_gone⟩
  exact before.append (List.singleton_sublist.mpr j_later)

end Threads

end Movers
