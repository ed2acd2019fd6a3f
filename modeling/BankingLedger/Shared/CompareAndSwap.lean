import BankingLedger.Shared.Interleaving
import Mathlib.Data.Fintype.Card

set_option autoImplicit false

namespace CompareAndSwap

open Interleaving Runs

variable {I V A R : Type}

inductive Point (V R : Type) where
  | load
  | exchange (current new : V) (reply : R)
  | returned (reply : R)
deriving DecidableEq

structure Call (V A R : Type) where
  argument : A
  point : Point V R

abbrev Round (V A R : Type) : Type := A → V → Except R (V × R)

section Model

variable (round : Round V A R)

def once (argument : A) (v : V) : R × V :=
  match round argument v with
  | .error reply => (reply, v)
  | .ok (new, reply) => (reply, new)

variable [DecidableEq V]

def step (cell : V) (call : Call V A R) : Option (V × Call V A R) :=
  match call.point with
  | .load =>
    match round call.argument cell with
    | .error reply => some (cell, { call with point := .returned reply })
    | .ok (new, reply) => some (cell, { call with point := .exchange cell new reply })
  | .exchange current new reply =>
    if cell = current then some (new, { call with point := .returned reply })
    else some (cell, { call with point := .load })
  | .returned _ => none

def system : System V (Call V A R) := ⟨step round⟩

def start (v : V) (argument : I → A) : Config I V (Call V A R) where
  shared := v
  thread i := { argument := argument i, point := .load }

def Point.reply : Point V R → Option R
  | .returned reply => some reply
  | _ => none

def Call.Returned (call : Call V A R) : Prop := call.point.reply.isSome = true

instance (call : Call V A R) : Decidable call.Returned := inferInstanceAs (Decidable (_ = true))

variable [DecidableEq I]

/-- The calls in the order of their returns, and how often each has been scheduled. -/
structure History (I V A R : Type) where
  config : Config I V (Call V A R)
  order : List I
  steps : I → Nat

def History.start (v : V) (argument : I → A) : History I V A R where
  config := CompareAndSwap.start v argument
  order := []
  steps _ := 0

def History.next (h : History I V A R) (i : I) : History I V A R :=
  let config := (system round).fire h.config i
  { config
    order := if (config.thread i).Returned ∧ ¬(h.config.thread i).Returned then h.order ++ [i] else h.order
    steps := Function.update h.steps i (h.steps i + 1) }

def order (v : V) (argument : I → A) (schedule : List I) : List I :=
  (run (History.next round) (.start v argument) schedule).order

end Model

structure Linearized (round : Round V A R) (v : V) (argument : I → A) (c : Config I V (Call V A R))
    (order : List I) : Prop where
  nodup : order.Nodup
  returned : ∀ i, i ∈ order ↔ (c.thread i).Returned
  cell : c.shared = run (fun v i => (once round (argument i) v).2) v order
  replies : order.map (fun i => (c.thread i).point) =
    (outputs (fun v i => once round (argument i) v) v order).map .returned

section Steps

variable {round : Round V A R} [DecidableEq V] {cell cell' : V} {call call' : Call V A R}

-- A call that is about to write has computed what it writes from the value it expects.
def Call.Computed (round : Round V A R) (call : Call V A R) : Prop :=
  ∀ current new reply, call.point = .exchange current new reply → round call.argument current = .ok (new, reply)

inductive Move (round : Round V A R) (cell : V) (call : Call V A R) : V → Call V A R → Prop where
  | loaded (new : V) (reply : R) (point : call.point = .load) (computed : round call.argument cell = .ok (new, reply)) :
      Move round cell call cell { call with point := .exchange cell new reply }
  | retried (current new : V) (reply : R) (point : call.point = .exchange current new reply)
      (changed : cell ≠ current) : Move round cell call cell { call with point := .load }
  | returned (reply : R) (new : V) (unreturned : ¬call.Returned)
      (outcome : once round call.argument cell = (reply, new)) :
      Move round cell call new { call with point := .returned reply }

omit [DecidableEq V] in
theorem unreturned_of_point {point : Point V R} (found : call.point = point) (running : point.reply = none) :
    ¬call.Returned := by
  rw [Call.Returned, found, running]
  exact Bool.false_ne_true

theorem move_of_step (computed : call.Computed round) (taken : step round cell call = some (cell', call')) :
    Move round cell call cell' call' := by
  unfold step at taken
  split at taken
  next point =>
    split at taken
    next reply stopped =>
      cases taken
      exact .returned reply _ (unreturned_of_point point rfl) (by rw [once, stopped])
    next new reply goes =>
      cases taken
      exact .loaded new reply point goes
  next current new reply point =>
    have writes := computed current new reply point
    split_ifs at taken with unchanged
    · cases taken
      subst unchanged
      exact .returned reply _ (unreturned_of_point point rfl) (by rw [once, writes])
    · cases taken
      exact .retried current new reply point unchanged
  next => cases taken

theorem step_eq_none_iff (round : Round V A R) (cell : V) : step round cell call = none ↔ call.Returned := by
  unfold step
  split
  next point =>
    refine iff_of_false ?_ (unreturned_of_point point rfl)
    split <;> exact Option.some_ne_none _
  next point =>
    refine iff_of_false ?_ (unreturned_of_point point rfl)
    split <;> exact Option.some_ne_none _
  next reply point => exact iff_of_true rfl (by rw [Call.Returned, point]; rfl)

end Steps

section Runs

variable {round : Round V A R} [DecidableEq V] [DecidableEq I] {v : V} {argument : I → A} {h : History I V A R}

/-- A call that has not returned has been scheduled twice for each return it has seen, and not yet been
seen to fail more often. -/
def Call.Paced (returns steps : Nat) (cell : V) (call : Call V A R) : Prop :=
  match call.point with
  | .load => steps ≤ 2 * returns
  | .exchange current _ _ => steps ≤ 2 * returns + 1 ∧ (cell ≠ current → steps + 1 ≤ 2 * returns)
  | .returned _ => True

structure History.Holds (round : Round V A R) (v : V) (argument : I → A) (h : History I V A R) : Prop where
  linear : Linearized round v argument h.config h.order
  arguments : ∀ i, (h.config.thread i).argument = argument i
  computed : ∀ i, (h.config.thread i).Computed round
  paced : ∀ i, (h.config.thread i).Paced h.order.length (h.steps i) h.config.shared

omit [DecidableEq V] [DecidableEq I] in
theorem Call.Paced.later {returns steps : Nat} {cell cell' : V} {call : Call V A R}
    (paced : call.Paced returns steps cell) : call.Paced (returns + 1) steps cell' := by
  unfold Call.Paced at paced ⊢
  split
  next point =>
    simp only [point] at paced
    omega
  next point =>
    simp only [point] at paced
    exact ⟨by omega, fun _ => by omega⟩
  next => trivial

omit [DecidableEq V] [DecidableEq I] in
theorem start_holds : (History.start v argument : History I V A R).Holds round v argument where
  linear :=
    { nodup := List.nodup_nil
      returned := fun i => iff_of_false List.not_mem_nil (unreturned_of_point rfl rfl)
      cell := rfl
      replies := rfl }
  arguments _ := rfl
  computed _ _ _ _ point := by cases point
  paced _ := Nat.zero_le _

omit [DecidableEq V] in
theorem points_update {thread : I → Call V A R} {i : I} {call' : Call V A R} {order : List I} (absent : i ∉ order) :
    order.map (fun j => (Function.update thread i call' j).point) = order.map fun j => (thread j).point := by
  refine List.map_congr_left fun j member => ?_
  have other : j ≠ i := fun same => absent (same ▸ member)
  rw [Function.update_of_ne other]

section Moved

variable {c : Config I V (Call V A R)} {order : List I} {i : I} {call' : Call V A R}

omit [DecidableEq V] in
theorem Linearized.running (linear : Linearized round v argument c order) (before : ¬(c.thread i).Returned)
    (after : ¬call'.Returned) :
    Linearized round v argument { shared := c.shared, thread := Function.update c.thread i call' } order where
  nodup := linear.nodup
  returned := forall_update (fun j (call : Call V A R) => j ∈ order ↔ call.Returned)
    (iff_of_false (fun member => before ((linear.returned i).mp member)) after) linear.returned
  cell := linear.cell
  replies := by
    rw [← linear.replies]
    exact points_update fun member => before ((linear.returned i).mp member)

omit [DecidableEq V] in
theorem Linearized.concat {new : V} {reply : R} (linear : Linearized round v argument c order)
    (before : ¬(c.thread i).Returned) (after : call'.point = .returned reply)
    (outcome : once round (argument i) c.shared = (reply, new)) :
    Linearized round v argument { shared := new, thread := Function.update c.thread i call' } (order ++ [i]) := by
  have absent : i ∉ order := fun member => before ((linear.returned i).mp member)
  have returned : call'.Returned := by
    rw [Call.Returned, after]
    rfl
  constructor
  case nodup => exact List.nodup_append_comm.mp (List.nodup_cons.mpr ⟨absent, linear.nodup⟩)
  case returned =>
    intro j
    by_cases own : j = i
    next =>
      subst own
      simp only [Function.update_self]
      exact iff_of_true (List.mem_append_right order (List.mem_singleton_self j)) returned
    next =>
      simp only [Function.update_of_ne own]
      rw [List.mem_append, List.mem_singleton, or_iff_left own]
      exact linear.returned j
  case cell =>
    rw [run_append, ← linear.cell, run_cons, run_nil, outcome]
  case replies =>
    rw [outputs_concat, List.map_append, List.map_append, points_update absent, linear.replies, ← linear.cell, outcome,
      List.map_singleton, List.map_singleton]
    simp only [Function.update_self, after]

end Moved

theorem next_of_returned {i : I} (returned : (h.config.thread i).Returned) :
    h.next round i = { h with steps := Function.update h.steps i (h.steps i + 1) } := by
  have idle := (step_eq_none_iff round h.config.shared).mpr returned
  simp only [History.next, System.fire, system, idle, and_not_self, if_false]

theorem next_of_step {i : I} {cell' : V} {call' : Call V A R}
    (taken : step round h.config.shared (h.config.thread i) = some (cell', call')) :
    h.next round i =
      { config := { shared := cell', thread := Function.update h.config.thread i call' }
        order := if call'.Returned then h.order ++ [i] else h.order
        steps := Function.update h.steps i (h.steps i + 1) } := by
  have running : ¬(h.config.thread i).Returned := by
    rw [← step_eq_none_iff round h.config.shared, taken]
    exact Option.some_ne_none _
  simp only [History.next, System.fire, system, taken, Function.update_self, running, not_false_eq_true, and_true]

omit [DecidableEq V] [DecidableEq I] in
theorem paced_of_returned {returns steps : Nat} {cell : V} {call : Call V A R} (returned : call.Returned) :
    call.Paced returns steps cell := by
  unfold Call.Paced
  split
  next point => exact absurd returned (unreturned_of_point point rfl)
  next point => exact absurd returned (unreturned_of_point point rfl)
  next => trivial

omit [DecidableEq V] in
-- The thread that moves is shown to hold up, the others see the cell change only when a call returns.
theorem History.Holds.moved (holds : h.Holds round v argument) {i : I} {cell' : V} {call' : Call V A R}
    {order' : List I} (linear : Linearized round v argument
      { shared := cell', thread := Function.update h.config.thread i call' } order')
    (same : call'.argument = (h.config.thread i).argument) (computed : call'.Computed round)
    (paced : call'.Paced order'.length (h.steps i + 1) cell')
    (longer : order' = h.order ∧ cell' = h.config.shared ∨ order' = h.order ++ [i]) :
    History.Holds round v argument
      { config := { shared := cell', thread := Function.update h.config.thread i call' }
        order := order'
        steps := Function.update h.steps i (h.steps i + 1) } where
  linear := linear
  arguments := forall_update (fun j (call : Call V A R) => call.argument = argument j)
    (same.trans (holds.arguments i)) holds.arguments
  computed := forall_update (fun _ (call : Call V A R) => call.Computed round) computed holds.computed
  paced := by
    intro j
    by_cases own : j = i
    next =>
      subst own
      simp only [Function.update_self]
      exact paced
    next =>
      simp only [Function.update_of_ne own]
      cases longer with
      | inl still => exact still.1 ▸ still.2 ▸ holds.paced j
      | inr grown =>
        rw [grown, List.length_append]
        exact (holds.paced j).later

theorem History.Holds.next (holds : h.Holds round v argument) (i : I) : (h.next round i).Holds round v argument := by
  cases taken : step round h.config.shared (h.config.thread i) with
  | none =>
    have returned := (step_eq_none_iff round _).mp taken
    rw [next_of_returned returned]
    refine ⟨holds.linear, holds.arguments, holds.computed, fun j => ?_⟩
    by_cases own : j = i
    next =>
      subst own
      exact paced_of_returned returned
    next =>
      simp only [Function.update_of_ne own]
      exact holds.paced j
  | some next =>
    obtain ⟨cell', call'⟩ := next
    rw [next_of_step taken]
    have move := move_of_step (holds.computed i) taken
    have paced := holds.paced i
    unfold Call.Paced at paced
    cases move with
    | loaded new reply point computed =>
      have running := unreturned_of_point point rfl
      have still : ¬Call.Returned { h.config.thread i with point := .exchange h.config.shared new reply } :=
        Bool.false_ne_true
      rw [if_neg still]
      rw [point] at paced
      refine holds.moved (holds.linear.running running still) rfl ?_ ?_ (.inl ⟨rfl, rfl⟩)
      · intro current new' reply' same
        cases same
        exact computed
      · exact ⟨Nat.succ_le_succ paced, fun changed => absurd rfl changed⟩
    | retried current new reply point changed =>
      have running := unreturned_of_point point rfl
      have still : ¬Call.Returned ({ h.config.thread i with point := .load } : Call V A R) := Bool.false_ne_true
      rw [if_neg still]
      rw [point] at paced
      refine holds.moved (holds.linear.running running still) rfl ?_ (paced.2 changed) (.inl ⟨rfl, rfl⟩)
      intro current new' reply' same
      cases same
    | returned reply new running outcome =>
      have finished : Call.Returned ({ h.config.thread i with point := .returned reply } : Call V A R) := rfl
      rw [if_pos finished]
      rw [holds.arguments i] at outcome
      refine holds.moved (holds.linear.concat running rfl outcome) rfl ?_ trivial (.inr rfl)
      intro current new' reply' same
      cases same

theorem run_holds (round : Round V A R) (v : V) (argument : I → A) (schedule : List I) :
    (run (History.next round) (History.start v argument) schedule).Holds round v argument :=
  run_invariant (fun _ i holds => holds.next i) _ schedule start_holds

theorem config_run (schedule : List I) (h : History I V A R) :
    (run (History.next round) h schedule).config = (system round).run h.config schedule := by
  induction schedule generalizing h with
  | nil => rfl
  | cons i rest ih => exact ih (h.next round i)

theorem steps_next (i j : I) : (h.next round j).steps i = h.steps i + if j = i then 1 else 0 := by
  simp only [History.next]
  by_cases own : j = i
  next =>
    subst own
    rw [Function.update_self, if_pos rfl]
  next => rw [Function.update_of_ne (Ne.symm own), if_neg own, Nat.add_zero]

theorem steps_run (round : Round V A R) (schedule : List I) (h : History I V A R) (i : I) :
    (run (History.next round) h schedule).steps i = h.steps i + schedule.count i := by
  induction schedule generalizing h with
  | nil => rfl
  | cons j rest ih =>
    simp only [run_cons, ih, steps_next, List.count_cons, beq_iff_eq]
    omega

theorem order_run_prefix (schedule : List I) (h : History I V A R) :
    h.order <+: (run (History.next round) h schedule).order := by
  induction schedule generalizing h with
  | nil => exact List.prefix_refl _
  | cons i rest ih =>
    refine List.IsPrefix.trans ?_ (ih (h.next round i))
    rw [History.next]
    split_ifs
    · exact List.prefix_append _ _
    · exact List.prefix_refl _

theorem linearized (round : Round V A R) (v : V) (argument : I → A) (schedule : List I) :
    Linearized round v argument ((system round).run (start v argument) schedule) (order round v argument schedule) := by
  have linear := (run_holds round v argument schedule).linear
  rwa [config_run] at linear

-- What has returned by some time keeps its place before all that returns later.
theorem order_prefix (round : Round V A R) (v : V) (argument : I → A) (first second : List I) :
    order round v argument first <+: order round v argument (first ++ second) := by
  rw [order, order, run_append]
  exact order_run_prefix second _

theorem returned_of_count [Fintype I] (round : Round V A R) (v : V) (argument : I → A) {schedule : List I} {i : I}
    (often : 2 * Fintype.card I ≤ schedule.count i) :
    (((system round).run (start v argument) schedule).thread i).Returned := by
  have holds := run_holds round v argument schedule
  have steps := steps_run round schedule (History.start v argument) i
  have paced := holds.paced i
  have linear := linearized round v argument schedule
  rw [config_run] at paced
  by_contra running
  have absent : i ∉ order round v argument schedule := fun member => running ((linear.returned i).mp member)
  have fewer : (order round v argument schedule).length < Fintype.card I := by
    have longer := (List.nodup_cons.mpr ⟨absent, linear.nodup⟩).length_le_card
    rwa [List.length_cons] at longer
  have scheduled : (History.start v argument : History I V A R).steps i = 0 := rfl
  rw [steps, scheduled, Nat.zero_add] at paced
  unfold Call.Paced at paced
  rw [order] at fewer
  split at paced
  next => omega
  next => omega
  next reply point =>
    exact running (congrArg (fun p : Point V R => p.reply.isSome) point)

end Runs

end CompareAndSwap
