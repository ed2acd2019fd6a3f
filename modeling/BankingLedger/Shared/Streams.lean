import BankingLedger.Shared.Runs
import Mathlib.Algebra.BigOperators.Group.Finset.Basic
import Mathlib.Algebra.BigOperators.Group.Finset.Piecewise

set_option autoImplicit false

namespace Streams

open Runs

variable {S E K L : Type} [DecidableEq K]

def stream (key : E → Option K) (k : K) (events : List E) : List E := events.filter fun e => key e = some k

def SameStreams (key : E → Option K) (events events' : List E) : Prop :=
  ∀ k, stream key k events = stream key k events'

section Stream

variable {key : E → Option K} {k : K} {e : E} {events events' : List E}

theorem stream_cons_own (own : key e = some k) : stream key k (e :: events) = e :: stream key k events :=
  List.filter_cons_of_pos (decide_eq_true own)

theorem stream_cons_other (other : key e ≠ some k) : stream key k (e :: events) = stream key k events :=
  List.filter_cons_of_neg (by simpa using other)

theorem mem_stream : e ∈ stream key k events ↔ e ∈ events ∧ key e = some k := by
  simp [stream]

-- Streams that are merged into one are kept in order by a merge of that one.
theorem SameStreams.finer {K' : Type} [DecidableEq K'] {route : K → K'}
    (same : SameStreams (fun e => (key e).map route) events events') : SameStreams key events events' := by
  have twice (k : K) (events : List E) :
      stream key k (stream (fun e => (key e).map route) (route k) events) = stream key k events := by
    simp only [stream, List.filter_filter]
    refine List.filter_congr fun e _ => ?_
    by_cases own : key e = some k <;> simp [own]
  intro k
  rw [← twice k events, same (route k), twice k events']

theorem sameStreams_of_keys (keys : List K) (listed : ∀ e ∈ events ++ events', ∀ k ∈ key e, k ∈ keys)
    (each : ∀ k ∈ keys, stream key k events = stream key k events') : SameStreams key events events' := by
  intro k
  by_cases member : k ∈ keys
  next => exact each k member
  next =>
    have nothing {part : List E} (inside : part ⊆ events ++ events') : stream key k part = [] := by
      refine List.filter_eq_nil_iff.mpr fun e found keyed => member ?_
      exact listed e (inside found) k (of_decide_eq_true keyed)
    rw [nothing (List.subset_append_left _ _), nothing (List.subset_append_right _ _)]

end Stream

variable {step : S → E → S} {condition : S → E → Prop} {key : E → Option K} {part : S → K → L} {move : L → E → L}

structure Local (step : S → E → S) (condition : S → E → Prop) (key : E → Option K) (part : S → K → L)
    (move : L → E → L) : Prop where
  own : ∀ s e k, condition s e → key e = some k → part (step s e) k = move (part s k) e
  other : ∀ s e k, condition s e → key e ≠ some k → part (step s e) k = part s k

theorem Local.run (loc : Local step condition key part move) {s : S} {events : List E}
    (meets : Meets step condition s events) (k : K) :
    part (run step s events) k = Runs.run move (part s k) (stream key k events) := by
  induction events generalizing s with
  | nil => rfl
  | cons e rest ih =>
    rw [run_cons, ih meets.2]
    by_cases own : key e = some k
    next => rw [stream_cons_own own, run_cons, loc.own s e k meets.1 own]
    next => rw [stream_cons_other own, loc.other s e k meets.1 own]

theorem Local.run_eq (loc : Local step condition key part move) {s : S} {events events' : List E}
    (meets : Meets step condition s events) (meets' : Meets step condition s events')
    (same : SameStreams key events events') (k : K) :
    part (Runs.run step s events) k = part (Runs.run step s events') k := by
  rw [loc.run meets k, loc.run meets' k, same k]

def weighed (key : E → Option K) (part : S → K → L) (weight : L → E → Int) (s : S) (e : E) : Int :=
  match key e with
  | none => 0
  | some k => weight (part s k) e

variable {weight : L → E → Int}

theorem Local.tally_eq_sum (loc : Local step condition key part move) {s : S} {events : List E}
    (meets : Meets step condition s events) {keys : Finset K} (all : ∀ e ∈ events, ∀ k, key e = some k → k ∈ keys) :
    tally step (weighed key part weight) s events =
      ∑ k ∈ keys, tally move weight (part s k) (stream key k events) := by
  induction events generalizing s with
  | nil => exact (Finset.sum_eq_zero fun k _ => rfl).symm
  | cons e rest ih =>
    rw [tally, ih meets.2 fun e' member => all e' (List.mem_cons_of_mem e member)]
    cases keyed : key e with
    | none =>
      have nothing (k : K) : key e ≠ some k := by
        rw [keyed]
        exact Option.some_ne_none k ∘ Eq.symm
      rw [weighed, keyed, zero_add]
      refine Finset.sum_congr rfl fun k _ => ?_
      rw [stream_cons_other (nothing k), loc.other s e k meets.1 (nothing k)]
    | some j =>
      have each (k : K) : tally move weight (part s k) (stream key k (e :: rest)) =
          (if k = j then weight (part s j) e else 0) +
            tally move weight (part (step s e) k) (stream key k rest) := by
        by_cases own : k = j
        next =>
          subst own
          rw [stream_cons_own keyed, if_pos rfl, tally, loc.own s e k meets.1 keyed]
        next =>
          have other : key e ≠ some k := by
            rw [keyed]
            exact fun same => own (Option.some.inj same).symm
          rw [stream_cons_other other, if_neg own, loc.other s e k meets.1 other, zero_add]
      rw [Finset.sum_congr rfl fun k _ => each k, Finset.sum_add_distrib, Finset.sum_ite_eq',
        if_pos (all e List.mem_cons_self j keyed), weighed, keyed]

theorem Local.tally_eq (loc : Local step condition key part move) {s : S} {events events' : List E}
    (meets : Meets step condition s events) (meets' : Meets step condition s events')
    (same : SameStreams key events events') :
    tally step (weighed key part weight) s events = tally step (weighed key part weight) s events' := by
  have listed {events'' : List E} {e : E} {k : K} (member : e ∈ events'') (keyed : key e = some k) :
      k ∈ (events''.filterMap key).toFinset :=
    List.mem_toFinset.mpr (List.mem_filterMap.mpr ⟨e, member, keyed⟩)
  have all' : ∀ e ∈ events', ∀ k, key e = some k → k ∈ (events.filterMap key).toFinset := by
    intro e member k keyed
    have streamed : e ∈ stream key k events := by
      rw [same k]
      exact mem_stream.mpr ⟨member, keyed⟩
    exact listed (mem_stream.mp streamed).1 keyed
  rw [loc.tally_eq_sum meets fun e member k => listed member, loc.tally_eq_sum meets' all']
  exact Finset.sum_congr rfl fun k _ => by rw [same k]

end Streams
