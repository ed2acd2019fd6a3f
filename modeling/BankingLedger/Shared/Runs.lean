import Mathlib.Data.List.Induction
import Mathlib.Logic.Relation
import Mathlib.Tactic.Common

set_option autoImplicit false

namespace Runs

variable {S E : Type} (step : S → E → S)

def run (s : S) (events : List E) : S := events.foldl step s

@[simp] theorem run_nil (s : S) : run step s [] = s := rfl

@[simp] theorem run_cons (s : S) (e : E) (rest : List E) :
    run step s (e :: rest) = run step (step s e) rest := rfl

theorem run_append (s : S) (first second : List E) :
    run step s (first ++ second) = run step (run step s first) second := by
  simp [run, List.foldl_append]

def Meets (condition : S → E → Prop) : S → List E → Prop
  | _, [] => True
  | s, e :: rest => condition s e ∧ Meets condition (step s e) rest

instance decidableMeets (condition : S → E → Prop) [∀ s e, Decidable (condition s e)] :
    ∀ s events, Decidable (Meets step condition s events)
  | _, [] => isTrue trivial
  | s, e :: rest =>
    have := decidableMeets condition (step s e) rest
    inferInstanceAs (Decidable (condition s e ∧ Meets step condition (step s e) rest))

variable {step} {condition : S → E → Prop} {Inv : S → Prop}

theorem meets_of_forall_mem (s : S) (events : List E) (always : ∀ s, ∀ e ∈ events, condition s e) :
    Meets step condition s events := by
  induction events generalizing s with
  | nil => trivial
  | cons e rest ih =>
    have later : ∀ s, ∀ e ∈ rest, condition s e := fun s e member =>
      always s e (List.mem_cons_of_mem _ member)
    exact ⟨always s e List.mem_cons_self, ih (step s e) later⟩

theorem meets_of_forall (always : ∀ s e, condition s e) (s : S) (events : List E) :
    Meets step condition s events :=
  meets_of_forall_mem s events fun s e _ => always s e

theorem run_keeps (keep : ∀ s e, Inv s → condition s e → Inv (step s e)) (s : S) (events : List E)
    (meets : Meets step condition s events) (start : Inv s) : Inv (run step s events) := by
  induction events generalizing s with
  | nil => exact start
  | cons e rest ih => exact ih (step s e) meets.2 (keep s e start meets.1)

theorem run_invariant (keep : ∀ s e, Inv s → Inv (step s e)) (s : S) (events : List E)
    (start : Inv s) : Inv (run step s events) :=
  run_keeps (fun s e inv _ => keep s e inv) s events (meets_of_forall (fun _ _ => trivial) s events)
    start

theorem meets_of_invariant (implied : ∀ s e, Inv s → condition s e)
    (keep : ∀ s e, Inv s → Inv (step s e)) (s : S) (events : List E) (start : Inv s) :
    Meets step condition s events := by
  induction events generalizing s with
  | nil => trivial
  | cons e rest ih => exact ⟨implied s e start, ih (step s e) (keep s e start)⟩

theorem meets_append {s : S} {first second : List E} :
    Meets step condition s (first ++ second) ↔
      Meets step condition s first ∧ Meets step condition (run step s first) second := by
  induction first generalizing s with
  | nil => simp [Meets]
  | cons e rest ih => simp only [List.cons_append, Meets, ih, run_cons, and_assoc]

theorem Meets.imp {condition' : S → E → Prop} {s : S} {events : List E}
    (meets : Meets step condition s events) (implied : ∀ s e, condition s e → condition' s e) :
    Meets step condition' s events := by
  induction events generalizing s with
  | nil => trivial
  | cons e rest ih => exact ⟨implied s e meets.1, ih meets.2⟩

theorem Meets.and {condition' : S → E → Prop} {s : S} {events : List E}
    (meets : Meets step condition s events) (meets' : Meets step condition' s events) :
    Meets step (fun s e => condition s e ∧ condition' s e) s events := by
  induction events generalizing s with
  | nil => trivial
  | cons e rest ih => exact ⟨⟨meets.1, meets'.1⟩, ih meets.2 meets'.2⟩

theorem meets_congr {condition' : S → E → Prop} (agree : ∀ s e, condition s e ↔ condition' s e)
    {s : S} {events : List E} :
    Meets step condition s events ↔ Meets step condition' s events :=
  ⟨fun meets => meets.imp fun s e => (agree s e).mp, fun meets => meets.imp fun s e => (agree s e).mpr⟩

-- Two conditions that agree on related states agree on whole runs. The states need to stay related
-- only along events that meet the condition.
theorem meets_iff_of_related {T : Type} {step' : T → E → T} {condition' : T → E → Prop}
    {Related : S → T → Prop} (agree : ∀ s t e, Related s t → (condition s e ↔ condition' t e))
    (keep : ∀ s t e, Related s t → condition' t e → Related (step s e) (step' t e))
    {s : S} {t : T} (start : Related s t) (events : List E) :
    Meets step condition s events ↔ Meets step' condition' t events := by
  induction events generalizing s t with
  | nil => rfl
  | cons e rest ih =>
    constructor
    · rintro ⟨met, later⟩
      have met' := (agree s t e start).mp met
      exact ⟨met', (ih (keep s t e start met')).mp later⟩
    · rintro ⟨met', later⟩
      exact ⟨(agree s t e start).mpr met', (ih (keep s t e start met')).mpr later⟩

theorem run_iff_meets_of_invariant {P : S → Prop}
    (exactly : ∀ s e, Inv s → (P (step s e) ↔ P s ∧ condition s e))
    (keep : ∀ s e, Inv s → Inv (step s e)) {s : S} (start : Inv s) (events : List E) :
    P (run step s events) ↔ P s ∧ Meets step condition s events := by
  induction events generalizing s with
  | nil => simp [Meets]
  | cons e rest ih => rw [run_cons, ih (keep s e start), exactly s e start, Meets, and_assoc]

theorem run_iff_meets {P : S → Prop} (exactly : ∀ s e, P (step s e) ↔ P s ∧ condition s e) {s : S}
    {events : List E} : P (run step s events) ↔ P s ∧ Meets step condition s events :=
  run_iff_meets_of_invariant (fun s e (_ : True) => exactly s e) (fun _ _ _ => trivial) trivial events

def Throughout (step : S → E → S) (P : S → Prop) (s : S) (events : List E) : Prop :=
  ∀ first second, events = first ++ second → P (run step s first)

theorem throughout_iff {P : S → Prop} {s : S} {events : List E} :
    Throughout step P s events ↔ P s ∧ Meets step (fun s e => P (step s e)) s events := by
  induction events generalizing s with
  | nil => simp [Throughout, Meets]
  | cons e rest ih =>
    simp only [Meets, ← ih]
    constructor
    · intro all
      refine ⟨all [] (e :: rest) rfl, fun first second split => ?_⟩
      exact all (e :: first) second (by rw [split, List.cons_append])
    · rintro ⟨start, later⟩ first second split
      cases first with
      | nil => exact start
      | cons e' first =>
        rw [List.cons_append, List.cons.injEq] at split
        obtain ⟨rfl, tail⟩ := split
        exact later first second tail

theorem throughout_cons {P : S → Prop} {s : S} {e : E} {rest : List E} :
    Throughout step P s (e :: rest) ↔ P s ∧ Throughout step P (step s e) rest := by
  rw [throughout_iff, throughout_iff]
  rfl

theorem throughout_concat {P : S → Prop} {s : S} {events : List E} {e : E} :
    Throughout step P s (events ++ [e]) ↔
      Throughout step P s events ∧ P (run step s (events ++ [e])) := by
  rw [throughout_iff, throughout_iff, meets_append, run_append, and_assoc]
  simp [Meets]

theorem throughout_of_meets {P : S → Prop} (keep : ∀ s e, P s → condition s e → P (step s e)) {s : S}
    {events : List E} (meets : Meets step condition s events) (start : P s) :
    Throughout step P s events := by
  rintro first second rfl
  exact run_keeps keep s first (meets_append.mp meets).1 start

theorem throughout_iff_meets_of_mem {P : S → Prop} {s : S} {events : List E}
    (exactly : ∀ s, ∀ e ∈ events, P s → (P (step s e) ↔ condition s e)) (start : P s) :
    Throughout step P s events ↔ Meets step condition s events := by
  induction events generalizing s with
  | nil => simp [throughout_iff, Meets, start]
  | cons e rest ih =>
    have later : ∀ s, ∀ e ∈ rest, P s → (P (step s e) ↔ condition s e) :=
      fun s e member => exactly s e (List.mem_cons_of_mem _ member)
    have first := exactly s e List.mem_cons_self start
    rw [throughout_cons, and_iff_right start]
    constructor
    · intro all
      have next : P (step s e) := (throughout_iff.mp all).1
      exact ⟨first.mp next, (ih later next).mp all⟩
    · rintro ⟨met, rest⟩
      exact (ih later (first.mpr met)).mpr rest

theorem throughout_iff_meets {P : S → Prop} (exactly : ∀ s e, P s → (P (step s e) ↔ condition s e))
    {s : S} (start : P s) (events : List E) :
    Throughout step P s events ↔ Meets step condition s events :=
  throughout_iff_meets_of_mem (fun s e _ => exactly s e) start

-- The invariant needs to survive only as long as the condition is met.
theorem throughout_iff_meets_of_allowed {P : S → Prop} {allowed : S → E → Prop}
    (exactly : ∀ s e, Inv s → allowed s e → P s → (P (step s e) ↔ condition s e))
    (keep : ∀ s e, Inv s → allowed s e → P s → condition s e → Inv (step s e)) {s : S} {events : List E}
    (possible : Meets step allowed s events) (inv : Inv s) (start : P s) :
    Throughout step P s events ↔ Meets step condition s events := by
  induction events generalizing s with
  | nil => simp [throughout_iff, Meets, start]
  | cons e rest ih =>
    obtain ⟨now, possible⟩ := possible
    have first := exactly s e inv now start
    rw [throughout_cons, and_iff_right start]
    constructor
    · intro all
      have next : P (step s e) := (throughout_iff.mp all).1
      have met := first.mp next
      exact ⟨met, (ih possible (keep s e inv now start met) next).mp all⟩
    · rintro ⟨met, later⟩
      exact (ih possible (keep s e inv now start met) (first.mpr met)).mpr later

theorem throughout_iff_meets_of_invariant {P : S → Prop}
    (exactly : ∀ s e, Inv s → P s → (P (step s e) ↔ condition s e))
    (keep : ∀ s e, Inv s → P s → condition s e → Inv (step s e)) {s : S} (inv : Inv s) (start : P s)
    (events : List E) : Throughout step P s events ↔ Meets step condition s events :=
  throughout_iff_meets_of_allowed (fun s e inv (_ : True) => exactly s e inv)
    (fun s e inv _ => keep s e inv) (meets_of_forall (fun _ _ => trivial) s events) inv start

/-- Whatever of `P` holds in some state of the run holds from there on. -/
def Lasting {A : Type} (step : S → E → S) (P : A → S → Prop) (s : S) (events : List E) : Prop :=
  ∀ first middle last, events = first ++ middle ++ last →
    ∀ a, P a (run step s first) → P a (run step s (first ++ middle))

theorem lasting_iff_meets {A : Type} {P : A → S → Prop} {s : S} {events : List E} :
    Lasting step P s events ↔ Meets step (fun s e => ∀ a, P a s → P a (step s e)) s events := by
  constructor
  · intro lasting
    induction events generalizing s with
    | nil => trivial
    | cons e rest ih =>
      refine ⟨fun a holds => lasting [] [e] rest rfl a holds, ih fun first middle last split => ?_⟩
      exact lasting (e :: first) middle last (by rw [split]; rfl)
  · rintro meets first middle last rfl a holds
    have during := (meets_append.mp (meets_append.mp meets).1).2
    rw [run_append]
    exact run_keeps (fun s e holds keeps => keeps a holds) _ middle during holds

def tally (step : S → E → S) (measure : S → E → Int) : S → List E → Int
  | _, [] => 0
  | s, e :: rest => measure s e + tally step measure (step s e) rest

theorem tally_sub {added removed : S → E → Int} (s : S) (events : List E) :
    tally step (fun s e => added s e - removed s e) s events =
      tally step added s events - tally step removed s events := by
  induction events generalizing s with
  | nil => rfl
  | cons e rest ih =>
    simp only [tally, ih]
    omega

theorem run_tally_of_invariant {measure : S → E → Int} {gap : S → Int}
    (each : ∀ s e, Inv s → gap (step s e) = gap s + measure s e)
    (keep : ∀ s e, Inv s → Inv (step s e)) {s : S} (start : Inv s) (events : List E) :
    gap (run step s events) = gap s + tally step measure s events := by
  induction events generalizing s with
  | nil => simp [tally]
  | cons e rest ih => rw [run_cons, ih (keep s e start), each s e start, tally, Int.add_assoc]

theorem run_tally {measure : S → E → Int} {gap : S → Int}
    (each : ∀ s e, gap (step s e) = gap s + measure s e) (s : S) (events : List E) :
    gap (run step s events) = gap s + tally step measure s events :=
  run_tally_of_invariant (fun s e (_ : True) => each s e) (fun _ _ _ => trivial) trivial events

-- What holds at the end and cannot come about in a step has held all along.
theorem meets_of_final (Good : S → Prop) (back : ∀ s e, Good (step s e) → Good s) {s : S} {events : List E}
    (final : Good (run step s events)) : Good s ∧ Meets step (fun s _ => Good s) s events := by
  induction events generalizing s with
  | nil => exact ⟨final, trivial⟩
  | cons e rest ih =>
    obtain ⟨next, later⟩ := ih final
    exact ⟨back s e next, back s e next, later⟩

theorem run_simulates {A : Type} {Abstract : A → A → Prop} {Tracks : S → A → Prop}
    (each : ∀ s e a, Tracks s a → condition s e → ∃ a', Relation.ReflTransGen Abstract a a' ∧ Tracks (step s e) a')
    {s : S} {a : A} (tracks : Tracks s a) {events : List E} (meets : Meets step condition s events) :
    ∃ a', Relation.ReflTransGen Abstract a a' ∧ Tracks (run step s events) a' := by
  induction events generalizing s a with
  | nil => exact ⟨a, .refl, tracks⟩
  | cons e rest ih =>
    obtain ⟨middle, now, next⟩ := each s e a tracks meets.1
    obtain ⟨last, later, final⟩ := ih next meets.2
    exact ⟨last, now.trans later, final⟩

section Outputs

variable {R : Type}

def outputs (answer : S → E → R × S) : S → List E → List R
  | _, [] => []
  | s, e :: rest => (answer s e).1 :: outputs answer (answer s e).2 rest

theorem outputs_concat (answer : S → E → R × S) (s : S) (events : List E) (e : E) :
    outputs answer s (events ++ [e]) =
      outputs answer s events ++ [(answer (run (fun s e => (answer s e).2) s events) e).1] := by
  induction events generalizing s with
  | nil => rfl
  | cons e' rest ih => rw [List.cons_append, outputs, ih, outputs, List.cons_append, run_cons]

theorem exists_output_of_mem (answer : S → E → R × S) (s : S) {events : List E} {e : E} (member : e ∈ events) :
    ∃ s', (answer s' e).1 ∈ outputs answer s events := by
  induction events generalizing s with
  | nil => cases member
  | cons e' rest ih =>
    rw [outputs]
    rcases List.mem_cons.mp member with rfl | later
    · exact ⟨s, List.mem_cons_self⟩
    · obtain ⟨s', given⟩ := ih (answer s e').2 later
      exact ⟨s', List.mem_cons_of_mem _ given⟩

theorem outputs_eq_of_related {T Q : Type} {answer : S → E → R × S} {answer' : T → E → Q × T}
    {view : Q → R} {Related : S → T → Prop} {condition : T → E → Prop}
    (each : ∀ s t e, Related s t → condition t e →
      (answer s e).1 = view (answer' t e).1 ∧ Related (answer s e).2 (answer' t e).2)
    {s : S} {t : T} (start : Related s t) {events : List E}
    (meets : Meets (fun t e => (answer' t e).2) condition t events) :
    outputs answer s events = (outputs answer' t events).map view ∧
      Related (run (fun s e => (answer s e).2) s events) (run (fun t e => (answer' t e).2) t events) := by
  induction events generalizing s t with
  | nil => exact ⟨rfl, start⟩
  | cons e rest ih =>
    obtain ⟨same, next⟩ := each s t e start meets.1
    obtain ⟨later, final⟩ := ih next meets.2
    exact ⟨by rw [outputs, outputs, List.map_cons, same, later], final⟩

end Outputs

section Replies

variable {R : Type} (answer : S → E → Option (R × S))

def replies : S → List E → Option (List R × S)
  | s, [] => some ([], s)
  | s, e :: rest =>
    (answer s e).bind fun first => (replies first.2 rest).map fun later => (first.1 :: later.1, later.2)

variable {answer}

theorem replies_cons_eq_some {s s'' : S} {e : E} {rest : List E} {all : List R} :
    replies answer s (e :: rest) = some (all, s'') ↔
      ∃ r later s', answer s e = some (r, s') ∧ replies answer s' rest = some (later, s'') ∧
        all = r :: later := by
  simp only [replies, Option.bind_eq_some_iff, Option.map_eq_some_iff, Prod.exists, Prod.mk.injEq]
  constructor
  · rintro ⟨r, s', first, later, _, others, rfl, rfl⟩
    exact ⟨r, later, s', first, others, rfl⟩
  · rintro ⟨r, later, s', first, others, rfl⟩
    exact ⟨r, s', first, later, _, others, rfl, rfl⟩

theorem replies_append_eq_some {s s'' : S} {first second : List E} {all : List R} :
    replies answer s (first ++ second) = some (all, s'') ↔
      ∃ early late s', replies answer s first = some (early, s') ∧
        replies answer s' second = some (late, s'') ∧ all = early ++ late := by
  induction first generalizing s all with
  | nil => simp [replies]
  | cons e rest ih =>
    simp only [List.cons_append, replies_cons_eq_some, ih]
    constructor
    · rintro ⟨r, _, s', now, ⟨early, late, middle, before, after, rfl⟩, rfl⟩
      exact ⟨r :: early, late, middle, ⟨r, early, s', now, before, rfl⟩, after, rfl⟩
    · rintro ⟨_, late, middle, ⟨r, early, s', now, before, rfl⟩, after, rfl⟩
      exact ⟨r, early ++ late, s', now, ⟨early, late, middle, before, after, rfl⟩, rfl⟩

theorem replies_total {valid : List E → Prop} {Inv : List E → List R → S → Prop} {s : S}
    (shorter : ∀ history e, valid (history ++ [e]) → valid history) (start : Inv [] [] s)
    (keep : ∀ history rs s e, Inv history rs s → valid (history ++ [e]) →
      ∃ r s', answer s e = some (r, s') ∧ Inv (history ++ [e]) (rs ++ [r]) s')
    (events : List E) (allowed : valid events) :
    ∃ rs s', replies answer s events = some (rs, s') ∧ Inv events rs s' := by
  induction events using List.reverseRecOn with
  | nil => exact ⟨[], s, rfl, start⟩
  | append_singleton history e ih =>
    obtain ⟨rs, middle, before, inv⟩ := ih (shorter history e allowed)
    obtain ⟨r, s', answered, kept⟩ := keep history rs middle e inv allowed
    refine ⟨rs ++ [r], s', replies_append_eq_some.mpr ⟨rs, [r], middle, before, ?_, rfl⟩, kept⟩
    exact replies_cons_eq_some.mpr ⟨r, [], s', answered, rfl, rfl⟩

theorem replies_keeps {valid : List E → Prop} {Inv : List E → S → Prop}
    (shorter : ∀ first second, valid (first ++ second) → valid first)
    (keep : ∀ history s e r s', Inv history s → valid (history ++ [e]) → answer s e = some (r, s') →
      Inv (history ++ [e]) s')
    {history events : List E} {s s' : S} {rs : List R} (start : Inv history s)
    (allowed : valid (history ++ events)) (run : replies answer s events = some (rs, s')) :
    Inv (history ++ events) s' := by
  induction events generalizing history s rs with
  | nil =>
    cases run
    rwa [List.append_nil]
  | cons e rest ih =>
    obtain ⟨r, later, middle, first, others, rfl⟩ := replies_cons_eq_some.mp run
    rw [List.append_cons] at allowed ⊢
    exact ih (keep history s e r middle start (shorter _ _ allowed) first) allowed others

end Replies

end Runs
