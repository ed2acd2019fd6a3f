import BankingLedger.Service.SagaRuns

set_option autoImplicit false

namespace BankingLedger

open FiniteMap

namespace SagaOrchestrator

section StaysFailed

structure StaysFailed (o : SagaOrchestrator) (id : SagaId) : Prop where
  status : ∀ status, o.getStatus id = some status →
    status ≠ .pending ∧ status ≠ .inProgress ∧ status ≠ .completed
  notCompleted : ∀ saga ∈ o.completedSagas, saga.id ≠ id
  noAction : ∀ action, o.nextAction id ≠ some (.ok action)

def Down (o : SagaOrchestrator) (id : SagaId) : Prop :=
  ∃ saga, o.activeSagas.lookup id = some saga ∧ (saga.status = .compensating ∨ saga.status = .failed)

variable {o o' o₁ o₂ : SagaOrchestrator} {call : SagaCall} {reply : SagaReply} {id : SagaId}
  {calls before after : List SagaCall} {replies early late : List SagaReply}

theorem Down.staysFailed (down : Down o id) (placed : Placed calls o) : StaysFailed o id := by
  obtain ⟨saga, active, status⟩ := down
  constructor
  case status =>
    intro now found
    rw [getStatus, active, Option.map_some, Option.some.injEq] at found
    rw [← found]
    rcases status with stopped | stopped <;> simp [stopped]
  case notCompleted => exact placed.notCompleted active
  case noAction =>
    intro action answer
    have stopped : saga.status ≠ .pending ∧ saga.status ≠ .inProgress := by
      rcases status with stopped | stopped <;> simp [stopped]
    rw [nextAction, active] at answer
    simp only [if_pos stopped, Option.some.injEq, reduceCtorEq] at answer

theorem Down.step (down : Down o id) (effect : Effect o call reply o')
    (late : call ≠ .stepSucceeded id) (fresh : call.starts ≠ some id) : Down o' id := by
  obtain ⟨saga, active, status⟩ := down
  have elsewhere {key : SagaId} {other : SagaInstance} (different : id ≠ key) :
      ∃ saga, (o.activeSagas.insert key other).lookup id = some saga ∧
        (saga.status = .compensating ∨ saga.status = .failed) := by
    refine ⟨saga, ?_, status⟩
    rw [lookup_insert_eq, if_neg different]
    exact active
  have here {key : SagaId} {other : SagaInstance} (same : id = key)
      (stopped : other.status = .compensating ∨ other.status = .failed) :
      ∃ saga, (o.activeSagas.insert key other).lookup id = some saga ∧
        (saga.status = .compensating ∨ saga.status = .failed) :=
    ⟨other, by rw [lookup_insert_eq, if_pos same], stopped⟩
  cases effect with
  | registered | refused | asked | successMissing | failureMissing | completeMissing =>
    exact ⟨saga, active, status⟩
  | started => exact elsewhere fun same => fresh (congrArg some same.symm)
  | advanced => exact elsewhere fun same => late (congrArg _ same.symm)
  | @finished key =>
    have different : id ≠ key := fun same => late (congrArg _ same.symm)
    refine ⟨saga, ?_, status⟩
    rw [lookup_erase_eq, if_neg different]
    exact active
  | @compensating key =>
    by_cases same : id = key
    · exact here same (.inl rfl)
    · exact elsewhere same
  | @failed key =>
    by_cases same : id = key
    · exact here same (.inr rfl)
    · exact elsewhere same

theorem Down.of_run (down : Down o id) (late : .stepSucceeded id ∉ calls)
    (fresh : ∀ call ∈ calls, call.starts ≠ some id)
    (run : Runs.replies handle o calls = some (replies, o')) : Down o' id := by
  induction calls generalizing o replies with
  | nil =>
    cases run
    exact down
  | cons call rest ih =>
    obtain ⟨reply, others, middle, answer, later, rfl⟩ := Runs.replies_cons_eq_some.mp run
    rw [List.mem_cons, not_or] at late
    rw [List.forall_mem_cons] at fresh
    exact ih (down.step (handle_effect answer) (Ne.symm late.1) fresh.1) late.2 fresh.2 later

theorem Down.revived (down : Down o id) (placed : Placed calls o)
    (effect : Effect o (.stepSucceeded id) reply o') : ¬ StaysFailed o' id := by
  obtain ⟨saga, active, -⟩ := down
  intro stays
  cases effect with
  | advanced =>
    refine (stays.status .inProgress ?_).2.1 rfl
    rw [getStatus, Finmap.lookup_insert]
    rfl
  | @finished _ other _ found =>
    exact stays.notCompleted other.advance.complete (by simp) (placed.keyed id other found)
  | successMissing absent =>
    rw [absent] at active
    cases active

theorem Down.of_stepFailed {error : String} {actions : List SagaAction}
    (failed : o.stepFailed id error = some (.ok actions, o₁)) : Down o₁ id := by
  have effect := stepFailed_effect failed
  cases effect with
  | compensating => exact ⟨_, Finmap.lookup_insert _, .inl rfl⟩

theorem Down.fresh (down : Down o id) (placed : Placed calls o) (distinct : DistinctIds (calls ++ after)) :
    ∀ call ∈ after, call.starts ≠ some id := by
  obtain ⟨saga, active, -⟩ := down
  intro call member starts
  rw [DistinctIds, List.filterMap_append, List.nodup_append] at distinct
  exact distinct.2.2 id (placed.drawn id saga active) id (List.mem_filterMap.mpr ⟨call, member, starts⟩) rfl

/-- Once `step_failed` has returned its compensations, the saga stays failed in every state reached
exactly if no success report for it follows. -/
theorem failed_saga_stays_failed_iff (before after : List SagaCall) (id : SagaId) (error : String)
    (early late : List SagaReply) (o o₁ o₂ : SagaOrchestrator) (actions : List SagaAction)
    (distinct : DistinctIds (before ++ .stepFailed id error :: after))
    (run : Runs.replies handle .new before = some (early, o))
    (failed : o.stepFailed id error = some (.ok actions, o₁))
    (continues : Runs.replies handle o₁ after = some (late, o₂)) :
    (∀ part replies o', part <+: after → Runs.replies handle o₁ part = some (replies, o') →
      StaysFailed o' id) ↔ .stepSucceeded id ∉ after := by
  rw [List.append_cons] at distinct
  have shorter := DistinctIds.shorter _ _ distinct
  have placed : Placed (before ++ [.stepFailed id error]) o₁ :=
    (Placed.new.of_run (DistinctIds.shorter _ _ shorter) run).step shorter (stepFailed_effect failed)
  have down : Down o₁ id := Down.of_stepFailed failed
  have fresh := down.fresh placed distinct
  constructor
  · intro stays reported
    -- Up to the first success report the saga is down; that report is what brings it back.
    obtain ⟨part, rest, rfl, silent⟩ := List.eq_append_cons_of_mem reported
    obtain ⟨replies, _, middle, first, later, -⟩ := Runs.replies_append_eq_some.mp continues
    obtain ⟨reply, _, revived, answer, -, -⟩ := Runs.replies_cons_eq_some.mp later
    have stillDown : Down middle id :=
      down.of_run silent (fun call member => fresh call (by simp [member])) first
    rw [← List.append_assoc] at distinct
    have stillPlaced := placed.of_run (DistinctIds.shorter _ _ distinct) first
    apply stillDown.revived stillPlaced (handle_effect answer)
    apply stays (part ++ [.stepSucceeded id]) (replies ++ [reply]) revived ⟨rest, by simp⟩
    have last : Runs.replies handle middle [.stepSucceeded id] = some ([reply], revived) :=
      Runs.replies_cons_eq_some.mpr ⟨reply, [], revived, answer, rfl, rfl⟩
    exact Runs.replies_append_eq_some.mpr ⟨replies, [reply], middle, first, last, rfl⟩
  · rintro silent part replies o' ⟨rest, rfl⟩ reached
    rw [← List.append_assoc] at distinct
    have stillPlaced := placed.of_run (DistinctIds.shorter _ _ distinct) reached
    refine (down.of_run ?_ ?_ reached).staysFailed stillPlaced
    · exact fun member => silent (List.mem_append_left _ member)
    · exact fun call member => fresh call (List.mem_append_left _ member)

end StaysFailed

section HandedOut

variable {o o' : SagaOrchestrator} {call : SagaCall} {reply : SagaReply}
  {calls : List SagaCall} {replies : List SagaReply} (id : SagaId)

def reportsFailure : SagaCall → Bool
  | .stepFailed key _ => key = id
  | _ => false

def actionsOf : SagaReply → List SagaAction
  | .compensations (.ok actions) => actions
  | _ => []

-- The steps that a call has `step_failed` undo, the last one first.
def undone (o : SagaOrchestrator) (call : SagaCall) : List Nat :=
  if reportsFailure id call then
    (o.activeSagas.lookup id).elim [] fun saga => saga.completedSteps.reverse
  else []

def handedOut : SagaOrchestrator → List SagaCall → List (Nat × SagaAction)
  | _, [] => []
  | o, call :: rest =>
    (o.handle call).elim [] fun result =>
      (undone id o call).zip (actionsOf result.1) ++ handedOut result.2 rest

def returned (calls : List SagaCall) (replies : List SagaReply) : List SagaAction :=
  (calls.zip replies).flatMap fun pair => if reportsFailure id pair.1 then actionsOf pair.2 else []

def failureReports : SagaOrchestrator → List SagaCall → Nat
  | _, [] => 0
  | o, call :: rest =>
    (o.handle call).elim 0 fun result =>
      (if undone id o call = [] then 0 else 1) + failureReports result.2 rest

theorem length_compensationsOf {saga : SagaInstance} {definition : SagaDefinition}
    {actions : List SagaAction} (collected : compensationsOf saga definition = some actions) :
    actions.length = saga.completedSteps.reverse.length := by
  unfold compensationsOf at collected
  generalize saga.completedSteps.reverse = indices at collected ⊢
  induction indices generalizing actions with
  | nil =>
    cases collected
    rfl
  | cons idx rest ih =>
    simp only [List.mapM_cons, Option.bind_eq_bind, Option.bind_eq_some_iff] at collected
    obtain ⟨_, -, later, others, result⟩ := collected
    cases result
    rw [List.length_cons, List.length_cons, ih others]

theorem Effect.length_actions (effect : Effect o call reply o') (report : reportsFailure id call = true) :
    (actionsOf reply).length = (undone id o call).length := by
  cases effect with
  | @compensating key _ saga _ _ active _ collected =>
    have same : key = id := by simpa [reportsFailure] using report
    subst same
    rw [undone, if_pos report, active]
    exact length_compensationsOf collected
  | @failureMissing key _ absent =>
    have same : key = id := by simpa [reportsFailure] using report
    subst same
    rw [undone, if_pos report, absent]
    rfl
  | _ => cases report

theorem Ordered.undone (ordered : Ordered o) (call : SagaCall) :
    ∃ k, undone id o call = (List.range k).reverse := by
  unfold SagaOrchestrator.undone
  split
  · cases active : o.activeSagas.lookup id with
    | none => exact ⟨0, rfl⟩
    | some saga => exact ⟨saga.currentStep, congrArg List.reverse (ordered id saga active)⟩
  · exact ⟨0, rfl⟩

theorem map_snd_handedOut (run : Runs.replies handle o calls = some (replies, o')) :
    (handedOut id o calls).map Prod.snd = returned id calls replies := by
  induction calls generalizing o replies with
  | nil => rfl
  | cons call rest ih =>
    obtain ⟨reply, later, middle, answer, others, rfl⟩ := Runs.replies_cons_eq_some.mp run
    rw [handedOut, answer, returned, List.zip_cons_cons, List.flatMap_cons]
    change List.map Prod.snd (_ ++ _) = _
    rw [List.map_append, ih others]
    congr 1
    split
    · next report => exact List.map_snd_zip (Nat.le_of_eq ((handle_effect answer).length_actions id report))
    · next silent => rw [undone, if_neg silent, List.zip_nil_left, List.map_nil]

theorem map_fst_handedOut_cons {rest : List SagaCall} (answer : o.handle call = some (reply, o')) :
    (handedOut id o (call :: rest)).map Prod.fst = undone id o call ++ (handedOut id o' rest).map Prod.fst := by
  rw [handedOut, answer]
  change List.map Prod.fst (_ ++ _) = _
  rw [List.map_append]
  congr 1
  by_cases report : reportsFailure id call = true
  · exact List.map_fst_zip (Nat.le_of_eq ((handle_effect answer).length_actions id report).symm)
  · rw [undone, if_neg report, List.zip_nil_left, List.map_nil]

-- Each report that counts hands out step 0 once.
theorem count_zero_handedOut (ordered : Ordered o) (run : Runs.replies handle o calls = some (replies, o')) :
    ((handedOut id o calls).map Prod.fst).count 0 = failureReports id o calls := by
  induction calls generalizing o replies with
  | nil => rfl
  | cons call rest ih =>
    obtain ⟨reply, later, middle, answer, others, rfl⟩ := Runs.replies_cons_eq_some.mp run
    have effect := handle_effect answer
    rw [map_fst_handedOut_cons id answer, List.count_append, ih (ordered.step effect) others,
      failureReports, answer]
    obtain ⟨k, steps⟩ := ordered.undone id call
    rw [steps, List.count_reverse, List.count_range]
    change _ = (if _ then 0 else 1) + _
    congr 1
    cases k with
    | zero => rfl
    | succ k => simp

theorem handedOut_of_one_report (ordered : Ordered o)
    (run : Runs.replies handle o calls = some (replies, o')) (once : failureReports id o calls ≤ 1) :
    ∃ k, (handedOut id o calls).map Prod.fst = (List.range k).reverse := by
  induction calls generalizing o replies with
  | nil => exact ⟨0, rfl⟩
  | cons call rest ih =>
    obtain ⟨reply, later, middle, answer, others, rfl⟩ := Runs.replies_cons_eq_some.mp run
    have ordered' := ordered.step (handle_effect answer)
    rw [failureReports, answer] at once
    change (if _ then 0 else 1) + failureReports id middle rest ≤ 1 at once
    obtain ⟨k, steps⟩ := ih ordered' others (Nat.le_trans (Nat.le_add_left ..) once)
    rw [map_fst_handedOut_cons id answer]
    by_cases silent : undone id o call = []
    · exact ⟨k, by rw [silent, List.nil_append, steps]⟩
    · rw [if_neg silent] at once
      have nothing := count_zero_handedOut id ordered' others
      rw [steps, List.count_reverse, List.count_range, show failureReports id middle rest = 0 by omega] at nothing
      obtain rfl : k = 0 := by
        by_contra positive
        rw [if_pos (Nat.pos_of_ne_zero positive)] at nothing
        cases nothing
      rw [steps, List.range_zero, List.reverse_nil, List.append_nil]
      exact ordered.undone id call

/-- What the failure reports return is a compensation for each step that is undone, and no step is
undone twice exactly if at most one report reaches the saga while it is active with completed steps. -/
theorem compensations_handed_out_once_iff (id : SagaId) (calls : List SagaCall) (replies : List SagaReply)
    (o : SagaOrchestrator) (run : Runs.replies handle .new calls = some (replies, o)) :
    returned id calls replies = (handedOut id .new calls).map Prod.snd ∧
      (((handedOut id .new calls).map Prod.fst).Nodup ↔ failureReports id .new calls ≤ 1) := by
  have ordered : Ordered .new := by simp [Ordered, SagaOrchestrator.new]
  refine ⟨(map_snd_handedOut id run).symm, fun nodup => ?_, fun once => ?_⟩
  · rw [← count_zero_handedOut id ordered run]
    exact List.nodup_iff_count_le_one.mp nodup 0
  · obtain ⟨k, steps⟩ := handedOut_of_one_report id ordered run once
    rw [steps, List.nodup_reverse]
    exact List.nodup_range

end HandedOut

end SagaOrchestrator

open SagaSample

/-- A success report that arrives after the failure completes the saga that is being rolled back. -/
theorem late_success_completes_failed_saga :
    ∃ early o actions o₁ reply o₂,
      Runs.replies SagaOrchestrator.handle .new (failedRun.take 3) = some (early, o) ∧
      o.stepFailed sagaId "timeout" = some (.ok actions, o₁) ∧
      o₁.handle (.stepSucceeded sagaId) = some (reply, o₂) ∧
      (∃ saga ∈ o₂.completedSagas, saga.id = sagaId) ∧ ¬ o₂.StaysFailed sagaId := by
  refine ⟨_, _, _, _, _, _, rfl, rfl, rfl, ⟨_, List.mem_singleton_self _, rfl⟩, fun stays => ?_⟩
  exact stays.notCompleted _ (List.mem_singleton_self _) rfl

theorem failed_saga_stays_failed_iff_rolled_back :
    ∃ early o actions o₁ late o₂,
      Runs.replies SagaOrchestrator.handle .new (failedRun.take 3) = some (early, o) ∧
      o.stepFailed sagaId "timeout" = some (.ok actions, o₁) ∧
      Runs.replies SagaOrchestrator.handle o₁ [.compensationComplete sagaId, .nextAction sagaId] =
        some (late, o₂) ∧
      ∀ part replies o', part <+: [.compensationComplete sagaId, .nextAction sagaId] →
        Runs.replies SagaOrchestrator.handle o₁ part = some (replies, o') → o'.StaysFailed sagaId := by
  refine ⟨_, _, _, _, _, _, rfl, rfl, rfl, ?_⟩
  refine (SagaOrchestrator.failed_saga_stays_failed_iff (failedRun.take 3)
    [.compensationComplete sagaId, .nextAction sagaId] sagaId "timeout" _ _ _ _ _ _ ?_ rfl rfl rfl).mpr ?_
  · unfold SagaOrchestrator.DistinctIds
    decide
  · decide

/-- A repeated failure report has the caller refund the payer twice. -/
theorem repeated_failure_refunds_twice :
    ∃ replies o, Runs.replies SagaOrchestrator.handle .new (failedRun ++ [.stepFailed sagaId "error"]) =
        some (replies, o) ∧
      SagaOrchestrator.returned sagaId (failedRun ++ [.stepFailed sagaId "error"]) replies =
        [.credit payer 100, .credit payer 100] ∧
      ¬ ((SagaOrchestrator.handedOut sagaId .new (failedRun ++ [.stepFailed sagaId "error"])).map
        Prod.fst).Nodup := by
  refine ⟨_, _, rfl, rfl, ?_⟩
  decide

theorem compensations_handed_out_once_iff_single :
    ∃ replies o, Runs.replies SagaOrchestrator.handle .new failedRun = some (replies, o) ∧
      SagaOrchestrator.returned sagaId failedRun replies = [.credit payer 100] ∧
      ((SagaOrchestrator.handedOut sagaId .new failedRun).map Prod.fst).Nodup := by
  refine ⟨_, _, rfl, rfl, ?_⟩
  exact (SagaOrchestrator.compensations_handed_out_once_iff sagaId failedRun _ _ rfl).2.mpr (by decide)

end BankingLedger
