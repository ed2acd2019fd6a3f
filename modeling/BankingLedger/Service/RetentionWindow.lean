import BankingLedger.Service.Idempotency
import BankingLedger.Shared.OldestFirst
import BankingLedger.Shared.Runs

set_option autoImplicit false

namespace BankingLedger

open FiniteMap

/-- A call that puts an id on record, with the time it reads and the order in which an eviction would
meet the entries. -/
inductive MarkCall where
  | checkAndMark (now : Timestamp) (transactionId : String)
  | markProcessed (now : Timestamp) (iteration : Map String Timestamp → List (String × Timestamp))
      (transactionId : String)

namespace MarkCall

def now : MarkCall → Timestamp
  | .checkAndMark now _ | .markProcessed now _ _ => now

def transactionId : MarkCall → String
  | .checkAndMark _ transactionId | .markProcessed _ _ transactionId => transactionId

-- An iteration meets every entry once.
def Iterates : MarkCall → Prop
  | .checkAndMark .. => True
  | .markProcessed _ iteration _ => ∀ m, Lists (iteration m) m

end MarkCall

inductive TrackingCall where
  | mark (call : MarkCall)
  | evictOlderThan (earliest now : Timestamp) (iteration : Map String Timestamp → List (String × Timestamp))
      (ttlSeconds : Int64)

namespace IdempotencyService

def checkAndMark (now : Timestamp) (transactionId : String) (svc : IdempotencyService) :
    Bool × IdempotencyService :=
  ((svc.processed.lookup transactionId).isSome,
    { svc with processed := svc.processed.insert transactionId now })

-- A duration has at most `i64::MAX` milliseconds and no instant is before `earliest`. A time to live
-- beyond these panics, before the map is touched.
def evictOlderThan (earliest now : Timestamp)
    (iteration : Map String Timestamp → List (String × Timestamp)) (ttlSeconds : Int64)
    (svc : IdempotencyService) : Option (Nat × IdempotencyService) :=
  let ttl := max ttlSeconds.toInt 1
  let cutoff := now.nanos - ttl * 1000000000
  if 9223372036854775 < ttl ∨ cutoff < earliest.nanos then none
  else
    let old := (iteration svc.processed).filter fun entry => decide (entry.2.nanos ≤ cutoff)
    let svc' := { svc with processed := old.foldl (fun m entry => m.erase entry.1) svc.processed }
    some (svc.len - svc'.len, svc')

def mark (svc : IdempotencyService) : MarkCall → IdempotencyService
  | .checkAndMark now transactionId => (svc.checkAndMark now transactionId).2
  | .markProcessed now iteration transactionId => svc.markProcessed now iteration transactionId

def track (svc : IdempotencyService) : TrackingCall → IdempotencyService
  | .mark call => svc.mark call
  | .evictOlderThan earliest now iteration ttlSeconds =>
    match svc.evictOlderThan earliest now iteration ttlSeconds with
    | some (_, svc') => svc'
    | none => svc

def batchSize (maxEntries : Nat) : Nat := max (maxEntries / 10) 1

section Evictions

variable {svc : IdempotencyService} {entries : List (String × Timestamp)}

theorem isProcessed_iff {transactionId : String} :
    svc.isProcessed transactionId ↔ transactionId ∈ svc.processed.keys := by
  rw [mem_processed_keys]

-- The order in which an eviction goes through the entries.
def byAge (entries : List (String × Timestamp)) : List (String × Timestamp) :=
  entries.mergeSort fun a b => a.2.nanos ≤ b.2.nanos

theorem byAge_sorted (entries : List (String × Timestamp)) :
    (byAge entries).Pairwise fun a b => a.2.nanos ≤ b.2.nanos := by
  have sorted : (byAge entries).Pairwise fun a b => decide (a.2.nanos ≤ b.2.nanos) = true :=
    List.pairwise_mergeSort (by simpa using fun a b c => Int.le_trans)
      (by simpa using fun a b => Int.le_total _ _) entries
  simpa only [decide_eq_true_eq] using sorted

theorem byAge_lists {m : Map String Timestamp} (lists : Lists entries m) : Lists (byAge entries) m where
  nodup := by
    have perm := (List.mergeSort_perm entries fun a b => decide (a.2.nanos ≤ b.2.nanos)).map Prod.fst
    exact perm.nodup_iff.mpr lists.nodup
  mem_iff key value := by rw [byAge, List.mem_mergeSort, lists.mem_iff]

theorem evictOldestBatch_lookup (transactionId : String) :
    (svc.evictOldestBatch entries).processed.lookup transactionId =
      if transactionId ∈ ((byAge entries).take (batchSize svc.maxEntries)).map Prod.fst then none
      else svc.processed.lookup transactionId :=
  lookup_eraseEach _ _ _

theorem evictOldestBatch_len (lists : Lists entries svc.processed) :
    (svc.evictOldestBatch entries).len = svc.len - batchSize svc.maxEntries := by
  have sorted := byAge_lists lists
  have keys : (svc.evictOldestBatch entries).processed.keys = svc.processed.keys \
      (((byAge entries).take (batchSize svc.maxEntries)).map Prod.fst).toFinset := keys_eraseEach _ _
  have tracked : (((byAge entries).take (batchSize svc.maxEntries)).map Prod.fst).toFinset ⊆
      svc.processed.keys := by
    intro key member
    obtain ⟨⟨_, time⟩, taken, rfl⟩ := List.mem_map.mp (List.mem_toFinset.mp member)
    exact mem_keys_of_found ((sorted.mem_iff _ time).mp (List.mem_of_mem_take taken))
  have distinct : (((byAge entries).take (batchSize svc.maxEntries)).map Prod.fst).Nodup :=
    sorted.nodup.sublist ((List.take_sublist _ _).map Prod.fst)
  rw [len, keys, Finset.card_sdiff_of_subset tracked, List.toFinset_card_of_nodup distinct, List.length_map,
    List.length_take, sorted.length_eq, len]
  omega

end Evictions

section Marks

variable {svc : IdempotencyService} {call : MarkCall} {id : String} {time : Timestamp} {newer : Finset String}

@[simp] theorem mark_maxEntries (svc : IdempotencyService) (call : MarkCall) :
    (svc.mark call).maxEntries = svc.maxEntries := by
  cases call with
  | checkAndMark now transactionId => rfl
  | markProcessed now iteration transactionId =>
    rw [mark, markProcessed]
    split <;> rfl

-- A mark is an insertion, after an eviction if the record is full.
theorem mark_cases (svc : IdempotencyService) (call : MarkCall) (iterates : call.Iterates) :
    (svc.mark call).processed = svc.processed.insert call.transactionId call.now ∧
        (svc.len < svc.maxEntries ∨ ∃ now transactionId, call = .checkAndMark now transactionId) ∨
    ∃ entries, svc.maxEntries ≤ svc.len ∧ Lists entries svc.processed ∧ (svc.mark call).processed =
        (svc.evictOldestBatch entries).processed.insert call.transactionId call.now := by
  cases call with
  | checkAndMark now transactionId => exact .inl ⟨rfl, .inr ⟨now, transactionId, rfl⟩⟩
  | markProcessed now iteration transactionId =>
    by_cases full : svc.maxEntries ≤ svc.len
    next =>
      refine .inr ⟨iteration svc.processed, full, iterates svc.processed, ?_⟩
      rw [mark, markProcessed, if_pos full]
      rfl
    next =>
      refine .inl ⟨?_, .inl (Nat.lt_of_not_le full)⟩
      rw [mark, markProcessed, if_neg full]
      rfl

theorem evictOldestBatch_lookup_some {entries : List (String × Timestamp)}
    (found : (svc.evictOldestBatch entries).processed.lookup id = some time) :
    svc.processed.lookup id = some time := by
  rw [evictOldestBatch_lookup] at found
  split at found
  · cases found
  · exact found

theorem mark_lookup_some (iterates : call.Iterates)
    (found : (svc.mark call).processed.lookup id = some time) :
    id = call.transactionId ∧ time = call.now ∨ svc.processed.lookup id = some time := by
  rcases mark_cases svc call iterates with ⟨marked, _⟩ | ⟨entries, _, _, marked⟩
  case inl =>
    rw [marked] at found
    exact lookup_insert_cases found
  case inr =>
    rw [marked] at found
    exact (lookup_insert_cases found).imp_right evictOldestBatch_lookup_some

theorem mark_lookup_self (iterates : call.Iterates) :
    (svc.mark call).processed.lookup call.transactionId = some call.now := by
  rcases mark_cases svc call iterates with ⟨marked, _⟩ | ⟨entries, _, _, marked⟩
  case inl => rw [marked, lookup_insert_eq, if_pos rfl]
  case inr => rw [marked, lookup_insert_eq, if_pos rfl]

/-- The id is on record since `marked`, and any other that is at least as new is one of `newer`. -/
structure Recent (svc : IdempotencyService) (id : String) (marked : Timestamp) (newer : Finset String) :
    Prop where
  present : svc.processed.lookup id = some marked
  others : ∀ other time, svc.processed.lookup other = some time → other ≠ id →
    marked.nanos ≤ time.nanos → other ∈ newer

-- An eviction finds enough older entries as long as the newer ones are few.
theorem Recent.survives {marked : Timestamp} (recent : Recent svc id marked newer)
    {entries : List (String × Timestamp)} (lists : Lists entries svc.processed)
    (full : svc.maxEntries ≤ svc.len) (few : newer.card + batchSize svc.maxEntries < svc.maxEntries) :
    (svc.evictOldestBatch entries).processed.lookup id = some marked := by
  have sorted := byAge_lists lists
  have length : (byAge entries).length = svc.len := sorted.length_eq
  have kept : id ∉ ((byAge entries).take (batchSize svc.maxEntries)).map Prod.fst := by
    apply OldestFirst.not_mem_oldest (byAge_sorted entries) sorted.nodup
    case present => exact (sorted.mem_iff id marked).mpr recent.present
    case recent =>
      intro other time member apart
      exact recent.others other time ((sorted.mem_iff other time).mp member) apart
    case few => omega
  rw [evictOldestBatch_lookup, if_neg kept, recent.present]

theorem Recent.mark {marked : Timestamp} (recent : Recent svc id marked newer) (iterates : call.Iterates)
    (other : call.transactionId ≠ id)
    (few : newer.card + batchSize svc.maxEntries < svc.maxEntries) :
    Recent (svc.mark call) id marked (insert call.transactionId newer) where
  present := by
    rcases mark_cases svc call iterates with ⟨inserted, _⟩ | ⟨entries, full, lists, inserted⟩
    case inl => rw [inserted, lookup_insert_eq, if_neg other.symm, recent.present]
    case inr => rw [inserted, lookup_insert_eq, if_neg other.symm, recent.survives lists full few]
  others next time found apart new := by
    rcases mark_lookup_some iterates found with ⟨rfl, _⟩ | before
    case inl => exact Finset.mem_insert_self _ newer
    case inr => exact Finset.mem_insert_of_mem (recent.others next time before apart new)

theorem Recent.run {marked : Timestamp} (recent : Recent svc id marked newer) (later : List MarkCall)
    (iterate : ∀ call ∈ later, call.Iterates) (other : ∀ call ∈ later, call.transactionId ≠ id)
    (few : (newer ∪ (later.map MarkCall.transactionId).toFinset).card + batchSize svc.maxEntries <
      svc.maxEntries) :
    (Runs.run IdempotencyService.mark svc later).isProcessed id := by
  induction later generalizing svc newer with
  | nil => simp [isProcessed, recent.present]
  | cons call rest ih =>
    rw [List.forall_mem_cons] at iterate other
    have union : newer ∪ ((call :: rest).map MarkCall.transactionId).toFinset =
        insert call.transactionId newer ∪ (rest.map MarkCall.transactionId).toFinset := by
      rw [List.map_cons, List.toFinset_cons, Finset.union_insert, Finset.insert_union]
    have fewer : newer.card ≤ (newer ∪ ((call :: rest).map MarkCall.transactionId).toFinset).card :=
      Finset.card_le_card Finset.subset_union_left
    have next := recent.mark iterate.1 other.1 (by omega)
    apply ih next iterate.2 other.2
    rwa [mark_maxEntries, ← union]

-- The times on record were read by the calls.
theorem time_of_lookup_run {calls : List MarkCall} (iterate : ∀ call ∈ calls, call.Iterates)
    (empty : svc.processed = ∅)
    (found : (Runs.run IdempotencyService.mark svc calls).processed.lookup id = some time) :
    ∃ call ∈ calls, time = call.now := by
  induction calls using List.reverseRecOn generalizing id time with
  | nil => simp [empty] at found
  | append_singleton calls last ih =>
    rw [List.forall_mem_append, List.forall_mem_singleton] at iterate
    rw [Runs.run_append] at found
    rcases mark_lookup_some iterate.2 found with ⟨_, rfl⟩ | before
    case inl => exact ⟨last, by simp, rfl⟩
    case inr =>
      obtain ⟨call, member, same⟩ := ih iterate.1 before
      exact ⟨call, List.mem_append_left _ member, same⟩

def atCapacity (maxEntries : Nat) : IdempotencyService := new.withCapacity maxEntries

@[simp] theorem run_mark_maxEntries (svc : IdempotencyService) (calls : List MarkCall) :
    (Runs.run IdempotencyService.mark svc calls).maxEntries = svc.maxEntries := by
  induction calls generalizing svc with
  | nil => rfl
  | cons call rest ih => rw [Runs.run_cons, ih, mark_maxEntries]

/-- The calls iterate the map faithfully and read a clock that moves on. -/
structure Clocked (calls : List MarkCall) : Prop where
  iterates : ∀ call ∈ calls, call.Iterates
  increases : calls.Pairwise fun early late => early.now.nanos < late.now.nanos

/-- A marked id is on record until `window` other ids have been marked after its last mark. -/
def KeptFor (window maxEntries : Nat) (calls : List MarkCall) : Prop :=
  ∀ before call after, calls = before ++ call :: after →
    (∀ later ∈ after, later.transactionId ≠ call.transactionId) →
    (after.map MarkCall.transactionId).toFinset.card < window →
      (Runs.run IdempotencyService.mark (atCapacity maxEntries) calls).isProcessed call.transactionId

theorem keptFor_window {maxEntries : Nat} {calls : List MarkCall} (clocked : Clocked calls) :
    KeptFor (maxEntries - batchSize maxEntries) maxEntries calls := by
  rintro before call after rfl apart few
  obtain ⟨iterates, increases⟩ := clocked
  rw [List.forall_mem_append, List.forall_mem_cons] at iterates
  rw [List.pairwise_append] at increases
  have recent : Recent (Runs.run IdempotencyService.mark (atCapacity maxEntries) (before ++ [call]))
      call.transactionId call.now ∅ := by
    rw [Runs.run_append]
    refine ⟨mark_lookup_self iterates.2.1, fun other time found different new => ?_⟩
    rcases mark_lookup_some iterates.2.1 found with ⟨same, _⟩ | earlier
    case inl => exact absurd same different
    case inr =>
      obtain ⟨old, member, rfl⟩ := time_of_lookup_run iterates.1 rfl earlier
      have older := increases.2.2 old member call List.mem_cons_self
      omega
  have kept := recent.run after iterates.2.2 apart (by
    rw [Finset.empty_union, run_mark_maxEntries]
    exact Nat.add_lt_of_lt_sub few)
  rwa [← Runs.run_append, ← List.append_cons] at kept

end Marks

section Handler

def toMark (call : ProcessCall) : MarkCall :=
  .markProcessed call.now call.iteration call.transactionId

def receive (svc : IdempotencyService) (call : ProcessCall) : IdempotencyService :=
  (svc.process call).dedup

def Handles (svc : IdempotencyService) (call : ProcessCall) : Prop :=
  (svc.process call).handlerRun.any Except.isOk

instance (svc : IdempotencyService) (call : ProcessCall) : Decidable (svc.Handles call) :=
  inferInstanceAs (Decidable (_ = true))

def handled : IdempotencyService → List ProcessCall → List ProcessCall
  | _, [] => []
  | svc, call :: rest =>
    if svc.Handles call then call :: handled (svc.receive call) rest else handled (svc.receive call) rest

variable {svc : IdempotencyService} {call : ProcessCall} {id : String}

theorem handles_iff : svc.Handles call ↔ ¬ svc.isProcessed call.transactionId ∧ call.outcome.isOk := by
  by_cases known : svc.isProcessed call.transactionId
  next => simp [Handles, process, known]
  next => simp [Handles, process, known]

theorem receive_handles (handles : svc.Handles call) : svc.receive call = svc.mark (toMark call) := by
  obtain ⟨unknown, good⟩ := handles_iff.mp handles
  simp [receive, process, unknown, good, toMark, mark]

theorem receive_of_not_handles (other : ¬ svc.Handles call) : svc.receive call = svc := by
  by_cases known : svc.isProcessed call.transactionId
  next => simp [receive, process, known]
  next =>
    have failed : call.outcome.isOk = false := by simpa [handles_iff, known] using other
    simp [receive, process, known, failed]

theorem run_receive (svc : IdempotencyService) (calls : List ProcessCall) :
    Runs.run receive svc calls = Runs.run mark svc ((handled svc calls).map toMark) := by
  induction calls generalizing svc with
  | nil => rfl
  | cons call rest ih =>
    rw [Runs.run_cons, ih, handled]
    by_cases handles : svc.Handles call
    next => rw [if_pos handles, List.map_cons, Runs.run_cons, receive_handles handles]
    next => rw [if_neg handles, receive_of_not_handles handles]

theorem not_isProcessed_of_handled {calls first later : List ProcessCall}
    (split : handled svc calls = first ++ call :: later) :
    ¬ (Runs.run mark svc (first.map toMark)).isProcessed call.transactionId := by
  induction calls generalizing svc first with
  | nil => simp [handled] at split
  | cons c rest ih =>
    rw [handled] at split
    by_cases handles : svc.Handles c
    next =>
      rw [if_pos handles, receive_handles handles] at split
      cases first with
      | nil =>
        obtain ⟨rfl, _⟩ := List.cons.inj split
        exact (handles_iff.mp handles).1
      | cons c' first =>
        obtain ⟨rfl, tail⟩ := List.cons.inj split
        rw [List.map_cons, Runs.run_cons]
        exact ih tail
    next =>
      rw [if_neg handles, receive_of_not_handles handles] at split
      exact ih split

/-- Two successful handler runs for one id have `window` others between them. -/
def HandledApart (window maxEntries : Nat) (calls : List ProcessCall) : Prop :=
  ∀ before call middle call' after,
    handled (atCapacity maxEntries) calls = before ++ call :: (middle ++ call' :: after) →
    call'.transactionId = call.transactionId →
    (∀ other ∈ middle, other.transactionId ≠ call.transactionId) →
      window ≤ (middle.map ProcessCall.transactionId).toFinset.card

theorem handledApart_of_keptFor {window maxEntries : Nat} {calls : List ProcessCall}
    (kept : ∀ first rest, handled (atCapacity maxEntries) calls = first ++ rest →
      KeptFor window maxEntries (first.map toMark)) : HandledApart window maxEntries calls := by
  intro before call middle call' after split same apart
  by_contra few
  have unknown := not_isProcessed_of_handled (split.trans (List.append_assoc before (call :: middle) _).symm)
  have known := kept (before ++ call :: middle) (call' :: after) (by simp [split]) (before.map toMark)
    (toMark call) (middle.map toMark) (by simp) (by simpa [toMark, MarkCall.transactionId] using apart)
  rw [List.map_map] at known
  rw [same] at unknown
  exact unknown (known (Nat.lt_of_not_le few))

theorem mark_not_isProcessed {call : MarkCall} (iterates : call.Iterates)
    (unknown : ¬ svc.isProcessed id) (other : call.transactionId ≠ id) :
    ¬ (svc.mark call).isProcessed id := by
  intro known
  obtain ⟨time, found⟩ := Option.isSome_iff_exists.mp known
  rcases mark_lookup_some iterates found with ⟨same, _⟩ | before
  case inl => exact other same.symm
  case inr => exact unknown (by simp [isProcessed, before])

/-- After a failure the next call for the id runs the handler again, unless another has succeeded. -/
def RetriesFailures (maxEntries : Nat) (calls : List ProcessCall) : Prop :=
  ∀ before call middle call' after e, calls = before ++ call :: (middle ++ call' :: after) →
    ((Runs.run receive (atCapacity maxEntries) before).process call).handlerRun = some (.error e) →
    (∀ other ∈ handled (Runs.run receive (atCapacity maxEntries) (before ++ [call])) middle,
      other.transactionId ≠ call.transactionId) →
    call'.transactionId = call.transactionId →
      ((Runs.run receive (atCapacity maxEntries) (before ++ call :: middle)).process call').handlerRun =
        some call'.outcome

theorem handled_append (svc : IdempotencyService) (first second : List ProcessCall) :
    handled svc (first ++ second) = handled svc first ++ handled (Runs.run receive svc first) second := by
  induction first generalizing svc with
  | nil => rfl
  | cons call rest ih =>
    simp only [List.cons_append, handled, Runs.run_cons, ih]
    split <;> rfl

theorem run_mark_not_isProcessed {calls : List MarkCall} (iterate : ∀ call ∈ calls, call.Iterates)
    (unknown : ¬ svc.isProcessed id) (other : ∀ call ∈ calls, call.transactionId ≠ id) :
    ¬ (Runs.run mark svc calls).isProcessed id := by
  induction calls generalizing svc with
  | nil => exact unknown
  | cons call rest ih =>
    rw [List.forall_mem_cons] at iterate other
    exact ih iterate.2 (mark_not_isProcessed iterate.1 unknown other.1) other.2

theorem process_failed {e : String} (failed : (svc.process call).handlerRun = some (.error e)) :
    ¬ svc.isProcessed call.transactionId ∧ ¬ svc.Handles call := by
  refine ⟨fun known => ?_, fun handles => ?_⟩
  next => simp [process, known] at failed
  next => simp [Handles, failed, Except.isOk, Except.toBool] at handles

theorem retriesFailures {maxEntries : Nat} {calls : List ProcessCall}
    (iterate : ∀ call ∈ handled (atCapacity maxEntries) calls, (toMark call).Iterates) :
    RetriesFailures maxEntries calls := by
  rintro before call middle call' after e rfl failed apart same
  obtain ⟨unknown, failed⟩ := process_failed failed
  rw [List.append_cons, handled_append, handled_append _ middle, List.forall_mem_append,
    List.forall_mem_append] at iterate
  have stays : Runs.run receive (atCapacity maxEntries) (before ++ [call]) =
      Runs.run receive (atCapacity maxEntries) before := by
    rw [Runs.run_append]
    exact receive_of_not_handles failed
  have still : ¬ (Runs.run receive (atCapacity maxEntries) (before ++ call :: middle)).isProcessed
      call'.transactionId := by
    rw [same, List.append_cons, Runs.run_append, run_receive _ middle]
    apply run_mark_not_isProcessed
    case iterate => simpa using iterate.2.1
    case unknown => rwa [stays]
    case other => simpa [toMark, MarkCall.transactionId] using apart
  simp [process, still]

end Handler

/-- An id that was marked stays on record until as many others have been marked as an eviction leaves in
a full record. The handler succeeds for one id at most once in such a window, and is tried again after
a failure. -/
theorem retention_window (maxEntries : Nat) :
    (∀ calls : List MarkCall, Clocked calls →
      KeptFor (maxEntries - max (maxEntries / 10) 1) maxEntries calls) ∧
    ∀ calls : List ProcessCall, Clocked ((handled (atCapacity maxEntries) calls).map toMark) →
      HandledApart (maxEntries - max (maxEntries / 10) 1) maxEntries calls ∧
        RetriesFailures maxEntries calls := by
  refine ⟨fun calls => keptFor_window, fun calls clocked => ⟨?_, ?_⟩⟩
  case refine_1 =>
    apply handledApart_of_keptFor
    intro first rest split
    rw [split, List.map_append] at clocked
    apply keptFor_window
    exact
      { iterates := fun call member => clocked.iterates call (List.mem_append_left _ member)
        increases := (List.pairwise_append.mp clocked.increases).1 }
  case refine_2 =>
    apply retriesFailures
    intro call member
    exact clocked.iterates (toMark call) (List.mem_map_of_mem member)

-- A full record loses its oldest entries, in whatever order they are met.
theorem markProcessed_of_sorted {svc : IdempotencyService} {now : Timestamp} {id : String}
    {iteration : Map String Timestamp → List (String × Timestamp)} (iterates : ∀ m, Lists (iteration m) m)
    {entries : List (String × Timestamp)} (lists : Lists entries svc.processed)
    (sorted : entries.Pairwise fun a b => a.2.nanos.toNat < b.2.nanos.toNat) (full : svc.maxEntries ≤ svc.len) :
    svc.markProcessed now iteration id =
      { svc with
        processed := ((entries.take (batchSize svc.maxEntries)).foldl (fun m entry => m.erase entry.1)
          svc.processed).insert id now } := by
  have ordered : (byAge (iteration svc.processed)).Pairwise fun a b => a.2.nanos.toNat ≤ b.2.nanos.toNat :=
    (byAge_sorted _).imp Int.toNat_le_toNat
  have same : entries = byAge (iteration svc.processed) :=
    lists.eq_of_ordered (byAge_lists (iterates _)) (fun entry => entry.2.nanos.toNat) sorted ordered
  rw [markProcessed, if_pos full, same]
  rfl

theorem retention_window_evicting : ∃ iteration : Map String Timestamp → List (String × Timestamp),
    let marks : List MarkCall :=
      [.checkAndMark ⟨0⟩ "a", .markProcessed ⟨1⟩ iteration "b", .markProcessed ⟨2⟩ iteration "c"]
    let calls : List ProcessCall :=
      [⟨"a", .ok (), ⟨0⟩, iteration⟩, ⟨"b", .error "later", ⟨0⟩, iteration⟩, ⟨"b", .ok (), ⟨1⟩, iteration⟩,
        ⟨"a", .ok (), ⟨1⟩, iteration⟩, ⟨"c", .ok (), ⟨2⟩, iteration⟩, ⟨"a", .ok (), ⟨3⟩, iteration⟩]
    KeptFor 1 2 marks ∧ (Runs.run mark (atCapacity 2) marks).isProcessed "c" ∧
      ¬ (Runs.run mark (atCapacity 2) marks).isProcessed "a" ∧
      HandledApart 1 2 calls ∧ RetriesFailures 2 calls ∧
      (handled (atCapacity 2) calls).map ProcessCall.transactionId = ["a", "b", "c", "a"] := by
  let iteration (m : Map String Timestamp) := (exists_lists m).choose
  have lists (m : Map String Timestamp) : Lists (iteration m) m := (exists_lists m).choose_spec
  refine ⟨iteration, ?_⟩
  intro marks calls
  let one : IdempotencyService := ⟨insertAll ∅ [("a", ⟨0⟩)], 2⟩
  let two : IdempotencyService := ⟨insertAll ∅ [("a", ⟨0⟩), ("b", ⟨1⟩)], 2⟩
  let three : IdempotencyService := ⟨insertAll ∅ [("b", ⟨1⟩), ("c", ⟨2⟩)], 2⟩
  have first : (atCapacity 2).markProcessed ⟨0⟩ iteration "a" = one := rfl
  have second : one.markProcessed ⟨1⟩ iteration "b" = two := rfl
  have erased : ((insertAll ∅ [("a", ⟨0⟩), ("b", ⟨1⟩)] : Map String Timestamp).erase "a").insert "c" ⟨2⟩ =
      insertAll ∅ [("b", ⟨1⟩), ("c", ⟨2⟩)] := by decide +kernel
  have third : two.markProcessed ⟨2⟩ iteration "c" = three := by
    have batch : batchSize two.maxEntries = 1 := by decide
    rw [markProcessed_of_sorted lists (Lists.insertAll (by decide)) (by decide) (by decide), batch]
    exact congrArg (IdempotencyService.mk · 2) erased
  have marked : Runs.run mark (atCapacity 2) marks = three := third
  have runs : handled (atCapacity 2) calls =
      [⟨"a", .ok (), ⟨0⟩, iteration⟩, ⟨"b", .ok (), ⟨1⟩, iteration⟩, ⟨"c", .ok (), ⟨2⟩, iteration⟩,
        ⟨"a", .ok (), ⟨3⟩, iteration⟩] := by
    have after : two.receive ⟨"c", .ok (), ⟨2⟩, iteration⟩ = three := third
    have before : handled (atCapacity 2) calls = calls.take 1 ++ (calls.drop 2).take 1 ++ (calls.drop 4).take 1 ++
        handled (two.receive ⟨"c", .ok (), ⟨2⟩, iteration⟩) (calls.drop 5) := rfl
    rw [before, after]
    rfl
  have marksClocked : Clocked marks := ⟨by simp [marks, MarkCall.Iterates, lists], by simp [marks, MarkCall.now]⟩
  have callsClocked : Clocked ((handled (atCapacity 2) calls).map toMark) := by
    rw [runs]
    exact ⟨by simp [toMark, MarkCall.Iterates, lists], by simp [toMark, MarkCall.now]⟩
  have window := retention_window 2
  have kept : KeptFor 1 2 marks := window.1 marks marksClocked
  obtain ⟨apart, retries⟩ := window.2 calls callsClocked
  refine ⟨kept, ?_, ?_, apart, retries, ?_⟩
  · exact kept [_, _] _ [] rfl (by simp) (by simp)
  · rw [marked]
    decide
  · rw [runs]
    rfl

section Bound

variable {svc : IdempotencyService} {maxEntries : Nat}

theorem len_of_insert {svc' : IdempotencyService} {transactionId : String} {now : Timestamp}
    (inserted : svc'.processed = svc.processed.insert transactionId now) :
    svc'.len = svc.len + if svc.isProcessed transactionId then 0 else 1 := by
  rw [len, inserted, keys_insert]
  by_cases known : svc.isProcessed transactionId
  next =>
    rw [Finset.insert_eq_of_mem (isProcessed_iff.mp known), if_pos known]
    rfl
  next => rw [Finset.card_insert_of_notMem (mt isProcessed_iff.mpr known), if_neg known, len]

theorem checkAndMark_len (now : Timestamp) (transactionId : String) :
    (svc.mark (.checkAndMark now transactionId)).len =
      svc.len + if svc.isProcessed transactionId then 0 else 1 :=
  len_of_insert rfl

theorem markProcessed_len_le {now : Timestamp}
    {iteration : Map String Timestamp → List (String × Timestamp)} {transactionId : String}
    (iterates : (MarkCall.markProcessed now iteration transactionId).Iterates)
    (positive : 1 ≤ svc.maxEntries) (bounded : svc.len ≤ svc.maxEntries) :
    (svc.mark (.markProcessed now iteration transactionId)).len ≤ svc.maxEntries := by
  rcases mark_cases svc _ iterates with ⟨inserted, room⟩ | ⟨entries, _, lists, inserted⟩
  case inl =>
    have fits : svc.len < svc.maxEntries := by simpa using room
    have grown := len_of_insert inserted
    split at grown <;> omega
  case inr =>
    have shrunk := evictOldestBatch_len lists
    have batch : 1 ≤ batchSize svc.maxEntries := Nat.le_max_right _ _
    have grown := len_of_insert inserted
    split at grown <;> omega

theorem evictOlderThan_len_le {earliest now : Timestamp}
    {iteration : Map String Timestamp → List (String × Timestamp)} {ttlSeconds : Int64} :
    (svc.track (.evictOlderThan earliest now iteration ttlSeconds)).len ≤ svc.len := by
  simp only [track, evictOlderThan]
  by_cases panics : 9223372036854775 < max ttlSeconds.toInt 1 ∨
      now.nanos - max ttlSeconds.toInt 1 * 1000000000 < earliest.nanos
  next => simp only [panics, if_true, le_refl]
  next =>
    simp only [panics, if_false]
    rw [len, keys_eraseEach]
    exact Finset.card_le_card Finset.sdiff_subset

@[simp] theorem track_maxEntries (svc : IdempotencyService) (call : TrackingCall) :
    (svc.track call).maxEntries = svc.maxEntries := by
  cases call with
  | mark call => exact mark_maxEntries svc call
  | evictOlderThan earliest now iteration ttlSeconds =>
    simp only [track, evictOlderThan]
    by_cases panics : 9223372036854775 < max ttlSeconds.toInt 1 ∨
        now.nanos - max ttlSeconds.toInt 1 * 1000000000 < earliest.nanos
    next => simp only [panics, if_true]
    next => simp only [panics, if_false]

end Bound

def FitsUnguarded (maxEntries : Nat) (svc : IdempotencyService) (call : TrackingCall) : Prop :=
  ∀ now transactionId, call = .mark (.checkAndMark now transactionId) →
    svc.isProcessed transactionId ∨ svc.len < maxEntries

theorem track_bounded_iff {svc : IdempotencyService} {call : TrackingCall} (positive : 1 ≤ svc.maxEntries)
    (iterates : ∀ marked, call = .mark marked → marked.Iterates) (bounded : svc.len ≤ svc.maxEntries) :
    (svc.track call).len ≤ svc.maxEntries ↔ FitsUnguarded svc.maxEntries svc call := by
  cases call with
  | mark marked =>
    cases marked with
    | checkAndMark now transactionId =>
      have grown := @checkAndMark_len svc now transactionId
      have fits : FitsUnguarded svc.maxEntries svc (.mark (.checkAndMark now transactionId)) ↔
          svc.isProcessed transactionId ∨ svc.len < svc.maxEntries := by simp [FitsUnguarded]
      rw [fits, track, grown]
      by_cases known : svc.isProcessed transactionId
      next => simpa [known] using bounded
      next =>
        simp only [known, if_false, Bool.false_eq_true, false_or]
        omega
    | markProcessed now iteration transactionId =>
      have guarded := markProcessed_len_le (iterates _ rfl) positive bounded
      exact ⟨fun _ _ _ other => by simp at other, fun _ => guarded⟩
  | evictOlderThan earliest now iteration ttlSeconds =>
    exact ⟨fun _ _ _ other => by simp at other, fun _ => evictOlderThan_len_le.trans bounded⟩

/-- The record stays within its capacity in exactly the runs in which every unguarded mark is for an id
on record or finds room. -/
theorem tracked_bounded_iff (maxEntries : Nat) (positive : 1 ≤ maxEntries) (calls : List TrackingCall)
    (iterate : ∀ marked, .mark marked ∈ calls → marked.Iterates) :
    Runs.Throughout track (fun svc => svc.len ≤ maxEntries) (atCapacity maxEntries) calls ↔
      Runs.Meets track (FitsUnguarded maxEntries) (atCapacity maxEntries) calls := by
  have possible : Runs.Meets track (fun _ call => call ∈ calls) (atCapacity maxEntries) calls :=
    Runs.meets_of_forall_mem _ calls fun _ _ member => member
  have exactly : ∀ (svc : IdempotencyService) call, svc.maxEntries = maxEntries → call ∈ calls →
      svc.len ≤ maxEntries → ((svc.track call).len ≤ maxEntries ↔ FitsUnguarded maxEntries svc call) := by
    rintro svc call rfl member bounded
    exact track_bounded_iff positive (fun marked same => iterate marked (same ▸ member)) bounded
  have keep : ∀ (svc : IdempotencyService) call, svc.maxEntries = maxEntries → call ∈ calls →
      svc.len ≤ maxEntries → FitsUnguarded maxEntries svc call → (svc.track call).maxEntries = maxEntries := by
    intro svc call same _ _ _
    rw [track_maxEntries, same]
  exact Runs.throughout_iff_meets_of_allowed exactly keep possible rfl (Nat.zero_le _)

theorem tracked_bounded_iff_remarked :
    ∃ iteration : Map String Timestamp → List (String × Timestamp), (∀ m, Lists (iteration m) m) ∧
      Runs.Throughout track (fun svc => svc.len ≤ 1) (atCapacity 1)
        [.mark (.markProcessed ⟨0⟩ iteration "a"), .mark (.checkAndMark ⟨1⟩ "a")] := by
  let iteration (m : Map String Timestamp) := (exists_lists m).choose
  have lists (m : Map String Timestamp) : Lists (iteration m) m := (exists_lists m).choose_spec
  refine ⟨iteration, lists, (tracked_bounded_iff 1 (Nat.le_refl 1) _ ?_).mpr ⟨?_, ?_, trivial⟩⟩
  · simp [MarkCall.Iterates, lists]
  · simp [FitsUnguarded]
  · rintro now transactionId same
    cases same
    have found := @mark_lookup_self (atCapacity 1) (.markProcessed ⟨0⟩ iteration "a") lists
    exact .inl (Option.isSome_of_eq_some found)

-- A second id is put on record where there is room for one.
theorem unguarded_mark_exceeds :
    ¬ Runs.Throughout track (fun svc => svc.len ≤ 1) (atCapacity 1)
      [.mark (.checkAndMark ⟨0⟩ "a"), .mark (.checkAndMark ⟨1⟩ "b")] := by
  intro bounded
  have final := bounded _ [] (List.append_nil _).symm
  revert final
  decide

end IdempotencyService

end BankingLedger
