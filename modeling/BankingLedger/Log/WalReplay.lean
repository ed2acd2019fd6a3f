import BankingLedger.Log.WalCodec

set_option autoImplicit false

namespace BankingLedger

open ByteText LineFile

abbrev AppendCall := Event × Timestamp

namespace WriteAheadLog

def appendAll (json : SerdeJson) : List AppendCall → WriteAheadLog → WalFile →
    List UInt64 × WriteAheadLog × WalFile
  | [], wal, file => ([], wal, file)
  | call :: rest, wal, file =>
    let (seq, wal, file) := wal.append json call.2 call.1 file
    let (seqs, wal, file) := appendAll json rest wal file
    (seq :: seqs, wal, file)

def session (json : SerdeJson) (calls : List AppendCall) (file : Option WalFile) : List UInt64 × WalFile :=
  let (wal, file) := create file
  let (seqs, _, file) := appendAll json calls wal file
  (seqs, file)

def reopened (json : SerdeJson) (file : WalFile) (sessions : List (List AppendCall)) : WalFile :=
  sessions.foldl (fun file calls => (session json calls (some file)).2) file

end WriteAheadLog

open WriteAheadLog

section Written

variable (json : SerdeJson)

def written (seq : UInt64) (call : AppendCall) : WalEntry :=
  let entry : WalEntry := { sequence := seq, checksum := 0, event := call.1, timestamp := call.2 }
  { entry with checksum := crc64 (utf8 (json.toString entry)) }

def numbered : UInt64 → List AppendCall → List WalEntry
  | _, [] => []
  | seq, call :: rest => written json seq call :: numbered (seq + 1) rest

variable {json}

theorem written_intact (seq : UInt64) (call : AppendCall) : (written json seq call).Intact json := rfl

theorem append_eq (wal : WriteAheadLog) (call : AppendCall) (file : WalFile) :
    wal.append json call.2 call.1 file =
      (wal.sequence, { sequence := wal.sequence + 1 },
        file ++ fileOf json [written json wal.sequence call]) := by
  simp [append, fileOf, written]

theorem numbered_intact (seq : UInt64) (calls : List AppendCall) :
    ∀ entry ∈ numbered json seq calls, entry.Intact json := by
  induction calls generalizing seq with
  | nil => simp [numbered]
  | cons call rest ih => exact List.forall_mem_cons.mpr ⟨written_intact seq call, ih (seq + 1)⟩

theorem sessions_intact (sessions : List (List AppendCall)) :
    ∀ entry ∈ sessions.flatMap (numbered json 1), entry.Intact json := by
  intro entry member
  obtain ⟨calls, -, inside⟩ := List.mem_flatMap.mp member
  exact numbered_intact 1 calls entry inside

theorem numbered_events (seq : UInt64) (calls : List AppendCall) :
    (numbered json seq calls).map WalEntry.event = calls.map Prod.fst := by
  induction calls generalizing seq with
  | nil => rfl
  | cons call rest ih => rw [numbered, List.map_cons, ih, List.map_cons]; rfl

theorem numbered_sequences (seq : UInt64) (calls : List AppendCall) :
    (numbered json seq calls).map WalEntry.sequence =
      (List.range calls.length).map fun i => seq + UInt64.ofNat i := by
  induction calls generalizing seq with
  | nil => rfl
  | cons call rest ih =>
    rw [numbered, List.map_cons, ih, List.length_cons, List.range_succ_eq_map, List.map_cons, List.map_map]
    congr 1
    · simp [written]
    · refine List.map_congr_left fun i _ => ?_
      simp only [Function.comp_apply, Nat.succ_eq_add_one, UInt64.ofNat_add]
      rw [UInt64.add_assoc, UInt64.add_comm 1]
      rfl

theorem appendAll_eq (calls : List AppendCall) (wal : WriteAheadLog) (file : WalFile) :
    (appendAll json calls wal file).1 = (numbered json wal.sequence calls).map WalEntry.sequence ∧
      (appendAll json calls wal file).2.2 = file ++ fileOf json (numbered json wal.sequence calls) := by
  induction calls generalizing wal file with
  | nil => simp [appendAll, numbered, fileOf]
  | cons call rest ih =>
    obtain ⟨seqs, grown⟩ := ih { sequence := wal.sequence + 1 }
      (file ++ fileOf json [written json wal.sequence call])
    simp only [appendAll, append_eq, numbered, List.map_cons, seqs, grown]
    exact ⟨rfl, by simp [fileOf]⟩

theorem session_eq (calls : List AppendCall) (file : Option WalFile) :
    session json calls file =
      ((numbered json 1 calls).map WalEntry.sequence, file.getD [] ++ fileOf json (numbered json 1 calls)) := by
  obtain ⟨seqs, grown⟩ := @appendAll_eq json calls { sequence := 1 } (file.getD [])
  simp only [session, create, seqs, grown]

theorem fileOf_append (first second : List WalEntry) :
    fileOf json (first ++ second) = fileOf json first ++ fileOf json second := by
  simp [fileOf]

theorem reopened_eq (file : WalFile) (sessions : List (List AppendCall)) :
    reopened json file sessions = file ++ fileOf json (sessions.flatMap (numbered json 1)) := by
  induction sessions generalizing file with
  | nil => simp [reopened, fileOf]
  | cons calls rest ih =>
    have step : reopened json file (calls :: rest) =
        reopened json (session json calls (some file)).2 rest := rfl
    rw [step, ih, session_eq, List.flatMap_cons, fileOf_append, List.append_assoc]
    rfl

end Written

section Replayed

variable {json : SerdeJson}

theorem replay_fileOf {entries : List WalEntry} (intact : ∀ entry ∈ entries, entry.Intact json) :
    replay json (fileOf json entries) = .ok { entries, corruptedCount := 0 } := by
  rw [replay_eq, reads_fileOf_only intact]
  simp only [LineRead.filterMap_entries, LineRead.count_entries]

/-- A log is replayed as it was written. -/
theorem wal_round_trip (json : SerdeJson) (calls : List AppendCall) :
    ∃ result, replay json (session json calls none).2 = .ok result ∧ result.corruptedCount = 0 ∧
      result.entries.length = calls.length ∧
      result.entries.map WalEntry.event = calls.map Prod.fst ∧
      result.entries.map WalEntry.sequence = (session json calls none).1 ∧
      (session json calls none).1 = (List.range calls.length).map (fun i => UInt64.ofNat (i + 1)) ∧
      ∀ entry ∈ result.entries, entry.Intact json := by
  have events := @numbered_events json 1 calls
  refine ⟨{ entries := numbered json 1 calls, corruptedCount := 0 }, ?_, rfl, ?_, events, ?_, ?_,
    numbered_intact 1 calls⟩
  · rw [session_eq]
    exact replay_fileOf (numbered_intact 1 calls)
  · simpa using congrArg List.length events
  · rw [session_eq]
  · rw [session_eq, numbered_sequences]
    refine List.map_congr_left fun i _ => ?_
    rw [UInt64.ofNat_add, UInt64.add_comm]
    rfl

end Replayed

section Sequences

variable {json : SerdeJson}

theorem numbers_increase_iff (n : Nat) :
    ((List.range n).map fun i => 1 + UInt64.ofNat i).Pairwise (· < ·) ↔ n < 2 ^ 64 := by
  rw [List.pairwise_map]
  constructor
  · intro increasing
    by_contra wraps
    -- The number after the largest one is 0.
    have less := List.pairwise_iff_getElem.mp increasing 0 (2 ^ 64 - 1) (by simp; omega) (by simp; omega)
      (by omega)
    simp only [List.getElem_range] at less
    exact absurd less (by decide)
  · intro fits
    refine List.Pairwise.imp_of_mem ?_ List.pairwise_lt_range
    intro i j first second less
    rw [List.mem_range] at first second
    have size : UInt64.size = 2 ^ 64 := rfl
    rw [UInt64.lt_iff_toNat_lt, UInt64.toNat_add, UInt64.toNat_add, UInt64.toNat_ofNat_of_lt' (by omega),
      UInt64.toNat_ofNat_of_lt' (by omega), UInt64.toNat_one]
    omega

-- A session that appends anything starts at 1.
theorem sessions_apart_iff (first second : List AppendCall) :
    (∀ m ∈ (numbered json 1 first).map WalEntry.sequence, ∀ n ∈ (numbered json 1 second).map WalEntry.sequence,
      m < n) ↔ first = [] ∨ second = [] := by
  cases first with
  | nil => simp [numbered]
  | cons call rest =>
    cases second with
    | nil => simp [numbered]
    | cons call' rest' =>
      simp only [reduceCtorEq, or_self, iff_false]
      intro apart
      have less := apart 1 (by simp [numbered, written]) 1 (by simp [numbered, written])
      exact absurd less (by decide)

theorem at_most_one_iff {A : Type} (sessions : List (List A)) :
    sessions.Pairwise (fun first second => first = [] ∨ second = []) ↔
      (sessions.filter (· ≠ [])).length ≤ 1 := by
  induction sessions with
  | nil => simp
  | cons calls rest ih =>
    rw [List.pairwise_cons, ih]
    cases calls with
    | nil => simp
    | cons call others =>
      have none : (∀ later ∈ rest, call :: others = [] ∨ later = []) ↔
          (rest.filter (· ≠ [])).length = 0 := by
        simp
      rw [none, List.filter_cons_of_pos (by simp), List.length_cons]
      omega

theorem replay_reopened (json : SerdeJson) (first : List AppendCall) (others : List (List AppendCall)) :
    replay json (reopened json (session json first none).2 others) =
      .ok { entries := (first :: others).flatMap (numbered json 1), corruptedCount := 0 } := by
  have file : reopened json (session json first none).2 others =
      fileOf json ((first :: others).flatMap (numbered json 1)) := by
    rw [reopened_eq, session_eq, List.flatMap_cons, fileOf_append]
    rfl
  rw [file]
  exact replay_fileOf (sessions_intact _)

/-- The numbers of a file go up exactly if at most one session has appended anything, and less
than the numbers there are. -/
theorem wal_sequences_increase_iff (json : SerdeJson) (first : List AppendCall)
    (others : List (List AppendCall)) :
    (∃ result, replay json (reopened json (session json first none).2 others) = .ok result ∧
        (result.entries.map WalEntry.sequence).Pairwise (· < ·)) ↔
      ((first :: others).filter (· ≠ [])).length ≤ 1 ∧
        ∀ calls ∈ first :: others, calls.length < 2 ^ 64 := by
  have sequences : (((first :: others).flatMap (numbered json 1)).map WalEntry.sequence).Pairwise (· < ·) ↔
      ((first :: others).filter (· ≠ [])).length ≤ 1 ∧ ∀ calls ∈ first :: others, calls.length < 2 ^ 64 := by
    rw [List.map_flatMap, List.pairwise_flatMap, and_comm]
    simp only [sessions_apart_iff, at_most_one_iff]
    simp only [numbered_sequences, numbers_increase_iff]
  rw [replay_reopened, ← sequences]
  simp

namespace Sample

def appendDeposit : AppendCall := (.new ⟨1⟩ ⟨0⟩ "FundsDeposited" ⟨2⟩ "\x7b\"amount_cents\":1000\x7d" 1, ⟨0⟩)

end Sample

/-- The second log value numbers its entry like the first one did. -/
theorem reopened_log_repeats_number :
    ∃ result, replay WalCodec.json
        (reopened WalCodec.json (session WalCodec.json [Sample.appendDeposit] none).2 [[Sample.appendDeposit]]) = .ok result ∧
      result.entries.map WalEntry.sequence = [1, 1] ∧
      ¬ (result.entries.map WalEntry.sequence).Pairwise (· < ·) :=
  ⟨_, replay_reopened WalCodec.json [Sample.appendDeposit] [[Sample.appendDeposit]], rfl, by
    simp [numbered, written]⟩

end Sequences

end BankingLedger
