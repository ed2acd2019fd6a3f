import BankingLedger.Log.WalReplay

set_option autoImplicit false

namespace BankingLedger

open ByteText LineFile WriteAheadLog

/-- A broken off object that a whole one follows is not read as that one: what comes behind the
start of an object is part of it or makes the text malformed. -/
def SerdeJson.RejectsTorn (json : SerdeJson) : Prop :=
  ∀ (start : String) (entry : WalEntry), start.toList.head? = some '\x7b' →
    json.fromStr (start ++ json.toString entry) ≠ some entry

section Cut

variable (json : SerdeJson) (calls : List AppendCall) (k : Nat)

def bodies (entries : List WalEntry) : List (List UInt8) :=
  entries.map fun entry => utf8 (json.toString entry)

def survivors : List WalEntry := (numbered json 1 calls).take (fitting (bodies json (numbered json 1 calls)) k)

def tornTail : List UInt8 := torn (bodies json (numbered json 1 calls)) k

def crashed : WalFile := (session json calls none).2.take k

variable {json calls k}

theorem crashed_eq : crashed json calls k = fileOf json (survivors json calls k) ++ tornTail json calls k := by
  rw [crashed, session_eq, Option.getD_none, List.nil_append, fileOf]
  have cut := @take_lines _ newline (bodies json (numbered json 1 calls)) k
  rw [bodies, ← List.map_take] at cut
  exact cut

theorem survivors_intact : ∀ entry ∈ survivors json calls k, entry.Intact json := fun entry member =>
  numbered_intact 1 calls entry (List.mem_of_mem_take member)

-- A torn tail is the start of an object, without an end of line.
structure Torn (tail : List UInt8) : Prop where
  opened : ∃ rest, tail = 123 :: rest
  visible : ∀ b ∈ tail, 32 ≤ b.toNat

theorem utf8_toString (entry : WalEntry) : ∃ rest, utf8 (json.toString entry) = 123 :: rest := by
  obtain ⟨inner, shape⟩ := @toString_shape json entry
  rw [← String.ofList_toList (s := json.toString entry), shape, utf8_ofList, List.flatMap_cons]
  exact ⟨_, rfl⟩

theorem tornTail_cases : tornTail json calls k = [] ∨ Torn (tornTail json calls k) := by
  rcases torn_prefix (bodies json (numbered json 1 calls)) k with none | ⟨body, member, suffix, split⟩
  · exact .inl none
  · obtain ⟨entry, -, rfl⟩ := List.mem_map.mp member
    obtain ⟨rest, starts⟩ := @utf8_toString json entry
    change tornTail json calls k ++ suffix = _ at split
    have visible : ∀ b ∈ tornTail json calls k, 32 ≤ b.toNat := fun b inside =>
      @visible_line json entry _ (split ▸ List.mem_append_left _ inside)
    cases tail : tornTail json calls k with
    | nil => exact .inl rfl
    | cons b others =>
      rw [tail, starts, List.cons_append] at split
      refine .inr ⟨⟨others, by rw [(List.cons.inj split).1]⟩, ?_⟩
      rwa [tail] at visible

end Cut

section Recovery

variable {json : SerdeJson} {tail : List UInt8}

theorem Torn.not_mem (whole : Torn tail) {b : UInt8} (control : b.toNat < 32) : b ∉ tail := fun member => by
  have := whole.visible b member
  omega

theorem Torn.ne_nil (whole : Torn tail) : tail ≠ [] := by
  obtain ⟨rest, rfl⟩ := whole.opened
  simp

theorem fromStr_of_readLine {line : String} {entry : WalEntry} (read : readLine json line = .entry entry) :
    json.fromStr line = some entry := by
  unfold readLine at read
  split at read
  · cases read
  · split at read
    · split at read
      · cases read
        assumption
      · cases read
    · cases read

-- The line that a torn tail is continued with is not read as the entry that was appended.
theorem readPiece_merged (rejects : json.RejectsTorn) (whole : Torn tail) (entry : WalEntry) :
    readPiece json (tail ++ utf8 (json.toString entry) ++ [newline]) ≠ some (.entry entry) := by
  intro read
  have plain : carriageReturn ∉ tail ++ utf8 (json.toString entry) := by
    rw [List.mem_append, not_or]
    exact ⟨whole.not_mem (by decide), carriageReturn_not_mem entry⟩
  rw [readPiece, stripEnd_line plain, Option.map_eq_some_iff] at read
  obtain ⟨line, decoded, found⟩ := read
  obtain ⟨inner, shape⟩ := @toString_shape json entry
  obtain ⟨start, bytes, rfl⟩ := exists_of_decode_append shape (by decide) decoded
  obtain ⟨rest, opened⟩ := whole.opened
  obtain ⟨c, head, same⟩ := head_of_utf8 (bytes.symm.trans opened) (by decide)
  have brace : c = '\x7b' := Char.toNat_inj.mp same
  exact rejects start entry (brace ▸ head) (fromStr_of_readLine found)

theorem reads_tail (whole : Torn tail) :
    reads json tail = (decode tail).map fun line => [readLine json line] := by
  have last : tail.getLast? ≠ some newline := fun found =>
    whole.not_mem (by decide) (List.mem_of_getLast? found)
  rw [reads, pieces_of_plain (whole.not_mem (by decide)) whole.ne_nil]
  simp only [List.mapM_cons, List.mapM_nil, readPiece, stripEnd, if_neg last]
  cases decode tail <;> rfl

theorem reads_merged (whole : Torn tail) {entry : WalEntry} {others : List WalEntry}
    (intact : ∀ e ∈ others, e.Intact json) :
    reads json (tail ++ fileOf json (entry :: others)) =
      (readPiece json (tail ++ utf8 (json.toString entry) ++ [newline])).map fun read =>
        read :: others.map .entry := by
  have plain : newline ∉ tail ++ utf8 (json.toString entry) := by
    rw [List.mem_append, not_or]
    exact ⟨whole.not_mem (by decide), newline_not_mem entry⟩
  have file : tail ++ fileOf json (entry :: others) =
      tail ++ utf8 (json.toString entry) ++ newline :: fileOf json others := by
    simp [fileOf]
  rw [file, reads_line plain intact]

-- Behind whole lines only the rest of the file decides.
theorem recovers_iff_reads {kept new : List WalEntry} (intact : ∀ entry ∈ kept, entry.Intact json)
    (rest : WalFile) :
    (∃ result, replay json (fileOf json kept ++ rest) = .ok result ∧ (kept ++ new).Sublist result.entries) ↔
      ∃ rs, reads json rest = some rs ∧ new.Sublist (rs.filterMap LineRead.toEntry) := by
  rw [replay_eq, reads_fileOf intact]
  cases reads json rest with
  | none => simp
  | some rs =>
    simp only [Option.map_some, Except.ok.injEq, exists_eq_left', List.filterMap_append,
      LineRead.filterMap_entries, List.append_sublist_append_left, Option.some.injEq]

theorem not_recovered_of_torn (rejects : json.RejectsTorn) (whole : Torn tail) (entry : WalEntry)
    {others : List WalEntry} (intact : ∀ e ∈ others, e.Intact json) :
    ¬ ∃ rs, reads json (tail ++ fileOf json (entry :: others)) = some rs ∧
      (entry :: others).Sublist (rs.filterMap LineRead.toEntry) := by
  rintro ⟨rs, found, inside⟩
  rw [reads_merged whole intact, Option.map_eq_some_iff] at found
  obtain ⟨read, merged, rfl⟩ := found
  cases read with
  | skipped => exact absurd inside.length_le (by simp)
  | corrupted => exact absurd inside.length_le (by simp)
  | entry e =>
    -- As many entries as lines, so the merged line would be the first new one.
    have same := inside.eq_of_length (by simp)
    obtain rfl : entry = e := by simpa using (List.cons.inj same).1
    exact readPiece_merged rejects whole entry merged

theorem session_crashed (before : List AppendCall) (k : Nat) (after : List AppendCall) :
    (session json after (some (crashed json before k))).2 =
      fileOf json (survivors json before k) ++ (tornTail json before k ++ fileOf json (numbered json 1 after)) := by
  rw [session_eq, Option.getD_some, crashed_eq, List.append_assoc]

/-- What has survived a crash is replayed, and all that has been appended since, exactly when the
crash has left no part of a line, or nothing has been appended and the part is text. -/
theorem wal_recovers_iff (json : SerdeJson) (rejects : json.RejectsTorn) (before : List AppendCall) (k : Nat)
    (after : List AppendCall) :
    (∃ result, replay json (session json after (some (crashed json before k))).2 = .ok result ∧
        (survivors json before k ++ numbered json 1 after).Sublist result.entries) ↔
      tornTail json before k = [] ∨ after = [] ∧ (decode (tornTail json before k)).isSome := by
  rw [session_crashed, recovers_iff_reads survivors_intact]
  rcases @tornTail_cases json before k with none | whole
  · rw [none, List.nil_append, reads_fileOf_only (numbered_intact 1 after)]
    refine iff_of_true ⟨_, rfl, ?_⟩ (.inl rfl)
    rw [LineRead.filterMap_entries]
  · simp only [whole.ne_nil, false_or]
    cases after with
    | nil =>
      simp only [numbered, fileOf, List.map_nil, lines_nil, List.append_nil, reads_tail whole, true_and]
      cases decode (tornTail json before k) <;> simp
    | cons call rest =>
      simp only [reduceCtorEq, false_and, iff_false]
      exact not_recovered_of_torn rejects whole _ (numbered_intact _ rest)

end Recovery

theorem WalCodec.json_rejectsTorn : WalCodec.json.RejectsTorn := by
  intro start entry torn read
  have same := JsonText.Code.print_of_whole read
  rw [WalCodec.entryCode_print, String.toList_append, SerdeJson.toString, String.toList_ofList] at same
  have empty : start.toList = [] := List.self_eq_append_left.mp same
  rw [empty] at torn
  cases torn

/-- One byte of the first line is left, and the entry that is appended behind it is lost. -/
theorem entry_behind_torn_brace_lost :
    tornTail WalCodec.json [Sample.appendDeposit] 1 = [123] ∧
      ¬ ∃ result, replay WalCodec.json (session WalCodec.json [Sample.appendDeposit]
          (some (crashed WalCodec.json [Sample.appendDeposit] 1))).2 = .ok result ∧
        (survivors WalCodec.json [Sample.appendDeposit] 1 ++
          numbered WalCodec.json 1 [Sample.appendDeposit]).Sublist result.entries := by
  have tail : tornTail WalCodec.json [Sample.appendDeposit] 1 = [123] := by
    obtain ⟨rest, starts⟩ := @utf8_toString WalCodec.json
      (written WalCodec.json 1 Sample.appendDeposit)
    simp [tornTail, bodies, numbered, starts, torn]
  have whole : Torn (tornTail WalCodec.json [Sample.appendDeposit] 1) :=
    tornTail_cases.resolve_left (by rw [tail]; simp)
  rw [session_crashed, recovers_iff_reads survivors_intact]
  exact ⟨tail, not_recovered_of_torn WalCodec.json_rejectsTorn whole _ (numbered_intact _ [])⟩

theorem wal_recovers_iff_deposit :
    (∃ result, replay WalCodec.json (session WalCodec.json [Sample.appendDeposit]
          (some (crashed WalCodec.json [Sample.appendDeposit] 1))).2 = .ok result ∧
        (survivors WalCodec.json [Sample.appendDeposit] 1 ++
          numbered WalCodec.json 1 [Sample.appendDeposit]).Sublist result.entries) ↔
      tornTail WalCodec.json [Sample.appendDeposit] 1 = [] ∨
        [Sample.appendDeposit] = [] ∧ (decode (tornTail WalCodec.json [Sample.appendDeposit] 1)).isSome :=
  wal_recovers_iff WalCodec.json WalCodec.json_rejectsTorn [Sample.appendDeposit] 1 [Sample.appendDeposit]

end BankingLedger
