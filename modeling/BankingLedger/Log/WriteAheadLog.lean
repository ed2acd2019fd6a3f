import BankingLedger.Log.EventStore
import BankingLedger.Shared.JsonText
import BankingLedger.Shared.LineFile

set_option autoImplicit false

namespace BankingLedger

open ByteText JsonText LineFile

structure WalEntry where
  sequence : UInt64
  event : Event
  checksum : UInt64
  timestamp : Timestamp
deriving DecidableEq, Repr

def crc64 (data : List UInt8) : UInt64 := data.foldl (fun hash byte => hash * 31 + byte.toUInt64) 0

section Json

variable (time : Timestamp → String)

def Event.toJson (event : Event) : List Char :=
  object [("id", quoted (HexText.uuidText event.id.bits)), ("event_type", quoted event.eventType),
    ("aggregate_id", quoted (HexText.uuidText event.aggregateId.bits)), ("payload", quoted event.payload),
    ("aggregate_version", number event.aggregateVersion), ("timestamp", quoted (time event.timestamp))]

def WalEntry.toJson (entry : WalEntry) : List Char :=
  object [("sequence", number entry.sequence), ("event", entry.event.toJson time),
    ("checksum", number entry.checksum), ("timestamp", quoted (time entry.timestamp))]

theorem visible_toJson (entry : WalEntry) : Visible (entry.toJson time) := by
  refine visible_object ?_
  have event : Visible (entry.event.toJson time) := by
    refine visible_object ?_
    simp [visible_quoted, visible_number]
  simp [visible_quoted, visible_number, event]

end Json

/-- `serde_json` on entries, with the time format of `chrono`; a line is read back as the entry it
was written from. -/
structure SerdeJson where
  time : Timestamp → String
  fromStr : String → Option WalEntry
  fromStr_toJson : ∀ entry : WalEntry, fromStr (String.ofList (entry.toJson time)) = some entry

def SerdeJson.toString (json : SerdeJson) (entry : WalEntry) : String :=
  String.ofList (entry.toJson json.time)

abbrev WalFile := List UInt8

def newline : UInt8 := 10

def carriageReturn : UInt8 := 13

/-- The writer and the path are left out: there is one file. -/
structure WriteAheadLog where
  sequence : UInt64
deriving DecidableEq, Repr

namespace WriteAheadLog

-- `none` where there is no file yet.
def create (file : Option WalFile) : WriteAheadLog × WalFile := ({ sequence := 1 }, file.getD [])

-- `now` is the value `Utc::now` returns. Release builds: the number wraps.
def append (json : SerdeJson) (now : Timestamp) (event : Event) (wal : WriteAheadLog) (file : WalFile) :
    UInt64 × WriteAheadLog × WalFile :=
  let seq := wal.sequence
  let entry : WalEntry := { sequence := seq, checksum := 0, event, timestamp := now }
  let checksum := crc64 (utf8 (json.toString entry))
  let entry := { entry with checksum }
  (seq, { sequence := wal.sequence + 1 }, file ++ (utf8 (json.toString entry) ++ [newline]))

end WriteAheadLog

structure ReplayResult where
  entries : List WalEntry
  corruptedCount : Nat
deriving DecidableEq, Repr

/-- What `lines` returns for a line that is not UTF-8. -/
inductive ReplayError where
  | invalidData
deriving DecidableEq, Repr

-- `char::is_whitespace`
def isWhitespace (c : Char) : Bool :=
  c.toNat ∈ [9, 10, 11, 12, 13, 32, 133, 160, 5760, 8232, 8233, 8239, 8287, 12288] ∨
    8192 ≤ c.toNat ∧ c.toNat ≤ 8202

-- `lines` takes "\n" or "\r\n" off a line.
def stripEnd (piece : List UInt8) : List UInt8 :=
  if piece.getLast? = some newline then
    if piece.dropLast.getLast? = some carriageReturn then piece.dropLast.dropLast else piece.dropLast
  else piece

namespace WriteAheadLog

def replayLoop (json : SerdeJson) : List (List UInt8) → ReplayResult → Except ReplayError ReplayResult
  | [], result => .ok result
  | piece :: rest, result =>
    match decode (stripEnd piece) with
    | none => .error .invalidData
    | some line =>
      if line.toList.all isWhitespace then replayLoop json rest result
      else
        match json.fromStr line with
        | some entry =>
          let recomputed := crc64 (utf8 (json.toString { entry with checksum := 0 }))
          if recomputed = entry.checksum then
            replayLoop json rest { result with entries := result.entries ++ [entry] }
          else replayLoop json rest { result with corruptedCount := result.corruptedCount + 1 }
        | none => replayLoop json rest result

def replay (json : SerdeJson) (file : WalFile) : Except ReplayError ReplayResult :=
  replayLoop json (pieces newline file) { entries := [], corruptedCount := 0 }

end WriteAheadLog

section Lines

inductive LineRead where
  | skipped
  | corrupted
  | entry (entry : WalEntry)
deriving DecidableEq, Repr

namespace LineRead

def toEntry : LineRead → Option WalEntry
  | entry e => some e
  | _ => none

@[simp] theorem toEntry_entry (e : WalEntry) : (entry e).toEntry = some e := rfl

@[simp] theorem toEntry_comp_entry : toEntry ∘ entry = some := rfl

variable (rs : List LineRead)

@[simp] theorem filterMap_skipped : (skipped :: rs).filterMap toEntry = rs.filterMap toEntry := rfl

@[simp] theorem filterMap_corrupted : (corrupted :: rs).filterMap toEntry = rs.filterMap toEntry := rfl

@[simp] theorem filterMap_entry (e : WalEntry) :
    (entry e :: rs).filterMap toEntry = e :: rs.filterMap toEntry := rfl

theorem filterMap_entries (entries : List WalEntry) : (entries.map entry).filterMap toEntry = entries := by
  simp

@[simp] theorem count_entries (entries : List WalEntry) : (entries.map entry).count .corrupted = 0 := by
  rw [List.count_eq_zero]
  simp

end LineRead

def WalEntry.Intact (json : SerdeJson) (entry : WalEntry) : Prop :=
  crc64 (utf8 (json.toString { entry with checksum := 0 })) = entry.checksum

instance (json : SerdeJson) (entry : WalEntry) : Decidable (entry.Intact json) :=
  inferInstanceAs (Decidable (_ = _))

def readLine (json : SerdeJson) (line : String) : LineRead :=
  if line.toList.all isWhitespace then .skipped
  else
    match json.fromStr line with
    | some entry => if entry.Intact json then .entry entry else .corrupted
    | none => .skipped

-- `none` where the line is not UTF-8.
def readPiece (json : SerdeJson) (piece : List UInt8) : Option LineRead :=
  (decode (stripEnd piece)).map (readLine json)

def reads (json : SerdeJson) (file : WalFile) : Option (List LineRead) :=
  (pieces newline file).mapM (readPiece json)

def ReplayResult.add (result : ReplayResult) : LineRead → ReplayResult
  | .skipped => result
  | .corrupted => { result with corruptedCount := result.corruptedCount + 1 }
  | .entry e => { result with entries := result.entries ++ [e] }

variable {json : SerdeJson}

theorem replayLoop_cons {piece : List UInt8} {line : String} (read : decode (stripEnd piece) = some line)
    (rest : List (List UInt8)) (result : ReplayResult) :
    WriteAheadLog.replayLoop json (piece :: rest) result =
      WriteAheadLog.replayLoop json rest (result.add (readLine json line)) := by
  simp only [WriteAheadLog.replayLoop, read, readLine]
  split
  · rfl
  · cases json.fromStr line with
    | none => rfl
    | some entry =>
      by_cases intact : entry.Intact json
      · have sum := intact
        unfold WalEntry.Intact at sum
        simp [sum, intact, ReplayResult.add]
      · have sum := intact
        unfold WalEntry.Intact at sum
        simp [sum, intact, ReplayResult.add]

theorem replayLoop_eq (found : List (List UInt8)) (result : ReplayResult) :
    WriteAheadLog.replayLoop json found result =
      match found.mapM (readPiece json) with
      | none => .error .invalidData
      | some rs => .ok (rs.foldl ReplayResult.add result) := by
  induction found generalizing result with
  | nil => rfl
  | cons piece rest ih =>
    rw [List.mapM_cons, readPiece]
    cases read : decode (stripEnd piece) with
    | none => simp [WriteAheadLog.replayLoop, read]
    | some line =>
      rw [replayLoop_cons read, ih]
      cases later : rest.mapM (readPiece json) <;> simp

theorem foldl_add (rs : List LineRead) (result : ReplayResult) : rs.foldl ReplayResult.add result =
    { entries := result.entries ++ rs.filterMap LineRead.toEntry
      corruptedCount := result.corruptedCount + rs.count .corrupted } := by
  induction rs generalizing result with
  | nil => simp
  | cons read rest ih =>
    rw [List.foldl_cons, ih]
    cases read with
    | skipped => rfl
    | corrupted =>
      rw [ReplayResult.mk.injEq, ReplayResult.add, List.count_cons_self, Nat.add_assoc, Nat.add_comm 1]
      exact ⟨rfl, rfl⟩
    | entry e => simp [ReplayResult.add]

theorem replay_eq (file : WalFile) :
    WriteAheadLog.replay json file =
      match reads json file with
      | none => .error .invalidData
      | some rs =>
        .ok { entries := rs.filterMap LineRead.toEntry, corruptedCount := rs.count .corrupted } := by
  rw [WriteAheadLog.replay, replayLoop_eq, reads]
  simp [foldl_add]

def fileOf (json : SerdeJson) (entries : List WalEntry) : WalFile :=
  lines newline (entries.map fun entry => utf8 (json.toString entry))

theorem toString_shape (entry : WalEntry) : ∃ inner, (json.toString entry).toList = '\x7b' :: inner := by
  rw [SerdeJson.toString, String.toList_ofList]
  exact ⟨_, rfl⟩

-- No byte of a line is a control character.
theorem visible_line {entry : WalEntry} {b : UInt8} (member : b ∈ utf8 (json.toString entry)) :
    32 ≤ b.toNat := by
  by_cases ascii : b.toNat < 128
  · obtain ⟨c, inside, same⟩ := mem_of_mem_utf8 member ascii
    rw [SerdeJson.toString, String.toList_ofList] at inside
    exact same ▸ visible_toJson json.time entry c inside
  · omega

theorem not_mem_line {b : UInt8} (control : b.toNat < 32) (entry : WalEntry) :
    b ∉ utf8 (json.toString entry) := fun member =>
  absurd (visible_line member) (Nat.not_le.mpr control)

theorem newline_not_mem (entry : WalEntry) : newline ∉ utf8 (json.toString entry) :=
  not_mem_line (by decide) entry

theorem carriageReturn_not_mem (entry : WalEntry) : carriageReturn ∉ utf8 (json.toString entry) :=
  not_mem_line (by decide) entry

theorem stripEnd_line {body : List UInt8} (plain : carriageReturn ∉ body) :
    stripEnd (body ++ [newline]) = body := by
  have last : body.getLast? ≠ some carriageReturn := fun found => plain (List.mem_of_getLast? found)
  simp [stripEnd, last]

theorem line_dark (entry : WalEntry) : (json.toString entry).toList.all isWhitespace = false := by
  obtain ⟨inner, shape⟩ := @toString_shape json entry
  rw [shape, List.all_cons]
  rfl

theorem readLine_toString {entry : WalEntry} (intact : entry.Intact json) :
    readLine json (json.toString entry) = .entry entry := by
  have back : json.fromStr (json.toString entry) = some entry := json.fromStr_toJson entry
  simp [readLine, line_dark entry, back, intact]

theorem readPiece_line {entry : WalEntry} (intact : entry.Intact json) :
    readPiece json (utf8 (json.toString entry) ++ [newline]) = some (.entry entry) := by
  rw [readPiece, stripEnd_line (carriageReturn_not_mem entry), decode_utf8, Option.map_some, readLine_toString intact]

theorem readPieces_lines {entries : List WalEntry} (intact : ∀ entry ∈ entries, entry.Intact json) :
    ((entries.map fun entry => utf8 (json.toString entry)).map (· ++ [newline])).mapM (readPiece json) =
      some (entries.map .entry) := by
  induction entries with
  | nil => rfl
  | cons entry rest ih =>
    obtain ⟨here, later⟩ := List.forall_mem_cons.mp intact
    simp only [List.map_cons, List.mapM_cons, readPiece_line here, ih later]
    rfl

theorem reads_fileOf {entries : List WalEntry} (intact : ∀ entry ∈ entries, entry.Intact json)
    (rest : WalFile) :
    reads json (fileOf json entries ++ rest) =
      (reads json rest).map fun rs => entries.map .entry ++ rs := by
  have plain : ∀ body ∈ entries.map fun entry => utf8 (json.toString entry), newline ∉ body := by
    simp [newline_not_mem]
  rw [reads, fileOf, pieces_lines plain, List.mapM_append, readPieces_lines intact, reads]
  cases (pieces newline rest).mapM (readPiece json) <;> rfl

theorem reads_fileOf_only {entries : List WalEntry} (intact : ∀ entry ∈ entries, entry.Intact json) :
    reads json (fileOf json entries) = some (entries.map .entry) := by
  have whole := reads_fileOf intact []
  rw [List.append_nil] at whole
  rw [whole]
  simp [reads, pieces]

theorem reads_line {body : List UInt8} (plain : newline ∉ body) {entries : List WalEntry}
    (intact : ∀ entry ∈ entries, entry.Intact json) :
    reads json (body ++ newline :: fileOf json entries) =
      (readPiece json (body ++ [newline])).map fun read => read :: entries.map .entry := by
  rw [reads, pieces_line plain, List.mapM_cons, ← reads, reads_fileOf_only intact]
  cases readPiece json (body ++ [newline]) <;> rfl

end Lines

end BankingLedger
