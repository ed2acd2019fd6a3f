import BankingLedger.Log.WalRecovery

set_option autoImplicit false

namespace BankingLedger

open ByteText JsonText LineFile WriteAheadLog

def damagedLine (file : WalFile) (i : Nat) (bad : List UInt8) : WalFile :=
  ((pieces newline file).set i (bad ++ [newline])).flatten

-- What a line parses to, if it is not blank.
def parsed (json : SerdeJson) (line : String) : Option WalEntry :=
  if line.toList.all isWhitespace then none else json.fromStr line

section Damage

variable {json : SerdeJson} {entries : List WalEntry} {i : Nat} {bad : List UInt8}

theorem pieces_fileOf (entries : List WalEntry) :
    pieces newline (fileOf json entries) = (bodies json entries).map (· ++ [newline]) := by
  have plain : ∀ body ∈ bodies json entries, newline ∉ body := by simp [bodies, newline_not_mem]
  have whole := pieces_lines plain []
  rw [List.append_nil] at whole
  rw [fileOf, ← bodies, whole]
  exact List.append_nil _

theorem damagedLine_fileOf (inside : i < entries.length) : damagedLine (fileOf json entries) i bad =
    fileOf json (entries.take i) ++ (bad ++ newline :: fileOf json (entries.drop (i + 1))) := by
  rw [damagedLine, pieces_fileOf, List.set_eq_take_append_cons_drop, if_pos (by simpa [bodies] using inside)]
  simp [fileOf, bodies, lines, ← List.map_take, ← List.map_drop, List.flatMap]

theorem reads_damaged (intact : ∀ entry ∈ entries, entry.Intact json) (inside : i < entries.length)
    (plain : newline ∉ bad) :
    reads json (damagedLine (fileOf json entries) i bad) =
      (readPiece json (bad ++ [newline])).map fun read =>
        (entries.take i).map .entry ++ read :: (entries.drop (i + 1)).map .entry := by
  rw [damagedLine_fileOf inside, reads_fileOf fun entry member => intact entry (List.mem_of_mem_take member),
    reads_line plain fun entry member => intact entry (List.mem_of_mem_drop member), Option.map_map]
  rfl

theorem replay_damaged (intact : ∀ entry ∈ entries, entry.Intact json) (inside : i < entries.length)
    (plain : newline ∉ bad) :
    replay json (damagedLine (fileOf json entries) i bad) =
      match readPiece json (bad ++ [newline]) with
      | none => .error .invalidData
      | some read => .ok
        { entries := entries.take i ++ read.toEntry.toList ++ entries.drop (i + 1)
          corruptedCount := [read].count .corrupted } := by
  rw [replay_eq, reads_damaged intact inside plain]
  generalize entries.take i = before
  generalize entries.drop (i + 1) = after
  cases readPiece json (bad ++ [newline]) with
  | none => rfl
  | some read => cases read <;> simp [LineRead.toEntry]

theorem sessions_length (sessions : List (List AppendCall)) :
    (sessions.flatMap (numbered json 1)).length = sessions.flatten.length := by
  have one (calls : List AppendCall) : (numbered json 1 calls).length = calls.length := by
    simpa using congrArg List.length (@numbered_events json 1 calls)
  rw [List.length_flatMap, List.length_flatten]
  simp only [one]

theorem readLine_eq (line : String) : readLine json line =
    match parsed json line with
    | some entry => if entry.Intact json then .entry entry else .corrupted
    | none => .skipped := by
  unfold readLine parsed
  split <;> rfl

end Damage

section Checksum

-- Two pairs of bytes with the same value in base 31.
theorem crc64_same_pair (front back : List UInt8) :
    crc64 (front ++ [65, 97] ++ back) = crc64 (front ++ [66, 66] ++ back) := by
  have pair (hash : UInt64) : (hash * 31 + 65) * 31 + 97 = (hash * 31 + 66) * 31 + 66 := by
    have digits : (65 * 31 + 97 : UInt64) = 66 * 31 + 66 := by decide
    rw [UInt64.add_mul, UInt64.add_mul, UInt64.add_assoc, UInt64.add_assoc, digits]
  have bytes : (65 : UInt8).toUInt64 = 65 ∧ (97 : UInt8).toUInt64 = 97 ∧ (66 : UInt8).toUInt64 = 66 := by
    decide
  simp only [crc64, List.foldl_append, List.foldl_cons, List.foldl_nil, bytes, pair]

def WalEntry.withType (text : String) (entry : WalEntry) : WalEntry :=
  { entry with event := { entry.event with eventType := text } }

theorem Event.toJson_eventType (time : Timestamp → String) (event : Event) : ∃ front back, ∀ text : String,
    ({ event with eventType := text } : Event).toJson time = front ++ text.toList.flatMap escaped ++ back := by
  refine ⟨'\x7b' :: (quoted "id" ++ ':' :: (quoted (HexText.uuidText event.id.bits) ++
    ',' :: (quoted "event_type" ++ [':', quote]))), quote :: ',' :: members
      [("aggregate_id", quoted (HexText.uuidText event.aggregateId.bits)), ("payload", quoted event.payload),
        ("aggregate_version", number event.aggregateVersion), ("timestamp", quoted (time event.timestamp))], ?_⟩
  intro text
  simp only [Event.toJson, object, members, quoted, List.append_assoc, List.cons_append, List.nil_append]

theorem WalEntry.toJson_withType (time : Timestamp → String) (entry : WalEntry) : ∃ front back, ∀ text : String,
    (entry.withType text).toJson time = front ++ text.toList.flatMap escaped ++ back := by
  obtain ⟨front, back, shape⟩ := Event.toJson_eventType time entry.event
  refine ⟨'\x7b' :: (quoted "sequence" ++ ':' :: (number entry.sequence ++ ',' :: (quoted "event" ++
    ':' :: front))), back ++ ',' :: members [("checksum", number entry.checksum),
      ("timestamp", quoted (time entry.timestamp))], ?_⟩
  intro text
  have event := shape text
  simp only [WalEntry.toJson, WalEntry.withType, object, members, event, List.append_assoc,
    List.cons_append]

@[simp] theorem WalEntry.withType_same (entry : WalEntry) : entry.withType entry.event.eventType = entry := rfl

@[simp] theorem WalEntry.withType_twice (entry : WalEntry) (first second : String) :
    (entry.withType first).withType second = entry.withType second := rfl

theorem utf8_retyped {json : SerdeJson} (entry : WalEntry) : ∃ front back, ∀ text : String,
    utf8 (json.toString (entry.withType text)) =
      front ++ (text.toList.flatMap escaped).flatMap String.utf8EncodeChar ++ back := by
  obtain ⟨front, back, shape⟩ := WalEntry.toJson_withType json.time entry
  refine ⟨front.flatMap String.utf8EncodeChar, back.flatMap String.utf8EncodeChar, fun text => ?_⟩
  rw [SerdeJson.toString, shape, utf8_ofList, List.flatMap_append, List.flatMap_append]

theorem utf8_withType {json : SerdeJson} (entry : WalEntry) : ∃ front back,
    utf8 (json.toString (entry.withType "Aa")) = front ++ [65, 97] ++ back ∧
      utf8 (json.toString (entry.withType "BB")) = front ++ [66, 66] ++ back := by
  obtain ⟨front, back, shape⟩ := @utf8_retyped json entry
  have first : ("Aa".toList.flatMap escaped).flatMap String.utf8EncodeChar = [65, 97] := by decide
  have second : ("BB".toList.flatMap escaped).flatMap String.utf8EncodeChar = [66, 66] := by decide
  exact ⟨front, back, first ▸ shape "Aa", second ▸ shape "BB"⟩

theorem intact_withType {json : SerdeJson} {entry : WalEntry} (intact : (entry.withType "Aa").Intact json) :
    (entry.withType "BB").Intact json := by
  obtain ⟨front, back, first, second⟩ := @utf8_withType json { entry with checksum := 0 }
  change crc64 (utf8 (json.toString (WalEntry.withType "Aa" { entry with checksum := 0 }))) = _ at intact
  change crc64 (utf8 (json.toString (WalEntry.withType "BB" { entry with checksum := 0 }))) = _
  rw [second, ← crc64_same_pair, ← first]
  exact intact

end Checksum

namespace Sample

def typedCall (eventType : String) : AppendCall := (.new ⟨1⟩ ⟨0⟩ eventType ⟨2⟩ "" 1, ⟨0⟩)

def typedEntry (eventType : String) : WalEntry :=
  (written WalCodec.json 1 (typedCall "Aa")).withType eventType

theorem written_typed : written WalCodec.json 1 (typedCall "Aa") = typedEntry "Aa" :=
  (WalEntry.withType_same (written WalCodec.json 1 (typedCall "Aa"))).symm

theorem typedEntry_ne {text : String} (other : text ≠ "Aa") : typedEntry text ≠ typedEntry "Aa" := fun same =>
  other (congrArg (fun entry : WalEntry => entry.event.eventType) same)

theorem utf8_typed : ∃ front back, ∀ text : String, utf8 (WalCodec.json.toString (typedEntry text)) =
    front ++ (text.toList.flatMap escaped).flatMap String.utf8EncodeChar ++ back := by
  obtain ⟨front, back, shape⟩ := @utf8_retyped WalCodec.json (typedEntry "Aa")
  refine ⟨front, back, fun text => ?_⟩
  have retyped : (typedEntry "Aa").withType text = typedEntry text := WalEntry.withType_twice _ _ _
  exact retyped ▸ shape text

def lineRest : List Char := ((typedEntry "Aa").toJson WalCodec.time).tail

theorem line_typed : utf8 (WalCodec.json.toString (typedEntry "Aa")) =
    123 :: lineRest.flatMap String.utf8EncodeChar := by
  have opened : (typedEntry "Aa").toJson WalCodec.json.time = '\x7b' :: lineRest := rfl
  rw [SerdeJson.toString, utf8_ofList, opened, List.flatMap_cons]
  rfl

def typedFile : WalFile := reopened WalCodec.json [] [[typedCall "Aa"]]

theorem typedFile_eq : typedFile = fileOf WalCodec.json [typedEntry "Aa"] := by
  rw [typedFile, reopened_eq, List.flatMap_singleton, numbered, written_typed, numbered, List.nil_append]

theorem pieces_typed : (pieces newline typedFile)[0]? =
    some (utf8 (WalCodec.json.toString (typedEntry "Aa")) ++ [newline]) := by
  rw [typedFile_eq, pieces_fileOf, bodies, List.map_cons, List.map_cons, List.getElem?_cons_zero]

theorem typed_intact : (typedEntry "Aa").Intact WalCodec.json := written_typed ▸ written_intact 1 (typedCall "Aa")

theorem visible_rest {b : UInt8} (member : b ∈ lineRest.flatMap String.utf8EncodeChar) : 32 ≤ b.toNat :=
  @visible_line WalCodec.json (typedEntry "Aa") _ (line_typed ▸ List.mem_cons_of_mem _ member)

theorem not_mem_first {b c : UInt8} (visible : 32 ≤ b.toNat) (control : c.toNat < 32) :
    c ∉ b :: lineRest.flatMap String.utf8EncodeChar := by
  rintro (- | ⟨_, member⟩)
  · exact absurd visible (Nat.not_le.mpr control)
  · exact absurd (visible_rest member) (Nat.not_le.mpr control)

theorem stripEnd_first {b : UInt8} (visible : 32 ≤ b.toNat) :
    stripEnd (b :: lineRest.flatMap String.utf8EncodeChar ++ [newline]) =
      b :: lineRest.flatMap String.utf8EncodeChar :=
  stripEnd_line (not_mem_first visible (by decide))

theorem utf8_unopened (inner : List Char) :
    utf8 (String.ofList ('x' :: inner)) = 120 :: inner.flatMap String.utf8EncodeChar := by
  rw [utf8_ofList, List.flatMap_cons]
  rfl

theorem parsed_of_unopened (inner : List Char) :
    parsed WalCodec.json (String.ofList ('x' :: inner)) = none := by
  have unread : WalCodec.json.fromStr (String.ofList ('x' :: inner)) = none := by
    simp [WalCodec.json, WalCodec.entryCode, Code.whole, Code.transport, Code.after]
  rw [parsed, unread]
  split <;> rfl

end Sample

open Sample

/-- A line that is still text after the damage costs its own entry at most. What it parses to
takes its place if the checksum matches and is counted if not. -/
theorem wal_damage_contained (json : SerdeJson) (sessions : List (List AppendCall)) (i : Nat)
    (inside : i < sessions.flatten.length) (bad : List UInt8) (plain : newline ∉ bad) (line : String)
    (text : decode (stripEnd (bad ++ [newline])) = some line) :
    ∃ entries, entries.length = sessions.flatten.length ∧
      replay json (reopened json [] sessions) = .ok { entries, corruptedCount := 0 } ∧
      replay json (damagedLine (reopened json [] sessions) i bad) = .ok
        { entries := entries.take i ++ ((parsed json line).filter fun entry => entry.Intact json).toList ++
            entries.drop (i + 1)
          corruptedCount := ((parsed json line).filter fun entry => ¬ entry.Intact json).toList.length } := by
  have intact := @sessions_intact json sessions
  have length := @sessions_length json sessions
  refine ⟨sessions.flatMap (numbered json 1), length, ?_, ?_⟩
  · rw [reopened_eq]
    exact replay_fileOf intact
  · rw [reopened_eq, List.nil_append, replay_damaged intact (length ▸ inside) plain, readPiece, text,
      Option.map_some, readLine_eq]
    cases parsed json line with
    | none => rfl
    | some entry => by_cases intact : entry.Intact json <;> simp [intact, Option.filter, LineRead.toEntry]

-- The second of three lines, in a log that was opened twice.
theorem wal_damage_contained_unopened :
    let file := reopened WalCodec.json [] [[typedCall "Aa", typedCall "BB"], [typedCall "Cc"]]
    ∃ entries, entries.length = 3 ∧ replay WalCodec.json file = .ok { entries, corruptedCount := 0 } ∧
      replay WalCodec.json (damagedLine file 1 (120 :: lineRest.flatMap String.utf8EncodeChar)) =
        .ok { entries := entries.take 1 ++ entries.drop 2, corruptedCount := 0 } := by
  intro file
  have text : decode (stripEnd (120 :: lineRest.flatMap String.utf8EncodeChar ++ [newline])) =
      some (String.ofList ('x' :: lineRest)) := by
    rw [stripEnd_first (by decide), ← utf8_unopened, decode_utf8]
  obtain ⟨entries, length, whole, after⟩ := wal_damage_contained WalCodec.json
    [[typedCall "Aa", typedCall "BB"], [typedCall "Cc"]] 1 (by decide) _ (not_mem_first (by decide) (by decide)) _ text
  refine ⟨entries, length, whole, after.trans ?_⟩
  rw [parsed_of_unopened, Option.filter_none, Option.filter_none, Option.toList_none, List.append_nil]
  rfl

section Containment

variable {json : SerdeJson} {entries : List WalEntry} {i : Nat} {bad : List UInt8}

def Contained (json : SerdeJson) (file : WalFile) (i : Nat) (bad : List UInt8) : Prop :=
  ∃ whole result, replay json file = .ok whole ∧ replay json (damagedLine file i bad) = .ok result ∧
    (result.entries = whole.entries.take i ++ whole.entries.drop (i + 1) ∧ result.corruptedCount = 1 ∨
      result.entries = whole.entries ∧ result.corruptedCount = 0)

theorem contained_iff (intact : ∀ entry ∈ entries, entry.Intact json) (inside : i < entries.length)
    (plain : newline ∉ bad) :
    Contained json (fileOf json entries) i bad ↔
      ∃ read, readPiece json (bad ++ [newline]) = some read ∧
        (read = .corrupted ∨ ∃ entry, entries[i]? = some entry ∧ read = .entry entry) := by
  have whole := List.take_append_drop i entries
  rw [List.drop_eq_getElem_cons inside] at whole
  simp only [Contained, replay_fileOf intact, replay_damaged intact inside plain,
    List.getElem?_eq_getElem inside, Except.ok.injEq, exists_and_left, exists_eq_left']
  cases readPiece json (bad ++ [newline]) with
  | none => simp
  | some read =>
    simp only [Except.ok.injEq, exists_eq_left', Option.some.injEq]
    cases read with
    | skipped =>
      have shorter := congrArg List.length whole
      simp only [List.length_append, List.length_cons] at shorter
      refine iff_of_false ?_ (by simp)
      rintro (⟨-, counted⟩ | ⟨same, -⟩)
      · exact absurd counted (by decide)
      · have length := congrArg List.length same
        simp only [LineRead.toEntry, Option.toList_none, List.append_nil, List.length_append] at length
        omega
    | corrupted => simp [LineRead.toEntry]
    | entry e =>
      constructor
      · rintro (⟨-, counted⟩ | ⟨same, -⟩)
        · simp at counted
        · have placed := same.trans whole.symm
          rw [List.append_assoc] at placed
          exact .inr (congrArg LineRead.entry (List.cons.inj (List.append_cancel_left placed)).1)
      · rintro (other | same)
        · cases other
        · refine .inr ⟨?_, by simp⟩
          rw [same]
          simp [LineRead.toEntry]

def Damages (file : WalFile) (i : Nat) (bad : List UInt8) : Prop :=
  newline ∉ bad ∧ ((pieces newline file)[i]?).map List.length = some (bad.length + 1)

theorem damages_first {b : UInt8} (visible : 32 ≤ b.toNat) :
    Damages typedFile 0 (b :: lineRest.flatMap String.utf8EncodeChar) := by
  have size (rest : List UInt8) : (123 :: rest ++ [newline]).length = (b :: rest).length + 1 := by simp
  refine ⟨not_mem_first visible (by decide), ?_⟩
  rw [pieces_typed, line_typed, Option.map_some, size]

theorem contained_typed_iff {bad : List UInt8} (plain : newline ∉ bad) :
    Contained WalCodec.json typedFile 0 bad ↔
      ∃ read, readPiece WalCodec.json (bad ++ [newline]) = some read ∧
        (read = .corrupted ∨ read = .entry (typedEntry "Aa")) := by
  have intact : ∀ entry ∈ [typedEntry "Aa"], entry.Intact WalCodec.json := by
    simpa using typed_intact
  rw [typedFile_eq, contained_iff intact (by decide) plain]
  simp

/-- Three ways to damage the line of one entry: an opening brace that becomes a letter, a byte
that is no text, and a type with the same checksum. -/
theorem damage_not_contained :
    (Damages typedFile 0 (120 :: lineRest.flatMap String.utf8EncodeChar) ∧
      ¬ Contained WalCodec.json typedFile 0 (120 :: lineRest.flatMap String.utf8EncodeChar)) ∧
    (Damages typedFile 0 (255 :: lineRest.flatMap String.utf8EncodeChar) ∧
      ¬ Contained WalCodec.json typedFile 0 (255 :: lineRest.flatMap String.utf8EncodeChar)) ∧
    Damages typedFile 0 (utf8 (WalCodec.json.toString (typedEntry "BB"))) ∧
      ¬ Contained WalCodec.json typedFile 0 (utf8 (WalCodec.json.toString (typedEntry "BB"))) := by
  have letter := damages_first (b := 120) (by decide)
  have noText := damages_first (b := 255) (by decide)
  refine ⟨⟨letter, ?_⟩, ⟨noText, ?_⟩, ⟨newline_not_mem _, ?_⟩, ?_⟩
  · rw [contained_typed_iff letter.1, readPiece, stripEnd_first (by decide), ← utf8_unopened, decode_utf8,
      Option.map_some, readLine_eq, parsed_of_unopened]
    simp
  · rw [contained_typed_iff noText.1, readPiece, stripEnd_first (by decide),
      decode_eq_none_of_mem List.mem_cons_self (by decide)]
    simp
  · obtain ⟨front, back, line⟩ := utf8_typed
    have length : (("Aa".toList.flatMap escaped).flatMap String.utf8EncodeChar).length =
        (("BB".toList.flatMap escaped).flatMap String.utf8EncodeChar).length := by decide
    rw [pieces_typed, line, line, Option.map_some]
    simp only [List.length_append, length, List.length_cons, List.length_nil]
  · have after : (typedEntry "BB").Intact WalCodec.json := intact_withType typed_intact
    have other : typedEntry "BB" ≠ typedEntry "Aa" := typedEntry_ne (by decide)
    rw [contained_typed_iff (newline_not_mem _), readPiece_line after]
    simp [other]

end Containment

end BankingLedger
