import BankingLedger.Log.WalDamage
import BankingLedger.Shared.RollingHash

set_option autoImplicit false

namespace BankingLedger

open ByteText JsonText LineFile RollingHash WriteAheadLog

def lineValue (bytes : List UInt8) : Nat := value 31 (bytes.map UInt8.toNat)

def checkedBytes (json : SerdeJson) (entry : WalEntry) : List UInt8 :=
  utf8 (json.toString { entry with checksum := 0 })

section Value

theorem foldl_value (bytes : List UInt8) {hash : UInt64} {sum : Nat} (same : hash.toNat = sum % 2 ^ 64) :
    (bytes.foldl (fun hash byte => hash * 31 + byte.toUInt64) hash).toNat =
      (bytes.map UInt8.toNat).foldl (fun sum digit => sum * 31 + digit) sum % 2 ^ 64 := by
  induction bytes generalizing hash sum with
  | nil => exact same
  | cons byte rest ih =>
    refine ih ?_
    rw [UInt64.toNat_add, UInt64.toNat_mul, same, UInt8.toNat_toUInt64]
    exact Nat.ModEq.add_right _ ((Nat.mod_modEq _ _).trans (Nat.ModEq.mul_right _ (Nat.mod_modEq _ _)))

theorem crc64_toNat (data : List UInt8) : (crc64 data).toNat = lineValue data % 2 ^ 64 := by
  rw [lineValue, value_eq_foldl]
  exact foldl_value data rfl

-- Eight digits fit into a word.
theorem lineValue_lt {window : List UInt8} (short : window.length ≤ 8) : lineValue window < 2 ^ 64 := by
  have digits : ∀ digit ∈ window.map UInt8.toNat, digit < 256 := by
    simpa using fun byte _ => UInt8.toNat_lt byte
  have below := value_lt 31 (by decide) (by decide) digits
  rw [List.length_map] at below
  calc lineValue window < 256 ^ window.length := below
    _ ≤ 256 ^ 8 := Nat.pow_le_pow_right (by decide) short
    _ = 2 ^ 64 := by decide

theorem lineValue_window_iff (front back : List UInt8) {old new : List UInt8} (length : old.length = new.length)
    (short : old.length ≤ 8) :
    lineValue (front ++ old ++ back) ≡ lineValue (front ++ new ++ back) [MOD 2 ^ 64] ↔
      lineValue old = lineValue new := by
  have odd : Nat.Coprime (2 ^ 64) 31 := Nat.Coprime.pow_left 64 (by decide)
  simp only [lineValue, List.map_append]
  exact value_window_eq_iff odd _ _ (by simpa using length) (lineValue_lt short)
    (lineValue_lt (length ▸ short))

theorem intact_iff_value {json : SerdeJson} {entry : WalEntry} :
    entry.Intact json ↔ lineValue (checkedBytes json entry) ≡ entry.checksum.toNat [MOD 2 ^ 64] := by
  rw [WalEntry.Intact, ← UInt64.toNat_inj, crc64_toNat, checkedBytes, Nat.ModEq,
    Nat.mod_eq_of_lt entry.checksum.toNat_lt]

end Value

/-- At most 8 bytes of the line of an entry are replaced, and it is still one line that
parses to another entry. -/
structure Burst (json : SerdeJson) (entry altered : WalEntry) (bad : List UInt8) : Prop where
  window : ∃ front old new back, utf8 (json.toString entry) = front ++ old ++ back ∧
    bad = front ++ new ++ back ∧ old.length = new.length ∧ old.length ≤ 8
  plain : newline ∉ bad
  parses : ∃ line, decode (stripEnd (bad ++ [newline])) = some line ∧ parsed json line = some altered
  differs : altered ≠ entry

def Detected (json : SerdeJson) (file : WalFile) (i : Nat) (bad : List UInt8) : Prop :=
  ∃ whole result, replay json file = .ok whole ∧ replay json (damagedLine file i bad) = .ok result ∧
    result.entries = whole.entries.take i ++ whole.entries.drop (i + 1)

section Detection

variable {json : SerdeJson} {entries : List WalEntry} {i : Nat} {entry altered : WalEntry} {bad : List UInt8}

theorem Burst.readPiece_eq (burst : Burst json entry altered bad) : readPiece json (bad ++ [newline]) =
    some (if altered.Intact json then .entry altered else .corrupted) := by
  obtain ⟨line, text, read⟩ := burst.parses
  rw [readPiece, text, Option.map_some, readLine_eq, read]

theorem detected_iff (intact : ∀ entry ∈ entries, entry.Intact json) (inside : i < entries.length)
    (burst : Burst json entry altered bad) :
    Detected json (fileOf json entries) i bad ↔ ¬ altered.Intact json := by
  simp only [Detected, replay_fileOf intact, replay_damaged intact inside burst.plain, burst.readPiece_eq,
    Except.ok.injEq, exists_and_left, exists_eq_left']
  by_cases passes : altered.Intact json
  · refine iff_of_false ?_ (not_not.mpr passes)
    intro same
    have length := congrArg List.length same
    simp [passes] at length
  · simp [passes, LineRead.toEntry]

theorem passes_iff (intact : entry.Intact json) : altered.Intact json ↔
    lineValue (checkedBytes json altered) + entry.checksum.toNat ≡
      lineValue (checkedBytes json entry) + altered.checksum.toNat [MOD 2 ^ 64] := by
  have written := intact_iff_value.mp intact
  rw [intact_iff_value]
  constructor
  · intro passes
    calc lineValue (checkedBytes json altered) + entry.checksum.toNat
        ≡ altered.checksum.toNat + lineValue (checkedBytes json entry) [MOD 2 ^ 64] := passes.add written.symm
      _ = lineValue (checkedBytes json entry) + altered.checksum.toNat := Nat.add_comm _ _
  · intro same
    refine Nat.ModEq.add_right_cancel' entry.checksum.toNat (same.trans ?_)
    rw [Nat.add_comm]
    exact written.add_left _

end Detection

/-- A short change of a written line is found unless it moves the number of the entry as far
as its checksum. A change of the checksum alone is always found, and one beside the checksum
if the bytes it puts in have another number. -/
theorem burst_detected_iff (json : SerdeJson) (sessions : List (List AppendCall)) (i : Nat)
    (entry altered : WalEntry) (bad : List UInt8)
    (here : (sessions.flatMap (numbered json 1))[i]? = some entry) (burst : Burst json entry altered bad) :
    (Detected json (reopened json [] sessions) i bad ↔
      ¬ lineValue (checkedBytes json altered) + entry.checksum.toNat ≡
        lineValue (checkedBytes json entry) + altered.checksum.toNat [MOD 2 ^ 64]) ∧
    ({ altered with checksum := entry.checksum } = entry →
      Detected json (reopened json [] sessions) i bad) ∧
    ∀ front old new back, checkedBytes json entry = front ++ old ++ back →
      checkedBytes json altered = front ++ new ++ back → old.length = new.length → old.length ≤ 8 →
      altered.checksum = entry.checksum →
      (Detected json (reopened json [] sessions) i bad ↔ lineValue old ≠ lineValue new) := by
  obtain ⟨inside, at_i⟩ := List.getElem?_eq_some_iff.mp here
  have intact : entry.Intact json := sessions_intact sessions entry (List.mem_of_getElem? here)
  have detected : Detected json (reopened json [] sessions) i bad ↔ ¬ altered.Intact json := by
    rw [reopened_eq]
    exact detected_iff (sessions_intact sessions) inside burst
  refine ⟨?_, ?_, ?_⟩
  · rw [detected, passes_iff intact]
  · intro checksum_only
    rw [detected]
    intro passes
    have same : { altered with checksum := 0 } = { entry with checksum := 0 } := by
      rw [← checksum_only]
    have checksum : altered.checksum = entry.checksum := by
      rw [← passes, ← intact, same]
    have unchanged : altered = { altered with checksum := entry.checksum } := by rw [← checksum]
    exact burst.differs (unchanged.trans checksum_only)
  · intro front old new back before after length short checksum
    have written := intact_iff_value.mp intact
    rw [detected, intact_iff_value, checksum, ne_eq, ← lineValue_window_iff front back length short, ← before,
      ← after]
    exact not_congr ⟨fun passes => written.trans passes.symm, fun same => same.symm.trans written⟩

section Retyped

theorem parsed_toString {json : SerdeJson} (entry : WalEntry) :
    parsed json (json.toString entry) = some entry := by
  have back : json.fromStr (json.toString entry) = some entry := json.fromStr_toJson entry
  simp [parsed, line_dark entry, back]

theorem burst_of_line {json : SerdeJson} {entry altered : WalEntry} (differs : altered ≠ entry)
    {front old new back : List UInt8} (before : utf8 (json.toString entry) = front ++ old ++ back)
    (after : utf8 (json.toString altered) = front ++ new ++ back) (length : old.length = new.length)
    (short : old.length ≤ 8) : Burst json entry altered (utf8 (json.toString altered)) where
  window := ⟨front, old, new, back, before, after, length, short⟩
  plain := newline_not_mem altered
  parses := by
    refine ⟨json.toString altered, ?_, parsed_toString altered⟩
    rw [stripEnd_line (carriageReturn_not_mem altered), decode_utf8]
  differs

end Retyped

namespace Sample

theorem typed_here : ([[typedCall "Aa"]].flatMap (numbered WalCodec.json 1))[0]? = some (typedEntry "Aa") := by
  rw [List.flatMap_singleton, numbered, written_typed, List.getElem?_cons_zero]

-- The type "Aa" is written over by another of two bytes.
theorem burst_typed {text : String} (other : text ≠ "Aa") {new : List UInt8}
    (bytes : (text.toList.flatMap escaped).flatMap String.utf8EncodeChar = new) (two : new.length = 2) :
    ∃ front back,
      checkedBytes WalCodec.json (typedEntry "Aa") = front ++ [65, 97] ++ back ∧
      checkedBytes WalCodec.json (typedEntry text) = front ++ new ++ back ∧
      Burst WalCodec.json (typedEntry "Aa") (typedEntry text)
        (utf8 (WalCodec.json.toString (typedEntry text))) := by
  have old : ("Aa".toList.flatMap escaped).flatMap String.utf8EncodeChar = [65, 97] := by decide
  obtain ⟨front, back, line⟩ := utf8_typed
  obtain ⟨first, last, checked⟩ := @utf8_retyped WalCodec.json { typedEntry "Aa" with checksum := 0 }
  have before := line "Aa"
  have after := line text
  rw [old] at before
  rw [bytes] at after
  refine ⟨first, last, old ▸ checked "Aa", bytes ▸ checked text, ?_⟩
  exact burst_of_line (typedEntry_ne other) before after two.symm (by decide)

end Sample

open Sample

/-- "Aa" and "BB" have the same number in base 31. -/
theorem burst_undetected :
    ([[typedCall "Aa"]].flatMap (numbered WalCodec.json 1))[0]? = some (typedEntry "Aa") ∧
    Burst WalCodec.json (typedEntry "Aa") (typedEntry "BB") (utf8 (WalCodec.json.toString (typedEntry "BB"))) ∧
    ¬ Detected WalCodec.json (reopened WalCodec.json [] [[typedCall "Aa"]]) 0
      (utf8 (WalCodec.json.toString (typedEntry "BB"))) := by
  have bytes : ("BB".toList.flatMap escaped).flatMap String.utf8EncodeChar = [66, 66] := by decide
  have intact : ∀ entry ∈ [typedEntry "Aa"], entry.Intact WalCodec.json := by
    simpa using typed_intact
  obtain ⟨-, -, -, -, burst⟩ := burst_typed (by decide) bytes rfl
  refine ⟨typed_here, burst, ?_⟩
  change ¬ Detected WalCodec.json typedFile 0 _
  rw [typedFile_eq, detected_iff intact (by decide) burst]
  exact not_not.mpr (intact_withType typed_intact)

theorem burst_detected_iff_retyped :
    Detected WalCodec.json typedFile 0 (utf8 (WalCodec.json.toString (typedEntry "Ab"))) := by
  have bytes : ("Ab".toList.flatMap escaped).flatMap String.utf8EncodeChar = [65, 98] := by decide
  obtain ⟨front, back, before, after, burst⟩ := burst_typed (by decide) bytes rfl
  have found := burst_detected_iff WalCodec.json [[typedCall "Aa"]] 0 _ _ _ typed_here burst
  exact (found.2.2 front _ _ back before after rfl (by decide) rfl).mpr (by decide)

end BankingLedger
