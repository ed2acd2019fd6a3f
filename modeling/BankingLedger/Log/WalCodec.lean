import BankingLedger.Log.WriteAheadLog

set_option autoImplicit false

namespace BankingLedger

open ByteText JsonText

namespace WalCodec

-- The epoch as `chrono` writes it, and other times by their distance.
def time (t : Timestamp) : String :=
  if t.nanos = 0 then "1970-01-01T00:00:00Z" else String.ofList (intText t.nanos)

def ofTime (text : String) : Timestamp :=
  if text = "1970-01-01T00:00:00Z" then ⟨0⟩ else ⟨ofIntText text.toList⟩

theorem ofTime_time (t : Timestamp) : ofTime (time t) = t := by
  have other (n : Int) : String.ofList (intText n) ≠ "1970-01-01T00:00:00Z" := by
    intro clash
    have first := congrArg (fun text : String => text.toList.head?) clash
    simp only [intText, String.toList_ofList, List.head?_cons] at first
    split at first <;> simp at first
  cases t with
  | mk nanos =>
    by_cases epoch : nanos = 0
    · simp [time, ofTime, epoch]
    · simp [time, ofTime, epoch, other, ofIntText_intText]

def uuidCode : Code Uuid :=
  Code.string.transport (fun text => ⟨HexText.ofUuidText text⟩) (fun id => HexText.uuidText id.bits)
    fun id => by rw [HexText.ofUuidText_uuidText]

def timeCode : Code Timestamp := Code.string.transport ofTime time ofTime_time

def eventCode : Code Event :=
  let fields := (uuidCode.field "id").pair <|
    ((Code.string.field "event_type").after [',']).pair <|
    ((uuidCode.field "aggregate_id").after [',']).pair <|
    ((Code.string.field "payload").after [',']).pair <|
    ((Code.number.field "aggregate_version").after [',']).pair <|
    (timeCode.field "timestamp").closed
  (fields.after ['\x7b']).transport
    (fun (id, eventType, aggregateId, payload, aggregateVersion, timestamp) =>
      { id, eventType, aggregateId, payload, aggregateVersion, timestamp })
    (fun e => (e.id, e.eventType, e.aggregateId, e.payload, e.aggregateVersion, e.timestamp))
    fun _ => rfl

def entryCode : Code WalEntry :=
  let fields := (Code.number.field "sequence").pair <|
    ((eventCode.field "event").pair <|
    ((Code.number.field "checksum").after [',']).pair <|
    (timeCode.field "timestamp").closed)
  (fields.after ['\x7b']).transport
    (fun (sequence, event, checksum, timestamp) => { sequence, event, checksum, timestamp })
    (fun e => (e.sequence, e.event, e.checksum, e.timestamp))
    fun _ => rfl

theorem eventCode_print (event : Event) : eventCode.print event = event.toJson time := by
  simp only [eventCode, uuidCode, timeCode, Code.transport_print, Code.after_print, Code.pair_print,
    Code.field_print, Code.closed_print, Code.string_print, Code.number_print, Event.toJson, object,
    members, List.append_assoc, List.cons_append, List.nil_append]

theorem entryCode_print (entry : WalEntry) : entryCode.print entry = entry.toJson time := by
  simp only [entryCode, timeCode, Code.transport_print, Code.after_print, Code.pair_print,
    Code.field_print, Code.closed_print, Code.string_print, Code.number_print, eventCode_print,
    WalEntry.toJson, object, members, List.append_assoc, List.cons_append, List.nil_append]

def json : SerdeJson where
  time
  fromStr text := entryCode.whole text.toList
  fromStr_toJson entry := by rw [String.toList_ofList, ← entryCode_print, Code.whole_print]

end WalCodec

end BankingLedger
