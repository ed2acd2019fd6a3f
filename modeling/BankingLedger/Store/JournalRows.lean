import BankingLedger.Shared.SlidingWindow
import BankingLedger.Api.JournalOrder
import BankingLedger.Store.Accounts

set_option autoImplicit false

namespace BankingLedger

open SlidingWindow

inductive EntryRequest where
  | transfer (req : TransferRequest)
  | reverseJournalEntry (entryId : JournalEntryId)

def serveEntry (rt : Runtime) (draws : Draws) (st : AppState) : EntryRequest → Bool × AppState
  | .transfer req => ((transfer rt draws req st).1.isOk, (transfer rt draws req st).2)
  | .reverseJournalEntry entryId =>
    ((reverseJournalEntry rt draws entryId st).1.isOk, (reverseJournalEntry rt draws entryId st).2)

structure JournalWriter extends Runtime where
  legsToJson : List EntryLeg → Except String String
  serializes : ∀ legs, ∃ text, legsToJson legs = .ok text

namespace SurrealStore

def journalContent (rt : Runtime) (entry : JournalEntry) (legs : String) : Row :=
  [("transaction_id", .str (rt.printUuid entry.transactionId)),
    ("sequence_number", .int entry.sequenceNumber), ("description", .str entry.description),
    ("legs", .str legs), ("recorded_at", .str (rt.hashing.toRfc3339 entry.recordedAt))]

def saveJournalEntry (writer : JournalWriter) (rows : List Row) (entry : JournalEntry) : List Row :=
  match writer.legsToJson entry.legs with
  | .error _ => rows
  | .ok legsJson => rows ++ [journalContent writer.toRuntime entry legsJson]

end SurrealStore

open SurrealStore

/-- `persisted` is how long the journal was when the last snapshot was taken. -/
structure JournalServer where
  state : AppState
  rows : List Row
  persisted : Nat

-- The entries of the snapshot, with its task run to the end.
def persistJournal (writer : JournalWriter) (server : JournalServer) : JournalServer :=
  { server with
    rows := (server.state.journal.reverse.take 10).foldl (saveJournalEntry writer) server.rows
    persisted := server.state.journal.length }

def journalServerStep (writer : JournalWriter) (server : JournalServer) :
    Draws × EntryRequest → JournalServer
  | (draws, req) =>
    let answered := serveEntry writer.toRuntime draws server.state req
    let server := { server with state := answered.2 }
    if answered.1 then persistJournal writer server else server

def Records (writer : JournalWriter) (entry : JournalEntry) (row : Row) : Prop :=
  row.field "transaction_id" = .str (writer.printUuid entry.transactionId) ∧
    row.field "sequence_number" = .int entry.sequenceNumber ∧
    ∃ text, writer.legsToJson entry.legs = .ok text ∧ row.field "legs" = .str text

instance (writer : JournalWriter) (entry : JournalEntry) (row : Row) :
    Decidable (Records writer entry row) :=
  match written : writer.legsToJson entry.legs with
  | .error _ => isFalse fun ⟨_, _, _, text, _⟩ => by simp [written] at text
  | .ok text => decidable_of_iff
      (row.field "transaction_id" = .str (writer.printUuid entry.transactionId) ∧
        row.field "sequence_number" = .int entry.sequenceNumber ∧ row.field "legs" = .str text)
      (by simp [Records, written])

/-- Every entry the last snapshot has seen is in exactly one row. -/
def RecordedOnce (writer : JournalWriter) (server : JournalServer) : Prop :=
  ∀ entry ∈ server.state.journal.take server.persisted,
    server.rows.countP (fun row => Records writer entry row) = 1

def EntryRequest.Succeeds (rt : Runtime) (draws : Draws) (st : AppState) : EntryRequest → Prop
  | .transfer req => Journalled rt draws req st ∧ LegsPass st.accounts req.postings
  | .reverseJournalEntry entryId => ∃ original, entryById st.journal entryId = some original ∧
      Balanced original.legs ∧ LegsPass st.accounts (original.legs.map EntryLeg.flipped)

theorem serveEntry_ok_iff (rt : Runtime) (draws : Draws) (st : AppState) (req : EntryRequest) :
    (serveEntry rt draws st req).1 = true ↔ req.Succeeds rt draws st := by
  cases req with
  | transfer req => exact transfer_ok_iff rt draws req st
  | reverseJournalEntry entryId => exact reversal_ok_iff rt draws entryId st

theorem serveEntry_ok_appends {rt : Runtime} {draws : Draws} {st : AppState} {req : EntryRequest}
    (ok : (serveEntry rt draws st req).1 = true) :
    ∃ entry, (serveEntry rt draws st req).2.journal = st.journal ++ [entry] := by
  cases req with
  | transfer req =>
    simp only [serveEntry] at ok ⊢
    have outcome := transfer_outcome rt draws req st
    generalize transfer rt draws req st = result at outcome ok ⊢
    cases outcome with
    | refused => cases ok
    | failed => cases ok
    | done response st' _ _ journal => exact ⟨_, journal⟩
  | reverseJournalEntry entryId =>
    simp only [serveEntry] at ok ⊢
    have outcome := reversal_outcome rt draws entryId st
    generalize reverseJournalEntry rt draws entryId st = result at outcome ok ⊢
    cases outcome with
    | refused => cases ok
    | stopped => cases ok
    | done response st' original _ _ _ _ journal => exact ⟨_, journal⟩

theorem serveEntry_journalAdvance (rt : Runtime) (draws : Draws) (st : AppState)
    (req : EntryRequest) : JournalAdvance st.toBooks (serveEntry rt draws st req).2.toBooks := by
  cases req with
  | transfer req => exact transfer_journalAdvance rt draws req st
  | reverseJournalEntry entryId => exact reversal_journalAdvance rt draws entryId st

def Books.Numbered (books : Books) : Prop :=
  InSequence books.journal ∧ ∀ e ∈ books.journal, e.sequenceNumber ≤ books.journalSeq

theorem JournalAdvance.numbered {books books' : Books} (step : JournalAdvance books books')
    (numbered : books.Numbered) : books'.Numbered := by
  obtain ⟨ordered, bounded⟩ := numbered
  cases step with
  | kept journal journalSeq =>
    refine ⟨by rwa [journal], fun e member => ?_⟩
    have := bounded e (journal ▸ member)
    omega
  | appended entry journal sequence journalSeq =>
    have below : ∀ e ∈ books.journal, e.sequenceNumber < entry.sequenceNumber := by
      intro e member
      have := bounded e member
      omega
    refine ⟨?_, fun e member => ?_⟩
    · rw [InSequence, journal, List.map_append, List.pairwise_append]
      refine ⟨ordered, List.pairwise_singleton _ _, ?_⟩
      intro n old m new
      obtain ⟨e, member, rfl⟩ := List.mem_map.mp old
      rw [List.mem_singleton.mp new]
      exact below e member
    · rw [journal, List.mem_append] at member
      rcases member with old | new
      · have := bounded e old
        omega
      · rw [List.mem_singleton.mp new]
        omega

section Rows

variable {writer : JournalWriter}

def entryRow (writer : JournalWriter) (entry : JournalEntry) : Row :=
  journalContent writer.toRuntime entry ((writer.legsToJson entry.legs).toOption.getD "")

theorem saveJournalEntry_eq (rows : List Row) (entry : JournalEntry) :
    saveJournalEntry writer rows entry = rows ++ [entryRow writer entry] := by
  obtain ⟨text, written⟩ := writer.serializes entry.legs
  simp [saveJournalEntry, entryRow, written, Except.toOption]

theorem saveJournalEntries_eq (entries : List JournalEntry) (rows : List Row) :
    entries.foldl (saveJournalEntry writer) rows = rows ++ entries.map (entryRow writer) := by
  induction entries generalizing rows with
  | nil => simp
  | cons entry rest ih => simp [ih, saveJournalEntry_eq]

theorem records_own_row (entry : JournalEntry) : Records writer entry (entryRow writer entry) := by
  obtain ⟨text, written⟩ := writer.serializes entry.legs
  refine ⟨rfl, rfl, text, written, ?_⟩
  rw [entryRow, written]
  rfl

theorem records_row_iff {journal : List JournalEntry} (ordered : InSequence journal)
    {entry other : JournalEntry} (here : entry ∈ journal) (there : other ∈ journal) :
    Records writer entry (entryRow writer other) ↔ other = entry := by
  constructor
  · rintro ⟨-, sequence, -⟩
    have number : other.sequenceNumber = entry.sequenceNumber := by
      have same : Value.int other.sequenceNumber = Value.int entry.sequenceNumber := sequence
      rw [Value.int.injEq] at same
      exact_mod_cast same
    have distinct : (journal.map JournalEntry.sequenceNumber).Nodup :=
      ordered.imp fun less => Nat.ne_of_lt less
    exact List.inj_on_of_nodup_map distinct there here number
  · rintro rfl
    exact records_own_row other

/-- What the store has of the journal, seen as windows over it: the rows are those of `sent`. -/
structure Windowed (writer : JournalWriter) (server : JournalServer) (sent : List JournalEntry) :
    Prop where
  numbered : server.state.toBooks.Numbered
  rows : server.rows = sent.map (entryRow writer)
  sound : Window.Sound ⟨server.state.journal, sent, server.persisted⟩

theorem Windowed.recordedOnce_iff {server : JournalServer} {sent : List JournalEntry}
    (windowed : Windowed writer server sent) :
    RecordedOnce writer server ↔ Window.Once ⟨server.state.journal, sent, server.persisted⟩ := by
  unfold RecordedOnce Window.Once
  refine forall₂_congr fun entry member => ?_
  have counted : server.rows.countP (fun row => Records writer entry row) = sent.count entry := by
    rw [windowed.rows, List.countP_map, List.count_eq_countP]
    refine List.countP_congr fun other saved => ?_
    have there := List.mem_of_mem_take (windowed.sound.sent_subset other saved)
    simpa using records_row_iff windowed.numbered.1 (List.mem_of_mem_take member) there
  rw [counted]

/-- A request that succeeds finds nine entries that no snapshot has seen; the first one to succeed
finds at most nine. -/
def Spaced (writer : JournalWriter) (server : JournalServer) : Draws × EntryRequest → Prop
  | (draws, req) => req.Succeeds writer.toRuntime draws server.state →
    if server.persisted = 0 then server.state.journal.length ≤ 9
    else server.state.journal.length = server.persisted + 9

-- The request has added to the journal at most, and no snapshot is taken.
theorem Windowed.unpersisted {server : JournalServer} {sent : List JournalEntry} {st' : AppState}
    (windowed : Windowed writer server sent) (advance : JournalAdvance server.state.toBooks st'.toBooks) :
    Windowed writer { server with state := st' } sent ∧
      (RecordedOnce writer { server with state := st' } ↔ RecordedOnce writer server) := by
  have numbered := advance.numbered windowed.numbered
  cases advance with
  | kept journal _ =>
    refine ⟨⟨numbered, windowed.rows, ?_⟩, ?_⟩
    · simp only [journal]
      exact windowed.sound
    · simp only [RecordedOnce, journal]
  | appended entry journal sequence _ =>
    have fresh : entry ∉ server.state.journal := by
      intro member
      have := windowed.numbered.2 entry member
      omega
    have after : Windowed writer { server with state := st' } sent := by
      refine ⟨numbered, windowed.rows, ?_⟩
      simp only [journal]
      exact windowed.sound.append fresh
    refine ⟨after, ?_⟩
    rw [after.recordedOnce_iff, windowed.recordedOnce_iff]
    simp only [journal]
    exact Window.once_append windowed.sound.bound entry

theorem Windowed.persist {server : JournalServer} {sent : List JournalEntry}
    (windowed : Windowed writer server sent) (grown : server.persisted < server.state.journal.length) :
    Windowed writer (persistJournal writer server) (sent ++ server.state.journal.reverse.take 10) ∧
      (RecordedOnce writer (persistJournal writer server) ↔ RecordedOnce writer server ∧
        Window.Fits 10 ⟨server.state.journal, sent, server.persisted⟩) := by
  have after : Windowed writer (persistJournal writer server)
      (sent ++ server.state.journal.reverse.take 10) := by
    refine ⟨windowed.numbered, ?_, windowed.sound.flush (by decide)⟩
    simp only [persistJournal, saveJournalEntries_eq, List.map_append, windowed.rows]
  refine ⟨after, ?_⟩
  rw [after.recordedOnce_iff, windowed.recordedOnce_iff]
  exact windowed.sound.once_flush_iff grown

theorem Windowed.step {server : JournalServer} {sent : List JournalEntry}
    (windowed : Windowed writer server sent) (event : Draws × EntryRequest) :
    (∃ sent', Windowed writer (journalServerStep writer server event) sent') ∧
      (RecordedOnce writer (journalServerStep writer server event) ↔
        RecordedOnce writer server ∧ Spaced writer server event) := by
  obtain ⟨draws, req⟩ := event
  obtain ⟨next, same⟩ :=
    windowed.unpersisted (serveEntry_journalAdvance writer.toRuntime draws server.state req)
  simp only [journalServerStep]
  by_cases ok : (serveEntry writer.toRuntime draws server.state req).1 = true
  · have succeeds := (serveEntry_ok_iff _ _ _ _).mp ok
    obtain ⟨entry, appended⟩ := serveEntry_ok_appends ok
    have bound := windowed.sound.bound
    have grown : server.persisted <
        (serveEntry writer.toRuntime draws server.state req).2.journal.length := by
      rw [appended, List.length_append]
      exact Nat.lt_succ_of_le bound
    obtain ⟨after, once⟩ := next.persist grown
    rw [if_pos ok]
    refine ⟨⟨_, after⟩, ?_⟩
    rw [once, same]
    simp only [Window.Fits, Spaced, appended, List.length_append, List.length_singleton, succeeds,
      true_implies]
    refine and_congr_right fun _ => ?_
    split_ifs <;> omega
  · rw [if_neg ok]
    refine ⟨⟨sent, next⟩, ?_⟩
    rw [same]
    have fails : ¬ req.Succeeds writer.toRuntime draws server.state :=
      fun succeeds => ok ((serveEntry_ok_iff _ _ _ _).mpr succeeds)
    exact ⟨fun once => ⟨once, fun succeeds => absurd succeeds fails⟩, fun both => both.1⟩

end Rows

def JournalServer.opened (st : AppState) : JournalServer :=
  { state := { st with journal := [], journalSeq := 0 }, rows := [], persisted := 0 }

theorem windowed_opened (writer : JournalWriter) (st : AppState) :
    Windowed writer (.opened st) [] := by
  refine ⟨⟨?_, ?_⟩, rfl, ⟨?_, ?_, ?_, ?_⟩⟩ <;> simp [JournalServer.opened, InSequence]

/-- After the last request that succeeded every entry of the journal is in exactly one row, if and
only if the successes lie ten entries apart. -/
theorem entries_recorded_once_iff (writer : JournalWriter) (st : AppState)
    (events : List (Draws × EntryRequest)) :
    RecordedOnce writer (Runs.run (journalServerStep writer) (.opened st) events) ↔
      Runs.Meets (journalServerStep writer) (Spaced writer) (.opened st) events := by
  have keep : ∀ server event, (∃ sent, Windowed writer server sent) →
      ∃ sent, Windowed writer (journalServerStep writer server event) sent :=
    fun _ event ⟨_, windowed⟩ => (windowed.step event).1
  have each : RecordedOnce writer (Runs.run (journalServerStep writer) (.opened st) events) ↔
      RecordedOnce writer (.opened st) ∧
        Runs.Meets (journalServerStep writer) (Spaced writer) (.opened st) events := by
    refine Runs.run_iff_meets_of_invariant ?_ keep ⟨[], windowed_opened writer st⟩ events
    rintro server event ⟨sent, windowed⟩
    exact (windowed.step event).2
  rw [each]
  simp [RecordedOnce, JournalServer.opened]

namespace Sample

def writer : JournalWriter :=
  { runtime with legsToJson := fun _ => .ok "", serializes := fun _ => ⟨"", rfl⟩ }

def twoPayments : List (Draws × EntryRequest) :=
  [(draws 10, .transfer ⟨uuid 1, uuid 2, 100, none⟩), (draws 20, .transfer ⟨uuid 1, uuid 2, 50, none⟩)]

def afterPayments : JournalServer :=
  Runs.run (journalServerStep writer) (.opened (twoAccounts 1000 0)) twoPayments

end Sample

open Sample

/-- Two transfers go through: the entry of the first is sent with both snapshots. -/
theorem entry_recorded_twice :
    (afterPayments.state.journal.map fun e => afterPayments.rows.countP (fun row => Records writer e row)) =
      [2, 1] ∧ ¬ RecordedOnce writer afterPayments := by
  refine ⟨by decide +kernel, ?_⟩
  unfold RecordedOnce
  decide +kernel

end BankingLedger
