import BankingLedger.Api.JournalOrder
import BankingLedger.Api.RepeatedReversals
import BankingLedger.Api.Router
import BankingLedger.Log.SignedRecords

set_option autoImplicit false

namespace BankingLedger

open FiniteMap Interleaving HashLinked HashLink

inductive AuditRequest where
  | entry (call : EntryCall)
  | status (call : StatusCall)
  | transaction (draws : Draws) (req : TransactionRequest)
  | redactBlock (index : UInt64)

inductive AuditWorker where
  | entry (worker : EntryWorker)
  | status (call : StatusCall) (pc : StatusCallPc)
  | transaction (draws : Draws) (req : TransactionRequest) (returned : Bool)
  | redactBlock (index : UInt64) (returned : Bool)

def AuditRequest.worker : AuditRequest → AuditWorker
  | .entry call => .entry call.worker
  | .status call => .status call .start
  | .transaction draws req => .transaction draws req false
  | .redactBlock index => .redactBlock index false

inductive AuditNote where
  | entry (e : JournalEntry)
  | deactivation (id : AccountId)
  | completion (action : String) (id : TransactionId)

namespace AuditNote

def entry? : AuditNote → Option JournalEntry
  | entry e => some e
  | _ => none

def other? : AuditNote → Option AuditNote
  | entry _ => none
  | note => some note

-- A reversal is not written out as an entry is.
def Text (rt : TransactionRuntime) : AuditNote → String → Prop
  | entry e, data =>
    match e.reverses with
    | none => rt.entryToJson e = .ok data
    | some id =>
      data = rt.reversalToJson (rt.printUuid e.id) (rt.printUuid id) e.description e.sequenceNumber
  | deactivation id, data => data = "coa_deactivate:" ++ rt.printUuid id
  | completion action id, data => data = rt.actionToJson action (rt.printUuid id)

end AuditNote

def TransactionRequest.note : TransactionRequest → Option (String × TransactionId)
  | .create _ => none
  | .commit id => some ("transaction_commit", id)
  | .reject id => some ("transaction_reject", id)

def auditSystem (rt : TransactionRuntime) : System Books AuditWorker where
  step
    | books, .entry worker =>
      ((entrySystem rt.toRuntime).step books worker).map fun next => (next.1, .entry next.2)
    | books, .status call pc =>
      (statusCallStep rt.toRuntime call books pc).map fun next => (next.1, .status call next.2)
    | books, .transaction draws req false =>
      match req.note with
      | none => some (books, .transaction draws req true)
      | some (action, id) =>
        let appended := books.hashChain.append rt.hashing draws.blockTime (rt.actionToJson action (rt.printUuid id))
        some ({ books with hashChain := appended.2 }, .transaction draws req true)
    | books, .redactBlock index false =>
      some ({ books with hashChain := (books.hashChain.redact rt.hashing index).2 }, .redactBlock index true)
    | _, .transaction _ _ true | _, .redactBlock _ true => none

theorem transaction_alone (rt : TransactionRuntime) (draws : Draws) (req : TransactionRequest) (st : AppState) :
    (auditSystem rt).step st.toBooks (.transaction draws req false) =
      some ((serveTransaction rt draws req st).2.toBooks, .transaction draws req true) := by
  cases req <;> rfl

theorem redactBlock_alone (rt : ApiRuntime) (index : UInt64) (st : ApiState) :
    (auditSystem rt.toTransactionRuntime).step st.toBooks (.redactBlock index false) =
      some ((redactBlock rt index st).2.toBooks, .redactBlock index true) := by
  simp only [auditSystem, redactBlock]
  split <;> simp [*]

def auditStart {I : Type} (books : Books) (requests : I → AuditRequest) : Config I Books AuditWorker :=
  { shared := books, thread := fun i => (requests i).worker }

def TransferPc.receipt : TransferPc → Option (UInt64 × JournalEntryId)
  | .pushJournal entry block | .debiting entry block _ | .crediting entry block _ | .readFrom entry block
  | .readTo entry block _ => some (block.index, entry.id)
  | .returned (.ok response) => some (response.chainIndex, response.journalEntryId)
  | _ => none

namespace AuditWorker

def pushing : AuditWorker → Option JournalEntry
  | .entry worker => worker.pushing
  | _ => none

def receipt : AuditWorker → Option (UInt64 × JournalEntryId)
  | .entry (.transfer _ pc) => pc.receipt
  | _ => none

def completed : AuditWorker → Option AuditNote
  | .status (.coaDeactivate id _) (.returned (.ok _)) => some (.deactivation id)
  | .transaction _ req true => req.note.map fun note => .completion note.1 note.2
  | _ => none

def hasRedacted (k : Nat) : AuditWorker → Bool
  | .redactBlock index true => index.toNat = k
  | _ => false

def WF (rt : TransactionRuntime) : AuditWorker → Prop
  | .entry (.transfer _ (.appendChain e chainData)) =>
    e.reverses = none ∧ rt.entryToJson e = .ok chainData
  | .entry (.reversal call pc) => pc.Names call.entryId
  | _ => True

end AuditWorker

def AuditWorker.Receipted (notes : List AuditNote) (worker : AuditWorker) : Prop :=
  ∀ index id, worker.receipt = some (index, id) →
    ∃ (k : Nat) (e : JournalEntry), notes[k]? = some (.entry e) ∧ index = UInt64.ofNat (k + 1) ∧ id = e.id

structure Noted (rt : TransactionRuntime) (chain : HashChain) (blank : Nat → Prop) (notes : List AuditNote) :
    Prop where
  length : chain.blocks.length = notes.length + 1
  indexed : ∀ (k : Nat) (b : HashLink), chain.blocks[k]? = some b → b.index = UInt64.ofNat k
  noted : ∀ (k : Nat) (note : AuditNote), notes[k]? = some note → ∃ b, chain.blocks[k + 1]? = some b ∧
    (note.Text rt b.data ∨ b.data = "[REDACTED]" ∧ blank (k + 1))

/-- The blocks are the notes, blank where a request has asked for it. The entries noted are those of
the journal and those on their way to it, the other notes are those of the requests that were completed, and a
transfer that has its block was told where it is. -/
structure AuditTrail {I : Type} [Fintype I] (rt : TransactionRuntime) (c : Config I Books AuditWorker)
    (notes : List AuditNote) : Prop where
  noted : Noted rt c.shared.hashChain (fun k => ∃ i, (c.thread i).hasRedacted k) notes
  entries : (notes.filterMap AuditNote.entry? : Multiset JournalEntry) =
    c.shared.journal + ∑ i, ((c.thread i).pushing.toList : Multiset JournalEntry)
  others : (notes.filterMap AuditNote.other? : Multiset AuditNote) =
    ∑ i, ((c.thread i).completed.toList : Multiset AuditNote)
  receipts : ∀ i, (c.thread i).Receipted notes

section Chain

variable {rt : TransactionRuntime} {chain : HashChain} {blank : Nat → Prop} {notes : List AuditNote}

theorem Noted.new (now : Timestamp) : Noted rt (.new rt.hashing now) blank [] where
  length := rfl
  indexed k b found := by
    rw [HashChain.new, List.getElem?_singleton] at found
    split at found
    next zero =>
      cases found
      rw [zero]
      rfl
    next => cases found
  noted k note found := by simp at found

theorem Noted.mono {blank' : Nat → Prop} (noted : Noted rt chain blank notes) (grows : ∀ k, blank k → blank' k) :
    Noted rt chain blank' notes where
  length := noted.length
  indexed := noted.indexed
  noted k note found := by
    obtain ⟨b, at_k, text⟩ := noted.noted k note found
    exact ⟨b, at_k, text.imp_right fun redacted => ⟨redacted.1, grows _ redacted.2⟩⟩

theorem Noted.next_index (noted : Noted rt chain blank notes) (now : Timestamp) (data : String) :
    (chain.append rt.hashing now data).1.index = UInt64.ofNat (notes.length + 1) := by
  have last : chain.blocks[notes.length]? = some (chain.blocks.getLast chain.nonempty) := by
    rw [← List.getLast?_eq_some_getLast chain.nonempty, List.getLast?_eq_getElem?, noted.length,
      Nat.add_sub_cancel]
  have index : (chain.append rt.hashing now data).1.index =
      (chain.blocks.getLast chain.nonempty).index + 1 := rfl
  rw [index, noted.indexed _ _ last, UInt64.ofNat_add]
  rfl

theorem Noted.append (noted : Noted rt chain blank notes) (now : Timestamp) {note : AuditNote} {data : String}
    (text : note.Text rt data) :
    Noted rt (chain.append rt.hashing now data).2 blank (notes ++ [note]) where
  length := by simp [HashChain.append, noted.length]
  indexed k b found := by
    rw [HashChain.append, List.getElem?_append] at found
    split at found
    next => exact noted.indexed k b found
    next late =>
      rw [List.getElem?_singleton] at found
      split at found
      next zero =>
        cases found
        have place : k = notes.length + 1 := by
          have length := noted.length
          omega
        rw [place]
        exact noted.next_index now data
      next => cases found
  noted k said found := by
    rw [List.getElem?_append] at found
    split at found
    next early =>
      obtain ⟨b, at_k, text⟩ := noted.noted k said found
      exact ⟨b, by rwa [HashChain.append, List.getElem?_append_left (by rw [noted.length]; omega)], text⟩
    next late =>
      rw [List.getElem?_singleton] at found
      split at found
      next zero =>
        cases found
        have place : k + 1 - chain.blocks.length = 0 := by
          have length := noted.length
          omega
        refine ⟨(chain.append rt.hashing now data).1, ?_, .inl text⟩
        rw [HashChain.append, List.getElem?_append_right (by rw [noted.length]; omega), place]
        rfl
      next => cases found

variable (rt chain) in
theorem length_redact (index : UInt64) : (chain.redact rt.hashing index).2.blocks.length = chain.blocks.length := by
  have lengths := congrArg List.length (redact_content rt.hashing chain index)
  rw [List.length_map, List.length_map] at lengths
  rw [lengths]
  split <;> simp

theorem redact_place (rt : TransactionRuntime) (index : UInt64) {k : Nat} {b : HashLink}
    (found : chain.blocks[k]? = some b) :
    ∃ b', (chain.redact rt.hashing index).2.blocks[k]? = some b' ∧ b'.index = b.index ∧
      (b'.data = b.data ∨ b'.data = "[REDACTED]" ∧ index.toNat = k) := by
  have contents := congrArg (fun list => list[k]?) (redact_content rt.hashing chain index)
  simp only [List.getElem?_map] at contents
  have kept (same : (chain.redact rt.hashing index).2.blocks[k]?.map content = some b.content) :
      ∃ b', (chain.redact rt.hashing index).2.blocks[k]? = some b' ∧ b'.index = b.index ∧
        (b'.data = b.data ∨ b'.data = "[REDACTED]" ∧ index.toNat = k) := by
    obtain ⟨b', at_k, fields⟩ := Option.map_eq_some_iff.mp same
    simp only [HashLink.content, Prod.mk.injEq] at fields
    exact ⟨b', at_k, fields.1, .inl fields.2.1⟩
  split at contents
  next => exact kept (contents.trans (by rw [found, Option.map_some]))
  next =>
    rw [List.getElem?_modify, found] at contents
    by_cases here : index.toNat = k
    next =>
      obtain ⟨b', at_k, fields⟩ := Option.map_eq_some_iff.mp (contents.trans (by simp [here]; rfl))
      simp only [HashLink.content, HashLink.redacted, Prod.mk.injEq] at fields
      exact ⟨b', at_k, fields.1, .inr ⟨fields.2.1, here⟩⟩
    next => exact kept (contents.trans (by simp [here]))

theorem Noted.redact (noted : Noted rt chain blank notes) (index : UInt64) :
    Noted rt (chain.redact rt.hashing index).2 (fun k => blank k ∨ index.toNat = k) notes where
  length := (length_redact rt chain index).trans noted.length
  indexed k b' found := by
    have within : k < chain.blocks.length :=
      (List.getElem?_eq_some_iff.mp found).1.trans_eq (length_redact rt chain index)
    obtain ⟨b'', at_k, same, -⟩ := redact_place rt index (List.getElem?_eq_getElem within)
    obtain rfl := Option.some.inj (found.symm.trans at_k)
    exact same.trans (noted.indexed k _ (List.getElem?_eq_getElem within))
  noted k note found := by
    obtain ⟨b, at_k, text⟩ := noted.noted k note found
    obtain ⟨b', at_k', -, data⟩ := redact_place rt index at_k
    refine ⟨b', at_k', ?_⟩
    rcases data with same | gone
    next =>
      rw [same]
      exact text.imp_right fun redacted => ⟨redacted.1, .inl redacted.2⟩
    next => exact .inr ⟨gone.1, .inr gone.2⟩

end Chain

section Steps

variable {rt : TransactionRuntime} {books books' : Books} {worker worker' : AuditWorker}

inductive Recording (rt : TransactionRuntime) (books : Books) (worker : AuditWorker) (books' : Books)
    (worker' : AuditWorker) : Prop where
  | quiet (chain : books'.hashChain = books.hashChain) (journal : books'.journal = books.journal)
      (idle : worker.pushing = none) (idle' : worker'.pushing = none)
      (completed : worker'.completed = worker.completed)
      (receipt : worker'.receipt = none ∨ worker'.receipt = worker.receipt) :
      Recording rt books worker books' worker'
  | append (now : Timestamp) (note : AuditNote) (data : String) (text : note.Text rt data)
      (chain : books'.hashChain = (books.hashChain.append rt.hashing now data).2)
      (journal : books'.journal = books.journal) (idle : worker.pushing = none)
      (pushing : worker'.pushing = note.entry?) (incomplete : worker.completed = none)
      (completed : worker'.completed = note.other?)
      (receipt : ∀ index id, worker'.receipt = some (index, id) →
        ∃ e, note = .entry e ∧ index = (books.hashChain.append rt.hashing now data).1.index ∧ id = e.id) :
      Recording rt books worker books' worker'
  | push (e : JournalEntry) (chain : books'.hashChain = books.hashChain)
      (journal : books'.journal = books.journal ++ [e]) (pushing : worker.pushing = some e)
      (idle' : worker'.pushing = none) (completed : worker'.completed = worker.completed)
      (receipt : worker'.receipt = none ∨ worker'.receipt = worker.receipt) : Recording rt books worker books' worker'
  | redact (index : UInt64) (chain : books'.hashChain = (books.hashChain.redact rt.hashing index).2)
      (journal : books'.journal = books.journal) (before : worker = .redactBlock index false)
      (after : worker' = .redactBlock index true) : Recording rt books worker books' worker'

theorem transferStep_recording {call : TransferCall} {pc pc' : TransferPc}
    (wf : (AuditWorker.entry (.transfer call pc)).WF rt)
    (step : transferStep rt.toRuntime call books pc = some (books', pc')) :
    (AuditWorker.entry (.transfer call pc')).WF rt ∧
      Recording rt books (.entry (.transfer call pc)) books' (.entry (.transfer call pc')) := by
  cases pc with
  | start =>
    simp only [transferStep] at step
    split at step <;> cases step <;> exact ⟨trivial, .quiet rfl rfl rfl rfl rfl (.inl rfl)⟩
  | snapshot =>
    simp only [transferStep] at step
    split at step <;> cases step <;> exact ⟨trivial, .quiet rfl rfl rfl rfl rfl (.inl rfl)⟩
  | drawSequence =>
    simp only [transferStep] at step
    split at step
    next =>
      cases step
      exact ⟨trivial, .quiet rfl rfl rfl rfl rfl (.inl rfl)⟩
    next entry built =>
      have reverses := (new_fits built).2.2.2
      split at step
      next =>
        cases step
        exact ⟨trivial, .quiet rfl rfl rfl rfl rfl (.inl rfl)⟩
      next chainData serialized =>
        cases step
        exact ⟨⟨reverses, serialized⟩, .quiet rfl rfl rfl rfl rfl (.inl rfl)⟩
  | appendChain entry chainData =>
    cases step
    refine ⟨trivial, .append call.draws.blockTime (.entry entry) chainData ?_ rfl rfl rfl rfl rfl rfl ?_⟩
    next => simpa only [AuditNote.Text, wf.1] using wf.2
    next =>
      intro index id told
      cases told
      exact ⟨entry, rfl, rfl, rfl⟩
  | pushJournal entry block =>
    cases step
    exact ⟨trivial, .push entry rfl rfl rfl rfl rfl (.inr rfl)⟩
  | debiting entry block inner =>
    obtain ⟨⟨accounts, next⟩, -, same⟩ := Option.map_eq_some_iff.mp step
    cases same
    rcases next with _ | _ | _ | _ | (_ | _)
    case returned.error => exact ⟨trivial, .quiet rfl rfl rfl rfl rfl (.inl rfl)⟩
    all_goals exact ⟨trivial, .quiet rfl rfl rfl rfl rfl (.inr rfl)⟩
  | crediting entry block inner =>
    obtain ⟨⟨accounts, next⟩, -, same⟩ := Option.map_eq_some_iff.mp step
    cases same
    rcases next with _ | _ | _ | _ | _ | (_ | _)
    case returned.error => exact ⟨trivial, .quiet rfl rfl rfl rfl rfl (.inl rfl)⟩
    all_goals exact ⟨trivial, .quiet rfl rfl rfl rfl rfl (.inr rfl)⟩
  | rollingBack e inner =>
    obtain ⟨⟨accounts, next⟩, -, same⟩ := Option.map_eq_some_iff.mp step
    cases same
    cases next <;> exact ⟨trivial, .quiet rfl rfl rfl rfl rfl (.inl rfl)⟩
  | logRollback e refund =>
    cases step
    exact ⟨trivial, .quiet rfl rfl rfl rfl rfl (.inl rfl)⟩
  | readFrom entry block =>
    simp only [transferStep] at step
    split at step
    next =>
      cases step
      exact ⟨trivial, .quiet rfl rfl rfl rfl rfl (.inl rfl)⟩
    next =>
      cases step
      exact ⟨trivial, .quiet rfl rfl rfl rfl rfl (.inr rfl)⟩
  | readTo entry block fromBalance =>
    simp only [transferStep] at step
    split at step
    next =>
      cases step
      exact ⟨trivial, .quiet rfl rfl rfl rfl rfl (.inl rfl)⟩
    next =>
      cases step
      exact ⟨trivial, .quiet rfl rfl rfl rfl rfl (.inr rfl)⟩
  | returned result => cases step

theorem postRest_pushing (reversal : JournalEntry) (legs : List EntryLeg) {call : ReversalCall} :
    (EntryWorker.reversal call (.postRest reversal legs)).pushing = none := by
  cases legs with
  | nil => rfl
  | cons leg rest => cases side : leg.side <;> simp [ReversalPc.postRest, side, EntryWorker.pushing]

theorem reversalStep_recording {call : ReversalCall} {pc pc' : ReversalPc} (names : pc.Names call.entryId)
    (step : reversalStep rt.toRuntime call books pc = some (books', pc')) :
    Recording rt books (.entry (.reversal call pc)) books' (.entry (.reversal call pc')) := by
  cases pc with
  | start =>
    simp only [reversalStep] at step
    split at step <;> cases step <;> exact .quiet rfl rfl rfl rfl rfl (.inl rfl)
  | drawSequence original =>
    simp only [reversalStep] at step
    split at step
    next =>
      cases step
      exact .quiet rfl rfl rfl rfl rfl (.inl rfl)
    next reversal built =>
      cases step
      exact .quiet rfl rfl rfl (postRest_pushing reversal reversal.legs) rfl (.inl rfl)
  | debiting reversal leg rest inner =>
    obtain ⟨⟨accounts, next⟩, -, same⟩ := Option.map_eq_some_iff.mp step
    cases same
    rcases next with _ | _ | _ | _ | (_ | _)
    case returned.ok => exact .quiet rfl rfl rfl (postRest_pushing reversal rest) rfl (.inl rfl)
    all_goals exact .quiet rfl rfl rfl rfl rfl (.inl rfl)
  | crediting reversal leg rest inner =>
    obtain ⟨⟨accounts, next⟩, -, same⟩ := Option.map_eq_some_iff.mp step
    cases same
    rcases next with _ | _ | _ | _ | _ | (_ | _)
    case returned.ok => exact .quiet rfl rfl rfl (postRest_pushing reversal rest) rfl (.inl rfl)
    all_goals exact .quiet rfl rfl rfl rfl rfl (.inl rfl)
  | appendChain reversal =>
    cases step
    have reverses : reversal.reverses = some call.entryId := names
    refine .append call.draws.blockTime (.entry reversal) _ ?_ rfl rfl rfl rfl rfl rfl ?_
    next => simp only [AuditNote.Text, reverses]
    next =>
      intro index id told
      cases told
  | pushJournal reversal =>
    cases step
    exact .push reversal rfl rfl rfl rfl rfl (.inl rfl)
  | returned result => cases step

theorem statusCallStep_recording {call : StatusCall} {pc pc' : StatusCallPc}
    (step : statusCallStep rt.toRuntime call books pc = some (books', pc')) :
    Recording rt books (.status call pc) books' (.status call pc') := by
  cases pc with
  | start =>
    simp only [statusCallStep] at step
    split at step
    next =>
      split at step
      next =>
        cases step
        exact .quiet rfl rfl rfl rfl rfl (.inl rfl)
      next => split at step <;> cases step <;> exact .quiet rfl rfl rfl rfl rfl (.inl rfl)
    next =>
      cases step
      exact .quiet rfl rfl rfl rfl rfl (.inl rfl)
  | set newStatus =>
    simp only [statusCallStep] at step
    -- which of the two calls it is decides what it has to note
    cases call with
    | setAccountStatus admitted id status =>
      split at step <;> cases step <;> exact .quiet rfl rfl rfl rfl rfl (.inl rfl)
    | coaDeactivate id blockTime => split at step <;> cases step <;> exact .quiet rfl rfl rfl rfl rfl (.inl rfl)
  | finish =>
    simp only [statusCallStep] at step
    split at step
    next => split at step <;> cases step <;> exact .quiet rfl rfl rfl rfl rfl (.inl rfl)
    next id blockTime =>
      cases step
      refine .append blockTime (.deactivation id) _ rfl rfl rfl rfl rfl rfl rfl ?_
      intro index id told
      cases told
  | returned result => cases step

theorem auditStep_recording (wf : worker.WF rt)
    (step : (auditSystem rt).step books worker = some (books', worker')) :
    worker'.WF rt ∧ Recording rt books worker books' worker' := by
  cases worker with
  | entry w =>
    obtain ⟨⟨next, w'⟩, inner, same⟩ := Option.map_eq_some_iff.mp step
    cases same
    cases w with
    | transfer call pc =>
      obtain ⟨⟨_, pc'⟩, taken, same⟩ := Option.map_eq_some_iff.mp inner
      cases same
      exact transferStep_recording wf taken
    | reversal call pc =>
      obtain ⟨⟨_, pc'⟩, taken, same⟩ := Option.map_eq_some_iff.mp inner
      cases same
      exact ⟨(reversalStep_reversals call.entryId wf taken).1, reversalStep_recording wf taken⟩
  | status call pc =>
    obtain ⟨⟨_, pc'⟩, taken, same⟩ := Option.map_eq_some_iff.mp step
    cases same
    exact ⟨trivial, statusCallStep_recording taken⟩
  | transaction draws req returned =>
    cases returned with
    | true => cases step
    | false =>
      simp only [auditSystem] at step
      split at step
      next nothing =>
        cases step
        refine ⟨trivial, .quiet rfl rfl rfl rfl ?_ (.inl rfl)⟩
        simp only [AuditWorker.completed, nothing, Option.map_none]
      next action id noted =>
        cases step
        refine ⟨trivial, .append draws.blockTime (.completion action id) _ rfl rfl rfl rfl rfl rfl ?_ ?_⟩
        next => simp only [AuditWorker.completed, noted, Option.map_some, AuditNote.other?]
        next =>
          intro index id told
          cases told
  | redactBlock index returned =>
    cases returned with
    | true => cases step
    | false =>
      cases step
      exact ⟨trivial, .redact index rfl rfl rfl rfl⟩

end Steps

section Runs

variable {I : Type} [Fintype I] [DecidableEq I] {rt : TransactionRuntime} {c : Config I Books AuditWorker} {i : I}
  {books : Books} {worker : AuditWorker} {notes : List AuditNote}

theorem AuditWorker.Receipted.mono {notes' : List AuditNote} (told : worker.Receipted notes) :
    worker.Receipted (notes ++ notes') := by
  intro index id receipt
  obtain ⟨k, e, at_k, place⟩ := told index id receipt
  have within := (List.getElem?_eq_some_iff.mp at_k).1
  exact ⟨k, e, by rwa [List.getElem?_append_left within], place⟩

theorem AuditWorker.Receipted.kept {worker' : AuditWorker} (told : worker.Receipted notes)
    (receipt : worker'.receipt = none ∨ worker'.receipt = worker.receipt) : worker'.Receipted notes := by
  intro index id now
  rcases receipt with gone | same
  next => cases gone.symm.trans now
  next => exact told index id (same.symm.trans now)

omit [Fintype I] in
theorem redacted_grows (step : (auditSystem rt).step c.shared (c.thread i) = some (books, worker)) (k : Nat)
    (redacted : ∃ j, (c.thread j).hasRedacted k) :
    ∃ j, (Function.update c.thread i worker j).hasRedacted k := by
  obtain ⟨j, redacted⟩ := redacted
  have other : j ≠ i := by
    intro same
    rw [← same] at step
    generalize c.thread j = here at step redacted
    cases here with
    | redactBlock index returned =>
      cases returned with
      | true => cases step
      | false => cases redacted
    | _ => cases redacted
  exact ⟨j, by rwa [Function.update_of_ne other]⟩

omit [Fintype I] in
theorem receipts_update (own : worker.Receipted notes) (others : ∀ j, (c.thread j).Receipted notes) :
    ∀ j, (Function.update c.thread i worker j).Receipted notes :=
  forall_update (fun _ w => AuditWorker.Receipted notes w) own others

theorem AuditTrail.step (trail : AuditTrail rt c notes) (wf : (c.thread i).WF rt)
    (step : (auditSystem rt).step c.shared (c.thread i) = some (books, worker)) :
    ∃ notes', AuditTrail rt ⟨books, Function.update c.thread i worker⟩ notes' := by
  have blanks := trail.noted.mono (redacted_grows step)
  have total := sum_update_balance (fun w : AuditWorker => (w.pushing.toList : Multiset JournalEntry)) c.thread i worker
  have completions := sum_update_balance (fun w : AuditWorker => (w.completed.toList : Multiset AuditNote)) c.thread i
    worker
  have kept (completed : worker.completed = (c.thread i).completed) :
      (notes.filterMap AuditNote.other? : Multiset AuditNote) =
        ∑ j, ((Function.update c.thread i worker j).completed.toList : Multiset AuditNote) := by
    rw [completed] at completions
    rw [trail.others, add_right_cancel completions]
  cases (auditStep_recording wf step).2 with
  | quiet chain journal idle idle' completed receipt =>
    refine ⟨notes, chain ▸ blanks, ?_, kept completed, receipts_update ((trail.receipts i).kept receipt) trail.receipts⟩
    simp only [idle, idle', Option.toList_none, Multiset.coe_nil, add_zero] at total
    rw [trail.entries, journal, total]
  | append now note data text chain journal idle pushing incomplete completed receipt =>
    refine ⟨notes ++ [note], chain ▸ blanks.append now text, ?_, ?_,
      receipts_update ?_ fun j => (trail.receipts j).mono⟩
    next =>
      simp only [idle, pushing, Option.toList_none, Multiset.coe_nil, add_zero] at total
      rw [List.filterMap_append, ← Multiset.coe_add, trail.entries, journal, total, add_assoc]
      cases note <;> rfl
    next =>
      simp only [incomplete, completed, Option.toList_none, Multiset.coe_nil, add_zero] at completions
      rw [List.filterMap_append, ← Multiset.coe_add, trail.others, completions]
      cases note <;> rfl
    next =>
      intro index id told
      obtain ⟨e, rfl, place, same⟩ := receipt index id told
      exact ⟨notes.length, e, by simp, place.trans (trail.noted.next_index now data), same⟩
  | push e chain journal pushing idle' completed receipt =>
    refine ⟨notes, chain ▸ blanks, ?_, kept completed, receipts_update ((trail.receipts i).kept receipt) trail.receipts⟩
    simp only [idle', pushing, Option.toList_none, Option.toList_some, Multiset.coe_nil, add_zero] at total
    rw [trail.entries, journal, ← Multiset.coe_add, ← total, add_assoc (c.shared.journal : Multiset JournalEntry),
      add_comm ([e] : Multiset JournalEntry)]
  | redact index chain journal before after =>
    have idle : (c.thread i).pushing = none := by
      rw [before]
      rfl
    have idle' : worker.pushing = none := by
      rw [after]
      rfl
    have quiet : worker.receipt = none ∨ worker.receipt = (c.thread i).receipt := by
      rw [after]
      exact .inl rfl
    have unchanged : worker.completed = (c.thread i).completed := by
      rw [before, after]
      rfl
    refine ⟨notes, ?_, ?_, kept unchanged, receipts_update ((trail.receipts i).kept quiet) trail.receipts⟩
    next =>
      have noted := blanks.redact index
      rw [← chain] at noted
      refine noted.mono fun k blank => blank.elim id fun here => ⟨i, ?_⟩
      change (Function.update c.thread i worker i).hasRedacted k
      rw [Function.update_self, after]
      exact decide_eq_true here
    next =>
      simp only [idle, idle', Option.toList_none, Multiset.coe_nil, add_zero] at total
      rw [trail.entries, journal, total]

omit [DecidableEq I] in
theorem auditStart_trail (accounts : Accounts) (start : Timestamp) (requests : I → AuditRequest) :
    AuditTrail rt (auditStart (.opened accounts (.new rt.hashing start)) requests) [] := by
  have idle (request : AuditRequest) : request.worker.pushing = none ∧ request.worker.receipt = none ∧
      request.worker.completed = none := by
    cases request with
    | entry call => cases call <;> exact ⟨rfl, rfl, rfl⟩
    | status call => cases call <;> exact ⟨rfl, rfl, rfl⟩
    | _ => exact ⟨rfl, rfl, rfl⟩
  refine ⟨Noted.new start, ?_, ?_, fun i index id told => ?_⟩
  next => simp [auditStart, Books.opened, idle]
  next => simp [auditStart, idle]
  next => cases (idle (requests i)).2.1.symm.trans told

structure Audited (rt : TransactionRuntime) (c : Config I Books AuditWorker) : Prop where
  chained : (scheme rt.hashing).Chained zeros c.shared.hashChain.blocks
  wf : ∀ i, (c.thread i).WF rt
  trail : ∃ notes, AuditTrail rt c notes

omit [DecidableEq I] in
theorem auditStart_audited (accounts : Accounts) (start : Timestamp) (requests : I → AuditRequest) :
    Audited rt (auditStart (.opened accounts (.new rt.hashing start)) requests) where
  chained := ⟨⟨rfl, trivial⟩, rfl, trivial⟩
  wf i := by
    simp only [auditStart]
    cases requests i with
    | entry call => cases call <;> exact trivial
    | _ => exact trivial
  trail := ⟨[], auditStart_trail accounts start requests⟩

theorem Audited.step (audited : Audited rt c)
    (step : (auditSystem rt).step c.shared (c.thread i) = some (books, worker)) :
    Audited rt ⟨books, Function.update c.thread i worker⟩ := by
  obtain ⟨wf, recording⟩ := auditStep_recording (audited.wf i) step
  obtain ⟨notes, trail⟩ := audited.trail
  constructor
  case chained =>
    cases recording with
    | quiet chain => exact chain ▸ audited.chained
    | append now note data text chain => exact chain ▸ append_chained rt.hashing audited.chained now data
    | push e chain => exact chain ▸ audited.chained
    | redact index chain => exact chain ▸ redact_chained rt.hashing audited.chained index
  case wf => exact forall_update (fun _ w => AuditWorker.WF rt w) wf audited.wf
  case trail => exact trail.step (audited.wf i) step

end Runs

/-- The chain verifies whatever the requests do to the books at once, and it is a complete record of
it: one block for each entry of the journal, for each entry on its way to it and for each other
completed request, and nothing else. Once no entry is on its way, those noted are the journal's. -/
theorem audit_trail_complete {I : Type} [Fintype I] [DecidableEq I] (rt : TransactionRuntime) (accounts : Accounts)
    (start : Timestamp) (requests : I → AuditRequest) (schedule : List I) :
    let c := (auditSystem rt).run (auditStart (.opened accounts (.new rt.hashing start)) requests) schedule
    c.shared.hashChain.verifyChain rt.hashing = (true, []) ∧
      ∃ notes, AuditTrail rt c notes ∧
        ((∀ i, (c.thread i).pushing = none) →
          (notes.filterMap AuditNote.entry?).Perm c.shared.journal) := by
  intro c
  have audited : Audited rt c := (auditSystem rt).run_invariant (fun _ _ _ _ before step => before.step step) _
    schedule (auditStart_audited accounts start requests)
  obtain ⟨notes, trail⟩ := audited.trail
  refine ⟨(verifyChain_eq rt.hashing c.shared.hashChain).mpr audited.chained, notes, trail, fun filed => ?_⟩
  have entries := trail.entries
  simp only [filed, Option.toList_none, Multiset.coe_nil, Finset.sum_const_zero, add_zero] at entries
  exact Multiset.coe_eq_coe.mp entries

end BankingLedger
