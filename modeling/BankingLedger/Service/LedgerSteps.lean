import BankingLedger.Service.LedgerService
import BankingLedger.Service.SharedAccounts

set_option autoImplicit false

namespace BankingLedger

open FiniteMap MachineInt Interleaving
open Account (Moved)

-- The sections under the locks of the journal and of the transactions are one step each, the operations on the
-- accounts are taken atomic step by atomic step.
inductive LegPc where
  | debit (pc : DebitPc)
  | credit (pc : CreditPc)
  | missing
deriving DecidableEq

namespace LegPc

def start : EntrySide → LegPc
  | .debit => .debit .start
  | .credit => .credit .start

def result (leg : EntryLeg) : LegPc → Option (Except LedgerError Unit)
  | .debit (.returned (.ok _)) | .credit (.returned (.ok _)) => some (.ok ())
  | .debit (.returned (.error e)) => some (.error (.debitError leg.accountId e))
  | .credit (.returned (.error e)) => some (.error (.creditError leg.accountId e))
  | .missing => some (.error (.accountNotFound leg.accountId))
  | _ => none

def appliedBalance (leg : EntryLeg) : LegPc → Int
  | .debit pc => pc.appliedBalance leg.amountCents
  | .credit pc => pc.appliedBalance leg.amountCents
  | .missing => 0

def appliedAvailable (leg : EntryLeg) : LegPc → Int
  | .debit pc => pc.appliedAvailable leg.amountCents
  | .credit pc => pc.appliedAvailable leg.amountCents
  | .missing => 0

def WF (leg : EntryLeg) : LegPc → Prop
  | .debit pc => leg.side = .debit ∧ pc.WF leg.amountCents
  | .credit pc => leg.side = .credit ∧ pc.WF leg.amountCents
  | .missing => True

end LegPc

def legStep (leg : EntryLeg) (a : Account) : LegPc → Option (Account × LegPc)
  | .debit pc => (debitStep leg.amountCents a pc).map fun next => (next.1, .debit next.2)
  | .credit pc => (creditStep leg.amountCents a pc).map fun next => (next.1, .credit next.2)
  | .missing => none

def legAt (leg : EntryLeg) : Accounts → LegPc → Option (Accounts × LegPc) :=
  atAccount (legStep leg) .missing leg.accountId

inductive LedgerPc where
  | start
  | beginTxn (originalEntryId : JournalEntryId) (original : JournalEntry)
  | append (original : JournalEntry) (newTxnId : TransactionId)
  | posting (entry : JournalEntry) (leg : EntryLeg) (rest : List EntryLeg) (pc : LegPc)
  | commit (entry : JournalEntry) (transactionId : TransactionId)
  | returned (result : Except LedgerError JournalEntry)

structure LedgerThread where
  call : LedgerCall
  draws : LedgerDraws
  posted : List EntryLeg
  pc : LedgerPc

namespace LedgerThread

def goto (t : LedgerThread) (pc : LedgerPc) : LedgerThread := { t with pc }

def transactionId (t : LedgerThread) : Option TransactionId :=
  match t.call with
  | .recordEntry transactionId _ _ => some transactionId
  | .recordTransfer transactionId _ _ _ _ => some transactionId
  | .reverseEntry .. => none

def postRest (t : LedgerThread) (entry : JournalEntry) : List EntryLeg → LedgerThread
  | leg :: rest => t.goto (.posting entry leg rest (.start leg.side))
  | [] =>
    match t.transactionId with
    | none => t.goto (.returned (.ok entry))
    | some transactionId => t.goto (.commit entry transactionId)

-- The section under the journal's write lock, and the first leg to post.
def record (t : LedgerThread) (build : Nat → Except JournalError JournalEntry) (svc : LedgerService) :
    LedgerService × LedgerThread :=
  match svc.journal.record build with
  | (.error e, journal) => ({ svc with journal }, t.goto (.returned (.error (.journalError e))))
  | (.ok entry, journal) => ({ svc with journal }, t.postRest entry entry.legs)

def afterLeg (t : LedgerThread) (entry : JournalEntry) (leg : EntryLeg) (rest : List EntryLeg)
    (pc : LegPc) : LedgerThread :=
  match pc.result leg with
  | none => t.goto (.posting entry leg rest pc)
  | some (.error e) => t.goto (.returned (.error e))
  | some (.ok ()) => { t with posted := t.posted ++ [leg] }.postRest entry rest

end LedgerThread

def ledgerStep (printUuid : Uuid → String) (svc : LedgerService) (t : LedgerThread) :
    Option (LedgerService × LedgerThread) :=
  match t.pc with
  | .start =>
    match t.call with
    | .recordEntry transactionId legs description =>
      some (t.record (fun sequence => JournalEntry.new t.draws.entryId t.draws.recordedAt transactionId
        sequence legs description) svc)
    | .recordTransfer transactionId fromAccount toAccount amountCents description =>
      some (t.record (fun sequence => JournalEntry.new t.draws.entryId t.draws.recordedAt transactionId
        sequence (LedgerService.transferLegs fromAccount toAccount amountCents) description) svc)
    | .reverseEntry originalEntryId _ =>
      match svc.journal.entries.find? fun e => e.id = originalEntryId with
      | none => some (svc, t.goto (.returned (.error (.entryNotFound originalEntryId))))
      | some original => some (svc, t.goto (.beginTxn originalEntryId original))
  | .beginTxn originalEntryId original =>
    let begun := svc.beginTransaction t.draws ("REV-" ++ printUuid originalEntryId)
    some (begun.2, t.goto (.append original begun.1))
  | .append original newTxnId =>
    some (t.record (fun sequence => original.reverse printUuid t.draws.entryId t.draws.recordedAt
      newTxnId sequence) svc)
  | .posting entry leg rest pc =>
    (legAt leg svc.accounts pc).map fun next =>
      ({ svc with accounts := next.1 }, t.afterLeg entry leg rest next.2)
  | .commit entry transactionId =>
    some (svc.commitTransaction t.draws transactionId, t.goto (.returned (.ok entry)))
  | .returned _ => none

def ledgerSystem (printUuid : Uuid → String) : System LedgerService LedgerThread where
  step := ledgerStep printUuid

def LedgerCall.thread (call : LedgerCall) (draws : LedgerDraws) : LedgerThread :=
  { call, draws, posted := [], pc := .start }

section Inversion

variable (printUuid : Uuid → String) (svc svc' : LedgerService) (t t' : LedgerThread)

/-- What a step can be. The two recording calls write their entry in the first one; a reversal
looks its original up, begins a transaction, and writes. -/
inductive LedgerTurn : Prop where
  | record (at_pc : t.pc = .start) (transactionId : TransactionId) (legs : List EntryLeg)
      (description : String)
      (written : t.record (fun sequence => JournalEntry.new t.draws.entryId t.draws.recordedAt
        transactionId sequence legs description) svc = (svc', t'))
  | unknown (at_pc : t.pc = .start) (originalEntryId : JournalEntryId) (same : svc' = svc)
      (next : t' = t.goto (.returned (.error (.entryNotFound originalEntryId))))
  | found (at_pc : t.pc = .start) (originalEntryId : JournalEntryId) (original : JournalEntry)
      (member : original ∈ svc.journal.entries) (same : svc' = svc)
      (next : t' = t.goto (.beginTxn originalEntryId original))
  | begun (originalEntryId : JournalEntryId) (original : JournalEntry) (newTxnId : TransactionId)
      (at_pc : t.pc = .beginTxn originalEntryId original)
      (journal : svc'.journal = svc.journal) (accounts : svc'.accounts = svc.accounts)
      (next : t' = t.goto (.append original newTxnId))
  | reverse (original : JournalEntry) (newTxnId : TransactionId)
      (at_pc : t.pc = .append original newTxnId)
      (written : t.record (fun sequence => original.reverse printUuid t.draws.entryId
        t.draws.recordedAt newTxnId sequence) svc = (svc', t'))
  | post (entry : JournalEntry) (leg : EntryLeg) (rest : List EntryLeg) (pc pc' : LegPc)
      (accounts : Accounts) (at_pc : t.pc = .posting entry leg rest pc)
      (taken : legAt leg svc.accounts pc = some (accounts, pc'))
      (same : svc' = { svc with accounts }) (next : t' = t.afterLeg entry leg rest pc')
  | commit (entry : JournalEntry) (transactionId : TransactionId)
      (at_pc : t.pc = .commit entry transactionId)
      (journal : svc'.journal = svc.journal) (accounts : svc'.accounts = svc.accounts)
      (next : t' = t.goto (.returned (.ok entry)))

variable {printUuid svc svc' t t'}

theorem ledgerStep_cases (step : ledgerStep printUuid svc t = some (svc', t')) :
    LedgerTurn printUuid svc svc' t t' := by
  unfold ledgerStep at step
  cases at_pc : t.pc with
  | start =>
    simp only [at_pc] at step
    cases named : t.call with
    | recordEntry transactionId legs description =>
      simp only [named, Option.some.injEq] at step
      exact .record at_pc transactionId legs description step
    | recordTransfer transactionId fromAccount toAccount amountCents description =>
      simp only [named, Option.some.injEq] at step
      exact .record at_pc transactionId _ description step
    | reverseEntry originalEntryId reason =>
      simp only [named] at step
      cases found : svc.journal.entries.find? fun e => e.id = originalEntryId with
      | none =>
        simp only [found] at step
        cases step
        exact .unknown at_pc originalEntryId rfl rfl
      | some original =>
        simp only [found] at step
        cases step
        exact .found at_pc originalEntryId original (List.mem_of_find?_eq_some found) rfl rfl
  | beginTxn originalEntryId original =>
    simp only [at_pc] at step
    cases step
    exact .begun originalEntryId original _ at_pc rfl rfl rfl
  | append original newTxnId =>
    simp only [at_pc, Option.some.injEq] at step
    exact .reverse original newTxnId at_pc step
  | posting entry leg rest pc =>
    simp only [at_pc, Option.map_eq_some_iff] at step
    obtain ⟨⟨accounts, pc'⟩, taken, same⟩ := step
    cases same
    exact .post entry leg rest pc pc' accounts at_pc taken rfl rfl
  | commit entry transactionId =>
    simp only [at_pc, Option.some.injEq, Prod.mk.injEq] at step
    obtain ⟨rfl, rfl⟩ := step
    exact .commit entry transactionId at_pc (svc.commitTransaction_journal ..)
      (svc.commitTransaction_accounts ..) rfl
  | returned result => simp [at_pc] at step

end Inversion

section Journal

def LedgerPc.written : LedgerPc → Bool
  | .start | .beginTxn .. | .append .. => false
  | .posting .. | .commit .. | .returned _ => true

def LedgerThread.held (t : LedgerThread) : Option JournalEntry :=
  match t.pc with
  | .beginTxn _ original | .append original _ => some original
  | .posting entry .. | .commit entry _ | .returned (.ok entry) => some entry
  | .start | .returned (.error _) => none

namespace LedgerThread

variable (t : LedgerThread) (entry : JournalEntry) (legs : List EntryLeg)

@[simp] theorem goto_draws (pc : LedgerPc) : (t.goto pc).draws = t.draws := rfl
@[simp] theorem goto_pc (pc : LedgerPc) : (t.goto pc).pc = pc := rfl
@[simp] theorem goto_posted (pc : LedgerPc) : (t.goto pc).posted = t.posted := rfl

theorem postRest_spec : (t.postRest entry legs).draws = t.draws ∧
    (t.postRest entry legs).pc.written ∧ (t.postRest entry legs).held = some entry ∧
    (t.postRest entry legs).posted = t.posted := by
  cases legs with
  | cons leg rest => exact ⟨rfl, rfl, rfl, rfl⟩
  | nil =>
    unfold postRest
    cases t.transactionId <;> exact ⟨rfl, rfl, rfl, rfl⟩

theorem afterLeg_spec (leg : EntryLeg) (pc : LegPc) :
    (t.afterLeg entry leg legs pc).draws = t.draws ∧ (t.afterLeg entry leg legs pc).pc.written ∧
      ∀ e ∈ (t.afterLeg entry leg legs pc).held, e = entry := by
  unfold afterLeg
  split
  · exact ⟨rfl, rfl, by simp [held]⟩
  · exact ⟨rfl, rfl, by simp [held]⟩
  · obtain ⟨draws, written, held, -⟩ :=
      postRest_spec { t with posted := t.posted ++ [leg] } entry legs
    exact ⟨draws, written, by simp [held]⟩

end LedgerThread

inductive JournalStep (t t' : LedgerThread) (journal : Journal) : Journal → Prop where
  | same (written : t.pc.written → t'.pc.written) : JournalStep t t' journal journal
  | skipped (written : t'.pc.written) :
      JournalStep t t' journal { journal with sequenceCounter := journal.sequenceCounter + 1 }
  | appended (entry : JournalEntry) (unwritten : ¬ t.pc.written) (written : t'.pc.written)
      (held : t'.held = some entry)
      (sequence : entry.sequenceNumber = journal.sequenceCounter + 1)
      (id : entry.id = t.draws.entryId) (balanced : Balanced entry.legs)
      (reverses : entry.reverses = none ∨ ∃ original, t.held = some original ∧
        entry.reverses = some original.id ∧ entry.legs = original.legs.map EntryLeg.flipped) :
      JournalStep t t' journal
        { entries := journal.entries ++ [entry], sequenceCounter := journal.sequenceCounter + 1 }

section Step

variable {printUuid : Uuid → String} {svc svc' : LedgerService} {t t' : LedgerThread}

-- The write section, for an entry that is what it should be whenever it is built.
theorem LedgerThread.record_spec {build : Nat → Except JournalError JournalEntry}
    (unwritten : ¬ t.pc.written) (step : t.record build svc = (svc', t'))
    (built : ∀ entry, build (svc.journal.sequenceCounter + 1) = .ok entry →
      entry.sequenceNumber = svc.journal.sequenceCounter + 1 ∧ entry.id = t.draws.entryId ∧
      Balanced entry.legs ∧
      (entry.reverses = none ∨ ∃ original, t.held = some original ∧
        entry.reverses = some original.id ∧ entry.legs = original.legs.map EntryLeg.flipped)) :
    t'.draws = t.draws ∧ JournalStep t t' svc.journal svc'.journal ∧
      ∀ e ∈ t'.held, e ∈ svc'.journal.entries := by
  unfold LedgerThread.record at step
  cases result : build (svc.journal.sequenceCounter + 1) with
  | error e =>
    rw [Journal.record_error result] at step
    cases step
    exact ⟨rfl, .skipped rfl, by simp [LedgerThread.held]⟩
  | ok entry =>
    rw [Journal.record_ok result] at step
    cases step
    obtain ⟨sequence, id, balanced, reverses⟩ := built entry result
    obtain ⟨draws, written, held, -⟩ := t.postRest_spec entry entry.legs
    exact ⟨draws, .appended entry unwritten written held sequence id balanced reverses,
      by simp [held]⟩

theorem ledgerStep_journal (knows : ∀ e ∈ t.held, e ∈ svc.journal.entries)
    (step : ledgerStep printUuid svc t = some (svc', t')) :
    t'.draws = t.draws ∧ JournalStep t t' svc.journal svc'.journal ∧
      ∀ e ∈ t'.held, e ∈ svc'.journal.entries := by
  cases ledgerStep_cases step with
  | record at_pc transactionId legs description written =>
    apply LedgerThread.record_spec (by simp [at_pc, LedgerPc.written]) written
    intro entry built
    obtain ⟨sequence, id, balanced, reverses⟩ := new_fits built
    exact ⟨sequence, id, balanced, .inl reverses⟩
  | unknown at_pc originalEntryId same next =>
    subst same next
    exact ⟨rfl, .same fun _ => rfl, by simp [LedgerThread.held]⟩
  | found at_pc originalEntryId original member same next =>
    subst same next
    exact ⟨rfl, .same (by simp [at_pc, LedgerPc.written]), by simpa [LedgerThread.held] using member⟩
  | begun originalEntryId original newTxnId at_pc journal accounts next =>
    subst next
    rw [journal]
    refine ⟨rfl, .same (by simp [at_pc, LedgerPc.written]), ?_⟩
    simpa [LedgerThread.held, at_pc] using knows
  | reverse original newTxnId at_pc written =>
    apply LedgerThread.record_spec (by simp [at_pc, LedgerPc.written]) written
    intro entry built
    obtain ⟨sequence, id, balanced, reverses, legs⟩ := reverse_fits built
    exact ⟨sequence, id, balanced, .inr ⟨original, by simp [LedgerThread.held, at_pc], reverses, legs⟩⟩
  | post entry leg rest pc pc' accounts at_pc taken same next =>
    subst same next
    obtain ⟨draws, written, held⟩ := t.afterLeg_spec entry rest leg pc'
    have member : entry ∈ svc.journal.entries := knows entry (by simp [LedgerThread.held, at_pc])
    exact ⟨draws, .same fun _ => written, fun e at_e => held e at_e ▸ member⟩
  | commit entry transactionId at_pc journal accounts next =>
    subst next
    rw [journal]
    refine ⟨rfl, .same fun _ => rfl, ?_⟩
    simpa [LedgerThread.held, at_pc] using knows

end Step

end Journal

section Accounts

theorem LegPc.start_applied (leg : EntryLeg) :
    (start leg.side).appliedBalance leg = 0 ∧ (start leg.side).appliedAvailable leg = 0 := by
  cases leg.side <;> exact ⟨rfl, rfl⟩

theorem LegPc.start_wf (leg : EntryLeg) : (start leg.side).WF leg := by
  cases side : leg.side <;> exact ⟨side, trivial⟩

theorem LegPc.ahead {leg : EntryLeg} {pc : LegPc} (wf : pc.WF leg) :
    pc.appliedAvailable leg ≤ pc.appliedBalance leg := by
  cases pc with
  | debit pc =>
    have gap := DebitPc.applied_gap leg.amountCents pc
    have bound := (DebitPc.applied_bounds wf.2).1
    simp only [LegPc.appliedAvailable, LegPc.appliedBalance]
    omega
  | credit pc =>
    have gap := CreditPc.applied_gap leg.amountCents pc
    have bound := (CreditPc.applied_bounds wf.2).1
    simp only [LegPc.appliedAvailable, LegPc.appliedBalance]
    omega
  | missing => exact le_refl 0

def EntryLeg.counted (leg : EntryLeg) : Except LedgerError Unit → Int
  | .ok _ => leg.signedInt
  | .error _ => 0

theorem LegPc.applied_of_result {leg : EntryLeg} {pc : LegPc} (wf : pc.WF leg)
    {result : Except LedgerError Unit} (returned : pc.result leg = some result) :
    pc.appliedBalance leg = leg.counted result ∧ pc.appliedAvailable leg = leg.counted result := by
  cases pc with
  | debit pc =>
    cases pc with
    | returned answer =>
      cases answer with
      | error e => cases returned; exact ⟨rfl, rfl⟩
      | ok newBalance =>
        cases returned
        simp [LegPc.appliedBalance, LegPc.appliedAvailable, DebitPc.appliedBalance,
          DebitPc.appliedAvailable, EntryLeg.counted, EntryLeg.signedInt, wf.1]
    | _ => cases returned
  | credit pc =>
    cases pc with
    | returned answer =>
      cases answer with
      | error e => cases returned; exact ⟨rfl, rfl⟩
      | ok newBalance =>
        cases returned
        simp [LegPc.appliedBalance, LegPc.appliedAvailable, CreditPc.appliedBalance,
          CreditPc.appliedAvailable, EntryLeg.counted, EntryLeg.signedInt, wf.1]
    | _ => cases returned
  | missing => cases returned; exact ⟨rfl, rfl⟩

variable {accounts accounts' : Accounts} {leg : EntryLeg}

theorem legStep_spec {a a' : Account} {pc pc' : LegPc} (wf : pc.WF leg)
    (step : legStep leg a pc = some (a', pc'))
    (gap : a.availableBalance.toInt + (pc.appliedBalance leg - pc.appliedAvailable leg) ≤
      a.balance.toInt) :
    pc'.WF leg ∧
      Moved a a' (pc'.appliedBalance leg - pc.appliedBalance leg)
        (pc'.appliedAvailable leg - pc.appliedAvailable leg) ∧
      a'.status = a.status ∧ (0 ≤ a.availableBalance.toInt → 0 ≤ a'.availableBalance.toInt) := by
  have := bounds a.availableBalance
  have := bounds a.balance
  cases pc with
  | debit pc =>
    obtain ⟨⟨b, inner⟩, taken, same⟩ := Option.map_eq_some_iff.mp step
    cases same
    obtain ⟨wf', spec⟩ := debitStep_spec wf.2 taken (by
      rintro rfl
      simp only [LegPc.appliedBalance, LegPc.appliedAvailable, DebitPc.appliedBalance,
        DebitPc.appliedAvailable] at gap
      omega)
    exact ⟨⟨wf.1, wf'⟩, spec⟩
  | credit pc =>
    obtain ⟨⟨b, inner⟩, taken, same⟩ := Option.map_eq_some_iff.mp step
    cases same
    obtain ⟨wf', spec⟩ := creditStep_spec wf.2 taken (by
      rintro newBalance rfl
      simp only [LegPc.appliedBalance, LegPc.appliedAvailable, CreditPc.appliedBalance,
        CreditPc.appliedAvailable] at gap
      omega)
    exact ⟨⟨wf.1, wf'⟩, spec⟩
  | missing => simp [legStep] at step

theorem legAt_spec {pc pc' : LegPc} (wf : pc.WF leg)
    (present : pc = .start leg.side ∨ (accounts.lookup leg.accountId).isSome)
    (step : legAt leg accounts pc = some (accounts', pc'))
    (gap : ∀ a, accounts.lookup leg.accountId = some a →
      a.availableBalance.toInt + (pc.appliedBalance leg - pc.appliedAvailable leg) ≤
        a.balance.toInt) :
    pc'.WF leg ∧
      RegistryStep (only leg.accountId (pc'.appliedBalance leg - pc.appliedBalance leg))
        (only leg.accountId (pc'.appliedAvailable leg - pc.appliedAvailable leg))
        accounts accounts' := by
  apply atAccount_spec step
  · intro absent
    obtain rfl : pc = .start leg.side := by simpa [absent] using present
    have start := LegPc.start_applied leg
    exact ⟨trivial, by rw [start.1]; rfl, by rw [start.2]; rfl⟩
  · intro a a' pc'' found taken
    exact legStep_spec wf taken (gap a found)

theorem legAt_found {pc pc' : LegPc} (step : legAt leg accounts pc = some (accounts', pc')) :
    (accounts.lookup leg.accountId).isSome ∨ pc' = .missing := by
  unfold legAt atAccount at step
  cases found : accounts.lookup leg.accountId with
  | none =>
    simp only [found, Option.some.injEq, Prod.mk.injEq] at step
    exact .inr step.2.symm
  | some a => exact .inl rfl

namespace LedgerThread

-- What the leg in progress adds to what the posted legs have moved.
def applied (current : EntryLeg → LegPc → Int) (t : LedgerThread) (id : AccountId) : Int :=
  netInt t.posted id +
    match t.pc with
    | .posting _ leg _ pc => only leg.accountId (current leg pc) id
    | _ => 0

def appliedBalance : LedgerThread → AccountId → Int := applied LegPc.appliedBalance

def appliedAvailable : LedgerThread → AccountId → Int := applied LegPc.appliedAvailable

structure WF (present : AccountId → Prop) (t : LedgerThread) : Prop where
  posted : ∀ leg ∈ t.posted, present leg.accountId
  pc : match t.pc with
    | .start | .beginTxn .. | .append .. => t.posted = []
    | .posting entry leg rest pc =>
      entry.legs = t.posted ++ leg :: rest ∧ pc.WF leg ∧ (pc = .start leg.side ∨ present leg.accountId)
    | .commit entry _ | .returned (.ok entry) => entry.legs = t.posted
    | .returned (.error _) => True

section Applied

variable {current : EntryLeg → LegPc → Int} {t : LedgerThread} {entry : JournalEntry}
  {present : AccountId → Prop}

theorem postRest_applied (starts : ∀ leg, current leg (.start leg.side) = 0) (legs : List EntryLeg)
    (id : AccountId) : (t.postRest entry legs).applied current id = netInt t.posted id := by
  cases legs with
  | cons leg rest => simp [postRest, applied, starts]
  | nil =>
    unfold postRest
    cases t.transactionId <;> simp [applied]

theorem afterLeg_applied {leg : EntryLeg} {pc : LegPc}
    (starts : ∀ leg, current leg (.start leg.side) = 0)
    (results : ∀ result, pc.result leg = some result → current leg pc = leg.counted result)
    (rest : List EntryLeg) (id : AccountId) :
    (t.afterLeg entry leg rest pc).applied current id =
      netInt t.posted id + only leg.accountId (current leg pc) id := by
  unfold afterLeg
  split
  · rfl
  · rename_i e refused
    simp [applied, results _ refused, EntryLeg.counted]
  · rename_i done
    rw [postRest_applied starts, netInt_append, results _ done]
    simp [netInt, only, EntryLeg.counted, eq_comm]

theorem postRest_wf {legs : List EntryLeg} (posted : ∀ leg ∈ t.posted, present leg.accountId)
    (split : entry.legs = t.posted ++ legs) : (t.postRest entry legs).WF present := by
  cases legs with
  | cons leg rest => exact ⟨posted, split, LegPc.start_wf leg, .inl rfl⟩
  | nil =>
    rw [List.append_nil] at split
    unfold postRest
    cases t.transactionId <;> exact ⟨posted, split⟩

theorem afterLeg_wf {leg : EntryLeg} {rest : List EntryLeg} {pc : LegPc}
    (posted : ∀ leg ∈ t.posted, present leg.accountId)
    (split : entry.legs = t.posted ++ leg :: rest) (wf : pc.WF leg)
    (found : present leg.accountId ∨ pc = .missing) : (t.afterLeg entry leg rest pc).WF present := by
  rcases found with found | rfl
  · unfold afterLeg
    split
    · exact ⟨posted, split, wf, .inr found⟩
    · exact ⟨posted, trivial⟩
    · apply postRest_wf
      · intro other member
        rcases List.mem_append.mp member with before | last
        · exact posted other before
        · rw [List.mem_singleton.mp last]
          exact found
      · simpa using split
  · exact ⟨posted, trivial⟩

end Applied

end LedgerThread

section Step

variable {printUuid : Uuid → String} {svc svc' : LedgerService} {t t' : LedgerThread}
  {present : AccountId → Prop}

open LedgerThread

def LedgerThread.Moves (t t' : LedgerThread) (accounts accounts' : Accounts) : Prop :=
  AccountsMoved accounts accounts' (fun id => t'.appliedBalance id - t.appliedBalance id)
    (fun id => t'.appliedAvailable id - t.appliedAvailable id)

def LedgerThread.Idle (t : LedgerThread) : Prop :=
  ∀ entry leg rest pc, t.pc ≠ .posting entry leg rest pc

theorem LedgerThread.Idle.applied {current : EntryLeg → LegPc → Int} (idle : t.Idle)
    (id : AccountId) : t.applied current id = netInt t.posted id := by
  unfold LedgerThread.applied
  split
  · rename_i at_pc
    exact absurd at_pc (idle _ _ _ _)
  · simp

theorem LedgerThread.Moves.silent (accounts : Accounts)
    (balance : ∀ id, t'.appliedBalance id = t.appliedBalance id)
    (available : ∀ id, t'.appliedAvailable id = t.appliedAvailable id) :
    t.Moves t' accounts accounts := by
  simpa [Moves, balance, available] using AccountsMoved.refl accounts

theorem LedgerThread.Moves.idle (accounts : Accounts) (before : t.Idle) (after : t'.Idle)
    (posted : t'.posted = t.posted) : t.Moves t' accounts accounts := by
  apply silent
  · intro id
    rw [appliedBalance, after.applied, before.applied, posted]
  · intro id
    rw [appliedAvailable, after.applied, before.applied, posted]

theorem record_accounts {build : Nat → Except JournalError JournalEntry} (idle : t.Idle)
    (none : t.posted = []) (step : t.record build svc = (svc', t')) :
    t'.WF present ∧ t.Moves t' svc.accounts svc'.accounts := by
  unfold record at step
  generalize svc.journal.record build = recorded at step
  rcases recorded with ⟨e | entry, journal⟩
  · cases step
    exact ⟨⟨by simp [none], trivial⟩, .idle _ idle (by simp [Idle]) rfl⟩
  · cases step
    refine ⟨postRest_wf (by simp [none]) (by simp [none]), .silent _ (fun id => ?_) fun id => ?_⟩
    · exact (postRest_applied (fun leg => (LegPc.start_applied leg).1) _ id).trans
        (idle.applied id).symm
    · exact (postRest_applied (fun leg => (LegPc.start_applied leg).2) _ id).trans
        (idle.applied id).symm

theorem posting_accounts {entry : JournalEntry} {leg : EntryLeg} {rest : List EntryLeg}
    {pc pc' : LegPc} {accounts : Accounts} (at_pc : t.pc = .posting entry leg rest pc)
    (wf : t.WF present) (keys : ∀ id, present id ↔ (svc.accounts.lookup id).isSome)
    (gap : ∀ id a, svc.accounts.lookup id = some a →
      a.availableBalance.toInt + (t.appliedBalance id - t.appliedAvailable id) ≤ a.balance.toInt)
    (taken : legAt leg svc.accounts pc = some (accounts, pc')) :
    (t.afterLeg entry leg rest pc').WF present ∧
      t.Moves (t.afterLeg entry leg rest pc') svc.accounts accounts := by
  obtain ⟨posted, wf⟩ := wf
  simp only [at_pc] at wf
  obtain ⟨split, wf, found⟩ := wf
  have own : ∀ a, svc.accounts.lookup leg.accountId = some a →
      a.availableBalance.toInt + (pc.appliedBalance leg - pc.appliedAvailable leg) ≤
        a.balance.toInt := by
    intro a at_a
    have bound := gap leg.accountId a at_a
    simpa [appliedBalance, appliedAvailable, applied, at_pc] using bound
  obtain ⟨wf', registry⟩ := legAt_spec wf (found.imp_right (keys _).mp) taken own
  refine ⟨afterLeg_wf posted split wf' ((legAt_found taken).imp_left (keys _).mpr), ?_⟩
  have balance : ∀ id, (t.afterLeg entry leg rest pc').appliedBalance id - t.appliedBalance id =
      only leg.accountId (pc'.appliedBalance leg - pc.appliedBalance leg) id := by
    intro id
    rw [appliedBalance, afterLeg_applied (fun leg => (LegPc.start_applied leg).1)
      (fun result done => (LegPc.applied_of_result wf' done).1)]
    simp [applied, at_pc, only_sub]
  have available : ∀ id,
      (t.afterLeg entry leg rest pc').appliedAvailable id - t.appliedAvailable id =
        only leg.accountId (pc'.appliedAvailable leg - pc.appliedAvailable leg) id := by
    intro id
    rw [appliedAvailable, afterLeg_applied (fun leg => (LegPc.start_applied leg).2)
      (fun result done => (LegPc.applied_of_result wf' done).2)]
    simp [applied, at_pc, only_sub]
  simpa only [Moves, balance, available] using registry.moved

theorem ledgerStep_accounts (wf : t.WF present)
    (keys : ∀ id, present id ↔ (svc.accounts.lookup id).isSome)
    (gap : ∀ id a, svc.accounts.lookup id = some a →
      a.availableBalance.toInt + (t.appliedBalance id - t.appliedAvailable id) ≤ a.balance.toInt)
    (step : ledgerStep printUuid svc t = some (svc', t')) :
    t'.WF present ∧ t.Moves t' svc.accounts svc'.accounts := by
  have here := wf.pc
  cases ledgerStep_cases step with
  | record at_pc transactionId legs description written =>
    simp only [at_pc] at here
    exact record_accounts (by simp [Idle, at_pc]) here written
  | unknown at_pc originalEntryId same next =>
    subst same next
    exact ⟨⟨wf.posted, trivial⟩, .idle _ (by simp [Idle, at_pc]) (by simp [Idle]) rfl⟩
  | found at_pc originalEntryId original member same next =>
    subst same next
    simp only [at_pc] at here
    exact ⟨⟨wf.posted, here⟩, .idle _ (by simp [Idle, at_pc]) (by simp [Idle]) rfl⟩
  | begun originalEntryId original newTxnId at_pc journal accounts next =>
    subst next
    simp only [at_pc] at here
    rw [accounts]
    exact ⟨⟨wf.posted, here⟩, .idle _ (by simp [Idle, at_pc]) (by simp [Idle]) rfl⟩
  | reverse original newTxnId at_pc written =>
    simp only [at_pc] at here
    exact record_accounts (by simp [Idle, at_pc]) here written
  | post entry leg rest pc pc' accounts at_pc taken same next =>
    subst same next
    exact posting_accounts at_pc wf keys gap taken
  | commit entry transactionId at_pc journal accounts next =>
    subst next
    simp only [at_pc] at here
    rw [accounts]
    exact ⟨⟨wf.posted, here⟩, .idle _ (by simp [Idle, at_pc]) (by simp [Idle]) rfl⟩

end Step

end Accounts

end BankingLedger
