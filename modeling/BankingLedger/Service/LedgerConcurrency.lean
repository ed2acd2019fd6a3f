import BankingLedger.Service.LedgerSteps

set_option autoImplicit false

namespace BankingLedger

open FiniteMap MachineInt Interleaving

/-- The entries are in the order of their numbers, each balances with both sides present, and a
reversal comes after the one entry it names and flips its legs. -/
structure WellKept (entries : List JournalEntry) : Prop where
  ordered : entries.Pairwise fun e f => e.sequenceNumber < f.sequenceNumber
  balanced : ∀ e ∈ entries, 2 ≤ e.legs.length ∧
    sideTotal .debit e.legs = sideTotal .credit e.legs ∧ sideTotal .debit e.legs ≠ 0 ∧
    (∃ leg ∈ e.legs, leg.side = .debit) ∧ ∃ leg ∈ e.legs, leg.side = .credit
  reversals : ∀ (n : Nat) e id, entries[n]? = some e → e.reverses = some id →
    ∃ (m : Nat) (original : JournalEntry), m < n ∧ entries[m]? = some original ∧ original.id = id ∧
      (∀ (k : Nat) other, entries[k]? = some other → other.id = id → k = m) ∧
      e.legs = original.legs.map EntryLeg.flipped

structure History (journal : Journal) : Prop where
  ordered : journal.entries.Pairwise fun e f => e.sequenceNumber < f.sequenceNumber
  bounded : ∀ e ∈ journal.entries, e.sequenceNumber ≤ journal.sequenceCounter
  balanced : ∀ e ∈ journal.entries, Balanced e.legs
  distinct : journal.entries.Pairwise fun e f => e.id ≠ f.id
  reversals : ∀ (n : Nat) e id, journal.entries[n]? = some e → e.reverses = some id →
    ∃ (m : Nat) (original : JournalEntry), m < n ∧ journal.entries[m]? = some original ∧
      original.id = id ∧ e.legs = original.legs.map EntryLeg.flipped

theorem exists_side_of_total {side : EntrySide} {legs : List EntryLeg}
    (nonzero : sideTotal side legs ≠ 0) : ∃ leg ∈ legs, leg.side = side := by
  by_contra none
  apply nonzero
  have empty : legs.filter (fun leg => leg.side = side) = [] := by
    rw [List.filter_eq_nil_iff]
    intro leg member
    simpa using fun same => none ⟨leg, member, same⟩
  simp [sideTotal, empty]

theorem index_unique {entries : List JournalEntry}
    (distinct : entries.Pairwise fun e f => e.id ≠ f.id) {k m : Nat} {e f : JournalEntry}
    (at_k : entries[k]? = some e) (at_m : entries[m]? = some f) (same : e.id = f.id) : k = m := by
  obtain ⟨kBound, kValue⟩ := List.getElem?_eq_some_iff.mp at_k
  obtain ⟨mBound, mValue⟩ := List.getElem?_eq_some_iff.mp at_m
  rw [List.pairwise_iff_getElem] at distinct
  rcases Nat.lt_trichotomy k m with less | equal | greater
  · have := distinct k m kBound mBound less
    rw [kValue, mValue] at this
    exact absurd same this
  · exact equal
  · have := distinct m k mBound kBound greater
    rw [kValue, mValue] at this
    exact absurd same.symm this

theorem History.wellKept {journal : Journal} (history : History journal) :
    WellKept journal.entries := by
  refine ⟨history.ordered, ?_, ?_⟩
  · intro e member
    obtain ⟨enough, nonzero, equal⟩ := history.balanced e member
    exact ⟨enough, equal, nonzero, exists_side_of_total nonzero, exists_side_of_total (equal ▸ nonzero)⟩
  · intro n e id at_n reverses
    obtain ⟨m, original, before, at_m, named, flipped⟩ := history.reversals n e id at_n reverses
    refine ⟨m, original, before, at_m, named, ?_, flipped⟩
    intro k other at_k same
    exact index_unique history.distinct at_k at_m (same.trans named.symm)

theorem History.new : History .new :=
  ⟨.nil, by simp [Journal.new], by simp [Journal.new], .nil, by simp [Journal.new]⟩

theorem History.skip {journal : Journal} (history : History journal) :
    History { journal with sequenceCounter := journal.sequenceCounter + 1 } :=
  { history with
    bounded := fun e member => by
      have := history.bounded e member
      simp only
      omega }

theorem History.append {journal : Journal} (history : History journal) {entry : JournalEntry}
    (sequence : entry.sequenceNumber = journal.sequenceCounter + 1)
    (fresh : ∀ e ∈ journal.entries, e.id ≠ entry.id) (balanced : Balanced entry.legs)
    (reverses : entry.reverses = none ∨ ∃ original ∈ journal.entries,
      entry.reverses = some original.id ∧ entry.legs = original.legs.map EntryLeg.flipped) :
    History { entries := journal.entries ++ [entry]
              sequenceCounter := journal.sequenceCounter + 1 } := by
  constructor
  case ordered =>
    rw [List.pairwise_append]
    refine ⟨history.ordered, by simp, ?_⟩
    intro e member f last
    rw [List.mem_singleton.mp last, sequence]
    have := history.bounded e member
    omega
  case bounded =>
    intro e member
    rcases List.mem_append.mp member with before | last
    · have := history.bounded e before
      simp only
      omega
    · rw [List.mem_singleton.mp last]
      exact sequence.le
  case balanced =>
    intro e member
    rcases List.mem_append.mp member with before | last
    · exact history.balanced e before
    · rw [List.mem_singleton.mp last]
      exact balanced
  case distinct =>
    rw [List.pairwise_append]
    refine ⟨history.distinct, by simp, ?_⟩
    intro e member f last
    rw [List.mem_singleton.mp last]
    exact fresh e member
  case reversals =>
    intro n e id at_n reversing
    simp only at at_n ⊢
    -- Either the entry was there before, or it is the new one and its original was.
    by_cases old : n < journal.entries.length
    · rw [List.getElem?_append_left old] at at_n
      obtain ⟨m, original, before, at_m, named, flipped⟩ := history.reversals n e id at_n reversing
      exact ⟨m, original, before, by rw [List.getElem?_append_left (by omega)]; exact at_m, named,
        flipped⟩
    · obtain ⟨bound, value⟩ := List.getElem?_eq_some_iff.mp at_n
      rw [List.length_append, List.length_singleton] at bound
      obtain rfl : n = journal.entries.length := by omega
      obtain rfl : entry = e := by simpa using value
      rcases reverses with none | ⟨original, member, names, flipped⟩
      · rw [none] at reversing
        cases reversing
      · obtain ⟨m, at_m⟩ := List.mem_iff_getElem?.mp member
        have within := (List.getElem?_eq_some_iff.mp at_m).1
        rw [names, Option.some.injEq] at reversing
        exact ⟨m, original, within, by rw [List.getElem?_append_left within]; exact at_m, reversing,
          flipped⟩

section Kept

variable {I : Type}

def ledgerStart (accounts : Accounts) (calls : I → LedgerCall) (draws : I → LedgerDraws) :
    Config I LedgerService LedgerThread :=
  { shared := .new accounts, thread := fun i => (calls i).thread (draws i) }

structure Kept (draws : I → LedgerDraws) (c : Config I LedgerService LedgerThread) : Prop where
  history : History c.shared.journal
  drawn : ∀ i, (c.thread i).draws = draws i
  knows : ∀ i, ∀ e ∈ (c.thread i).held, e ∈ c.shared.journal.entries
  owned : ∀ e ∈ c.shared.journal.entries, ∃ i, e.id = (draws i).entryId ∧ (c.thread i).pc.written

variable {draws : I → LedgerDraws} {printUuid : Uuid → String}

section Step

variable {t t' : LedgerThread} {journal journal' : Journal}

theorem JournalStep.grows (step : JournalStep t t' journal journal') :
    journal.entries <+: journal'.entries := by
  cases step with
  | same written => exact List.prefix_rfl
  | skipped written => exact List.prefix_rfl
  | appended entry => exact List.prefix_append _ _

theorem JournalStep.stays_written (step : JournalStep t t' journal journal')
    (before : t.pc.written) : t'.pc.written := by
  cases step with
  | same written => exact written before
  | skipped written => exact written
  | appended entry unwritten written => exact written

theorem JournalStep.origin (step : JournalStep t t' journal journal') {e : JournalEntry}
    (member : e ∈ journal'.entries) :
    e ∈ journal.entries ∨ (e.id = t.draws.entryId ∧ t'.pc.written) := by
  cases step with
  | same written => exact .inl member
  | skipped written => exact .inl member
  | appended entry unwritten written held sequence id =>
    rcases List.mem_append.mp member with before | last
    · exact .inl before
    · rw [List.mem_singleton.mp last]
      exact .inr ⟨id, written⟩

theorem History.step (history : History journal) (step : JournalStep t t' journal journal')
    (knows : ∀ e ∈ t.held, e ∈ journal.entries)
    (fresh : ¬ t.pc.written → ∀ e ∈ journal.entries, e.id ≠ t.draws.entryId) : History journal' := by
  cases step with
  | same written => exact history
  | skipped written => exact history.skip
  | appended entry unwritten written held sequence id balanced reverses =>
    apply history.append sequence _ balanced
    · rcases reverses with none | ⟨original, at_original, names, flipped⟩
      · exact .inl none
      · exact .inr ⟨original, knows original at_original, names, flipped⟩
    · intro e member
      rw [id]
      exact fresh unwritten e member

end Step

variable [DecidableEq I]

theorem Kept.step (distinct : Function.Injective fun i => (draws i).entryId)
    (c : Config I LedgerService LedgerThread) (i : I) (svc : LedgerService) (t : LedgerThread)
    (kept : Kept draws c)
    (step : (ledgerSystem printUuid).step c.shared (c.thread i) = some (svc, t)) :
    Kept draws { shared := svc, thread := Function.update c.thread i t } := by
  obtain ⟨sameDraws, journal, knows⟩ := ledgerStep_journal (kept.knows i) step
  constructor
  case history =>
    apply kept.history.step journal (kept.knows i)
    -- An entry with this identifier would be the thread's own, which it has not written yet.
    intro unwritten e member same
    obtain ⟨j, named, written⟩ := kept.owned e member
    rw [kept.drawn i, named] at same
    obtain rfl : j = i := distinct same
    exact unwritten written
  case drawn =>
    exact forall_update (fun j (t : LedgerThread) => t.draws = draws j)
      (sameDraws.trans (kept.drawn i)) kept.drawn
  case knows =>
    apply forall_update (fun _ (t : LedgerThread) => ∀ e ∈ t.held, e ∈ svc.journal.entries) knows
    intro j e held
    exact journal.grows.subset (kept.knows j e held)
  case owned =>
    intro e member
    rcases journal.origin member with before | ⟨named, written⟩
    · obtain ⟨j, named, written⟩ := kept.owned e before
      refine ⟨j, named, ?_⟩
      by_cases same : j = i
      · subst same
        simpa using journal.stays_written written
      · simpa [same] using written
    · exact ⟨i, by rw [named, kept.drawn i], by simpa using written⟩

omit [DecidableEq I] in
theorem Kept.initial (accounts : Accounts) (calls : I → LedgerCall) (draws : I → LedgerDraws) :
    Kept draws (ledgerStart accounts calls draws) where
  history := History.new
  drawn _ := rfl
  knows i e held := by simp [ledgerStart, LedgerCall.thread, LedgerThread.held] at held
  owned e member := by simp [ledgerStart, LedgerService.new, Journal.new] at member

theorem Kept.run_grows (distinct : Function.Injective fun i => (draws i).entryId)
    (c : Config I LedgerService LedgerThread) (schedule : List I) (kept : Kept draws c) :
    c.shared.journal.entries <+:
      ((ledgerSystem printUuid).run c schedule).shared.journal.entries := by
  induction schedule generalizing c with
  | nil => exact List.prefix_rfl
  | cons i rest ih =>
    have next := (ledgerSystem printUuid).fire_keeps kept fun svc t => kept.step distinct c i svc t
    refine List.IsPrefix.trans ?_ (ih _ next)
    unfold System.fire
    split
    · exact List.prefix_rfl
    · rename_i svc t step
      exact (ledgerStep_journal (kept.knows i) step).2.1.grows

end Kept

theorem LedgerThread.ahead {t : LedgerThread} {present : AccountId → Prop} (wf : t.WF present)
    (id : AccountId) : t.appliedAvailable id ≤ t.appliedBalance id := by
  have here := wf.pc
  unfold LedgerThread.appliedAvailable LedgerThread.appliedBalance LedgerThread.applied
  cases at_pc : t.pc with
  | posting entry leg rest pc =>
    simp only [at_pc] at here ⊢
    have ahead := LegPc.ahead here.2.1
    simp only [only]
    split <;> omega
  | _ => simp

theorem sum_netInt {keys : Finset AccountId} {legs : List EntryLeg}
    (present : ∀ leg ∈ legs, leg.accountId ∈ keys) :
    ∑ id ∈ keys, netInt legs id = sideTotal .credit legs - sideTotal .debit legs := by
  induction legs with
  | nil => simp [netInt, sideTotal]
  | cons leg rest ih =>
    have tail := ih fun other member => present other (List.mem_cons_of_mem _ member)
    have own : ∑ id ∈ keys, (if leg.accountId = id then leg.signedInt else 0) = leg.signedInt := by
      simp [Finset.sum_ite_eq, present leg (List.mem_cons_self ..)]
    simp only [netInt, Finset.sum_add_distrib, own, tail]
    obtain ⟨account, side, amount⟩ := leg
    cases side <;> simp [sideTotal, EntryLeg.signedInt] <;> omega

theorem LedgerCall.moved_alone {printUuid : Uuid → String} {draws : LedgerDraws} {call : LedgerCall}
    {svc svc' : LedgerService} {entry : JournalEntry} (covered : Covered svc.accounts)
    (done : call.run printUuid draws svc = (.ok entry, svc')) :
    AccountsMoved svc.accounts svc'.accounts (netInt entry.legs) (netInt entry.legs) ∧
      totalBalance svc'.accounts = totalBalance svc.accounts := by
  have outcome : LedgerOutcome draws call svc (call.run printUuid draws svc) := ledger_outcome call
  rw [done] at outcome
  obtain _ | _ | ⟨_, _, named, balanced, pass, shifted⟩ := outcome
  have moved := pass.moved covered shifted
  refine ⟨moved, ?_⟩
  have present : ∀ leg ∈ entry.legs, leg.accountId ∈ svc.accounts.keys := by
    intro leg member
    obtain ⟨a, found⟩ := pass.found member
    exact mem_keys_of_found found
  rw [moved.totalBalance, sum_netInt present, balanced.2.2]
  omega

section Postings

variable {I : Type} [Fintype I]

structure Posted (base : Accounts) (c : Config I LedgerService LedgerThread) : Prop where
  wf : ∀ i, (c.thread i).WF (· ∈ base.keys)
  moved : AccountsMoved base c.shared.accounts (fun id => ∑ i, (c.thread i).appliedBalance id)
    (fun id => ∑ i, (c.thread i).appliedAvailable id)

variable {base : Accounts} {c : Config I LedgerService LedgerThread} {printUuid : Uuid → String}
  {i : I} {svc : LedgerService} {t : LedgerThread}

theorem Posted.step_spec (covered : Covered base) (posted : Posted base c)
    (step : (ledgerSystem printUuid).step c.shared (c.thread i) = some (svc, t)) :
    t.WF (· ∈ base.keys) ∧ (c.thread i).Moves t c.shared.accounts svc.accounts := by
  apply ledgerStep_accounts (posted.wf i) posted.moved.present_iff _ step
  intro id a found
  exact posted.moved.inFlight_le covered i (fun j => LedgerThread.ahead (posted.wf j) id) found

theorem Posted.covered (covered : Covered base) (posted : Posted base c) :
    Covered c.shared.accounts := by
  intro id a found
  obtain ⟨a₀, before, one⟩ := posted.moved.lookup found
  have start := covered id a₀ before
  have ahead : ∑ i, (c.thread i).appliedAvailable id ≤ ∑ i, (c.thread i).appliedBalance id :=
    Finset.sum_le_sum fun i _ => LedgerThread.ahead (posted.wf i) id
  have := one.balance
  have := one.available
  omega

variable [DecidableEq I]

theorem Posted.step (covered : Covered base) (c : Config I LedgerService LedgerThread) (i : I)
    (svc : LedgerService) (t : LedgerThread) (posted : Posted base c)
    (step : (ledgerSystem printUuid).step c.shared (c.thread i) = some (svc, t)) :
    Posted base { shared := svc, thread := Function.update c.thread i t } := by
  obtain ⟨wf, moves⟩ := posted.step_spec covered step
  constructor
  case wf => exact forall_update (fun _ (t : LedgerThread) => t.WF (· ∈ base.keys)) wf posted.wf
  case moved => exact posted.moved.fire moves

omit [DecidableEq I] in
theorem Posted.initial (accounts : Accounts) (calls : I → LedgerCall) (draws : I → LedgerDraws) :
    Posted accounts (ledgerStart accounts calls draws) where
  wf i := ⟨by simp [ledgerStart, LedgerCall.thread], rfl⟩
  moved := by
    simpa [ledgerStart, LedgerCall.thread, LedgerThread.appliedBalance,
      LedgerThread.appliedAvailable, LedgerThread.applied, netInt, LedgerService.new] using
      AccountsMoved.refl accounts

def ledgerBalance (id : AccountId) (svc : LedgerService) : Int :=
  valueAt (fun a => a.balance.toInt) svc.accounts id

theorem Posted.effect (covered : Covered base) (c : Config I LedgerService LedgerThread)
    (schedule : List I) (posted : Posted base c) (i : I) (idle : ∀ id, (c.thread i).appliedBalance id = 0)
    (printUuid : Uuid → String) :
    (∀ id ∈ base.keys, (ledgerSystem printUuid).effect (ledgerBalance id) i c schedule =
        (((ledgerSystem printUuid).run c schedule).thread i).appliedBalance id) ∧
      (∀ id ∉ base.keys, (ledgerSystem printUuid).effect (ledgerBalance id) i c schedule = 0) ∧
      (ledgerSystem printUuid).effect (fun svc => totalBalance svc.accounts) i c schedule =
        ∑ id ∈ base.keys, (((ledgerSystem printUuid).run c schedule).thread i).appliedBalance id := by
  have meets : (ledgerSystem printUuid).RunMeets (fun _ _ => True) c schedule :=
    Runs.meets_of_forall (fun _ _ => trivial) c schedule
  have each : ∀ id, (ledgerSystem printUuid).effect (ledgerBalance id) i c schedule =
      if id ∈ base.keys then
        (((ledgerSystem printUuid).run c schedule).thread i).appliedBalance id
      else 0 := by
    intro id
    refine (effect_on_cell (ledgerSystem printUuid) LedgerService.accounts _
      LedgerThread.appliedBalance (fun c i s l posted _ => Posted.step covered c i s l posted)
      (fun c posted => posted.moved.present_iff) ?_ i c schedule meets posted id).trans ?_
    · intro c j s l posted _ step id
      exact ((posted.step_spec covered step).2.values id).1
    · simp [idle]
  refine ⟨fun id present => ?_, fun id absent => ?_, ?_⟩
  · rw [each, if_pos present]
  · rw [each, if_neg absent]
  · rw [(ledgerSystem printUuid).effect_eq (fun svc => totalBalance svc.accounts)
      (fun t => ∑ id ∈ base.keys, t.appliedBalance id)
      (fun c i s l posted _ => Posted.step covered c i s l posted) ?_ i c schedule meets posted]
    · simp [idle]
    · intro c j s l posted _ step
      rw [(posted.step_spec covered step).2.totalBalance, posted.moved.keys,
        Finset.sum_sub_distrib]

theorem Posted.effect_of_ok {printUuid : Uuid → String} {accounts : Accounts}
    (covered : Covered accounts) (calls : I → LedgerCall) (draws : I → LedgerDraws)
    (schedule : List I)
    (posted : Posted accounts ((ledgerSystem printUuid).run (ledgerStart accounts calls draws) schedule))
    (kept : Kept draws ((ledgerSystem printUuid).run (ledgerStart accounts calls draws) schedule))
    {i : I} {entry : JournalEntry}
    (returned : (((ledgerSystem printUuid).run (ledgerStart accounts calls draws) schedule).thread i).pc =
      .returned (.ok entry)) :
    (∀ id, (ledgerSystem printUuid).effect (ledgerBalance id) i (ledgerStart accounts calls draws)
        schedule = legTotal .credit entry.legs id - legTotal .debit entry.legs id) ∧
      (ledgerSystem printUuid).effect (fun svc => totalBalance svc.accounts) i
        (ledgerStart accounts calls draws) schedule = 0 := by
  obtain ⟨inside, outside, total⟩ := Posted.effect covered (ledgerStart accounts calls draws) schedule
    (Posted.initial accounts calls draws) i (fun id => by
      simp [ledgerStart, LedgerCall.thread, LedgerThread.appliedBalance, LedgerThread.applied,
        netInt]) printUuid
  generalize (ledgerSystem printUuid).run (ledgerStart accounts calls draws) schedule = c at *
  have all : entry.legs = (c.thread i).posted := by
    have here := (posted.wf i).pc
    simpa only [returned] using here
  have present : ∀ leg ∈ entry.legs, leg.accountId ∈ accounts.keys := by
    rw [all]
    exact (posted.wf i).posted
  have balanced : Balanced entry.legs := by
    apply kept.history.balanced
    exact kept.knows i entry (by simp [LedgerThread.held, returned])
  have applied : ∀ id, (c.thread i).appliedBalance id = netInt entry.legs id := by
    intro id
    simp [LedgerThread.appliedBalance, LedgerThread.applied, returned, all]
  constructor
  · intro id
    rw [← netInt_eq_legTotal]
    by_cases member : id ∈ accounts.keys
    · rw [inside id member, applied]
    · rw [outside id member, netInt_of_absent]
      rintro leg at_leg rfl
      exact member (present leg at_leg)
  · rw [total]
    simp only [applied, sum_netInt present, balanced.2.2, sub_self]

/-- For every set of concurrent calls and every interleaving: the journal grows and is well kept,
and a successful call, among the others or alone, moves the balances by its legs. -/
theorem ledger_history (printUuid : Uuid → String) (accounts : Accounts) (calls : I → LedgerCall)
    (draws : I → LedgerDraws) (distinct : Function.Injective fun i => (draws i).entryId)
    (first second : List I) :
    let start := ledgerStart accounts calls draws
    let c := (ledgerSystem printUuid).run start first
    c.shared.journal.entries <+:
        ((ledgerSystem printUuid).run start (first ++ second)).shared.journal.entries ∧
      WellKept c.shared.journal.entries ∧
      (Covered accounts →
        (∀ i entry, (c.thread i).pc = .returned (.ok entry) →
          (∀ id, (ledgerSystem printUuid).effect (ledgerBalance id) i start first =
            legTotal .credit entry.legs id - legTotal .debit entry.legs id) ∧
          (ledgerSystem printUuid).effect (fun svc => totalBalance svc.accounts) i start first = 0) ∧
        ∀ (call : LedgerCall) (draws : LedgerDraws) (entry : JournalEntry) (svc : LedgerService),
          call.run printUuid draws c.shared = (.ok entry, svc) →
          (∀ id a, c.shared.accounts.lookup id = some a → ∃ a', svc.accounts.lookup id = some a' ∧
            a'.balance.toInt =
              a.balance.toInt + (legTotal .credit entry.legs id - legTotal .debit entry.legs id)) ∧
          totalBalance svc.accounts = totalBalance c.shared.accounts) := by
  intro start c
  have kept : Kept draws c := (ledgerSystem printUuid).run_invariant (Kept.step distinct) _ first
    (Kept.initial accounts calls draws)
  refine ⟨?_, kept.history.wellKept, ?_⟩
  · rw [System.run_append]
    exact Kept.run_grows distinct c second kept
  · intro covered
    have posted : Posted accounts c := (ledgerSystem printUuid).run_invariant (Posted.step covered) _
      first (Posted.initial accounts calls draws)
    refine ⟨fun i entry returned => ?_, fun call draws entry svc done => ?_⟩
    · exact Posted.effect_of_ok covered calls draws first posted kept returned
    · obtain ⟨moved, total⟩ := call.moved_alone (posted.covered covered) done
      refine ⟨fun id a found => ?_, total⟩
      obtain ⟨a', found', one⟩ := moved.forward found
      exact ⟨a', found', by rw [one.balance, netInt_eq_legTotal]⟩

end Postings

namespace Sample

-- A transfer, one that lacks the funds, and the reversal of the first.
def ledgerCalls : Fin 3 → LedgerCall :=
  ![.recordTransfer ⟨9⟩ ⟨1⟩ ⟨2⟩ 40 "rent", .recordTransfer ⟨10⟩ ⟨2⟩ ⟨1⟩ 500 "too much",
    .reverseEntry ⟨11⟩ "mistake"]

def ledgerDrawsOf : Fin 3 → LedgerDraws :=
  ![ledgerDraws, { ledgerDraws with entryId := ⟨13⟩ },
    { ledgerDraws with entryId := ⟨14⟩, transactionId := ⟨15⟩ }]

theorem ledger_covered : Covered ledger.accounts := by
  intro id a found
  simp only [ledger, LedgerService.new, lookup_insert_eq] at found
  split_ifs at found
  · obtain rfl := Option.some.inj found
    decide
  · obtain rfl := Option.some.inj found
    decide
  · simp at found

end Sample

open Sample

theorem ledger_history_reversed :
    let start := ledgerStart ledger.accounts ledgerCalls ledgerDrawsOf
    let schedule := [0, 1] ++ List.replicate 10 0 ++ List.replicate 2 1 ++ List.replicate 12 2
    let c := (ledgerSystem fun _ => "").run start schedule
    c.shared.journal.entries.length = 3 ∧ WellKept c.shared.journal.entries ∧
      (∃ entry, (c.thread 0).pc = .returned (.ok entry)) ∧
      (ledgerSystem fun _ => "").effect (fun svc => totalBalance svc.accounts) 0 start schedule = 0 := by
  have returned : (((ledgerSystem fun _ => "").run
    (ledgerStart ledger.accounts ledgerCalls ledgerDrawsOf)
      ([0, 1] ++ List.replicate 10 0 ++ List.replicate 2 1 ++ List.replicate 12 2)).thread 0).pc =
        .returned (.ok _) := rfl
  obtain ⟨-, wellKept, moved⟩ := ledger_history (fun _ => "") ledger.accounts ledgerCalls ledgerDrawsOf
    (by decide) ([0, 1] ++ List.replicate 10 0 ++ List.replicate 2 1 ++ List.replicate 12 2) []
  exact ⟨by decide +kernel, wellKept, ⟨_, returned⟩, ((moved ledger_covered).1 0 _ returned).2⟩

end BankingLedger
