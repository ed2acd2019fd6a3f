import BankingLedger.Service.ChoreographySystem

set_option autoImplicit false

namespace BankingLedger

open FiniteMap MessagePassing Runs

namespace ChoreographySystem

def Debited (s : ChoreographySystem) (t : TransferInitiatedEvent) : Prop :=
  t ∈ s.transfers ∧ t.correlationId ∈ s.accounts.processedDebits

def Credited (s : ChoreographySystem) (t : TransferInitiatedEvent) : Prop :=
  t ∈ s.transfers ∧ t.correlationId ∈ s.accounts.processedCredits

def Undeliverable (seeds : Map String Decimal) (s : ChoreographySystem) (t : TransferInitiatedEvent) : Prop :=
  s.Debited t ∧ t.toAccount ∉ seeds

def Said (seeds : Map String Decimal) (s : ChoreographySystem) : ChoreographyMessage → Prop
  | .initiated event => event ∈ s.transfers
  | .debitNotice event => ∃ t, s.Debited t ∧ event.transactionId = t.transactionId
  | .debited event toAccount => ∃ t, s.Debited t ∧ toAccount = t.toAccount ∧ ∃ now, event = t.debited now
  | .debitFailed event => ∃ t ∈ s.transfers, event.transactionId = t.transactionId
  | .credited event =>
    ∃ t, s.Credited t ∧ event.correlationId = t.correlationId ∧ event.transactionId = t.transactionId
  | .creditFailed event =>
    ∃ t, s.Undeliverable seeds t ∧ event.correlationId = t.correlationId ∧ event.transactionId = t.transactionId

-- What has to have happened before a transfer is shown in a state.
def Warranted (s : ChoreographySystem) (t : TransferInitiatedEvent) : SagaState → Prop
  | .completed => s.Credited t
  | .debited => s.Debited t
  | .initiated | .debitPending | .creditPending | .failed => True

def Justified (seeds : Map String Decimal) (s : ChoreographySystem) : SagaAnnouncement → Prop
  | .completed event => ∃ t, s.Credited t ∧ event.correlationId = t.correlationId
  | .failed _ => True
  | .refundInitiated event => ∃ t, s.Undeliverable seeds t ∧ event.correlationId = t.correlationId

def Explains (moved : String → Int) (seeds balances : Map String Decimal) : Prop :=
  ∀ account, balances.lookup account = (seeds.lookup account).map fun b : Int => b + moved account

theorem Explains.insert {moved moved' : String → Int} {seeds balances : Map String Decimal}
    (explains : Explains moved seeds balances) {account : String} {b change : Int}
    (found : balances.lookup account = some b)
    (moves : ∀ other, moved' other = moved other + if account = other then change else 0) :
    Explains moved' seeds (balances.insert account (b + change : Int)) := by
  intro other
  have before := explains other
  rw [lookup_insert_eq, moves other]
  by_cases here : other = account
  next =>
    subst here
    rw [found] at before
    obtain ⟨seed, seeded, same⟩ := Option.map_eq_some_iff.mp before.symm
    rw [if_pos rfl, if_pos rfl, seeded, Option.map_some]
    congr 1
    omega
  next => rw [if_neg here, if_neg (Ne.symm here), Int.add_zero, before]

theorem Explains.mem_iff {moved : String → Int} {seeds balances : Map String Decimal}
    (explains : Explains moved seeds balances) (account : String) : account ∈ balances ↔ account ∈ seeds := by
  rw [← Finmap.lookup_isSome, ← Finmap.lookup_isSome, explains account, Option.isSome_map]

structure Reports (seeds : Map String Decimal) (s : ChoreographySystem) : Prop where
  shown : ∀ t ∈ s.transfers, ∀ state ∈ s.transactions.states.lookup t.transactionId, s.Warranted t state
  announced : ∀ a ∈ s.announced, s.Justified seeds a

def BalancesExplained (seeds : Map String Decimal) (s : ChoreographySystem) : Prop :=
  ∀ account, s.accounts.balances.lookup account = (seeds.lookup account).map fun b =>
    b - s.debitedFrom account + s.creditedTo account + s.refundedTo account

structure Books (seeds : Map String Decimal) (s : ChoreographySystem) : Prop where
  balances : s.BalancesExplained seeds
  correlationIds : (s.transfers.map (·.correlationId)).Nodup
  transactionIds : (s.transfers.map (·.transactionId)).Nodup
  known : ∀ id ∈ s.accounts.processedDebits, id ∈ s.transfers.map (·.correlationId)
  debitedFirst : s.accounts.processedCredits ⊆ s.accounts.processedDebits
  sources : ∀ t, s.Debited t → t.fromAccount ∈ seeds
  destinations : ∀ t, s.Credited t → t.toAccount ∈ seeds

variable {seeds : Map String Decimal} {s s' : ChoreographySystem} {t : TransferInitiatedEvent}

section Lasting

structure Grows (s s' : ChoreographySystem) : Prop where
  transfers : ∀ t ∈ s.transfers, t ∈ s'.transfers
  debits : s.accounts.processedDebits ⊆ s'.accounts.processedDebits
  credits : s.accounts.processedCredits ⊆ s'.accounts.processedCredits

variable (grows : Grows s s')

include grows

theorem Grows.debited (debited : s.Debited t) : s'.Debited t :=
  ⟨grows.transfers t debited.1, grows.debits debited.2⟩

theorem Grows.credited (credited : s.Credited t) : s'.Credited t :=
  ⟨grows.transfers t credited.1, grows.credits credited.2⟩

theorem Grows.undeliverable (undeliverable : s.Undeliverable seeds t) : s'.Undeliverable seeds t :=
  ⟨grows.debited undeliverable.1, undeliverable.2⟩

theorem Grows.said (message : ChoreographyMessage) (said : s.Said seeds message) : s'.Said seeds message := by
  cases message with
  | initiated event => exact grows.transfers event said
  | debitNotice event | debited event toAccount => exact said.imp fun _ holds => ⟨grows.debited holds.1, holds.2⟩
  | debitFailed event => exact said.imp fun _ holds => ⟨grows.transfers _ holds.1, holds.2⟩
  | credited event => exact said.imp fun _ holds => ⟨grows.credited holds.1, holds.2⟩
  | creditFailed event => exact said.imp fun _ holds => ⟨grows.undeliverable holds.1, holds.2⟩

theorem Grows.warranted {state : SagaState} (warranted : s.Warranted t state) : s'.Warranted t state := by
  cases state with
  | completed => exact grows.credited warranted
  | debited => exact grows.debited warranted
  | _ => trivial

theorem Grows.justified {a : SagaAnnouncement} (justified : s.Justified seeds a) : s'.Justified seeds a := by
  cases a with
  | completed event => exact justified.imp fun _ holds => ⟨grows.credited holds.1, holds.2⟩
  | failed event => trivial
  | refundInitiated event => exact justified.imp fun _ holds => ⟨grows.undeliverable holds.1, holds.2⟩

end Lasting

section Accounts

def net (s : ChoreographySystem) (account : String) : Int :=
  s.creditedTo account + s.refundedTo account - s.debitedFrom account

theorem balancesExplained_iff : s.BalancesExplained seeds ↔ Explains s.net seeds s.accounts.balances := by
  refine forall_congr' fun account => ?_
  have same : (fun b : Int => b - s.debitedFrom account + s.creditedTo account + s.refundedTo account) =
      fun b => b + s.net account := by
    funext b
    rw [net]
    omega
  rw [same]

theorem Books.same (books : Books seeds s) {u : TransferInitiatedEvent} (member : t ∈ s.transfers)
    (other : u ∈ s.transfers) (ids : u.correlationId = t.correlationId) : u = t :=
  List.inj_on_of_nodup_map books.correlationIds other member ids

theorem Books.mem_seeds (books : Books seeds s) (account : String) :
    account ∈ s.accounts.balances ↔ account ∈ seeds :=
  (balancesExplained_iff.mp books.balances).mem_iff account

theorem Reports.of_grows (reports : Reports seeds s) (grows : Grows s s') (transfers : s'.transfers = s.transfers)
    (transactions : s'.transactions = s.transactions) (announced : s'.announced = s.announced) :
    Reports seeds s' where
  shown t member state found := by
    rw [transfers] at member
    rw [transactions] at found
    exact grows.warranted (reports.shown t member state found)
  announced a member := by
    rw [announced] at member
    exact grows.justified (reports.announced a member)

def markDebit (t : TransferInitiatedEvent) (b : Decimal) (s : ChoreographySystem) : ChoreographySystem :=
  { s with accounts :=
    { s.accounts with
      balances := s.accounts.balances.insert t.fromAccount (b - t.amount)
      processedDebits := insert t.correlationId s.accounts.processedDebits } }

def markCredit (t : TransferInitiatedEvent) (b : Decimal) (s : ChoreographySystem) : ChoreographySystem :=
  { s with accounts :=
    { s.accounts with
      balances := s.accounts.balances.insert t.toAccount (b + t.amount)
      processedCredits := insert t.correlationId s.accounts.processedCredits } }

def payBack (event : AccountDebitedEvent) (b : Decimal) (s : ChoreographySystem) : ChoreographySystem :=
  { s with
    accounts := { s.accounts with balances := s.accounts.balances.insert event.accountId (b + event.amount) }
    refunds := s.refunds ++ [event] }

inductive InitiatedTurn (s : ChoreographySystem) (t : TransferInitiatedEvent) (now : Timestamp) :
    ChoreographySystem × Multiset ChoreographyMessage → Prop where
  | repeated : t.correlationId ∈ s.accounts.processedDebits →
      InitiatedTurn s t now (s, {.debitNotice (t.debited now), .debited (t.debited now) t.toAccount})
  | debited {b : Decimal} : t.correlationId ∉ s.accounts.processedDebits →
      s.accounts.balances.lookup t.fromAccount = some b → t.amount ≤ b →
      InitiatedTurn s t now
        (s.markDebit t b, {.debitNotice (t.debited now), .debited (t.debited now) t.toAccount})
  | refused {reason : String} : t.correlationId ∉ s.accounts.processedDebits →
      (∀ b ∈ s.accounts.balances.lookup t.fromAccount, b < t.amount) →
      InitiatedTurn s t now (s, {.debitFailed (t.debitFailed now reason)})

theorem initiatedTurn (s : ChoreographySystem) (t : TransferInitiatedEvent) (now : Timestamp) :
    InitiatedTurn s t now (s.receive now (.initiated t)) := by
  simp only [receive, ChoreographyAccountService.handleTransferInitiated]
  by_cases known : t.correlationId ∈ s.accounts.processedDebits
  next =>
    rw [if_pos known]
    exact .repeated known
  next =>
    rw [if_neg known]
    cases found : s.accounts.balances.lookup t.fromAccount with
    | none => exact .refused known fun b member => absurd (found ▸ member) (Option.not_mem_none b)
    | some b =>
      by_cases enough : t.amount ≤ b
      next =>
        simp only [ge_iff_le, if_pos enough]
        exact .debited known found enough
      next =>
        simp only [ge_iff_le, if_neg enough]
        refine .refused known fun b' member => ?_
        rw [found] at member
        exact Option.some.inj member ▸ Int.not_le.mp enough

inductive DebitedTurn (s : ChoreographySystem) (t : TransferInitiatedEvent) (debitedAt now : Timestamp) :
    ChoreographySystem × Multiset ChoreographyMessage → Prop where
  | repeated : t.correlationId ∈ s.accounts.processedCredits →
      DebitedTurn s t debitedAt now (s, {.credited ((t.debited debitedAt).credited now t.toAccount)})
  | credited {b : Decimal} : t.correlationId ∉ s.accounts.processedCredits →
      s.accounts.balances.lookup t.toAccount = some b →
      DebitedTurn s t debitedAt now
        (s.markCredit t b, {.credited ((t.debited debitedAt).credited now t.toAccount)})
  | refunded {b : Decimal} : t.correlationId ∉ s.accounts.processedCredits → t.toAccount ∉ s.accounts.balances →
      s.accounts.balances.lookup t.fromAccount = some b →
      DebitedTurn s t debitedAt now
        (s.payBack (t.debited debitedAt) b, {.creditFailed ((t.debited debitedAt).creditFailed now t.toAccount)})

theorem debitedTurn (s : ChoreographySystem) (t : TransferInitiatedEvent) (debitedAt now : Timestamp)
    (source : t.fromAccount ∈ s.accounts.balances) :
    DebitedTurn s t debitedAt now (s.receive now (.debited (t.debited debitedAt) t.toAccount)) := by
  simp only [receive, ChoreographyAccountService.handleAccountDebited]
  by_cases known : (t.debited debitedAt).correlationId ∈ s.accounts.processedCredits
  next =>
    rw [if_pos known]
    simp only [refundOf, List.append_nil]
    exact .repeated known
  next =>
    rw [if_neg known]
    cases found : s.accounts.balances.lookup t.toAccount with
    | some b =>
      simp only [refundOf, List.append_nil]
      exact .credited known found
    | none =>
      obtain ⟨b, held⟩ := Finmap.mem_iff.mp source
      have held : s.accounts.balances.lookup (t.debited debitedAt).accountId = some b := held
      simp only [ChoreographyAccountService.refund, held]
      exact .refunded known (Finmap.lookup_eq_none.mp found) held

end Accounts

section Balances

theorem Books.markDebit (books : Books seeds s) {b : Decimal} (member : t ∈ s.transfers)
    (new : t.correlationId ∉ s.accounts.processedDebits)
    (found : s.accounts.balances.lookup t.fromAccount = some b) : Books seeds (s.markDebit t b) where
  balances := by
    refine balancesExplained_iff.mpr ((balancesExplained_iff.mp books.balances).insert found fun other => ?_)
    have more : (s.markDebit t b).debitedFrom other = s.debitedFrom other + outOf other t :=
      markedSum_insert books.correlationIds member new
    have same : (s.markDebit t b).creditedTo other = s.creditedTo other := rfl
    have refunds : (s.markDebit t b).refundedTo other = s.refundedTo other := rfl
    rw [net, more, same, refunds, net, outOf]
    split <;> omega
  correlationIds := books.correlationIds
  transactionIds := books.transactionIds
  known id marked := (Finset.mem_insert.mp marked).elim (fun here => here ▸ List.mem_map_of_mem member) (books.known id)
  debitedFirst := books.debitedFirst.trans (Finset.subset_insert _ _)
  sources u debited := by
    rcases Finset.mem_insert.mp debited.2 with here | before
    next =>
      rw [books.same member debited.1 here]
      exact (books.mem_seeds _).mp (Finmap.mem_of_lookup_eq_some found)
    next => exact books.sources u ⟨debited.1, before⟩
  destinations := books.destinations

theorem Books.markCredit (books : Books seeds s) {b : Decimal} (debited : s.Debited t)
    (new : t.correlationId ∉ s.accounts.processedCredits)
    (found : s.accounts.balances.lookup t.toAccount = some b) : Books seeds (s.markCredit t b) where
  balances := by
    refine balancesExplained_iff.mpr ((balancesExplained_iff.mp books.balances).insert found fun other => ?_)
    have more : (s.markCredit t b).creditedTo other = s.creditedTo other + into other t :=
      markedSum_insert books.correlationIds debited.1 new
    have same : (s.markCredit t b).debitedFrom other = s.debitedFrom other := rfl
    have refunds : (s.markCredit t b).refundedTo other = s.refundedTo other := rfl
    rw [net, more, same, refunds, net, into]
    split <;> omega
  correlationIds := books.correlationIds
  transactionIds := books.transactionIds
  known := books.known
  debitedFirst := Finset.insert_subset debited.2 books.debitedFirst
  sources := books.sources
  destinations u credited := by
    rcases Finset.mem_insert.mp credited.2 with here | before
    next =>
      rw [books.same debited.1 credited.1 here]
      exact (books.mem_seeds _).mp (Finmap.mem_of_lookup_eq_some found)
    next => exact books.destinations u ⟨credited.1, before⟩

theorem Books.payBack (books : Books seeds s) {event : AccountDebitedEvent} {b : Decimal}
    (found : s.accounts.balances.lookup event.accountId = some b) : Books seeds (s.payBack event b) where
  balances := by
    refine balancesExplained_iff.mpr ((balancesExplained_iff.mp books.balances).insert found fun other => ?_)
    have more : (s.payBack event b).refundedTo other =
        s.refundedTo other + if event.accountId = other then event.amount else 0 := by
      simp [refundedTo, ChoreographySystem.payBack]
    have debits : (s.payBack event b).debitedFrom other = s.debitedFrom other := rfl
    have credits : (s.payBack event b).creditedTo other = s.creditedTo other := rfl
    rw [net, more, debits, credits, net]
    omega
  correlationIds := books.correlationIds
  transactionIds := books.transactionIds
  known := books.known
  debitedFirst := books.debitedFirst
  sources := books.sources
  destinations := books.destinations

end Balances

section Steps

theorem grows_markDebit (b : Decimal) : Grows s (s.markDebit t b) :=
  ⟨fun _ member => member, Finset.subset_insert _ _, fun _ marked => marked⟩

theorem grows_markCredit (b : Decimal) : Grows s (s.markCredit t b) :=
  ⟨fun _ member => member, fun _ marked => marked, Finset.subset_insert _ _⟩

theorem grows_payBack (event : AccountDebitedEvent) (b : Decimal) : Grows s (s.payBack event b) :=
  ⟨fun _ member => member, fun _ marked => marked, fun _ marked => marked⟩

def tell (transactionId : String) (state : SagaState) (more : List SagaAnnouncement) (s : ChoreographySystem) :
    ChoreographySystem :=
  { s with transactions := ⟨s.transactions.states.insert transactionId state⟩, announced := s.announced ++ more }

theorem grows_tell (transactionId : String) (state : SagaState) (more : List SagaAnnouncement) :
    Grows s (s.tell transactionId state more) :=
  ⟨fun _ member => member, fun _ marked => marked, fun _ marked => marked⟩

structure Consistent (seeds : Map String Decimal) (s : ChoreographySystem) : Prop where
  books : Books seeds s
  reports : Reports seeds s

theorem Consistent.tell (consistent : Consistent seeds s) (member : t ∈ s.transfers) {state : SagaState}
    (warranted : s.Warranted t state) {more : List SagaAnnouncement} (justified : ∀ a ∈ more, s.Justified seeds a) :
    Consistent seeds (s.tell t.transactionId state more) := by
  have grows : Grows s (s.tell t.transactionId state more) := grows_tell _ _ _
  have books := consistent.books
  refine ⟨⟨books.balances, books.correlationIds, books.transactionIds, books.known, books.debitedFirst,
    books.sources, books.destinations⟩, ⟨fun u other shown found => ?_, fun a announced => ?_⟩⟩
  next =>
    rcases lookup_insert_cases found with ⟨same, rfl⟩ | found
    next =>
      rw [List.inj_on_of_nodup_map books.transactionIds other member same]
      exact grows.warranted warranted
    next => exact grows.warranted (consistent.reports.shown u other shown found)
  next =>
    refine grows.justified ?_
    exact (List.mem_append.mp announced).elim (consistent.reports.announced a) (justified a)

theorem Consistent.ofBooks (consistent : Consistent seeds s) (grows : Grows s s') (books : Books seeds s')
    (transfers : s'.transfers = s.transfers) (transactions : s'.transactions = s.transactions)
    (announced : s'.announced = s.announced) : Consistent seeds s' :=
  ⟨books, consistent.reports.of_grows grows transfers transactions announced⟩

theorem grows_initiate (r : Initiation) : Grows s (s.initiate r).1 :=
  ⟨fun _ member => List.mem_append_left _ member, fun _ marked => marked, fun _ marked => marked⟩

theorem Consistent.initiate (consistent : Consistent seeds s) {r : Initiation} (fresh : Fresh s r) :
    Consistent seeds (s.initiate r).1 := by
  have grows : Grows s (s.initiate r).1 := grows_initiate r
  have books := consistent.books
  have notDebited : r.correlationId ∉ s.accounts.processedDebits := mt (books.known _) fresh.1
  have notCredited : r.correlationId ∉ s.accounts.processedCredits := mt (@books.debitedFirst _) notDebited
  have old {u : TransferInitiatedEvent} (member : u ∈ (s.initiate r).1.transfers)
      (other : u.correlationId ≠ r.correlationId) : u ∈ s.transfers := by
    rcases List.mem_append.mp member with before | now
    next => exact before
    next => exact absurd (congrArg (·.correlationId) (List.mem_singleton.mp now)) other
  refine ⟨⟨fun account => ?_, ?_, ?_, fun id marked => ?_, books.debitedFirst, fun u debited => ?_,
    fun u credited => ?_⟩, ⟨fun u member shown found => ?_, fun a announced => ?_⟩⟩
  next =>
    have debits : (s.initiate r).1.debitedFrom account = s.debitedFrom account := markedSum_concat notDebited
    have credits : (s.initiate r).1.creditedTo account = s.creditedTo account := markedSum_concat notCredited
    rw [debits, credits]
    exact books.balances account
  next =>
    rw [ChoreographySystem.initiate, List.map_append]
    exact books.correlationIds.append (List.nodup_singleton _) (List.disjoint_singleton.mpr fresh.1)
  next =>
    rw [ChoreographySystem.initiate, List.map_append]
    exact books.transactionIds.append (List.nodup_singleton _) (List.disjoint_singleton.mpr fresh.2)
  next =>
    rw [ChoreographySystem.initiate, List.map_append]
    exact List.mem_append_left _ (books.known id marked)
  next =>
    have other : u.correlationId ≠ r.correlationId := fun same => notDebited (same ▸ debited.2)
    exact books.sources u ⟨old debited.1 other, debited.2⟩
  next =>
    have other : u.correlationId ≠ r.correlationId := fun same => notCredited (same ▸ credited.2)
    exact books.destinations u ⟨old credited.1 other, credited.2⟩
  next =>
    rcases List.mem_append.mp member with before | now
    next =>
      rcases lookup_insert_cases found with ⟨_, rfl⟩ | found
      next => trivial
      next => exact grows.warranted (consistent.reports.shown u before shown found)
    next =>
      rw [List.mem_singleton.mp now] at found
      have initiated : SagaState.initiated = shown := Option.some.inj ((Finmap.lookup_insert _).symm.trans found)
      exact initiated ▸ trivial
  next => exact grows.justified (consistent.reports.announced a announced)

def Kept (seeds : Map String Decimal) (s : ChoreographySystem)
    (answer : ChoreographySystem × Multiset ChoreographyMessage) : Prop :=
  Consistent seeds answer.1 ∧ (∀ sent ∈ answer.2, answer.1.Said seeds sent) ∧
    ∀ other, s.Said seeds other → answer.1.Said seeds other

theorem said_afterDebit (debited : s.Debited t) (now : Timestamp) (sent : ChoreographyMessage)
    (member : sent ∈ ({.debitNotice (t.debited now), .debited (t.debited now) t.toAccount} :
      Multiset ChoreographyMessage)) : s.Said seeds sent := by
  rcases Multiset.mem_cons.mp member with rfl | member
  next => exact ⟨t, debited, rfl⟩
  next =>
    rw [Multiset.mem_singleton.mp member]
    exact ⟨t, debited, rfl, now, rfl⟩

variable {now debitedAt : Timestamp} {answer : ChoreographySystem × Multiset ChoreographyMessage}

theorem InitiatedTurn.kept (consistent : Consistent seeds s) (member : t ∈ s.transfers)
    (turn : InitiatedTurn s t now answer) : Kept seeds s answer := by
  cases turn with
  | repeated known => exact ⟨consistent, said_afterDebit ⟨member, known⟩ now, fun _ said => said⟩
  | @debited b new found enough =>
    have grows : Grows s (s.markDebit t b) := grows_markDebit b
    have books := consistent.books.markDebit member new found
    have debited : (s.markDebit t b).Debited t := ⟨member, Finset.mem_insert_self _ _⟩
    exact ⟨consistent.ofBooks grows books rfl rfl rfl, said_afterDebit debited now, grows.said⟩
  | refused new short =>
    refine ⟨consistent, fun sent here => ?_, fun _ said => said⟩
    rw [Multiset.mem_singleton.mp here]
    exact ⟨t, member, rfl⟩

theorem DebitedTurn.kept (consistent : Consistent seeds s) (debited : s.Debited t)
    (turn : DebitedTurn s t debitedAt now answer) : Kept seeds s answer := by
  have books := consistent.books
  cases turn with
  | repeated known =>
    refine ⟨consistent, fun sent here => ?_, fun _ said => said⟩
    rw [Multiset.mem_singleton.mp here]
    exact ⟨t, ⟨debited.1, known⟩, rfl, rfl⟩
  | @credited b new found =>
    have grows : Grows s (s.markCredit t b) := grows_markCredit b
    refine ⟨consistent.ofBooks grows (books.markCredit debited new found) rfl rfl rfl, fun sent here => ?_, grows.said⟩
    rw [Multiset.mem_singleton.mp here]
    exact ⟨t, ⟨debited.1, Finset.mem_insert_self _ _⟩, rfl, rfl⟩
  | @refunded b new missing found =>
    have grows : Grows s (s.payBack (t.debited debitedAt) b) := grows_payBack _ b
    refine ⟨consistent.ofBooks grows (books.payBack found) rfl rfl rfl, fun sent here => ?_, grows.said⟩
    rw [Multiset.mem_singleton.mp here]
    exact ⟨t, ⟨grows.debited debited, mt (books.mem_seeds _).mpr missing⟩, rfl, rfl⟩

theorem kept_tell (consistent : Consistent seeds s) (member : t ∈ s.transfers) {state : SagaState}
    (warranted : s.Warranted t state) {more : List SagaAnnouncement} (justified : ∀ a ∈ more, s.Justified seeds a) :
    Kept seeds s (s.tell t.transactionId state more, 0) :=
  ⟨consistent.tell member warranted justified, fun sent here => absurd here (Multiset.notMem_zero sent),
    (grows_tell _ _ _).said⟩

theorem kept_receive (consistent : Consistent seeds s) (message : ChoreographyMessage)
    (said : s.Said seeds message) : Kept seeds s (s.receive now message) := by
  cases message with
  | initiated event => exact (initiatedTurn s event now).kept consistent said
  | debited event toAccount =>
    obtain ⟨t, debited, rfl, debitedAt, rfl⟩ := said
    have source := (consistent.books.mem_seeds _).mpr (consistent.books.sources t debited)
    exact (debitedTurn s t debitedAt now source).kept consistent debited
  | debitNotice event =>
    obtain ⟨t, debited, same⟩ := said
    have warranted : s.Warranted t .debited := debited
    have kept : Kept seeds s (s.tell t.transactionId .debited [], 0) :=
      kept_tell consistent debited.1 warranted nofun
    rw [← same, ChoreographySystem.tell, List.append_nil] at kept
    exact kept
  | debitFailed event =>
    obtain ⟨t, member, same⟩ := said
    have warranted : s.Warranted t .failed := trivial
    have justified : s.Justified seeds
        (.failed ⟨event.correlationId, event.transactionId, event.reason, now⟩) := trivial
    have kept : Kept seeds s (s.tell t.transactionId .failed [.failed _], 0) :=
      kept_tell consistent member warranted (List.forall_mem_singleton.mpr justified)
    rw [← same] at kept
    exact kept
  | credited event =>
    obtain ⟨t, credited, id, same⟩ := said
    have justified : s.Justified seeds (.completed ⟨event.correlationId, event.transactionId, now⟩) :=
      ⟨t, credited, id⟩
    have warranted : s.Warranted t .completed := credited
    have kept : Kept seeds s (s.tell t.transactionId .completed [.completed _], 0) :=
      kept_tell consistent credited.1 warranted (List.forall_mem_singleton.mpr justified)
    rw [← same] at kept
    exact kept
  | creditFailed event =>
    obtain ⟨t, undeliverable, id, same⟩ := said
    have justified : s.Justified seeds
        (.refundInitiated ⟨event.correlationId, event.transactionId, event.accountId, event.amount, now⟩) :=
      ⟨t, undeliverable, id⟩
    have failed : s.Justified seeds (.failed ⟨event.correlationId, event.transactionId, event.reason, now⟩) := trivial
    have warranted : s.Warranted t .failed := trivial
    have kept : Kept seeds s (s.tell t.transactionId .failed [.failed _, .refundInitiated _], 0) :=
      kept_tell consistent undeliverable.1.1 warranted
        (List.forall_mem_cons.mpr ⟨failed, List.forall_mem_singleton.mpr justified⟩)
    rw [← same] at kept
    exact kept

theorem parties_truthful (seeds : Map String Decimal) :
    Truthful parties Fresh (Consistent seeds) (Said seeds) where
  request s r consistent fresh := by
    refine ⟨consistent.initiate fresh, fun message sent => ?_, (grows_initiate r).said⟩
    rw [Multiset.mem_singleton.mp sent]
    exact List.mem_append_right _ (List.mem_singleton_self _)
  receive _ _ message consistent said := kept_receive consistent message said

theorem start_told (seeds : Map String Decimal) : Told (Consistent seeds) (Said seeds) (start seeds) where
  state := by
    refine ⟨⟨fun account => ?_, List.nodup_nil, List.nodup_nil, nofun, fun _ marked => marked, nofun, nofun⟩,
      ⟨nofun, nofun⟩⟩
    change seeds.lookup account = (seeds.lookup account).map fun b => b - 0 + 0 + 0
    cases seeds.lookup account with
    | none => rfl
    | some b => simp
  inFlight message member := absurd member (Multiset.notMem_zero message)

end Steps

/-- What the transaction service shows and announces has happened, and every balance is explained. -/
structure Confirmed (seeds : Map String Decimal) (s : ChoreographySystem) : Prop where
  balances : s.BalancesExplained seeds
  debitedFirst : s.accounts.processedCredits ⊆ s.accounts.processedDebits
  shownCompleted : ∀ t ∈ s.transfers, s.transactions.states.lookup t.transactionId = some .completed →
    t.correlationId ∈ s.accounts.processedCredits
  shownDebited : ∀ t ∈ s.transfers, s.transactions.states.lookup t.transactionId = some .debited →
    t.correlationId ∈ s.accounts.processedDebits
  completed : ∀ event, .completed event ∈ s.announced → event.correlationId ∈ s.accounts.processedCredits
  refundInitiated : ∀ event, .refundInitiated event ∈ s.announced →
    event.correlationId ∈ s.accounts.processedDebits ∧ event.correlationId ∉ s.accounts.processedCredits

theorem Consistent.confirmed (consistent : Consistent seeds s) : Confirmed seeds s where
  balances := consistent.books.balances
  debitedFirst := consistent.books.debitedFirst
  shownCompleted t member found := (consistent.reports.shown t member .completed found).2
  shownDebited t member found := (consistent.reports.shown t member .debited found).2
  completed event member := by
    obtain ⟨t, credited, same⟩ := consistent.reports.announced _ member
    exact same ▸ credited.2
  refundInitiated event member := by
    obtain ⟨t, ⟨debited, missing⟩, same⟩ := consistent.reports.announced _ member
    rw [same]
    exact ⟨debited.2, fun credited => missing (consistent.books.destinations t ⟨debited.1, credited⟩)⟩

namespace Sample

def twoSeeds : Map String Decimal := (Finmap.insert "alice" (1000 : Int) ∅).insert "bob" (500 : Int)

def toBob : TransferInitiatedEvent := ⟨⟨1⟩, "tx-1", "alice", "bob", (200 : Int), ⟨0⟩⟩

def startToBob : ChoreographyStep :=
  .request ⟨⟨1⟩, "tx-1", "alice", "bob", (200 : Int), ⟨0⟩⟩

end Sample

open ChoreographySystem.Sample

end ChoreographySystem

end BankingLedger
