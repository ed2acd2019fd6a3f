import BankingLedger.Api.Refusals
import BankingLedger.Api.Router
import BankingLedger.Log.ChainRuns

set_option autoImplicit false

namespace BankingLedger

open FiniteMap MachineInt AccountService
open HashLinked (Scheme)
open HashLink (scheme)

/-- Nothing that the permissions are to protect has changed. -/
structure Protected (st st' : ApiState) : Prop where
  accounts : st'.accounts = st.accounts
  journal : st'.journal = st.journal
  hashChain : st'.hashChain = st.hashChain
  identifiers : st'.identityService.identifiers = st.identityService.identifiers
  partyIdentifiers : st'.identityService.partyIdentifiers = st.identityService.partyIdentifiers
  roleBindings : st'.rbac.roleBindings = st.rbac.roleBindings

theorem Protected.refl (st : ApiState) : Protected st st := ⟨rfl, rfl, rfl, rfl, rfl, rfl⟩

structure BooksKept (books books' : Books) : Prop where
  accounts : books'.accounts = books.accounts
  journal : books'.journal = books.journal
  hashChain : books'.hashChain = books.hashChain

theorem BooksKept.refl (books : Books) : BooksKept books books := ⟨rfl, rfl, rfl⟩

section Accounts

variable {accounts : Accounts} {id : AccountId} {a : Account} {amount : Int64}

theorem insert_same_iff {a' : Account} : accounts.insert id a' = accounts ↔
    accounts.lookup id = some a' := by
  constructor
  · intro same
    rw [← same, Finmap.lookup_insert]
  · exact insert_lookup_self

theorem onAccount_same_iff {E A : Type} {notFound : AccountId → E}
    {operation : Account → Except E A × Account} :
    (onAccount notFound operation accounts id).2 = accounts ↔
      ∀ a, accounts.lookup id = some a → (operation a).2 = a := by
  unfold onAccount
  cases found : accounts.lookup id with
  | none => simp
  | some a =>
    simp only [insert_same_iff, found, Option.some.injEq, forall_eq']
    exact eq_comm

theorem setStatus_same_iff {newStatus : AccountStatus} :
    (setStatus accounts id newStatus).2 = accounts ↔
      ∀ a, accounts.lookup id = some a → a.status = .Closed ∨ a.status = newStatus := by
  unfold setStatus
  cases found : accounts.lookup id with
  | none => simp
  | some a =>
    simp only [Option.some.injEq, forall_eq', ← Account.setStatus_same_iff]
    split <;> rename_i answered <;> rw [insert_same_iff, found, answered, Option.some.injEq, eq_comm]

theorem setStatus_ok_ne {newStatus : AccountStatus} {accounts' : Accounts}
    (done : setStatus accounts id newStatus = (.ok true, accounts')) : accounts' ≠ accounts := by
  unfold setStatus at done
  cases found : accounts.lookup id with
  | none => simp [found] at done
  | some a =>
    simp only [found] at done
    split at done <;> rename_i a' answered <;> rw [Prod.mk.injEq] at done
    · cases done.1
    · obtain rfl := done.2
      intro same
      rw [insert_same_iff, found, Option.some.injEq] at same
      exact Account.setStatus_ok_ne answered same.symm

end Accounts

section Handlers

variable {rt : Runtime} {draws : Draws} {st : AppState} {id : AccountId} {amount : Int64}

def Rejected (draws : Draws) (st : AppState) : Prop :=
  (st.circuitBreaker.allowRequest draws.arrival).1 = false

theorem booksKept_accounts_iff {books : Books} {accounts : Accounts} :
    BooksKept books { books with accounts } ↔ accounts = books.accounts :=
  ⟨fun kept => kept.accounts, fun same => ⟨same, rfl, rfl⟩⟩

theorem booksKept_guarded_iff {books : Books} {admitted : Bool} {accounts : Accounts} :
    BooksKept books { books with accounts := if admitted then accounts else books.accounts } ↔
      admitted = false ∨ accounts = books.accounts := by
  rw [booksKept_accounts_iff]
  cases admitted <;> simp

theorem createAccount_kept_iff {req : CreateAccountRequest} :
    BooksKept st.toBooks (createAccount rt draws req st).2.toBooks ↔
      Rejected draws st ∨ ∀ accountType, parseAccountType (rt.toUppercase req.accountType) =
        some accountType → st.accounts.lookup draws.accountId = some
          (.new draws.accountId accountType req.currency req.initialBalanceCents none) := by
  rw [createAccount_books, booksKept_guarded_iff]
  refine or_congr_right ?_
  cases parseAccountType (rt.toUppercase req.accountType) with
  | none => simp
  | some accountType =>
    simp only [AccountService.createAccount, Option.some.injEq, forall_eq']
    exact insert_same_iff

theorem movementHandler_kept_iff {E : Type}
    {operation : Accounts → AccountId → Int64 → Except E Int64 × Accounts} {reason : E → Reason} :
    BooksKept st.toBooks (movementHandler operation reason rt draws id amount st).2.toBooks ↔
      Rejected draws st ∨ (operation st.accounts id amount).2 = st.accounts := by
  rw [movementHandler_books, booksKept_guarded_iff, Rejected]

theorem holdHandler_kept_iff
    {operation : Accounts → AccountId → Int64 → Except HoldError Unit × Accounts} :
    BooksKept st.toBooks (holdHandler operation draws id amount st).2.toBooks ↔
      Rejected draws st ∨ (operation st.accounts id amount).2 = st.accounts := by
  rw [holdHandler_books, booksKept_guarded_iff, Rejected]

theorem setAccountStatus_kept_iff {status : Option String} :
    BooksKept st.toBooks (setAccountStatus rt draws id status st).2.toBooks ↔
      Rejected draws st ∨ ∀ newStatus, parseStatus (rt.toUppercase (status.getD "OPEN")) =
        some newStatus → (setStatus st.accounts id newStatus).2 = st.accounts := by
  rw [setAccountStatus_books, booksKept_guarded_iff]
  refine or_congr_right ?_
  cases parseStatus (rt.toUppercase (status.getD "OPEN")) with
  | none => simp
  | some newStatus => simp

theorem append_ne_self {hashing : Hashing} {now : Timestamp} (chain : HashChain) (data : String) :
    (chain.append hashing now data).2 ≠ chain := by
  intro same
  have blocks := congrArg (fun c : HashChain => c.blocks.length) same
  simp [HashChain.append] at blocks

-- A closing that goes through appends a block too.
theorem coaDeactivate_kept_iff :
    BooksKept st.toBooks (coaDeactivate rt draws id st).2.toBooks ↔
      (setStatus st.accounts id .Closed).2 = st.accounts := by
  unfold coaDeactivate
  rcases closed : setStatus st.accounts id .Closed with ⟨e | _ | _, accounts⟩
  · exact booksKept_accounts_iff
  · exact booksKept_accounts_iff
  · exact iff_of_false (fun kept => append_ne_self _ _ kept.hashChain) (setStatus_ok_ne closed)

theorem transfer_kept_iff {req : TransferRequest} :
    BooksKept st.toBooks (transfer rt draws req st).2.toBooks ↔ ¬ Journalled rt draws req st := by
  unfold transfer
  simp only
  split_ifs with rejected
  · exact iff_of_true (.refl _) fun journalled => by simp [journalled.1] at rejected
  · cases sender : getAccount st.accounts req.fromAccount with
    | none =>
      refine iff_of_true (.refl _) fun journalled => ?_
      rw [getAccount] at sender
      simpa [sender] using journalled.2.1
    | some snapshot =>
      simp only
      rcases journalTransfer_cases rt draws req st.toBooks with
        ⟨e, refused⟩ | ⟨positive, serialized, block, chain, written⟩
      · simp only [refused]
        refine iff_of_true ⟨rfl, rfl, rfl⟩ fun journalled => ?_
        obtain ⟨block, chain, written⟩ := journalTransfer_of_journalled journalled
        rw [refused] at written
        cases written
      · have journalled : Journalled rt draws req st :=
          ⟨by simpa using rejected, Option.isSome_iff_exists.mpr ⟨snapshot, sender⟩, positive,
            serialized⟩
        refine iff_of_false (fun kept => ?_) (not_not_intro journalled)
        have longer := kept.journal
        simp only [written] at longer
        generalize moveFunds req st.accounts = moved at longer
        rcases moved with ⟨e | _, accounts⟩
        · simp at longer
        · simp only at longer
          split at longer <;> simp at longer

theorem reversal_kept_iff {entryId : JournalEntryId} :
    BooksKept st.toBooks (reverseJournalEntry rt draws entryId st).2.toBooks ↔
      ∀ original, entryById st.journal entryId = some original → Balanced original.legs →
        ¬ LegsPass st.accounts (original.legs.map EntryLeg.flipped) ∧
          StopsClean st.accounts (original.legs.map EntryLeg.flipped) := by
  have outcome := reversal_outcome rt draws entryId st
  generalize reverseJournalEntry rt draws entryId st = result at outcome
  cases outcome with
  | refused e st' accounts journal hashChain unfit =>
    exact iff_of_true ⟨accounts, journal, hashChain⟩
      fun original found balanced => absurd balanced (unfit original found)
  | stopped e st' original found balanced posted journal hashChain =>
    simp only [found, Option.some.injEq, forall_eq', balanced, true_imp_iff]
    rw [and_iff_right (reversalLeg_posts.refused_of_stopped posted)]
    constructor
    · intro kept
      refine (reversalLeg_posts.stopped_cells_iff posted).mp fun id => ?_
      rw [kept.accounts]
    · intro clean
      exact ⟨reversalLeg_posts.stopped_clean posted clean, journal, hashChain⟩
  | done response st' original found balanced pass shifted journal =>
    refine iff_of_false (fun kept => ?_) fun unfit => (unfit original found balanced).1 pass
    have longer := journal.symm.trans kept.journal
    simp at longer

end Handlers

/-- The handler leaves the accounts, the journal and the hash chain alone: a check of its own turns the
request away before it has written anything. -/
def AccountRequest.TurnedAway (rt : Runtime) (draws : Draws) (st : AppState) : AccountRequest → Prop
  | .createAccount req => Rejected draws st ∨
      -- An id drawn a second time may name the very account that is to be created.
      ∀ accountType, parseAccountType (rt.toUppercase req.accountType) = some accountType →
        st.accounts.lookup draws.accountId = some
          (.new draws.accountId accountType req.currency req.initialBalanceCents none)
  | .debitAccount id amount | .placeHold id amount => Rejected draws st ∨
      ∀ a, st.accounts.lookup id = some a → ¬ a.DebitPasses amount
  | .creditAccount id amount => Rejected draws st ∨
      ∀ a, st.accounts.lookup id = some a → ¬ a.CreditPasses amount ∧ ¬ a.CreditStrands amount
  | .releaseHold id amount => Rejected draws st ∨
      ∀ a, st.accounts.lookup id = some a → ¬ a.ReleasePasses amount
  | .setAccountStatus id status => Rejected draws st ∨
      ∀ newStatus, parseStatus (rt.toUppercase (status.getD "OPEN")) = some newStatus →
        ∀ a, st.accounts.lookup id = some a → a.status = .Closed ∨ a.status = newStatus
  | .coaDeactivate id => ∀ a, st.accounts.lookup id = some a → a.status = .Closed
  | .transfer req => ¬ Journalled rt draws req st
  | .reverseJournalEntry entryId => ∀ original, entryById st.journal entryId = some original →
      Balanced original.legs → ¬ LegsPass st.accounts (original.legs.map EntryLeg.flipped) ∧
        BankingLedger.StopsClean st.accounts (original.legs.map EntryLeg.flipped)

theorem serve_kept_iff (rt : Runtime) (draws : Draws) (req : AccountRequest) (st : AppState) :
    BooksKept st.toBooks (serve rt draws req st).2.toBooks ↔ req.TurnedAway rt draws st := by
  cases req with
  | createAccount req => exact createAccount_kept_iff
  | debitAccount id amount =>
    refine movementHandler_kept_iff.trans (or_congr_right ?_)
    exact onAccount_same_iff.trans (forall₂_congr fun a _ => Account.debit_same_iff)
  | creditAccount id amount =>
    refine movementHandler_kept_iff.trans (or_congr_right ?_)
    exact onAccount_same_iff.trans (forall₂_congr fun a _ => Account.credit_same_iff)
  | setAccountStatus id status =>
    refine setAccountStatus_kept_iff.trans (or_congr_right ?_)
    exact forall₂_congr fun newStatus _ => setStatus_same_iff
  | placeHold id amount =>
    refine holdHandler_kept_iff.trans (or_congr_right ?_)
    exact onAccount_same_iff.trans (forall₂_congr fun a _ => Account.placeHold_same_iff)
  | releaseHold id amount =>
    refine holdHandler_kept_iff.trans (or_congr_right ?_)
    exact onAccount_same_iff.trans (forall₂_congr fun a _ => Account.releaseHold_same_iff)
  | transfer req => exact transfer_kept_iff
  | reverseJournalEntry entryId => exact reversal_kept_iff
  | coaDeactivate id =>
    refine coaDeactivate_kept_iff.trans (setStatus_same_iff.trans (forall₂_congr fun a _ => ?_))
    exact or_self_iff

section Redaction

variable {hashing : Hashing} {chain : HashChain}

/-- Block `i` is redacted, and the chain from it on is hashed and linked. -/
def SettledAt (hashing : Hashing) (chain : HashChain) (i : Nat) : Prop :=
  ∀ front previous b rest, chain.blocks = front ++ previous :: b :: rest → i = front.length + 1 →
    b.data = "[REDACTED]" ∧ (scheme hashing).digest previous.hash b = b.hash ∧
      (scheme hashing).Chained b.hash rest

theorem redact_same_iff (index : UInt64) :
    (chain.redact hashing index).2 = chain ↔ SettledAt hashing chain index.toNat := by
  have outcome := redact_cases hashing chain index
  generalize chain.redact hashing index = result at outcome
  cases outcome with
  | refused e off =>
    refine iff_of_true rfl fun front previous b rest split position => ?_
    rw [split] at off
    simp only [List.length_append, List.length_cons] at off
    omega
  | done front previous b rest chain' split position blocks =>
    have unchanged : chain' = chain ↔
        { b.redacted with hash := (scheme hashing).digest previous.hash b.redacted } = b ∧
          (scheme hashing).resealAll ((scheme hashing).digest previous.hash b.redacted) rest = rest := by
      rcases chain with ⟨_, nonempty⟩
      rcases chain' with ⟨_, nonempty'⟩
      obtain rfl : _ = _ := split
      obtain rfl : _ = _ := blocks
      simp
    simp only [unchanged]
    constructor
    · rintro ⟨here, later⟩ front' previous' b' rest' split' position'
      have length : front.length = front'.length := by omega
      obtain ⟨rfl, same⟩ := List.append_inj (split.symm.trans split') length
      simp only [List.cons.injEq] at same
      obtain ⟨rfl, rfl, rfl⟩ := same
      have data : b.data = "[REDACTED]" := congrArg HashLink.data here.symm
      have redacted : b.redacted = b := by rw [HashLink.redacted, ← data]
      have hash : (scheme hashing).digest previous.hash b = b.hash := by
        have at_hash := congrArg HashLink.hash here
        rwa [redacted] at at_hash
      rw [redacted, hash, resealAll_same_iff] at later
      exact ⟨data, hash, later⟩
    · intro settled
      obtain ⟨data, hash, chained⟩ := settled front previous b rest split position
      have redacted : b.redacted = b := by rw [HashLink.redacted, ← data]
      rw [redacted, hash]
      exact ⟨rfl, resealAll_same_iff.mpr chained⟩

end Redaction

section Identifiers

variable {svc svc' : IdentityService} {id : Uuid} {now verifiedAt : Timestamp}

theorem addIdentifier_same_iff {partyId : PartyId} {identifierType : IdentifierType} {value : String}
    {issuingCountry : Option String} :
    (let svc' := (svc.addIdentifier id now partyId identifierType value issuingCountry).2
     svc'.identifiers = svc.identifiers ∧ svc'.partyIdentifiers = svc.partyIdentifiers) ↔
      ∀ party, svc.getParty partyId = some party → party.status ≠ .Active := by
  unfold IdentityService.addIdentifier
  cases svc.getParty partyId with
  | none => simp
  | some party =>
    by_cases active : party.status = .Active
    · simp [active, svc.record_partyIdentifiers_ne]
    · simp [active]

theorem replaceIdentifier_same_iff {oldIdentifierId : Uuid} {newValue : String} :
    (let svc' := (svc.replaceIdentifier id now verifiedAt oldIdentifierId newValue).2
     svc'.identifiers = svc.identifiers ∧ svc'.partyIdentifiers = svc.partyIdentifiers) ↔
      svc.identifiers.lookup oldIdentifierId = none := by
  unfold IdentityService.replaceIdentifier
  cases found : svc.identifiers.lookup oldIdentifierId with
  | none => simp
  | some old =>
    simp only [reduceCtorEq, iff_false, not_and]
    intro _
    exact IdentityService.record_partyIdentifiers_ne
      { svc with identifiers := svc.identifiers.insert oldIdentifierId _ } _

end Identifiers

section Routes

variable {rt : ApiRuntime} {draws : ApiDraws} {st : ApiState}

theorem onAppState_protected_iff {A : Type} {wrap : A → ApiReply}
    {handler : AppState → Except AppError A × AppState} :
    Protected st (onAppState wrap handler st).2 ↔
      BooksKept st.toBooks (handler st.toAppState).2.toBooks :=
  ⟨fun same => ⟨same.accounts, same.journal, same.hashChain⟩,
    fun kept => ⟨kept.accounts, kept.journal, kept.hashChain, rfl, rfl, rfl⟩⟩

theorem identityReply_protected_iff {result : Except IdentityError Identifier × IdentityService} :
    Protected st (identityReply result st).2 ↔
      result.2.identifiers = st.identityService.identifiers ∧
        result.2.partyIdentifiers = st.identityService.partyIdentifiers := by
  rcases result with ⟨e | identifier, svc⟩ <;>
    exact ⟨fun same => ⟨same.identifiers, same.partyIdentifiers⟩,
      fun ⟨identifiers, index⟩ => ⟨rfl, rfl, rfl, identifiers, index, rfl⟩⟩

theorem redactBlock_protected_iff (index : UInt64) :
    Protected st (redactBlock rt index st).2 ↔ SettledAt rt.hashing st.hashChain index.toNat := by
  rw [← redact_same_iff]
  unfold redactBlock
  rcases st.hashChain.redact rt.hashing index with ⟨e | _, chain⟩ <;>
    exact ⟨fun same => same.hashChain, fun same => ⟨rfl, rfl, same, rfl, rfl, rfl⟩⟩

theorem serveTransaction_kept_iff (req : TransactionRequest) :
    BooksKept st.toBooks
        (serveTransaction rt.toTransactionRuntime draws.toDraws req st.toAppState).2.toBooks ↔
      req.completes = none := by
  cases req with
  | create reference => exact iff_of_true (.refl _) rfl
  | commit id =>
    exact iff_of_false (fun kept => append_ne_self _ _ kept.hashChain) (Option.some_ne_none id)
  | reject id =>
    exact iff_of_false (fun kept => append_ne_self _ _ kept.hashChain) (Option.some_ne_none id)

theorem bindRole_forbidden {header : Option (List UInt8)} {subject : SubjectId}
    (valid : extractSubject rt.parseUuid header = some subject)
    (unbound : st.rbac.rolesFor subject = ∅) (subjectId : Uuid) (role : String) :
    bindRole rt header subjectId role st = (.error (.forbidden .manageRoles subject ∅), st) := by
  simp [bindRole, requirePermission, valid, unbound, RbacEngine.cannot_of_no_roles unbound]

end Routes

/-- The request changes nothing whoever sends it, or it is the binding of a role. -/
def ApiRequest.TurnedAway (rt : ApiRuntime) (draws : ApiDraws) (st : ApiState) : ApiRequest → Prop
  | .account req => req.TurnedAway rt.toRuntime draws.toDraws st.toAppState
  | .transaction req => req.completes = none
  -- Of an index that is refused, nothing is asked.
  | .redactBlock index => SettledAt rt.hashing st.hashChain index.toNat
  | .bindRole .. | .createParty .. => True
  | .addIdentifier partyId _ =>
    ∀ party, st.identityService.getParty partyId = some party → party.status ≠ .Active
  | .verifyIdentifier id | .replaceIdentifier id _ =>
    st.identityService.findActive id = none ∨ st.identityService.identifiers.lookup id = none

/-- A subject without roles leaves what is protected as it is exactly if the rate limiter or a check
that is made of every subject turns the request away. -/
theorem protected_iff (rt : ApiRuntime) (draws : ApiDraws) (consumed : Bool)
    (header : Option (List UInt8)) (subject : SubjectId) (req : ApiRequest) (st : ApiState)
    (valid : extractSubject rt.parseUuid header = some subject)
    (unbound : st.rbac.rolesFor subject = ∅) :
    Protected st (buildRouter rt draws consumed header req st).2 ↔
      consumed = false ∨ req.TurnedAway rt draws st := by
  cases consumed with
  | false => exact iff_of_true (.refl st) (.inl rfl)
  | true =>
    rw [or_iff_right (by simp)]
    simp only [buildRouter, if_true]
    cases req with
    | account req => exact onAppState_protected_iff.trans (serve_kept_iff ..)
    | transaction req => exact onAppState_protected_iff.trans (serveTransaction_kept_iff req)
    | redactBlock index => exact redactBlock_protected_iff index
    | bindRole subjectId role =>
      simp only [route, bindRole_forbidden valid unbound]
      exact iff_of_true (.refl st) trivial
    | createParty partyType legalName => exact iff_of_true ⟨rfl, rfl, rfl, rfl, rfl, rfl⟩ trivial
    | addIdentifier partyId req => exact identityReply_protected_iff.trans addIdentifier_same_iff
    | verifyIdentifier id =>
      simp only [route, verifyIdentifier, ApiRequest.TurnedAway]
      cases st.identityService.findActive id with
      | none => exact iff_of_true (.refl st) (.inl rfl)
      | some ident =>
        rw [or_iff_right (by simp)]
        exact identityReply_protected_iff.trans replaceIdentifier_same_iff
    | replaceIdentifier id newValue =>
      simp only [route, replaceIdentifier, ApiRequest.TurnedAway]
      cases st.identityService.findActive id with
      | none => exact iff_of_true (.refl st) (.inl rfl)
      | some ident =>
        rw [or_iff_right (by simp)]
        exact identityReply_protected_iff.trans replaceIdentifier_same_iff

namespace Sample

def apiRuntime : ApiRuntime :=
  { transactionRuntime with
    toLowercase := fun text => text
    parseUuid := fun text =>
      if text = "00000000-0000-0000-0000-0000000000ff" then some (uuid 255) else none }

def apiDraws (n : Nat) : ApiDraws :=
  { draws n with
    partyId := uuid (n + 3), identifierId := uuid (n + 4), effectiveFrom := ⟨0⟩, verifiedAt := ⟨0⟩ }

def stranger : Option (List UInt8) := some "00000000-0000-0000-0000-0000000000ff".toUTF8.data.toList

def apiState (first second : Int64) : ApiState :=
  { ApiState.new runtime ⟨0⟩ with toAppState := twoAccounts first second }

end Sample

open Sample

theorem protected_iff_missing :
    Protected (apiState 1000 0) (buildRouter apiRuntime (apiDraws 10) true stranger
      (.account (.debitAccount (uuid 9) 100)) (apiState 1000 0)).2 ↔
        true = false ∨ (ApiRequest.account (.debitAccount (uuid 9) 100)).TurnedAway apiRuntime
          (apiDraws 10) (apiState 1000 0) :=
  protected_iff apiRuntime (apiDraws 10) true stranger ⟨uuid 255⟩ _ (apiState 1000 0)
    (by decide) (by decide)

/-- A subject without roles debits an account. -/
theorem stranger_debits :
    extractSubject apiRuntime.parseUuid stranger = some ⟨uuid 255⟩ ∧
      (apiState 1000 0).rbac.rolesFor ⟨uuid 255⟩ = ∅ ∧
        ¬ Protected (apiState 1000 0) (buildRouter apiRuntime (apiDraws 10) true stranger
          (.account (.debitAccount (uuid 1) 100)) (apiState 1000 0)).2 := by
  refine ⟨by decide, by decide, fun same => ?_⟩
  have balance := congrArg (fun m : Accounts => (m.lookup (uuid 1)).map Account.balance) same.accounts
  revert balance
  decide

end BankingLedger
