import BankingLedger.Api.Closing
import BankingLedger.Api.Refusals

set_option autoImplicit false

namespace BankingLedger

open FiniteMap AccountService

section Breaker

variable {breaker breaker' breaker'' : CircuitBreaker}

structure CountedUp (k : Nat) (breaker breaker' : CircuitBreaker) : Prop where
  closed : breaker'.state = .Closed
  failureCount : breaker'.failureCount.toNat = breaker.failureCount.toNat + k
  failureThreshold : breaker'.failureThreshold = breaker.failureThreshold
  cooldown : breaker'.cooldown = breaker.cooldown

theorem CountedUp.refl (closed : breaker.state = .Closed) : CountedUp 0 breaker breaker :=
  ⟨closed, rfl, rfl, rfl⟩

theorem CountedUp.trans {k l : Nat} (first : CountedUp k breaker breaker')
    (second : CountedUp l breaker' breaker'') : CountedUp (k + l) breaker breaker'' where
  closed := second.closed
  failureCount := by rw [second.failureCount, first.failureCount, Nat.add_assoc]
  failureThreshold := second.failureThreshold.trans first.failureThreshold
  cooldown := second.cooldown.trans first.cooldown

theorem toNat_failureCount_succ
    (fits : breaker.failureCount.toNat + 1 ≤ breaker.failureThreshold.toNat) :
    (breaker.failureCount + 1).toNat = breaker.failureCount.toNat + 1 := by
  have bound := breaker.failureThreshold.toNat_lt
  rw [UInt32.toNat_add, UInt32.toNat_one, Nat.mod_eq_of_lt (by omega)]

theorem recordFailure_below (closed : breaker.state = .Closed)
    (below : breaker.failureCount.toNat + 1 < breaker.failureThreshold.toNat) (now : Nat) :
    CountedUp 1 breaker (breaker.recordFailure now) := by
  have count : (breaker.failureCount + 1).toNat = breaker.failureCount.toNat + 1 :=
    toNat_failureCount_succ (by omega)
  have fits : ¬ breaker.failureThreshold ≤ breaker.failureCount + 1 := by
    rw [UInt32.le_iff_toNat_le, count]
    omega
  rw [CircuitBreaker.recordFailure_under fits]
  exact ⟨closed, count, rfl, rfl⟩

theorem recordFailure_trips
    (reaches : breaker.failureCount.toNat + 1 = breaker.failureThreshold.toNat) {now later : Nat}
    (soon : later - now < breaker.cooldown) :
    ((breaker.recordFailure now).allowRequest later).1 = false := by
  have full : breaker.failureThreshold ≤ breaker.failureCount + 1 := by
    rw [UInt32.le_iff_toNat_le, toNat_failureCount_succ reaches.le, reaches]
  have early : ¬ (breaker.recordFailure now).Waited later := by
    rw [CircuitBreaker.recordFailure_reached full]
    simpa [CircuitBreaker.Waited] using soon
  have opened : (breaker.recordFailure now).state = .Open := by rw [CircuitBreaker.recordFailure_reached full]
  rw [CircuitBreaker.allowRequest_early opened early]

end Breaker

/-- The refusals that a handler reports to the breaker. -/
def AppError.counted : AppError → Bool
  | .badRequest (.debitRejected _) | .badRequest (.creditRejected _) | .badRequest (.holdFailed _)
  | .badRequest (.debitFailed _) | .badRequest (.creditFailed _) => true
  | _ => false

def AccountRequest.funds : AccountRequest → Bool
  | .debitAccount .. | .creditAccount .. | .placeHold .. | .releaseHold .. | .transfer _ => true
  | _ => false

abbrev AccountCall := Draws × AccountRequest

def serveCall (rt : Runtime) (st : AppState) (call : AccountCall) : AppState :=
  (serve rt call.1 call.2 st).2

def refusal (rt : Runtime) (st : AppState) (call : AccountCall) : Option AppError :=
  match (serve rt call.1 call.2 st).1 with
  | .error e => some e
  | .ok _ => none

def RefusedForBusiness (rt : Runtime) (st : AppState) (call : AccountCall) : Prop :=
  call.2.funds = true ∧ (refusal rt st call).isSome ∧ refusal rt st call ≠ some .serviceUnavailable

instance (rt : Runtime) (st : AppState) (call : AccountCall) : Decidable (RefusedForBusiness rt st call) :=
  inferInstanceAs (Decidable (_ ∧ _ ∧ _))

def countedAt (rt : Runtime) (st : AppState) (call : AccountCall) : Nat :=
  if ((refusal rt st call).map AppError.counted).getD false then 1 else 0

def countedIn (rt : Runtime) : AppState → List AccountCall → Nat
  | _, [] => 0
  | st, call :: rest => countedAt rt st call + countedIn rt (serveCall rt st call) rest

theorem countedIn_append (rt : Runtime) (st : AppState) (first second : List AccountCall) :
    countedIn rt st (first ++ second) =
      countedIn rt st first + countedIn rt (Runs.run (serveCall rt) st first) second := by
  induction first generalizing st with
  | nil => simp [countedIn]
  | cons call rest ih => simp [countedIn, ih, Nat.add_assoc]

section Refused

variable {rt : Runtime} {draws : Draws} {st st' : AppState} {e : AppError} {id : AccountId}
  {amount : Int64}

def afterRefusal (draws : Draws) (e : AppError) (breaker : CircuitBreaker) : CircuitBreaker :=
  let breaker := (breaker.allowRequest draws.arrival).2
  if e.counted then breaker.recordFailure draws.failure else breaker

theorem movementHandler_refused {E : Type}
    {operation : Accounts → AccountId → Int64 → Except E Int64 × Accounts} {reason : E → Reason}
    (counts : ∀ e, (AppError.badRequest (reason e)).counted = true) (business : e ≠ .serviceUnavailable)
    (failed : movementHandler operation reason rt draws id amount st = (.error e, st')) :
    st'.circuitBreaker = afterRefusal draws e st.circuitBreaker ∧ st'.journal = st.journal := by
  unfold movementHandler at failed
  simp only at failed
  split_ifs at failed
  · cases failed
    exact absurd rfl business
  · generalize operation st.accounts id amount = result at failed
    rcases result with ⟨error | newBalance, accounts⟩
    · cases failed
      exact ⟨by simp [afterRefusal, counts], rfl⟩
    · simp only at failed
      split at failed <;> cases failed
      exact ⟨rfl, rfl⟩

theorem holdHandler_refused
    {operation : Accounts → AccountId → Int64 → Except HoldError Unit × Accounts}
    (business : e ≠ .serviceUnavailable)
    (failed : holdHandler operation draws id amount st = (.error e, st')) :
    st'.circuitBreaker = afterRefusal draws e st.circuitBreaker ∧ st'.journal = st.journal := by
  unfold holdHandler at failed
  simp only at failed
  split_ifs at failed
  · cases failed
    exact absurd rfl business
  · generalize operation st.accounts id amount = result at failed
    rcases result with ⟨error | _, accounts⟩
    · cases failed
      exact ⟨rfl, rfl⟩
    · simp only at failed
      split at failed <;> cases failed
      exact ⟨rfl, rfl⟩

theorem moveFunds_counted {req : TransferRequest} {accounts accounts' : Accounts} {reason : Reason}
    (failed : moveFunds req accounts = (.error reason, accounts')) :
    (AppError.badRequest reason).counted = true := by
  unfold moveFunds at failed
  split at failed
  · cases failed
    rfl
  · split at failed <;> cases failed
    rfl

-- A refused transfer may have left its entry in the journal.
theorem transfer_refused {req : TransferRequest} (business : e ≠ .serviceUnavailable)
    (failed : transfer rt draws req st = (.error e, st')) :
    st'.circuitBreaker = afterRefusal draws e st.circuitBreaker ∧
      ∃ extra, st'.journal = st.journal ++ extra := by
  unfold transfer at failed
  simp only at failed
  split_ifs at failed
  · cases failed
    exact absurd rfl business
  · cases sender : getAccount st.accounts req.fromAccount with
    | none =>
      simp only [sender] at failed
      cases failed
      exact ⟨rfl, [], (List.append_nil _).symm⟩
    | some snapshot =>
      simp only [sender, journalTransfer] at failed
      split at failed <;> rename_i written
      · split at written
        · cases written
          cases failed
          exact ⟨rfl, [], (List.append_nil _).symm⟩
        · split at written <;> cases written
          cases failed
          exact ⟨rfl, [], (List.append_nil _).symm⟩
      · split at written
        · cases written
        · split at written <;> cases written
          simp only at failed
          split at failed <;> rename_i moved
          · cases failed
            exact ⟨by simp [afterRefusal, moveFunds_counted moved], _, rfl⟩
          · split at failed <;> cases failed
            exact ⟨rfl, _, rfl⟩

theorem serve_refused {req : AccountRequest} (funds : req.funds = true)
    (business : e ≠ .serviceUnavailable) (failed : serve rt draws req st = (.error e, st')) :
    st'.circuitBreaker = afterRefusal draws e st.circuitBreaker ∧
      ∃ extra, st'.journal = st.journal ++ extra := by
  have unmoved : st'.circuitBreaker = afterRefusal draws e st.circuitBreaker ∧
      st'.journal = st.journal → st'.circuitBreaker = afterRefusal draws e st.circuitBreaker ∧
        ∃ extra, st'.journal = st.journal ++ extra :=
    fun ⟨breaker, journal⟩ => ⟨breaker, [], by rw [journal, List.append_nil]⟩
  cases req with
  | debitAccount id amount =>
    exact unmoved (movementHandler_refused (fun _ => rfl) business (replying_error failed))
  | creditAccount id amount =>
    exact unmoved (movementHandler_refused (fun _ => rfl) business (replying_error failed))
  | placeHold id amount => exact unmoved (holdHandler_refused business (replying_error failed))
  | releaseHold id amount => exact unmoved (holdHandler_refused business (replying_error failed))
  | transfer req => exact transfer_refused business (replying_error failed)
  | _ => cases funds

end Refused

section Undisturbed

variable {rt : Runtime} {st st' st'' : AppState}

/-- `k` refusals later: the accounts are as they were, the breaker is closed and has counted them. -/
structure Undisturbed (k : Nat) (st st' : AppState) : Prop where
  accounts : st'.accounts = st.accounts
  journal : ∃ extra, st'.journal = st.journal ++ extra
  breaker : CountedUp k st.circuitBreaker st'.circuitBreaker

theorem Undisturbed.refl (closed : st.circuitBreaker.state = .Closed) : Undisturbed 0 st st :=
  ⟨rfl, ⟨[], (List.append_nil _).symm⟩, .refl closed⟩

theorem Undisturbed.trans {k l : Nat} (first : Undisturbed k st st') (second : Undisturbed l st' st'') :
    Undisturbed (k + l) st st'' := by
  obtain ⟨early, journal⟩ := first.journal
  obtain ⟨late, journal'⟩ := second.journal
  refine ⟨second.accounts.trans first.accounts, ⟨early ++ late, ?_⟩, first.breaker.trans second.breaker⟩
  rw [journal', journal, List.append_assoc]

theorem refused_unfold {call : AccountCall} (refused : RefusedForBusiness rt st call) :
    call.2.funds = true ∧ ∃ e, e ≠ .serviceUnavailable ∧
      serve rt call.1 call.2 st = (.error e, serveCall rt st call) ∧
      countedAt rt st call = if e.counted then 1 else 0 := by
  obtain ⟨funds, failed, business⟩ := refused
  refine ⟨funds, ?_⟩
  unfold countedAt serveCall
  unfold refusal at failed business ⊢
  rcases answered : serve rt call.1 call.2 st with ⟨e | reply, st'⟩
  · simp only [answered] at business ⊢
    exact ⟨e, fun same => business (by rw [same]), rfl, rfl⟩
  · simp [answered] at failed

theorem refused_undisturbed {call : AccountCall} (covered : Covered st.accounts)
    (closed : st.circuitBreaker.state = .Closed) (refused : RefusedForBusiness rt st call)
    (below : st.circuitBreaker.failureCount.toNat + countedAt rt st call <
      st.circuitBreaker.failureThreshold.toNat) :
    Undisturbed (countedAt rt st call) st (serveCall rt st call) := by
  obtain ⟨funds, e, business, failed, counted⟩ := refused_unfold refused
  obtain ⟨breaker, journal⟩ := serve_refused funds business failed
  have clean : call.2.StopsClean st := by
    rcases call with ⟨draws, req⟩
    cases req with
    | reverseJournalEntry entryId => cases funds
    | _ => trivial
  refine ⟨serve_error covered clean failed, journal, ?_⟩
  rw [counted] at below ⊢
  rw [breaker, afterRefusal, CircuitBreaker.allowRequest_closed closed]
  split_ifs at below ⊢
  · exact recordFailure_below closed below _
  · exact .refl closed

theorem run_undisturbed (covered : Covered st.accounts) (closed : st.circuitBreaker.state = .Closed)
    (refusals : List AccountCall)
    (refused : Runs.Meets (serveCall rt) (RefusedForBusiness rt) st refusals)
    (below : st.circuitBreaker.failureCount.toNat + countedIn rt st refusals <
      st.circuitBreaker.failureThreshold.toNat) :
    Undisturbed (countedIn rt st refusals) st (Runs.run (serveCall rt) st refusals) := by
  induction refusals generalizing st with
  | nil => exact .refl closed
  | cons call rest ih =>
    obtain ⟨now, later⟩ := refused
    rw [countedIn] at below ⊢
    have first := refused_undisturbed covered closed now (by omega)
    have still : Covered (serveCall rt st call).accounts := by
      rw [first.accounts]
      exact covered
    refine first.trans (ih still first.breaker.closed later ?_)
    rw [first.breaker.failureCount, first.breaker.failureThreshold]
    omega

end Undisturbed

section Following

def AccountReply.unplaced : AccountReply → AccountReply
  | .transfer response => .transfer { response with chainIndex := 0, chainHash := "" }
  | .reversal response => .reversal { response with sequenceNumber := 0 }
  | reply => reply

structure SameResult (first second : Except AppError AccountReply × AppState) : Prop where
  reply : second.1.map AccountReply.unplaced = first.1.map AccountReply.unplaced
  accounts : second.2.accounts = first.2.accounts

/-- `serde_json::to_string` does not fail on a journal entry. -/
def Serializes (rt : Runtime) : Prop := ∀ entry, ∃ text, rt.entryToJson entry = .ok text

variable {rt : Runtime} {draws : Draws} {st st' : AppState} {id : AccountId} {amount : Int64}

theorem movementHandler_same {E : Type}
    {operation : Accounts → AccountId → Int64 → Except E Int64 × Accounts} {reason : E → Reason}
    (accounts : st'.accounts = st.accounts)
    (admitted : (st.circuitBreaker.allowRequest draws.arrival).1 = true)
    (admitted' : (st'.circuitBreaker.allowRequest draws.arrival).1 = true) :
    SameResult (replying .account (movementHandler operation reason rt draws id amount st))
      (replying .account (movementHandler operation reason rt draws id amount st')) := by
  simp only [movementHandler, admitted, admitted', accounts, Bool.not_true, Bool.false_eq_true, if_false]
  rcases operation st.accounts id amount with ⟨e | newBalance, after⟩
  · exact ⟨rfl, rfl⟩
  · simp only
    cases getAccount after id <;> exact ⟨rfl, rfl⟩

theorem holdHandler_same
    {operation : Accounts → AccountId → Int64 → Except HoldError Unit × Accounts}
    (accounts : st'.accounts = st.accounts)
    (admitted : (st.circuitBreaker.allowRequest draws.arrival).1 = true)
    (admitted' : (st'.circuitBreaker.allowRequest draws.arrival).1 = true) :
    SameResult (replying .hold (holdHandler operation draws id amount st))
      (replying .hold (holdHandler operation draws id amount st')) := by
  simp only [holdHandler, admitted, admitted', accounts, Bool.not_true, Bool.false_eq_true, if_false]
  rcases operation st.accounts id amount with ⟨e | _, after⟩
  · exact ⟨rfl, rfl⟩
  · simp only
    cases getAccount after id <;> exact ⟨rfl, rfl⟩

theorem createAccount_same {req : CreateAccountRequest} (accounts : st'.accounts = st.accounts)
    (admitted : (st.circuitBreaker.allowRequest draws.arrival).1 = true)
    (admitted' : (st'.circuitBreaker.allowRequest draws.arrival).1 = true) :
    SameResult (replying .account (createAccount rt draws req st))
      (replying .account (createAccount rt draws req st')) := by
  simp only [createAccount, admitted, admitted', accounts, Bool.not_true, Bool.false_eq_true, if_false]
  cases parseAccountType (rt.toUppercase req.accountType) with
  | none => exact ⟨rfl, accounts⟩
  | some accountType => exact ⟨rfl, rfl⟩

theorem setAccountStatus_same {status : Option String} (accounts : st'.accounts = st.accounts)
    (admitted : (st.circuitBreaker.allowRequest draws.arrival).1 = true)
    (admitted' : (st'.circuitBreaker.allowRequest draws.arrival).1 = true) :
    SameResult (replying .account (setAccountStatus rt draws id status st))
      (replying .account (setAccountStatus rt draws id status st')) := by
  simp only [setAccountStatus, admitted, admitted', accounts, Bool.not_true, Bool.false_eq_true,
    if_false]
  cases parseStatus (rt.toUppercase (status.getD "OPEN")) with
  | none => exact ⟨rfl, accounts⟩
  | some newStatus =>
    simp only
    rcases setStatus st.accounts id newStatus with ⟨e | _ | _, after⟩
    · exact ⟨rfl, rfl⟩
    · exact ⟨rfl, rfl⟩
    · simp only
      cases getAccount after id <;> exact ⟨rfl, rfl⟩

theorem coaDeactivate_same (accounts : st'.accounts = st.accounts) :
    SameResult (replying .deactivated (coaDeactivate rt draws id st))
      (replying .deactivated (coaDeactivate rt draws id st')) := by
  simp only [coaDeactivate, accounts]
  rcases setStatus st.accounts id .Closed with ⟨e | _ | _, after⟩ <;> exact ⟨rfl, rfl⟩

theorem transfer_same {req : TransferRequest} (serializes : Serializes rt)
    (accounts : st'.accounts = st.accounts)
    (admitted' : (st'.circuitBreaker.allowRequest draws.arrival).1 = true)
    (valid : (transfer rt draws req st).1.isOk = true) :
    SameResult (replying .transfer (transfer rt draws req st))
      (replying .transfer (transfer rt draws req st')) := by
  obtain ⟨journalled, pass⟩ := (transfer_ok_iff rt draws req st).mp valid
  obtain ⟨admitted, sender, positive, text, serialized⟩ := journalled
  obtain ⟨text', serialized'⟩ := serializes (req.entry draws (st'.journalSeq + 1))
  obtain ⟨a, found⟩ := Option.isSome_iff_exists.mp sender
  obtain ⟨after, moved, -⟩ := moveFunds_passes pass
  simp only [transfer, admitted, admitted', accounts, Bool.not_true, Bool.false_eq_true, if_false,
    getAccount, found, journalTransfer, TransferRequest.entry_accepted positive, serialized,
    serialized', moved]
  cases after.lookup req.fromAccount <;> cases after.lookup req.toAccount <;> exact ⟨rfl, rfl⟩

theorem reverseJournalEntry_same {entryId : JournalEntryId} (accounts : st'.accounts = st.accounts)
    (journal : ∃ extra, st'.journal = st.journal ++ extra)
    (valid : (reverseJournalEntry rt draws entryId st).1.isOk = true) :
    SameResult (replying .reversal (reverseJournalEntry rt draws entryId st))
      (replying .reversal (reverseJournalEntry rt draws entryId st')) := by
  obtain ⟨original, found, balanced, pass⟩ := (reversal_ok_iff rt draws entryId st).mp valid
  obtain ⟨extra, journal⟩ := journal
  have found' : entryById st'.journal entryId = some original := by
    unfold entryById at found ⊢
    rw [journal, List.find?_append, found, Option.some_or]
  unfold entryById at found found'
  simp only [reverseJournalEntry, found, found', JournalEntry.reverse_of_balanced balanced, accounts]
  rcases forLegs reversalLeg st.accounts (original.legs.map EntryLeg.flipped) with ⟨e | _, after⟩ <;>
    exact ⟨rfl, rfl⟩

theorem serve_same {req : AccountRequest} (serializes : Serializes rt)
    (accounts : st'.accounts = st.accounts) (journal : ∃ extra, st'.journal = st.journal ++ extra)
    (admitted : (st.circuitBreaker.allowRequest draws.arrival).1 = true)
    (admitted' : (st'.circuitBreaker.allowRequest draws.arrival).1 = true)
    (valid : (serve rt draws req st).1.isOk = true) :
    SameResult (serve rt draws req st) (serve rt draws req st') := by
  have inner {A : Type} {wrap : A → AccountReply} {result : Except AppError A × AppState}
      (ok : (replying wrap result).1.isOk = true) : result.1.isOk = true := by
    rcases result with ⟨_ | _, _⟩ <;> exact ok
  cases req with
  | createAccount req => exact createAccount_same accounts admitted admitted'
  | debitAccount id amount => exact movementHandler_same accounts admitted admitted'
  | creditAccount id amount => exact movementHandler_same accounts admitted admitted'
  | setAccountStatus id status => exact setAccountStatus_same accounts admitted admitted'
  | placeHold id amount => exact holdHandler_same accounts admitted admitted'
  | releaseHold id amount => exact holdHandler_same accounts admitted admitted'
  | transfer req => exact transfer_same serializes accounts admitted' (inner valid)
  | reverseJournalEntry entryId => exact reverseJournalEntry_same accounts journal (inner valid)
  | coaDeactivate id => exact coaDeactivate_same accounts

def AccountRequest.guarded : AccountRequest → Bool
  | .reverseJournalEntry _ | .coaDeactivate _ => false
  | _ => true

theorem serve_unavailable {req : AccountRequest} (guarded : req.guarded = true)
    (rejected : (st.circuitBreaker.allowRequest draws.arrival).1 = false) :
    (serve rt draws req st).1 = .error .serviceUnavailable := by
  cases req with
  | createAccount req => simp [serve, replying, createAccount, rejected, Except.map]
  | debitAccount id amount => simp [serve, replying, debitAccount, movementHandler, rejected, Except.map]
  | creditAccount id amount => simp [serve, replying, creditAccount, movementHandler, rejected, Except.map]
  | setAccountStatus id status => simp [serve, replying, setAccountStatus, rejected, Except.map]
  | placeHold id amount => simp [serve, replying, placeHold, holdHandler, rejected, Except.map]
  | releaseHold id amount => simp [serve, replying, releaseHold, holdHandler, rejected, Except.map]
  | transfer req => simp [serve, replying, transfer, rejected, Except.map]
  | _ => cases guarded

def TripsAt (rt : Runtime) (st : AppState) (refusals : List AccountCall) (now : Nat) : Prop :=
  ∃ earlier last, refusals = earlier ++ [last] ∧ last.1.failure = now ∧
    st.circuitBreaker.failureCount.toNat + countedIn rt st earlier <
      st.circuitBreaker.failureThreshold.toNat ∧
    st.circuitBreaker.failureThreshold.toNat ≤
      st.circuitBreaker.failureCount.toNat + countedIn rt st refusals

theorem trips_rejects {refusals : List AccountCall} {now : Nat} (covered : Covered st.accounts)
    (closed : st.circuitBreaker.state = .Closed)
    (refused : Runs.Meets (serveCall rt) (RefusedForBusiness rt) st refusals)
    (trips : TripsAt rt st refusals now) (soon : draws.arrival - now < st.circuitBreaker.cooldown) :
    ((Runs.run (serveCall rt) st refusals).circuitBreaker.allowRequest draws.arrival).1 = false := by
  obtain ⟨earlier, last, rfl, rfl, below, reaches⟩ := trips
  obtain ⟨before, now, -⟩ := Runs.meets_append.mp refused
  have undisturbed := run_undisturbed covered closed earlier before below
  obtain ⟨funds, e, business, failed, counts⟩ := refused_unfold now
  rw [countedIn_append, countedIn, countedIn, counts] at reaches
  have counted : e.counted = true := by
    by_contra uncounted
    rw [if_neg uncounted] at reaches
    omega
  rw [if_pos counted] at reaches
  have breaker := (serve_refused funds business failed).1
  rw [afterRefusal, CircuitBreaker.allowRequest_closed undisturbed.breaker.closed, if_pos counted] at breaker
  rw [Runs.run_append, Runs.run_cons, Runs.run_nil, breaker]
  refine recordFailure_trips ?_ (by rwa [undisturbed.breaker.cooldown])
  rw [undisturbed.breaker.failureCount, undisturbed.breaker.failureThreshold]
  omega

/-- Refused requests are not noticed by a valid one that follows as long as the breaker has counted
fewer of them than its threshold. From the one that reaches it, everyone is turned away until the
cooldown is over. -/
theorem refusals_below_threshold_unnoticed (rt : Runtime) (serializes : Serializes rt) (st : AppState)
    (covered : Covered st.accounts) (closed : st.circuitBreaker.state = .Closed)
    (refusals : List AccountCall)
    (refused : Runs.Meets (serveCall rt) (RefusedForBusiness rt) st refusals) (draws : Draws)
    (req : AccountRequest) :
    ((serve rt draws req st).1.isOk = true →
      st.circuitBreaker.failureCount.toNat + countedIn rt st refusals < st.circuitBreaker.failureThreshold.toNat →
      SameResult (serve rt draws req st)
        (serve rt draws req (Runs.run (serveCall rt) st refusals))) ∧
    (∀ now, TripsAt rt st refusals now → req.guarded = true →
      draws.arrival - now < st.circuitBreaker.cooldown →
        (serve rt draws req (Runs.run (serveCall rt) st refusals)).1 = .error .serviceUnavailable) := by
  constructor
  · intro valid below
    have undisturbed := run_undisturbed covered closed refusals refused below
    exact serve_same serializes undisturbed.accounts undisturbed.journal
      (by rw [CircuitBreaker.allowRequest_closed closed])
      (by rw [CircuitBreaker.allowRequest_closed undisturbed.breaker.closed]) valid
  · intro now trips guarded soon
    exact serve_unavailable guarded (trips_rejects covered closed refused trips soon)

end Following

namespace Sample

def afterOpening : AppState :=
  Runs.run (RegistryEvent.apply runtime) (.new runtime ⟨0⟩)
    [.request (draws 1) (.createAccount ⟨"ASSET", "USD", 1000⟩)]

def refusedDebits (n : Nat) : List AccountCall :=
  List.replicate n (draws 10, .debitAccount (uuid 9) 100)

end Sample

open Sample

theorem one_refusal_unnoticed :
    SameResult (serve runtime (draws 20) (.debitAccount (uuid 1) 100) afterOpening)
      (serve runtime (draws 20) (.debitAccount (uuid 1) 100)
        (Runs.run (serveCall runtime) afterOpening (refusedDebits 1))) :=
  (refusals_below_threshold_unnoticed runtime (fun _ => ⟨_, rfl⟩) afterOpening
    (reached_covered runtime _ _) rfl (refusedDebits 1) (by decide) (draws 20) (.debitAccount (uuid 1) 100)).1
    (by decide) (by decide)

/-- After ten debits of a missing account a debit that would pass is turned away. -/
theorem ten_refusals_deny_service :
    afterOpening.circuitBreaker.state = .Closed ∧
      Runs.Meets (serveCall runtime) (RefusedForBusiness runtime) afterOpening (refusedDebits 10) ∧
      refusal runtime afterOpening (draws 20, .debitAccount (uuid 1) 100) = none ∧
      refusal runtime (Runs.run (serveCall runtime) afterOpening (refusedDebits 10))
        (draws 20, .debitAccount (uuid 1) 100) = some .serviceUnavailable := by
  decide +kernel

end BankingLedger
