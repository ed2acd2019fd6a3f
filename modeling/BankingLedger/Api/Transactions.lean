import BankingLedger.Shared.Runs
import BankingLedger.Api.Reversal

set_option autoImplicit false

namespace BankingLedger

open FiniteMap

structure TransactionRuntime extends Runtime where
  actionToJson : (action transactionId : String) → String

inductive TransactionResponse where
  | created (transactionId : TransactionId) (reference status : String) (createdAt : Timestamp)
  | completed (transactionId : TransactionId) (status : String) (completedAt : Timestamp)
deriving DecidableEq, Repr

-- The new transaction goes into the response and is dropped.
def createTransaction (draws : Draws) (reference : String) (st : AppState) :
    Except AppError TransactionResponse × AppState :=
  let txn := Transaction.new draws.transactionId draws.recordedAt reference
  (.ok (.created txn.id txn.reference "Pending" txn.createdAt), st)

-- `commit_transaction` and `reject_transaction` differ in the two texts only.
def completeTransaction (action status : String) (rt : TransactionRuntime) (draws : Draws)
    (txnId : TransactionId) (st : AppState) : Except AppError TransactionResponse × AppState :=
  let blockData := rt.actionToJson action (rt.printUuid txnId)
  let appended := st.hashChain.append rt.hashing draws.blockTime blockData
  (.ok (.completed txnId status draws.recordedAt), { st with hashChain := appended.2 })

def commitTransaction : TransactionRuntime → Draws → TransactionId → AppState →
    Except AppError TransactionResponse × AppState :=
  completeTransaction "transaction_commit" "Committed"

def rejectTransaction : TransactionRuntime → Draws → TransactionId → AppState →
    Except AppError TransactionResponse × AppState :=
  completeTransaction "transaction_reject" "Rejected"

inductive TransactionRequest where
  | create (reference : String)
  | commit (id : TransactionId)
  | reject (id : TransactionId)
deriving DecidableEq, Repr

def serveTransaction (rt : TransactionRuntime) (draws : Draws) (req : TransactionRequest)
    (st : AppState) : Except AppError TransactionResponse × AppState :=
  match req with
  | .create reference => createTransaction draws reference st
  | .commit id => commitTransaction rt draws id st
  | .reject id => rejectTransaction rt draws id st

section Domain

abbrev Transactions := Map TransactionId Transaction

def openTransaction (txn : Transaction) (txns : Transactions) : Transactions :=
  if (txns.lookup txn.id).isSome then txns else txns.insert txn.id txn

def completeWith (operation : Timestamp → Transaction → Bool × Transaction) (status : String)
    (now : Timestamp) (id : TransactionId) (txns : Transactions) :
    Option TransactionResponse × Transactions :=
  match txns.lookup id with
  | none => (none, txns)
  | some txn =>
    match operation now txn with
    | (false, _) => (none, txns)
    | (true, txn) => (some (.completed txn.id status now), txns.insert id txn)

def domainAnswer (draws : Draws) (req : TransactionRequest) (txns : Transactions) :
    Option TransactionResponse × Transactions :=
  match req with
  | .create reference =>
    let txn := Transaction.new draws.transactionId draws.recordedAt reference
    (some (.created txn.id txn.reference "Pending" txn.createdAt), openTransaction txn txns)
  | .commit id => completeWith Transaction.commit "Committed" draws.recordedAt id txns
  | .reject id => completeWith Transaction.reject "Rejected" draws.recordedAt id txns

abbrev TransactionCall := Draws × TransactionRequest

def AnswersAsDomain (rt : TransactionRuntime) (both : AppState × Transactions)
    (call : TransactionCall) : Prop :=
  let endpoint := serveTransaction rt call.1 call.2 both.1
  let domain := domainAnswer call.1 call.2 both.2
  endpoint.1.toOption = domain.1 ∧ (domain.1 = none → endpoint.2.hashChain = both.1.hashChain)

def serveBoth (rt : TransactionRuntime) (both : AppState × Transactions) (call : TransactionCall) :
    AppState × Transactions :=
  ((serveTransaction rt call.1 call.2 both.1).2, (domainAnswer call.1 call.2 both.2).2)

def RefinesDomain (rt : TransactionRuntime) (st : AppState) (calls : List TransactionCall) : Prop :=
  Runs.Meets (serveBoth rt) (AnswersAsDomain rt) (st, ∅) calls

end Domain

section Order

def TransactionRequest.completes : TransactionRequest → Option TransactionId
  | .create _ => none
  | .commit id | .reject id => some id

def Created (history : List TransactionCall) (id : TransactionId) : Prop :=
  ∃ call ∈ history, call.2.completes = none ∧ call.1.transactionId = id

def Completed (history : List TransactionCall) (id : TransactionId) : Prop :=
  ∃ call ∈ history, call.2.completes = some id

-- A completion is of a transaction created before and not completed before.
def FitsHistory (history : List TransactionCall) (call : TransactionCall) : Prop :=
  ∀ id, call.2.completes = some id → Created history id ∧ ¬ Completed history id

def InOrder (calls : List TransactionCall) : Prop :=
  Runs.Meets (fun history call => history ++ [call]) FitsHistory [] calls

variable {history : List TransactionCall} {call : TransactionCall} {id : TransactionId}

theorem created_append :
    Created (history ++ [call]) id ↔
      Created history id ∨ (call.2.completes = none ∧ call.1.transactionId = id) := by
  simp only [Created, List.mem_append, List.mem_singleton, or_and_right, exists_or, exists_eq_left]

theorem completed_append :
    Completed (history ++ [call]) id ↔ Completed history id ∨ call.2.completes = some id := by
  simp only [Completed, List.mem_append, List.mem_singleton, or_and_right, exists_or, exists_eq_left]

end Order

section Refinement

structure Tracks (history : List TransactionCall) (txns : Transactions) : Prop where
  created : ∀ id, (txns.lookup id).isSome ↔ Created history id
  id : ∀ id txn, txns.lookup id = some txn → txn.id = id
  pending : ∀ id txn, txns.lookup id = some txn → (txn.status = .pending ↔ ¬ Completed history id)
  -- A completion that fits comes after the creation of what it completes.
  opened : ∀ id, Completed history id → Created history id

variable {history : List TransactionCall} {txns : Transactions}

theorem tracks_nil : Tracks [] ∅ := by
  constructor <;> simp [Created, Completed]

theorem Tracks.create (tracks : Tracks history txns) {call : TransactionCall} {txn : Transaction}
    (creating : call.2.completes = none) (drawn : call.1.transactionId = txn.id)
    (pending : txn.status = .pending) :
    Tracks (history ++ [call]) (openTransaction txn txns) := by
  have kept : ∀ id, Completed (history ++ [call]) id ↔ Completed history id := by
    intro id
    simp [completed_append, creating]
  have grown : ∀ id, Created (history ++ [call]) id ↔ Created history id ∨ txn.id = id := by
    intro id
    simp [created_append, creating, drawn]
  have opened : ∀ id, Completed (history ++ [call]) id → Created (history ++ [call]) id :=
    fun id completed => (grown id).mpr (.inl (tracks.opened id ((kept id).mp completed)))
  unfold openTransaction
  by_cases present : (txns.lookup txn.id).isSome
  · rw [if_pos present]
    have known := (tracks.created _).mp present
    refine ⟨fun id => ?_, tracks.id, fun id txn found => ?_, opened⟩
    · rw [tracks.created, grown]
      exact ⟨.inl, fun either => either.elim (fun created => created) (fun same => same ▸ known)⟩
    · rw [kept]
      exact tracks.pending id txn found
  · rw [if_neg present]
    have fresh : ¬ Completed history txn.id := fun completed =>
      present ((tracks.created _).mpr (tracks.opened _ completed))
    refine ⟨fun id => ?_, fun id other found => ?_, fun id other found => ?_, opened⟩
    · rw [lookup_insert_eq, grown, ← tracks.created]
      split_ifs with same
      · simp [same]
      · simp [Ne.symm same]
    · rcases lookup_insert_cases found with ⟨rfl, rfl⟩ | before
      · rfl
      · exact tracks.id id other before
    · rw [kept]
      rcases lookup_insert_cases found with ⟨rfl, rfl⟩ | before
      · simp [fresh, pending]
      · exact tracks.pending id other before

structure CompletesPending (operation : Timestamp → Transaction → Bool × Transaction) : Prop where
  refused : ∀ now txn, txn.status ≠ .pending → operation now txn = (false, txn)
  done : ∀ now txn, txn.status = .pending → ∃ txn', operation now txn = (true, txn') ∧
    txn'.id = txn.id ∧ txn'.status ≠ .pending

theorem commit_completesPending : CompletesPending Transaction.commit := by
  constructor
  · intro now txn terminal
    rw [Transaction.commit, if_pos terminal]
  · intro now txn pending
    rw [Transaction.commit, if_neg (not_not_intro pending)]
    exact ⟨_, rfl, rfl, by simp⟩

theorem reject_completesPending : CompletesPending Transaction.reject := by
  constructor
  · intro now txn terminal
    rw [Transaction.reject, if_pos terminal]
  · intro now txn pending
    rw [Transaction.reject, if_neg (not_not_intro pending)]
    exact ⟨_, rfl, rfl, by simp⟩

section Complete

variable {operation : Timestamp → Transaction → Bool × Transaction} (status : String)
  (now : Timestamp) {id : TransactionId}

theorem completeWith_done (completes : CompletesPending operation) (tracks : Tracks history txns)
    (created : Created history id) (unfinished : ¬ Completed history id) :
    ∃ txn', completeWith operation status now id txns =
        (some (.completed id status now), txns.insert id txn') ∧
      txn'.id = id ∧ txn'.status ≠ .pending := by
  obtain ⟨txn, found⟩ := Option.isSome_iff_exists.mp ((tracks.created id).mpr created)
  obtain ⟨txn', done, same, terminal⟩ := completes.done now txn ((tracks.pending id txn found).mpr unfinished)
  have own : txn'.id = id := same.trans (tracks.id id txn found)
  refine ⟨txn', ?_, own, terminal⟩
  simp only [completeWith, found, done, own]

theorem completeWith_refused (completes : CompletesPending operation) (tracks : Tracks history txns)
    (unfit : ¬ (Created history id ∧ ¬ Completed history id)) :
    (completeWith operation status now id txns).1 = none := by
  unfold completeWith
  cases found : txns.lookup id with
  | none => rfl
  | some txn =>
    have created : Created history id := (tracks.created id).mp (by simp [found])
    have terminal : txn.status ≠ .pending := fun pending =>
      unfit ⟨created, (tracks.pending id txn found).mp pending⟩
    simp only [completes.refused now txn terminal]

theorem Tracks.complete (tracks : Tracks history txns) {call : TransactionCall} {txn : Transaction}
    (completing : call.2.completes = some id) (created : Created history id) (own : txn.id = id)
    (terminal : txn.status ≠ .pending) : Tracks (history ++ [call]) (txns.insert id txn) := by
  have grown : ∀ other, Completed (history ++ [call]) other ↔ Completed history other ∨ id = other := by
    intro other
    simp [completed_append, completing]
  have kept : ∀ other, Created (history ++ [call]) other ↔ Created history other := by
    intro other
    simp [created_append, completing]
  refine ⟨fun other => ?_, fun other found at_other => ?_, fun other found at_other => ?_,
    fun other completed => ?_⟩
  · rw [lookup_insert_eq, kept, ← tracks.created]
    split_ifs with same
    · subst same
      simp [(tracks.created other).mpr created]
    · rfl
  · rcases lookup_insert_cases at_other with ⟨rfl, rfl⟩ | before
    · exact own
    · exact tracks.id other found before
  · rw [lookup_insert_eq] at at_other
    rw [grown]
    split_ifs at at_other with same
    · cases at_other
      simp [terminal, same]
    · simp [tracks.pending other found at_other, Ne.symm same]
  · rw [kept]
    exact ((grown other).mp completed).elim (tracks.opened other) (fun same => same ▸ created)

end Complete

theorem answers_complete_iff {rt : TransactionRuntime} {st : AppState} {call : TransactionCall}
    {operation : Timestamp → Transaction → Bool × Transaction} {action status : String}
    {id : TransactionId} (completes : CompletesPending operation) (tracks : Tracks history txns)
    (endpoint : serveTransaction rt call.1 call.2 st = completeTransaction action status rt call.1 id st)
    (domain : domainAnswer call.1 call.2 txns =
      completeWith operation status call.1.recordedAt id txns) :
    AnswersAsDomain rt (st, txns) call ↔ Created history id ∧ ¬ Completed history id := by
  simp only [AnswersAsDomain, endpoint, domain]
  constructor
  · rintro ⟨same, -⟩
    by_contra unfit
    rw [completeWith_refused _ _ completes tracks unfit] at same
    cases same
  · rintro ⟨created, unfinished⟩
    obtain ⟨txn', done, -⟩ := completeWith_done _ _ completes tracks created unfinished
    rw [done]
    exact ⟨rfl, fun refused => by cases refused⟩

theorem answers_iff_fitsHistory (rt : TransactionRuntime) (st : AppState) (tracks : Tracks history txns)
    (call : TransactionCall) : AnswersAsDomain rt (st, txns) call ↔ FitsHistory history call := by
  obtain ⟨draws, req⟩ := call
  cases req with
  | create reference =>
    refine iff_of_true ⟨rfl, fun refused => by cases refused⟩ ?_
    intro id completing
    cases completing
  | commit id =>
    rw [answers_complete_iff commit_completesPending tracks rfl rfl]
    simp [FitsHistory, TransactionRequest.completes]
  | reject id =>
    rw [answers_complete_iff reject_completesPending tracks rfl rfl]
    simp [FitsHistory, TransactionRequest.completes]

theorem Tracks.answered (tracks : Tracks history txns) {call : TransactionCall}
    (fits : FitsHistory history call) :
    Tracks (history ++ [call]) (domainAnswer call.1 call.2 txns).2 := by
  obtain ⟨draws, req⟩ := call
  cases req with
  | create reference => exact tracks.create rfl rfl rfl
  | commit id =>
    obtain ⟨created, unfinished⟩ := fits id rfl
    obtain ⟨txn', done, own, terminal⟩ :=
      completeWith_done "Committed" draws.recordedAt commit_completesPending tracks created unfinished
    simp only [domainAnswer, done]
    exact tracks.complete rfl created own terminal
  | reject id =>
    obtain ⟨created, unfinished⟩ := fits id rfl
    obtain ⟨txn', done, own, terminal⟩ :=
      completeWith_done "Rejected" draws.recordedAt reject_completesPending tracks created unfinished
    simp only [domainAnswer, done]
    exact tracks.complete rfl created own terminal

/-- The endpoints answer as the domain does along the runs that complete nothing before it is
created and nothing twice, and along no others. -/
theorem transactions_refine_iff (rt : TransactionRuntime) (st : AppState)
    (calls : List TransactionCall) : RefinesDomain rt st calls ↔ InOrder calls := by
  let Related (both : AppState × Transactions) (history : List TransactionCall) : Prop :=
    Tracks history both.2
  have agree : ∀ both history call, Related both history →
      (AnswersAsDomain rt both call ↔ FitsHistory history call) :=
    fun both history call tracks => answers_iff_fitsHistory rt both.1 tracks call
  have keep : ∀ both history call, Related both history → FitsHistory history call →
      Related (serveBoth rt both call) (history ++ [call]) :=
    fun both history call tracks fits => tracks.answered fits
  exact Runs.meets_iff_of_related agree keep tracks_nil calls

namespace Sample

def transactionRuntime : TransactionRuntime :=
  { runtime with actionToJson := fun action transactionId => action ++ transactionId }

def committedThenRejected : List TransactionCall :=
  [(draws 10, .create "PAY-2026-001"), (draws 20, .commit (uuid 11)), (draws 30, .reject (uuid 11))]

end Sample

theorem rejected_after_commit :
    ¬ RefinesDomain Sample.transactionRuntime (Sample.twoAccounts 0 0)
      Sample.committedThenRejected := by
  rintro ⟨-, -, ⟨same, -⟩, -⟩
  revert same
  decide

end Refinement

end BankingLedger
