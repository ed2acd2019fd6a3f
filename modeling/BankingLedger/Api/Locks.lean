import BankingLedger.Shared.LockPaths

set_option autoImplicit false

namespace BankingLedger

open LockPaths

-- What a handler does between, and locks of other services, are left out.
inductive StateLock where
  | hashChain
  | journal
  | journalSeq
  | rbac
  | identityService
deriving DecidableEq, Repr

abbrev LockPath := List (Action StateLock)

def guarded (mode : Mode) (lock : StateLock) (body : LockPath) : LockPath :=
  .acquire lock mode :: body ++ [.release lock]

-- `lock()` of a mutex and `write()`.
def locking : StateLock → LockPath → LockPath := guarded .exclusive

def reading : StateLock → LockPath → LockPath := guarded .shared

-- `persist_after_mutation`; the guards are dropped before the task is spawned.
def persisting (store : Bool) : LockPath :=
  if store then reading .journal [] ++ locking .hashChain [] else []

inductive Handler where
  | health
  | createAccount
  | getAccount
  | debitAccount
  | creditAccount
  | setAccountStatus
  | placeHold
  | releaseHold
  | transfer
  | metrics
  | listJournal
  | verifyChain
  | chainProof
  | trialBalance
  | entriesForAccount
  | validateEntries
  | auditReport
  | exportAuditLog
  | redactBlock
  | accountSnapshot
  | createParty
  | listParties
  | getParty
  | addIdentifier
  | listIdentifiers
  | verifyIdentifier
  | getSagaStatus
  | coaSummary
  | listRbacPermissions
  | bindRole
  | getSubjectRoles
  | rbacAuditExport
  | rbacMatrix
  | replaceIdentifier
  | reverseJournalEntry
  | createTransaction
  | commitTransaction
  | rejectTransaction
  | coaByCode
  | coaDeactivate
deriving DecidableEq, Repr

-- `redact_block` keeps the guard of the chain to its end.
def redactBlockPath (store redacted : Bool) : LockPath :=
  locking .hashChain (if redacted then persisting store else [])

-- `require_permission`, and what follows if the permission is there.
def permitted (body : LockPath) : List LockPath :=
  [reading .rbac [], reading .rbac [] ++ body]

def Handler.paths (store : Bool) : Handler → List LockPath
  | .health | .getAccount | .placeHold | .releaseHold | .accountSnapshot | .getSagaStatus | .coaSummary
  | .coaByCode | .createTransaction => [[]]
  | .createAccount | .debitAccount | .creditAccount | .setAccountStatus => [[], persisting store]
  | .transfer =>
    let journalled := locking .journalSeq [] ++ locking .hashChain [] ++ locking .journal []
    [[], locking .journalSeq [], journalled, journalled ++ persisting store]
  | .metrics => [reading .journal [] ++ locking .hashChain []]
  | .listJournal | .trialBalance | .entriesForAccount | .validateEntries => [reading .journal []]
  | .verifyChain | .chainProof | .auditReport | .exportAuditLog | .commitTransaction
  | .rejectTransaction => [locking .hashChain []]
  | .redactBlock => [redactBlockPath store false, redactBlockPath store true]
  | .createParty | .listParties | .getParty | .listIdentifiers => [reading .identityService []]
  | .addIdentifier => [locking .identityService []]
  | .verifyIdentifier | .replaceIdentifier =>
    [reading .identityService [], reading .identityService [] ++ locking .identityService []]
  | .listRbacPermissions => permitted []
  | .bindRole => permitted (locking .rbac [])
  | .getSubjectRoles | .rbacAuditExport | .rbacMatrix => permitted (reading .rbac [])
  | .reverseJournalEntry =>
    let numbered := reading .journal [] ++ locking .journalSeq []
    [reading .journal [], numbered,
      numbered ++ locking .hashChain [] ++ locking .journal [] ++ persisting store]
  | .coaDeactivate => [[], locking .hashChain [] ++ persisting store]

structure HandlerCall (store : Bool) where
  handler : Handler
  path : LockPath
  follows : path ∈ handler.paths store

def HandlerCall.RedactsStored {store : Bool} (call : HandlerCall store) : Prop :=
  store = true ∧ call.handler = .redactBlock ∧ call.path = redactBlockPath store true

theorem reacquires_iff (store : Bool) (handler : Handler) :
    ∀ path ∈ handler.paths store, Reacquires [] path ↔
      store = true ∧ handler = .redactBlock ∧ path = redactBlockPath store true := by
  cases store <;> cases handler <;> decide

theorem HandlerCall.reacquires_iff {store : Bool} (call : HandlerCall store) :
    Reacquires [] call.path ↔ call.RedactsStored :=
  BankingLedger.reacquires_iff store call.handler call.path call.follows

/-- No path takes a lock twice and no handler ever waits for itself, if and only if no block is
redacted while a store is configured. -/
theorem no_self_deadlock_iff {I : Type} [DecidableEq I] (store : Bool) (calls : I → HandlerCall store) :
    ((∀ i, ¬ Reacquires [] (calls i).path) ∧
      ∀ threads, Reachable (fun i => (calls i).path) threads →
        ∀ i, ¬ (threads i).BlockedBy (threads i)) ↔
      ∀ i, ¬ (calls i).RedactsStored := by
  have blocked := blocked_on_itself_iff fun i => (calls i).path
  constructor
  · rintro ⟨once, -⟩ i redacts
    exact once i ((calls i).reacquires_iff.mpr redacts)
  · intro unredacted
    have once : ∀ i, ¬ Reacquires [] (calls i).path :=
      fun i again => unredacted i ((calls i).reacquires_iff.mp again)
    refine ⟨once, fun threads reached i waits => ?_⟩
    obtain ⟨j, again⟩ := blocked.mp ⟨threads, reached, i, waits⟩
    exact once j again

/-- A single request that redacts a block: it takes the chain, and then wants it again for the
snapshot. -/
theorem redaction_waits_for_itself :
    redactBlockPath true true ∈ Handler.redactBlock.paths true ∧
      Reacquires [] (redactBlockPath true true) ∧
      ∃ threads, Reachable (fun _ : Unit => redactBlockPath true true) threads ∧
        (threads ()).BlockedBy (threads ()) := by
  have again : Reacquires [] (redactBlockPath true true) := by decide
  obtain ⟨threads, reached, _, blocked⟩ :=
    (blocked_on_itself_iff fun _ : Unit => redactBlockPath true true).mpr ⟨(), again⟩
  exact ⟨by decide, again, threads, reached, blocked⟩

end BankingLedger
