import BankingLedger.Shared.WriteBehind
import BankingLedger.Api.Refusals
import BankingLedger.Store.Accounts

set_option autoImplicit false

namespace BankingLedger

open FiniteMap WriteBehind

/-- `tasks` are the accounts each spawned task has still to save, the latest task first. -/
structure Server where
  state : AppState
  rows : Table
  tasks : List Accounts

inductive ServerEvent where
  | request (draws : Draws) (req : AccountRequest)
  | save (task : Nat) (id : AccountId)

-- `place_hold` and `release_hold` return without the call, the others make it before `Ok`.
def AccountRequest.persists : AccountRequest → Bool
  | .placeHold .. | .releaseHold .. => false
  | _ => true

def persistAfterMutation (server : Server) : Server :=
  { server with tasks := server.state.accounts :: server.tasks }

def Server.handle (rt : Runtime) (draws : Draws) (req : AccountRequest) (server : Server) : Server :=
  let answered := serve rt draws req server.state
  let server := { server with state := answered.2 }
  if req.persists && answered.1.isOk then persistAfterMutation server else server

def Server.save (format : UuidFormat) (task : Nat) (id : AccountId) (server : Server) : Server :=
  match server.tasks[task]?.bind (·.lookup id) with
  | none => server
  | some a =>
    { server with
      rows := SurrealStore.saveAccountRaw (format.print id) a.accountType.debug a.currency a.balance
        a.availableBalance a.status.debug server.rows
      tasks := server.tasks.modify task (·.erase id) }

def serverStep (rt : Runtime) (format : UuidFormat) (server : Server) : ServerEvent → Server
  | .request draws req => server.handle rt draws req
  | .save task id => server.save format task id

-- The balance, the available balance and the status the row of an account has.
def Table.carries (table : Table) (key : String) (a : Account) : Prop :=
  ∃ row, table.lookup key = some row ∧ row.field "balance_cents" = .ofI64 a.balance ∧
    row.field "hold_cents" = .ofI64 a.availableBalance ∧ row.field "status" = .str a.status.debug

instance (table : Table) (key : String) (a : Account) : Decidable (table.carries key a) :=
  match found : table.lookup key with
  | none => isFalse fun ⟨_, present, _⟩ => by simp [found] at present
  | some row => decidable_of_iff (row.field "balance_cents" = .ofI64 a.balance ∧
      row.field "hold_cents" = .ofI64 a.availableBalance ∧ row.field "status" = .str a.status.debug)
    ⟨fun fields => ⟨row, found, fields⟩, fun ⟨_, present, fields⟩ => by
      rw [found, Option.some.injEq] at present
      exact present ▸ fields⟩

namespace Server

def Finished (server : Server) : Prop := ∀ task ∈ server.tasks, ∀ id, task.lookup id = none

def InStore (format : UuidFormat) (server : Server) : Prop :=
  ∀ id a, server.state.accounts.lookup id = some a → server.rows.carries (format.print id) a

def store (server : Server) : Store AccountId Account String Row :=
  { memory := server.state.accounts, rows := server.rows, tasks := server.tasks }

end Server

/-- The request changes an account and ends without a snapshot: a hold or a release that is
accepted, or a reversal that stops after it has moved legs. -/
def LeavesUnsaved (draws : Draws) (st : AppState) : AccountRequest → Prop
  | .placeHold id amount => (st.circuitBreaker.allowRequest draws.arrival).1 = true ∧
      ∃ a, st.accounts.lookup id = some a ∧ a.DebitPasses amount
  | .releaseHold id amount => (st.circuitBreaker.allowRequest draws.arrival).1 = true ∧
      ∃ a, st.accounts.lookup id = some a ∧ a.ReleasePasses amount
  | .reverseJournalEntry entryId => ¬ ReversalStopsClean entryId st
  | _ => False

/-- The event neither leaves a change unsaved nor writes over an account that the latest task has
written already. -/
def KeepsUp (server : Server) : ServerEvent → Prop
  | .request draws req => ¬ LeavesUnsaved draws server.state req
  | .save task id => 0 < task → server.store.latest id ≠ none

section Unsaved

variable {rt : Runtime} {draws : Draws} {req : AccountRequest} {st st' : AppState}

theorem serve_unpersisted_ok {reply : AccountReply} (silent : req.persists = false)
    (done : serve rt draws req st = (.ok reply, st')) : LeavesUnsaved draws st req := by
  cases req with
  | placeHold id amount =>
    obtain ⟨response, held⟩ := replying_ok done
    obtain ⟨admitted, passed⟩ := holdHandler_ok held
    exact ⟨admitted, placeHold_ok passed⟩
  | releaseHold id amount =>
    obtain ⟨response, held⟩ := replying_ok done
    obtain ⟨admitted, passed⟩ := holdHandler_ok held
    exact ⟨admitted, releaseHold_ok passed⟩
  | _ => cases silent

theorem stopsClean_of_saved (saved : ¬ LeavesUnsaved draws st req) : req.StopsClean st := by
  cases req with
  | reverseJournalEntry entryId => exact not_not.mp saved
  | _ => trivial

theorem serve_unpersisted (covered : Covered st.accounts) (saved : ¬ LeavesUnsaved draws st req)
    (silent : (req.persists && (serve rt draws req st).1.isOk) = false) :
    (serve rt draws req st).2.accounts = st.accounts := by
  rcases answered : serve rt draws req st with ⟨e | reply, st'⟩
  · exact serve_error covered (stopsClean_of_saved saved) answered
  · have noCall : req.persists = false := by simpa [answered, Except.isOk, Except.toBool] using silent
    exact absurd (serve_unpersisted_ok noCall answered) saved

end Unsaved

section Convergence

variable {rt : Runtime} {format : UuidFormat} {server : Server}

theorem store_save (task : Nat) (id : AccountId) :
    (server.save format task id).store = server.store.save format.print Account.row task id := by
  unfold Server.save Store.save
  simp only [Server.store]
  cases server.tasks[task]?.bind (·.lookup id) <;> rfl

theorem carries_of_converged (converged : server.store.Converged format.print Account.row) :
    server.InStore format := by
  intro id a found
  exact ⟨a.row, converged id a found, rfl, rfl, rfl⟩

/-- The accounts are covered and the latest snapshot, written or still to write, is what they are. -/
def Server.UpToDate (format : UuidFormat) (server : Server) : Prop :=
  Covered server.state.accounts ∧ server.store.Current format.print Account.row

theorem covered_step (event : ServerEvent) (covered : Covered server.state.accounts) :
    Covered (serverStep rt format server event).state.accounts := by
  cases event with
  | request draws req =>
    have still : Covered (serve rt draws req server.state).2.accounts :=
      (serve_via rt draws req server.state).every stable_covered covered
    simp only [serverStep, Server.handle]
    split_ifs <;> exact still
  | save task id =>
    simp only [serverStep, Server.save]
    split <;> exact covered

theorem upToDate_step (event : ServerEvent) (upToDate : server.UpToDate format)
    (keepsUp : KeepsUp server event) : (serverStep rt format server event).UpToDate format := by
  obtain ⟨covered, current⟩ := upToDate
  refine ⟨covered_step event covered, ?_⟩
  cases event with
  | request draws req =>
    simp only [serverStep, Server.handle]
    split_ifs with persisted
    · exact Store.current_spawn (s := { server.store with
        memory := (serve rt draws req server.state).2.accounts })
    · have same := serve_unpersisted covered keepsUp (by simpa using persisted)
      simp only [Server.store] at current ⊢
      rw [same]
      exact current
  | save task id =>
    rw [serverStep, store_save]
    exact current.save format.print_injective keepsUp

end Convergence

inductive Server.Snapshotted (rt : Runtime) (format : UuidFormat) : Server → Prop where
  | started (server : Server) (idle : server.tasks = [])
      (saved : ∀ id a, server.state.accounts.lookup id = some a →
        server.rows.lookup (format.print id) = some a.row) : Snapshotted rt format server
  | answered (server : Server) (draws : Draws) (req : AccountRequest) (persists : req.persists = true)
      (ok : (serve rt draws req server.state).1.isOk = true) :
      Snapshotted rt format (server.handle rt draws req)

theorem Server.Snapshotted.current {rt : Runtime} {format : UuidFormat} {server : Server}
    (snapshotted : server.Snapshotted rt format) :
    server.store.Current format.print Account.row := by
  cases snapshotted with
  | started _ idle saved => exact Store.current_of_converged idle saved
  | answered server draws req persists ok =>
    simp only [Server.handle, persists, ok, Bool.and_self, if_true]
    exact Store.current_spawn (s := { server.store with
      memory := (serve rt draws req server.state).2.accounts })

/-- Whatever happened before a snapshot, if the run keeps up from there on, the rows have what the
accounts are once every task has finished. -/
theorem store_converges (rt : Runtime) (format : UuidFormat) (server : Server)
    (covered : Covered server.state.accounts) (earlier later : List ServerEvent)
    (snapshotted : (Runs.run (serverStep rt format) server earlier).Snapshotted rt format)
    (keepsUp : Runs.Meets (serverStep rt format) KeepsUp
      (Runs.run (serverStep rt format) server earlier) later)
    (finished : (Runs.run (serverStep rt format) server (earlier ++ later)).Finished) :
    (Runs.run (serverStep rt format) server (earlier ++ later)).InStore format := by
  rw [Runs.run_append] at finished ⊢
  let Inv (s : Server) : Prop := Covered s.state.accounts
  have still : Inv (Runs.run (serverStep rt format) server earlier) :=
    Runs.run_invariant (fun _ event => covered_step event) server earlier covered
  have start : (Runs.run (serverStep rt format) server earlier).UpToDate format :=
    ⟨still, snapshotted.current⟩
  have upToDate := Runs.run_keeps (fun _ event => upToDate_step event) _ later keepsUp start
  exact carries_of_converged (upToDate.2.converged finished)

namespace Sample

-- An account with 100 is created and its row saved.
def openAccount : List ServerEvent :=
  [.request (draws 1) (.createAccount ⟨"ASSET", "USD", 100⟩), .save 0 (uuid 1)]

def thenHold : List ServerEvent := openAccount ++ [.request (draws 10) (.placeHold (uuid 1) 40)]

-- Two debits; the task of the second is done before the one of the first.
def thenDebits : List ServerEvent :=
  openAccount ++ [.request (draws 10) (.debitAccount (uuid 1) 30),
    .request (draws 20) (.debitAccount (uuid 1) 20), .save 0 (uuid 1), .save 1 (uuid 1)]

def freshServer : Server := { state := AppState.new runtime ⟨0⟩, rows := ∅, tasks := [] }

def afterEvents (events : List ServerEvent) : Server :=
  Runs.run (serverStep runtime .hyphenated) freshServer events

theorem finished_of_empty {server : Server} (empty : server.tasks.all fun task => task = ∅) :
    server.Finished := by
  intro task member id
  have none : task = ∅ := by simpa using List.all_eq_true.mp empty task member
  rw [none, Finmap.lookup_empty]

theorem not_inStore {format : UuidFormat} {server : Server} {id : AccountId} {a : Account}
    (found : server.state.accounts.lookup id = some a)
    (differs : ¬ server.rows.carries (format.print id) a) : ¬ server.InStore format :=
  fun inStore => differs (inStore id a found)

end Sample

open Sample

/-- Every task has finished and the row has 100 available where 60 are; with the debits it has 70
where the account has 50. -/
theorem store_stays_behind :
    ((afterEvents thenHold).Finished ∧ ¬ (afterEvents thenHold).InStore .hyphenated) ∧
      (afterEvents thenDebits).Finished ∧ ¬ (afterEvents thenDebits).InStore .hyphenated := by
  refine ⟨⟨finished_of_empty (by decide +kernel), ?_⟩, finished_of_empty (by decide +kernel), ?_⟩
  · have held : (afterEvents thenHold).state.accounts.lookup (uuid 1) =
        some ((Account.new (uuid 1) .asset "USD" 100 none).earmark (-40)) := by decide +kernel
    exact not_inStore held (by decide +kernel)
  · have debited : (afterEvents thenDebits).state.accounts.lookup (uuid 1) =
        some (Account.new (uuid 1) .asset "USD" 50 none) := by decide +kernel
    exact not_inStore debited (by decide +kernel)

-- The tasks of the account and of the first debit save it before the one of the second.
theorem store_converges_overlapping :
    let events : List ServerEvent := [.request (draws 1) (.createAccount ⟨"ASSET", "USD", 100⟩),
      .request (draws 10) (.debitAccount (uuid 1) 30), .request (draws 20) (.debitAccount (uuid 1) 20),
      .save 1 (uuid 1), .save 2 (uuid 1), .save 0 (uuid 1)]
    (afterEvents events).Finished ∧ (afterEvents events).InStore .hyphenated := by
  intro events
  have finished : (afterEvents events).Finished := finished_of_empty (by decide +kernel)
  have covered : Covered freshServer.state.accounts := by
    intro id a found
    simp [freshServer, AppState.new] at found
  have unsaved (server : Server) (n : Nat) (amount : Int64) :
      KeepsUp server (.request (draws n) (.debitAccount (uuid 1) amount)) := id
  refine ⟨finished, store_converges runtime .hyphenated freshServer covered (events.take 1) (events.drop 1)
    ?_ ?_ finished⟩
  · exact .answered freshServer (draws 1) (.createAccount ⟨"ASSET", "USD", 100⟩) rfl (by decide +kernel)
  · exact ⟨unsaved _ 10 30, unsaved _ 20 20, fun _ => by decide +kernel, fun _ => by decide +kernel,
      fun older => absurd older (by decide), trivial⟩

end BankingLedger
