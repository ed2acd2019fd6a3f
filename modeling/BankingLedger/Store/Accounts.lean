import BankingLedger.Shared.HexText
import BankingLedger.Service.AccountOperations

set_option autoImplicit false

namespace BankingLedger

open FiniteMap

structure UuidFormat where
  print : Uuid → String
  parse : String → Except String Uuid
  parse_print : ∀ id, parse (print id) = .ok id
  no_colon : ∀ id, ':' ∉ (print id).toList

theorem UuidFormat.print_injective (format : UuidFormat) : Function.Injective format.print := by
  intro id other same
  have parsed := format.parse_print other
  rw [← same, format.parse_print] at parsed
  exact Except.ok.inj parsed

inductive Value where
  | null
  | str (text : String)
  | int (value : Int)
deriving DecidableEq, Repr

namespace Value

def asStr : Value → Option String
  | .str text => some text
  | _ => none

def asI64 : Value → Option Int64
  | .int value =>
    if Int64.minValue.toInt ≤ value ∧ value ≤ Int64.maxValue.toInt then some (Int64.ofInt value)
    else none
  | _ => none

def ofI64 (n : Int64) : Value := .int n.toInt

@[simp] theorem asStr_str (text : String) : (str text).asStr = some text := rfl

@[simp] theorem asI64_ofI64 (n : Int64) : (ofI64 n).asI64 = some n := by
  have bounds := MachineInt.bounds n
  simp only [ofI64, asI64, Int64.toInt_minValue, Int64.toInt_maxValue]
  rw [if_pos ⟨by omega, by omega⟩, Int64.ofInt_toInt]

end Value

abbrev Row := List (String × Value)

def Row.field (row : Row) (name : String) : Value := (row.lookup name).getD .null

abbrev Table := Map String Row

def AccountType.debug : AccountType → String
  | .asset => "Asset"
  | .liability => "Liability"
  | .equity => "Equity"
  | .revenue => "Revenue"
  | .expense => "Expense"

def AccountStatus.debug : AccountStatus → String
  | .Open => "Open"
  | .Frozen => "Frozen"
  | .Closed => "Closed"

namespace SurrealStore

def accountContent (atype currency : String) (balanceCents holdCents : Int64) (status : String) : Row :=
  [("account_type", .str atype), ("currency", .str currency), ("balance_cents", .ofI64 balanceCents),
    ("hold_cents", .ofI64 holdCents), ("status", .str status)]

def saveAccountRaw (id atype currency : String) (balanceCents holdCents : Int64) (status : String)
    (table : Table) : Table :=
  table.insert id (accountContent atype currency balanceCents holdCents status)

def saveAccount (format : UuidFormat) (account : Account) (table : Table) : Table :=
  saveAccountRaw (format.print account.id) account.accountType.debug account.currency account.balance
    account.availableBalance account.status.debug table

def selected (table : String) (row : String × Row) : Row :=
  ("id", .str (table ++ ":" ++ row.1)) :: row.2

-- `split(':').nth(1)`, or the whole text.
def uuidPart (idStr : String) : String :=
  (((idStr.toList.splitOn ':')[1]?).map String.ofList).getD idStr

def readType : String → AccountType
  | "Asset" => .asset
  | "Liability" => .liability
  | "Equity" => .equity
  | "Revenue" => .revenue
  | "Expense" => .expense
  | _ => .asset

-- `Account::new` draws an identifier that the one read from the row replaces.
def loadAccount (format : UuidFormat) (row : Row) : Except String Account :=
  match format.parse (uuidPart ((row.field "id").asStr.getD "")) with
  | .error e => .error ("uuid parse: " ++ e)
  | .ok id =>
    let atype := (row.field "account_type").asStr.elim .asset readType
    let currency := (row.field "currency").asStr.getD "USD"
    let balanceCents := (row.field "balance_cents").asI64.getD 0
    .ok (.new id atype currency balanceCents none)

-- `rows` is what `SELECT * FROM account` finds.
def loadAllAccounts (format : UuidFormat) (rows : List (String × Row)) : Except String (List Account) :=
  (rows.map (selected "account")).mapM (loadAccount format)

end SurrealStore

open SurrealStore

/-- The account rows of `persist_after_mutation`; `listing` is the order `for_each` visits the
accounts in. -/
def persistAccounts (format : UuidFormat) (listing : List (AccountId × Account)) (table : Table) :
    Table :=
  listing.foldl (fun table entry =>
    saveAccountRaw (format.print entry.1) entry.2.accountType.debug entry.2.currency entry.2.balance
      entry.2.availableBalance entry.2.status.debug table) table

-- The accounts part of `restore_from_store`.
def restoreFromStore (loaded : Except String (List Account)) (accounts : Accounts) : Accounts :=
  match loaded with
  | .ok loaded => loaded.foldl (fun accounts acc => AccountService.insertRaw accounts acc.id acc) accounts
  | .error _ => accounts

-- The registry of a server that starts on the store.
def restart (format : UuidFormat) (rows : List (String × Row)) : Accounts :=
  restoreFromStore (loadAllAccounts format rows) ∅

section RoundTrip

variable {format : UuidFormat}

def Account.row (a : Account) : Row :=
  accountContent a.accountType.debug a.currency a.balance a.availableBalance a.status.debug

def Account.restored (a : Account) : Account := .new a.id a.accountType a.currency a.balance none

def Account.stored (format : UuidFormat) (a : Account) : String × Row := (format.print a.id, a.row)

theorem uuidPart_recordId (id : Uuid) :
    uuidPart ("account" ++ ":" ++ format.print id) = format.print id := by
  have text : ("account" ++ ":" ++ format.print id).toList =
      "account".toList ++ ':' :: (format.print id).toList := by simp
  have parts : ("account" ++ ":" ++ format.print id).toList.splitOn ':' =
      ["account".toList, (format.print id).toList] := by
    rw [text, List.splitOn_eq_splitOnP, List.splitOnP_append_cons_of_forall_mem (by simp) _ (by simp),
      List.splitOnP_eq_singleton]
    intro c member
    simpa using fun same : c = ':' => format.no_colon id (same ▸ member)
  rw [uuidPart, parts]
  simp

theorem readType_debug (accountType : AccountType) : readType accountType.debug = accountType := by
  cases accountType <;> rfl

theorem loadAccount_stored (a : Account) :
    loadAccount format (selected "account" (a.stored format)) = .ok a.restored := by
  have id : (selected "account" (a.stored format)).field "id" =
      .str ("account" ++ ":" ++ format.print a.id) := rfl
  have type : (selected "account" (a.stored format)).field "account_type" =
      .str a.accountType.debug := rfl
  have currency : (selected "account" (a.stored format)).field "currency" = .str a.currency := rfl
  have balance : (selected "account" (a.stored format)).field "balance_cents" = .ofI64 a.balance := rfl
  rw [loadAccount, id, type, currency, balance, Value.asStr_str, Option.getD_some, uuidPart_recordId,
    format.parse_print]
  simp [readType_debug, Account.restored]

theorem loadAllAccounts_stored (saved : List Account) :
    loadAllAccounts format (saved.map (Account.stored format)) = .ok (saved.map Account.restored) := by
  induction saved with
  | nil => rfl
  | cons a rest ih =>
    simp only [loadAllAccounts, List.map_map] at ih ⊢
    rw [List.map_cons, List.mapM_cons, Function.comp_apply, loadAccount_stored, ih]
    rfl

def Written (format : UuidFormat) (table : Table) : Prop :=
  ∀ key row, table.lookup key = some row → ∃ a : Account, (key, row) = a.stored format

theorem Written.saveAccount {table : Table} (a : Account) (written : Written format table) :
    Written format (saveAccount format a table) := by
  intro key row found
  rw [SurrealStore.saveAccount, saveAccountRaw, lookup_insert_eq] at found
  split at found
  · rename_i same
    exact ⟨a, by rw [same, ← Option.some.inj found]; rfl⟩
  · exact written key row found

theorem restart_stored {table : Table} {rows : List (String × Row)} (written : Written format table)
    (selects : Lists rows table) {a : Account}
    (found : table.lookup (format.print a.id) = some a.row) :
    (restart format rows).lookup a.id = some a.restored := by
  have accounts : ∃ saved : List Account, saved.map (Account.stored format) = rows := by
    have each : rows ∈ Set.range (List.map (Account.stored format)) := by
      rw [Set.range_list_map]
      rintro ⟨key, row⟩ member
      obtain ⟨b, same⟩ := written key row ((selects.mem_iff key row).mp member)
      exact ⟨b, same.symm⟩
    exact each
  obtain ⟨saved, rfl⟩ := accounts
  have restored : restart format (saved.map (Account.stored format)) =
      insertAll ∅ (saved.map fun b => (b.id, b.restored)) := by
    rw [restart, loadAllAccounts_stored, insertAll, List.foldl_map, restoreFromStore, List.foldl_map]
    rfl
  rw [restored]
  apply lookup_insertAll_of_mem
  · have keys := selects.nodup
    rw [List.map_map] at keys ⊢
    exact List.Nodup.of_map format.print (by rw [List.map_map]; exact keys)
  · obtain ⟨b, at_b, same⟩ := List.mem_map.mp ((selects.mem_iff _ _).mpr found)
    -- The two rows are read alike, so the accounts they restore are the same.
    have loaded : loadAccount format (selected "account" (b.stored format)) = .ok b.restored :=
      loadAccount_stored b
    rw [show b.stored format = a.stored format from same, loadAccount_stored, Except.ok.injEq] at loaded
    refine List.mem_map.mpr ⟨b, at_b, ?_⟩
    rw [← loaded, format.print_injective (congrArg Prod.fst same)]

theorem persistAccounts_eq (listing : List (AccountId × Account)) (table : Table) :
    persistAccounts format listing table =
      insertAll table (listing.map fun entry => (format.print entry.1, entry.2.row)) := by
  rw [insertAll, List.foldl_map]
  rfl

variable {listing : List (AccountId × Account)} {accounts : Accounts}

theorem Written.persistAccounts (keyed : ∀ entry ∈ listing, entry.2.id = entry.1) {table : Table}
    (written : Written format table) : Written format (persistAccounts format listing table) := by
  induction listing generalizing table with
  | nil => exact written
  | cons entry rest ih =>
    have first := written.saveAccount entry.2
    rw [SurrealStore.saveAccount, keyed entry (List.mem_cons_self ..)] at first
    exact ih (fun other member => keyed other (List.mem_cons_of_mem _ member)) first

theorem lookup_persistAccounts (lists : Lists listing accounts) {id : AccountId} {a : Account}
    (found : accounts.lookup id = some a) (table : Table) :
    (BankingLedger.persistAccounts format listing table).lookup (format.print id) = some a.row := by
  rw [persistAccounts_eq]
  apply lookup_insertAll_of_mem
  · rw [List.map_map, show Prod.fst ∘ (fun entry : AccountId × Account =>
      (format.print entry.1, entry.2.row)) = format.print ∘ Prod.fst from rfl, ← List.map_map]
    exact lists.nodup.map format.print_injective
  · exact List.mem_map.mpr ⟨(id, a), (lists.mem_iff id a).mpr found, rfl⟩

end RoundTrip

/-- What a restart is to keep of an account. The owner is not part of the row either. -/
def Survives (a : Account) (restored : Option Account) : Prop :=
  ∃ a', restored = some a' ∧ a'.id = a.id ∧ a'.accountType = a.accountType ∧
    a'.currency = a.currency ∧ a'.balance = a.balance ∧ a'.availableBalance = a.availableBalance ∧
    a'.status = a.status

theorem survives_restored_iff (a : Account) :
    Survives a (some a.restored) ↔ a.availableBalance = a.balance ∧ a.status = .Open := by
  constructor
  · rintro ⟨_, ⟨⟩, -, -, -, -, available, status⟩
    exact ⟨available.symm, status.symm⟩
  · rintro ⟨available, status⟩
    exact ⟨_, rfl, rfl, rfl, rfl, rfl, available.symm, status.symm⟩

def savedTable (format : UuidFormat) (saved : List Account) : Table :=
  Runs.run (fun table a => saveAccount format a table) ∅ saved

theorem savedTable_written (format : UuidFormat) (saved : List Account) :
    Written format (savedTable format saved) := by
  apply Runs.run_invariant fun table a written => written.saveAccount a
  intro key row found
  simp at found

/-- An account comes back as it was exactly when nothing of it is held and it is open: the reader
takes the available balance from the balance and the status from `Account::new`. -/
theorem survives_restart_iff (format : UuidFormat) (earlier : List Account)
    (operations : List AccountOperation) (listing : List (AccountId × Account))
    (lists : Lists listing (registryAfter operations)) (id : AccountId) (a : Account)
    (found : (registryAfter operations).lookup id = some a) :
    (∀ rows, Lists rows (persistAccounts format listing (savedTable format earlier)) →
      (Survives a ((restart format rows).lookup id) ↔
        a.availableBalance = a.balance ∧ a.status = .Open)) ∧
    ∀ rows, Lists rows (saveAccount format a (savedTable format earlier)) →
      (Survives a ((restart format rows).lookup id) ↔
        a.availableBalance = a.balance ∧ a.status = .Open) := by
  have keyed := registryAfter_keyed operations
  have written := savedTable_written format earlier
  obtain rfl : a.id = id := keyed id a found
  constructor
  · intro rows selects
    have persisted : Written format (persistAccounts format listing (savedTable format earlier)) := by
      apply written.persistAccounts
      rintro ⟨other, b⟩ member
      exact keyed other b ((lists.mem_iff other b).mp member)
    rw [restart_stored persisted selects (lookup_persistAccounts lists found _)]
    exact survives_restored_iff a
  · intro rows selects
    have own : (saveAccount format a (savedTable format earlier)).lookup (format.print a.id) =
        some a.row := by
      rw [saveAccount, saveAccountRaw, lookup_insert_eq, if_pos rfl]
      rfl
    rw [restart_stored (written.saveAccount a) selects own]
    exact survives_restored_iff a

section Hyphenated

open HexText

def hyphenated (id : Uuid) : List Char := hyphenate [8, 4, 4, 4] (HexText.print 32 id.bits.toNat)

def ofHyphenated (text : List Char) : Uuid :=
  ⟨BitVec.ofNat 128 (HexText.parse (text.filter (· ≠ '-')))⟩

theorem ofHyphenated_hyphenated (id : Uuid) : ofHyphenated (hyphenated id) = id := by
  rw [ofHyphenated, hyphenated, parse_hyphenate_print, Nat.mod_eq_of_lt (by exact id.bits.isLt),
    BitVec.ofNat_toNat, BitVec.setWidth_eq]

def UuidFormat.hyphenated : UuidFormat where
  print id := String.ofList (BankingLedger.hyphenated id)
  parse text :=
    if BankingLedger.hyphenated (ofHyphenated text.toList) = text.toList then
      .ok (ofHyphenated text.toList)
    else .error "invalid UUID"
  parse_print id := by simp [ofHyphenated_hyphenated]
  no_colon id member := by
    rw [String.toList_ofList] at member
    rcases mem_hyphenate_print member with hyphen | digit
    · exact absurd hyphen (by decide)
    · exact absurd digit (by decide)

end Hyphenated

namespace Sample

-- 40 of 100 held, then the account frozen.
def holdAndFreeze : List AccountOperation :=
  [.createAccount ⟨1⟩ .asset "USD" 100 none, .placeHold ⟨1⟩ 40, .setStatus ⟨1⟩ .Frozen]

def heldFrozen : Account :=
  { Account.new ⟨1⟩ .asset "USD" 100 none with availableBalance := 60, status := .Frozen }

theorem holdAndFreeze_registry :
    registryAfter holdAndFreeze = Finmap.insert ⟨1⟩ heldFrozen ∅ := by decide +kernel

theorem holdAndFreeze_lists : Lists [(⟨1⟩, heldFrozen)] (registryAfter holdAndFreeze) := by
  rw [holdAndFreeze_registry]
  exact Lists.singleton _ _

theorem holdAndFreeze_selects : Lists [heldFrozen.stored .hyphenated]
    (persistAccounts .hyphenated [(⟨1⟩, heldFrozen)] ∅) := Lists.singleton _ _

end Sample

open Sample

/-- After the restart the held 40 can be spent and the account is open again. -/
theorem restart_frees_held_frozen :
    (registryAfter holdAndFreeze).lookup ⟨1⟩ = some heldFrozen ∧
    Lists [(⟨1⟩, heldFrozen)] (registryAfter holdAndFreeze) ∧
    Lists [heldFrozen.stored .hyphenated]
      (persistAccounts .hyphenated [(⟨1⟩, heldFrozen)] (savedTable .hyphenated [])) ∧
    (restart .hyphenated [heldFrozen.stored .hyphenated]).lookup ⟨1⟩ =
      some (.new ⟨1⟩ .asset "USD" 100 none) ∧
    ¬ Survives heldFrozen ((restart .hyphenated [heldFrozen.stored .hyphenated]).lookup ⟨1⟩) := by
  have restored : (restart .hyphenated [heldFrozen.stored .hyphenated]).lookup ⟨1⟩ =
      some (.new ⟨1⟩ .asset "USD" 100 none) := by decide +kernel
  refine ⟨by decide +kernel, holdAndFreeze_lists, holdAndFreeze_selects, restored, ?_⟩
  rw [restored]
  rintro ⟨_, ⟨⟩, -, -, -, -, available, -⟩
  exact absurd available (by decide)

theorem survives_restart_iff_held_frozen :
    Survives heldFrozen ((restart .hyphenated [heldFrozen.stored .hyphenated]).lookup ⟨1⟩) ↔
      heldFrozen.availableBalance = heldFrozen.balance ∧ heldFrozen.status = .Open :=
  (survives_restart_iff .hyphenated [] holdAndFreeze [(⟨1⟩, heldFrozen)] holdAndFreeze_lists ⟨1⟩
    heldFrozen (by decide +kernel)).1 _ holdAndFreeze_selects

end BankingLedger
