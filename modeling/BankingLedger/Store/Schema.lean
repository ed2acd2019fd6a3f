import BankingLedger.Shared.RowSchema
import BankingLedger.Store.HashBlocks
import BankingLedger.Store.JournalRows

set_option autoImplicit false

namespace BankingLedger

open RowSchema SurrealStore

def unchecked (name : String) (type : FieldType) : Field := { name, type, assertion := .always }

-- The tables of `.surreal/schema.surql`.
def accountTable : Schema :=
  [{ name := "account_type", type := .string
     assertion := .oneOf ["Asset", "Liability", "Equity", "Revenue", "Expense"] },
    { name := "currency", type := .string, assertion := .length 3 },
    unchecked "balance_cents" .int, unchecked "hold_cents" .int,
    { name := "status", type := .string, assertion := .oneOf ["Active", "Frozen", "Closed"] },
    unchecked "created_at" .datetime, unchecked "updated_at" .datetime]

def journalEntryTable : Schema :=
  [unchecked "transaction_id" .string, unchecked "sequence_number" .int, unchecked "description" .string,
    unchecked "recorded_at" .datetime, unchecked "legs" .array]

def hashBlockTable : Schema :=
  [unchecked "index_pos" .int, unchecked "hash" .string, unchecked "previous_hash" .string,
    unchecked "data" .string, unchecked "timestamp" .datetime, unchecked "nonce" .int]

def Value.datum : Value → Datum
  | .null => .null
  | .str text => .string text
  | .int value => .int value

def Row.content (row : Row) : Content := row.map fun entry => (entry.1, entry.2.datum)

-- `save_account_raw` also sets the time of the write.
def Account.content (now : Timestamp) (a : Account) : Content :=
  a.row.content ++ [("updated_at", .datetime now.nanos)]

theorem accountType_listed (accountType : AccountType) :
    accountType.debug ∈ ["Asset", "Liability", "Equity", "Revenue", "Expense"] := by
  cases accountType <;> decide

theorem status_listed_iff (status : AccountStatus) :
    status.debug ∈ ["Active", "Frozen", "Closed"] ↔ status ≠ .Open := by
  cases status <;> decide

-- The time of creation is not written.
theorem account_accepted_iff (now : Timestamp) (a : Account) :
    accountTable.Accepts (a.content now) ↔ a.status ≠ .Open ∧ a.currency.length = 3 := by
  have created : (unchecked "created_at" .datetime).Accepts (a.content now) := Field.accepts_of_unwritten rfl
  simp only [accountTable, Schema.accepts_cons, Schema.accepts_nil, and_true, created, true_and]
  rw [Field.accepts_iff (show (a.content now).lookup _ = some (.string a.accountType.debug) from rfl),
    Field.accepts_iff (show (a.content now).lookup _ = some (.string a.currency) from rfl),
    Field.accepts_iff (show (a.content now).lookup _ = some (.int a.balance.toInt) from rfl),
    Field.accepts_iff (show (a.content now).lookup _ = some (.int a.availableBalance.toInt) from rfl),
    Field.accepts_iff (show (a.content now).lookup _ = some (.string a.status.debug) from rfl),
    Field.accepts_iff (show (a.content now).lookup _ = some (.datetime now.nanos) from rfl)]
  simp only [unchecked, FieldType.Admits, Assertion.Holds, accountType_listed, status_listed_iff, true_and, and_true]
  exact and_comm

-- The legs are written as a text.
theorem journal_entry_rejected (rt : Runtime) (entry : JournalEntry) (legs : String) :
    ¬ journalEntryTable.Accepts (journalContent rt entry legs).content := by
  have declared : unchecked "legs" .array ∈ journalEntryTable := by simp [journalEntryTable]
  have written : (journalContent rt entry legs).content.lookup "legs" = some (.string legs) := rfl
  exact Schema.not_accepts_of_type declared written id

theorem hash_block_rejected (hashing : Hashing) (block : HashLink) :
    ¬ hashBlockTable.Accepts (blockContent hashing block).content := by
  have declared : unchecked "timestamp" .datetime ∈ hashBlockTable := by simp [hashBlockTable]
  have written : (blockContent hashing block).content.lookup "timestamp" =
      some (.string (hashing.toRfc3339 block.timestamp)) := rfl
  exact Schema.not_accepts_of_type declared written id

/-- Of the rows that are written, the values fit the tables for accounts that are frozen or closed and
have a currency of three characters, and for no others. -/
theorem rows_accepted_iff (now : Timestamp) (a : Account) (rt : Runtime) (entry : JournalEntry) (legs : String)
    (hashing : Hashing) (block : HashLink) :
    (accountTable.Accepts (a.content now) ↔ a.status ≠ .Open ∧ a.currency.length = 3) ∧
    ¬ journalEntryTable.Accepts (journalContent rt entry legs).content ∧
    ¬ hashBlockTable.Accepts (blockContent hashing block).content :=
  ⟨account_accepted_iff now a, journal_entry_rejected rt entry legs, hash_block_rejected hashing block⟩

open Sample

/-- An account that has just been created is open, which the table does not know; the first block
and an entry are turned away as well. -/
theorem new_rows_rejected :
    (∃ a, (createAccount runtime (draws 1) ⟨"ASSET", "USD", 100⟩ (AppState.new runtime ⟨0⟩)).2.accounts.lookup
        (uuid 1) = some a ∧ ¬ accountTable.Accepts (a.content ⟨0⟩)) ∧
    (∃ entry, (transferred 1000 0 100).journal = [entry] ∧
      ¬ journalEntryTable.Accepts (journalContent runtime entry "[]").content) ∧
    ∃ block, (AppState.new runtime ⟨0⟩).hashChain.blocks = [block] ∧
      ¬ hashBlockTable.Accepts (blockContent runtime.hashing block).content := by
  refine ⟨⟨.new (uuid 1) .asset "USD" 100 none, by decide +kernel, ?_⟩, ?_, ?_⟩
  · rw [account_accepted_iff]
    exact fun both => both.1 rfl
  · exact ⟨_, rfl, journal_entry_rejected _ _ _⟩
  · exact ⟨_, rfl, hash_block_rejected _ _⟩

end BankingLedger
