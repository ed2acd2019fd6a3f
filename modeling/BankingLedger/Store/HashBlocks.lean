import BankingLedger.Log.ChainRuns
import BankingLedger.Store.Accounts

set_option autoImplicit false

namespace BankingLedger

open FiniteMap HashLinked HashLink

namespace Value

def asU64 : Value → Option UInt64
  | .int value => if 0 ≤ value ∧ value < 2 ^ 64 then some (UInt64.ofNat value.toNat) else none
  | _ => none

def ofU64 (n : UInt64) : Value := .int n.toNat

@[simp] theorem asU64_ofU64 (n : UInt64) : (ofU64 n).asU64 = some n := by
  have bound := n.toNat_lt
  simp only [ofU64, asU64]
  rw [if_pos ⟨by omega, by omega⟩]
  simp

end Value

abbrev BlockTable := Map UInt64 Row

namespace SurrealStore

-- The nonce is bound as an `i64`.
def blockContent (hashing : Hashing) (block : HashLink) : Row :=
  [("index_pos", .ofU64 block.index), ("hash", .str block.hash),
    ("previous_hash", .str block.previousHash), ("data", .str block.data),
    ("timestamp", .str (hashing.toRfc3339 block.timestamp)), ("nonce", .ofI64 block.nonce.toInt64)]

def saveHashChain (hashing : Hashing) (chain : HashChain) (table : BlockTable) : BlockTable :=
  chain.blocks.foldl (fun table block => table.insert block.index (blockContent hashing block)) table

def indexPos (row : Row) : UInt64 := (row.field "index_pos").asU64.getD 0

-- `clock` is what `Utc::now` returns where the time does not parse.
def loadBlock (parseFromRfc3339 : String → Option Timestamp) (clock : Timestamp) (row : Row) :
    Option HashLink :=
  if indexPos row = 0 then none
  else
    some
      { index := indexPos row
        hash := (row.field "hash").asStr.getD ""
        previousHash := (row.field "previous_hash").asStr.getD ""
        data := (row.field "data").asStr.getD ""
        timestamp := (parseFromRfc3339 ((row.field "timestamp").asStr.getD "")).getD clock
        nonce := (row.field "nonce").asU64.getD 0 }

-- `rows` is what `SELECT * FROM hash_block ORDER BY index_pos ASC` finds.
def loadHashChain (hashing : Hashing) (parseFromRfc3339 : String → Option Timestamp)
    (now clock : Timestamp) (rows : List (UInt64 × Row)) : HashChain :=
  { blocks := (HashChain.new hashing now).blocks ++
      rows.filterMap fun row => loadBlock parseFromRfc3339 clock row.2
    nonempty := by simp [HashChain.new] }

end SurrealStore

open SurrealStore

structure SelectsInOrder (rows : List (UInt64 × Row)) (table : BlockTable) : Prop where
  lists : Lists rows table
  ordered : rows.Pairwise fun a b => (indexPos a.2).toNat ≤ (indexPos b.2).toNat

section RoundTrip

variable {hashing : Hashing} {start : Timestamp} {chain : HashChain}

def HashLink.stored (hashing : Hashing) (b : HashLink) : UInt64 × Row :=
  (b.index, blockContent hashing b)

@[simp] theorem indexPos_blockContent (b : HashLink) :
    indexPos (blockContent hashing b) = b.index := by
  have field : (blockContent hashing b).field "index_pos" = .ofU64 b.index := rfl
  simp [indexPos, field]

theorem loadBlock_stored {parseFromRfc3339 : String → Option Timestamp}
    (clock : Timestamp) {b : HashLink}
    (lossless : parseFromRfc3339 (hashing.toRfc3339 b.timestamp) = some b.timestamp)
    (numbered : b.index ≠ 0) (nonce : b.nonce = 0) :
    loadBlock parseFromRfc3339 clock (blockContent hashing b) = some b := by
  have hash : (blockContent hashing b).field "hash" = .str b.hash := rfl
  have previous : (blockContent hashing b).field "previous_hash" = .str b.previousHash := rfl
  have data : (blockContent hashing b).field "data" = .str b.data := rfl
  have time : (blockContent hashing b).field "timestamp" = .str (hashing.toRfc3339 b.timestamp) := rfl
  have number : (blockContent hashing b).field "nonce" = .ofI64 (0 : UInt64).toInt64 := by
    rw [← nonce]
    rfl
  have zero : (Value.ofI64 (0 : UInt64).toInt64).asU64 = some 0 := rfl
  simp only [loadBlock, indexPos_blockContent, numbered, hash, previous, data, time, number, zero,
    lossless, Value.asStr_str, Option.getD_some, if_false]
  rw [← nonce]

theorem Sound.index_lt (sound : Sound hashing start chain) :
    chain.blocks.Pairwise fun b c => b.index.toNat < c.index.toNat := by
  rw [List.pairwise_iff_getElem]
  intro i j within_i within_j before
  rw [sound.indexed i _ (List.getElem?_eq_getElem within_i),
    sound.indexed j _ (List.getElem?_eq_getElem within_j)]
  exact before

theorem Sound.selected (sound : Sound hashing start chain) {rows : List (UInt64 × Row)}
    (selects : SelectsInOrder rows (saveHashChain hashing chain ∅)) :
    rows = chain.blocks.map (stored hashing) := by
  have saved : saveHashChain hashing chain ∅ = insertAll ∅ (chain.blocks.map (stored hashing)) := by
    simp only [saveHashChain, insertAll, List.foldl_map]
    rfl
  have increasing := sound.index_lt
  have nodup : ((chain.blocks.map (stored hashing)).map Prod.fst).Nodup := by
    rw [List.map_map]
    apply List.Pairwise.map _ _ increasing
    intro b c below same
    exact absurd (congrArg UInt64.toNat same) (Nat.ne_of_lt below)
  have listed := Lists.insertAll nodup
  rw [saved] at selects
  refine (listed.eq_of_ordered selects.lists (fun row => (indexPos row.2).toNat) ?_ selects.ordered).symm
  rw [List.pairwise_map]
  exact increasing.imp fun below => by simpa [stored] using below

theorem filterMap_rest {A : Type} {f : A → Option A} {a : A} {rest : List A} (skipped : f a = none)
    (kept : ∀ b ∈ rest, f b = some b) : (a :: rest).filterMap f = rest := by
  rw [List.filterMap_cons_none skipped, List.filterMap_congr kept, List.filterMap_some]

variable {parseFromRfc3339 : String → Option Timestamp}

theorem Sound.loaded (sound : Sound hashing start chain)
    (lossless : ∀ b ∈ chain.blocks,
      parseFromRfc3339 (hashing.toRfc3339 b.timestamp) = some b.timestamp)
    {rows : List (UInt64 × Row)}
    (selects : SelectsInOrder rows (saveHashChain hashing chain ∅)) (now clock : Timestamp) :
    (loadHashChain hashing parseFromRfc3339 now clock rows).blocks =
      .genesis hashing now "GENESIS_BLOCK" :: chain.blocks.tail := by
  obtain ⟨genesis, rest, split⟩ := List.exists_cons_of_ne_nil chain.nonempty
  have first : genesis.index = 0 := by
    have number := sound.indexed 0 genesis (by simp [split])
    rw [← UInt64.toNat_inj, number, UInt64.toNat_zero]
  have increasing := sound.index_lt
  rw [split, List.pairwise_cons] at increasing
  have skipped : loadBlock parseFromRfc3339 clock (stored hashing genesis).2 = none := by
    rw [loadBlock, stored, indexPos_blockContent, if_pos first]
  have kept : ∀ b ∈ rest, loadBlock parseFromRfc3339 clock (stored hashing b).2 = some b := by
    intro b member
    refine loadBlock_stored clock (lossless b (by simp [split, member])) ?_
      (sound.nonces b (by simp [split, member]))
    intro zero
    have below := increasing.1 b member
    rw [zero] at below
    exact absurd below (Nat.not_lt_zero _)
  have all : (chain.blocks.map (stored hashing)).filterMap (fun row =>
      loadBlock parseFromRfc3339 clock row.2) = rest := by
    rw [List.filterMap_map, split, Function.comp_def]
    exact filterMap_rest skipped kept
  have tail : chain.blocks.tail = rest := by rw [split, List.tail_cons]
  simp only [loadHashChain, sound.selected selects, all, HashChain.new, List.singleton_append, tail]

/-- The restored chain is the saved one exactly if the reader's clock shows the time at which the
saved genesis block was made. -/
theorem restored_chain_iff (hashing : Hashing) (parseFromRfc3339 : String → Option Timestamp)
    (start : Timestamp) (chain : HashChain) (reached : Reachable hashing start chain)
    (lossless : ∀ b ∈ chain.blocks,
      parseFromRfc3339 (hashing.toRfc3339 b.timestamp) = some b.timestamp)
    (rows : List (UInt64 × Row))
    (selects : SelectsInOrder rows (saveHashChain hashing chain ∅)) (now clock : Timestamp) :
    let loaded := loadHashChain hashing parseFromRfc3339 now clock rows
    loaded.blocks = chain.blocks ∧ loaded.verifyChain hashing = (true, []) ↔ now = start := by
  intro loaded
  have sound := reached.sound
  have blocks : loaded.blocks = .genesis hashing now "GENESIS_BLOCK" :: chain.blocks.tail :=
    sound.loaded lossless selects now clock
  obtain ⟨genesis, rest, split⟩ := List.exists_cons_of_ne_nil chain.nonempty
  have first : genesis = .genesis hashing start "GENESIS_BLOCK" := by
    have found := sound.genesis
    rw [split] at found
    exact Option.some.inj found
  constructor
  · rintro ⟨same, -⟩
    rw [blocks, split, List.cons.injEq, first] at same
    exact congrArg HashLink.timestamp same.1
  · rintro rfl
    have same : loaded.blocks = chain.blocks := by rw [blocks, split, first, List.tail_cons]
    refine ⟨same, ?_⟩
    rw [verifyChain_eq, same]
    exact sound.chained

end RoundTrip

namespace Sample

def parseEpoch (text : String) : Option Timestamp :=
  if text = "1970-01-01T00:00:00+00:00" then some ⟨0⟩ else none

def savedChain : HashChain := ((HashChain.new latin ⟨0⟩).append latin ⟨0⟩ "deposit").2

def savedRows : List (UInt64 × Row) := savedChain.blocks.map (stored latin)

theorem savedRows_selected : SelectsInOrder savedRows (saveHashChain latin savedChain ∅) := by
  refine ⟨?_, ?_⟩
  · exact Lists.insertAll (by decide)
  · decide

theorem savedChain_reachable : Reachable latin ⟨0⟩ savedChain :=
  .append .new (by simp [HashChain.new, isizeMax]) ⟨0⟩ "deposit"

end Sample

open Sample

theorem restart_breaks_chain :
    let loaded := loadHashChain latin parseEpoch ⟨1⟩ ⟨1⟩ savedRows
    loaded.blocks ≠ savedChain.blocks ∧ (loaded.verifyChain latin).1 = false := by
  decide +kernel

theorem restored_chain_iff_instant :
    (loadHashChain latin parseEpoch ⟨0⟩ ⟨1⟩ savedRows).blocks = savedChain.blocks ∧
      (loadHashChain latin parseEpoch ⟨0⟩ ⟨1⟩ savedRows).verifyChain latin = (true, []) :=
  (restored_chain_iff latin parseEpoch ⟨0⟩ savedChain savedChain_reachable (by decide) savedRows
    savedRows_selected ⟨0⟩ ⟨1⟩).mpr rfl

end BankingLedger
