import Mathlib.Algebra.Group.Nat.Defs
import BankingLedger.Shared.HashLinked
import BankingLedger.Domain.Journal

set_option autoImplicit false

namespace BankingLedger

/-- SHA-256 followed by hex encoding, and the time format, which come from libraries. -/
structure Hashing where
  sha256Hex : List UInt8 → String
  toRfc3339 : Timestamp → String

structure HashLink where
  index : UInt64
  hash : String
  previousHash : String
  data : String
  timestamp : Timestamp
  nonce : UInt64
deriving DecidableEq, Repr

namespace HashLink

def toLeBytes (n : UInt64) : List UInt8 :=
  (List.range 8).map fun k => (n >>> UInt64.ofNat (8 * k)).toUInt8

def computeHash (hashing : Hashing) (index : UInt64) (previousHash data : String)
    (timestamp : Timestamp) (nonce : UInt64) : String :=
  hashing.sha256Hex (previousHash.toUTF8.data.toList ++ toLeBytes index ++ data.toUTF8.data.toList ++
    (hashing.toRfc3339 timestamp).toUTF8.data.toList ++ toLeBytes nonce)

def genesis (hashing : Hashing) (now : Timestamp) (data : String) : HashLink :=
  let previousHash := String.ofList (List.replicate 64 '0')
  { index := 0
    hash := computeHash hashing 0 previousHash data now 0
    previousHash, data
    timestamp := now
    nonce := 0 }

def next (hashing : Hashing) (now : Timestamp) (previous : HashLink) (data : String) : HashLink :=
  let index := previous.index + 1
  { index
    hash := computeHash hashing index previous.hash data now 0
    previousHash := previous.hash
    data
    timestamp := now
    nonce := 0 }

def verifySelf (hashing : Hashing) (block : HashLink) : Bool :=
  computeHash hashing block.index block.previousHash block.data block.timestamp block.nonce == block.hash

-- `"0".repeat(64)`
def zeros : String := String.ofList (List.replicate 64 '0')

end HashLink

open HashLink (zeros computeHash)

/-- A chain always has its genesis block. The signing key is left out: no block depends on it. -/
structure HashChain where
  blocks : List HashLink
  nonempty : blocks ≠ []

namespace HashChain

def new (hashing : Hashing) (now : Timestamp) : HashChain where
  blocks := [.genesis hashing now "GENESIS_BLOCK"]
  nonempty := by simp

def append (hashing : Hashing) (now : Timestamp) (chain : HashChain) (data : String) :
    HashLink × HashChain :=
  let block := HashLink.next hashing now (chain.blocks.getLast chain.nonempty) data
  (block, { blocks := chain.blocks ++ [block], nonempty := by simp })

def verifyChain (hashing : Hashing) (chain : HashChain) : Bool × List UInt64 :=
  let tampered := if (chain.blocks.head chain.nonempty).previousHash ≠ zeros then [0] else []
  let tampered := chain.blocks.foldl (fun tampered block =>
    if block.verifySelf hashing then tampered else tampered ++ [block.index]) tampered
  -- Each block with the one before it.
  let tampered := (chain.blocks.zip chain.blocks.tail).foldl (fun tampered pair =>
    if pair.2.previousHash ≠ pair.1.hash ∧ pair.2.index ∉ tampered then tampered ++ [pair.2.index]
    else tampered) tampered
  (tampered.isEmpty, tampered)

end HashChain

structure ChainProof where
  block : HashLink
  previousBlockHash : Option String
  nextBlockHash : Option String
deriving DecidableEq, Repr

def HashChain.proofForBlock (chain : HashChain) (index : UInt64) : Option ChainProof :=
  let i := index.toNat
  (chain.blocks[i]?).map fun block =>
    { block
      previousBlockHash := if 0 < i then (chain.blocks[i - 1]?).map HashLink.hash else none
      nextBlockHash := (chain.blocks[i + 1]?).map HashLink.hash }

def ChainProof.verifyPosition (hashing : Hashing) (proof : ChainProof) : Bool :=
  if !proof.block.verifySelf hashing then false
  else
    match proof.previousBlockHash with
    | some previous => proof.block.previousHash == previous
    | none => true

section Redaction

inductive RedactError where
  | indexOutOfBounds
  | cannotRedactGenesis
deriving DecidableEq, Repr

-- One turn of the loop of `redact`: hash block `j` over the block before it and hand the hash to the
-- block after it.
def rehashAt (hashing : Hashing) (blocks : List HashLink) (j : Nat) : List HashLink :=
  match blocks[j - 1]?, blocks[j]? with
  | some previous, some block =>
    let prevHash := if j = 0 then zeros else previous.hash
    let newHash := computeHash hashing block.index prevHash block.data block.timestamp block.nonce
    (blocks.set j { block with hash := newHash }).modify (j + 1) fun next =>
      { next with previousHash := newHash }
  | _, _ => blocks

@[simp] theorem length_rehashAt (hashing : Hashing) (blocks : List HashLink) (j : Nat) :
    (rehashAt hashing blocks j).length = blocks.length := by
  unfold rehashAt
  split <;> simp

def rehashFrom (hashing : Hashing) (blocks : List HashLink) (i : Nat) : List HashLink :=
  (List.range' i (blocks.length - i)).foldl (rehashAt hashing) blocks

@[simp] theorem length_rehashFrom (hashing : Hashing) (blocks : List HashLink) (i : Nat) :
    (rehashFrom hashing blocks i).length = blocks.length := by
  unfold rehashFrom
  generalize List.range' i (blocks.length - i) = turns
  induction turns generalizing blocks with
  | nil => rfl
  | cons j rest ih => simp [ih]

def HashChain.redact (hashing : Hashing) (chain : HashChain) (index : UInt64) :
    Except RedactError Unit × HashChain :=
  let i := index.toNat
  if chain.blocks.length ≤ i then (.error .indexOutOfBounds, chain)
  else if i = 0 then (.error .cannotRedactGenesis, chain)
  else
    let blocks := chain.blocks.modify i fun block => { block with data := "[REDACTED]" }
    (.ok (),
      { blocks := rehashFrom hashing blocks i
        nonempty := by
          rw [← List.length_pos_iff, length_rehashFrom, List.length_modify, List.length_pos_iff]
          exact chain.nonempty })

end Redaction

section Batch

def scanChunk (hashing : Hashing) : String → List HashLink → List UInt64
  | _, [] => []
  | prevHash, block :: rest =>
    if computeHash hashing block.index prevHash block.data block.timestamp block.nonce = block.hash then
      scanChunk hashing block.hash rest
    else block.index :: scanChunk hashing block.hash rest

-- `none` where a slice or an index is out of range, which panics.
def verifyChunk (hashing : Hashing) (blocks : List HashLink) (chunkSize chunkIdx : Nat) :
    Option (List UInt64) :=
  let start := chunkIdx * chunkSize
  let stop := min (start + chunkSize) blocks.length
  if stop < start then none
  else if start = 0 then some (scanChunk hashing zeros (blocks.take stop))
  else
    (blocks[start - 1]?).map fun previous =>
      scanChunk hashing previous.hash ((blocks.take stop).drop start)

def verifyBorder (blocks : List HashLink) (chunkSize i : Nat) : Option (List UInt64) :=
  let chunkEnd := min ((i + 1) * chunkSize) blocks.length - 1
  let nextStart := (i + 1) * chunkSize
  if nextStart < blocks.length then
    match blocks[chunkEnd]?, blocks[nextStart]? with
    | some lastOfChunk, some firstOfNext =>
      some (if firstOfNext.previousHash ≠ lastOfChunk.hash then [firstOfNext.index] else [])
    | _, _ => none
  else some []

-- `total_blocks.div_ceil(num_chunks)`
def chunkSizeOf (totalBlocks numChunks : Nat) : Nat := (totalBlocks + numChunks - 1) / numChunks

def batchVerifyParallel (hashing : Hashing) (chain : HashChain) (numChunks : Nat) :
    Option (Bool × List UInt64) :=
  let totalBlocks := chain.blocks.length
  if totalBlocks = 0 then some (true, [])
  -- The product is one of `usize`.
  else if numChunks ≤ 1 ∨ totalBlocks < numChunks * 2 % 2 ^ 64 then some (chain.verifyChain hashing)
  else
    let chunkSize := chunkSizeOf totalBlocks numChunks
    match (List.range numChunks).mapM (verifyChunk hashing chain.blocks chunkSize),
      (List.range (numChunks - 1)).mapM (verifyBorder chain.blocks chunkSize) with
    | some results, some borders =>
      let allTampered := results.flatten ++ borders.flatten
      some (allTampered.isEmpty, allTampered)
    | _, _ => none

def numChunksOf (totalBlocks : Nat) : Nat := min (max (totalBlocks / 256) 1) 16

def parallelVerifyChain (hashing : Hashing) (chain : HashChain) : Option (Bool × List UInt64) :=
  batchVerifyParallel hashing chain (numChunksOf chain.blocks.length)

end Batch

end BankingLedger
