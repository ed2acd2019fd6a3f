import BankingLedger.Log.ParallelVerify
import BankingLedger.Log.TamperEvidence

set_option autoImplicit false

namespace BankingLedger

open HashLinked HashLink

structure Placed (chain : HashChain) (i : Nat) (proof : ChainProof) : Prop where
  index : proof.block.index.toNat = i
  previous : proof.previousBlockHash = if 0 < i then (chain.blocks[i - 1]?).map HashLink.hash else none
  next : proof.nextBlockHash = (chain.blocks[i + 1]?).map HashLink.hash

def Collide (hashing : Hashing) (b c : HashLink) : Prop :=
  b.preimage hashing.toRfc3339 ≠ c.preimage hashing.toRfc3339 ∧
    hashing.sha256Hex (b.preimage hashing.toRfc3339) = hashing.sha256Hex (c.preimage hashing.toRfc3339)

section Soundness

variable {hashing : Hashing} {chain : HashChain} {i : Nat} {b : HashLink} {proof : ChainProof}

theorem sha256Hex_preimage_iff :
    b.verifySelf hashing = true ↔ hashing.sha256Hex (b.preimage hashing.toRfc3339) = b.hash := by
  rw [verifySelf, beq_iff_eq]
  rfl

theorem previousHash_of_placed (linked : (scheme hashing).Linked zeros chain.blocks)
    (found : chain.blocks[i]? = some b) (placed : Placed chain i proof) :
    proof.previousBlockHash = if 0 < i then some b.previousHash else none := by
  rw [placed.previous]
  by_cases first : 0 < i
  next =>
    obtain ⟨previous, before, link⟩ := exists_previous linked found first
    rw [if_pos first, if_pos first, before, Option.map_some, link]
  next => rw [if_neg first, if_neg first]

-- What the verifier asks of a proof for position `i`.
theorem verifyPosition_iff (linked : (scheme hashing).Linked zeros chain.blocks)
    (found : chain.blocks[i]? = some b) (placed : Placed chain i proof) :
    proof.verifyPosition hashing = true ↔ proof.block.verifySelf hashing = true ∧
      (0 < i → proof.block.previousHash = b.previousHash) := by
  rw [ChainProof.verifyPosition, previousHash_of_placed linked found placed]
  cases proof.block.verifySelf hashing <;> by_cases first : 0 < i <;> simp [first]

/-- A proof that is accepted shows the chain's block, or a collision, exactly if what the verifier does not
look at is in order: the hash of the block, and that its bytes are those of no other block. -/
theorem chain_proof_sound_iff (valid : chain.verifyChain hashing = (true, []))
    (found : chain.blocks[i]? = some b) (placed : Placed chain i proof) :
    (proof.verifyPosition hashing = true → proof.block = b ∨ Collide hashing proof.block b) ↔
      proof.block.verifySelf hashing = false ∨ (0 < i ∧ proof.block.previousHash ≠ b.previousHash) ∨
        (proof.block.hash = b.hash ∧
          (proof.block.preimage hashing.toRfc3339 = b.preimage hashing.toRfc3339 → proof.block = b)) := by
  obtain ⟨linked, sealedAll⟩ := Scheme.chained_iff_sealed.mp ((verifyChain_eq hashing chain).mp valid)
  have own : hashing.sha256Hex (b.preimage hashing.toRfc3339) = b.hash :=
    sealedAll b (List.mem_of_getElem? found)
  rw [verifyPosition_iff linked found placed]
  cases self : proof.block.verifySelf hashing with
  | false => simp
  | true =>
    have hashed := sha256Hex_preimage_iff.mp self
    by_cases named : 0 < i → proof.block.previousHash = b.previousHash
    next =>
      have notNamed : ¬(0 < i ∧ proof.block.previousHash ≠ b.previousHash) := by tauto
      simp only [notNamed, Collide, hashed, own, true_and, false_or, reduceCtorEq]
      constructor
      case mp =>
        intro sound
        rcases sound named with same | collide
        next => exact ⟨congrArg HashLink.hash same, fun _ => same⟩
        next => exact ⟨collide.2, fun bytes => absurd bytes collide.1⟩
      case mpr =>
        intro unchecked _
        obtain ⟨hash, parses⟩ := unchecked
        by_cases bytes : proof.block.preimage hashing.toRfc3339 = b.preimage hashing.toRfc3339
        next => exact .inl (parses bytes)
        next => exact .inr ⟨bytes, hash⟩
    next =>
      have refused : 0 < i ∧ proof.block.previousHash ≠ b.previousHash := by tauto
      simp [refused]

end Soundness

namespace Sample

-- A block for position 1 that the chain does not have, with its own hash.
def forged : ChainProof :=
  { block := .next latin ⟨1⟩ (.genesis latin ⟨0⟩ "GENESIS_BLOCK") "forged"
    previousBlockHash := some (HashLink.genesis latin ⟨0⟩ "GENESIS_BLOCK").hash
    nextBlockHash := ((grown 2).blocks[2]?).map HashLink.hash }

theorem grown_two_valid : (grown 2).verifyChain latin = (true, []) :=
  (verifyChain_eq latin (grown 2)).mpr (grown_reachable 2 (by decide)).sound.chained

theorem forged_placed : Placed (grown 2) 1 forged where
  index := rfl
  previous := rfl
  next := rfl

theorem grown_two_first : (grown 2).blocks[1]? =
    some (.next latin ⟨0⟩ (.genesis latin ⟨0⟩ "GENESIS_BLOCK") "deposit") := rfl

theorem forged_accepted : forged.verifyPosition latin = true := by
  rw [verifyPosition_iff ((verifyChain_eq latin (grown 2)).mp grown_two_valid).1 grown_two_first
    forged_placed]
  exact ⟨by simp [verifySelf, forged, HashLink.next], fun _ => rfl⟩

end Sample

open Sample

theorem forged_proof_accepted :
    ∃ b, (grown 2).verifyChain latin = (true, []) ∧ (grown 2).blocks[1]? = some b ∧
      Placed (grown 2) 1 forged ∧ forged.verifyPosition latin = true ∧
      ¬(forged.block = b ∨ ∃ x y, x ≠ y ∧ latin.sha256Hex x = latin.sha256Hex y) := by
  refine ⟨_, grown_two_valid, grown_two_first, forged_placed, forged_accepted, ?_⟩
  rintro (same | ⟨x, y, apart, collide⟩)
  · have data := congrArg HashLink.data same
    exact absurd data (by decide)
  · exact apart (latin_injective collide)

theorem chain_proof_sound_iff_forged :
    ∃ b, (grown 2).blocks[1]? = some b ∧
      ((forged.verifyPosition latin = true → forged.block = b ∨ Collide latin forged.block b) ↔
        forged.block.verifySelf latin = false ∨ (0 < 1 ∧ forged.block.previousHash ≠ b.previousHash) ∨
          (forged.block.hash = b.hash ∧
            (forged.block.preimage latin.toRfc3339 = b.preimage latin.toRfc3339 → forged.block = b))) :=
  ⟨_, grown_two_first, chain_proof_sound_iff grown_two_valid grown_two_first forged_placed⟩

end BankingLedger
