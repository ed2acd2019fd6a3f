import BankingLedger.Log.ParallelVerify

set_option autoImplicit false

namespace BankingLedger

open HashLinked HashLink

-- The parts of the vector that are verified: the whole of it where that is done in one go.
def chunksOf (totalBlocks numChunks : Nat) : List (Nat × Nat) :=
  if numChunks ≤ 1 ∨ totalBlocks < numChunks * 2 % 2 ^ 64 then [(0, totalBlocks)]
  else
    let chunkSize := chunkSizeOf totalBlocks numChunks
    (List.range numChunks).map fun chunkIdx =>
      (chunkIdx * chunkSize, min (chunkIdx * chunkSize + chunkSize) totalBlocks)

def Covers (chunk : Nat × Nat) (position : Nat) : Prop := chunk.1 ≤ position ∧ position < chunk.2

/-- What the batch check is to do: it ends, its chunks part the chain, and it accepts what
`verify_chain` accepts. -/
def BatchVerifies (hashing : Hashing) (chain : HashChain) (numChunks : Nat) : Prop :=
  ∃ r, batchVerifyParallel hashing chain numChunks = some r ∧
    (∀ position < chain.blocks.length, ∃! k : Nat, ∃ chunk,
      (chunksOf chain.blocks.length numChunks)[k]? = some chunk ∧ Covers chunk position) ∧
    (chain.verifyChain hashing = (true, []) → r = (true, []))

def ChunksStartWithin (totalBlocks numChunks : Nat) : Prop :=
  numChunks ≤ 1 ∨ totalBlocks < numChunks * 2 % 2 ^ 64 ∨
    (numChunks - 1) * chunkSizeOf totalBlocks numChunks ≤ totalBlocks

section Chunks

variable {total n size position : Nat}

-- The chunk of a position is its quotient by the size.
theorem covers_iff_div (positive : 0 < size) (within : position < total) (k : Nat) :
    Covers (k * size, min (k * size + size) total) position ↔ position / size = k := by
  rw [Nat.div_eq_iff positive]
  unfold Covers
  simp only
  omega

theorem chunks_part (nonempty : 0 < total) (within : position < total) :
    ∃! k : Nat, ∃ chunk, (chunksOf total n)[k]? = some chunk ∧ Covers chunk position := by
  unfold chunksOf
  split
  next =>
    refine ⟨0, ⟨(0, total), rfl, Nat.zero_le _, within⟩, ?_⟩
    rintro k ⟨chunk, found, _⟩
    cases k with
    | zero => rfl
    | succ k => simp at found
  next chunked =>
    have positive := chunkSize_pos nonempty (show 0 < n by omega)
    have all : total ≤ n * chunkSizeOf total n := le_chunks (by omega) total
    have below : position / chunkSizeOf total n < n :=
      (Nat.div_lt_iff_lt_mul positive).mpr (by omega)
    refine ⟨position / chunkSizeOf total n, ?_, ?_⟩
    · exact ⟨_, by simp [below], (covers_iff_div positive within _).mpr rfl⟩
    · rintro k ⟨chunk, found, covers⟩
      simp only [List.getElem?_map, Option.map_eq_some_iff] at found
      obtain ⟨k', at_k, rfl⟩ := found
      obtain ⟨_, same⟩ := List.getElem?_eq_some_iff.mp at_k
      rw [List.getElem_range] at same
      rw [same]
      exact ((covers_iff_div positive within k').mp covers).symm

end Chunks

theorem mapM_eq_none {A B : Type} {f : A → Option B} {xs : List A} {x : A} (member : x ∈ xs)
    (stops : f x = none) : xs.mapM f = none := by
  induction xs with
  | nil => cases member
  | cons first rest ih =>
    rw [List.mapM_cons]
    cases result : f first with
    | none => rfl
    | some found =>
      have later : x ∈ rest := by
        rcases List.mem_cons.mp member with rfl | later
        · simp [stops] at result
        · exact later
      simp [ih later]

variable {hashing : Hashing} {chain : HashChain} {n : Nat}

-- A chunk that starts behind the end of the vector is a slice out of range.
theorem batchVerifyParallel_panics (chunked : ¬(n ≤ 1 ∨ chain.blocks.length < n * 2 % 2 ^ 64))
    (past : chain.blocks.length < (n - 1) * chunkSizeOf chain.blocks.length n) :
    batchVerifyParallel hashing chain n = none := by
  have last : verifyChunk hashing chain.blocks (chunkSizeOf chain.blocks.length n) (n - 1) = none :=
    if_pos (by omega)
  have stopped : (List.range n).mapM
      (verifyChunk hashing chain.blocks (chunkSizeOf chain.blocks.length n)) = none :=
    mapM_eq_none (List.mem_range.mpr (by omega)) last
  rw [batchVerifyParallel]
  simp only [length_ne_zero chain, chunked, stopped, if_false]

theorem batchVerifyParallel_sequential (sequential : n ≤ 1 ∨ chain.blocks.length < n * 2 % 2 ^ 64) :
    batchVerifyParallel hashing chain n = some (chain.verifyChain hashing) := by
  rw [batchVerifyParallel]
  simp only [length_ne_zero chain, sequential, if_true, if_false]

theorem batch_verifies_iff (hashing : Hashing) (chain : HashChain) (numChunks : Nat) :
    BatchVerifies hashing chain numChunks ↔ ChunksStartWithin chain.blocks.length numChunks := by
  have nonempty : 0 < chain.blocks.length := Nat.pos_of_ne_zero (length_ne_zero chain)
  by_cases sequential : numChunks ≤ 1 ∨ chain.blocks.length < numChunks * 2 % 2 ^ 64
  next =>
    have within : ChunksStartWithin chain.blocks.length numChunks := by
      unfold ChunksStartWithin
      tauto
    exact iff_of_true ⟨_, batchVerifyParallel_sequential sequential,
      fun position => chunks_part nonempty, id⟩ within
  next =>
    have positive := chunkSize_pos nonempty (show 0 < numChunks by omega)
    constructor
    case mp =>
      intro verifies
      obtain ⟨r, verified, _⟩ := verifies
      by_contra past
      unfold ChunksStartWithin at past
      rw [batchVerifyParallel_panics sequential (by omega)] at verified
      cases verified
    case mpr =>
      intro starts
      have last : (numChunks - 1) * chunkSizeOf chain.blocks.length numChunks ≤ chain.blocks.length := by
        unfold ChunksStartWithin at starts
        tauto
      have within : ∀ k < numChunks,
          k * chunkSizeOf chain.blocks.length numChunks ≤ chain.blocks.length := by
        intro k less
        exact Nat.le_trans (Nat.mul_le_mul_right _ (by omega)) last
      obtain ⟨tampered, verified, quiet⟩ := batchVerifyParallel_chunked hashing sequential within
      refine ⟨_, verified, fun position => chunks_part nonempty, ?_⟩
      intro valid
      have chained := (verifyChain_eq hashing chain).mp valid
      have clean : tampered = [] :=
        quiet.mpr ⟨chained.2, fun i _ => borderLinked_of_linked positive i chained.1⟩
      rw [clean]
      rfl

-- Eleven blocks in five chunks of three: the fifth starts at twelve.
theorem batch_out_of_range :
    ¬BatchVerifies Sample.latin (Sample.grown 10) 5 ∧
      batchVerifyParallel Sample.latin (Sample.grown 10) 5 = none := by
  have panics : batchVerifyParallel Sample.latin (Sample.grown 10) 5 = none := by
    apply batchVerifyParallel_panics <;> rw [Sample.grown_length] <;> decide
  refine ⟨?_, panics⟩
  intro verifies
  obtain ⟨r, verified, _⟩ := verifies
  rw [panics] at verified
  cases verified

end BankingLedger
