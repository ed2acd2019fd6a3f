import BankingLedger.Log.ChainRuns

set_option autoImplicit false

namespace BankingLedger

open HashLinked HashLink

section Chunks

variable {hashing : Hashing} {blocks : List HashLink}

theorem scanChunk_eq_nil {p : String} :
    scanChunk hashing p blocks = [] ↔ (scheme hashing).Hashed p blocks := by
  induction blocks generalizing p with
  | nil => simp [scanChunk, Scheme.Hashed]
  | cons b rest ih =>
    rw [scanChunk, Scheme.Hashed, scheme_digest, scheme_hash, ← ih]
    split <;> simp_all

theorem tip_take (hashing : Hashing) {n : Nat} {b : HashLink} (found : blocks[n]? = some b) :
    (scheme hashing).tip zeros (blocks.take (n + 1)) = b.hash := by
  rw [List.take_add_one, found]
  exact Scheme.tip_concat ..

theorem verifyChunk_eq (hashing : Hashing) {size k : Nat} (within : k * size ≤ blocks.length) :
    verifyChunk hashing blocks size k =
      some (scanChunk hashing ((scheme hashing).tip zeros (blocks.take (k * size)))
        ((blocks.drop (k * size)).take size)) := by
  have slice : (blocks.take (min (k * size + size) blocks.length)).drop (k * size) =
      (blocks.drop (k * size)).take size := by
    rw [List.drop_take, List.take_eq_take_iff]
    simp
    omega
  unfold verifyChunk
  dsimp only
  rw [if_neg (by omega)]
  split
  · rename_i zero
    rw [← slice, zero]
    rfl
  · rename_i positive
    have before : k * size - 1 < blocks.length := by omega
    have tip := tip_take hashing (List.getElem?_eq_getElem before)
    rw [Nat.sub_add_cancel (by omega)] at tip
    rw [List.getElem?_eq_getElem before, slice, Option.map_some, tip]

theorem chunks_hashed (size n : Nat) :
    (∀ k < n, scanChunk hashing ((scheme hashing).tip zeros (blocks.take (k * size)))
        ((blocks.drop (k * size)).take size) = []) ↔
      (scheme hashing).Hashed zeros (blocks.take (n * size)) := by
  induction n with
  | zero => simp [Scheme.Hashed]
  | succ n ih =>
    rw [Nat.forall_lt_succ_right, ih, scanChunk_eq_nil, Nat.add_mul, Nat.one_mul, List.take_add,
      Scheme.hashed_append]

-- The first block of the chunk after chunk `i` names the hash of the last block of chunk `i`.
def BorderLinked (blocks : List HashLink) (size i : Nat) : Prop :=
  ∀ last first, blocks[(i + 1) * size - 1]? = some last → blocks[(i + 1) * size]? = some first →
    first.previousHash = last.hash

theorem verifyBorder_eq (blocks : List HashLink) (size i : Nat) :
    ∃ tampered, verifyBorder blocks size i = some tampered ∧
      (tampered = [] ↔ BorderLinked blocks size i) := by
  unfold verifyBorder BorderLinked
  dsimp only
  split
  · rename_i within
    rw [Nat.min_eq_left (Nat.le_of_lt within)]
    have before : (i + 1) * size - 1 < blocks.length := by omega
    rw [List.getElem?_eq_getElem before, List.getElem?_eq_getElem within]
    refine ⟨_, rfl, ?_⟩
    simp
  · rename_i outside
    have beyond : blocks[(i + 1) * size]? = none := List.getElem?_eq_none (by omega)
    exact ⟨[], rfl, by simp [beyond]⟩

theorem mapM_flatten {A B : Type} {f : A → Option (List B)} {Quiet : A → Prop} (xs : List A)
    (each : ∀ x ∈ xs, ∃ found, f x = some found ∧ (found = [] ↔ Quiet x)) :
    ∃ results, xs.mapM f = some results ∧ (results.flatten = [] ↔ ∀ x ∈ xs, Quiet x) := by
  induction xs with
  | nil => exact ⟨[], rfl, by simp⟩
  | cons x rest ih =>
    obtain ⟨found, result, quiet⟩ := each x (by simp)
    obtain ⟨later, results, all⟩ := ih fun x' member => each x' (by simp [member])
    exact ⟨found :: later, by simp [List.mapM_cons, result, results], by simp [quiet, ← all]⟩

end Chunks

section Agreement

variable {hashing : Hashing} {chain : HashChain}

def BordersLinked (blocks : List HashLink) : Prop :=
  ∀ i < numChunksOf blocks.length - 1,
    BorderLinked blocks (chunkSizeOf blocks.length (numChunksOf blocks.length)) i

-- The chunk size is rounded up, so the chunks reach the end.
theorem le_chunks {n : Nat} (positive : 0 < n) (total : Nat) : total ≤ n * chunkSizeOf total n := by
  have division := Nat.div_add_mod (total + n - 1) n
  have remainder := Nat.mod_lt (total + n - 1) positive
  unfold chunkSizeOf
  omega

theorem chunkSize_pos {total n : Nat} (nonempty : 0 < total) (positive : 0 < n) :
    0 < chunkSizeOf total n :=
  Nat.div_pos (by omega) positive

theorem chunks_fit {total n : Nat} (large : 512 ≤ total) (count : n = numChunksOf total) :
    2 ≤ n ∧ n ≤ 16 ∧ total ≤ n * chunkSizeOf total n ∧ ∀ k < n, k * chunkSizeOf total n ≤ total := by
  have bounds : 2 ≤ n ∧ n ≤ 16 ∧ 256 * n ≤ total := by
    subst count
    unfold numChunksOf
    omega
  obtain ⟨two, sixteen, room⟩ := bounds
  have above : total ≤ n * chunkSizeOf total n := le_chunks (by omega) total
  have below : n * chunkSizeOf total n ≤ total + n - 1 := Nat.mul_div_le _ _
  have size : 256 ≤ chunkSizeOf total n := by
    unfold chunkSizeOf
    rw [Nat.le_div_iff_mul_le (by omega)]
    omega
  refine ⟨two, sixteen, above, fun k less => ?_⟩
  have chunks : (k + 1) * chunkSizeOf total n ≤ n * chunkSizeOf total n := Nat.mul_le_mul_right _ less
  rw [Nat.add_mul] at chunks
  omega

theorem length_ne_zero (chain : HashChain) : chain.blocks.length ≠ 0 := by
  rw [← Nat.pos_iff_ne_zero, List.length_pos_iff]
  exact chain.nonempty

theorem parallelVerifyChain_small (small : chain.blocks.length < 512) :
    parallelVerifyChain hashing chain = some (chain.verifyChain hashing) := by
  have one : numChunksOf chain.blocks.length = 1 := by
    unfold numChunksOf
    omega
  simp [parallelVerifyChain, batchVerifyParallel, one, length_ne_zero chain]

theorem batchVerifyParallel_chunked (hashing : Hashing) {n : Nat}
    (chunked : ¬(n ≤ 1 ∨ chain.blocks.length < n * 2 % 2 ^ 64))
    (within : ∀ k < n, k * chunkSizeOf chain.blocks.length n ≤ chain.blocks.length) :
    ∃ tampered, batchVerifyParallel hashing chain n = some (tampered.isEmpty, tampered) ∧
      (tampered = [] ↔ (scheme hashing).Hashed zeros chain.blocks ∧
        ∀ i < n - 1, BorderLinked chain.blocks (chunkSizeOf chain.blocks.length n) i) := by
  have all : chain.blocks.length ≤ n * chunkSizeOf chain.blocks.length n := le_chunks (by omega) _
  obtain ⟨results, chunks, hashed⟩ := mapM_flatten (List.range n)
    fun k member => ⟨_, verifyChunk_eq hashing (within k (List.mem_range.mp member)), Iff.rfl⟩
  obtain ⟨borders, found, linked⟩ := mapM_flatten (List.range (n - 1))
    fun i _ => verifyBorder_eq chain.blocks (chunkSizeOf chain.blocks.length n) i
  refine ⟨results.flatten ++ borders.flatten, ?_, ?_⟩
  · rw [batchVerifyParallel]
    simp only [length_ne_zero chain, chunked, chunks, found, if_false]
  · simp only [List.mem_range] at hashed linked
    rw [chunks_hashed, List.take_of_length_le all] at hashed
    rw [List.append_eq_nil_iff, hashed, linked]

theorem parallelVerifyChain_large (hashing : Hashing) (large : 512 ≤ chain.blocks.length) :
    ∃ r, parallelVerifyChain hashing chain = some r ∧
      (r.1 = true ↔ (scheme hashing).Hashed zeros chain.blocks ∧ BordersLinked chain.blocks) := by
  obtain ⟨two, sixteen, all, within⟩ := chunks_fit large rfl
  obtain ⟨tampered, verified, quiet⟩ := batchVerifyParallel_chunked hashing
    (show ¬(numChunksOf chain.blocks.length ≤ 1 ∨
      chain.blocks.length < numChunksOf chain.blocks.length * 2 % 2 ^ 64) by omega) within
  exact ⟨_, verified, List.isEmpty_iff.trans quiet⟩

theorem chunkSizeOf_pos (nonempty : chain.blocks ≠ []) :
    0 < chunkSizeOf chain.blocks.length (numChunksOf chain.blocks.length) := by
  have chunks : 1 ≤ numChunksOf chain.blocks.length := by
    unfold numChunksOf
    omega
  exact chunkSize_pos (List.length_pos_iff.mpr nonempty) chunks

theorem borderLinked_of_linked {size : Nat} (positive : 0 < size) (i : Nat)
    (linked : (scheme hashing).Linked zeros chain.blocks) : BorderLinked chain.blocks size i := by
  intro last first at_last at_first
  have start := Nat.mul_pos (Nat.succ_pos i) positive
  rw [← Nat.sub_add_cancel start] at at_first
  exact Scheme.previous_eq_of_linked linked at_last at_first

theorem bordersLinked_of_linked (linked : (scheme hashing).Linked zeros chain.blocks) :
    BordersLinked chain.blocks :=
  fun i _ => borderLinked_of_linked (chunkSizeOf_pos chain.nonempty) i linked

/-- The batch check overlooks wrong previous hashes if all that it looks at is in order. -/
def PreviousHashesSeen (hashing : Hashing) (blocks : List HashLink) : Prop :=
  blocks.length < 512 ∨ (scheme hashing).Linked zeros blocks ∨ ¬ BordersLinked blocks ∨
    ¬ (scheme hashing).Hashed zeros blocks

theorem parallel_agrees_iff (hashing : Hashing) (chain : HashChain) :
    (∃ r, parallelVerifyChain hashing chain = some r ∧
      (r.1 = true ↔ (chain.verifyChain hashing).1 = true)) ↔
    PreviousHashesSeen hashing chain.blocks := by
  by_cases small : chain.blocks.length < 512
  · rw [parallelVerifyChain_small small]
    exact ⟨fun _ => .inl small, fun _ => ⟨_, rfl, Iff.rfl⟩⟩
  · obtain ⟨r, result, valid⟩ := parallelVerifyChain_large hashing (Nat.le_of_not_lt small)
    have borders : (scheme hashing).Linked zeros chain.blocks → BordersLinked chain.blocks :=
      bordersLinked_of_linked
    rw [result]
    simp only [Option.some.injEq, exists_eq_left', valid, verifyChain_valid, Scheme.Chained,
      PreviousHashesSeen, small, false_or]
    tauto

namespace Sample

-- `n` blocks after the genesis block.
def grown : Nat → HashChain
  | 0 => .new latin ⟨0⟩
  | n + 1 => ((grown n).append latin ⟨0⟩ "deposit").2

theorem grown_length (n : Nat) : (grown n).blocks.length = n + 1 := by
  induction n with
  | zero => rfl
  | succ n ih => simp [grown, HashChain.append, ih]

theorem grown_reachable (n : Nat) (fits : n < isizeMax) : Reachable latin ⟨0⟩ (grown n) := by
  induction n with
  | zero => exact .new
  | succ n ih => exact .append (ih (by omega)) (by rw [grown_length]; omega) ⟨0⟩ "deposit"

def forgeGenesis (chain : HashChain) : HashChain where
  blocks := chain.blocks.modifyHead fun genesis => { genesis with previousHash := "forged" }
  nonempty := by simp [chain.nonempty]

-- The batch check looks at nothing that has changed.
theorem forgeGenesis_unseen {chain : HashChain} (chained : (scheme latin).Chained zeros chain.blocks) :
    (scheme latin).Hashed zeros (forgeGenesis chain).blocks ∧
      BordersLinked (forgeGenesis chain).blocks := by
  have borders := bordersLinked_of_linked chained.1
  have size := chunkSizeOf_pos chain.nonempty
  have length : (forgeGenesis chain).blocks.length = chain.blocks.length := by simp [forgeGenesis]
  refine ⟨?_, fun i less last first at_last at_first => ?_⟩
  · obtain ⟨genesis, rest, split⟩ := List.exists_cons_of_ne_nil chain.nonempty
    have hashed := chained.2
    rw [split] at hashed
    simp only [forgeGenesis, split, List.modifyHead_cons]
    exact hashed
  · rw [length] at less at_last at_first
    have start := Nat.mul_pos (Nat.succ_pos i) size
    specialize borders i less
    rw [BorderLinked] at borders
    generalize (i + 1) * chunkSizeOf chain.blocks.length (numChunksOf chain.blocks.length) = n at *
    obtain ⟨n, rfl⟩ : ∃ m, n = m + 1 := ⟨n - 1, by omega⟩
    rw [Nat.add_sub_cancel] at at_last borders
    obtain ⟨genesis, rest, split⟩ := List.exists_cons_of_ne_nil chain.nonempty
    simp only [forgeGenesis, split, List.modifyHead_cons, List.getElem?_cons_succ] at at_last at_first borders
    cases n with
    | zero =>
      rw [List.getElem?_cons_zero, Option.some.injEq] at at_last
      rw [← at_last]
      exact borders genesis first rfl at_first
    | succ n => exact borders last first at_last at_first

theorem forgeGenesis_unlinked (chain : HashChain) :
    ¬ (scheme latin).Linked zeros (forgeGenesis chain).blocks := by
  obtain ⟨genesis, rest, split⟩ := List.exists_cons_of_ne_nil chain.nonempty
  simp only [forgeGenesis, split, List.modifyHead_cons]
  intro linked
  have named : "forged" = zeros := linked.1
  exact absurd named (by decide)

theorem forgeGenesis_accepted (chain : HashChain)
    (chained : (scheme latin).Chained zeros chain.blocks) (large : 512 ≤ chain.blocks.length) :
    (parallelVerifyChain latin (forgeGenesis chain)).map Prod.fst = some true ∧
      ((forgeGenesis chain).verifyChain latin).1 = false := by
  have length : 512 ≤ (forgeGenesis chain).blocks.length := by simpa [forgeGenesis] using large
  obtain ⟨r, result, valid⟩ := parallelVerifyChain_large latin length
  refine ⟨?_, ?_⟩
  · rw [result, Option.map_some, valid.mpr (forgeGenesis_unseen chained)]
  · rw [Bool.eq_false_iff]
    intro accepted
    exact forgeGenesis_unlinked chain ((verifyChain_valid latin _).mp accepted).1

theorem latin_injective : Function.Injective latin.sha256Hex := by
  have back : ∀ b : UInt8, UInt8.ofNat (Char.ofNat b.toNat).toNat = b := by
    intro b
    have valid : b.toNat.isValidChar := .inl (by have := b.toNat_lt; omega)
    have value : (Char.ofNat b.toNat).toNat = b.toNat := by
      rw [Char.ofNat, dif_pos valid]
      rfl
    rw [value, UInt8.ofNat_toNat]
  apply Function.LeftInverse.injective (g := fun text => text.toList.map fun c => UInt8.ofNat c.toNat)
  intro bytes
  simp [latin, Function.comp_def, back]

end Sample

open Sample

theorem parallel_accepts_forged_genesis :
    Function.Injective latin.sha256Hex ∧
      (parallelVerifyChain latin (forgeGenesis (grown 511))).map Prod.fst = some true ∧
      ((forgeGenesis (grown 511)).verifyChain latin).1 = false :=
  ⟨latin_injective, forgeGenesis_accepted (grown 511)
    (grown_reachable 511 (by decide)).sound.chained (Nat.le_of_eq (grown_length 511).symm)⟩

end Agreement

end BankingLedger
