import BankingLedger.Log.ChainRuns
import Mathlib.Data.Finset.Basic

set_option autoImplicit false

namespace BankingLedger

open HashLinked HashLink

def redactAll (hashing : Hashing) (chain : HashChain) (indices : List UInt64) : HashChain :=
  indices.foldl (fun chain index => (chain.redact hashing index).2) chain

def withRedacted (hashing : Hashing) (picked : Finset UInt64) (blocks : List HashLink) : List HashLink :=
  (scheme hashing).resealAll zeros
    (blocks.mapIdx fun i b => if i ≠ 0 ∧ ∃ index ∈ picked, index.toNat = i then b.redacted else b)

section Contents

variable {hashing : Hashing} {blocks : List HashLink}

def redactedWhere (picked : Nat → Prop) [DecidablePred picked] (i : Nat) (b : HashLink) : HashLink :=
  if picked i then b.redacted else b

theorem resealAll_redactedWhere (picked : Nat → Prop) [DecidablePred picked] (p q : String) :
    (scheme hashing).resealAll p (((scheme hashing).resealAll q blocks).mapIdx (redactedWhere picked)) =
      (scheme hashing).resealAll p (blocks.mapIdx (redactedWhere picked)) := by
  apply Scheme.resealAll_mapIdx
  intro i p q b
  unfold redactedWhere
  split <;> rfl

theorem redactedWhere_redactedWhere (first second : Nat → Prop) [DecidablePred first]
    [DecidablePred second] (i : Nat) (b : HashLink) :
    redactedWhere second i (redactedWhere first i b) = redactedWhere (fun i => first i ∨ second i) i b := by
  by_cases one : first i <;> by_cases two : second i <;>
    simp [redactedWhere, one, two, HashLink.redacted]

end Contents

section Runs

variable {hashing : Hashing} {chain : HashChain}

theorem mapIdx_redactedWhere (blocks : List HashLink) (n : Nat) :
    blocks.mapIdx (redactedWhere fun i => i ≠ 0 ∧ n = i) =
      if n = 0 then blocks else blocks.modify n HashLink.redacted := by
  rw [List.mapIdx_eq_iff]
  intro i
  split
  next zero =>
    have unpicked : ∀ b, redactedWhere (fun i => i ≠ 0 ∧ n = i) i b = b := by
      intro b
      exact if_neg (by omega)
    simp [funext unpicked]
  next positive =>
    rw [List.getElem?_modify]
    cases blocks[i]? with
    | none => rfl
    | some b =>
      by_cases here : n = i
      next =>
        have picked : i ≠ 0 := here ▸ positive
        simp [redactedWhere, here, picked]
      next => simp [redactedWhere, here]

-- A redaction of a chain that verifies seals the chain of its new contents.
theorem redact_blocks (chained : (scheme hashing).Chained zeros chain.blocks) (index : UInt64) :
    (chain.redact hashing index).2.blocks = (scheme hashing).resealAll zeros
      (chain.blocks.mapIdx (redactedWhere fun i => i ≠ 0 ∧ index.toNat = i)) := by
  have outcome := redact_cases hashing chain index
  rw [mapIdx_redactedWhere]
  generalize chain.redact hashing index = result at outcome
  cases outcome with
  | refused e off =>
    have unchanged : (if index.toNat = 0 then chain.blocks else
        chain.blocks.modify index.toNat HashLink.redacted) = chain.blocks := by
      split
      next => rfl
      next positive => exact List.modify_eq_self (by omega)
    rw [unchanged]
    exact (resealAll_same_iff.mpr chained).symm
  | done front previous b rest chain' split position blocks =>
    have before : (scheme hashing).Chained zeros ((front ++ [previous]) ++ b :: rest) := by
      simpa [split] using chained
    rw [Scheme.chained_append, Scheme.tip_concat] at before
    have linked : b.previousHash = previous.hash := before.2.1.1
    have modified := modify_split (front ++ [previous]) b rest HashLink.redacted
    simp only [List.length_append, List.length_singleton, List.append_assoc, List.singleton_append]
      at modified
    have front_kept := resealAll_same_iff.mpr before.1
    rw [if_neg (by omega), split, position, modified, blocks,
      List.append_cons front previous (b.redacted :: rest), Scheme.resealAll_append, front_kept,
      Scheme.tip_concat]
    simp [scheme, Scheme.resealAll, HashLink.redacted, linked]

theorem redactedWhere_congr {first second : Nat → Prop} [DecidablePred first] [DecidablePred second]
    (same : ∀ i, first i ↔ second i) : redactedWhere first = redactedWhere second := by
  funext i b
  simp [redactedWhere, same]

theorem redactAll_blocks (chained : (scheme hashing).Chained zeros chain.blocks) (indices : List UInt64) :
    (redactAll hashing chain indices).blocks = (scheme hashing).resealAll zeros
      (chain.blocks.mapIdx (redactedWhere fun i => i ≠ 0 ∧ ∃ index ∈ indices, index.toNat = i)) := by
  induction indices generalizing chain with
  | nil =>
    have unpicked : chain.blocks.mapIdx (redactedWhere fun i =>
        i ≠ 0 ∧ ∃ index ∈ ([] : List UInt64), index.toNat = i) = chain.blocks := by
      rw [List.mapIdx_eq_iff]
      intro i
      cases chain.blocks[i]? <;> simp [redactedWhere]
    rw [unpicked]
    exact (resealAll_same_iff.mpr chained).symm
  | cons index rest ih =>
    have first := redact_blocks chained index
    have chained' : (scheme hashing).Chained zeros (chain.redact hashing index).2.blocks := by
      rw [first]
      exact Scheme.chained_resealAll _ _
    have later := ih chained'
    rw [first, resealAll_redactedWhere, List.mapIdx_mapIdx] at later
    refine later.trans (congrArg _ (congrArg (List.mapIdx · chain.blocks) ?_))
    funext i b
    simp only [Function.comp_def]
    rw [redactedWhere_redactedWhere]
    refine congrFun (congrFun (redactedWhere_congr fun i => ?_) i) b
    rw [List.exists_mem_cons_iff, and_or_left]

/-- The blocks left by redactions depend on the blocks they started from and on which indices were
redacted, so neither on their order nor on how often. -/
theorem redactions_commute {start : Timestamp} (reached : Reachable hashing start chain) :
    (∀ i j, ((chain.redact hashing i).2.redact hashing j).2.blocks =
        ((chain.redact hashing j).2.redact hashing i).2.blocks) ∧
      (∀ i, ((chain.redact hashing i).2.redact hashing i).2.blocks = (chain.redact hashing i).2.blocks) ∧
      ∀ indices, (redactAll hashing chain indices).blocks =
        withRedacted hashing indices.toFinset chain.blocks := by
  have chained := reached.sound.chained
  have depends : ∀ indices, (redactAll hashing chain indices).blocks =
      withRedacted hashing indices.toFinset chain.blocks := by
    intro indices
    rw [redactAll_blocks chained]
    unfold withRedacted
    simp only [List.mem_toFinset]
    rfl
  refine ⟨fun i j => ?_, fun i => ?_, depends⟩
  next =>
    have same : [i, j].toFinset = [j, i].toFinset := List.toFinset_eq_of_perm _ _ (.swap j i [])
    exact (depends [i, j]).trans (same ▸ (depends [j, i]).symm)
  next =>
    have same : [i, i].toFinset = [i].toFinset := by simp
    exact (depends [i, i]).trans (same ▸ (depends [i]).symm)

namespace Sample

def personal : HashChain :=
  let chain := ((HashChain.new latin ⟨0⟩).append latin ⟨0⟩ "card 4711").2
  ((chain.append latin ⟨1⟩ "Ada Lovelace").2.append latin ⟨1⟩ "deposit").2

theorem personal_reachable : Reachable latin ⟨0⟩ personal := by
  refine .append (.append (.append .new ?_ _ _) ?_ _ _) ?_ _ _ <;>
    simp [HashChain.new, HashChain.append, isizeMax]

end Sample

open Sample

theorem redactions_commute_personal :
    ((personal.redact latin 1).2.redact latin 2).2.blocks =
        ((personal.redact latin 2).2.redact latin 1).2.blocks ∧
      (redactAll latin personal [2, 1, 2]).blocks = withRedacted latin {1, 2} personal.blocks := by
  obtain ⟨commute, _, depends⟩ := redactions_commute personal_reachable
  have indices : [(2 : UInt64), 1, 2].toFinset = {1, 2} := by decide
  exact ⟨commute 1 2, indices ▸ depends [2, 1, 2]⟩

end Runs

end BankingLedger
