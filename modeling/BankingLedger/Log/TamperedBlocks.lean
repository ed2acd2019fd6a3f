import BankingLedger.Log.ParallelVerify

set_option autoImplicit false

namespace BankingLedger

open HashLinked HashLink

section Passes

variable {A B : Type} [DecidableEq B]

def pushNew (p : A → Bool) (f : A → B) (found : List B) (a : A) : List B :=
  if p a ∧ f a ∉ found then found ++ [f a] else found

theorem mem_pushNew {p : A → Bool} {f : A → B} {found : List B} {xs : List A} {b : B} :
    b ∈ xs.foldl (pushNew p f) found ↔ b ∈ found ∨ ∃ a ∈ xs, p a = true ∧ f a = b := by
  induction xs generalizing found with
  | nil => simp
  | cons a rest ih =>
    rw [List.foldl_cons, ih, pushNew]
    split
    next fresh =>
      simp only [List.mem_append, List.mem_cons, exists_eq_or_imp]
      grind
    next =>
      simp only [List.mem_cons, exists_eq_or_imp]
      grind

theorem nodup_pushNew {p : A → Bool} {f : A → B} {found : List B} {xs : List A} :
    (xs.foldl (pushNew p f) found).Nodup ↔ found.Nodup := by
  induction xs generalizing found with
  | nil => rfl
  | cons a rest ih =>
    rw [List.foldl_cons, ih, pushNew]
    split
    next fresh => grind
    next => rfl

omit [DecidableEq B] in
theorem foldl_pushAll (p : A → Bool) (f : A → B) (found : List B) (xs : List A) :
    xs.foldl (fun found a => if p a then found else found ++ [f a]) found =
      found ++ (xs.filter fun a => !p a).map f := by
  induction xs generalizing found with
  | nil => simp
  | cons a rest ih =>
    rw [List.foldl_cons, ih]
    by_cases passes : p a <;> simp [passes]

end Passes

-- Block `i` does not hash to what it says, or does not name the hash before it.
def Offends (hashing : Hashing) (blocks : List HashLink) (i : Nat) : Prop :=
  ∃ b, blocks[i]? = some b ∧
    (b.verifySelf hashing = false ∨ (i = 0 ∧ b.previousHash ≠ zeros) ∨
      ∃ k previous, i = k + 1 ∧ blocks[k]? = some previous ∧ b.previousHash ≠ previous.hash)

def ReportsExactly (hashing : Hashing) (chain : HashChain) : Prop :=
  (chain.verifyChain hashing).2.Nodup ∧
    ∀ index : UInt64, index ∈ (chain.verifyChain hashing).2 ↔ Offends hashing chain.blocks index.toNat

variable {hashing : Hashing} {chain : HashChain}

-- What the first two passes find.
def foundAlone (hashing : Hashing) (chain : HashChain) : List UInt64 :=
  (if (chain.blocks.head chain.nonempty).previousHash ≠ zeros then [0] else []) ++
    (chain.blocks.filter fun b => !b.verifySelf hashing).map HashLink.index

theorem verifyChain_passes (hashing : Hashing) (chain : HashChain) :
    (chain.verifyChain hashing).2 = (chain.blocks.zip chain.blocks.tail).foldl
      (pushNew (fun pair => pair.2.previousHash ≠ pair.1.hash) fun pair => pair.2.index)
      (foundAlone hashing chain) := by
  unfold HashChain.verifyChain foundAlone
  dsimp only
  rw [foldl_pushAll]
  congr 1
  funext found pair
  simp [pushNew]

theorem head_at_zero : chain.blocks[0]? = some (chain.blocks.head chain.nonempty) := by
  rw [List.head_eq_getElem, List.getElem?_eq_getElem]

theorem mem_genesis (index : UInt64) :
    index ∈ (if (chain.blocks.head chain.nonempty).previousHash ≠ zeros then [(0 : UInt64)] else []) ↔
      ∃ b, chain.blocks[index.toNat]? = some b ∧ index.toNat = 0 ∧ b.previousHash ≠ zeros := by
  have listed : index ∈ (if (chain.blocks.head chain.nonempty).previousHash ≠ zeros then [(0 : UInt64)] else []) ↔
      index.toNat = 0 ∧ (chain.blocks.head chain.nonempty).previousHash ≠ zeros := by
    rw [← UInt64.toNat_zero, UInt64.toNat_inj]
    split <;> simp_all
  rw [listed]
  constructor
  case mp =>
    intro wrong
    exact ⟨_, wrong.1 ▸ head_at_zero, wrong⟩
  case mpr =>
    intro wrong
    obtain ⟨b, found, first, named⟩ := wrong
    rw [first, head_at_zero, Option.some.injEq] at found
    exact ⟨first, found ▸ named⟩

section Indexed

variable (indexed : ∀ (i : Nat) (b : HashLink), chain.blocks[i]? = some b → b.index.toNat = i)
include indexed

theorem indices_nodup : (chain.blocks.map HashLink.index).Nodup := by
  rw [List.Nodup, List.pairwise_map, List.pairwise_iff_getElem]
  intro i j atI atJ before same
  have first := indexed i _ (List.getElem?_eq_getElem atI)
  have second := indexed j _ (List.getElem?_eq_getElem atJ)
  rw [same] at first
  omega

theorem mem_failing (index : UInt64) :
    index ∈ (chain.blocks.filter fun b => !b.verifySelf hashing).map HashLink.index ↔
      ∃ b, chain.blocks[index.toNat]? = some b ∧ b.verifySelf hashing = false := by
  simp only [List.mem_map, List.mem_filter, Bool.not_eq_true']
  constructor
  case mp =>
    intro listed
    obtain ⟨b, ⟨member, fails⟩, rfl⟩ := listed
    obtain ⟨i, found⟩ := List.mem_iff_getElem?.mp member
    exact ⟨b, (indexed i b found).symm ▸ found, fails⟩
  case mpr =>
    intro offends
    obtain ⟨b, found, fails⟩ := offends
    exact ⟨b, ⟨List.mem_of_getElem? found, fails⟩, UInt64.toNat_inj.mp (indexed _ b found)⟩

theorem mem_broken (index : UInt64) :
    (∃ pair ∈ chain.blocks.zip chain.blocks.tail,
        decide (pair.2.previousHash ≠ pair.1.hash) = true ∧ pair.2.index = index) ↔
      ∃ b, chain.blocks[index.toNat]? = some b ∧ ∃ k previous, index.toNat = k + 1 ∧
        chain.blocks[k]? = some previous ∧ b.previousHash ≠ previous.hash := by
  simp only [decide_eq_true_eq]
  constructor
  case mp =>
    intro listed
    obtain ⟨⟨previous, b⟩, member, broken, rfl⟩ := listed
    obtain ⟨k, found⟩ := List.mem_iff_getElem?.mp member
    rw [List.getElem?_zip_eq_some, List.getElem?_tail] at found
    have position := indexed (k + 1) b found.2
    exact ⟨b, position.symm ▸ found.2, k, previous, position, found.1, broken⟩
  case mpr =>
    intro offends
    obtain ⟨b, found, k, previous, position, before, broken⟩ := offends
    refine ⟨(previous, b), List.mem_iff_getElem?.mpr ⟨k, ?_⟩, broken, ?_⟩
    · rw [List.getElem?_zip_eq_some, List.getElem?_tail]
      exact ⟨before, position ▸ found⟩
    · exact UInt64.toNat_inj.mp (indexed _ b found)

theorem mem_verifyChain (index : UInt64) :
    index ∈ (chain.verifyChain hashing).2 ↔ Offends hashing chain.blocks index.toNat := by
  rw [verifyChain_passes, mem_pushNew, foundAlone, List.mem_append, mem_genesis, mem_failing indexed,
    mem_broken indexed]
  unfold Offends
  constructor
  · rintro ((⟨b, found, first, wrong⟩ | ⟨b, found, fails⟩) | ⟨b, found, broken⟩)
    · exact ⟨b, found, .inr (.inl ⟨first, wrong⟩)⟩
    · exact ⟨b, found, .inl fails⟩
    · exact ⟨b, found, .inr (.inr broken)⟩
  · rintro ⟨b, found, fails | wrong | broken⟩
    · exact .inl (.inr ⟨b, found, fails⟩)
    · exact .inl (.inl ⟨b, found, wrong⟩)
    · exact .inr ⟨b, found, broken⟩

theorem nodup_verifyChain :
    (chain.verifyChain hashing).2.Nodup ↔
      (chain.blocks.head chain.nonempty).previousHash = zeros ∨
        (chain.blocks.head chain.nonempty).verifySelf hashing = true := by
  have apart : ((chain.blocks.filter fun b => !b.verifySelf hashing).map HashLink.index).Nodup :=
    (indices_nodup indexed).sublist (List.filter_sublist.map _)
  have again : (0 : UInt64) ∈ (chain.blocks.filter fun b => !b.verifySelf hashing).map HashLink.index ↔
      (chain.blocks.head chain.nonempty).verifySelf hashing = false := by
    rw [mem_failing indexed, UInt64.toNat_zero, head_at_zero]
    simp
  rw [verifyChain_passes, nodup_pushNew, foundAlone]
  by_cases named : (chain.blocks.head chain.nonempty).previousHash = zeros
  next => simpa [named] using apart
  next =>
    rw [if_pos named, List.singleton_append, List.nodup_cons, again]
    simp [named, apart]

/-- The list is the list of the offending blocks, unless a genesis block fails in both ways. -/
theorem reports_exactly_iff : ReportsExactly hashing chain ↔
    (chain.blocks.head chain.nonempty).previousHash = zeros ∨
      (chain.blocks.head chain.nonempty).verifySelf hashing = true := by
  rw [← nodup_verifyChain indexed]
  exact and_iff_left fun index => mem_verifyChain indexed index

end Indexed

namespace Sample

-- The genesis block names a hash before it and no longer hashes to its own.
def misnamed : HashChain := forgeGenesis (.new latin ⟨0⟩)

theorem misnamed_indexed (i : Nat) (b : HashLink) (found : misnamed.blocks[i]? = some b) :
    b.index.toNat = i := by
  cases i with
  | zero =>
    rw [← Option.some.inj found]
    rfl
  | succ i => cases found

end Sample

open Sample

theorem genesis_reported_twice :
    misnamed.verifyChain latin = (false, [0, 0]) ∧ ¬ReportsExactly latin misnamed := by
  have listed : misnamed.verifyChain latin = (false, [0, 0]) := by decide +kernel
  refine ⟨listed, ?_⟩
  intro exactly
  have nodup := exactly.1
  rw [listed] at nodup
  exact absurd nodup (by decide)

theorem reports_exactly_iff_misnamed :
    ReportsExactly latin misnamed ↔
      (misnamed.blocks.head misnamed.nonempty).previousHash = zeros ∨
        (misnamed.blocks.head misnamed.nonempty).verifySelf latin = true :=
  reports_exactly_iff misnamed_indexed

end BankingLedger
