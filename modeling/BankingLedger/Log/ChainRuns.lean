import BankingLedger.Log.HashChain

set_option autoImplicit false

namespace BankingLedger

open HashLinked HashLink

def HashLink.scheme (hashing : Hashing) : Scheme HashLink String where
  hash := hash
  previous := previousHash
  digest p b := computeHash hashing b.index p b.data b.timestamp b.nonce
  reseal p b :=
    { b with
      previousHash := p
      hash := computeHash hashing b.index p b.data b.timestamp b.nonce }
  hash_reseal _ _ := rfl
  previous_reseal _ _ := rfl
  digest_reseal _ _ _ := rfl

section Scheme

variable (hashing : Hashing) (p : String) (b : HashLink)

@[simp] theorem scheme_hash : (scheme hashing).hash b = b.hash := rfl
@[simp] theorem scheme_previous : (scheme hashing).previous b = b.previousHash := rfl
@[simp] theorem scheme_digest : (scheme hashing).digest p b =
    computeHash hashing b.index p b.data b.timestamp b.nonce := rfl

end Scheme

theorem resealAll_same_iff {hashing : Hashing} {p : String} {blocks : List HashLink} :
    (scheme hashing).resealAll p blocks = blocks ↔ (scheme hashing).Chained p blocks := by
  refine Scheme.resealAll_eq_self_iff fun p b previous digest => ?_
  obtain ⟨index, hash, previousHash, data, timestamp, nonce⟩ := b
  subst previous
  simp only [scheme_digest, scheme_hash, scheme_previous] at digest
  simp [scheme, digest]

section Verification

theorem foldl_eq_nil_iff {A X : Type} {step : List A → X → List A}
    (grows : ∀ found x, found ≠ [] → step found x ≠ []) (found : List A) (xs : List X) :
    xs.foldl step found = [] ↔ found = [] ∧ ∀ x ∈ xs, step [] x = [] := by
  induction xs generalizing found with
  | nil => simp
  | cons x rest ih =>
    rw [List.foldl_cons, ih, List.forall_mem_cons, ← and_assoc]
    refine and_congr_left fun _ => ⟨fun quiet => ?_, fun ⟨empty, quiet⟩ => empty ▸ quiet⟩
    have empty : found = [] := by
      by_contra tampered
      exact grows found x tampered quiet
    exact ⟨empty, empty ▸ quiet⟩

variable (hashing : Hashing)

theorem verifySelf_iff (b : HashLink) : b.verifySelf hashing = true ↔ (scheme hashing).Sealed b := by
  simp [verifySelf, Scheme.Sealed, scheme]

theorem verifyChain_tampered (chain : HashChain) :
    (chain.verifyChain hashing).2 = [] ↔ (scheme hashing).Chained zeros chain.blocks := by
  obtain ⟨blocks, nonempty⟩ := chain
  obtain ⟨b, rest, rfl⟩ := List.exists_cons_of_ne_nil nonempty
  have genesis : (if b.previousHash ≠ zeros then [(0 : UInt64)] else []) = [] ↔ b.previousHash = zeros := by
    split <;> simp_all
  have own : ∀ x : HashLink, (if x.verifySelf hashing then [] else [] ++ [x.index]) = [] ↔
      (scheme hashing).Sealed x := by
    intro x
    rw [← verifySelf_iff]
    split <;> simp_all
  have linked : ∀ pair : HashLink × HashLink,
      (if pair.2.previousHash ≠ pair.1.hash ∧ pair.2.index ∉ ([] : List UInt64) then
        [] ++ [pair.2.index] else []) = [] ↔ pair.2.previousHash = pair.1.hash := by
    intro pair
    split <;> simp_all
  unfold HashChain.verifyChain
  change ((b :: rest).zip rest).foldl _ ((b :: rest).foldl _
    (if b.previousHash ≠ zeros then [0] else [])) = [] ↔ _
  rw [foldl_eq_nil_iff, foldl_eq_nil_iff, genesis, Scheme.chained_iff_sealed,
    Scheme.linked_cons_iff_zip]
  · simp only [own, linked, scheme_hash, scheme_previous]
    tauto
  · intro found x tampered
    split <;> simp [tampered]
  · intro found x tampered
    split <;> simp [tampered]

theorem verifyChain_eq (chain : HashChain) :
    chain.verifyChain hashing = (true, []) ↔ (scheme hashing).Chained zeros chain.blocks := by
  rw [← verifyChain_tampered, Prod.ext_iff]
  simp [HashChain.verifyChain]

theorem verifyChain_valid (chain : HashChain) :
    (chain.verifyChain hashing).1 = true ↔ (scheme hashing).Chained zeros chain.blocks := by
  rw [← verifyChain_tampered]
  simp [HashChain.verifyChain]

end Verification

section Redaction

variable (hashing : Hashing)

theorem rehashAt_split (front : List HashLink) (previous b : HashLink) (rest : List HashLink) :
    rehashAt hashing (front ++ previous :: b :: rest) (front.length + 1) =
      front ++ previous :: { b with hash := (scheme hashing).digest previous.hash b } ::
        rest.modify 0 fun next =>
          { next with previousHash := (scheme hashing).digest previous.hash b } := by
  have at_previous : (front ++ previous :: b :: rest)[front.length + 1 - 1]? = some previous := by simp
  have at_b : (front ++ previous :: b :: rest)[front.length + 1]? = some b := by
    rw [List.getElem?_append_right (by omega)]
    simp
  rw [rehashAt, at_previous, at_b]
  simp only [Nat.add_one_ne_zero, if_false, scheme_digest]
  rw [List.set_append_right _ _ (by omega), Nat.add_sub_cancel_left, List.modify, Nat.add_assoc,
    List.modifyTailIdx_add]
  rfl

theorem rehash_split (front : List HashLink) (previous b : HashLink) (rest : List HashLink) :
    (List.range' (front.length + 1) (rest.length + 1)).foldl (rehashAt hashing)
        (front ++ previous :: b :: rest) =
      front ++ previous :: { b with hash := (scheme hashing).digest previous.hash b } ::
        (scheme hashing).resealAll ((scheme hashing).digest previous.hash b) rest := by
  induction rest generalizing front previous b with
  | nil =>
    have turn := rehashAt_split hashing front previous b []
    simpa [Scheme.resealAll] using turn
  | cons next rest ih =>
    rw [List.length_cons, List.range'_succ, List.foldl_cons, rehashAt_split]
    have later := ih (front ++ [previous])
      { b with hash := (scheme hashing).digest previous.hash b }
      { next with previousHash := (scheme hashing).digest previous.hash b }
    simpa [Scheme.resealAll, scheme] using later

theorem modify_split {A : Type} (front : List A) (a : A) (rest : List A) (f : A → A) :
    (front ++ a :: rest).modify front.length f = front ++ f a :: rest :=
  List.modifyTailIdx_add (List.modifyHead f) 0 front (a :: rest)

theorem split_at {A : Type} {xs : List A} {i : Nat} (positive : 0 < i) (within : i < xs.length) :
    ∃ front previous b rest, xs = front ++ previous :: b :: rest ∧ i = front.length + 1 := by
  have front : xs = xs.take (i - 1) ++ xs.drop (i - 1) := (List.take_append_drop (i - 1) xs).symm
  have previous := List.drop_eq_getElem_cons (show i - 1 < xs.length by omega)
  have here := List.drop_eq_getElem_cons within
  rw [Nat.sub_add_cancel positive, here] at previous
  rw [previous] at front
  exact ⟨_, _, _, _, front, by simp; omega⟩

def HashLink.redacted (b : HashLink) : HashLink := { b with data := "[REDACTED]" }

variable {hashing}

inductive RedactOutcome (hashing : Hashing) (chain : HashChain) (i : Nat) :
    Except RedactError Unit × HashChain → Prop where
  | refused (e : RedactError) (off : chain.blocks.length ≤ i ∨ i = 0) :
      RedactOutcome hashing chain i (.error e, chain)
  | done (front : List HashLink) (previous b : HashLink) (rest : List HashLink) (chain' : HashChain)
      (split : chain.blocks = front ++ previous :: b :: rest) (position : i = front.length + 1)
      (blocks : chain'.blocks = front ++ previous ::
        { b.redacted with hash := (scheme hashing).digest previous.hash b.redacted } ::
        (scheme hashing).resealAll ((scheme hashing).digest previous.hash b.redacted) rest) :
      RedactOutcome hashing chain i (.ok (), chain')

theorem redact_cases (hashing : Hashing) (chain : HashChain) (index : UInt64) :
    RedactOutcome hashing chain index.toNat (chain.redact hashing index) := by
  unfold HashChain.redact
  dsimp only
  split_ifs with outside genesis
  · exact .refused _ (.inl outside)
  · exact .refused _ (.inr genesis)
  · have within : index.toNat < chain.blocks.length := by omega
    obtain ⟨front, previous, b, rest, split, position⟩ := split_at (Nat.pos_of_ne_zero genesis) within
    refine .done front previous b rest _ split position ?_
    have data := modify_split (front ++ [previous]) b rest fun block =>
      { block with data := "[REDACTED]" }
    simp only [List.length_append, List.length_singleton, List.append_assoc, List.singleton_append]
      at data
    have length : (front ++ previous :: b.redacted :: rest).length - (front.length + 1) =
        rest.length + 1 := by simp; omega
    have turns := rehash_split hashing front previous b.redacted rest
    rw [← length] at turns
    simp only [position, split, data]
    exact turns

structure RedactedAt (i j : Nat) (b b' : HashLink) : Prop where
  index : b'.index = b.index
  timestamp : b'.timestamp = b.timestamp
  nonce : b'.nonce = b.nonce
  data : j ≠ i → b'.data = b.data
  hash : j < i → b'.hash = b.hash
  previousHash : j ≤ i → b'.previousHash = b.previousHash

theorem RedactedAt.refl (i j : Nat) (b : HashLink) : RedactedAt i j b b :=
  ⟨rfl, rfl, rfl, fun _ => rfl, fun _ => rfl, fun _ => rfl⟩

theorem redacted_getElem? {front : List HashLink} {previous b : HashLink} {rest : List HashLink}
    {h : String} {j : Nat} {b' : HashLink}
    (found : (front ++ previous :: { b.redacted with hash := h } ::
      (scheme hashing).resealAll h rest)[j]? = some b') :
    ∃ b₀, (front ++ previous :: b :: rest)[j]? = some b₀ ∧
      RedactedAt (front.length + 1) j b₀ b' := by
  rw [List.getElem?_append] at found ⊢
  split at found
  · rename_i early
    simp only [early, if_true]
    exact ⟨b', found, .refl _ _ _⟩
  · rename_i late
    simp only [late, if_false]
    obtain ⟨k, rfl⟩ : ∃ k, j = front.length + k := ⟨j - front.length, by omega⟩
    rw [Nat.add_sub_cancel_left] at found ⊢
    rcases k with _ | _ | k
    · exact ⟨previous, rfl, by cases found; exact .refl _ _ _⟩
    · refine ⟨b, rfl, ?_⟩
      cases found
      exact ⟨rfl, rfl, rfl, fun other => absurd rfl other, fun before => by omega, fun _ => rfl⟩
    · obtain ⟨b₀, q, at_k, rfl⟩ := Scheme.getElem?_resealAll (by simpa using found)
      exact ⟨b₀, by simpa using at_k, rfl, rfl, rfl, fun _ => rfl, fun before => by omega,
        fun before => by omega⟩

end Redaction

section Runs

def isizeMax : Nat := 2 ^ 63 - 1

/-- The chains reached from `HashChain::new` at the time `start`. A vector holds no more than
`isize::MAX` bytes: `push` panics where there is no room. -/
inductive Reachable (hashing : Hashing) (start : Timestamp) : HashChain → Prop where
  | new : Reachable hashing start (.new hashing start)
  | append {chain : HashChain} (reached : Reachable hashing start chain)
      (room : chain.blocks.length < isizeMax) (now : Timestamp) (data : String) :
      Reachable hashing start (chain.append hashing now data).2
  | redact {chain : HashChain} (reached : Reachable hashing start chain) (index : UInt64) :
      Reachable hashing start (chain.redact hashing index).2

structure Sound (hashing : Hashing) (start : Timestamp) (chain : HashChain) : Prop where
  chained : (scheme hashing).Chained zeros chain.blocks
  indexed : ∀ (i : Nat) (b : HashLink), chain.blocks[i]? = some b → b.index.toNat = i
  nonces : ∀ b ∈ chain.blocks, b.nonce = 0
  genesis : chain.blocks[0]? = some (.genesis hashing start "GENESIS_BLOCK")
  fits : chain.blocks.length ≤ isizeMax

variable {hashing : Hashing} {start : Timestamp} {chain : HashChain}

theorem Sound.new : Sound hashing start (.new hashing start) where
  chained := ⟨⟨rfl, trivial⟩, rfl, trivial⟩
  indexed i b found := by
    rw [HashChain.new, List.getElem?_singleton] at found
    split at found
    · cases found
      rename_i zero
      rw [zero]
      rfl
    · cases found
  nonces b member := by
    rw [HashChain.new, List.mem_singleton] at member
    rw [member]
    rfl
  genesis := rfl
  fits := by simp [HashChain.new, isizeMax]

theorem Sound.append (sound : Sound hashing start chain) (room : chain.blocks.length < isizeMax)
    (now : Timestamp) (data : String) : Sound hashing start (chain.append hashing now data).2 := by
  obtain ⟨front, last, split⟩ : ∃ front last, chain.blocks = front ++ [last] :=
    ⟨_, _, (List.dropLast_concat_getLast chain.nonempty).symm⟩
  have getLast : chain.blocks.getLast chain.nonempty = last := by simp [split]
  have number : last.index.toNat = front.length := sound.indexed _ last (by simp [split])
  have length : chain.blocks.length = front.length + 1 := by simp [split]
  constructor
  case chained =>
    refine Scheme.chained_append.mpr ⟨sound.chained, ?_⟩
    rw [Scheme.tip_eq_getLast zeros chain.nonempty]
    exact ⟨⟨rfl, trivial⟩, rfl, trivial⟩
  case indexed =>
    intro i b found
    rw [HashChain.append, List.getElem?_append] at found
    split at found
    · exact sound.indexed i b found
    · rw [List.getElem?_singleton] at found
      split at found
      · cases found
        rw [getLast, HashLink.next, UInt64.toNat_add, number]
        simp only [isizeMax] at room
        have : (1 : UInt64).toNat = 1 := rfl
        omega
      · cases found
  case nonces =>
    intro b member
    rw [HashChain.append, List.mem_append, List.mem_singleton] at member
    rcases member with before | rfl
    · exact sound.nonces b before
    · rfl
  case genesis =>
    rw [HashChain.append, List.getElem?_append_left (by omega)]
    exact sound.genesis
  case fits =>
    simp only [HashChain.append, List.length_append, List.length_singleton]
    omega

theorem Sound.redact (sound : Sound hashing start chain) (index : UInt64) :
    Sound hashing start (chain.redact hashing index).2 := by
  have outcome := redact_cases hashing chain index
  generalize chain.redact hashing index = result at outcome
  cases outcome with
  | refused e off => exact sound
  | done front previous b rest chain' split position blocks =>
    have kept : ∀ (j : Nat) (b' : HashLink), chain'.blocks[j]? = some b' →
        ∃ b₀, chain.blocks[j]? = some b₀ ∧ RedactedAt (front.length + 1) j b₀ b' := by
      intro j b' found
      rw [blocks] at found
      rw [split]
      exact redacted_getElem? found
    constructor
    case chained =>
      have before : (scheme hashing).Chained zeros ((front ++ [previous]) ++ b :: rest) := by
        simpa [split] using sound.chained
      rw [Scheme.chained_append, Scheme.tip_concat] at before
      have after : chain'.blocks = (front ++ [previous]) ++
          (scheme hashing).resealAll previous.hash (b.redacted :: rest) := by
        rw [blocks, Scheme.resealAll]
        have linked : b.previousHash = previous.hash := before.2.1.1
        simp [scheme, HashLink.redacted, linked]
      rw [after, Scheme.chained_append, Scheme.tip_concat]
      exact ⟨before.1, Scheme.chained_resealAll _ _⟩
    case indexed =>
      intro j b' found
      obtain ⟨b₀, before, at_j⟩ := kept j b' found
      rw [at_j.index]
      exact sound.indexed j b₀ before
    case nonces =>
      intro b' member
      obtain ⟨j, found⟩ := List.mem_iff_getElem?.mp member
      obtain ⟨b₀, before, at_j⟩ := kept j b' found
      rw [at_j.nonce]
      exact sound.nonces b₀ (List.mem_of_getElem? before)
    case genesis =>
      have first := sound.genesis
      rw [split] at first
      rw [blocks]
      cases front with
      | nil => simpa using first
      | cons head rest => simpa using first
    case fits =>
      have length : chain'.blocks.length = chain.blocks.length := by simp [blocks, split]
      rw [length]
      exact sound.fits

theorem Reachable.sound (reached : Reachable hashing start chain) : Sound hashing start chain := by
  induction reached with
  | new => exact .new
  | append _ room now data ih => exact ih.append room now data
  | redact _ index ih => exact ih.redact index

theorem exists_previous {blocks : List HashLink} (linked : (scheme hashing).Linked zeros blocks) {i : Nat}
    {b : HashLink} (found : blocks[i]? = some b) (positive : 0 < i) :
    ∃ previous, blocks[i - 1]? = some previous ∧ b.previousHash = previous.hash := by
  have within := (List.getElem?_eq_some_iff.mp found).1
  have before := List.getElem?_eq_getElem (show i - 1 < blocks.length by omega)
  rw [← Nat.sub_add_cancel positive] at found
  exact ⟨_, before, Scheme.previous_eq_of_linked linked before found⟩

theorem verifyPosition_of_chained (chained : (scheme hashing).Chained zeros chain.blocks)
    {i : UInt64} {proof : ChainProof} (found : chain.proofForBlock i = some proof) :
    proof.verifyPosition hashing = true := by
  obtain ⟨b, at_i, rfl⟩ := Option.map_eq_some_iff.mp found
  obtain ⟨linked, own⟩ := Scheme.chained_iff_sealed.mp chained
  have self := (verifySelf_iff hashing b).mpr (own b (List.mem_of_getElem? at_i))
  by_cases first : 0 < i.toNat
  · obtain ⟨previous, before, link⟩ := exists_previous linked at_i first
    simp [ChainProof.verifyPosition, self, first, before, link]
  · simp [ChainProof.verifyPosition, self, first]

/-- What holds of every chain that appends and redactions reach, and what the next of them changes. -/
theorem reachable_chain (hashing : Hashing) (start : Timestamp) (chain : HashChain)
    (reached : Reachable hashing start chain) :
    (∀ (i : Nat) (b : HashLink), chain.blocks[i]? = some b → b.index.toNat = i) ∧
      chain.verifyChain hashing = (true, []) ∧
      (∀ i : UInt64, ((chain.proofForBlock i).isSome ↔ i.toNat < chain.blocks.length) ∧
        ∀ proof, chain.proofForBlock i = some proof → proof.verifyPosition hashing = true) ∧
      (∀ (now : Timestamp) (data : String), (chain.append hashing now data).2.blocks =
        chain.blocks ++ [(chain.append hashing now data).1]) ∧
      (∀ (i : UInt64) (chain' : HashChain), chain.redact hashing i = (.ok (), chain') →
        chain'.blocks.length = chain.blocks.length ∧
        ∀ (j : Nat) (b b' : HashLink), chain.blocks[j]? = some b → chain'.blocks[j]? = some b' →
          RedactedAt i.toNat j b b') ∧
      ∀ (i : UInt64) (e : RedactError) (chain' : HashChain),
        chain.redact hashing i = (.error e, chain') → chain' = chain := by
  have sound := reached.sound
  refine ⟨sound.indexed, (verifyChain_eq hashing chain).mpr sound.chained, fun i => ⟨?_, ?_⟩,
    fun now data => rfl, fun i chain' ok => ?_, fun i e chain' error => ?_⟩
  · simp [HashChain.proofForBlock]
  · exact fun proof found => verifyPosition_of_chained sound.chained found
  · have outcome := redact_cases hashing chain i
    rw [ok] at outcome
    cases outcome with
    | done front previous b rest chain' split position blocks =>
      refine ⟨by simp [blocks, split], fun j b₀ b' before after => ?_⟩
      rw [blocks] at after
      obtain ⟨b₁, same, at_j⟩ := redacted_getElem? after
      rw [split, same] at before
      rw [position, ← Option.some.inj before]
      exact at_j
  · have outcome := redact_cases hashing chain i
    rw [error] at outcome
    cases outcome with
    | refused e off => rfl

namespace Sample

-- The bytes themselves for a digest, and the epoch and the nanosecond after it for the time.
def latin : Hashing where
  sha256Hex bytes := String.ofList (bytes.map fun b => Char.ofNat b.toNat)
  toRfc3339 t :=
    if t.nanos = 0 then "1970-01-01T00:00:00+00:00" else "1970-01-01T00:00:00.000000001+00:00"

def redactedChain : HashChain :=
  (((HashChain.new latin ⟨0⟩).append latin ⟨0⟩ "card 4711").2.redact latin 1).2

end Sample

open Sample

theorem reachable_chain_redacted :
    redactedChain.blocks.length = 2 ∧ redactedChain.verifyChain latin = (true, []) :=
  ⟨rfl, (reachable_chain latin ⟨0⟩ redactedChain
    (.redact (.append .new (by simp [HashChain.new, isizeMax]) ⟨0⟩ "card 4711") 1)).2.1⟩

end Runs

end BankingLedger
