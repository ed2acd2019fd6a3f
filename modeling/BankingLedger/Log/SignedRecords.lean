import BankingLedger.Log.Redactions
import BankingLedger.Log.TamperEvidence
import BankingLedger.Shared.KeyedHash
import BankingLedger.Shared.Runs

set_option autoImplicit false

namespace BankingLedger

open HashLinked HashLink ByteText KeyedHash Runs

-- Sixteen bytes, the highest first.
def Uuid.asBytes (id : Uuid) : List UInt8 :=
  (List.range 16).map fun k => UInt8.ofNat (id.bits.toNat / 256 ^ (15 - k))

section Hmac

variable (sha256 : List UInt8 → Vector UInt8 32)

def digest (bytes : List UInt8) : List UInt8 := (sha256 bytes).toList

def effectiveKey (key : List UInt8) : List UInt8 := pad (digest sha256) 0 64 key

def hmacSign (key message : List UInt8) : String :=
  HexText.encode (mac (digest sha256) (· ^^^ 0x36) (· ^^^ 0x5c) (effectiveKey sha256 key) message)

def hmacVerify (key message : List UInt8) (signature : String) : Bool :=
  hmacSign sha256 key message == signature

structure SignedTransaction where
  transactionId : Uuid
  payload : String
  hmac : String
  timestamp : Timestamp
deriving DecidableEq, Repr

namespace SignedTransaction

def message (transactionId : Uuid) (payload : String) : List UInt8 := transactionId.asBytes ++ utf8 payload

def sign (now : Timestamp) (transactionId : Uuid) (payload : String) (key : List UInt8) :
    SignedTransaction where
  transactionId := transactionId
  payload := payload
  hmac := hmacSign sha256 key (message transactionId payload)
  timestamp := now

def verify (key : List UInt8) (signed : SignedTransaction) : Bool :=
  hmacVerify sha256 key (message signed.transactionId signed.payload) signed.hmac

def hashed (key : List UInt8) (signed : SignedTransaction) : List (List UInt8) :=
  texts (digest sha256) (· ^^^ 0x36) (· ^^^ 0x5c) (effectiveKey sha256 key)
    (message signed.transactionId signed.payload)

end SignedTransaction

end Hmac

structure SigningChain extends HashChain where
  signingKey : List UInt8

inductive ChainCall where
  | append (now : Timestamp) (data : String)
  | signAndAppend (transactionId : Uuid) (now signedAt : Timestamp) (data : String)
  | redact (index : UInt64)

namespace SigningChain

variable (sha256 : List UInt8 → Vector UInt8 32) (hashing : Hashing)

def new (now : Timestamp) (signingKey : List UInt8) : SigningChain :=
  { HashChain.new hashing now with signingKey }

def signAndAppend (transactionId : Uuid) (now signedAt : Timestamp) (data : String) (chain : SigningChain) :
    SignedTransaction × SigningChain :=
  let key := chain.signingKey
  let appended := chain.toHashChain.append hashing now data
  (.sign sha256 signedAt transactionId appended.1.hash key, { appended.2 with signingKey := key })

def call (chain : SigningChain) : ChainCall → SigningChain
  | .append now data => { (chain.toHashChain.append hashing now data).2 with signingKey := chain.signingKey }
  | .signAndAppend transactionId now signedAt data =>
    (chain.signAndAppend sha256 hashing transactionId now signedAt data).2
  | .redact index => { (chain.toHashChain.redact hashing index).2 with signingKey := chain.signingKey }

end SigningChain

section Signatures

variable {sha256 : List UInt8 → Vector UInt8 32}

theorem length_digest (bytes : List UInt8) : (digest sha256 bytes).length = 32 := by
  simp [digest]

theorem length_effectiveKey (key : List UInt8) : (effectiveKey sha256 key).length = 64 :=
  length_pad _ 0 (fun text => by simp [length_digest]) key

theorem length_asBytes (id : Uuid) : id.asBytes.length = 16 := by
  simp [Uuid.asBytes]

theorem asBytes_injective {id id' : Uuid} (same : id.asBytes = id'.asBytes) : id = id' := by
  have digits : ∀ k < 16, id.bits.toNat / 256 ^ k % 256 = id'.bits.toNat / 256 ^ k % 256 := by
    intro k below
    have byte := congrArg (fun bytes : List UInt8 => (bytes[15 - k]?).map UInt8.toNat) same
    have within : 15 - k < 16 := by omega
    have place : 15 - (15 - k) = k := by omega
    simpa [Uuid.asBytes, within, place] using byte
  have whole := mod_pow_eq_of_digits digits
  have small := id.bits.isLt
  have small' := id'.bits.isLt
  rw [Nat.mod_eq_of_lt (by omega), Nat.mod_eq_of_lt (by omega)] at whole
  cases id
  cases id'
  exact congrArg Uuid.mk (BitVec.eq_of_toNat_eq whole)

theorem message_injective {id id' : Uuid} {payload payload' : String}
    (same : SignedTransaction.message id payload = SignedTransaction.message id' payload') :
    id = id' ∧ payload = payload' := by
  have parts := List.append_inj same (by rw [length_asBytes, length_asBytes])
  exact ⟨asBytes_injective parts.1, utf8_injective parts.2⟩

theorem verify_sign (now : Timestamp) (id : Uuid) (payload : String) (key : List UInt8) :
    (SignedTransaction.sign sha256 now id payload key).verify sha256 key = true := by
  simp [SignedTransaction.verify, hmacVerify, SignedTransaction.sign]

theorem verify_eq_or_collision {key key' : List UInt8} {signed signed' : SignedTransaction}
    (valid : signed.verify sha256 key = true) (valid' : signed'.verify sha256 key' = true)
    (same : signed'.hmac = signed.hmac) :
    (effectiveKey sha256 key' = effectiveKey sha256 key ∧ signed'.transactionId = signed.transactionId ∧
        signed'.payload = signed.payload) ∨
      Collision (digest sha256) (signed'.hashed sha256 key') (signed.hashed sha256 key) := by
  have mask : Function.Injective fun b : UInt8 => b ^^^ 0x5c := fun a b xor => by simpa using xor
  simp only [SignedTransaction.verify, hmacVerify, beq_iff_eq] at valid valid'
  rw [← same, ← valid'] at valid
  have tags := HexText.encode_injective (by simp [mac, length_digest]) valid
  rcases mac_eq_or_collision mask (by rw [length_effectiveKey, length_effectiveKey]) tags.symm with one | two
  next => exact .inl ⟨one.1, message_injective one.2⟩
  next => exact .inr two

end Signatures

section Contents

variable (sha256 : List UInt8 → Vector UInt8 32) (hashing : Hashing) {chain : SigningChain}

def HashLink.content (b : HashLink) : UInt64 × String × Timestamp × UInt64 :=
  (b.index, b.data, b.timestamp, b.nonce)

theorem reseal_of_content {b c : HashLink} (same : b.content = c.content) (p : String) :
    (scheme hashing).reseal p b = (scheme hashing).reseal p c := by
  simp only [HashLink.content, Prod.mk.injEq] at same
  simp [scheme, same]

def ChainCall.redactsAt (j : Nat) : ChainCall → Bool
  | .redact index => j ≠ 0 && index.toNat = j
  | _ => false

theorem resealAll_content (p : String) (blocks : List HashLink) :
    ((scheme hashing).resealAll p blocks).map content = blocks.map content := by
  induction blocks generalizing p with
  | nil => rfl
  | cons b rest ih =>
    rw [Scheme.resealAll, List.map_cons, List.map_cons, ih]
    rfl

theorem content_redactedWhere {picked : Nat → Prop} [DecidablePred picked] {j : Nat} {b c : HashLink}
    (same : b.content = c.content) : (redactedWhere picked j b).content = (redactedWhere picked j c).content := by
  simp only [HashLink.content, Prod.mk.injEq] at same
  by_cases here : picked j <;> simp [redactedWhere, here, HashLink.content, HashLink.redacted, same]

theorem redact_content (c : HashChain) (index : UInt64) :
    (c.redact hashing index).2.blocks.map content =
      (if index.toNat = 0 then c.blocks else c.blocks.modify index.toNat HashLink.redacted).map content := by
  have outcome := redact_cases hashing c index
  generalize c.redact hashing index = result at outcome
  cases outcome with
  | refused e off =>
    split
    next => rfl
    next positive => rw [List.modify_eq_self (by omega)]
  | done front previous b rest c' split position blocks =>
    have modified := modify_split (front ++ [previous]) b rest HashLink.redacted
    simp only [List.length_append, List.length_singleton, List.append_assoc, List.singleton_append]
      at modified
    rw [if_neg (by omega), split, position, modified]
    simp [blocks, resealAll_content, HashLink.content]

theorem call_content (call : ChainCall) {j : Nat} (within : j < chain.blocks.length) :
    ((chain.call sha256 hashing call).blocks[j]?).map content =
      (chain.blocks[j]?).map fun b => (redactedWhere (fun j => call.redactsAt j) j b).content := by
  cases call with
  | append now data =>
    simp [SigningChain.call, HashChain.append, List.getElem?_append_left within, redactedWhere,
      ChainCall.redactsAt]
  | signAndAppend id now signedAt data =>
    simp [SigningChain.call, SigningChain.signAndAppend, HashChain.append, List.getElem?_append_left within,
      redactedWhere, ChainCall.redactsAt]
  | redact index =>
    have contents := congrArg (fun list => list[j]?) (redact_content hashing chain.toHashChain index)
    simp only [List.getElem?_map] at contents
    refine contents.trans ?_
    split
    next zero =>
      have unpicked : ¬ (j ≠ 0 ∧ index.toNat = j) := by omega
      simp [redactedWhere, ChainCall.redactsAt, unpicked]
    next positive =>
      rw [List.getElem?_modify]
      by_cases here : index.toNat = j
      next =>
        have picked : j ≠ 0 := by omega
        simp [redactedWhere, ChainCall.redactsAt, here, picked, Function.comp_def]
      next => simp [redactedWhere, ChainCall.redactsAt, here]

theorem le_length_call (call : ChainCall) : chain.blocks.length ≤ (chain.call sha256 hashing call).blocks.length := by
  cases call with
  | append now data => simp [SigningChain.call, HashChain.append]
  | signAndAppend id now signedAt data => simp [SigningChain.call, SigningChain.signAndAppend, HashChain.append]
  | redact index =>
    have lengths := congrArg List.length (redact_content hashing chain.toHashChain index)
    simp only [SigningChain.call, List.length_map] at lengths ⊢
    split at lengths <;> simp_all

theorem run_content (calls : List ChainCall) {j : Nat} (within : j < chain.blocks.length) :
    ((run (SigningChain.call sha256 hashing) chain calls).blocks[j]?).map content =
      (chain.blocks[j]?).map fun b =>
        (redactedWhere (fun j => calls.any (·.redactsAt j)) j b).content := by
  induction calls generalizing chain with
  | nil => simp [redactedWhere]
  | cons call rest ih =>
    have first := call_content sha256 hashing call within
    have longer : chain.blocks.length ≤ (chain.call sha256 hashing call).blocks.length :=
      le_length_call sha256 hashing call
    rw [run_cons, ih (within.trans_le longer)]
    obtain ⟨b, found⟩ : ∃ b, chain.blocks[j]? = some b := ⟨_, List.getElem?_eq_getElem within⟩
    rw [found, Option.map_some] at first ⊢
    obtain ⟨b', found', same⟩ := Option.map_eq_some_iff.mp first
    rw [found', Option.map_some, content_redactedWhere same, redactedWhere_redactedWhere]
    simp [redactedWhere, List.any_cons]

theorem append_chained {c : HashChain} (chained : (scheme hashing).Chained zeros c.blocks) (now : Timestamp)
    (data : String) : (scheme hashing).Chained zeros (c.append hashing now data).2.blocks := by
  refine Scheme.chained_append.mpr ⟨chained, ?_⟩
  rw [Scheme.tip_eq_getLast zeros c.nonempty]
  exact ⟨⟨rfl, trivial⟩, rfl, trivial⟩

theorem redact_chained {c : HashChain} (chained : (scheme hashing).Chained zeros c.blocks) (index : UInt64) :
    (scheme hashing).Chained zeros (c.redact hashing index).2.blocks := by
  rw [redact_blocks chained index]
  exact Scheme.chained_resealAll _ _

theorem call_chained (chained : (scheme hashing).Chained zeros chain.blocks) (call : ChainCall) :
    (scheme hashing).Chained zeros (chain.call sha256 hashing call).blocks := by
  cases call with
  | append now data => exact append_chained hashing chained now data
  | signAndAppend id now signedAt data => exact append_chained hashing chained now data
  | redact index => exact redact_chained hashing chained index

theorem run_chained (calls : List ChainCall) (chained : (scheme hashing).Chained zeros chain.blocks) :
    (scheme hashing).Chained zeros (run (SigningChain.call sha256 hashing) chain calls).blocks := by
  induction calls generalizing chain with
  | nil => exact chained
  | cons call rest ih => exact ih (call_chained sha256 hashing chained call)

theorem le_length_run (chain : SigningChain) (calls : List ChainCall) :
    chain.blocks.length ≤ (run (SigningChain.call sha256 hashing) chain calls).blocks.length := by
  induction calls generalizing chain with
  | nil => exact le_refl _
  | cons call rest ih => exact (le_length_call sha256 hashing call).trans (ih _)

theorem run_signingKey (chain : SigningChain) (calls : List ChainCall) :
    (run (SigningChain.call sha256 hashing) chain calls).signingKey = chain.signingKey := by
  induction calls generalizing chain with
  | nil => rfl
  | cons call rest ih =>
    have kept : (chain.call sha256 hashing call).signingKey = chain.signingKey := by cases call <;> rfl
    rw [run_cons, ih, kept]

end Contents

def SigningChain.Untouched (chain : SigningChain) (calls : List ChainCall) : Prop :=
  ∀ index, .redact index ∈ calls → index ≠ 0 →
    ∀ b, chain.blocks[index.toNat]? = some b → b.data = "[REDACTED]"

section Untouched

variable (sha256 : List UInt8 → Vector UInt8 32) {hashing : Hashing} {chain : SigningChain} {calls : List ChainCall}

theorem redacted_content_iff {b : HashLink} : b.redacted.content = b.content ↔ b.data = "[REDACTED]" := by
  simp [HashLink.content, HashLink.redacted, eq_comm]

theorem untouched_iff : chain.Untouched calls ↔ ∀ (j : Nat) (b : HashLink), chain.blocks[j]? = some b →
    (redactedWhere (fun j => calls.any (·.redactsAt j)) j b).content = b.content := by
  constructor
  next =>
    intro untouched j b found
    by_cases picked : calls.any (·.redactsAt j)
    next =>
      obtain ⟨call, member, redacts⟩ := List.any_eq_true.mp picked
      cases call with
      | redact index =>
        simp only [ChainCall.redactsAt, ne_eq, decide_not, Bool.and_eq_true, Bool.not_eq_eq_eq_not, Bool.not_true,
          decide_eq_false_iff_not, decide_eq_true_eq] at redacts
        have nonzero : index ≠ 0 := by
          intro zero
          rw [zero] at redacts
          exact redacts.1 redacts.2.symm
        have data := untouched index member nonzero b (redacts.2 ▸ found)
        rw [redactedWhere, if_pos picked]
        exact redacted_content_iff.mpr data
      | append now data => cases redacts
      | signAndAppend id now signedAt data => cases redacts
    next => rw [redactedWhere, if_neg picked]
  next =>
    intro contents index member nonzero b found
    have positive : index.toNat ≠ 0 := fun zero => nonzero (UInt64.toNat_inj.mp zero)
    have picked : calls.any (·.redactsAt index.toNat) :=
      List.any_eq_true.mpr ⟨_, member, by simp [ChainCall.redactsAt, positive]⟩
    have same := contents index.toNat b found
    rw [redactedWhere, if_pos picked] at same
    exact redacted_content_iff.mp same

theorem take_of_untouched (chained : (scheme hashing).Chained zeros chain.blocks)
    (untouched : chain.Untouched calls) :
    (run (SigningChain.call sha256 hashing) chain calls).blocks.take chain.blocks.length = chain.blocks := by
  have longer := le_length_run sha256 hashing chain calls
  have later := run_chained sha256 hashing calls chained
  generalize grown : run (SigningChain.call sha256 hashing) chain calls = final at longer later ⊢
  rw [← List.take_append_drop chain.blocks.length final.blocks, Scheme.chained_append] at later
  rw [← resealAll_same_iff.mpr later.1]
  conv_rhs => rw [← resealAll_same_iff.mpr chained]
  refine Scheme.resealAll_congr ?_ zeros
  refine List.forall₂_iff_get.mpr ⟨by simp [longer], fun j within within' => ?_⟩
  intro p
  refine reseal_of_content hashing ?_ p
  have contents := run_content sha256 hashing calls within'
  have kept := untouched_iff.mp untouched j _ (List.getElem?_eq_getElem within')
  rw [grown, List.getElem?_eq_getElem within', List.getElem?_eq_getElem (by omega), Option.map_some,
    Option.map_some, Option.some.injEq, kept] at contents
  simpa using contents

end Untouched

section Collisions

theorem content_place {picked : Nat → Prop} [DecidablePred picked] {j : Nat} {b c : HashLink}
    (same : c.content = (redactedWhere picked j b).content) :
    c.index = b.index ∧ c.timestamp = b.timestamp ∧ c.nonce = b.nonce := by
  simp only [HashLink.content, Prod.mk.injEq] at same
  by_cases here : picked j <;> simp_all [redactedWhere, HashLink.redacted]

variable {sha256 : List UInt8 → Vector UInt8 32} {toRfc3339 : Timestamp → String} {chain : SigningChain}
  {calls : List ChainCall}

-- Blocks of one place and time are told apart by what they hash.
theorem eq_of_preimage {b c : HashLink} (index : b.index = c.index) (timestamp : b.timestamp = c.timestamp)
    (nonce : b.nonce = c.nonce) (length : (utf8 b.previousHash).length = (utf8 c.previousHash).length)
    (same : b.preimage toRfc3339 = c.preimage toRfc3339) (hash : b.hash = c.hash) : b = c := by
  unfold preimage at same
  rw [index, timestamp, nonce] at same
  have body := List.append_cancel_right (List.append_cancel_right same)
  have header := List.append_inj body (by simp [length])
  have previous := utf8_injective (List.append_cancel_right header.1)
  have data := utf8_injective header.2
  cases b
  cases c
  rw [HashLink.mk.injEq]
  exact ⟨index, hash, previous, data, timestamp, nonce⟩

theorem untouched_or_collision (chained : (scheme (.ofSha256 sha256 toRfc3339)).Chained zeros chain.blocks)
    {b : HashLink}
    (found : (run (SigningChain.call sha256 (.ofSha256 sha256 toRfc3339)) chain calls).blocks[chain.blocks.length - 1]? =
      some b)
    (hash : b.hash = (chain.blocks.getLast chain.nonempty).hash) :
    chain.Untouched calls ∨ Collision (digest sha256) (chain.blocks.map (preimage toRfc3339))
      ((run (SigningChain.call sha256 (.ofSha256 sha256 toRfc3339)) chain calls).blocks.map (preimage toRfc3339)) := by
  have longer := le_length_run sha256 (.ofSha256 sha256 toRfc3339) chain calls
  have later := run_chained sha256 (.ofSha256 sha256 toRfc3339) calls chained
  have contents (j : Nat) (within : j < chain.blocks.length) :=
    run_content sha256 (.ofSha256 sha256 toRfc3339) calls within
  generalize run (SigningChain.call sha256 (.ofSha256 sha256 toRfc3339)) chain calls = final
    at found longer later contents ⊢
  obtain ⟨front, rest, split, length⟩ :
      ∃ front rest, final.blocks = front ++ rest ∧ front.length = chain.blocks.length :=
    ⟨_, _, (List.take_append_drop chain.blocks.length final.blocks).symm, by simp [longer]⟩
  have positive : 0 < chain.blocks.length := List.length_pos_iff.mpr chain.nonempty
  have nonempty : front ≠ [] := List.length_pos_iff.mp (length ▸ positive)
  rw [split, Scheme.chained_append] at later
  have place {i : Nat} {b c : HashLink} (before : chain.blocks[i]? = some b) (after : front[i]? = some c) :
      c.content = (redactedWhere (fun j => calls.any (·.redactsAt j)) i b).content := by
    have within := (List.getElem?_eq_some_iff.mp before).1
    have same := contents i within
    rw [split, List.getElem?_append_left (by omega), before, after] at same
    simpa using same
  have tips : (scheme (.ofSha256 sha256 toRfc3339)).tip zeros chain.blocks =
      (scheme (.ofSha256 sha256 toRfc3339)).tip zeros front := by
    rw [split, List.getElem?_append_left (by omega), ← length, ← List.getLast?_eq_getElem?,
      List.getLast?_eq_some_getLast nonempty] at found
    rw [Scheme.tip_eq_getLast zeros chain.nonempty, Scheme.tip_eq_getLast zeros nonempty,
      Option.some.inj found]
    exact hash.symm
  have width {blocks : List HashLink} (ok : (scheme (.ofSha256 sha256 toRfc3339)).Chained zeros blocks) :
      ∀ b ∈ blocks, (utf8 b.previousHash).length = 64 :=
    have parts := Scheme.chained_iff_sealed.mp ok
    length_utf8_previousHash length_utf8_zeros parts.1 parts.2
  have parses : ∀ (i : Nat) (b c : HashLink), chain.blocks[i]? = some b → front[i]? = some c →
      b.preimage toRfc3339 = c.preimage toRfc3339 → b.hash = c.hash → b = c := by
    intro i b c before after same hash
    have fields := content_place (place before after)
    have length := (width chained b (List.mem_of_getElem? before)).trans
      (width later.1 c (List.mem_of_getElem? after)).symm
    exact eq_of_preimage fields.1.symm fields.2.1.symm fields.2.2.symm length same hash
  have digest : ∀ b : HashLink, (scheme (.ofSha256 sha256 toRfc3339)).digest b.previousHash b =
      (Hashing.ofSha256 sha256 toRfc3339).sha256Hex (b.preimage toRfc3339) := fun _ => rfl
  rcases Scheme.Chained.eq_or_collision_at digest parses chained later.1 length.symm tips with same | clash
  next =>
    refine .inl (untouched_iff.mpr fun j b before => ?_)
    exact (place before (same ▸ before)).symm
  next =>
    obtain ⟨b, at_b, c, at_c, differ, collide⟩ := clash
    have at_c' : c ∈ final.blocks := split ▸ List.mem_append_left rest at_c
    refine .inr ⟨_, List.mem_map_of_mem at_b, _, List.mem_map_of_mem at_c', differ, ?_⟩
    have width : (sha256 (b.preimage toRfc3339)).toList.length = (sha256 (c.preimage toRfc3339)).toList.length := by
      simp
    exact HexText.encode_injective width collide

end Collisions

/-- A signed record verifies for good, and what verifies with its signature is the same record. Its
payload is the hash of its block until a redaction takes something from the block or from one before
it. All this unless two of the byte strings that are hashed collide. -/
theorem signed_records_hold (sha256 : List UInt8 → Vector UInt8 32) (toRfc3339 : Timestamp → String)
    (start : Timestamp) (key : List UInt8) (before after : List ChainCall) (transactionId : Uuid)
    (now signedAt : Timestamp) (data : String) :
    let hashing := Hashing.ofSha256 sha256 toRfc3339
    let chain := run (SigningChain.call sha256 hashing) (.new hashing start key) before
    let signed := (chain.signAndAppend sha256 hashing transactionId now signedAt data).1
    let issued := (chain.signAndAppend sha256 hashing transactionId now signedAt data).2
    let later := run (SigningChain.call sha256 hashing) issued after
    signed.verify sha256 later.signingKey = true ∧
      (∀ key' (signed' : SignedTransaction), signed'.verify sha256 key' = true → signed'.hmac = signed.hmac →
        (effectiveKey sha256 key' = effectiveKey sha256 key ∧ signed'.transactionId = transactionId ∧
            signed'.payload = signed.payload) ∨
          Collision (digest sha256) (signed'.hashed sha256 key') (signed.hashed sha256 key)) ∧
      ∃ block, later.blocks[chain.blocks.length]? = some block ∧
        (issued.Untouched after → block.hash = signed.payload) ∧
        (block.hash = signed.payload → issued.Untouched after ∨
          Collision (digest sha256) (issued.blocks.map (preimage toRfc3339))
            (later.blocks.map (preimage toRfc3339))) := by
  intro hashing chain signed issued later
  have chained : (scheme hashing).Chained zeros chain.blocks :=
    run_chained sha256 hashing before ⟨⟨rfl, trivial⟩, rfl, trivial⟩
  have issuedChained : (scheme hashing).Chained zeros issued.blocks :=
    call_chained sha256 hashing chained (.signAndAppend transactionId now signedAt data)
  have length : issued.blocks.length = chain.blocks.length + 1 := by
    simp [issued, SigningChain.signAndAppend, HashChain.append]
  have own : chain.signingKey = key := run_signingKey sha256 hashing _ before
  have sameKey : later.signingKey = key := (run_signingKey sha256 hashing issued after).trans own
  have valid : signed.verify sha256 key = true := own ▸ verify_sign signedAt transactionId _ chain.signingKey
  have payload : (issued.blocks.getLast issued.nonempty).hash = signed.payload := by
    simp [issued, signed, SigningChain.signAndAppend, SignedTransaction.sign, HashChain.append]
  have longer : issued.blocks.length ≤ later.blocks.length := le_length_run sha256 hashing issued after
  refine ⟨sameKey ▸ valid, fun key' signed' valid' same => verify_eq_or_collision valid valid' same, ?_⟩
  obtain ⟨block, found⟩ : ∃ block, later.blocks[chain.blocks.length]? = some block :=
    ⟨_, List.getElem?_eq_getElem (by omega)⟩
  refine ⟨block, found, fun untouched => ?_, fun same => ?_⟩
  next =>
    have front : later.blocks.take issued.blocks.length = issued.blocks :=
      take_of_untouched sha256 issuedChained untouched
    have last : issued.blocks[chain.blocks.length]? = some block := by
      rw [← front, List.getElem?_take_of_lt (by omega)]
      exact found
    have tip := List.getLast?_eq_some_getLast issued.nonempty
    rw [List.getLast?_eq_getElem?, length, Nat.add_sub_cancel, last] at tip
    rw [← payload, Option.some.inj tip]
  next =>
    refine untouched_or_collision issuedChained ?_ (same.trans payload.symm)
    rw [length]
    exact found

end BankingLedger
