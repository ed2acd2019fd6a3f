import BankingLedger.Shared.CivilTime
import BankingLedger.Shared.HexText
import BankingLedger.Log.ChainRuns

set_option autoImplicit false

namespace BankingLedger

open HashLinked HashLink ByteText TextPattern CivilTime

def Hashing.ofSha256 (sha256 : List UInt8 → Vector UInt8 32) (toRfc3339 : Timestamp → String) :
    Hashing where
  sha256Hex bytes := HexText.encode (sha256 bytes).toList
  toRfc3339

-- What `compute_hash` feeds to the hasher for a block.
def HashLink.preimage (toRfc3339 : Timestamp → String) (b : HashLink) : List UInt8 :=
  utf8 b.previousHash ++ toLeBytes b.index ++ utf8 b.data ++ utf8 (toRfc3339 b.timestamp) ++
    toLeBytes b.nonce

structure Rfc3339 (toRfc3339 : Timestamp → String) : Prop where
  injective : ∀ s t : Timestamp, FourDigitYear s.nanos → FourDigitYear t.nanos →
    toRfc3339 s = toRfc3339 t → s = t
  form : ∀ t : Timestamp, FourDigitYear t.nanos → ∃ shape ∈ utcShapes, Fits shape (toRfc3339 t).toList

theorem length_toLeBytes (n : UInt64) : (toLeBytes n).length = 8 := by
  simp [toLeBytes]

theorem toLeBytes_injective {m n : UInt64} (same : toLeBytes m = toLeBytes n) : m = n := by
  have digits : ∀ k < 8, m.toNat / 256 ^ k % 256 = n.toNat / 256 ^ k % 256 := by
    intro k below
    have byte := congrArg (fun bytes : List UInt8 => (bytes[k]?).map UInt8.toNat) same
    have shift : 8 * k % 64 = 8 * k := by omega
    have power : (2 : Nat) ^ (8 * k) = 256 ^ k := by rw [Nat.pow_mul]
    simpa [toLeBytes, below, Nat.shiftRight_eq_div_pow, shift, power] using byte
  have whole := mod_pow_eq_of_digits digits
  have small := m.toNat_lt
  have small' := n.toNat_lt
  rw [Nat.mod_eq_of_lt (by omega), Nat.mod_eq_of_lt (by omega)] at whole
  exact UInt64.toNat_inj.mp whole

section

variable {sha256 : List UInt8 → Vector UInt8 32} {toRfc3339 : Timestamp → String}

theorem preimage_injective (format : Rfc3339 toRfc3339) {b c : HashLink}
    (length : (utf8 b.previousHash).length = (utf8 c.previousHash).length)
    (year : FourDigitYear b.timestamp.nanos) (year' : FourDigitYear c.timestamp.nanos)
    (same : b.preimage toRfc3339 = c.preimage toRfc3339) (hash : b.hash = c.hash) : b = c := by
  unfold preimage at same
  obtain ⟨front, nonce⟩ := List.append_inj' same (by rw [length_toLeBytes, length_toLeBytes])
  rw [List.append_assoc, List.append_assoc _ (utf8 c.data)] at front
  obtain ⟨header, body⟩ := List.append_inj front (by simp [length, length_toLeBytes])
  obtain ⟨previous, index⟩ := List.append_inj header length
  -- The data and the time are told apart by the shape of the time.
  rw [← utf8_append, ← utf8_append] at body
  have text := congrArg String.toList (utf8_injective body)
  rw [String.toList_append, String.toList_append] at text
  obtain ⟨shape, listed, fits⟩ := format.form b.timestamp year
  obtain ⟨shape', listed', fits'⟩ := format.form c.timestamp year'
  obtain ⟨data, time⟩ := fits.suffix_unique text fits' (utcShapes_clash shape listed shape' listed')
  have sameIndex := toLeBytes_injective index
  have samePrevious := utf8_injective previous
  have sameData := String.toList_inj.mp data
  have sameTime := format.injective _ _ year year' (String.toList_inj.mp time)
  have sameNonce := toLeBytes_injective nonce
  cases b
  cases c
  rw [HashLink.mk.injEq]
  exact ⟨sameIndex, hash, samePrevious, sameData, sameTime, sameNonce⟩

theorem length_utf8_previousHash {p : String} {blocks : List HashLink}
    (start : (utf8 p).length = 64)
    (linked : (scheme (.ofSha256 sha256 toRfc3339)).Linked p blocks)
    (sealedAll : ∀ b ∈ blocks, (scheme (.ofSha256 sha256 toRfc3339)).Sealed b) :
    ∀ b ∈ blocks, (utf8 b.previousHash).length = 64 := by
  have digest : ∀ b ∈ blocks, (utf8 b.hash).length = 64 := by
    intro b member
    have whole : HexText.encode (sha256 (b.preimage toRfc3339)).toList = b.hash := sealedAll b member
    rw [← whole, HexText.length_utf8_encode, Vector.length_toList]
  exact Scheme.previous_of_linked (Q := fun hash => (utf8 hash).length = 64) linked start digest

-- Over any length, since Lean would write out 64 zeros.
theorem toList_replicate (n : Nat) : (String.ofList (List.replicate n '0')).toList.length = n ∧
    ∀ c ∈ (String.ofList (List.replicate n '0')).toList, c = '0' := by
  rw [String.toList_ofList]
  exact ⟨List.length_replicate, fun _ => List.eq_of_mem_replicate⟩

theorem eq_of_mem_zeros {c : Char} (member : c ∈ zeros.toList) : c = '0' :=
  (toList_replicate 64).2 c member

theorem utf8Size_of_mem_zeros {c : Char} (member : c ∈ zeros.toList) : c.utf8Size = 1 := by
  rw [eq_of_mem_zeros member]
  rfl

theorem length_zeros : zeros.toList.length = 64 := (toList_replicate 64).1

theorem length_utf8_zeros : (utf8 zeros).length = 64 := by
  rw [length_utf8_of_ascii fun c => utf8Size_of_mem_zeros, length_zeros]

end

/-- Two verified chains of one length and one last hash are the same, or SHA-256 has one value on
two of the byte strings that they hash. -/
theorem tampering_needs_collision (sha256 : List UInt8 → Vector UInt8 32)
    (toRfc3339 : Timestamp → String) (format : Rfc3339 toRfc3339) (first second : HashChain)
    (length : first.blocks.length = second.blocks.length)
    (valid : (first.verifyChain (.ofSha256 sha256 toRfc3339)).1 = true)
    (valid' : (second.verifyChain (.ofSha256 sha256 toRfc3339)).1 = true)
    (tip : (first.blocks.getLast first.nonempty).hash = (second.blocks.getLast second.nonempty).hash)
    (years : ∀ b ∈ first.blocks ++ second.blocks, FourDigitYear b.timestamp.nanos) :
    first.blocks = second.blocks ∨
      ∃ x ∈ (first.blocks ++ second.blocks).map (preimage toRfc3339),
        ∃ y ∈ (first.blocks ++ second.blocks).map (preimage toRfc3339), x ≠ y ∧ sha256 x = sha256 y := by
  have one := (verifyChain_valid _ first).mp valid
  have two := (verifyChain_valid _ second).mp valid'
  obtain ⟨linked, sealedAll⟩ := Scheme.chained_iff_sealed.mp one
  obtain ⟨linked', sealedAll'⟩ := Scheme.chained_iff_sealed.mp two
  have width := length_utf8_previousHash length_utf8_zeros linked sealedAll
  have width' := length_utf8_previousHash length_utf8_zeros linked' sealedAll'
  have digest : ∀ b : HashLink, (scheme (.ofSha256 sha256 toRfc3339)).digest b.previousHash b =
      (Hashing.ofSha256 sha256 toRfc3339).sha256Hex (b.preimage toRfc3339) := fun _ => rfl
  have tips : (scheme (.ofSha256 sha256 toRfc3339)).tip zeros first.blocks =
      (scheme (.ofSha256 sha256 toRfc3339)).tip zeros second.blocks := by
    rw [Scheme.tip_eq_getLast zeros first.nonempty, Scheme.tip_eq_getLast zeros second.nonempty]
    exact tip
  have outcome := Scheme.Chained.eq_or_collision digest
    (fun b at_b c at_c => preimage_injective format ((width b at_b).trans (width' c at_c).symm)
      (years b (List.mem_append_left _ at_b)) (years c (List.mem_append_right _ at_c)))
    one two length tips
  refine outcome.imp_right ?_
  rintro ⟨b, at_b, c, at_c, differ, collide⟩
  refine ⟨_, List.mem_map_of_mem (List.mem_append_left _ at_b), _,
    List.mem_map_of_mem (List.mem_append_right _ at_c), differ, ?_⟩
  exact Vector.toList_inj.mp (HexText.encode_injective (by simp) collide)

namespace TamperSample

def utcText (t : Timestamp) : String := CivilTime.toRfc3339 t.nanos

theorem utcText_format : Rfc3339 utcText where
  injective s t year year' same := by
    have nanos := CivilTime.toRfc3339_injective year year' same
    cases s
    cases t
    rw [Timestamp.mk.injEq]
    exact nanos
  form _ year := CivilTime.toRfc3339_form year

-- 2024-01-01T00:00:00 and half a second later.
def genesis : HashLink where
  index := 0
  hash := "2d065782734ec498b2fe7550129cf56513a6738b424df97e3962e33e995af93e"
  previousHash := zeros
  data := "GENESIS_BLOCK"
  timestamp := ⟨1704067200000000000⟩
  nonce := 0

def deposit : HashLink where
  index := 1
  hash := "4d816398ed5ccdf66bce8d86bf6ff52c8adf54206a5342ae16c9a8be704d2a4a"
  previousHash := "2d065782734ec498b2fe7550129cf56513a6738b424df97e3962e33e995af93e"
  data := "deposit"
  timestamp := ⟨1704067200500000000⟩
  nonce := 0

def forged : HashLink := { deposit with data := "deposit of nothing" }

-- SHA-256 on the two byte strings that the chain hashes, and a collision with the second of them on all others.
def sha256 (bytes : List UInt8) : Vector UInt8 32 :=
  if bytes = genesis.preimage utcText then
    #v[0x2d, 0x06, 0x57, 0x82, 0x73, 0x4e, 0xc4, 0x98, 0xb2, 0xfe, 0x75, 0x50, 0x12, 0x9c, 0xf5, 0x65,
    0x13, 0xa6, 0x73, 0x8b, 0x42, 0x4d, 0xf9, 0x7e, 0x39, 0x62, 0xe3, 0x3e, 0x99, 0x5a, 0xf9, 0x3e]
  else
    #v[0x4d, 0x81, 0x63, 0x98, 0xed, 0x5c, 0xcd, 0xf6, 0x6b, 0xce, 0x8d, 0x86, 0xbf, 0x6f, 0xf5, 0x2c,
    0x8a, 0xdf, 0x54, 0x20, 0x6a, 0x53, 0x42, 0xae, 0x16, 0xc9, 0xa8, 0xbe, 0x70, 0x4d, 0x2a, 0x4a]

def chain : HashChain where
  blocks := [genesis, deposit]
  nonempty := by simp

def tampered : HashChain where
  blocks := [genesis, forged]
  nonempty := by simp

theorem chain_valid : (chain.verifyChain (.ofSha256 sha256 utcText)).1 = true := by
  decide +kernel

theorem tampered_valid : (tampered.verifyChain (.ofSha256 sha256 utcText)).1 = true := by
  decide +kernel

theorem chain_years : ∀ b ∈ chain.blocks ++ tampered.blocks, FourDigitYear b.timestamp.nanos := by
  simp [chain, tampered, genesis, deposit, forged, FourDigitYear]

end TamperSample

theorem tampering_needs_collision_deposit :
    ∃ x ∈ (TamperSample.chain.blocks ++ TamperSample.tampered.blocks).map (preimage TamperSample.utcText),
      ∃ y ∈ (TamperSample.chain.blocks ++ TamperSample.tampered.blocks).map (preimage TamperSample.utcText),
        x ≠ y ∧ TamperSample.sha256 x = TamperSample.sha256 y :=
  (tampering_needs_collision TamperSample.sha256 TamperSample.utcText TamperSample.utcText_format
    TamperSample.chain TamperSample.tampered rfl TamperSample.chain_valid TamperSample.tampered_valid rfl
    TamperSample.chain_years).resolve_left (by decide)

end BankingLedger
