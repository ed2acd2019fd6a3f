import BankingLedger.Domain.Journal
import BankingLedger.Shared.ByteText
import BankingLedger.Shared.Delimited
import BankingLedger.Shared.HexText

set_option autoImplicit false

namespace BankingLedger.Signing

open ByteText Delimited

/-- How the fields that are not texts are printed, which comes from libraries. -/
structure Formats (Decimal : Type) where
  decimal : Decimal → String
  toRfc3339 : Timestamp → String
  uuid : Uuid → String

/-- SHA-256 and Ed25519; `fromBytes` is given 32 bytes, and `verify` a signature of 64. -/
structure Crypto (VerifyingKey : Type) where
  sha256 : List UInt8 → Vector UInt8 32
  fromBytes : List UInt8 → Option VerifyingKey
  verify : VerifyingKey → List UInt8 → List UInt8 → Bool

structure Transaction (Decimal : Type) where
  sender : String
  recipient : String
  amount : Decimal
  timestamp : Timestamp
  correlationId : Uuid
  hash : List UInt8
  signature : Option (List UInt8)
deriving DecidableEq

inductive SigningError where
  | missingHash
  | invalidPublicKey
  | invalidSignature
deriving DecidableEq, Repr

section Model

variable {Decimal VerifyingKey : Type} (formats : Formats Decimal) (crypto : Crypto VerifyingKey)

-- `b'|'`
def bar : UInt8 := 124

def Transaction.canonicalBytes (tx : Transaction Decimal) : List UInt8 :=
  utf8 tx.sender ++ [bar] ++ utf8 tx.recipient ++ [bar] ++ utf8 (formats.decimal tx.amount) ++ [bar] ++
    utf8 (formats.toRfc3339 tx.timestamp) ++ [bar] ++ utf8 (formats.uuid tx.correlationId)

def Transaction.computeHash (tx : Transaction Decimal) : List UInt8 :=
  (crypto.sha256 (tx.canonicalBytes formats)).toList

-- `timestamp` and `correlationId` are the values `Utc::now` and `Uuid::now_v7` return.
def Transaction.new (timestamp : Timestamp) (correlationId : Uuid) (sender recipient : String)
    (amount : Decimal) : Transaction Decimal :=
  let tx : Transaction Decimal :=
    { sender, recipient, amount, timestamp, correlationId, hash := [], signature := none }
  { tx with hash := tx.computeHash formats crypto }

def verify (tx : Transaction Decimal) (publicKeyBytes signatureBytes : List UInt8) :
    Except SigningError Bool :=
  if tx.hash.isEmpty then .error .missingHash
  else if publicKeyBytes.length ≠ 32 then .error .invalidPublicKey
  else
    match crypto.fromBytes publicKeyBytes with
    | none => .error .invalidPublicKey
    | some key =>
      if signatureBytes.length ≠ 64 then .error .invalidSignature
      else .ok (crypto.verify key tx.hash signatureBytes)

def verifyTamperDetection (tx : Transaction Decimal) (publicKeyBytes signatureBytes : List UInt8) :
    Bool :=
  if tx.computeHash formats crypto ≠ tx.hash then false
  else
    match verify crypto tx publicKeyBytes signatureBytes with
    | .ok valid => valid
    | .error _ => false

end Model

structure FieldText {A : Type} (text : A → String) : Prop where
  injective : Function.Injective text
  plain : ∀ a, '|' ∉ (text a).toList

structure Formats.Fields {Decimal : Type} (formats : Formats Decimal) : Prop where
  decimal : FieldText formats.decimal
  timestamp : FieldText formats.toRfc3339
  correlationId : FieldText formats.uuid

section Canonical

variable {Decimal : Type} {formats : Formats Decimal} {tx tx' : Transaction Decimal}

theorem canonicalBytes_eq : tx.canonicalBytes formats = utf8 (String.ofList
    ((((tx.sender.toList ++ '|' :: tx.recipient.toList) ++ '|' :: (formats.decimal tx.amount).toList) ++
      '|' :: (formats.toRfc3339 tx.timestamp).toList) ++ '|' :: (formats.uuid tx.correlationId).toList)) := by
  have bars : utf8 (String.ofList ['|']) = [bar] := by decide
  have split (xs ys : List Char) : utf8 (String.ofList (xs ++ '|' :: ys)) =
      utf8 (String.ofList xs) ++ [bar] ++ utf8 (String.ofList ys) := by
    rw [← List.singleton_append, String.ofList_append, String.ofList_append, utf8_append, utf8_append,
      bars, List.append_assoc]
  simp only [split, String.ofList_toList, Transaction.canonicalBytes]

def SameFields (tx tx' : Transaction Decimal) : Prop :=
  tx.sender = tx'.sender ∧ tx.recipient = tx'.recipient ∧ tx.amount = tx'.amount ∧
    tx.timestamp = tx'.timestamp ∧ tx.correlationId = tx'.correlationId

/-- Text next to the bar between sender and recipient belongs to the one in one transaction and to
the other in the other. -/
def MovedAcrossBar (tx tx' : Transaction Decimal) : Prop :=
  Shifts '|' tx.sender.toList tx.recipient.toList tx'.sender.toList tx'.recipient.toList ∨
    Shifts '|' tx'.sender.toList tx'.recipient.toList tx.sender.toList tx.recipient.toList

theorem canonicalBytes_eq_iff (fields : formats.Fields) :
    tx.canonicalBytes formats = tx'.canonicalBytes formats ↔
      (tx.amount = tx'.amount ∧ tx.timestamp = tx'.timestamp ∧ tx.correlationId = tx'.correlationId) ∧
        ((tx.sender = tx'.sender ∧ tx.recipient = tx'.recipient) ∨ MovedAcrossBar tx tx') := by
  have text {s t : List Char} : utf8 (String.ofList s) = utf8 (String.ofList t) ↔ s = t :=
    ⟨fun same => by simpa using congrArg String.toList (utf8_injective same), fun same => by rw [same]⟩
  have printed {A : Type} {print : A → String} (field : FieldText print) {a b : A} :
      (print a).toList = (print b).toList ↔ a = b := by
    rw [String.toList_inj, field.injective.eq_iff]
  rw [canonicalBytes_eq, canonicalBytes_eq, text,
    append_cons_inj_of_plain_right (fields.correlationId.plain _) (fields.correlationId.plain _),
    append_cons_inj_of_plain_right (fields.timestamp.plain _) (fields.timestamp.plain _),
    append_cons_inj_of_plain_right (fields.decimal.plain _) (fields.decimal.plain _),
    append_cons_eq_iff, printed fields.correlationId, printed fields.timestamp, printed fields.decimal,
    String.toList_inj, String.toList_inj, MovedAcrossBar]
  tauto

end Canonical

section Detection

variable {Decimal VerifyingKey : Type} {formats : Formats Decimal} {crypto : Crypto VerifyingKey}

/-- `tx'` is rejected, or a collision between the canonical bytes of the two has been found. -/
def RejectedOrCollision (formats : Formats Decimal) (crypto : Crypto VerifyingKey)
    (tx tx' : Transaction Decimal) (publicKeyBytes signatureBytes : List UInt8) : Prop :=
  verifyTamperDetection formats crypto tx' publicKeyBytes signatureBytes = false ∨
    tx.canonicalBytes formats ≠ tx'.canonicalBytes formats ∧
      crypto.sha256 (tx.canonicalBytes formats) = crypto.sha256 (tx'.canonicalBytes formats)

-- With a signature that verifies, only the hash is left to tell.
theorem verifyTamperDetection_of_signed {tx : Transaction Decimal} {publicKeyBytes signatureBytes : List UInt8}
    (signed : verify crypto tx publicKeyBytes signatureBytes = .ok true) :
    verifyTamperDetection formats crypto tx publicKeyBytes signatureBytes = true ↔
      tx.computeHash formats crypto = tx.hash := by
  rw [verifyTamperDetection, signed]
  split <;> simp_all

/-- A transaction that carries the hash of another with other fields, and a signature for it, is
told from it exactly unless text has only been moved between sender and recipient. -/
theorem re_read_detected_iff (fields : formats.Fields) (tx tx' : Transaction Decimal)
    (publicKeyBytes signatureBytes : List UInt8) (differ : ¬ SameFields tx tx')
    (carried : tx'.hash = tx.computeHash formats crypto)
    (signed : verify crypto tx' publicKeyBytes signatureBytes = .ok true) :
    RejectedOrCollision formats crypto tx tx' publicKeyBytes signatureBytes ↔
      (tx.amount ≠ tx'.amount ∨ tx.timestamp ≠ tx'.timestamp ∨ tx.correlationId ≠ tx'.correlationId) ∨
        ¬ MovedAcrossBar tx tx' := by
  have hashes : tx'.computeHash formats crypto = tx'.hash ↔
      crypto.sha256 (tx.canonicalBytes formats) = crypto.sha256 (tx'.canonicalBytes formats) := by
    rw [carried, Transaction.computeHash, Transaction.computeHash, Vector.toList_inj, eq_comm]
  have bytes : RejectedOrCollision formats crypto tx tx' publicKeyBytes signatureBytes ↔
      tx.canonicalBytes formats ≠ tx'.canonicalBytes formats := by
    rw [RejectedOrCollision, ← Bool.not_eq_true, verifyTamperDetection_of_signed signed, hashes]
    constructor
    · rintro (apart | ⟨other, -⟩)
      · exact fun same => apart (by rw [same])
      · exact other
    · intro other
      by_cases same : crypto.sha256 (tx.canonicalBytes formats) = crypto.sha256 (tx'.canonicalBytes formats)
      · exact .inr ⟨other, same⟩
      · exact .inl same
  rw [bytes, Ne, canonicalBytes_eq_iff fields]
  constructor
  · intro apart
    by_cases kept : tx.amount = tx'.amount ∧ tx.timestamp = tx'.timestamp ∧
        tx.correlationId = tx'.correlationId
    · exact .inr fun moved => apart ⟨kept, .inr moved⟩
    · exact .inl (by simpa only [not_and_or] using kept)
  · rintro (changed | unmoved) ⟨⟨amount, timestamp, correlationId⟩, pair⟩
    · rcases changed with other | other | other
      · exact other amount
      · exact other timestamp
      · exact other correlationId
    · rcases pair with ⟨sender, recipient⟩ | moved
      · exact differ ⟨sender, recipient, amount, timestamp, correlationId⟩
      · exact unmoved moved

end Detection

namespace Sample

-- `rust_decimal` on whole amounts, `chrono` on the start of 2026, and `uuid`.
def formats : Formats Nat where
  decimal amount := String.ofList (Nat.toDigits 10 amount)
  toRfc3339 t :=
    if t.nanos = 1767225600000000000 then "2026-01-01T00:00:00+00:00"
    else String.ofList (intText t.nanos)
  uuid id := HexText.uuidText id.bits

theorem decimal_field : FieldText formats.decimal where
  injective m n same := by
    have digits := congrArg String.toList same
    simp only [formats, String.toList_ofList] at digits
    rw [← Nat.ofDigitChars_ten_toDigits (n := m), digits, Nat.ofDigitChars_ten_toDigits]
  plain n member := by
    simp only [formats, String.toList_ofList] at member
    exact absurd (Nat.isDigit_of_mem_toDigits (by decide) (by decide) member) (by decide)

theorem timestamp_field : FieldText formats.toRfc3339 where
  injective s t same := by
    have other (n : Int) : String.ofList (intText n) ≠ "2026-01-01T00:00:00+00:00" := by
      intro clash
      have first := congrArg (fun text : String => text.toList.head?) clash
      simp only [intText, String.toList_ofList, List.head?_cons] at first
      split at first <;> simp at first
    have nanos : s.nanos = t.nanos := by
      simp only [formats] at same
      split at same <;> split at same
      · omega
      · exact absurd same.symm (other _)
      · exact absurd same (other _)
      · exact intText_injective (by simpa using congrArg String.toList same)
    cases s
    cases t
    exact congrArg Timestamp.mk nanos
  plain t member := by
    simp only [formats] at member
    split at member
    · exact absurd member (by decide)
    · rw [String.toList_ofList] at member
      rcases mem_intText member with plus | minus | digit
      · exact absurd plus (by decide)
      · exact absurd minus (by decide)
      · exact absurd digit (by decide)

theorem uuid_field : FieldText formats.uuid where
  injective a b same := by
    have bits : a.bits = b.bits := by
      rw [← HexText.ofUuidText_uuidText a.bits, ← HexText.ofUuidText_uuidText b.bits]
      exact congrArg HexText.ofUuidText same
    cases a
    cases b
    exact congrArg Uuid.mk bits
  plain id member := by
    simp only [formats, HexText.uuidText, String.toList_ofList] at member
    rcases HexText.mem_hyphenate_print member with hyphen | digit
    · exact absurd hyphen (by decide)
    · exact absurd digit (by decide)

theorem fields : formats.Fields := ⟨decimal_field, timestamp_field, uuid_field⟩

def publicKey : List UInt8 :=
  [0xd7, 0x5a, 0x98, 0x01, 0x82, 0xb1, 0x0a, 0xb7, 0xd5, 0x4b, 0xfe, 0xd3, 0xc9, 0x64, 0x07, 0x3a,
    0x0e, 0xe1, 0x72, 0xf3, 0xda, 0xa6, 0x23, 0x25, 0xaf, 0x02, 0x1a, 0x68, 0xf7, 0x07, 0x51, 0x1a]

def digest : Vector UInt8 32 :=
  #v[0x42, 0x0e, 0x70, 0x11, 0x18, 0x38, 0x09, 0x57, 0xf2, 0x0b, 0xc5, 0x88, 0xf8, 0xab, 0x03, 0xc4,
    0x25, 0x3b, 0xea, 0xb0, 0x92, 0x95, 0xc6, 0x9d, 0xc2, 0x3b, 0x61, 0xe1, 0x13, 0x68, 0x0d, 0x1b]

def signature : List UInt8 :=
  [0xc6, 0x2c, 0x82, 0x4d, 0xe3, 0x53, 0xde, 0xd7, 0x5a, 0x16, 0xc3, 0x15, 0x1a, 0x8d, 0xb0, 0x36,
    0xb6, 0x50, 0x17, 0x8a, 0xb0, 0xc5, 0xb4, 0xf4, 0x28, 0xe7, 0xf1, 0xbd, 0x4b, 0x08, 0x17, 0xcf,
    0x3c, 0x77, 0xa6, 0x72, 0x60, 0x4f, 0x7a, 0xcc, 0x52, 0x76, 0xcd, 0x14, 0x5d, 0x89, 0x6c, 0xf1,
    0x6d, 0xd0, 0xfc, 0x1e, 0xa7, 0x6c, 0x34, 0x4c, 0x95, 0xbe, 0x34, 0xb6, 0x0e, 0xbb, 0x20, 0x06]

-- SHA-256 on the bytes that are hashed below and Ed25519 on their digest.
def crypto : Crypto (List UInt8) where
  sha256 bytes :=
    if bytes = utf8 "a|b|c|100|2026-01-01T00:00:00+00:00|00000000-0000-7000-8000-00000000000a" then digest
    else Vector.replicate 32 0
  fromBytes bytes := if bytes = publicKey then some bytes else none
  verify key message signed := key = publicKey ∧ message = digest.toList ∧ signed = signature

def original : Transaction Nat :=
  .new formats crypto ⟨1767225600000000000⟩ ⟨0x7000800000000000000a⟩ "a|b" "c" 100

def altered : Transaction Nat := { original with sender := "a", recipient := "b|c" }

theorem differ : ¬ SameFields original altered := by
  simp [SameFields, altered, original, Transaction.new]

end Sample

/-- `b` has gone from the sender to the recipient, and the signature still stands. -/
theorem moved_text_accepted :
    ¬ SameFields Sample.original Sample.altered ∧
      verifyTamperDetection Sample.formats Sample.crypto Sample.altered Sample.publicKey
        Sample.signature = true ∧
      ¬ RejectedOrCollision Sample.formats Sample.crypto Sample.original Sample.altered
        Sample.publicKey Sample.signature := by
  have accepted : verifyTamperDetection Sample.formats Sample.crypto Sample.altered Sample.publicKey
      Sample.signature = true := by decide +kernel
  have bytes : Sample.original.canonicalBytes Sample.formats = Sample.altered.canonicalBytes Sample.formats := by
    decide +kernel
  exact ⟨Sample.differ, accepted, by simp [RejectedOrCollision, accepted, bytes]⟩

theorem re_read_detected_iff_moved :
    RejectedOrCollision Sample.formats Sample.crypto Sample.original Sample.altered Sample.publicKey
        Sample.signature ↔
      (Sample.original.amount ≠ Sample.altered.amount ∨
        Sample.original.timestamp ≠ Sample.altered.timestamp ∨
        Sample.original.correlationId ≠ Sample.altered.correlationId) ∨
        ¬ MovedAcrossBar Sample.original Sample.altered :=
  re_read_detected_iff Sample.fields Sample.original Sample.altered Sample.publicKey Sample.signature
    Sample.differ (by decide +kernel) (by decide +kernel)

end BankingLedger.Signing
