import BankingLedger.Shared.UtcTime
import BankingLedger.Log.TamperEvidence

set_option autoImplicit false

namespace BankingLedger

open HashLinked HashLink ByteText UtcTime

-- What `compute_hash` feeds to the hasher, over any type of times.
def hashedBytes {Time : Type} (toRfc3339 : Time → String) (index : UInt64) (previousHash data : String)
    (timestamp : Time) (nonce : UInt64) : List UInt8 :=
  utf8 previousHash ++ toLeBytes index ++ utf8 data ++ utf8 (toRfc3339 timestamp) ++ toLeBytes nonce

theorem computeHash_eq (hashing : Hashing) (index : UInt64) (previousHash data : String)
    (timestamp : Timestamp) (nonce : UInt64) :
    computeHash hashing index previousHash data timestamp nonce =
      hashing.sha256Hex (hashedBytes hashing.toRfc3339 index previousHash data timestamp nonce) := rfl

@[ext] structure HashInput where
  index : UInt64
  previousHash : String
  data : String
  timestamp : UtcTime
  nonce : UInt64

namespace HashInput

def bytes (toRfc3339 : UtcTime → String) (b : HashInput) : List UInt8 :=
  hashedBytes toRfc3339 b.index b.previousHash b.data b.timestamp b.nonce

/-- The year of `far` has a sign, and what it has in front of its last four digits is the end of the data of
`near`. -/
structure MovesYear (far near : HashInput) : Prop where
  index : far.index = near.index
  previousHash : far.previousHash = near.previousHash
  nonce : far.nonce = near.nonce
  moved : MovedYear far.data.toList far.timestamp near.data.toList near.timestamp

-- The same but for a leap second inside of a minute, which is written as the second after it.
structure Leaps (b c : HashInput) : Prop where
  index : b.index = c.index
  previousHash : b.previousHash = c.previousHash
  nonce : b.nonce = c.nonce
  data : b.data = c.data
  day : b.timestamp.day = c.timestamp.day
  leap : LeapsTo b.timestamp c.timestamp

section Readings

variable {toRfc3339 : UtcTime → String} {b c : HashInput}

theorem bytes_split (prints : ∀ t, toRfc3339 t = t.toRfc3339)
    (length : b.previousHash.toList.length = c.previousHash.toList.length) :
    b.bytes toRfc3339 = c.bytes toRfc3339 ↔
      b.index = c.index ∧ b.previousHash = c.previousHash ∧ b.nonce = c.nonce ∧
        b.data.toList ++ b.timestamp.text = c.data.toList ++ c.timestamp.text := by
  have body (d : HashInput) : utf8 d.data ++ utf8 (toRfc3339 d.timestamp) =
      utf8 (String.ofList (d.data.toList ++ d.timestamp.text)) := by
    rw [← utf8_append, prints, UtcTime.toRfc3339, String.ofList_append, String.ofList_toList]
  have whole (d : HashInput) : d.bytes toRfc3339 = utf8 d.previousHash ++ (toLeBytes d.index ++
      (utf8 (String.ofList (d.data.toList ++ d.timestamp.text)) ++ toLeBytes d.nonce)) := by
    rw [← body]
    simp only [bytes, hashedBytes, List.append_assoc]
  rw [whole, whole]
  constructor
  case mp =>
    intro same
    obtain ⟨previous, rest⟩ := utf8_append_inj length same
    obtain ⟨index, rest⟩ := List.append_inj rest (by rw [length_toLeBytes, length_toLeBytes])
    obtain ⟨text, nonce⟩ := List.append_inj' rest (by rw [length_toLeBytes, length_toLeBytes])
    exact ⟨toLeBytes_injective index, previous, toLeBytes_injective nonce,
      String.ofList_injective (utf8_injective text)⟩
  case mpr =>
    intro same
    obtain ⟨index, previous, nonce, text⟩ := same
    rw [index, previous, nonce, text]

-- The inputs that are hashed from the same bytes.
theorem bytes_eq_iff (prints : ∀ t, toRfc3339 t = t.toRfc3339)
    (length : b.previousHash.toList.length = c.previousHash.toList.length) :
    b.bytes toRfc3339 = c.bytes toRfc3339 ↔
      b = c ∨ MovesYear b c ∨ MovesYear c b ∨ Leaps b c ∨ Leaps c b := by
  rw [bytes_split prints length, append_text_iff]
  constructor
  case mp =>
    rintro ⟨index, previous, nonce, ⟨data, day, clock⟩ | moved | moved⟩
    next =>
      have data := String.toList_inj.mp data
      rcases clock with same | leap | leap
      next =>
        have time := UtcTime.ext day same.1 same.2
        exact .inl (HashInput.ext index previous data time nonce)
      next => exact .inr (.inr (.inr (.inl ⟨index, previous, nonce, data, day, leap⟩)))
      next =>
        exact .inr (.inr (.inr (.inr ⟨index.symm, previous.symm, nonce.symm, data.symm, day.symm, leap⟩)))
    next => exact .inr (.inl ⟨index, previous, nonce, moved⟩)
    next => exact .inr (.inr (.inl ⟨index.symm, previous.symm, nonce.symm, moved⟩))
  case mpr =>
    rintro (rfl | moves | moves | leaps | leaps)
    next => exact ⟨rfl, rfl, rfl, .inl ⟨rfl, rfl, .inl ⟨rfl, rfl⟩⟩⟩
    next => exact ⟨moves.index, moves.previousHash, moves.nonce, .inr (.inl moves.moved)⟩
    next =>
      exact ⟨moves.index.symm, moves.previousHash.symm, moves.nonce.symm, .inr (.inr moves.moved)⟩
    next =>
      exact ⟨leaps.index, leaps.previousHash, leaps.nonce,
        .inl ⟨congrArg String.toList leaps.data, leaps.day, .inr (.inl leaps.leap)⟩⟩
    next =>
      exact ⟨leaps.index.symm, leaps.previousHash.symm, leaps.nonce.symm,
        .inl ⟨congrArg String.toList leaps.data.symm, leaps.day.symm, .inr (.inr leaps.leap)⟩⟩

theorem MovesYear.ne (moves : MovesYear b c) : b ≠ c := by
  rintro rfl
  exact moves.moved.lead.outside moves.moved.lead.four

theorem Leaps.ne (leaps : Leaps b c) : b ≠ c := by
  rintro rfl
  have second := leaps.leap.second
  omega

end Readings

end HashInput

open HashInput

/-- The bytes determine what is hashed exactly if the year does not move into the data, and there is no leap second
inside of a minute that the other input has as the second after it. -/
theorem preimage_determines_iff (toRfc3339 : UtcTime → String) (prints : ∀ t, toRfc3339 t = t.toRfc3339)
    (b c : HashInput) (long : b.previousHash.toList.length = 64)
    (long' : c.previousHash.toList.length = 64) :
    (b.bytes toRfc3339 = c.bytes toRfc3339 → b = c) ↔
      ¬(MovesYear b c ∨ MovesYear c b ∨ Leaps b c ∨ Leaps c b) := by
  rw [bytes_eq_iff prints (long.trans long'.symm)]
  constructor
  case mp =>
    rintro determines (moves | moves | leaps | leaps)
    next => exact moves.ne (determines (.inr (.inl moves)))
    next => exact moves.ne (determines (.inr (.inr (.inl moves)))).symm
    next => exact leaps.ne (determines (.inr (.inr (.inr (.inl leaps)))))
    next => exact leaps.ne (determines (.inr (.inr (.inr (.inr leaps))))).symm
  case mpr =>
    intro alone readings
    rcases readings with same | other
    next => exact same
    next => exact absurd other alone

namespace PreimageSample

-- 2345-06-07T08:09:10, and ten thousand years later.
def near : UtcTime where
  day := 137123
  second := 29350
  nano := 0
  second_lt := by decide
  nano_lt := by decide
  first_year := by decide
  last_year := by decide

def far : UtcTime where
  day := 3789548
  second := 29350
  nano := 0
  second_lt := by decide
  nano_lt := by decide
  first_year := by decide
  last_year := by decide

def first : HashInput where
  index := 1
  previousHash := zeros
  data := "Transfer: 5"
  timestamp := far
  nonce := 0

def second : HashInput := { first with data := "Transfer: 5+1", timestamp := near }

end PreimageSample

theorem preimage_ambiguous :
    PreimageSample.first.previousHash.toList.length = 64 ∧
      PreimageSample.second.previousHash.toList.length = 64 ∧
      PreimageSample.first.bytes UtcTime.toRfc3339 = PreimageSample.second.bytes UtcTime.toRfc3339 ∧
      PreimageSample.first ≠ PreimageSample.second := by
  refine ⟨length_zeros, length_zeros, by decide +kernel, ?_⟩
  intro same
  have data := congrArg HashInput.data same
  exact absurd data (by decide)

theorem preimage_determines_iff_moved :
    (PreimageSample.first.bytes UtcTime.toRfc3339 = PreimageSample.second.bytes UtcTime.toRfc3339 →
        PreimageSample.first = PreimageSample.second) ↔
      ¬(MovesYear PreimageSample.first PreimageSample.second ∨
        MovesYear PreimageSample.second PreimageSample.first ∨
        Leaps PreimageSample.first PreimageSample.second ∨
        Leaps PreimageSample.second PreimageSample.first) :=
  preimage_determines_iff UtcTime.toRfc3339 (fun _ => rfl) PreimageSample.first PreimageSample.second
    length_zeros length_zeros

end BankingLedger
