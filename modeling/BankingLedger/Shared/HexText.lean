import BankingLedger.Shared.ByteText

set_option autoImplicit false

namespace HexText

def digits : Nat → Nat → List Nat
  | 0, _ => []
  | width + 1, n => digits width (n / 16) ++ [n % 16]

def value (ds : List Nat) : Nat := ds.foldl (fun n d => 16 * n + d) 0

theorem value_digits (width n : Nat) : value (digits width n) = n % 16 ^ width := by
  induction width generalizing n with
  | zero => simp [digits, value, Nat.mod_one]
  | succ width ih =>
    have shorter := ih (n / 16)
    simp only [value] at shorter
    rw [digits, value, List.foldl_append, shorter, Nat.pow_succ', Nat.mod_mul]
    simp only [List.foldl_cons, List.foldl_nil]
    omega

theorem digits_lt {width n d : Nat} (member : d ∈ digits width n) : d < 16 := by
  induction width generalizing n with
  | zero => cases member
  | succ width ih =>
    rcases List.mem_append.mp member with before | last
    · exact ih before
    · rw [List.mem_singleton.mp last]
      omega

def ofChar (c : Char) : Nat := if c.isDigit then c.toNat - 48 else c.toNat - 87

theorem ofChar_digitChar : ∀ d < 16, ofChar d.digitChar = d := by decide

def print (width n : Nat) : List Char := (digits width n).map Nat.digitChar

def parse (text : List Char) : Nat := value (text.map ofChar)

theorem parse_print (width n : Nat) : parse (print width n) = n % 16 ^ width := by
  have back : (digits width n).map (ofChar ∘ Nat.digitChar) = digits width n := by
    conv_rhs => rw [← List.map_id (digits width n)]
    apply List.map_congr_left
    intro d member
    exact ofChar_digitChar d (digits_lt member)
  rw [parse, print, List.map_map, back, value_digits]

theorem isAlphanum_of_mem_print {width n : Nat} {c : Char} (member : c ∈ print width n) :
    c.isAlphanum := by
  obtain ⟨d, at_d, rfl⟩ := List.mem_map.mp member
  have all : ∀ d < 16, (Nat.digitChar d).isAlphanum := by decide
  exact all d (digits_lt at_d)

def hyphenate : List Nat → List Char → List Char
  | [], text => text
  | width :: rest, text => text.take width ++ '-' :: hyphenate rest (text.drop width)

theorem filter_hyphenate (widths : List Nat) {text : List Char} (plain : '-' ∉ text) :
    (hyphenate widths text).filter (· ≠ '-') = text := by
  induction widths generalizing text with
  | nil =>
    rw [hyphenate, List.filter_eq_self]
    intro c member
    simpa using fun same : c = '-' => plain (same ▸ member)
  | cons width rest ih =>
    have front : (text.take width).filter (· ≠ '-') = text.take width := by
      rw [List.filter_eq_self]
      intro c member
      simpa using fun same : c = '-' => plain (same ▸ List.mem_of_mem_take member)
    have back : (hyphenate rest (text.drop width)).filter (· ≠ '-') = text.drop width :=
      ih fun member => plain (List.mem_of_mem_drop member)
    rw [hyphenate, List.filter_append, front, List.filter_cons_of_neg (by simp), back,
      List.take_append_drop]

theorem mem_hyphenate {widths : List Nat} {text : List Char} {c : Char}
    (member : c ∈ hyphenate widths text) : c = '-' ∨ c ∈ text := by
  induction widths generalizing text with
  | nil => exact .inr member
  | cons width rest ih =>
    rcases List.mem_append.mp member with front | back
    · exact .inr (List.mem_of_mem_take front)
    · rcases List.mem_cons.mp back with hyphen | later
      · exact .inl hyphen
      · exact (ih later).imp_right List.mem_of_mem_drop

theorem parse_hyphenate_print (widths : List Nat) (width n : Nat) :
    parse ((hyphenate widths (print width n)).filter (· ≠ '-')) = n % 16 ^ width := by
  have plain : '-' ∉ print width n := fun member => absurd (isAlphanum_of_mem_print member) (by decide)
  rw [filter_hyphenate _ plain, parse_print]

theorem mem_hyphenate_print {widths : List Nat} {width n : Nat} {c : Char}
    (member : c ∈ hyphenate widths (print width n)) : c = '-' ∨ c.isAlphanum = true :=
  (mem_hyphenate member).imp_right isAlphanum_of_mem_print

-- 128 bits in five groups, as identifiers are written.
def uuidText (bits : BitVec 128) : String := String.ofList (hyphenate [8, 4, 4, 4] (print 32 bits.toNat))

def ofUuidText (text : String) : BitVec 128 := BitVec.ofNat 128 (parse (text.toList.filter (· ≠ '-')))

theorem ofUuidText_uuidText (bits : BitVec 128) : ofUuidText (uuidText bits) = bits := by
  rw [ofUuidText, uuidText, String.toList_ofList, parse_hyphenate_print,
    Nat.mod_eq_of_lt (by exact bits.isLt), BitVec.ofNat_toNat, BitVec.setWidth_eq]

-- Two lower-case digits a byte.
def encode (bytes : List UInt8) : String := String.ofList (bytes.flatMap fun b => print 2 b.toNat)

theorem length_print (width n : Nat) : (print width n).length = width := by
  rw [print, List.length_map]
  induction width generalizing n with
  | zero => rfl
  | succ width ih => simp [digits, ih]

theorem encode_injective {bytes bytes' : List UInt8} (length : bytes.length = bytes'.length)
    (same : encode bytes = encode bytes') : bytes = bytes' := by
  have text : bytes.flatMap (fun b => print 2 b.toNat) = bytes'.flatMap (fun b => print 2 b.toNat) := by
    simpa [encode] using congrArg String.toList same
  clear same
  induction bytes generalizing bytes' with
  | nil => exact (List.eq_nil_of_length_eq_zero length.symm).symm
  | cons b rest ih =>
    obtain ⟨b', rest', rfl⟩ := List.exists_cons_of_length_eq_add_one length.symm
    rw [List.flatMap_cons, List.flatMap_cons] at text
    obtain ⟨first, later⟩ := List.append_inj text (by rw [length_print, length_print])
    have number := congrArg parse first
    have small := b.toNat_lt
    have small' := b'.toNat_lt
    rw [parse_print, parse_print, Nat.mod_eq_of_lt (by omega), Nat.mod_eq_of_lt (by omega)] at number
    rw [UInt8.toNat_inj.mp number, ih (Nat.succ.inj length) later]

theorem length_encode (bytes : List UInt8) : (encode bytes).toList.length = 2 * bytes.length := by
  rw [encode, String.toList_ofList]
  induction bytes with
  | nil => rfl
  | cons b rest ih =>
    rw [List.flatMap_cons, List.length_append, length_print, ih, List.length_cons]
    omega

theorem digit_of_mem_encode {bytes : List UInt8} {c : Char} (member : c ∈ (encode bytes).toList) :
    ∃ d < 16, c = Nat.digitChar d := by
  rw [encode, String.toList_ofList] at member
  obtain ⟨b, -, inside⟩ := List.mem_flatMap.mp member
  obtain ⟨d, at_d, rfl⟩ := List.mem_map.mp inside
  exact ⟨d, digits_lt at_d, rfl⟩

theorem utf8Size_of_mem_encode {bytes : List UInt8} {c : Char} (member : c ∈ (encode bytes).toList) :
    c.utf8Size = 1 := by
  have ascii : ∀ d < 16, (Nat.digitChar d).utf8Size = 1 := by decide
  obtain ⟨d, at_d, rfl⟩ := digit_of_mem_encode member
  exact ascii d at_d

theorem length_utf8_encode (bytes : List UInt8) :
    (ByteText.utf8 (encode bytes)).length = 2 * bytes.length := by
  rw [ByteText.length_utf8_of_ascii fun c => utf8Size_of_mem_encode, length_encode]

end HexText
