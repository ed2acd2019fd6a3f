import Mathlib.Algebra.GroupWithZero.Nat
import Mathlib.Tactic.Common

set_option autoImplicit false

namespace ByteText

def utf8 (s : String) : List UInt8 := s.toUTF8.data.toList

theorem utf8_append (s t : String) : utf8 (s ++ t) = utf8 s ++ utf8 t := by
  simp [utf8, String.toByteArray_append]

theorem utf8_injective {s t : String} (same : utf8 s = utf8 t) : s = t := by
  apply String.toByteArray_inj.mp
  apply ByteArray.ext
  simpa [utf8] using same

theorem utf8_ofList (text : List Char) : utf8 (String.ofList text) = text.flatMap String.utf8EncodeChar := by
  simp [utf8, List.utf8Encode]

def width (text : List Char) : Nat := (text.map Char.utf8Size).sum

theorem length_utf8 (s : String) : (utf8 s).length = width s.toList := by
  rw [← String.ofList_toList (s := s), utf8_ofList, String.toList_ofList]
  induction s.toList with
  | nil => rfl
  | cons c rest ih => simp [ih, width]

theorem width_of_ascii {text : List Char} (ascii : ∀ c ∈ text, c.utf8Size = 1) : width text = text.length := by
  induction text with
  | nil => rfl
  | cons c rest ih =>
    rw [List.forall_mem_cons] at ascii
    have later := ih ascii.2
    simp only [width, List.map_cons, List.sum_cons, List.length_cons] at later ⊢
    omega

theorem length_utf8_of_ascii {s : String} (ascii : ∀ c ∈ s.toList, c.utf8Size = 1) :
    (utf8 s).length = s.toList.length := by
  rw [length_utf8, width_of_ascii ascii]

-- No character's bytes start those of another one.
theorem encodeChar_append_inj {c d : Char} {x y : List UInt8}
    (same : String.utf8EncodeChar c ++ x = String.utf8EncodeChar d ++ y) : c = d ∧ x = y := by
  have read (e : Char) (z : List UInt8) :
      ByteArray.utf8DecodeChar? (String.utf8EncodeChar e ++ z).toByteArray 0 = some e := by
    rw [List.toByteArray_append]
    exact ByteArray.utf8DecodeChar?_utf8EncodeChar_append
  have first : some c = some d := by rw [← read c x, same, read]
  obtain rfl := Option.some.inj first
  exact ⟨rfl, List.append_cancel_left same⟩

-- Two texts of as many characters are told from the bytes behind them.
theorem utf8_append_inj {s t : String} {x y : List UInt8} (length : s.toList.length = t.toList.length)
    (same : utf8 s ++ x = utf8 t ++ y) : s = t ∧ x = y := by
  rw [← String.ofList_toList (s := s), ← String.ofList_toList (s := t), utf8_ofList, utf8_ofList] at same
  rw [← String.toList_inj]
  revert length same
  generalize s.toList = text
  generalize t.toList = text'
  intro length same
  induction text generalizing text' with
  | nil => simpa [List.eq_nil_of_length_eq_zero length.symm] using same
  | cons c rest ih =>
    obtain ⟨d, rest', rfl⟩ := List.exists_cons_of_length_eq_add_one length.symm
    rw [List.flatMap_cons, List.flatMap_cons, List.append_assoc, List.append_assoc] at same
    obtain ⟨rfl, later⟩ := encodeChar_append_inj same
    obtain ⟨rfl, back⟩ := ih rest' (Nat.succ.inj length) later
    exact ⟨rfl, back⟩

-- A byte below 128 is a character of its own, and no part of another.
theorem encodeChar_of_ascii {c : Char} {b : UInt8} (member : b ∈ String.utf8EncodeChar c)
    (ascii : b.toNat < 128) : String.utf8EncodeChar c = [b] ∧ c.toNat = b.toNat := by
  have high (n : Nat) (low : 128 ≤ n) (top : n < 256) : b ≠ UInt8.ofNat n := by
    rintro rfl
    rw [UInt8.toNat_ofNat'] at ascii
    omega
  revert member
  fun_cases String.utf8EncodeChar c with
  | case1 v single =>
    intro member
    obtain rfl := List.mem_singleton.mp member
    refine ⟨rfl, ?_⟩
    rw [UInt8.toNat_ofNat']
    exact (Nat.mod_eq_of_lt (show c.val.toNat < 256 by omega)).symm
  | case2 v _ _ =>
    simp only [List.mem_cons, List.not_mem_nil, or_false]
    rintro (lead | tail)
    · exact absurd lead (high _ (by omega) (by omega))
    · exact absurd tail (high _ (by omega) (by omega))
  | case3 v _ _ _ =>
    simp only [List.mem_cons, List.not_mem_nil, or_false]
    rintro (lead | middle | tail)
    · exact absurd lead (high _ (by omega) (by omega))
    · exact absurd middle (high _ (by omega) (by omega))
    · exact absurd tail (high _ (by omega) (by omega))
  | case4 v _ _ _ =>
    simp only [List.mem_cons, List.not_mem_nil, or_false]
    rintro (lead | second | third | tail)
    · exact absurd lead (high _ (by omega) (by omega))
    · exact absurd second (high _ (by omega) (by omega))
    · exact absurd third (high _ (by omega) (by omega))
    · exact absurd tail (high _ (by omega) (by omega))

-- An ASCII byte splits the text around a character.
theorem exists_split_of_ascii {b : UInt8} (ascii : b.toNat < 128) {text : List Char} {front back : List UInt8}
    (split : text.flatMap String.utf8EncodeChar = front ++ b :: back) :
    ∃ left c right, text = left ++ c :: right ∧ c.toNat = b.toNat ∧
      front = left.flatMap String.utf8EncodeChar ∧ back = right.flatMap String.utf8EncodeChar := by
  induction text generalizing front with
  | nil => simp at split
  | cons d rest ih =>
    rw [List.flatMap_cons] at split
    rcases List.append_eq_append_iff.mp split with ⟨more, rfl, later⟩ | ⟨more, here, later⟩
    · obtain ⟨left, c, right, rfl, same, rfl, rfl⟩ := ih later
      exact ⟨d :: left, c, right, rfl, same, by rw [List.flatMap_cons], rfl⟩
    · cases more with
      | nil =>
        obtain ⟨left, c, right, rfl, same, front_eq, rfl⟩ := @ih [] (by simpa using later.symm)
        refine ⟨d :: left, c, right, rfl, same, ?_, rfl⟩
        rw [List.flatMap_cons, ← front_eq, here]
        simp
      | cons b' more =>
        obtain ⟨rfl, rfl⟩ := List.cons.inj later
        obtain ⟨single, same⟩ := encodeChar_of_ascii (c := d) (by rw [here]; simp) ascii
        rw [single] at here
        cases front with
        | nil =>
          simp only [List.nil_append, List.cons.injEq, true_and] at here
          refine ⟨[], d, rest, rfl, same, rfl, ?_⟩
          rw [← here]
          rfl
        | cons _ _ => simp at here

-- `String::from_utf8`
def decode (bytes : List UInt8) : Option String := String.fromUTF8? ⟨bytes.toArray⟩

theorem decode_eq_some_iff {bytes : List UInt8} {s : String} : decode bytes = some s ↔ bytes = utf8 s := by
  unfold decode String.fromUTF8?
  constructor
  · intro read
    split at read
    · cases read
      simp [utf8, String.fromUTF8]
    · cases read
  · rintro rfl
    have whole : (⟨(utf8 s).toArray⟩ : ByteArray) = s.toByteArray := by simp [utf8]
    simp only [whole, s.isValidUTF8, dite_true]
    rfl

theorem decode_utf8 (s : String) : decode (utf8 s) = some s := decode_eq_some_iff.mpr rfl

theorem mem_of_mem_utf8 {s : String} {b : UInt8} (member : b ∈ utf8 s) (ascii : b.toNat < 128) :
    ∃ c ∈ s.toList, c.toNat = b.toNat := by
  obtain ⟨front, back, split⟩ := List.append_of_mem member
  rw [← String.ofList_toList (s := s), utf8_ofList] at split
  obtain ⟨left, c, right, text, same, -, -⟩ := exists_split_of_ascii ascii split
  exact ⟨c, by simp [text], same⟩

theorem head_of_utf8 {s : String} {b : UInt8} {rest : List UInt8} (bytes : utf8 s = b :: rest)
    (ascii : b.toNat < 128) : ∃ c, s.toList.head? = some c ∧ c.toNat = b.toNat := by
  rw [← String.ofList_toList (s := s), utf8_ofList] at bytes
  obtain ⟨left, c, right, text, same, front, -⟩ := @exists_split_of_ascii b ascii _ [] rest bytes
  have none : left = [] := by
    cases left with
    | nil => rfl
    | cons d others => simp [String.utf8EncodeChar_ne_nil] at front
  exact ⟨c, by rw [text, none]; rfl, same⟩

-- A text has no byte of five ones at the front.
theorem lt_of_mem_utf8 {s : String} {b : UInt8} (member : b ∈ utf8 s) : b.toNat < 248 := by
  have low (n : Nat) (small : n < 248) : (UInt8.ofNat n).toNat < 248 := by
    rw [UInt8.toNat_ofNat']
    omega
  rw [← String.ofList_toList (s := s), utf8_ofList] at member
  obtain ⟨c, -, inside⟩ := List.mem_flatMap.mp member
  revert inside
  have range : c.val.toNat < 2 ^ 21 := by
    have valid := c.valid
    rw [UInt32.isValidChar, Nat.isValidChar] at valid
    omega
  fun_cases String.utf8EncodeChar c with
  | case1 v single =>
    intro inside
    rw [List.mem_singleton.mp inside]
    exact low _ (by omega)
  | case2 v _ _ =>
    simp only [List.mem_cons, List.not_mem_nil, or_false]
    rintro (rfl | rfl) <;> exact low _ (by omega)
  | case3 v _ _ _ =>
    simp only [List.mem_cons, List.not_mem_nil, or_false]
    rintro (rfl | rfl | rfl) <;> exact low _ (by omega)
  | case4 v _ _ _ =>
    simp only [List.mem_cons, List.not_mem_nil, or_false]
    rintro (rfl | rfl | rfl | rfl) <;> exact low _ (by omega)

theorem decode_eq_none_of_mem {bytes : List UInt8} {b : UInt8} (member : b ∈ bytes) (high : 248 ≤ b.toNat) :
    decode bytes = none := by
  rw [Option.eq_none_iff_forall_ne_some]
  intro s read
  obtain rfl := decode_eq_some_iff.mp read
  exact absurd (lt_of_mem_utf8 member) (Nat.not_lt.mpr high)

theorem exists_of_decode_append {front : List UInt8} {s text : String} {c : Char} {rest : List Char}
    (start : s.toList = c :: rest) (ascii : c.toNat < 128) (read : decode (front ++ utf8 s) = some text) :
    ∃ before, front = utf8 before ∧ text = before ++ s := by
  have whole := decode_eq_some_iff.mp read
  have first : String.utf8EncodeChar c = [UInt8.ofNat c.toNat] := by
    rw [String.utf8EncodeChar, if_pos (by exact Nat.le_of_lt_succ ascii)]
    rfl
  have byte : (UInt8.ofNat c.toNat).toNat = c.toNat := by
    rw [UInt8.toNat_ofNat']
    omega
  have split : text.toList.flatMap String.utf8EncodeChar =
      front ++ UInt8.ofNat c.toNat :: rest.flatMap String.utf8EncodeChar := by
    rw [← utf8_ofList, String.ofList_toList, ← whole, ← String.ofList_toList (s := s), utf8_ofList, start,
      List.flatMap_cons, first]
    rfl
  obtain ⟨left, d, right, parts, same, front_eq, back_eq⟩ :=
    exists_split_of_ascii (by rwa [byte]) split
  refine ⟨String.ofList left, by rw [utf8_ofList, front_eq], ?_⟩
  apply utf8_injective
  rw [utf8_append, utf8_ofList, ← front_eq, whole]

def takeBytes : List Char → Nat → Option (List Char)
  | _, 0 => some []
  | [], _ + 1 => none
  | c :: rest, n + 1 =>
    if c.utf8Size ≤ n + 1 then (takeBytes rest (n + 1 - c.utf8Size)).map (c :: ·) else none

-- `&s[..n]`, and `none` where that panics.
def sliceTo (s : String) (n : Nat) : Option String := (takeBytes s.toList n).map String.ofList

-- Byte `n` is not inside of a character.
def Boundary (s : String) (n : Nat) : Prop := ∃ front back, s.toList = front ++ back ∧ width front = n

theorem takeBytes_eq_some_iff {text front : List Char} {n : Nat} :
    takeBytes text n = some front ↔ ∃ back, text = front ++ back ∧ width front = n := by
  induction text generalizing front n with
  | nil =>
    cases front with
    | nil => cases n <;> simp [takeBytes, width]
    | cons d others => cases n <;> simp [takeBytes]
  | cons c rest ih =>
    have size := c.utf8Size_pos
    cases n with
    | zero =>
      cases front with
      | nil => simp [takeBytes, width]
      | cons d others =>
        have positive := d.utf8Size_pos
        simp [takeBytes, width]
        omega
    | succ n =>
      cases front with
      | nil => simp [takeBytes, width]
      | cons d others =>
        rw [takeBytes]
        split
        next fits =>
          simp only [Option.map_eq_some_iff, ih, List.cons.injEq, List.cons_append, width,
            List.map_cons, List.sum_cons]
          constructor
          · rintro ⟨_, ⟨back, rfl, rest_width⟩, rfl, rfl⟩
            exact ⟨back, ⟨rfl, rfl⟩, by omega⟩
          · rintro ⟨back, ⟨rfl, rfl⟩, whole⟩
            exact ⟨others, ⟨back, rfl, by omega⟩, rfl, rfl⟩
        next wide =>
          simp only [reduceCtorEq, List.cons_append, List.cons.injEq, width, List.map_cons,
            List.sum_cons, false_iff, not_exists, not_and]
          rintro back ⟨rfl, _⟩
          omega

theorem mem_takeBytes_iff {text front : List Char} {n : Nat} {c : Char}
    (cut : takeBytes text n = some front) :
    c ∈ front ↔ ∃ before after, text = before ++ c :: after ∧ width before < n := by
  obtain ⟨back, rfl, whole⟩ := takeBytes_eq_some_iff.mp cut
  have size := c.utf8Size_pos
  constructor
  case mp =>
    intro member
    obtain ⟨before, after, rfl⟩ := List.append_of_mem member
    refine ⟨before, after ++ back, by simp, ?_⟩
    simp only [width, List.map_append, List.sum_append, List.map_cons, List.sum_cons] at whole ⊢
    omega
  case mpr =>
    intro starts
    obtain ⟨before, after, split, short⟩ := starts
    rcases List.append_eq_append_iff.mp split with ⟨more, inside, _⟩ | ⟨more, inside, _⟩
    next =>
      -- The cut would be at or before `c`.
      simp only [inside, width, List.map_append, List.sum_append] at whole short
      omega
    next rest =>
      cases more with
      | nil =>
        rw [inside, List.append_nil] at whole
        omega
      | cons d others =>
        rw [List.cons_append, List.cons.injEq] at rest
        simp [inside, rest.1]

theorem isSome_sliceTo {s : String} {n : Nat} : (sliceTo s n).isSome = true ↔ Boundary s n := by
  rw [sliceTo, Option.isSome_map, Option.isSome_iff_exists]
  simp only [takeBytes_eq_some_iff]
  rfl

theorem sliceTo_of_ascii {s : String} {n : Nat} (ascii : ∀ c ∈ s.toList, c.utf8Size = 1)
    (within : n ≤ s.toList.length) : sliceTo s n = some (String.ofList (s.toList.take n)) := by
  have front : takeBytes s.toList n = some (s.toList.take n) := by
    refine takeBytes_eq_some_iff.mpr ⟨s.toList.drop n, (List.take_append_drop n _).symm, ?_⟩
    rw [width_of_ascii fun c member => ascii c (List.mem_of_mem_take member), List.length_take]
    omega
  rw [sliceTo, front]
  rfl

theorem mod_pow_eq_of_digits {base m n width : Nat}
    (digits : ∀ k < width, m / base ^ k % base = n / base ^ k % base) :
    m % base ^ width = n % base ^ width := by
  induction width with
  | zero => rw [Nat.pow_zero, Nat.mod_one, Nat.mod_one]
  | succ width ih =>
    rw [Nat.mod_pow_succ, Nat.mod_pow_succ, ih fun k below => digits k (by omega),
      digits width (by omega)]

def intText (n : Int) : List Char := (if 0 ≤ n then '+' else '-') :: Nat.toDigits 10 n.natAbs

def ofIntText (text : List Char) : Int :=
  let size : Int := Nat.ofDigitChars 10 text.tail 0
  if text.head? = some '-' then -size else size

theorem ofIntText_intText (n : Int) : ofIntText (intText n) = n := by
  simp only [ofIntText, intText, List.tail_cons, Nat.ofDigitChars_ten_toDigits, List.head?_cons,
    Option.some.injEq]
  by_cases sign : 0 ≤ n
  · simp only [sign, if_true, Char.reduceEq, if_false]
    omega
  · simp only [sign, if_false, if_true]
    omega

theorem intText_injective : Function.Injective intText := Function.LeftInverse.injective ofIntText_intText

theorem mem_intText {n : Int} {c : Char} (member : c ∈ intText n) :
    c = '+' ∨ c = '-' ∨ c.isDigit = true := by
  rcases List.mem_cons.mp member with sign | digit
  · split at sign
    · exact .inl sign
    · exact .inr (.inl sign)
  · exact .inr (.inr (Nat.isDigit_of_mem_toDigits (by decide) (by decide) digit))

end ByteText
