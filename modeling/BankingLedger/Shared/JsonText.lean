import BankingLedger.Shared.HexText
import Mathlib.Data.List.Basic

set_option autoImplicit false

namespace JsonText

def quote : Char := '\x22'

def backslash : Char := '\x5c'

section Write

-- The characters with an escape of their own and the letter it is written with.
def named : List (Char × Char) :=
  [(quote, quote), (backslash, backslash), ('\x08', 'b'), ('\x0c', 'f'), ('\n', 'n'), ('\r', 'r'), ('\t', 't')]

def escaped (c : Char) : List Char :=
  match named.lookup c with
  | some letter => [backslash, letter]
  | none =>
    if c.toNat < 32 then [backslash, 'u', '0', '0'] ++ HexText.print 2 c.toNat else [c]

def quoted (text : String) : List Char := quote :: (text.toList.flatMap escaped ++ [quote])

def number (n : UInt64) : List Char := Nat.toDigits 10 n.toNat

def members : List (String × List Char) → List Char
  | [] => ['\x7d']
  | [(name, value)] => quoted name ++ ':' :: value ++ ['\x7d']
  | (name, value) :: rest => quoted name ++ ':' :: value ++ ',' :: members rest

def object (fields : List (String × List Char)) : List Char := '\x7b' :: members fields

def Visible (text : List Char) : Prop := ∀ c ∈ text, 32 ≤ c.toNat

theorem visible_append {first second : List Char} :
    Visible (first ++ second) ↔ Visible first ∧ Visible second := by
  simp only [Visible, List.mem_append, or_imp, forall_and]

theorem visible_cons {c : Char} {rest : List Char} : Visible (c :: rest) ↔ 32 ≤ c.toNat ∧ Visible rest :=
  List.forall_mem_cons

instance (text : List Char) : Decidable (Visible text) := List.decidableBAll (fun c : Char => 32 ≤ c.toNat) text

theorem mem_of_lookup {c letter : Char} (found : named.lookup c = some letter) : (c, letter) ∈ named := by
  obtain ⟨front, back, split, -⟩ := List.lookup_eq_some_iff.mp found
  simp [split]

theorem visible_escaped (c : Char) : Visible (escaped c) := by
  have letters : ∀ p ∈ named, 32 ≤ p.2.toNat := by decide
  have digits : ∀ d < 16, 32 ≤ (Nat.digitChar d).toNat := by decide
  unfold escaped
  split
  · next letter found =>
    have member := mem_of_lookup found
    simp [Visible, letters _ member, backslash]
  · split
    · refine visible_append.mpr ⟨by decide, fun d member => ?_⟩
      obtain ⟨n, digit, rfl⟩ := List.mem_map.mp member
      exact digits n (HexText.digits_lt digit)
    · next above =>
      simp only [Visible, List.mem_singleton]
      rintro d rfl
      omega

theorem visible_quoted (text : String) : Visible (quoted text) := by
  refine visible_cons.mpr ⟨by decide, visible_append.mpr ⟨?_, by decide⟩⟩
  intro c member
  obtain ⟨d, -, inside⟩ := List.mem_flatMap.mp member
  exact visible_escaped d c inside

theorem visible_number (n : UInt64) : Visible (number n) := by
  intro c member
  have digit := Nat.isDigit_of_mem_toDigits (by decide) (by decide) member
  rw [Char.isDigit, Bool.and_eq_true, decide_eq_true_eq] at digit
  have low : (48 : UInt32).toNat ≤ c.toNat := digit.1
  exact Nat.le_trans (by decide) low

theorem visible_members {fields : List (String × List Char)} (values : ∀ field ∈ fields, Visible field.2) :
    Visible (members fields) := by
  have separators : Visible [':'] ∧ Visible [','] ∧ Visible ['\x7d'] := by decide
  fun_induction members fields with
  | case1 => exact separators.2.2
  | case2 name value =>
    have here := values _ List.mem_cons_self
    simp only [visible_append, visible_cons, visible_quoted, here]
    decide
  | case3 name value rest _ ih =>
    obtain ⟨here, later⟩ := List.forall_mem_cons.mp values
    simp only [visible_append, visible_cons, visible_quoted, here, ih later]
    decide

theorem visible_object {fields : List (String × List Char)} (values : ∀ field ∈ fields, Visible field.2) :
    Visible (object fields) :=
  visible_cons.mpr ⟨by decide, visible_members values⟩

end Write

section Read

-- One character of a quoted text.
def unescape : List Char → Option (Char × List Char)
  | [] => none
  | c :: rest =>
    if c = backslash then
      match rest with
      | 'u' :: '0' :: '0' :: high :: low :: rest => some (Char.ofNat (HexText.parse [high, low]), rest)
      | letter :: rest => (named.find? fun p => p.2 = letter).map fun p => (p.1, rest)
      | [] => none
    else some (c, rest)

theorem unescape_escaped (c : Char) (rest : List Char) : unescape (escaped c ++ rest) = some (c, rest) := by
  have letters : ∀ p ∈ named, p.2 ≠ 'u' ∧ named.find? (fun q => q.2 = p.2) = some p := by decide
  unfold escaped
  split
  · next letter found =>
    obtain ⟨notU, back⟩ := letters _ (mem_of_lookup found)
    simp only [List.cons_append, List.nil_append, unescape, if_true]
    split
    · next same => exact absurd (List.cons.inj same).1 notU
    · next same =>
      obtain ⟨rfl, rfl⟩ := List.cons.inj same
      rw [back]
      rfl
    · next same => cases same
  · next plain =>
    split
    · next control =>
      obtain ⟨high, low, digits⟩ := List.length_eq_two.mp (HexText.length_print 2 c.toNat)
      have value := HexText.parse_print 2 c.toNat
      rw [digits, Nat.mod_eq_of_lt (by omega)] at value
      simp [unescape, digits, value]
    · have notBackslash : c ≠ backslash := by
        rintro rfl
        exact absurd plain (by decide)
      simp [unescape, notBackslash]

-- The text up to the closing quotation mark, in at most `fuel` characters.
def unquote : Nat → List Char → Option (List Char × List Char)
  | 0, _ => none
  | fuel + 1, input =>
    if input.head? = some quote then some ([], input.tail)
    else (unescape input).bind fun first => (unquote fuel first.2).map fun r => (first.1 :: r.1, r.2)

theorem head_escaped (c : Char) (rest : List Char) : (escaped c ++ rest).head? ≠ some quote := by
  unfold escaped
  split
  · simp [backslash, quote]
  · next plain =>
    split
    · simp [backslash, quote]
    · simp only [List.singleton_append, List.head?_cons, ne_eq, Option.some.injEq]
      rintro rfl
      exact absurd plain (by decide)

theorem length_le_escaped (text : List Char) : text.length ≤ (text.flatMap escaped).length := by
  induction text with
  | nil => exact Nat.le_refl _
  | cons c rest ih =>
    have some : escaped c ≠ [] := by
      unfold escaped
      split <;> [simp; split <;> simp]
    have := List.length_pos_iff.mpr some
    rw [List.flatMap_cons, List.length_append, List.length_cons]
    omega

theorem unquote_quoted {fuel : Nat} {text : List Char} (rest : List Char) (enough : text.length < fuel) :
    unquote fuel (text.flatMap escaped ++ quote :: rest) = some (text, rest) := by
  induction text generalizing fuel with
  | nil =>
    obtain ⟨fuel, rfl⟩ := Nat.exists_eq_succ_of_ne_zero (Nat.ne_zero_of_lt enough)
    simp [unquote]
  | cons c text ih =>
    obtain ⟨fuel, rfl⟩ := Nat.exists_eq_succ_of_ne_zero (Nat.ne_zero_of_lt enough)
    have shorter : text.length < fuel := by simpa using enough
    rw [List.flatMap_cons, List.append_assoc, unquote, if_neg (head_escaped c _), unescape_escaped,
      Option.bind_some, ih shorter]
    rfl

end Read

structure Code (A : Type) where
  print : A → List Char
  read : List Char → Option (A × List Char)
  read_print : ∀ a rest, read (print a ++ rest) = some (a, rest)

namespace Code

variable {A B : Type}

def pair (c : Code A) (d : Code B) : Code (A × B) where
  print v := c.print v.1 ++ d.print v.2
  read input := (c.read input).bind fun first => (d.read first.2).map fun second =>
    ((first.1, second.1), second.2)
  read_print v rest := by
    rw [List.append_assoc, c.read_print, Option.bind_some, d.read_print]
    rfl

def transport (c : Code A) (f : A → B) (g : B → A) (inverse : ∀ b, f (g b) = b) : Code B where
  print b := c.print (g b)
  read input := (c.read input).map fun r => (f r.1, r.2)
  read_print b rest := by
    rw [c.read_print, Option.map_some, inverse]

def after (text : List Char) (c : Code A) : Code A where
  print a := text ++ c.print a
  read input := if text <+: input then c.read (input.drop text.length) else none
  read_print a rest := by
    rw [List.append_assoc, if_pos (List.prefix_append _ _), List.drop_left, c.read_print]

def closed (c : Code A) : Code A where
  print a := c.print a ++ ['\x7d']
  read input := (c.read input).bind fun r =>
    match r.2 with
    | '\x7d' :: rest => some (r.1, rest)
    | _ => none
  read_print a rest := by
    rw [List.append_assoc, c.read_print]
    rfl

def field (name : String) (c : Code A) : Code A := c.after (quoted name ++ [':'])

def string : Code String where
  print := quoted
  read
    | c :: rest =>
      if c = quote then (unquote (rest.length + 1) rest).map fun r => (String.ofList r.1, r.2) else none
    | [] => none
  read_print text rest := by
    have short : text.toList.length < (text.toList.flatMap escaped ++ quote :: rest).length + 1 := by
      have := length_le_escaped text.toList
      rw [List.length_append]
      omega
    simp only [quoted, List.cons_append, List.append_assoc, List.nil_append, if_true,
      unquote_quoted rest short, Option.map_some, String.ofList_toList]

-- A number and the comma behind it.
def number : Code UInt64 where
  print n := JsonText.number n ++ [',']
  read input :=
    match input.dropWhile Char.isDigit with
    | ',' :: rest => some (UInt64.ofNat (Nat.ofDigitChars 10 (input.takeWhile Char.isDigit) 0), rest)
    | _ => none
  read_print n rest := by
    have digits : ∀ c ∈ JsonText.number n, c.isDigit = true := fun c =>
      Nat.isDigit_of_mem_toDigits (by decide) (by decide)
    rw [List.append_assoc, List.dropWhile_append_of_pos digits, List.takeWhile_append_of_pos digits]
    simp [JsonText.number, Char.isDigit]

section Print

variable (c : Code A) (d : Code B)

@[simp] theorem pair_print (v : A × B) : (c.pair d).print v = c.print v.1 ++ d.print v.2 := rfl

@[simp] theorem transport_print (f : A → B) (g : B → A) (inverse : ∀ b, f (g b) = b) (b : B) :
    (c.transport f g inverse).print b = c.print (g b) := rfl

@[simp] theorem after_print (text : List Char) (a : A) : (c.after text).print a = text ++ c.print a := rfl

@[simp] theorem closed_print (a : A) : c.closed.print a = c.print a ++ ['\x7d'] := rfl

@[simp] theorem field_print (name : String) (a : A) :
    (c.field name).print a = quoted name ++ ':' :: c.print a := by simp [field]

@[simp] theorem string_print (text : String) : string.print text = quoted text := rfl

@[simp] theorem number_print (n : UInt64) : number.print n = JsonText.number n ++ [','] := rfl

end Print

-- A reader of whole texts, which takes a text only if it is what the writer writes.
def whole (c : Code A) (text : List Char) : Option A :=
  match c.read text with
  | some (a, []) => if c.print a = text then some a else none
  | _ => none

theorem whole_print (c : Code A) (a : A) : c.whole (c.print a) = some a := by
  have read := c.read_print a []
  rw [List.append_nil] at read
  simp [whole, read]

theorem print_of_whole {c : Code A} {text : List Char} {a : A} (read : c.whole text = some a) :
    c.print a = text := by
  unfold whole at read
  split at read
  · split at read
    · cases read
      assumption
    · cases read
  · cases read

end Code

end JsonText
