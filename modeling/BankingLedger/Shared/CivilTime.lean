import Mathlib.Algebra.Group.Nat.Defs
import BankingLedger.Shared.TextPattern

set_option autoImplicit false

namespace CivilTime

open TextPattern

section Calendar

structure Date where
  year : Int
  month : Int
  day : Int
deriving DecidableEq, Repr

-- The year is counted from March, so that a leap day is its last.
structure MarchDay where
  year : Int
  dayOfYear : Int

def marchDay (days : Int) : MarchDay :=
  let era := (days + 719468) / 146097
  let ofEra := (days + 719468) % 146097
  let century := min (ofEra / 36524) 3
  let ofCentury := ofEra - century * 36524
  let four := ofCentury / 1461
  let ofFour := ofCentury - four * 1461
  let single := min (ofFour / 365) 3
  { year := era * 400 + century * 100 + four * 4 + single
    dayOfYear := ofFour - single * 365 }

def MarchDay.days (d : MarchDay) : Int :=
  d.year * 365 + d.year / 4 - d.year / 100 + d.year / 400 + d.dayOfYear - 719468

theorem marchDay_spec (days : Int) : ∃ era century four single : Int,
    0 ≤ century ∧ century ≤ 3 ∧ 0 ≤ four ∧ four ≤ 24 ∧ 0 ≤ single ∧ single ≤ 3 ∧
    (marchDay days).year = era * 400 + century * 100 + four * 4 + single ∧
    0 ≤ (marchDay days).dayOfYear ∧ (marchDay days).dayOfYear ≤ 365 ∧
    days + 719468 =
      era * 146097 + century * 36524 + four * 1461 + single * 365 + (marchDay days).dayOfYear := by
  refine ⟨_, _, _, _, ?_, ?_, ?_, ?_, ?_, ?_, rfl, ?_⟩
  iterate 6 omega
  simp only [marchDay]
  omega

theorem days_marchDay (days : Int) : (marchDay days).days = days := by
  obtain ⟨era, century, four, single, c0, c1, f0, f1, s0, s1, year, -, -, total⟩ := marchDay_spec days
  have fours : (marchDay days).year / 4 = era * 100 + century * 25 + four := by omega
  have centuries : (marchDay days).year / 100 = era * 4 + century := by omega
  have eras : (marchDay days).year / 400 = era := by omega
  rw [MarchDay.days, fours, centuries, eras]
  omega

theorem dayOfYear_bounds (days : Int) :
    0 ≤ (marchDay days).dayOfYear ∧ (marchDay days).dayOfYear ≤ 365 := by
  obtain ⟨_, _, _, _, _, _, _, _, _, _, _, low, high, _⟩ := marchDay_spec days
  exact ⟨low, high⟩

def MarchDay.toDate (d : MarchDay) : Date :=
  let month := (5 * d.dayOfYear + 2) / 153
  { year := if month < 10 then d.year else d.year + 1
    month := if month < 10 then month + 3 else month - 9
    day := d.dayOfYear - (153 * month + 2) / 5 + 1 }

def Date.toMarchDay (d : Date) : MarchDay :=
  let month := if 2 < d.month then d.month - 3 else d.month + 9
  { year := if 2 < d.month then d.year else d.year - 1
    dayOfYear := (153 * month + 2) / 5 + d.day - 1 }

theorem toMarchDay_toDate {d : MarchDay} (low : 0 ≤ d.dayOfYear) (high : d.dayOfYear ≤ 365) :
    d.toDate.toMarchDay = d := by
  obtain ⟨year, dayOfYear⟩ := d
  simp only [MarchDay.toDate, Date.toMarchDay, MarchDay.mk.injEq] at *
  omega

-- Days since 1970-01-01.
def dateOfDays (days : Int) : Date := (marchDay days).toDate

theorem dateOfDays_injective {m n : Int} (same : dateOfDays m = dateOfDays n) : m = n := by
  have march := congrArg Date.toMarchDay same
  rw [dateOfDays, dateOfDays, toMarchDay_toDate (dayOfYear_bounds m).1 (dayOfYear_bounds m).2,
    toMarchDay_toDate (dayOfYear_bounds n).1 (dayOfYear_bounds n).2] at march
  rw [← days_marchDay m, march, days_marchDay]

theorem month_day_bounds (days : Int) :
    1 ≤ (dateOfDays days).month ∧ (dateOfDays days).month ≤ 12 ∧
      1 ≤ (dateOfDays days).day ∧ (dateOfDays days).day ≤ 31 := by
  have bounds := dayOfYear_bounds days
  simp only [dateOfDays, MarchDay.toDate]
  generalize (marchDay days).dayOfYear = n at *
  omega

theorem year_bounds {days : Int} (low : -719528 ≤ days) (high : days < 2932897) :
    0 ≤ (dateOfDays days).year ∧ (dateOfDays days).year ≤ 9999 := by
  obtain ⟨era, century, four, single, c0, c1, f0, f1, s0, s1, year, first, last, total⟩ :=
    marchDay_spec days
  -- The year 0 starts in the last March year of the era before it, 9999 ends in its own.
  have before : era = -1 → century = 3 ∧ four = 24 ∧ single = 3 := by omega
  have after : era = 24 → century = 3 → four = 24 → single = 3 → (marchDay days).dayOfYear ≤ 305 := by
    omega
  simp only [dateOfDays, MarchDay.toDate]
  split <;> omega

end Calendar

section Decimals

def padded : Nat → Nat → List Char
  | 0, _ => []
  | width + 1, n => padded width (n / 10) ++ [Nat.digitChar (n % 10)]

@[simp] theorem length_padded (width n : Nat) : (padded width n).length = width := by
  induction width generalizing n with
  | zero => rfl
  | succ width ih => simp [padded, ih]

theorem digitChar_of_lt_ten :
    ∀ d < 10, d.digitChar.isDigit = true ∧ ∀ e < 10, d.digitChar = e.digitChar → d = e := by
  decide

theorem fits_padded (width n : Nat) : Fits (List.replicate width '0') (padded width n) := by
  have digits : ∀ c ∈ padded width n, c.isDigit = true := by
    induction width generalizing n with
    | zero => simp [padded]
    | succ width ih =>
      intro c member
      rcases List.mem_append.mp member with before | last
      · exact ih (n / 10) c before
      · rw [List.mem_singleton.mp last]
        exact (digitChar_of_lt_ten _ (Nat.mod_lt _ (by decide))).1
  simpa using fits_digits digits

theorem padded_injective {width m n : Nat} (same : padded width m = padded width n)
    (small : m < 10 ^ width) (small' : n < 10 ^ width) : m = n := by
  induction width generalizing m n with
  | zero => omega
  | succ width ih =>
    obtain ⟨front, last⟩ := List.append_inj' same rfl
    rw [Nat.pow_succ] at small small'
    have tens : m / 10 = n / 10 := ih front (by omega) (by omega)
    have ones : m % 10 = n % 10 :=
      (digitChar_of_lt_ten _ (Nat.mod_lt _ (by decide))).2 _ (Nat.mod_lt _ (by decide))
        (List.singleton_inj.mp last)
    omega

theorem leftpad_concat {A : Type} (width : Nat) (a c : A) (text : List A) :
    (text ++ [c]).leftpad (width + 1) a = text.leftpad width a ++ [c] := by
  simp [List.leftpad]

theorem padded_zero (width : Nat) : padded width 0 = List.replicate width '0' := by
  induction width with
  | zero => rfl
  | succ width ih =>
    rw [padded, Nat.zero_div, ih, List.replicate_succ']
    rfl

-- What a padded number has in front of its last digits is a number too.
theorem leftpad_toDigits (width n : Nat) : (Nat.toDigits 10 n).leftpad (width + 1) '0' =
    (if n < 10 ^ (width + 1) then [] else Nat.toDigits 10 (n / 10 ^ (width + 1))) ++ padded (width + 1) n := by
  induction width generalizing n with
  | zero =>
    by_cases small : n < 10
    next => simp [Nat.toDigits_of_lt_base small, padded, small, Nat.mod_eq_of_lt small]
    next =>
      rw [Nat.toDigits_of_base_le (by decide) (by omega)]
      simp [small, padded]
  | succ width ih =>
    have power : 10 ^ (width + 1 + 1) = 10 * 10 ^ (width + 1) := Nat.pow_succ'
    rw [padded, ← List.append_assoc]
    by_cases small : n < 10
    next =>
      have below : n < 10 ^ (width + 1 + 1) := by
        have := Nat.pow_pos (n := width + 1) (show 0 < 10 by decide)
        omega
      rw [if_pos below, Nat.toDigits_of_lt_base small, Nat.div_eq_of_lt small, padded_zero,
        Nat.mod_eq_of_lt small]
      rfl
    next =>
      have below : n / 10 < 10 ^ (width + 1) ↔ n < 10 ^ (width + 1 + 1) := by omega
      rw [Nat.toDigits_of_base_le (by decide) (by omega), leftpad_concat, ih, Nat.div_div_eq_div_mul,
        ← power, if_congr below rfl rfl]
theorem padded_mod (width n : Nat) : padded width (n % 10 ^ width) = padded width n := by
  induction width generalizing n with
  | zero => rfl
  | succ width ih =>
    have front : n % 10 ^ (width + 1) / 10 = n / 10 % 10 ^ width := by
      rw [Nat.pow_succ', Nat.mod_mul_right_div_self]
    have last : n % 10 ^ (width + 1) % 10 = n % 10 := Nat.mod_mod_of_dvd n (Nat.dvd_mul_left 10 _)
    rw [padded, padded, front, last, ih]

theorem padded_eq_iff {width m n : Nat} :
    padded width m = padded width n ↔ m % 10 ^ width = n % 10 ^ width := by
  have power : 0 < 10 ^ width := Nat.pow_pos (by decide)
  constructor
  case mp =>
    intro same
    rw [← padded_mod width m, ← padded_mod width n] at same
    exact padded_injective same (Nat.mod_lt m power) (Nat.mod_lt n power)
  case mpr =>
    intro same
    rw [← padded_mod width m, same, padded_mod]

end Decimals

section Text

-- Four digits, or a sign and at least four.
def yearText (year : Int) : List Char :=
  if 0 ≤ year ∧ year ≤ 9999 then padded 4 year.toNat
  else (if 0 ≤ year then '+' else '-') :: (Nat.toDigits 10 year.natAbs).leftpad 4 '0'

def fractionText (nanos : Nat) : List Char :=
  if nanos = 0 then []
  else if nanos % 1000000 = 0 then '.' :: padded 3 (nanos / 1000000)
  else if nanos % 1000 = 0 then '.' :: padded 6 (nanos / 1000)
  else '.' :: padded 9 nanos

def utcOffset : List Char := "+00:00".toList

-- The numbers behind the year, as they are written.
structure Reading where
  month : Nat
  day : Nat
  hour : Nat
  minute : Nat
  second : Nat
  nano : Nat

def Reading.parts (r : Reading) : List (List Char) :=
  [['-'], padded 2 r.month, ['-'], padded 2 r.day, ['T'], padded 2 r.hour, [':'], padded 2 r.minute, [':'],
    padded 2 r.second, fractionText r.nano, utcOffset]

-- The parts of a time given in nanoseconds since 1970-01-01T00:00:00 UTC.
def parts (nanos : Int) : List (List Char) :=
  let seconds := nanos / 1000000000
  let date := dateOfDays (seconds / 86400)
  let ofDay := (seconds % 86400).toNat
  [yearText date.year, ['-'], padded 2 date.month.toNat, ['-'], padded 2 date.day.toNat, ['T'],
    padded 2 (ofDay / 3600), [':'], padded 2 (ofDay / 60 % 60), [':'], padded 2 (ofDay % 60),
    fractionText (nanos % 1000000000).toNat, utcOffset]

def toRfc3339 (nanos : Int) : String := String.ofList (parts nanos).flatten

def secondShape : List Char := "0000-00-00T00:00:00".toList

def utcShape (fraction : String) : List Char := secondShape ++ fraction.toList ++ utcOffset

def dayShape : List Char := "-00-00T00:00:00".toList

def tailShape (fraction : String) : List Char := dayShape ++ fraction.toList ++ utcOffset

theorem utcShape_eq (fraction : String) : utcShape fraction = List.replicate 4 '0' ++ tailShape fraction := by
  have year : secondShape = List.replicate 4 '0' ++ dayShape := by decide
  rw [utcShape, tailShape, year, List.append_assoc, List.append_assoc, List.append_assoc]

theorem tailShape_eq (fraction : String) : tailShape fraction =
    [['-'], List.replicate 2 '0', ['-'], List.replicate 2 '0', ['T'], List.replicate 2 '0', [':'],
      List.replicate 2 '0', [':'], List.replicate 2 '0', fraction.toList, utcOffset].flatten := by
  have day : dayShape = [['-'], List.replicate 2 '0', ['-'], List.replicate 2 '0', ['T'],
      List.replicate 2 '0', [':'], List.replicate 2 '0', [':'], List.replicate 2 '0'].flatten := by
    decide
  rw [tailShape, day]
  simp only [List.flatten_cons, List.flatten_nil, List.append_assoc, List.append_nil]

def fractionShapes : List String := ["", ".000", ".000000", ".000000000"]

def utcShapes : List (List Char) := ["", ".000", ".000000", ".000000000"].map utcShape

def FourDigitYear (nanos : Int) : Prop :=
  -62167219200 * 1000000000 ≤ nanos ∧ nanos < 253402300800 * 1000000000

theorem FourDigitYear.year {nanos : Int} (four : FourDigitYear nanos) :
    0 ≤ (dateOfDays (nanos / 1000000000 / 86400)).year ∧
      (dateOfDays (nanos / 1000000000 / 86400)).year ≤ 9999 := by
  unfold FourDigitYear at four
  exact year_bounds (by omega) (by omega)

theorem utcShapes_clash :
    ∀ p ∈ utcShapes, ∀ q ∈ utcShapes, p = q ∨ clash p q = true := by
  decide

theorem fits_fractionText (nanos : Nat) :
    ∃ fraction ∈ fractionShapes, Fits fraction.toList (fractionText nanos) := by
  unfold fractionText fractionShapes
  have point (width n : Nat) : Fits ('.' :: List.replicate width '0') ('.' :: padded width n) :=
    .cons rfl (fits_padded width n)
  split
  · exact ⟨"", by simp, .nil⟩
  split
  · exact ⟨".000", by simp, point 3 _⟩
  split
  · exact ⟨".000000", by simp, point 6 _⟩
  · exact ⟨".000000000", by simp, point 9 _⟩

-- The places that are written and the nanoseconds that the last of them stands for.
def precisions : List (Nat × Nat) := [(3, 1000000), (6, 1000), (9, 1)]

theorem precisions_spec : ∀ p ∈ precisions,
    10 ^ p.1 * p.2 = 1000000000 ∧ ∀ q ∈ precisions, p.1 = q.1 → p = q := by
  decide

theorem fractionText_of_ne_zero {nanos : Nat} (positive : nanos ≠ 0) :
    ∃ p ∈ precisions, nanos % p.2 = 0 ∧ fractionText nanos = '.' :: padded p.1 (nanos / p.2) := by
  unfold fractionText
  rw [if_neg positive]
  split
  · next millis => exact ⟨(3, 1000000), by decide, millis, rfl⟩
  split
  · next micros => exact ⟨(6, 1000), by decide, micros, rfl⟩
  · exact ⟨(9, 1), by decide, Nat.mod_one _, by rw [Nat.div_one]⟩

theorem fractionText_injective {m n : Nat} (same : fractionText m = fractionText n)
    (small : m < 1000000000) (small' : n < 1000000000) : m = n := by
  by_cases zero : m = 0 <;> by_cases zero' : n = 0
  · rw [zero, zero']
  · obtain ⟨_, _, _, text⟩ := fractionText_of_ne_zero zero'
    rw [text, zero] at same
    cases same
  · obtain ⟨_, _, _, text⟩ := fractionText_of_ne_zero zero
    rw [text, zero'] at same
    cases same
  · obtain ⟨p, listed, whole, text⟩ := fractionText_of_ne_zero zero
    obtain ⟨q, listed', whole', text'⟩ := fractionText_of_ne_zero zero'
    rw [text, text', List.cons.injEq] at same
    have width : p.1 = q.1 := by simpa using congrArg List.length same.2
    obtain ⟨capacity, distinct⟩ := precisions_spec p listed
    obtain rfl := distinct q listed' width
    have units : m / p.2 = n / p.2 := by
      apply padded_injective same.2 <;> apply Nat.div_lt_of_lt_mul <;>
        rwa [Nat.mul_comm, capacity]
    rw [← Nat.div_add_mod m p.2, ← Nat.div_add_mod n p.2, units, whole, whole']

theorem flatten_injective {xs ys : List (List Char)}
    (lengths : List.Forall₂ (fun x y => x.length = y.length) xs ys)
    (same : xs.flatten = ys.flatten) : xs = ys := by
  induction lengths with
  | nil => rfl
  | cons length _ ih =>
    rw [List.flatten_cons, List.flatten_cons] at same
    obtain ⟨rfl, rest⟩ := List.append_inj same length
    rw [ih rest]

section Readings

variable {r r' : Reading}

structure Reading.Fine (r : Reading) : Prop where
  month : r.month < 100
  day : r.day < 100
  hour : r.hour < 100
  minute : r.minute < 100
  second : r.second < 100
  nano : r.nano < 1000000000

theorem Reading.form (r : Reading) : ∃ fraction ∈ fractionShapes, Fits (tailShape fraction) r.parts.flatten := by
  obtain ⟨fraction, listed, fits⟩ := fits_fractionText r.nano
  refine ⟨fraction, listed, ?_⟩
  rw [tailShape_eq]
  refine List.rel_flatten ?_
  unfold parts
  refine .cons fits_self (.cons (fits_padded _ _) (.cons fits_self (.cons (fits_padded _ _) ?_)))
  refine .cons fits_self (.cons (fits_padded _ _) (.cons fits_self (.cons (fits_padded _ _) ?_)))
  exact .cons fits_self (.cons (fits_padded _ _) (.cons fits (.cons fits_self .nil)))

theorem Reading.parts_eq_of_flatten (same : r.parts.flatten = r'.parts.flatten) : r.parts = r'.parts := by
  have lengths := congrArg List.length same
  simp only [parts, List.flatten_cons, List.flatten_nil, List.length_append, length_padded] at lengths
  apply flatten_injective _ same
  simp only [parts, List.forall₂_cons, length_padded, List.forall₂_nil_left_iff, true_and, and_true]
  omega

theorem Reading.eq_of_flatten (fine : r.Fine) (fine' : r'.Fine)
    (same : r.parts.flatten = r'.parts.flatten) : r = r' := by
  have pieces := parts_eq_of_flatten same
  simp only [parts, List.cons.injEq] at pieces
  obtain ⟨-, month, -, day, -, hour, -, minute, -, second, fraction, -⟩ := pieces
  rw [Reading.mk.injEq]
  exact ⟨padded_injective month fine.month fine'.month, padded_injective day fine.day fine'.day,
    padded_injective hour fine.hour fine'.hour, padded_injective minute fine.minute fine'.minute,
    padded_injective second fine.second fine'.second, fractionText_injective fraction fine.nano fine'.nano⟩

end Readings

def yearOf (nanos : Int) : Int := (dateOfDays (nanos / 1000000000 / 86400)).year

def reading (nanos : Int) : Reading :=
  let seconds := nanos / 1000000000
  let date := dateOfDays (seconds / 86400)
  let ofDay := (seconds % 86400).toNat
  { month := date.month.toNat
    day := date.day.toNat
    hour := ofDay / 3600
    minute := ofDay / 60 % 60
    second := ofDay % 60
    nano := (nanos % 1000000000).toNat }

theorem parts_eq (nanos : Int) : parts nanos = yearText (yearOf nanos) :: (reading nanos).parts := rfl

theorem reading_fine (nanos : Int) : (reading nanos).Fine := by
  have bounds := month_day_bounds (nanos / 1000000000 / 86400)
  constructor <;> simp only [reading] <;> omega

theorem reading_injective {m n : Int} (year : yearOf m = yearOf n) (same : reading m = reading n) : m = n := by
  simp only [reading, Reading.mk.injEq] at same
  obtain ⟨month, day, hour, minute, second, nano⟩ := same
  have bounds := month_day_bounds (m / 1000000000 / 86400)
  have bounds' := month_day_bounds (n / 1000000000 / 86400)
  have date : dateOfDays (m / 1000000000 / 86400) = dateOfDays (n / 1000000000 / 86400) := by
    rw [Date.mk.injEq]
    exact ⟨year, by omega, by omega⟩
  have days := dateOfDays_injective date
  omega

theorem yearText_four {nanos : Int} (four : FourDigitYear nanos) :
    yearText (yearOf nanos) = padded 4 (yearOf nanos).toNat := if_pos four.year

theorem toRfc3339_form {nanos : Int} (four : FourDigitYear nanos) :
    ∃ shape ∈ utcShapes, Fits shape (toRfc3339 nanos).toList := by
  obtain ⟨fraction, listed, fits⟩ := (reading nanos).form
  refine ⟨utcShape fraction, List.mem_map_of_mem listed, ?_⟩
  rw [toRfc3339, String.toList_ofList, utcShape_eq, parts_eq, List.flatten_cons, yearText_four four]
  exact List.rel_append (fits_padded 4 _) fits

theorem toRfc3339_injective {m n : Int} (four : FourDigitYear m) (four' : FourDigitYear n)
    (same : toRfc3339 m = toRfc3339 n) : m = n := by
  have text := String.ofList_injective same
  rw [parts_eq, parts_eq, List.flatten_cons, List.flatten_cons, yearText_four four,
    yearText_four four'] at text
  obtain ⟨year, rest⟩ := List.append_inj text (by simp)
  have years := four.year
  have years' := four'.year
  have sameYear := padded_injective year (by unfold yearOf; omega) (by unfold yearOf; omega)
  unfold yearOf at sameYear
  apply reading_injective (by unfold yearOf; omega)
  exact Reading.eq_of_flatten (reading_fine m) (reading_fine n) rest

end Text

end CivilTime
