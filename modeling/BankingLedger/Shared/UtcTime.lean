import BankingLedger.Shared.CivilTime

set_option autoImplicit false

@[ext] structure UtcTime where
  -- Since 1970-01-01.
  day : Int
  second : Nat
  -- A leap second counts up to 1999999999, behind any second of the day.
  nano : Nat
  second_lt : second < 86400
  nano_lt : nano < 2000000000
  first_year : -262143 ≤ (CivilTime.dateOfDays day).year
  last_year : (CivilTime.dateOfDays day).year ≤ 262142

namespace UtcTime

open CivilTime TextPattern

def date (t : UtcTime) : Date := dateOfDays t.day

-- A leap second is written as the second after it.
def reading (t : UtcTime) : Reading where
  month := t.date.month.toNat
  day := t.date.day.toNat
  hour := t.second / 3600
  minute := t.second / 60 % 60
  second := if 1000000000 ≤ t.nano then t.second % 60 + 1 else t.second % 60
  nano := if 1000000000 ≤ t.nano then t.nano - 1000000000 else t.nano

def text (t : UtcTime) : List Char := yearText t.date.year ++ t.reading.parts.flatten

def toRfc3339 (t : UtcTime) : String := String.ofList t.text

section Clock

structure LeapsTo (t u : UtcTime) : Prop where
  inside : t.second % 60 ≠ 59
  second : u.second = t.second + 1
  nano : t.nano = u.nano + 1000000000

-- Two times of the day that are the same on the page.
def SameClock (t u : UtcTime) : Prop :=
  (t.second = u.second ∧ t.nano = u.nano) ∨ LeapsTo t u ∨ LeapsTo u t

variable {t u : UtcTime}

theorem SameClock.symm (same : SameClock t u) : SameClock u t := by
  rcases same with equal | leap | leap
  next => exact .inl ⟨equal.1.symm, equal.2.symm⟩
  next => exact .inr (.inr leap)
  next => exact .inr (.inl leap)

theorem reading_fine (t : UtcTime) : t.reading.Fine := by
  have bounds := month_day_bounds t.day
  have day := t.second_lt
  have leap := t.nano_lt
  constructor <;> simp only [reading, date]
  case second => split <;> omega
  case nano => split <;> omega
  all_goals omega

theorem sameClock_iff : SameClock t u ↔
    t.reading.hour = u.reading.hour ∧ t.reading.minute = u.reading.minute ∧
      t.reading.second = u.reading.second ∧ t.reading.nano = u.reading.nano := by
  have day := t.second_lt
  have day' := u.second_lt
  have leap := t.nano_lt
  have leap' := u.nano_lt
  have into (t u : UtcTime) : LeapsTo t u ↔
      t.second % 60 ≠ 59 ∧ u.second = t.second + 1 ∧ t.nano = u.nano + 1000000000 :=
    ⟨fun leap => ⟨leap.inside, leap.second, leap.nano⟩, fun leap => ⟨leap.1, leap.2.1, leap.2.2⟩⟩
  simp only [SameClock, into, reading]
  constructor
  case mp => rintro (same | leaps | leaps) <;> split_ifs <;> omega
  case mpr =>
    intro same
    split_ifs at same <;> omega

theorem reading_eq_iff : t.reading = u.reading ↔
    t.date.month = u.date.month ∧ t.date.day = u.date.day ∧ SameClock t u := by
  have bounds := month_day_bounds t.day
  have bounds' := month_day_bounds u.day
  rw [sameClock_iff, Reading.mk.injEq]
  have month : t.reading.month = u.reading.month ↔ t.date.month = u.date.month := by
    simp only [reading, date]
    omega
  have day : t.reading.day = u.reading.day ↔ t.date.day = u.date.day := by
    simp only [reading, date]
    omega
  rw [month, day]

end Clock

section Year

def FourDigits (year : Int) : Prop := 0 ≤ year ∧ year ≤ 9999

instance (year : Int) : Decidable (FourDigits year) := inferInstanceAs (Decidable (_ ∧ _))

def leadDigits (n : Nat) : List Char := if n < 10000 then [] else Nat.toDigits 10 (n / 10000)

def yearLead (year : Int) : List Char :=
  if FourDigits year then [] else (if 0 ≤ year then '+' else '-') :: leadDigits year.natAbs

variable {year year' : Int} {d e : List Char}

theorem yearText_eq (year : Int) : yearText year = yearLead year ++ padded 4 year.natAbs := by
  rw [yearText, yearLead]
  by_cases four : FourDigits year
  next =>
    have size : year.toNat = year.natAbs := by
      have := four.1
      omega
    rw [if_pos four, if_pos (by exact four), size]
    rfl
  next =>
    rw [if_neg four, if_neg (by exact four), leftpad_toDigits]
    rfl

theorem ofDigitChars_leadDigits (n : Nat) : Nat.ofDigitChars 10 (leadDigits n) 0 = n / 10000 := by
  unfold leadDigits
  split
  next small => rw [Nat.div_eq_of_lt small]; rfl
  next => exact Nat.ofDigitChars_ten_toDigits

theorem isDigit_of_mem_leadDigits {n : Nat} {c : Char} (member : c ∈ leadDigits n) : c.isDigit := by
  unfold leadDigits at member
  split at member
  next => simp at member
  next => exact Nat.isDigit_of_mem_toDigits (by decide) (by decide) member

-- A sign is found from the end, as the last character that is no digit.
theorem append_sign_inj {s s' : Char} {digits digits' : List Char} (sign : s.isDigit = false)
    (sign' : s'.isDigit = false) (all : ∀ c ∈ digits, c.isDigit) (all' : ∀ c ∈ digits', c.isDigit)
    (same : d ++ s :: digits = e ++ s' :: digits') : d = e ∧ s = s' ∧ digits = digits' := by
  have aligned {d e digits digits' : List Char} {s s' : Char} (sign' : s'.isDigit = false)
      (all : ∀ c ∈ digits, c.isDigit) {more : List Char} (longer : e = d ++ more)
      (rest : s :: digits = more ++ s' :: digits') : d = e ∧ s = s' ∧ digits = digits' := by
    cases more with
    | nil =>
      obtain ⟨rfl, rfl⟩ := List.cons.inj rest
      exact ⟨by simp [longer], rfl, rfl⟩
    | cons c more =>
      obtain ⟨_, rfl⟩ := List.cons.inj rest
      have digit := all s' (by simp)
      rw [sign'] at digit
      cases digit
  rcases List.append_eq_append_iff.mp same with ⟨more, longer, rest⟩ | ⟨more, longer, rest⟩
  next => exact aligned sign' all longer rest
  next =>
    obtain ⟨front, first, back⟩ := aligned sign all' longer rest
    exact ⟨front.symm, first.symm, back.symm⟩

structure MovedLead (d : List Char) (year : Int) (e : List Char) (year' : Int) : Prop where
  outside : ¬FourDigits year
  digits : year' = year.natAbs % 10000
  front : e = d ++ yearLead year

theorem MovedLead.four (moved : MovedLead d year e year') : FourDigits year' := by
  have digits := moved.digits
  unfold FourDigits
  omega

theorem append_lead_iff_same (four : FourDigits year) (four' : FourDigits year') :
    d ++ yearLead year = e ++ yearLead year' ∧ year.natAbs % 10000 = year'.natAbs % 10000 ↔
      d = e ∧ year = year' := by
  simp only [yearLead, four, four', if_true, List.append_nil]
  unfold FourDigits at four four'
  exact and_congr_right fun _ => by omega

theorem append_lead_iff_moved (far : ¬FourDigits year) (near : FourDigits year') :
    d ++ yearLead year = e ++ yearLead year' ∧ year.natAbs % 10000 = year'.natAbs % 10000 ↔
      MovedLead d year e year' := by
  have none : yearLead year' = [] := if_pos near
  rw [none, List.append_nil]
  unfold FourDigits at near
  constructor
  case mp =>
    intro same
    exact { outside := far, digits := by omega, front := same.1.symm }
  case mpr =>
    intro moved
    have digits := moved.digits
    exact ⟨moved.front.symm, by omega⟩

theorem append_lead_iff_signed (far : ¬FourDigits year) (far' : ¬FourDigits year') :
    d ++ yearLead year = e ++ yearLead year' ∧ year.natAbs % 10000 = year'.natAbs % 10000 ↔
      d = e ∧ year = year' := by
  constructor
  case mp =>
    rintro ⟨fronts, last⟩
    rw [yearLead, yearLead, if_neg far, if_neg far'] at fronts
    have sign (n : Int) : (if 0 ≤ n then '+' else '-').isDigit = false := by split <;> rfl
    obtain ⟨front, signs, digits⟩ := append_sign_inj (sign year) (sign year')
      (fun c => isDigit_of_mem_leadDigits) (fun c => isDigit_of_mem_leadDigits) fronts
    have first : year.natAbs / 10000 = year'.natAbs / 10000 := by
      rw [← ofDigitChars_leadDigits, digits, ofDigitChars_leadDigits]
    have positive : 0 ≤ year ↔ 0 ≤ year' := by
      by_cases plus : 0 ≤ year <;> by_cases plus' : 0 ≤ year' <;> simp [plus, plus'] at signs ⊢
    exact ⟨front, by omega⟩
  case mpr =>
    rintro ⟨rfl, rfl⟩
    exact ⟨rfl, rfl⟩

theorem append_yearText_iff : d ++ yearText year = e ++ yearText year' ↔
    (d = e ∧ year = year') ∨ MovedLead d year e year' ∨ MovedLead e year' d year := by
  have fronts : d ++ yearText year = e ++ yearText year' ↔
      d ++ yearLead year = e ++ yearLead year' ∧ year.natAbs % 10000 = year'.natAbs % 10000 := by
    rw [yearText_eq, yearText_eq, ← List.append_assoc, ← List.append_assoc]
    constructor
    case mp =>
      intro same
      obtain ⟨front, last⟩ := List.append_inj' same (by simp)
      exact ⟨front, padded_eq_iff.mp last⟩
    case mpr =>
      intro same
      rw [same.1, padded_eq_iff.mpr same.2]
  have outside (four : FourDigits year) : ¬MovedLead d year e year' := fun moved => moved.outside four
  have outside' (four : FourDigits year') : ¬MovedLead e year' d year := fun moved => moved.outside four
  rw [fronts]
  by_cases four : FourDigits year <;> by_cases four' : FourDigits year'
  next => simp only [append_lead_iff_same four four', outside four, outside' four', or_false]
  next =>
    have differ : year ≠ year' := by
      rintro rfl
      exact four' four
    rw [eq_comm, eq_comm (a := year.natAbs % 10000), append_lead_iff_moved four' four]
    simp [differ, outside four]
  next =>
    have differ : year ≠ year' := by
      rintro rfl
      exact four four'
    rw [append_lead_iff_moved four four']
    simp [differ, outside' four']
  next =>
    have never : ¬MovedLead d year e year' := fun moved => four' moved.four
    have never' : ¬MovedLead e year' d year := fun moved => four moved.four
    simp only [append_lead_iff_signed four four', never, never', or_false]

end Year

section Text

def tailShapes : List (List Char) := fractionShapes.map tailShape

theorem tailShapes_clash : ∀ p ∈ tailShapes, ∀ q ∈ tailShapes, p = q ∨ clash p q = true := by
  decide

variable {t u : UtcTime} {d e : List Char}

theorem append_text_split : d ++ t.text = e ++ u.text ↔
    d ++ yearText t.date.year = e ++ yearText u.date.year ∧ t.reading = u.reading := by
  unfold text
  rw [← List.append_assoc, ← List.append_assoc]
  constructor
  case mp =>
    intro same
    obtain ⟨fraction, listed, fits⟩ := t.reading.form
    obtain ⟨fraction', listed', fits'⟩ := u.reading.form
    obtain ⟨years, rest⟩ := fits.suffix_unique same fits' (tailShapes_clash
      (tailShape fraction) (List.mem_map_of_mem listed) (tailShape fraction') (List.mem_map_of_mem listed'))
    exact ⟨years, Reading.eq_of_flatten t.reading_fine u.reading_fine rest⟩
  case mpr =>
    intro same
    rw [same.1, same.2]

theorem day_eq_iff : t.day = u.day ↔
    t.date.year = u.date.year ∧ t.date.month = u.date.month ∧ t.date.day = u.date.day := by
  constructor
  case mp =>
    intro same
    simp [date, same]
  case mpr =>
    intro same
    apply dateOfDays_injective
    rw [Date.mk.injEq]
    exact same

/-- `d` before the text of `t` is `e` before the text of `u` with the front of the year moved into `e`. -/
structure MovedYear (d : List Char) (t : UtcTime) (e : List Char) (u : UtcTime) : Prop where
  lead : MovedLead d t.date.year e u.date.year
  month : t.date.month = u.date.month
  day : t.date.day = u.date.day
  clock : SameClock t u

theorem append_text_iff : d ++ t.text = e ++ u.text ↔
    (d = e ∧ t.day = u.day ∧ SameClock t u) ∨ MovedYear d t e u ∨ MovedYear e u d t := by
  rw [append_text_split, append_yearText_iff, reading_eq_iff, day_eq_iff]
  constructor
  case mp =>
    rintro ⟨front | lead | lead, month, day, clock⟩
    next => exact .inl ⟨front.1, ⟨front.2, month, day⟩, clock⟩
    next => exact .inr (.inl ⟨lead, month, day, clock⟩)
    next => exact .inr (.inr ⟨lead, month.symm, day.symm, clock.symm⟩)
  case mpr =>
    rintro (⟨front, ⟨year, month, day⟩, clock⟩ | moved | moved)
    next => exact ⟨.inl ⟨front, year⟩, month, day, clock⟩
    next => exact ⟨.inr (.inl moved.lead), moved.month, moved.day, moved.clock⟩
    next => exact ⟨.inr (.inr moved.lead), moved.month.symm, moved.day.symm, moved.clock.symm⟩

-- Without leap seconds, the text of the nanoseconds since 1970-01-01T00:00:00.
def nanos (t : UtcTime) : Int := (t.day * 86400 + t.second) * 1000000000 + t.nano

theorem toRfc3339_nanos (whole : t.nano < 1000000000) : t.toRfc3339 = CivilTime.toRfc3339 t.nanos := by
  have day := t.second_lt
  have seconds : t.nanos / 1000000000 = t.day * 86400 + t.second := by
    unfold nanos
    omega
  have rest : (t.nanos % 1000000000).toNat = t.nano := by
    unfold nanos
    omega
  have days : (t.day * 86400 + t.second) / 86400 = t.day := by omega
  have ofDay : ((t.day * 86400 + t.second) % 86400).toNat = t.second := by omega
  have plain : ¬1000000000 ≤ t.nano := by omega
  simp only [toRfc3339, text, CivilTime.toRfc3339, parts_eq, yearOf, CivilTime.reading, reading, seconds, days,
    ofDay, rest, plain, if_false, date, List.flatten_cons]

end Text

end UtcTime
