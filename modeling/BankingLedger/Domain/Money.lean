import BankingLedger.Shared.BoundedDecimal
import BankingLedger.Shared.MachineInt

set_option autoImplicit false

namespace BankingLedger

open MachineInt BoundedDecimal

/-- The numbers of `rust_decimal`. -/
def decimal96 : Format := { bound := 2 ^ 96, maxScale := 28 }

-- Each panic is a `none` of its own, apart from the `None` that the conversion returns.
structure RustDecimal extends Arithmetic decimal96 where
  toI64 : Dec decimal96 → Option Int64

structure RustDecimal.Lawful (rd : RustDecimal) : Prop extends rd.toArithmetic.Lawful where
  toI64_of_whole : ∀ (d : Dec decimal96) (n : ℤ), d.value = n →
    rd.toI64 d = if InRange n then some (Int64.ofInt n) else none

/-- A power that overflows panics with overflow checks and wraps without. -/
inductive Build where
  | debug
  | release
deriving DecidableEq, Repr

def Build.pow : Build → UInt64 → Nat → Option UInt64
  | .debug, a, n => powTrapping a n
  | .release, a, n => some (powWrapping a n)

structure Currency where
  code : String
  name : String
  minorUnit : UInt8
  symbol : String
  numericCode : UInt16
deriving DecidableEq

namespace Currency

def usd : Currency where
  code := "USD"
  name := "US Dollar"
  minorUnit := 2
  symbol := "$"
  numericCode := 840

def subunitsPerUnit (build : Build) (currency : Currency) : Option UInt64 :=
  build.pow 10 currency.minorUnit.toNat

end Currency

structure Money where
  amount : Dec decimal96
  currency : Currency

-- `Decimal::from` of an unsigned, and `from_i128_with_scale` of a signed integer.
def decimalOfUInt64 (n : UInt64) : Dec decimal96 :=
  .ofInt n.toNat (Nat.lt_of_lt_of_le n.toNat_lt (by decide))

theorem natAbs_toInt_lt (n : Int64) : n.toInt.natAbs < decimal96.bound := by
  have := bounds n
  change n.toInt.natAbs < 2 ^ 96
  omega

def decimalOfInt64 (n : Int64) : Dec decimal96 := .ofInt n.toInt (natAbs_toInt_lt n)

namespace Money

def fromMinor (rd : RustDecimal) (build : Build) (amountCents : Int64) (currency : Currency) : Option Money := do
  let subunits ← currency.subunitsPerUnit build
  let amount ← rd.div (decimalOfInt64 amountCents) (decimalOfUInt64 subunits)
  return { amount, currency }

def tryToMinor (rd : RustDecimal) (build : Build) (money : Money) : Option (Option Int64) := do
  let subunits ← money.currency.subunitsPerUnit build
  let scaled ← rd.mul money.amount (decimalOfUInt64 subunits)
  return rd.toI64 (rd.round scaled)

/-- `expect` panics where the conversion returns nothing. -/
def toMinor (rd : RustDecimal) (build : Build) (money : Money) : Option Int64 :=
  (money.tryToMinor rd build).join

/-- What the conversion is for: the amount in minor units, rounded half to even, if an `i64` holds it. -/
def minorUnits (money : Money) : Option Int64 :=
  let minor := roundHalfEven (money.amount.value * 10 ^ money.currency.minorUnit.toNat)
  if InRange minor then some (Int64.ofInt minor) else none

def Converts (rd : RustDecimal) (money : Money) : Prop :=
  ∀ build, money.tryToMinor rd build = some money.minorUnits

def ComesBack (rd : RustDecimal) (currency : Currency) (n : Int64) : Prop :=
  ∀ build, (fromMinor rd build n currency).bind (tryToMinor rd build) = some (some n)

def Fits (money : Money) : Prop :=
  money.currency.minorUnit.toNat ≤ money.amount.scale ∨
    money.amount.mantissa.natAbs * 10 ^ (money.currency.minorUnit.toNat - money.amount.scale) < 2 ^ 96

section Subunits

variable {currency : Currency}

theorem pow_ten_lt_iff (k : Nat) : 10 ^ k < 2 ^ 64 ↔ k ≤ 19 := by
  constructor
  · intro fits
    by_contra more
    have grows : 10 ^ 20 ≤ 10 ^ k := Nat.pow_le_pow_right (by decide) (by omega)
    omega
  · intro few
    have grows : 10 ^ k ≤ 10 ^ 19 := Nat.pow_le_pow_right (by decide) few
    omega

theorem powTrapping_ten (k : Nat) : powTrapping 10 k = if k ≤ 19 then some (powWrapping 10 k) else none := by
  rw [powTrapping_eq (by decide) k]
  exact if_congr (pow_ten_lt_iff k) rfl rfl

theorem subunitsPerUnit_of_le (few : currency.minorUnit.toNat ≤ 19) (build : Build) :
    ∃ subunits, currency.subunitsPerUnit build = some subunits ∧ subunits.toNat = 10 ^ currency.minorUnit.toNat := by
  refine ⟨powWrapping 10 currency.minorUnit.toNat, ?_, ?_⟩
  · cases build with
    | debug => exact (powTrapping_ten _).trans (if_pos few)
    | release => rfl
  · rw [toNat_powWrapping]
    exact Nat.mod_eq_of_lt ((pow_ten_lt_iff _).mpr few)

theorem subunitsPerUnit_debug (many : ¬currency.minorUnit.toNat ≤ 19) : currency.subunitsPerUnit .debug = none :=
  (powTrapping_ten _).trans (if_neg many)

theorem value_decimalOfUInt64 {subunits : UInt64} {k : Nat} (power : subunits.toNat = 10 ^ k) :
    (decimalOfUInt64 subunits).value = 10 ^ k := by
  rw [decimalOfUInt64, Dec.value_ofInt, power]
  push_cast
  rfl

end Subunits

section Conversion

variable {rd : RustDecimal} {money : Money} {currency : Currency} {build : Build}

theorem tryToMinor_of_subunits {subunits : UInt64} (known : money.currency.subunitsPerUnit build = some subunits) :
    money.tryToMinor rd build =
      (rd.mul money.amount (decimalOfUInt64 subunits)).map fun scaled => rd.toI64 (rd.round scaled) := by
  simp only [tryToMinor, known, Option.bind_eq_bind, Option.bind_some]
  cases rd.mul money.amount (decimalOfUInt64 subunits) <;> rfl

-- Where the product is exact, so are the rounding and the conversion.
theorem toI64_round (lawful : rd.Lawful) {scaled : Dec decimal96}
    (product : scaled.value = money.amount.value * 10 ^ money.currency.minorUnit.toNat) :
    rd.toI64 (rd.round scaled) = money.minorUnits := by
  have rounded := lawful.round_value scaled
  rw [product] at rounded
  exact lawful.toI64_of_whole _ _ rounded

theorem tryToMinor_of_fits (lawful : rd.Lawful) (few : money.currency.minorUnit.toNat ≤ 19)
    (representable : Representable decimal96 (money.amount.value * 10 ^ money.currency.minorUnit.toNat))
    (build : Build) : money.tryToMinor rd build = some money.minorUnits := by
  obtain ⟨subunits, known, power⟩ := subunitsPerUnit_of_le few build
  have factor := value_decimalOfUInt64 power
  rw [← factor] at representable
  obtain ⟨scaled, product, value⟩ := lawful.mul_exact _ _ representable
  rw [factor] at value
  rw [tryToMinor_of_subunits known, product, Option.map_some, toI64_round lawful value]

theorem tryToMinor_of_overflow (lawful : rd.Lawful) (few : money.currency.minorUnit.toNat ≤ 19)
    (large : ¬Representable decimal96 (money.amount.value * 10 ^ money.currency.minorUnit.toNat))
    (build : Build) : money.tryToMinor rd build = none := by
  obtain ⟨subunits, known, power⟩ := subunitsPerUnit_of_le few build
  have past := bound_le_of_not_representable large
  rw [← value_decimalOfUInt64 power] at past
  rw [tryToMinor_of_subunits known, lawful.mul_overflow _ _ past, Option.map_none]

theorem tryToMinor_debug (many : ¬money.currency.minorUnit.toNat ≤ 19) : money.tryToMinor rd .debug = none := by
  rw [tryToMinor, subunitsPerUnit_debug many]
  rfl

theorem fits_iff_representable :
    money.Fits ↔ Representable decimal96 (money.amount.value * 10 ^ money.currency.minorUnit.toNat) :=
  (representable_shift_iff money.amount money.currency.minorUnit.toNat).symm

theorem converts_iff (lawful : rd.Lawful) (money : Money) :
    money.Converts rd ↔ money.currency.minorUnit.toNat ≤ 19 ∧ money.Fits := by
  rw [fits_iff_representable]
  constructor
  · intro converts
    have few : money.currency.minorUnit.toNat ≤ 19 := by
      by_contra many
      have answer := converts .debug
      rw [tryToMinor_debug many] at answer
      cases answer
    refine ⟨few, ?_⟩
    by_contra large
    have answer := converts .debug
    rw [tryToMinor_of_overflow lawful few large] at answer
    cases answer
  · rintro ⟨few, representable⟩
    exact tryToMinor_of_fits lawful few representable

theorem fromMinor_of_le (lawful : rd.Lawful) (few : currency.minorUnit.toNat ≤ 19) (build : Build) (n : Int64) :
    ∃ amount : Dec decimal96, fromMinor rd build n currency = some { amount, currency } ∧
      amount.value * 10 ^ currency.minorUnit.toNat = (n.toInt : ℚ) := by
  obtain ⟨subunits, known, power⟩ := subunitsPerUnit_of_le few build
  have factor := value_decimalOfUInt64 power
  have nonzero : (decimalOfUInt64 subunits).value ≠ 0 := by
    rw [factor]
    exact (natCast_pow_ten_pos _).ne'
  have scale : currency.minorUnit.toNat ≤ decimal96.maxScale := Nat.le_trans few (by decide)
  have representable : Representable decimal96 ((decimalOfInt64 n).value / (decimalOfUInt64 subunits).value) := by
    rw [factor, decimalOfInt64, Dec.value_ofInt]
    exact ⟨⟨n.toInt, currency.minorUnit.toNat, natAbs_toInt_lt n, scale⟩, rfl⟩
  obtain ⟨amount, quotient, value⟩ := lawful.div_exact _ _ nonzero representable
  refine ⟨amount, ?_, ?_⟩
  · simp only [fromMinor, known, quotient, Option.bind_eq_bind, Option.bind_some]
    rfl
  · rw [value, factor, decimalOfInt64, Dec.value_ofInt]
    exact div_mul_cancel₀ _ (natCast_pow_ten_pos _).ne'

theorem comesBack_iff (lawful : rd.Lawful) (n : Int64) :
    ComesBack rd currency n ↔ currency.minorUnit.toNat ≤ 19 := by
  constructor
  · intro comesBack
    by_contra many
    have answer := comesBack .debug
    rw [fromMinor, subunitsPerUnit_debug many] at answer
    cases answer
  · intro few build
    obtain ⟨amount, money, value⟩ := fromMinor_of_le lawful few build n
    have whole : Representable decimal96 (amount.value * 10 ^ currency.minorUnit.toNat) := by
      rw [value]
      exact representable_intCast_iff.mpr (natAbs_toInt_lt n)
    have inside : InRange n.toInt := by
      have := bounds n
      simp only [InRange, Int64.toInt_minValue, Int64.toInt_maxValue]
      omega
    rw [money, Option.bind_some, tryToMinor_of_fits lawful few whole, minorUnits, value, roundHalfEven_intCast,
      if_pos inside, Int64.ofInt_toInt]

/-- The conversion is exact, and panics in no build, exactly if the currency has at most 19 decimals and the
product with the subunits fits the mantissa. Amounts made from minor units come back exactly if the currency
has at most 19 decimals. -/
theorem minor_units_iff (rd : RustDecimal) (lawful : rd.Lawful) (currency : Currency) :
    (∀ amount, Converts rd { amount, currency } ↔
      currency.minorUnit.toNat ≤ 19 ∧ Fits { amount, currency }) ∧
    ∀ n, ComesBack rd currency n ↔ currency.minorUnit.toNat ≤ 19 :=
  ⟨fun amount => converts_iff lawful { amount, currency }, fun n => comesBack_iff lawful n⟩

theorem toMinor_of_converts (converts : money.Converts rd) (build : Build) :
    money.toMinor rd build = money.minorUnits := by
  rw [toMinor, converts build, Option.join_some]

end Conversion

namespace Sample

-- Truncation, for the conversion of a number that is not whole.
def exactDecimals : RustDecimal where
  toArithmetic := exactArithmetic decimal96
  toI64 d :=
    let whole := d.mantissa.tdiv (10 ^ d.scale)
    if InRange whole then some (Int64.ofInt whole) else none

theorem exactDecimals_lawful : exactDecimals.Lawful where
  toLawful := exactArithmetic_lawful decimal96
  toI64_of_whole d n value := by
    have mantissa := d.value_mul_pow
    rw [value] at mantissa
    have product : d.mantissa = n * 10 ^ d.scale := by exact_mod_cast mantissa.symm
    have whole : d.mantissa.tdiv (10 ^ d.scale) = n := by
      rw [product, Int.mul_tdiv_cancel _ (pow_ne_zero _ (by decide))]
    simp only [exactDecimals, whole]

def salary : Money := { amount := ⟨123455, 3, by decide, by decide⟩, currency := .usd }

def maximum : Money := { amount := ⟨2 ^ 96 - 1, 0, by decide, by decide⟩, currency := .usd }

end Sample

open Money.Sample

theorem minor_units_iff_salary : (∀ build, salary.tryToMinor exactDecimals build = some (some 12346)) ∧
    ComesBack exactDecimals .usd (-12346) := by
  have exactly := minor_units_iff exactDecimals exactDecimals_lawful .usd
  have converts : salary.Converts exactDecimals := (exactly.1 salary.amount).mpr ⟨by decide, .inl (by decide)⟩
  have minor : salary.minorUnits = some 12346 := by decide +kernel
  exact ⟨fun build => minor ▸ converts build, (exactly.2 (-12346)).mpr (by decide)⟩

/-- The product with the subunits panics before the conversion could return nothing. -/
theorem maximum_panics :
    maximum.minorUnits = none ∧ (∀ build, maximum.tryToMinor exactDecimals build = none) ∧
      ¬maximum.Converts exactDecimals := by
  have panics : ∀ build, maximum.tryToMinor exactDecimals build = none := by
    intro build
    cases build <;> decide +kernel
  refine ⟨by decide +kernel, panics, fun converts => ?_⟩
  have answer := converts .release
  rw [panics .release] at answer
  cases answer

end Money

end BankingLedger
