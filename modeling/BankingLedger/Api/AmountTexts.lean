import BankingLedger.Api.Reversal
import BankingLedger.Domain.Money
import BankingLedger.Shared.Delimited
import BankingLedger.Shared.FixedPoint

set_option autoImplicit false

namespace BankingLedger

open BoundedDecimal

namespace Currency

def eur : Currency where
  code := "EUR"
  name := "Euro"
  minorUnit := 2
  symbol := "€"
  numericCode := 978

def vnd : Currency where
  code := "VND"
  name := "Vietnamese Dong"
  minorUnit := 0
  symbol := "₫"
  numericCode := 704

def jpy : Currency where
  code := "JPY"
  name := "Japanese Yen"
  minorUnit := 0
  symbol := "¥"
  numericCode := 392

end Currency

/-- `print places` is the text of the format `:.places$`. -/
structure DecimalTexts extends RustDecimal where
  print : Nat → Dec decimal96 → String

-- What needs no more places is written out.
structure DecimalTexts.Lawful (rd : DecimalTexts) : Prop where
  decimals : rd.toRustDecimal.Lawful
  print_exact : ∀ (places : Nat) (d : Dec decimal96) (n : ℤ), d.value * 10 ^ places = n →
    rd.print places d = String.ofList (FixedPoint.print places n)

def resolveCurrency (rt : Runtime) (code : String) : Currency :=
  if rt.toUppercase code = "USD" then .usd
  else if rt.toUppercase code = "EUR" then .eur
  else if rt.toUppercase code = "VND" then .vnd
  else if rt.toUppercase code = "JPY" then .jpy
  else { code := rt.toUppercase code, name := code, minorUnit := 2, symbol := code, numericCode := 0 }

section Texts

variable (rd : DecimalTexts) (build : Build)

def formatMoney (amountCents : Int64) (currency : Currency) : Option String := do
  let money ← Money.fromMinor rd.toRustDecimal build amountCents currency
  return rd.print currency.minorUnit.toNat money.amount ++ " " ++ currency.code

def decimalFromMinor (amountCents : Int64) (currency : Currency) : Option String := do
  let money ← Money.fromMinor rd.toRustDecimal build amountCents currency
  return rd.print currency.minorUnit.toNat money.amount

def Account.balanceDisplay (a : Account) (currency : Currency) : Option String := do
  let money ← Money.fromMinor rd.toRustDecimal build a.balance currency
  return currency.symbol ++ " " ++ rd.print currency.minorUnit.toNat money.amount

structure AmountTexts where
  balanceFormatted : String
  balanceDecimal : String
  currencySymbol : String
  currencyDecimals : UInt8

def AmountTexts.fromAccount (a : Account) (currency : Currency) : Option AmountTexts := do
  let balanceFormatted ← formatMoney rd build a.balance currency
  let balanceDecimal ← decimalFromMinor rd build a.balance currency
  return { balanceFormatted, balanceDecimal, currencySymbol := currency.symbol, currencyDecimals := currency.minorUnit }

end Texts

section Resolved

variable {rt : Runtime} {code code' : String}

theorem resolveCurrency_code : (resolveCurrency rt code).code = rt.toUppercase code := by
  unfold resolveCurrency
  split_ifs <;> simp_all [Currency.usd, Currency.eur, Currency.vnd, Currency.jpy]

theorem resolveCurrency_minorUnit :
    (resolveCurrency rt code).minorUnit =
      if rt.toUppercase code = "VND" ∨ rt.toUppercase code = "JPY" then 0 else 2 := by
  unfold resolveCurrency
  split_ifs <;> simp_all [Currency.usd, Currency.eur, Currency.vnd, Currency.jpy]

end Resolved

section Printed

variable {rd : DecimalTexts} {build : Build} {currency currency' : Currency} {n n' : Int64}

theorem space_not_mem_print (places : Nat) (n : Int) : ' ' ∉ FixedPoint.print places n := by
  intro member
  rcases FixedPoint.mem_print member with minus | point | digit
  next => cases minus
  next => cases point
  next => cases digit

theorem fromMinor_print (lawful : rd.Lawful) (few : currency.minorUnit.toNat ≤ 19) (build : Build) (n : Int64) :
    ∃ amount, Money.fromMinor rd.toRustDecimal build n currency = some { amount, currency } ∧
      rd.print currency.minorUnit.toNat amount = String.ofList (FixedPoint.print currency.minorUnit.toNat n.toInt) := by
  obtain ⟨amount, money, value⟩ := Money.fromMinor_of_le lawful.decimals few build n
  exact ⟨amount, money, lawful.print_exact _ amount n.toInt value⟩

theorem decimalFromMinor_eq (lawful : rd.Lawful) (few : currency.minorUnit.toNat ≤ 19) :
    decimalFromMinor rd build n currency =
      some (String.ofList (FixedPoint.print currency.minorUnit.toNat n.toInt)) := by
  obtain ⟨amount, money, text⟩ := fromMinor_print lawful few build n
  rw [decimalFromMinor, money]
  exact congrArg some text

theorem formatMoney_eq (lawful : rd.Lawful) (few : currency.minorUnit.toNat ≤ 19) :
    formatMoney rd build n currency =
      some (String.ofList (FixedPoint.print currency.minorUnit.toNat n.toInt) ++ " " ++ currency.code) := by
  obtain ⟨amount, money, text⟩ := fromMinor_print lawful few build n
  rw [formatMoney, money]
  exact congrArg (fun text => some (text ++ " " ++ currency.code)) text

theorem balanceDisplay_eq (lawful : rd.Lawful) (few : currency.minorUnit.toNat ≤ 19) (a : Account) :
    a.balanceDisplay rd build currency =
      some (currency.symbol ++ " " ++ String.ofList (FixedPoint.print currency.minorUnit.toNat a.balance.toInt)) := by
  obtain ⟨amount, money, text⟩ := fromMinor_print lawful few build a.balance
  rw [Account.balanceDisplay, money]
  exact congrArg (fun text => some (currency.symbol ++ " " ++ text)) text

theorem print_inj {places places' : Nat} {m m' : Int}
    (same : FixedPoint.print places m = FixedPoint.print places' m') : m = m' ∧ places = places' := by
  have read := congrArg FixedPoint.read same
  rwa [FixedPoint.read_print, FixedPoint.read_print, Prod.mk.injEq] at read

-- The number is free of spaces, so it ends at the first of them.
theorem formatted_inj {places places' : Nat} {m m' : Int} {code code' : String}
    (same : String.ofList (FixedPoint.print places m) ++ " " ++ code =
      String.ofList (FixedPoint.print places' m') ++ " " ++ code') : m = m' ∧ places = places' ∧ code = code' := by
  have lists : FixedPoint.print places m ++ ' ' :: code.toList = FixedPoint.print places' m' ++ ' ' :: code'.toList := by
    simpa using congrArg String.toList same
  rw [Delimited.append_cons_inj_of_plain_left (space_not_mem_print _ _) (space_not_mem_print _ _)] at lists
  have numbers := print_inj lists.1
  exact ⟨numbers.1, numbers.2, String.toList_injective lists.2⟩

theorem displayed_inj {places places' : Nat} {m m' : Int} {symbol symbol' : String}
    (same : symbol ++ " " ++ String.ofList (FixedPoint.print places m) =
      symbol' ++ " " ++ String.ofList (FixedPoint.print places' m')) :
    m = m' ∧ places = places' ∧ symbol = symbol' := by
  have lists : symbol.toList ++ ' ' :: FixedPoint.print places m =
      symbol'.toList ++ ' ' :: FixedPoint.print places' m' := by
    simpa using congrArg String.toList same
  rw [Delimited.append_cons_inj_of_plain_right (space_not_mem_print _ _) (space_not_mem_print _ _)] at lists
  have numbers := print_inj lists.2
  exact ⟨numbers.1, numbers.2, String.toList_injective lists.1⟩

end Printed

section Responses

variable {rd : DecimalTexts} {build : Build} {rt : Runtime} {a b : Account}

theorem resolveCurrency_few (rt : Runtime) (code : String) : (resolveCurrency rt code).minorUnit.toNat ≤ 19 := by
  rw [resolveCurrency_minorUnit]
  split <;> decide

theorem fromAccount_eq (lawful : rd.Lawful) (build : Build) (rt : Runtime) (a : Account) :
    AmountTexts.fromAccount rd build a (resolveCurrency rt a.currency) = some
      { balanceFormatted :=
          String.ofList (FixedPoint.print (resolveCurrency rt a.currency).minorUnit.toNat a.balance.toInt) ++ " " ++
            rt.toUppercase a.currency
        balanceDecimal :=
          String.ofList (FixedPoint.print (resolveCurrency rt a.currency).minorUnit.toNat a.balance.toInt)
        currencySymbol := (resolveCurrency rt a.currency).symbol
        currencyDecimals := (resolveCurrency rt a.currency).minorUnit } := by
  have few := resolveCurrency_few rt a.currency
  rw [AmountTexts.fromAccount, formatMoney_eq lawful few, decimalFromMinor_eq lawful few, resolveCurrency_code]
  rfl

/-- The texts of a balance can be read back. Its decimals are those it is shown with, whatever the balance and the
code of the currency, and two accounts that are shown alike have the same balance: in the same currency where the
code is shown, under the same symbol where the symbol is. -/
theorem amounts_read_back (rd : DecimalTexts) (lawful : rd.Lawful) (build : Build) (rt : Runtime) (a : Account) :
    ∃ texts, AmountTexts.fromAccount rd build a (resolveCurrency rt a.currency) = some texts ∧
      FixedPoint.read texts.balanceDecimal.toList =
        ((AccountResponse.fromAccount rt a).balanceCents.toInt, texts.currencyDecimals.toNat) ∧
      (∀ b texts', AmountTexts.fromAccount rd build b (resolveCurrency rt b.currency) = some texts' →
        texts'.balanceFormatted = texts.balanceFormatted →
          (AccountResponse.fromAccount rt b).balanceCents = (AccountResponse.fromAccount rt a).balanceCents ∧
            (AccountResponse.fromAccount rt b).currency = (AccountResponse.fromAccount rt a).currency) ∧
      ∀ b : Account, b.balanceDisplay rd build (resolveCurrency rt b.currency) =
          a.balanceDisplay rd build (resolveCurrency rt a.currency) →
        b.balance = a.balance ∧
          (resolveCurrency rt b.currency).symbol = (resolveCurrency rt a.currency).symbol := by
  refine ⟨_, fromAccount_eq lawful build rt a, ?_, ?_, ?_⟩
  next =>
    rw [String.toList_ofList, FixedPoint.read_print]
    rfl
  next =>
    intro b texts' found same
    rw [fromAccount_eq lawful build rt b] at found
    cases found
    have parts := formatted_inj same
    exact ⟨Int64.toInt_inj.mp parts.1, parts.2.2⟩
  next =>
    intro b same
    rw [balanceDisplay_eq lawful (resolveCurrency_few rt _), balanceDisplay_eq lawful (resolveCurrency_few rt _)]
      at same
    have parts := displayed_inj (Option.some.inj same)
    exact ⟨Int64.toInt_inj.mp parts.1, parts.2.2⟩

end Responses

namespace AmountTexts.Sample

-- The places that are left out are cut off.
def exactTexts : DecimalTexts where
  toRustDecimal := Money.Sample.exactDecimals
  print places d := String.ofList (FixedPoint.print places ((d.mantissa * 10 ^ places).tdiv (10 ^ d.scale)))

theorem exactTexts_lawful : exactTexts.Lawful where
  decimals := Money.Sample.exactDecimals_lawful
  print_exact places d n exactly := by
    have mantissa := d.value_mul_pow
    have product : d.mantissa * 10 ^ places = n * 10 ^ d.scale := by
      have scaled : (d.mantissa : ℚ) * 10 ^ places = n * 10 ^ d.scale := by
        rw [← mantissa, ← exactly]
        ring
      exact_mod_cast scaled
    have whole : (d.mantissa * 10 ^ places).tdiv (10 ^ d.scale) = n := by
      rw [product, Int.mul_tdiv_cancel _ (pow_ne_zero _ (by decide))]
    simp only [exactTexts, whole]

def debt : Account := .new ⟨1⟩ .asset "USD" (-5) none
def liability : Account := .new ⟨2⟩ .liability "USD" (-5) none
def credit : Account := .new ⟨3⟩ .asset "USD" 5 none

end AmountTexts.Sample

open AmountTexts.Sample in
theorem amounts_read_back_debt : ∃ texts texts',
    AmountTexts.fromAccount exactTexts .release debt (resolveCurrency Sample.runtime "USD") = some texts ∧
      FixedPoint.read texts.balanceDecimal.toList = (-5, texts.currencyDecimals.toNat) ∧
      AmountTexts.fromAccount exactTexts .release liability (resolveCurrency Sample.runtime "USD") = some texts' ∧
      texts'.balanceFormatted = texts.balanceFormatted ∧
      (AccountResponse.fromAccount Sample.runtime liability).balanceCents =
        (AccountResponse.fromAccount Sample.runtime debt).balanceCents ∧
      credit.balanceDisplay exactTexts .release (resolveCurrency Sample.runtime "USD") ≠
        debt.balanceDisplay exactTexts .release (resolveCurrency Sample.runtime "USD") := by
  have shown := fromAccount_eq exactTexts_lawful .release Sample.runtime
  obtain ⟨texts, found, read, formatted, displayed⟩ :=
    amounts_read_back exactTexts exactTexts_lawful .release Sample.runtime debt
  have alike : texts = _ := Option.some.inj (found.symm.trans (shown debt))
  refine ⟨texts, _, found, read, shown liability, ?_, (formatted liability _ (shown liability) ?_).1, fun same => ?_⟩
  · rw [alike]
    rfl
  · rw [alike]
    rfl
  · have equal : (5 : Int64) = -5 := (displayed credit same).1
    exact absurd equal (by decide)

end BankingLedger
