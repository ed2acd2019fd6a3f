import BankingLedger.Domain.Money
import BankingLedger.Shared.Rounding

set_option autoImplicit false

namespace BankingLedger

open MachineInt BoundedDecimal Rounding

inductive RoundingStrategy where
  | midpointNearestEven
  | midpointAwayFromZero
  | midpointTowardZero
  | awayFromZero
  | toZero
deriving DecidableEq, Repr

-- As the library documents them.
def RoundingStrategy.rule : RoundingStrategy → Rule ℚ
  | .midpointNearestEven => halfEven
  | .midpointAwayFromZero => halfUp
  | .midpointTowardZero => halfDown
  | .awayFromZero => Rounding.awayFromZero
  | .toZero => Rounding.toZero

structure RoundingDecimal extends RustDecimal where
  add : Dec decimal96 → Dec decimal96 → Option (Dec decimal96)
  sub : Dec decimal96 → Dec decimal96 → Option (Dec decimal96)
  roundDpWithStrategy : Dec decimal96 → Nat → RoundingStrategy → Dec decimal96

structure RoundingDecimal.Lawful (rd : RoundingDecimal) : Prop extends library : rd.toRustDecimal.Lawful where
  roundDp_value : ∀ d scale strategy, (rd.roundDpWithStrategy d scale strategy).value =
    strategy.rule.atScale (10 ^ scale) d.value
  add_value : ∀ a b c, rd.add a b = some c → Representable decimal96 (a.value + b.value) → c.value = a.value + b.value
  sub_value : ∀ a b c, rd.sub a b = some c → Representable decimal96 (a.value - b.value) → c.value = a.value - b.value

inductive RoundingMode where
  | halfEven
  | halfUp
  | halfDown
  | up
  | down
  | ceiling
  | floor
deriving DecidableEq, Repr

namespace RoundingMode

def apply (rd : RoundingDecimal) (mode : RoundingMode) (value : Dec decimal96) (scale : Nat) : Dec decimal96 :=
  match mode with
  | .halfEven => rd.roundDpWithStrategy value scale .midpointNearestEven
  | .halfUp => rd.roundDpWithStrategy value scale .midpointAwayFromZero
  | .halfDown => rd.roundDpWithStrategy value scale .midpointTowardZero
  | .up => rd.roundDpWithStrategy value scale .awayFromZero
  | .down => rd.roundDpWithStrategy value scale .toZero
  | .ceiling =>
    if 0 ≤ value.mantissa then rd.roundDpWithStrategy value scale .awayFromZero
    else rd.roundDpWithStrategy value scale .toZero
  | .floor =>
    if 0 ≤ value.mantissa then rd.roundDpWithStrategy value scale .toZero
    else rd.roundDpWithStrategy value scale .awayFromZero

def rule : RoundingMode → Rule ℚ
  | .halfEven => Rounding.halfEven
  | .halfUp => Rounding.halfUp
  | .halfDown => Rounding.halfDown
  | .up => awayFromZero
  | .down => toZero
  | .ceiling => ceil
  | .floor => Rounding.floor

def opposite : RoundingMode → RoundingMode
  | .ceiling => .floor
  | .floor => .ceiling
  | mode => mode

def isDirected : RoundingMode → Bool
  | .up | .down | .ceiling | .floor => true
  | _ => false

variable {rd : RoundingDecimal} {mode : RoundingMode} {value : Dec decimal96} {scale : Nat}

theorem value_nonneg_iff {F : Format} {d : Dec F} : 0 ≤ d.mantissa ↔ 0 ≤ d.value := by
  rw [Dec.value, le_div_iff₀ (natCast_pow_ten_pos d.scale), zero_mul, Int.cast_nonneg_iff]

theorem apply_value (lawful : rd.Lawful) :
    (mode.apply rd value scale).value = mode.rule.atScale (10 ^ scale) value.value := by
  have positive : 0 < 10 ^ scale := Nat.pow_pos (by decide)
  cases mode with
  | halfEven => exact lawful.roundDp_value value scale .midpointNearestEven
  | halfUp => exact lawful.roundDp_value value scale .midpointAwayFromZero
  | halfDown => exact lawful.roundDp_value value scale .midpointTowardZero
  | up => exact lawful.roundDp_value value scale .awayFromZero
  | down => exact lawful.roundDp_value value scale .toZero
  | ceiling =>
    rw [apply]
    split_ifs with sign
    next =>
      have nonneg := value_nonneg_iff.mp sign
      rw [lawful.roundDp_value]
      exact directed_atScale_congr (by rw [decide_eq_false nonneg.not_gt, cond_false, cond_false]) positive
    next =>
      have negative := not_le.mp fun nonneg => sign (value_nonneg_iff.mpr nonneg)
      rw [lawful.roundDp_value]
      exact directed_atScale_congr (by rw [decide_eq_true negative, cond_true, cond_true]) positive
  | floor =>
    rw [apply]
    split_ifs with sign
    next =>
      have nonneg := value_nonneg_iff.mp sign
      rw [lawful.roundDp_value]
      exact directed_atScale_congr (by rw [decide_eq_false nonneg.not_gt, cond_false, cond_false]) positive
    next =>
      have negative := not_le.mp fun nonneg => sign (value_nonneg_iff.mpr nonneg)
      rw [lawful.roundDp_value]
      exact directed_atScale_congr (by rw [decide_eq_true negative, cond_true, cond_true]) positive

theorem rule_opposite (mode : RoundingMode) (x : ℚ) : mode.opposite.rule.toInt (-x) = -mode.rule.toInt x := by
  cases mode with
  | halfEven =>
    refine nearest_toInt_neg (fun n => ?_) x
    rw [← decide_not, decide_eq_decide]
    omega
  | halfUp =>
    refine nearest_toInt_neg (fun n => ?_) x
    rw [← decide_not, decide_eq_decide]
    omega
  | halfDown =>
    refine nearest_toInt_neg (fun n => ?_) x
    rw [← decide_not, decide_eq_decide]
    omega
  | up => exact directed_toInt_neg false true x
  | down => exact directed_toInt_neg true false x
  | ceiling => exact directed_toInt_neg false false x
  | floor => exact directed_toInt_neg true true x

theorem directed_finer (directed : mode.isDirected = true) {finer : Nat} (more : scale ≤ finer) (x : ℚ) :
    mode.rule.atScale (10 ^ scale) (mode.rule.atScale (10 ^ finer) x) = mode.rule.atScale (10 ^ scale) x := by
  have split : 10 ^ finer = 10 ^ scale * 10 ^ (finer - scale) := by rw [← pow_add, Nat.add_sub_cancel' more]
  have coarse : 0 < 10 ^ scale := Nat.pow_pos (by decide)
  have between : 0 < 10 ^ (finer - scale) := Nat.pow_pos (by decide)
  rw [split]
  cases mode with
  | halfEven | halfUp | halfDown => cases directed
  | up => exact directed_atScale_atScale between coarse x
  | down => exact directed_atScale_atScale between coarse x
  | ceiling => exact directed_atScale_atScale between coarse x
  | floor => exact directed_atScale_atScale between coarse x

end RoundingMode

inductive MoneyError where
  | currencyMismatch (expected got : String)
deriving DecidableEq, Repr

namespace Money

variable (rd : RoundingDecimal)

def round (mode : RoundingMode) (money : Money) : Money :=
  { money with amount := mode.apply rd money.amount money.currency.minorUnit.toNat }

def checkCurrency (money other : Money) : Except MoneyError Unit :=
  if money.currency.code ≠ other.currency.code then
    .error (.currencyMismatch money.currency.code other.currency.code)
  else .ok ()

-- A sum that overflows panics.
def combine (operation : Dec decimal96 → Dec decimal96 → Option (Dec decimal96)) (money rhs : Money) :
    Option (Except MoneyError Money) :=
  match money.checkCurrency rhs with
  | .error e => some (.error e)
  | .ok () => (operation money.amount rhs.amount).map fun amount => .ok { amount, currency := money.currency }

def add : Money → Money → Option (Except MoneyError Money) := combine rd.add

def sub : Money → Money → Option (Except MoneyError Money) := combine rd.sub

def minor (money : Money) : Nat := 10 ^ money.currency.minorUnit.toNat

variable {rd} {money money' : Money} {mode : RoundingMode}

theorem minor_pos (money : Money) : 0 < money.minor := Nat.pow_pos (by decide)

theorem round_value (lawful : rd.Lawful) :
    (money.round rd mode).amount.value = mode.rule.atScale money.minor money.amount.value :=
  RoundingMode.apply_value lawful

/-- Everything that a caller relies on when it rounds. -/
structure Rounds (rd : RoundingDecimal) (mode : RoundingMode) (money : Money) : Prop where
  exact : (money.round rd mode).amount.value * money.minor = mode.rule.toInt (money.amount.value * money.minor)
  minorUnits : money.currency.minorUnit.toNat ≤ 19 → ∀ build,
    (money.round rd mode).tryToMinor rd.toRustDecimal build =
      let n := mode.rule.toInt (money.amount.value * money.minor)
      if n.natAbs < 2 ^ 96 then some (if InRange n then some (Int64.ofInt n) else none) else none
  near : |(money.round rd mode).amount.value - money.amount.value| < 1 / money.minor
  kept : ∀ mode', ((money.round rd mode).round rd mode').amount.value = (money.round rd mode).amount.value
  mono : ∀ money' : Money, money'.currency = money.currency → money.amount.value ≤ money'.amount.value →
    (money.round rd mode).amount.value ≤ (money'.round rd mode).amount.value
  negated : ∀ money' : Money, money'.currency = money.currency → money'.amount.value = -money.amount.value →
    (money'.round rd mode.opposite).amount.value = -(money.round rd mode).amount.value
  finer : mode.isDirected = true → ∀ finer, money.currency.minorUnit.toNat ≤ finer →
    (mode.apply rd (mode.apply rd money.amount finer) money.currency.minorUnit.toNat).value =
      (money.round rd mode).amount.value
  sums : ∀ (money' : Money) mode' sum mode'', money'.currency = money.currency →
    (money.round rd mode).add rd (money'.round rd mode') = some (.ok sum) →
    Representable decimal96 ((money.round rd mode).amount.value + (money'.round rd mode').amount.value) →
    (sum.round rd mode'').amount.value = (money.round rd mode).amount.value + (money'.round rd mode').amount.value

theorem round_whole (lawful : rd.Lawful) (mode : RoundingMode) (money : Money) :
    (money.round rd mode).amount.value * money.minor = mode.rule.toInt (money.amount.value * money.minor) := by
  rw [round_value lawful, Rule.atScale_mul _ money.minor_pos]

-- The product is a whole number, which is exact as long as there is a mantissa for it.
theorem tryToMinor_of_whole (money : Money) (lawful : rd.Lawful) (few : money.currency.minorUnit.toNat ≤ 19) {n : ℤ}
    (whole : money.amount.value * money.minor = n) (build : Build) : money.tryToMinor rd.toRustDecimal build =
      if n.natAbs < 2 ^ 96 then some (if InRange n then some (Int64.ofInt n) else none) else none := by
  have scaled : money.amount.value * 10 ^ money.currency.minorUnit.toNat = n := by
    rw [← whole, minor]
    push_cast
    rfl
  have representable := representable_intCast_iff (F := decimal96) (n := n)
  by_cases small : n.natAbs < 2 ^ 96
  next =>
    rw [if_pos small, tryToMinor_of_fits lawful.library few (scaled ▸ representable.mpr small), minorUnits, scaled,
      roundHalfEven_intCast]
  next =>
    rw [if_neg small, tryToMinor_of_overflow lawful.library few (scaled ▸ mt representable.mp small)]

theorem round_of_whole (lawful : rd.Lawful) {n : ℤ} (whole : money.amount.value * money.minor = n) :
    (money.round rd mode).amount.value = money.amount.value := by
  have nonzero : (money.minor : ℚ) ≠ 0 := (Nat.cast_pos.mpr money.minor_pos).ne'
  rw [round_value lawful, Rule.atScale, whole, Rule.toInt_intCast, ← whole, mul_div_cancel_right₀ _ nonzero]

theorem combine_ok {operation : Dec decimal96 → Dec decimal96 → Option (Dec decimal96)} {sum : Money}
    (done : combine operation money money' = some (.ok sum)) :
    money.currency.code = money'.currency.code ∧ sum.currency = money.currency ∧
      operation money.amount money'.amount = some sum.amount := by
  rw [combine, checkCurrency] at done
  by_cases other : money.currency.code ≠ money'.currency.code
  next =>
    rw [if_pos other] at done
    cases done
  next =>
    rw [if_neg other] at done
    simp only [Option.map_eq_some_iff, Except.ok.injEq] at done
    obtain ⟨amount, result, rfl⟩ := done
    exact ⟨not_not.mp other, rfl, result⟩

/-- A mode rounds to minor units as it is named. What is rounded stays as it is, also in sums, and rounding keeps
the order of amounts. A negated amount is rounded by the opposite mode, and the directed modes may go through a
finer scale. -/
theorem money_rounds (rd : RoundingDecimal) (lawful : rd.Lawful) (mode : RoundingMode) (money : Money) :
    money.Rounds rd mode where
  exact := round_whole lawful mode money
  minorUnits few := by
    have whole : (money.round rd mode).amount.value * (money.round rd mode).minor =
        mode.rule.toInt (money.amount.value * money.minor) := round_whole lawful mode money
    exact tryToMinor_of_whole (money.round rd mode) lawful few whole
  near := by
    rw [round_value lawful]
    exact mode.rule.abs_atScale_sub_lt money.minor_pos _
  kept mode' := by
    rw [round_value lawful, round_value lawful]
    exact mode.rule.atScale_atScale mode'.rule money.minor_pos _
  mono money' same le := by
    rw [round_value lawful, round_value lawful, minor, minor, same]
    exact mode.rule.atScale_mono _ le
  negated money' same opposite := by
    rw [round_value lawful, round_value lawful, opposite, minor, minor, same, Rule.atScale, Rule.atScale, neg_mul,
      RoundingMode.rule_opposite, Int.cast_neg, neg_div]
  finer directed finer more := by
    rw [RoundingMode.apply_value lawful, RoundingMode.apply_value lawful, RoundingMode.directed_finer directed more,
      round_value lawful, minor]
  sums money' mode' sum mode'' same added fits := by
    obtain ⟨-, currency, result⟩ := combine_ok added
    have value := lawful.add_value _ _ _ result fits
    have first := round_whole lawful mode money
    have second := round_whole lawful mode' money'
    have units : sum.minor = money.minor := by rw [minor, currency, minor, round]
    have units' : money'.minor = money.minor := by rw [minor, same, minor]
    have whole : sum.amount.value * sum.minor = ((mode.rule.toInt (money.amount.value * money.minor) +
        mode'.rule.toInt (money'.amount.value * money'.minor) : ℤ) : ℚ) := by
      rw [units] at *
      rw [value, add_mul, first, Int.cast_add, ← second, units']
    rw [round_of_whole lawful whole, value]

namespace Sample

theorem representable_atScale {F : Format} (rule : Rule ℚ) (d : Dec F) (scale : ℕ) :
    Representable F (rule.atScale (10 ^ scale) d.value) := by
  rw [Rule.atScale, Nat.cast_pow, Nat.cast_ofNat]
  by_cases within : scale ≤ d.scale
  next =>
    have size : |d.value * 10 ^ scale| ≤ d.mantissa.natAbs := by
      have one : (1 : ℚ) ≤ 10 ^ (d.scale - scale) := one_le_pow₀ (by norm_num)
      rw [Dec.value_shift_within within, abs_div, abs_of_pos (natCast_pow_ten_pos _), Nat.cast_natAbs, Int.cast_abs]
      exact div_le_self (abs_nonneg _) one
    obtain ⟨low, high⟩ := abs_le.mp size
    have above : -(d.mantissa.natAbs : ℤ) ≤ rule.toInt (d.value * 10 ^ scale) :=
      rule.le_toInt (by exact_mod_cast low)
    have below : rule.toInt (d.value * 10 ^ scale) ≤ d.mantissa.natAbs :=
      rule.toInt_le (by rw [Int.cast_natCast]; exact high)
    have small := d.mantissa_lt
    exact ⟨⟨rule.toInt (d.value * 10 ^ scale), scale, by omega, within.trans d.scale_le⟩, rfl⟩
  next =>
    rw [Dec.value_shift_past (Nat.le_of_not_le within), Rule.toInt_intCast,
      ← Dec.value_shift_past (Nat.le_of_not_le within), mul_div_cancel_right₀ _ (natCast_pow_ten_pos scale).ne']
    exact ⟨d, rfl⟩

def exactRounding : RoundingDecimal where
  toRustDecimal := exactDecimals
  add a b := ofRat? decimal96 (a.value + b.value)
  sub a b := ofRat? decimal96 (a.value - b.value)
  roundDpWithStrategy d scale strategy := (ofRat? decimal96 (strategy.rule.atScale (10 ^ scale) d.value)).getD d

theorem exactRounding_lawful : exactRounding.Lawful where
  library := exactDecimals_lawful
  roundDp_value d scale strategy := by
    obtain ⟨rounded, found⟩ := ofRat?_of_representable (representable_atScale strategy.rule d scale)
    simp only [exactRounding, found, Option.getD_some]
    exact value_of_ofRat? found
  add_value a b c found _ := value_of_ofRat? found
  sub_value a b c found _ := value_of_ofRat? found

end Sample

open Money.Sample

theorem money_rounds_salary :
    (∀ build, (salary.round exactRounding .ceiling).tryToMinor exactRounding.toRustDecimal build = some (some 12346)) ∧
      |(salary.round exactRounding .ceiling).amount.value - salary.amount.value| < 1 / (100 : Nat) := by
  have rounds := money_rounds exactRounding exactRounding_lawful .ceiling salary
  refine ⟨fun build => ?_, rounds.near⟩
  rw [rounds.minorUnits (by decide) build]
  decide +kernel

-- Through a finer scale, the modes that look for the nearest number come to another one.
example : (Rounding.halfUp : Rule ℚ).toInt (((Rounding.halfUp : Rule ℚ).toInt (9 / 20 * 10) : ℚ) / 10) ≠
    (Rounding.halfUp : Rule ℚ).toInt (9 / 20) := by decide +kernel

end Money

end BankingLedger
