import BankingLedger.Shared.MachineInt

set_option autoImplicit false

namespace BankingLedger

open MachineInt

def capped (attempt : UInt32) (baseMs maxMs : UInt64) : UInt64 :=
  let exponential := baseMs * powWrapping 2 attempt.toNat
  min exponential maxMs

-- With overflow checks, where an overflow panics. Release builds wrap in the power and in the product.
def cappedTrapping (attempt : UInt32) (baseMs maxMs : UInt64) : Option UInt64 := do
  let power ← powTrapping 2 attempt.toNat
  let exponential ← mulTrapping baseMs power
  return min exponential maxMs

/-- The jitter moves the delay up or down; both ends saturate. -/
def withJitter (delay : UInt64) (jitter : Int64) : UInt64 :=
  let jitterAbs := jitter.toInt.natAbs
  if jitter < 0 then UInt64.ofNat (delay.toNat - jitterAbs)
  else UInt64.ofNat (min (delay.toNat + jitterAbs) (2 ^ 64 - 1))

-- The jitter is drawn when the delay is known.
def exponentialBackoff (jitter : UInt64 → Int64) (attempt : UInt32) (baseMs maxMs : UInt64) : UInt64 :=
  let delay := capped attempt baseMs maxMs
  withJitter delay (jitter delay)

def exponentialBackoffTrapping (jitter : UInt64 → Int64) (attempt : UInt32) (baseMs maxMs : UInt64) :
    Option UInt64 :=
  (cappedTrapping attempt baseMs maxMs).map fun delay => withJitter delay (jitter delay)

variable {W T E : Type}

/-- How a call of `retry_with_backoff` ends: what it returns, what the operation has done to the world,
and how long the pauses were. -/
structure Retried (W T E : Type) where
  result : Except E T
  world : W
  slept : List UInt64

-- `delay` is `none` where the computation panics. The expectation after the loop panics if no
-- attempt was made.
def retryLoop (delay : UInt32 → Option UInt64) (operation : W → Except E T × W) (maxAttempts : UInt32) :
    List UInt32 → Option E → W → List UInt64 → Option (Retried W T E)
  | [], lastError, world, slept => lastError.map fun e => { result := .error e, world, slept }
  | attempt :: rest, _, world, slept =>
    match operation world with
    | (.ok value, world) => some { result := .ok value, world, slept }
    | (.error e, world) =>
      if attempt < maxAttempts - 1 then
        (delay attempt).bind fun pause =>
          retryLoop delay operation maxAttempts rest (some e) world (slept ++ [pause])
      else retryLoop delay operation maxAttempts rest (some e) world slept

def attempts (maxAttempts : UInt32) : List UInt32 :=
  (List.range maxAttempts.toNat).map UInt32.ofNat

def retryWithBackoff (jitter : UInt32 → UInt64 → Int64) (operation : W → Except E T × W)
    (maxAttempts : UInt32) (baseMs maxMs : UInt64) (world : W) : Option (Retried W T E) :=
  let delay attempt := some (exponentialBackoff (jitter attempt) attempt baseMs maxMs)
  retryLoop delay operation maxAttempts (attempts maxAttempts) none world []

def retryWithBackoffTrapping (jitter : UInt32 → UInt64 → Int64) (operation : W → Except E T × W)
    (maxAttempts : UInt32) (baseMs maxMs : UInt64) (world : W) : Option (Retried W T E) :=
  let delay attempt := exponentialBackoffTrapping (jitter attempt) attempt baseMs maxMs
  retryLoop delay operation maxAttempts (attempts maxAttempts) none world []

section Delays

variable {attempt : UInt32} {baseMs maxMs : UInt64}

theorem toNat_capped (attempt : UInt32) (baseMs maxMs : UInt64) : (capped attempt baseMs maxMs).toNat =
    min (baseMs.toNat * 2 ^ attempt.toNat % 2 ^ 64) maxMs.toNat := by
  rw [capped, toNat_min, UInt64.toNat_mul, toNat_powWrapping, Nat.mul_mod_mod]
  rfl

def BackoffFits (attempt : Nat) (baseMs : UInt64) : Prop :=
  attempt < 64 ∧ baseMs.toNat * 2 ^ attempt < 2 ^ 64

instance (attempt : Nat) (baseMs : UInt64) : Decidable (BackoffFits attempt baseMs) :=
  inferInstanceAs (Decidable (_ ∧ _))

theorem BackoffFits.earlier {early late : Nat} (fits : BackoffFits late baseMs) (before : early ≤ late) :
    BackoffFits early baseMs := by
  have grows : 2 ^ early ≤ 2 ^ late := Nat.pow_le_pow_right (by omega) before
  exact ⟨Nat.lt_of_le_of_lt before fits.1, Nat.lt_of_le_of_lt (Nat.mul_le_mul_left _ grows) fits.2⟩

theorem cappedTrapping_eq (attempt : UInt32) (baseMs maxMs : UInt64) :
    cappedTrapping attempt baseMs maxMs =
      if BackoffFits attempt.toNat baseMs then some (capped attempt baseMs maxMs) else none := by
  have power : powTrapping 2 attempt.toNat = _ := powTrapping_eq (by decide) attempt.toNat
  have two : (2 : UInt64).toNat = 2 := rfl
  have exponent : 2 ^ attempt.toNat < 2 ^ 64 ↔ attempt.toNat < 64 :=
    Nat.pow_lt_pow_iff_right (by omega)
  have value := toNat_powWrapping 2 attempt.toNat
  rw [cappedTrapping, power, two]
  rw [two] at value
  by_cases small : attempt.toNat < 64
  next =>
    rw [Nat.mod_eq_of_lt (exponent.mpr small)] at value
    rw [if_pos (exponent.mpr small), Option.bind_eq_bind, Option.bind_some, mulTrapping, value]
    by_cases fits : baseMs.toNat * 2 ^ attempt.toNat < 2 ^ 64
    next => rw [if_pos fits, if_pos ⟨small, fits⟩]; rfl
    next => rw [if_neg fits, if_neg fun both => fits both.2]; rfl
  next => rw [if_neg (mt exponent.mp small), if_neg fun both => small both.1]; rfl

theorem isSome_cappedTrapping :
    (cappedTrapping attempt baseMs maxMs).isSome ↔ BackoffFits attempt.toNat baseMs := by
  rw [cappedTrapping_eq]
  split <;> simp_all

theorem exponentialBackoffTrapping_eq (jitter : UInt64 → Int64) (attempt : UInt32) (baseMs maxMs : UInt64) :
    exponentialBackoffTrapping jitter attempt baseMs maxMs =
      if BackoffFits attempt.toNat baseMs then some (exponentialBackoff jitter attempt baseMs maxMs) else none := by
  rw [exponentialBackoffTrapping, cappedTrapping_eq]
  split <;> rfl

theorem isSome_exponentialBackoffTrapping (jitter : UInt64 → Int64) :
    (exponentialBackoffTrapping jitter attempt baseMs maxMs).isSome ↔ BackoffFits attempt.toNat baseMs := by
  rw [exponentialBackoffTrapping, Option.isSome_map, isSome_cappedTrapping]

/-- Nothing overflows, with or without checks, and the delay is the smaller of the unbounded product and
the cap. -/
def CappedExponential (attempt : UInt32) (baseMs maxMs : UInt64) : Prop :=
  cappedTrapping attempt baseMs maxMs = some (capped attempt baseMs maxMs) ∧
    (capped attempt baseMs maxMs).toNat = min (baseMs.toNat * 2 ^ attempt.toNat) maxMs.toNat

theorem toNat_capped_of_fits (fits : BackoffFits attempt.toNat baseMs) :
    (capped attempt baseMs maxMs).toNat = min (baseMs.toNat * 2 ^ attempt.toNat) maxMs.toNat := by
  rw [toNat_capped, Nat.mod_eq_of_lt fits.2]

theorem cappedExponential_iff :
    CappedExponential attempt baseMs maxMs ↔ BackoffFits attempt.toNat baseMs := by
  constructor
  · rintro ⟨computed, _⟩
    exact isSome_cappedTrapping.mp (by rw [computed, Option.isSome_some])
  · intro fits
    exact ⟨by rw [cappedTrapping_eq, if_pos fits], toNat_capped_of_fits fits⟩

theorem capped_mono {early late : UInt32} (before : early ≤ late) (fits : BackoffFits late.toNat baseMs) :
    capped early baseMs maxMs ≤ capped late baseMs maxMs := by
  have order := UInt32.le_iff_toNat_le.mp before
  have grows : 2 ^ early.toNat ≤ 2 ^ late.toNat := Nat.pow_le_pow_right (by omega) order
  have product := Nat.mul_le_mul_left baseMs.toNat grows
  rw [UInt64.le_iff_toNat_le, toNat_capped_of_fits fits, toNat_capped_of_fits (fits.earlier order)]
  omega

-- From the 64th attempt on the wrapped product is zero.
theorem capped_mono_iff : (∀ early late : UInt32, early ≤ late →
    capped early baseMs maxMs ≤ capped late baseMs maxMs) ↔ baseMs = 0 ∨ maxMs = 0 := by
  have first := toNat_capped 0 baseMs maxMs
  have wrapped := toNat_capped 64 baseMs maxMs
  have zero : baseMs.toNat * 2 ^ (64 : UInt32).toNat % 2 ^ 64 = 0 := Nat.mul_mod_left baseMs.toNat (2 ^ 64)
  constructor
  · intro mono
    have order := UInt64.le_iff_toNat_le.mp (mono 0 64 (by decide))
    rw [first, wrapped, zero] at order
    rw [← UInt64.toNat_inj, ← UInt64.toNat_inj]
    have bound := baseMs.toNat_lt
    simp only [UInt32.toNat_zero, Nat.pow_zero, Nat.mul_one, Nat.mod_eq_of_lt bound, UInt64.toNat_zero] at order ⊢
    omega
  · rintro (rfl | rfl) early late _
    · simp [UInt64.le_iff_toNat_le, toNat_capped]
    · simp [UInt64.le_iff_toNat_le, toNat_capped]

end Delays

section Retries

variable {delay : UInt32 → Option UInt64} {operation : W → Except E T × W} {maxAttempts : UInt32}
  {rest : List UInt32} {lastError : Option E} {world : W} {slept : List UInt64}

theorem retryLoop_isSome
    (ready : ∀ attempt ∈ rest, attempt < maxAttempts - 1 → (delay attempt).isSome)
    (tried : rest ≠ [] ∨ lastError.isSome) :
    (retryLoop delay operation maxAttempts rest lastError world slept).isSome := by
  induction rest generalizing lastError world slept with
  | nil => simpa [retryLoop] using tried
  | cons attempt rest ih =>
    have later := fun attempt member => ready attempt (List.mem_cons_of_mem _ member)
    unfold retryLoop
    cases operation world with
    | mk result next =>
      cases result with
      | ok value => rfl
      | error e =>
        by_cases pauses : attempt < maxAttempts - 1
        next =>
          have computed := ready attempt List.mem_cons_self pauses
          obtain ⟨pause, known⟩ := Option.isSome_iff_exists.mp computed
          simp only [pauses, if_true, known, Option.bind_some]
          exact ih later (.inr rfl)
        next =>
          simp only [pauses, if_false]
          exact ih later (.inr rfl)

theorem delay_isSome_of_failing {e : E} (failing : ∀ world, operation world = (.error e, world))
    (completed : (retryLoop delay operation maxAttempts rest lastError world slept).isSome) :
    ∀ attempt ∈ rest, attempt < maxAttempts - 1 → (delay attempt).isSome := by
  induction rest generalizing lastError slept with
  | nil => simp
  | cons first rest ih =>
    rw [retryLoop, failing] at completed
    by_cases pauses : first < maxAttempts - 1
    next =>
      cases computed : delay first with
      | none => simp [pauses, computed] at completed
      | some pause =>
        simp only [pauses, if_true, computed, Option.bind_some] at completed
        rintro attempt (_ | ⟨_, member⟩) early
        · rw [computed, Option.isSome_some]
        · exact ih completed attempt member early
    next =>
      simp only [pauses, if_false] at completed
      rintro attempt (_ | ⟨_, member⟩) early
      · exact absurd early pauses
      · exact ih completed attempt member early

theorem mem_attempts {attempt : UInt32} : attempt ∈ attempts maxAttempts ↔ attempt < maxAttempts := by
  have bound := maxAttempts.toNat_lt
  rw [attempts, List.mem_map, UInt32.lt_iff_toNat_lt]
  constructor
  · rintro ⟨k, member, rfl⟩
    have below := List.mem_range.mp member
    rwa [UInt32.toNat_ofNat_of_lt' (by exact Nat.lt_trans below bound)]
  · intro below
    exact ⟨attempt.toNat, List.mem_range.mpr below, UInt32.ofNat_toNat⟩

end Retries

/-- With overflow checks the retries come to an end whatever the operation and the jitter do. -/
def NeverPanics (maxAttempts : UInt32) (baseMs maxMs : UInt64) : Prop :=
  ∀ (W T E : Type) (jitter : UInt32 → UInt64 → Int64) (operation : W → Except E T × W) (world : W),
    (retryWithBackoffTrapping jitter operation maxAttempts baseMs maxMs world).isSome

-- The pauses that are asked for come after the attempts before the last.
theorem pauses_fit_iff {maxAttempts : UInt32} {baseMs : UInt64} (positive : 1 ≤ maxAttempts) :
    (∀ attempt ∈ attempts maxAttempts, attempt < maxAttempts - 1 → BackoffFits attempt.toNat baseMs) ↔
      maxAttempts = 1 ∨ BackoffFits (maxAttempts.toNat - 2) baseMs := by
  have last : (maxAttempts - 1).toNat = maxAttempts.toNat - 1 := UInt32.toNat_sub_of_le _ _ positive
  have single : maxAttempts = 1 ↔ maxAttempts.toNat = 1 := UInt32.toNat_inj.symm
  have bound := maxAttempts.toNat_lt
  have one : 1 ≤ maxAttempts.toNat := UInt32.le_iff_toNat_le.mp positive
  simp only [mem_attempts, UInt32.lt_iff_toNat_lt, last, single]
  constructor
  · intro fits
    by_cases only : maxAttempts.toNat = 1
    next => exact .inl only
    next =>
      have value : (UInt32.ofNat (maxAttempts.toNat - 2)).toNat = maxAttempts.toNat - 2 :=
        UInt32.toNat_ofNat_of_lt' (by simp only [UInt32.size]; omega)
      have latest := fits (UInt32.ofNat (maxAttempts.toNat - 2)) (by omega) (by omega)
      rw [value] at latest
      exact .inr latest
  · rintro (only | fits) attempt _ early
    · omega
    · exact fits.earlier (by omega)

theorem neverPanics_iff {maxAttempts : UInt32} {baseMs maxMs : UInt64} (positive : 1 ≤ maxAttempts) :
    NeverPanics maxAttempts baseMs maxMs ↔
      maxAttempts = 1 ∨ BackoffFits (maxAttempts.toNat - 2) baseMs := by
  rw [← pauses_fit_iff positive]
  constructor
  · intro never attempt member early
    have completed := never Unit Unit Unit (fun _ _ => 0) (fun world => (.error (), world)) ()
    have computed := delay_isSome_of_failing (fun _ => rfl) completed attempt member early
    exact (isSome_exponentialBackoffTrapping _).mp computed
  · intro fits W T E jitter operation world
    apply retryLoop_isSome
    case ready =>
      intro attempt member early
      exact (isSome_exponentialBackoffTrapping _).mpr (fits attempt member early)
    case tried =>
      have first : 0 ∈ attempts maxAttempts :=
        mem_attempts.mpr (UInt32.lt_iff_toNat_lt.mpr (UInt32.le_iff_toNat_le.mp positive))
      exact .inl (List.ne_nil_of_mem first)

theorem retryLoop_congr {delay delay' : UInt32 → Option UInt64} {operation : W → Except E T × W}
    {maxAttempts : UInt32} {rest : List UInt32} {lastError : Option E} {world : W} {slept : List UInt64}
    (agree : ∀ attempt ∈ rest, attempt < maxAttempts - 1 → delay attempt = delay' attempt) :
    retryLoop delay operation maxAttempts rest lastError world slept =
      retryLoop delay' operation maxAttempts rest lastError world slept := by
  induction rest generalizing lastError world slept with
  | nil => rfl
  | cons attempt rest ih =>
    have later {lastError : Option E} {world : W} {slept : List UInt64} :=
      @ih lastError world slept fun attempt member => agree attempt (List.mem_cons_of_mem _ member)
    unfold retryLoop
    cases operation world with
    | mk result next =>
      cases result with
      | ok value => rfl
      | error e =>
        by_cases pauses : attempt < maxAttempts - 1
        next => simp only [pauses, if_true, agree attempt List.mem_cons_self pauses, later]
        next => simp only [pauses, if_false, later]

-- Where nothing overflows the two builds do the same.
theorem retryWithBackoffTrapping_eq {maxAttempts : UInt32} {baseMs maxMs : UInt64}
    (positive : 1 ≤ maxAttempts) (never : NeverPanics maxAttempts baseMs maxMs)
    (jitter : UInt32 → UInt64 → Int64) (operation : W → Except E T × W) (world : W) :
    retryWithBackoffTrapping jitter operation maxAttempts baseMs maxMs world =
      retryWithBackoff jitter operation maxAttempts baseMs maxMs world := by
  have fits := (pauses_fit_iff positive).mpr ((neverPanics_iff positive).mp never)
  apply retryLoop_congr
  intro attempt member early
  rw [exponentialBackoffTrapping_eq, if_pos (fits attempt member early)]

/-- The delay before the jitter is the capped exponential, growing with the attempt, exactly as long as
the power and the product fit in 64 bits; the number of retries is limited by the same. -/
theorem backoff_capped_iff (baseMs maxMs : UInt64) :
    (∀ attempt, CappedExponential attempt baseMs maxMs ↔ BackoffFits attempt.toNat baseMs) ∧
    (∀ early late, early ≤ late → BackoffFits late.toNat baseMs →
      capped early baseMs maxMs ≤ capped late baseMs maxMs) ∧
    ((∀ early late : UInt32, early ≤ late → capped early baseMs maxMs ≤ capped late baseMs maxMs) ↔
      baseMs = 0 ∨ maxMs = 0) ∧
    ∀ maxAttempts, 1 ≤ maxAttempts →
      (NeverPanics maxAttempts baseMs maxMs ↔
        maxAttempts = 1 ∨ BackoffFits (maxAttempts.toNat - 2) baseMs) :=
  ⟨fun _ => cappedExponential_iff, fun _ _ => capped_mono, capped_mono_iff,
    fun _ positive => neverPanics_iff positive⟩

-- At the sixty-second attempt 100 ms have been shifted out of the word: no delay, or a panic.
theorem backoff_shifted_out :
    ¬ CappedExponential 62 100 5000 ∧ capped 62 100 5000 = 0 ∧ cappedTrapping 62 100 5000 = none := by
  have overflows : ¬ BackoffFits (62 : UInt32).toNat 100 := by decide
  refine ⟨fun law => overflows (cappedExponential_iff.mp law), ?_, ?_⟩
  · rw [← UInt64.toNat_inj, toNat_capped]
    rfl
  · rw [cappedTrapping_eq, if_neg overflows]

end BankingLedger
