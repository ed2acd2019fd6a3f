import BankingLedger.Api.Reversal

set_option autoImplicit false

namespace BankingLedger

open FiniteMap MachineInt AccountService

section Registry

variable {accounts : Accounts} {id : AccountId} {a : Account} {amount : Int64}

theorem performDebit_of_passes (found : accounts.lookup id = some a) (passes : a.DebitPasses amount) :
    performDebit accounts id amount =
      (.ok (a.balance - amount), accounts.insert id (a.shift (-amount))) := by
  simp only [performDebit, onAccount, found, Account.debit_of_passes passes]

theorem performDebit_of_refused (found : accounts.lookup id = some a) (refused : ¬ a.DebitPasses amount) :
    ∃ e, performDebit accounts id amount = (.error e, accounts) := by
  obtain ⟨e, result⟩ := Account.debit_of_refused refused
  refine ⟨e, ?_⟩
  simp only [performDebit, onAccount, found, result, insert_lookup_self found]

theorem performCredit_of_passes (found : accounts.lookup id = some a) (passes : a.CreditPasses amount) :
    performCredit accounts id amount =
      (.ok (a.balance + amount), accounts.insert id (a.shift amount)) := by
  simp only [performCredit, onAccount, found, Account.credit_of_passes passes]

theorem performCredit_of_strands (found : accounts.lookup id = some a) (strands : a.CreditStrands amount) :
    performCredit accounts id amount =
      (.error .overflow, accounts.insert id { a with balance := a.balance + amount }) := by
  simp only [performCredit, onAccount, found, Account.credit_of_strands strands]

theorem performCredit_of_refused (found : accounts.lookup id = some a) (refused : ¬ a.CreditPasses amount)
    (clean : ¬ a.CreditStrands amount) : ∃ e, performCredit accounts id amount = (.error e, accounts) := by
  obtain ⟨e, result⟩ := Account.credit_of_refused refused clean
  refine ⟨e, ?_⟩
  simp only [performCredit, onAccount, found, result, insert_lookup_self found]

theorem performCredit_of_missing (missing : accounts.lookup id = none) :
    performCredit accounts id amount = (.error (.accountNotFound id), accounts) := by
  simp only [performCredit, onAccount, missing]

end Registry

section Refund

namespace Account

variable {a : Account} {amount : Int64}

-- The balance after a debit is the integer difference: `fetch_sub` does not wrap around.
def DebitFits (a : Account) (amount : Int64) : Prop :=
  -9223372036854775808 ≤ a.balance.toInt - amount.toInt

theorem debited_balance_of_fits (positive : 0 < amount.toInt) (fits : a.DebitFits amount) :
    (a.shift (-amount)).balance.toInt = a.balance.toInt - amount.toInt := by
  have bounds := bounds a.balance
  rw [shift_balance, ← Int64.sub_eq_add_neg]
  exact toInt_sub_of_bounds fits (by omega)

theorem debited_balance_of_wraps (wraps : ¬ a.DebitFits amount) :
    (a.shift (-amount)).balance.toInt = a.balance.toInt - amount.toInt + 18446744073709551616 :=
  toInt_add_neg_of_wraps (Int.lt_of_not_ge wraps)

theorem debited_available (passes : a.DebitPasses amount) :
    (a.shift (-amount)).availableBalance.toInt = a.availableBalance.toInt - amount.toInt :=
  toInt_add_neg (pos_iff.mp passes.1) (Int64.le_iff_toInt_le.mp passes.2.2)

theorem shift_back (a : Account) (amount : Int64) : (a.shift (-amount)).shift amount = a := by
  rw [shift_shift, Int64.add_left_neg, shift_zero]

theorem refund_passes_iff (passes : a.DebitPasses amount) :
    (a.shift (-amount)).CreditPasses amount ↔ a.DebitFits amount := by
  have positive := pos_iff.mp passes.1
  have balance := bounds a.balance
  constructor
  · rintro ⟨-, -, fits, -⟩
    by_contra wraps
    have below : a.balance.toInt - amount.toInt < -9223372036854775808 := Int.lt_of_not_ge wraps
    rw [isSome_checkedAdd, debited_balance_of_wraps wraps] at fits
    omega
  · intro fits
    have available := bounds a.availableBalance
    refine ⟨passes.1, passes.2.1, ?_, ?_⟩
    · rw [isSome_checkedAdd, debited_balance_of_fits positive fits]
      omega
    · rw [isSome_checkedAdd, debited_available passes]
      omega

theorem refund_clean (passes : a.DebitPasses amount) : ¬ (a.shift (-amount)).CreditStrands amount := by
  rintro ⟨-, -, -, overflow⟩
  have available := bounds a.availableBalance
  rw [checkedAdd_eq_none_iff, debited_available passes] at overflow
  omega

end Account

end Refund

section Movement

variable {req : TransferRequest} {accounts : Accounts} {a : Account}

theorem moveFunds_of_refused (found : accounts.lookup req.fromAccount = some a)
    (refused : ¬ a.DebitPasses req.amountCents) : (moveFunds req accounts).2 = accounts := by
  obtain ⟨e, result⟩ := performDebit_of_refused found refused
  simp only [moveFunds, result]

theorem moveFunds_of_credited {accounts' : Accounts} {balance : Int64}
    (found : accounts.lookup req.fromAccount = some a) (passes : a.DebitPasses req.amountCents)
    (credited : performCredit (accounts.insert req.fromAccount (a.shift (-req.amountCents)))
      req.toAccount req.amountCents = (.ok balance, accounts')) : (moveFunds req accounts).2 = accounts' := by
  simp only [moveFunds, performDebit_of_passes found passes, credited]

theorem moveFunds_of_uncredited {accounts' : Accounts} {e : CreditError}
    (found : accounts.lookup req.fromAccount = some a) (passes : a.DebitPasses req.amountCents)
    (uncredited : performCredit (accounts.insert req.fromAccount (a.shift (-req.amountCents)))
      req.toAccount req.amountCents = (.error e, accounts'))
    (debited : accounts'.lookup req.fromAccount = some (a.shift (-req.amountCents))) :
    (a.DebitFits req.amountCents → (moveFunds req accounts).2 = accounts'.insert req.fromAccount a) ∧
      (¬ a.DebitFits req.amountCents → (moveFunds req accounts).2 = accounts') := by
  have moved : (moveFunds req accounts).2 = (performCredit accounts' req.fromAccount req.amountCents).2 := by
    simp only [moveFunds, performDebit_of_passes found passes, uncredited]
  rw [moved]
  constructor
  · intro fits
    rw [performCredit_of_passes debited ((Account.refund_passes_iff passes).mpr fits), Account.shift_back]
  · intro wraps
    obtain ⟨e, refused⟩ := performCredit_of_refused debited
      (fun back => wraps ((Account.refund_passes_iff passes).mp back)) (Account.refund_clean passes)
    rw [refused]

end Movement

section Sums

def inCurrency (code : String) (a : Account) : Int := if a.currency = code then a.balance.toInt else 0

def sumIn (code : String) (accounts : Accounts) : Int := total (inCurrency code) accounts

theorem sumIn_insert {accounts : Accounts} {id : AccountId} {a : Account}
    (found : accounts.lookup id = some a) (code : String) (a' : Account) :
    sumIn code (accounts.insert id a') = sumIn code accounts + (inCurrency code a' - inCurrency code a) :=
  total_insert found a'

theorem inCurrency_own {a : Account} {code : String} (same : a.currency = code) :
    inCurrency code a = a.balance.toInt :=
  if_pos same

/-- The receiver, if it is another account, either refuses the credit and keeps its balance or takes it
in the sender's currency. -/
def ReceivesInKind (req : TransferRequest) (accounts : Accounts) (sender : Account) : Prop :=
  ∀ b, req.toAccount ≠ req.fromAccount → accounts.lookup req.toAccount = some b →
    ¬ b.CreditStrands req.amountCents ∧ (b.CreditPasses req.amountCents → b.currency = sender.currency)

variable {req : TransferRequest} {accounts : Accounts} {a b : Account}

theorem credited_balance {amount : Int64} (fits : (checkedAdd b.balance amount).isSome) :
    (b.balance + amount).toInt = b.balance.toInt + amount.toInt :=
  toInt_add_of_bounds (isSome_checkedAdd.mp fits).1 (isSome_checkedAdd.mp fits).2

theorem inCurrency_gain (b b' : Account) {amount : Int64} (currency : b'.currency = b.currency)
    (balance : b'.balance.toInt = b.balance.toInt + amount.toInt) (code : String) :
    inCurrency code b' - inCurrency code b = if b.currency = code then amount.toInt else 0 := by
  unfold inCurrency
  rw [currency, balance]
  split <;> omega

theorem sumIn_debited (found : accounts.lookup req.fromAccount = some a) (code : String) :
    sumIn code (accounts.insert req.fromAccount (a.shift (-req.amountCents))) = sumIn code accounts +
      (inCurrency code (a.shift (-req.amountCents)) - inCurrency code a) :=
  sumIn_insert found code _

-- The receiver's own balance can only have grown, so it does not hide the wrapped sender.
theorem wraps_not_conserved (found : accounts.lookup req.fromAccount = some a)
    (wraps : ¬ a.DebitFits req.amountCents) {accounts' : Accounts} (gain : Int) (gained : 0 ≤ gain)
    (sum : sumIn a.currency accounts' =
      sumIn a.currency (accounts.insert req.fromAccount (a.shift (-req.amountCents))) + gain) :
    ¬ ∀ code, sumIn code accounts' = sumIn code accounts := by
  intro conserved
  have same := conserved a.currency
  have bounds := bounds req.amountCents
  rw [sum, sumIn_debited found, inCurrency_own (show (a.shift _).currency = a.currency from rfl),
    inCurrency_own rfl, Account.debited_balance_of_wraps wraps] at same
  omega

theorem untouched_conserves_iff {e : CreditError} (found : accounts.lookup req.fromAccount = some a)
    (passes : a.DebitPasses req.amountCents)
    (uncredited : performCredit (accounts.insert req.fromAccount (a.shift (-req.amountCents)))
      req.toAccount req.amountCents =
        (.error e, accounts.insert req.fromAccount (a.shift (-req.amountCents)))) :
    (∀ code, sumIn code (moveFunds req accounts).2 = sumIn code accounts) ↔ a.DebitFits req.amountCents := by
  obtain ⟨refunded, kept⟩ := moveFunds_of_uncredited found passes uncredited (Finmap.lookup_insert _)
  by_cases fits : a.DebitFits req.amountCents
  · rw [refunded fits, Finmap.insert_insert, insert_lookup_self found]
    exact ⟨fun _ => fits, fun _ _ => rfl⟩
  · rw [kept fits]
    have broken := wraps_not_conserved found fits 0 le_rfl (add_zero _).symm
    exact ⟨fun conserved => absurd conserved broken, fun fits' => absurd fits' fits⟩

theorem self_conserves_iff (found : accounts.lookup req.fromAccount = some a)
    (passes : a.DebitPasses req.amountCents) (self : req.toAccount = req.fromAccount) :
    (∀ code, sumIn code (moveFunds req accounts).2 = sumIn code accounts) ↔ a.DebitFits req.amountCents := by
  have debited : (accounts.insert req.fromAccount (a.shift (-req.amountCents))).lookup req.toAccount =
      some (a.shift (-req.amountCents)) := by
    rw [self, Finmap.lookup_insert]
  by_cases fits : a.DebitFits req.amountCents
  · have back := performCredit_of_passes debited ((Account.refund_passes_iff passes).mpr fits)
    rw [moveFunds_of_credited found passes back, Account.shift_back, self, Finmap.insert_insert,
      insert_lookup_self found]
    exact ⟨fun _ => fits, fun _ _ => rfl⟩
  · obtain ⟨e, refused⟩ := performCredit_of_refused debited
      (fun back => fits ((Account.refund_passes_iff passes).mp back)) (Account.refund_clean passes)
    exact untouched_conserves_iff found passes refused

section Receiver

variable (found : accounts.lookup req.fromAccount = some a) (passes : a.DebitPasses req.amountCents)
  (other : req.toAccount ≠ req.fromAccount) (receiver : accounts.lookup req.toAccount = some b)

include other receiver

theorem receiver_after_debit :
    (accounts.insert req.fromAccount (a.shift (-req.amountCents))).lookup req.toAccount = some b := by
  rw [lookup_insert_eq, if_neg other]
  exact receiver

include found passes

theorem credited_conserves_iff (credits : b.CreditPasses req.amountCents) :
    (∀ code, sumIn code (moveFunds req accounts).2 = sumIn code accounts) ↔
      a.DebitFits req.amountCents ∧ b.currency = a.currency := by
  have found' := receiver_after_debit (a := a) other receiver
  have positive := pos_iff.mp passes.1
  have sum (code : String) := sumIn_insert found' code (b.shift req.amountCents)
  simp only [inCurrency_gain b (b.shift req.amountCents) rfl (credited_balance credits.2.2.1)] at sum
  rw [moveFunds_of_credited found passes (performCredit_of_passes found' credits)]
  by_cases fits : a.DebitFits req.amountCents
  · have lost (code : String) : sumIn code accounts =
        sumIn code (accounts.insert req.fromAccount (a.shift (-req.amountCents))) +
          if a.currency = code then req.amountCents.toInt else 0 := by
      have balance := Account.debited_balance_of_fits positive fits
      have gain : inCurrency code a - inCurrency code (a.shift (-req.amountCents)) =
          if a.currency = code then req.amountCents.toInt else 0 :=
        inCurrency_gain (a.shift (-req.amountCents)) a rfl (by omega) code
      rw [sumIn_debited found, ← gain]
      omega
    constructor
    · intro conserved
      refine ⟨fits, ?_⟩
      by_contra different
      have own := conserved a.currency
      rw [sum, lost, if_neg different, if_pos rfl] at own
      omega
    · rintro ⟨-, same⟩ code
      rw [sum, lost code, same]
  · have broken := wraps_not_conserved found fits _ (by split <;> omega) (sum a.currency)
    exact ⟨fun conserved => absurd conserved broken, fun both => absurd both.1 fits⟩

theorem stranded_not_conserved (strands : b.CreditStrands req.amountCents) :
    ¬ ∀ code, sumIn code (moveFunds req accounts).2 = sumIn code accounts := by
  have found' := receiver_after_debit (a := a) other receiver
  have positive := pos_iff.mp passes.1
  let b' := { b with balance := b.balance + req.amountCents }
  have sum (code : String) := sumIn_insert found' code b'
  simp only [inCurrency_gain b b' rfl (credited_balance strands.2.2.1)] at sum
  have debited : ((accounts.insert req.fromAccount (a.shift (-req.amountCents))).insert req.toAccount
      b').lookup req.fromAccount = some (a.shift (-req.amountCents)) := by
    rw [lookup_insert_eq, if_neg other.symm, Finmap.lookup_insert]
  obtain ⟨refunded, kept⟩ :=
    moveFunds_of_uncredited found passes (performCredit_of_strands found' strands) debited
  by_cases fits : a.DebitFits req.amountCents
  · intro conserved
    have own := conserved b.currency
    rw [refunded fits, sumIn_insert debited, sum, sumIn_debited found, if_pos rfl] at own
    omega
  · rw [kept fits]
    exact wraps_not_conserved found fits _ (by split <;> omega) (sum a.currency)

end Receiver

theorem moveFunds_conserves_iff (found : accounts.lookup req.fromAccount = some a)
    (passes : a.DebitPasses req.amountCents) :
    (∀ code, sumIn code (moveFunds req accounts).2 = sumIn code accounts) ↔
      a.DebitFits req.amountCents ∧ ReceivesInKind req accounts a := by
  by_cases self : req.toAccount = req.fromAccount
  · rw [self_conserves_iff found passes self]
    exact ⟨fun fits => ⟨fits, fun _ other => absurd self other⟩, fun both => both.1⟩
  · cases receiver : accounts.lookup req.toAccount with
    | none =>
      have missing : (accounts.insert req.fromAccount (a.shift (-req.amountCents))).lookup req.toAccount =
          none := by
        rw [lookup_insert_eq, if_neg self]
        exact receiver
      rw [untouched_conserves_iff found passes (performCredit_of_missing missing)]
      refine ⟨fun fits => ⟨fits, fun b _ found' => ?_⟩, fun both => both.1⟩
      rw [receiver] at found'
      cases found'
    | some b =>
      have kind : ReceivesInKind req accounts a ↔
          ¬ b.CreditStrands req.amountCents ∧ (b.CreditPasses req.amountCents → b.currency = a.currency) := by
        constructor
        · exact fun inKind => inKind b self receiver
        · intro inKind c _ found'
          rw [receiver] at found'
          cases found'
          exact inKind
      rw [kind]
      by_cases credits : b.CreditPasses req.amountCents
      · have clean : ¬ b.CreditStrands req.amountCents := by
          rintro ⟨-, -, -, overflow⟩
          have fits := credits.2.2.2
          rw [overflow] at fits
          cases fits
        rw [credited_conserves_iff found passes self receiver credits]
        exact ⟨fun both => ⟨both.1, clean, fun _ => both.2⟩, fun all => ⟨all.1, all.2.2 credits⟩⟩
      · by_cases strands : b.CreditStrands req.amountCents
        · have broken := stranded_not_conserved found passes self receiver strands
          exact ⟨fun conserved => absurd conserved broken, fun all => absurd strands all.2.1⟩
        · obtain ⟨e, refused⟩ := performCredit_of_refused (receiver_after_debit (a := a) self receiver)
            credits strands
          rw [untouched_conserves_iff found passes refused]
          exact ⟨fun fits => ⟨fits, strands, fun passes => absurd passes credits⟩, fun all => all.1⟩

end Sums

section Transfers

variable {rt : Runtime} {draws : Draws} {req : TransferRequest} {st : AppState}

theorem transfer_accounts_of_refused (refused : ¬ Journalled rt draws req st) :
    (transfer rt draws req st).2.accounts = st.accounts := by
  have outcome := transfer_outcome rt draws req st
  generalize transfer rt draws req st = result at outcome
  cases outcome with
  | refused e st' accounts => exact accounts
  | failed e reason st' journalled => exact absurd journalled refused
  | done response st' journalled => exact absurd journalled refused

theorem transfer_accounts_of_journalled (journalled : Journalled rt draws req st) :
    (transfer rt draws req st).2.accounts = (moveFunds req st.accounts).2 := by
  obtain ⟨admitted, sender, positive, text, serialized⟩ := journalled
  obtain ⟨a, found⟩ := Option.isSome_iff_exists.mp sender
  have written : ∃ block books, books.accounts = st.accounts ∧ journalTransfer rt draws req st.toBooks =
      (.ok (req.entry draws (st.journalSeq + 1), block), books) := by
    simp only [journalTransfer, TransferRequest.entry_accepted positive, serialized]
    refine ⟨_, _, ?_, rfl⟩
    rfl
  obtain ⟨block, books, same, written⟩ := written
  unfold transfer
  simp only [admitted, Bool.not_true, Bool.false_eq_true, if_false, getAccount, found, written, same]
  rcases moveFunds req st.accounts with ⟨_ | _, accounts⟩
  · rfl
  · simp only
    split <;> rfl

/-- A transfer leaves every currency's sum as it was exactly if, once it is journalled and its debit is
accepted, the debit does not wrap the balance around and the receiver takes the amount in kind. -/
theorem transfer_conserves_currencies_iff (rt : Runtime) (draws : Draws) (req : TransferRequest)
    (st : AppState) :
    (∀ code, sumIn code (transfer rt draws req st).2.accounts = sumIn code st.accounts) ↔
      (Journalled rt draws req st → ∀ a, st.accounts.lookup req.fromAccount = some a →
        a.DebitPasses req.amountCents →
          a.DebitFits req.amountCents ∧ ReceivesInKind req st.accounts a) := by
  by_cases journalled : Journalled rt draws req st
  · rw [transfer_accounts_of_journalled journalled]
    obtain ⟨a, found⟩ := Option.isSome_iff_exists.mp journalled.2.1
    by_cases passes : a.DebitPasses req.amountCents
    · rw [moveFunds_conserves_iff found passes]
      constructor
      · intro both _ b found' _
        rw [found] at found'
        cases found'
        exact both
      · exact fun all => all journalled a found passes
    · rw [moveFunds_of_refused found passes]
      refine ⟨fun _ _ b found' passes' => ?_, fun _ _ => rfl⟩
      rw [found] at found'
      cases found'
      exact absurd passes' passes
  · rw [transfer_accounts_of_refused journalled]
    exact ⟨fun _ reached => absurd reached journalled, fun _ _ => rfl⟩

end Transfers

namespace Sample

-- A dollar account and a yen account; 100 cents become 100 yen.
def dollarsAndYen : AppState :=
  { AppState.new runtime ⟨0⟩ with
    accounts := (∅ : Accounts).insert (uuid 1) (.new (uuid 1) .asset "USD" 1000 none)
      |>.insert (uuid 2) (.new (uuid 2) .asset "JPY" 0 none) }

end Sample

theorem transfer_turns_dollars_into_yen :
    let st' := (transfer Sample.runtime (Sample.draws 10) ⟨Sample.uuid 1, Sample.uuid 2, 100, none⟩
      Sample.dollarsAndYen).2
    sumIn "USD" Sample.dollarsAndYen.accounts = 1000 ∧ sumIn "JPY" Sample.dollarsAndYen.accounts = 0 ∧
      sumIn "USD" st'.accounts = 900 ∧ sumIn "JPY" st'.accounts = 100 := by
  decide +kernel

end BankingLedger
