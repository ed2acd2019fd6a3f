import BankingLedger.Shared.CompareAndSwap
import BankingLedger.Shared.MachineInt

set_option autoImplicit false

namespace BankingLedger

open CompareAndSwap Interleaving MachineInt

def atomicDebitRound : Round Int64 Int64 (Except String Int64) := fun amount current =>
  if current < amount then .error (.error "Insufficient funds")
  else .ok (current - amount, .ok (current - amount))

def debitOnce (amount balance : Int64) : Except String Int64 × Int64 :=
  if balance < amount then (.error "Insufficient funds", balance) else (.ok (balance - amount), balance - amount)

theorem once_atomicDebit (amount balance : Int64) :
    once atomicDebitRound amount balance = debitOnce amount balance := by
  unfold once atomicDebitRound debitOnce
  split_ifs <;> rfl

abbrev DebitCall : Type := CompareAndSwap.Call Int64 Int64 (Except String Int64)

def withdrawn (amount : Int64) : Except String Int64 → Int
  | .ok _ => amount.toInt
  | .error _ => 0

def DebitCall.debited (call : DebitCall) : Int := call.point.reply.elim 0 (withdrawn call.argument)

variable {I : Type} [Fintype I] [DecidableEq I]

structure DebitsAddUp (initial : Int64) (c : Config I Int64 DebitCall) : Prop where
  covered : 0 ≤ c.shared.toInt
  sum : c.shared.toInt + ∑ i, DebitCall.debited (c.thread i) = initial.toInt
  amounts : ∀ i, 0 ≤ (c.thread i).argument.toInt
  computed : ∀ i, (c.thread i).Computed atomicDebitRound

theorem debitOnce_exact {amount balance new : Int64} {reply : Except String Int64} (nonneg : 0 ≤ amount.toInt)
    (covered : 0 ≤ balance.toInt) (outcome : debitOnce amount balance = (reply, new)) :
    0 ≤ new.toInt ∧ new.toInt + withdrawn amount reply = balance.toInt := by
  unfold debitOnce at outcome
  split_ifs at outcome with short
  next =>
    cases outcome
    exact ⟨covered, Int.add_zero _⟩
  next =>
    cases outcome
    rw [Int64.lt_iff_toInt_lt, Int.not_lt] at short
    have := bounds balance
    rw [withdrawn, toInt_sub_of_bounds (by omega) (by omega)]
    exact ⟨by omega, by omega⟩

theorem debited_of_running {call : DebitCall} (running : ¬call.Returned) : call.debited = 0 := by
  rw [CompareAndSwap.Call.Returned, Option.not_isSome_iff_eq_none] at running
  rw [DebitCall.debited, running, Option.elim_none]

theorem DebitsAddUp.running {initial : Int64} {c : Config I Int64 DebitCall} {i : I} {call : DebitCall}
    (adds : DebitsAddUp initial c) (before : ¬(c.thread i).Returned) (after : ¬call.Returned)
    (same : call.argument = (c.thread i).argument) (computed : call.Computed atomicDebitRound) :
    DebitsAddUp initial { shared := c.shared, thread := Function.update c.thread i call } where
  covered := adds.covered
  sum := by
    rw [sum_update (fun _ call => DebitCall.debited call), debited_of_running before, debited_of_running after,
      Int.sub_zero, Int.add_zero]
    exact adds.sum
  amounts := forall_update (fun _ (call : DebitCall) => 0 ≤ call.argument.toInt) (same ▸ adds.amounts i) adds.amounts
  computed := forall_update (fun _ (call : DebitCall) => call.Computed atomicDebitRound) computed adds.computed

theorem DebitsAddUp.step {initial balance : Int64} {c : Config I Int64 DebitCall} {i : I} {call : DebitCall}
    (adds : DebitsAddUp initial c)
    (taken : CompareAndSwap.step atomicDebitRound c.shared (c.thread i) = some (balance, call)) :
    DebitsAddUp initial { shared := balance, thread := Function.update c.thread i call } := by
  have move := move_of_step (adds.computed i) taken
  cases move with
  | loaded new reply point computed =>
    refine adds.running (unreturned_of_point point rfl) Bool.false_ne_true rfl ?_
    intro current new' reply' same
    cases same
    exact computed
  | retried current new reply point changed =>
    refine adds.running (unreturned_of_point point rfl) Bool.false_ne_true rfl ?_
    intro current' new' reply' same
    cases same
  | returned reply new running outcome =>
    rw [once_atomicDebit] at outcome
    obtain ⟨covered, exact⟩ := debitOnce_exact (adds.amounts i) adds.covered outcome
    refine ⟨covered, ?_, ?_, ?_⟩
    · have total := adds.sum
      rw [sum_update (fun _ call => DebitCall.debited call), debited_of_running running]
      change balance.toInt + (_ + (withdrawn (c.thread i).argument reply - 0)) = _
      omega
    · exact forall_update (fun _ (call : DebitCall) => 0 ≤ call.argument.toInt) (adds.amounts i) adds.amounts
    · refine forall_update (fun _ (call : DebitCall) => call.Computed atomicDebitRound) ?_ adds.computed
      intro current new' reply' same
      cases same

omit [DecidableEq I] in
theorem start_adds {initial : Int64} {amount : I → Int64} (covered : 0 ≤ initial) (nonneg : ∀ i, 0 ≤ amount i) :
    DebitsAddUp initial (start initial amount) where
  covered := Int64.le_iff_toInt_le.mp covered
  sum := by
    have nothing : ∑ i : I, DebitCall.debited ((start initial amount).thread i) = 0 := Finset.sum_eq_zero fun i _ => rfl
    rw [nothing, Int.add_zero]
    rfl
  amounts i := Int64.le_iff_toInt_le.mp (nonneg i)
  computed i current new reply same := by cases same

structure DebitsAtomic (initial : Int64) (amount : I → Int64) (schedule : List I) : Prop where
  linear : Linearized atomicDebitRound initial amount
    ((system atomicDebitRound).run (start initial amount) schedule) (order atomicDebitRound initial amount schedule)
  realTime : ∀ first second, schedule = first ++ second →
    order atomicDebitRound initial amount first <+: order atomicDebitRound initial amount schedule
  returns : ∀ i, 2 * Fintype.card I ≤ schedule.count i →
    (((system atomicDebitRound).run (start initial amount) schedule).thread i).Returned
  money : 0 ≤ initial → (∀ i, 0 ≤ amount i) →
    let reached := (system atomicDebitRound).run (start initial amount) schedule
    0 ≤ reached.shared.toInt ∧ reached.shared.toInt + ∑ i, DebitCall.debited (reached.thread i) = initial.toInt

/-- Whatever the schedule, debits of an atomic balance are one after the other, a debit returns after two rounds
for every caller, and what was taken and what is left make up what there was. -/
theorem atomic_debits_linearizable {I : Type} [Fintype I] [DecidableEq I] (initial : Int64) (amount : I → Int64)
    (schedule : List I) : DebitsAtomic initial amount schedule where
  linear := linearized atomicDebitRound initial amount schedule
  realTime first second split := by
    rw [split]
    exact order_prefix atomicDebitRound initial amount first second
  returns _ often := returned_of_count atomicDebitRound initial amount often
  money covered nonneg := by
    have adds : DebitsAddUp initial ((system atomicDebitRound).run (start initial amount) schedule) :=
      (system atomicDebitRound).run_invariant (fun c i balance call adds taken => adds.step taken) _ schedule
        (start_adds covered nonneg)
    exact ⟨adds.covered, adds.sum⟩

end BankingLedger
