import BankingLedger.Shared.Runs
import Mathlib.Data.Multiset.AddSub

set_option autoImplicit false

namespace MessagePassing

open Runs

/-- `T` is what the receiver finds of the outside when the message arrives, such as the time. -/
structure System (S R M T : Type) where
  request : S → R → S × Multiset M
  receive : T → S → M → S × Multiset M

structure Network (S M : Type) where
  state : S
  inFlight : Multiset M

inductive Event (R M T : Type) where
  | request (r : R)
  | deliver (message : M) (now : T)
deriving DecidableEq

variable {S R M T : Type} [DecidableEq M] {sys : System S R M T} {allowed : S → R → Prop}

def Network.sends (n : Network S M) (answer : S × Multiset M) : Network S M where
  state := answer.1
  inFlight := answer.2 + n.inFlight

def Network.without (message : M) (n : Network S M) : Network S M :=
  { n with inFlight := n.inFlight.erase message }

namespace System

/-- Every message is delivered at most once. -/
def once (sys : System S R M T) (n : Network S M) : Event R M T → Network S M
  | .request r => n.sends (sys.request n.state r)
  | .deliver message now => (n.without message).sends (sys.receive now n.state message)

/-- Every message may be delivered any number of times. -/
def again (sys : System S R M T) (n : Network S M) : Event R M T → Network S M
  | .request r => n.sends (sys.request n.state r)
  | .deliver message now => n.sends (sys.receive now n.state message)

end System

def Possible (allowed : S → R → Prop) (n : Network S M) : Event R M T → Prop
  | .request r => allowed n.state r
  | .deliver message _ => message ∈ n.inFlight

instance (allowed : S → R → Prop) [∀ s r, Decidable (allowed s r)] (n : Network S M) :
    ∀ e : Event R M T, Decidable (Possible allowed n e)
  | .request r => inferInstanceAs (Decidable (allowed n.state r))
  | .deliver message _ => inferInstanceAs (Decidable (message ∈ n.inFlight))

section Facts

/-- An invariant of the state, and a fact for each message that holds when it is sent and lasts. -/
structure Truthful (sys : System S R M T) (allowed : S → R → Prop) (Inv : S → Prop) (Fact : S → M → Prop) :
    Prop where
  request : ∀ s r, Inv s → allowed s r →
    Inv (sys.request s r).1 ∧ (∀ message ∈ (sys.request s r).2, Fact (sys.request s r).1 message) ∧
      ∀ message, Fact s message → Fact (sys.request s r).1 message
  receive : ∀ now s message, Inv s → Fact s message →
    Inv (sys.receive now s message).1 ∧
      (∀ sent ∈ (sys.receive now s message).2, Fact (sys.receive now s message).1 sent) ∧
      ∀ other, Fact s other → Fact (sys.receive now s message).1 other

structure Told (Inv : S → Prop) (Fact : S → M → Prop) (n : Network S M) : Prop where
  state : Inv n.state
  inFlight : ∀ message ∈ n.inFlight, Fact n.state message

variable {Inv : S → Prop} {Fact : S → M → Prop} {n : Network S M}

omit [DecidableEq M] in
theorem Told.sends (told : Told Inv Fact n) {answer : S × Multiset M} (inv : Inv answer.1)
    (sent : ∀ message ∈ answer.2, Fact answer.1 message)
    (lasts : ∀ message, Fact n.state message → Fact answer.1 message) : Told Inv Fact (n.sends answer) where
  state := inv
  inFlight message member := (Multiset.mem_add.mp member).elim (sent message)
    fun old => lasts message (told.inFlight message old)

omit [DecidableEq M] in
theorem Truthful.step (truthful : Truthful sys allowed Inv Fact) (told : Told Inv Fact n) (e : Event R M T)
    (possible : Possible allowed n e) : Told Inv Fact (sys.again n e) := by
  cases e with
  | request r =>
    have next := truthful.request n.state r told.state possible
    exact told.sends next.1 next.2.1 next.2.2
  | deliver message now =>
    have next := truthful.receive now n.state message told.state (told.inFlight message possible)
    exact told.sends next.1 next.2.1 next.2.2

omit [DecidableEq M] in
theorem Truthful.run (truthful : Truthful sys allowed Inv Fact) (told : Told Inv Fact n)
    {events : List (Event R M T)} (possible : Meets sys.again (Possible allowed) n events) :
    Told Inv Fact (Runs.run sys.again n events) :=
  have keep (n : Network S M) (e : Event R M T) (told : Told Inv Fact n) (possible : Possible allowed n e) :
      Told Inv Fact (sys.again n e) := truthful.step told e possible
  run_keeps keep n events possible told

end Facts

end MessagePassing
