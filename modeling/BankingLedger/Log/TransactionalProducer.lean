import BankingLedger.Log.EventBus

set_option autoImplicit false

namespace BankingLedger

open Interleaving

structure TransactionalProducer where
  producerId : String
  pending : List (String × String)
  inTransaction : Bool

namespace TransactionalProducer

def new (producerId : String) : TransactionalProducer where
  producerId
  pending := []
  inTransaction := false

def begin (p : TransactionalProducer) : TransactionalProducer :=
  { p with inTransaction := true, pending := [] }

def send (key payload : String) (p : TransactionalProducer) : TransactionalProducer :=
  if p.inTransaction then { p with pending := p.pending ++ [(key, payload)] } else p

-- `clock n` is the time of the `n`th message.
def publishAll (clock : Nat → Timestamp) (producerId : String) (bus : PartitionedEventBus) :
    List (String × String) → List UInt64 → List UInt64 × PartitionedEventBus
  | [], offsets => (offsets, bus)
  | (key, payload) :: rest, offsets =>
    let seq := 0
    let (offset, bus) := bus.produce (clock offsets.length) key payload producerId seq
    publishAll clock producerId bus rest (offsets ++ [offset])

def commit (clock : Nat → Timestamp) (p : TransactionalProducer) (bus : PartitionedEventBus) :
    Except String (List UInt64) × TransactionalProducer × PartitionedEventBus :=
  if !p.inTransaction then (.error "No transaction in progress", p, bus)
  else
    let (offsets, bus) := publishAll clock p.producerId bus p.pending []
    (.ok offsets, { p with inTransaction := false, pending := [] }, bus)

def abort (p : TransactionalProducer) : TransactionalProducer :=
  { p with inTransaction := false, pending := [] }

end TransactionalProducer

section Model

-- The number tells two sends of the same message apart.
structure SentMessage where
  number : Nat
  key : String
  payload : String
deriving DecidableEq, Repr

inductive SessionCall where
  | begin
  | send (key payload : String)
  | commit (clock : Nat → Timestamp)
  | abort

-- Only a commit returns anything; the others return the empty list here.
inductive TransactionAt where
  | start
  | clearing (aborts : Bool)
  | pushing (key payload : String)
  | copying (clock : Nat → Timestamp)
  | publishing (clock : Nat → Timestamp) (rest : List SentMessage) (offsets : List UInt64)
  | committing (offsets : List UInt64)
  | returned (result : Except String (List UInt64))

/-- `aborted` are the messages that had been discarded by an abort when the call started, `published`
those that the call has published. -/
structure TransactionThread where
  call : SessionCall
  at_ : TransactionAt
  aborted : List SentMessage
  published : List SentMessage

/-- The producer and the bus, with the copies that commits have taken, what they have published, what
they have cleared and what aborts have discarded. -/
structure TransactionState where
  producerId : String
  pending : List SentMessage
  inTransaction : Bool
  bus : PartitionedEventBus
  sends : Nat
  copied : List SentMessage
  published : List SentMessage
  committed : List SentMessage
  aborted : List SentMessage

def transactionStep (s : TransactionState) (l : TransactionThread) :
    Option (TransactionState × TransactionThread) :=
  match l.at_ with
  | .start =>
    match l.call with
    | .begin => some ({ s with inTransaction := true }, { l with at_ := .clearing false })
    | .send key payload =>
      if s.inTransaction then some (s, { l with at_ := .pushing key payload })
      else some (s, { l with at_ := .returned (.ok []) })
    | .commit clock =>
      if !s.inTransaction then some (s, { l with at_ := .returned (.error "No transaction in progress") })
      else some (s, { l with at_ := .copying clock, aborted := s.aborted, published := [] })
    | .abort => some ({ s with inTransaction := false }, { l with at_ := .clearing true })
  | .clearing aborts =>
    some ({ s with pending := [], aborted := if aborts then s.aborted ++ s.pending else s.aborted },
      { l with at_ := .returned (.ok []) })
  | .pushing key payload =>
    some ({ s with pending := s.pending ++ [⟨s.sends, key, payload⟩], sends := s.sends + 1 },
      { l with at_ := .returned (.ok []) })
  | .copying clock =>
    some ({ s with copied := s.copied ++ s.pending }, { l with at_ := .publishing clock s.pending [] })
  | .publishing clock (msg :: rest) offsets =>
    let seq := 0
    let (offset, bus) := s.bus.produce (clock offsets.length) msg.key msg.payload s.producerId seq
    some ({ s with bus, published := s.published ++ [msg] },
      { l with at_ := .publishing clock rest (offsets ++ [offset]), published := l.published ++ [msg] })
  | .publishing _ [] offsets => some ({ s with inTransaction := false }, { l with at_ := .committing offsets })
  | .committing offsets =>
    some ({ s with pending := [], committed := s.committed ++ s.pending },
      { l with at_ := .returned (.ok offsets) })
  | .returned _ => none

def transactors : System TransactionState TransactionThread := ⟨transactionStep⟩

variable {I : Type}

def transactionStart (producerId : String) (numPartitions : Nat) (calls : I → SessionCall) :
    Config I TransactionState TransactionThread where
  shared :=
    { producerId
      pending := []
      inTransaction := false
      bus := .new numPartitions
      sends := 0
      copied := []
      published := []
      committed := []
      aborted := [] }
  thread i := { call := calls i, at_ := .start, aborted := [], published := [] }

def TransactionsReturned (c : Config I TransactionState TransactionThread) : Prop :=
  ∀ i, ∃ result, (c.thread i).at_ = .returned result

/-- A commit that clears the pending list finds no message in it but such as commits have copied once. -/
def ClearsCopiedOnce (c : Config I TransactionState TransactionThread) (i : I) : Prop :=
  ∀ offsets, (c.thread i).at_ = .committing offsets →
    ∀ msg ∈ c.shared.pending, c.shared.copied.count msg = 1

end Model

section Alone

def TransactionState.producer (s : TransactionState) : TransactionalProducer where
  producerId := s.producerId
  pending := s.pending.map fun m => (m.key, m.payload)
  inTransaction := s.inTransaction

variable (s : TransactionState) (l : TransactionThread)

theorem begin_alone (call : l.call = .begin) (start : l.at_ = .start) :
    (transactors.solo 2 (s, l)).1.producer = s.producer.begin := by
  simp [System.solo, transactors, transactionStep, call, start, TransactionState.producer,
    TransactionalProducer.begin]

theorem abort_alone (call : l.call = .abort) (start : l.at_ = .start) :
    (transactors.solo 2 (s, l)).1.producer = s.producer.abort := by
  simp [System.solo, transactors, transactionStep, call, start, TransactionState.producer,
    TransactionalProducer.abort]

theorem send_alone {key payload : String} (call : l.call = .send key payload) (start : l.at_ = .start) :
    (transactors.solo 2 (s, l)).1.producer = s.producer.send key payload := by
  by_cases flag : s.inTransaction
  · simp [System.solo, transactors, transactionStep, call, start, TransactionState.producer,
      TransactionalProducer.send, flag]
  · simp [System.solo, transactors, transactionStep, call, start, TransactionState.producer,
      TransactionalProducer.send, flag]

theorem publishing_reaches {clock : Nat → Timestamp} {rest : List SentMessage} {offsets : List UInt64}
    (at_ : l.at_ = .publishing clock rest offsets) :
    ∃ s' l', transactors.Reaches (s, l) (s', l') ∧ s'.producerId = s.producerId ∧
      (s'.bus, l'.at_) =
        let sent := TransactionalProducer.publishAll clock s.producerId s.bus
          (rest.map fun m => (m.key, m.payload)) offsets
        (sent.2, .publishing clock [] sent.1) := by
  induction rest generalizing s l offsets with
  | nil => exact ⟨s, l, .refl _, rfl, by rw [at_]; rfl⟩
  | cons msg rest ih =>
    let bus := (s.bus.produce (clock offsets.length) msg.key msg.payload s.producerId 0).2
    let s₁ : TransactionState := { s with bus, published := s.published ++ [msg] }
    let l₁ : TransactionThread :=
      { l with
        at_ := .publishing clock rest (offsets ++ [s.bus.nextOffset])
        published := l.published ++ [msg] }
    have taken : transactors.step s l = some (s₁, l₁) := by
      simp only [transactors, transactionStep, at_]
      rfl
    obtain ⟨s', l', reaches, producerId, final⟩ := ih s₁ l₁ rfl
    exact ⟨s', l', .step taken reaches, producerId, final⟩

theorem commit_alone {clock : Nat → Timestamp} (call : l.call = .commit clock) (start : l.at_ = .start) :
    ∃ s' l', transactors.Reaches (s, l) (s', l') ∧
      (l'.at_, s'.producer, s'.bus) =
        let (result, producer, bus) := s.producer.commit clock s.bus
        (.returned result, producer, bus) := by
  by_cases flag : s.inTransaction
  · let l₁ : TransactionThread := { l with at_ := .copying clock, aborted := s.aborted, published := [] }
    let s₂ : TransactionState := { s with copied := s.copied ++ s.pending }
    let l₂ : TransactionThread := { l₁ with at_ := .publishing clock s.pending [] }
    have entered : transactors.step s l = some (s, l₁) := by
      simp [transactors, transactionStep, call, start, flag, l₁]
    obtain ⟨s₃, l₃, published, producerId, sent⟩ := publishing_reaches s₂ l₂ rfl
    obtain ⟨bus, at_⟩ := Prod.mk.inj sent
    let offsets := (TransactionalProducer.publishAll clock s₂.producerId s₂.bus
      (s.pending.map fun m => (m.key, m.payload)) []).1
    let s₄ : TransactionState := { s₃ with inTransaction := false }
    let l₄ : TransactionThread := { l₃ with at_ := .committing offsets }
    let s₅ : TransactionState := { s₄ with pending := [], committed := s₄.committed ++ s₄.pending }
    let l₅ : TransactionThread := { l₄ with at_ := .returned (.ok offsets) }
    have copied : transactors.step s l₁ = some (s₂, l₂) := rfl
    have flagged : transactors.step s₃ l₃ = some (s₄, l₄) := by
      simp only [transactors, transactionStep, at_]
      rfl
    have finished : transactors.step s₄ l₄ = some (s₅, l₅) := rfl
    have first : transactors.Reaches (s, l) (s₂, l₂) := .step entered (.step copied (.refl _))
    have last : transactors.Reaches (s₃, l₃) (s₅, l₅) := .step flagged (.step finished (.refl _))
    refine ⟨s₅, l₅, first.trans (published.trans last), ?_⟩
    simp [TransactionalProducer.commit, TransactionState.producer, flag, bus, producerId, s₂, s₄, s₅, l₅,
      offsets]
  · let l₁ : TransactionThread := { l with at_ := .returned (.error "No transaction in progress") }
    have refused : transactors.step s l = some (s, l₁) := by
      simp [transactors, transactionStep, call, start, flag, l₁]
    refine ⟨s, l₁, .step refused (.refl _), ?_⟩
    simp [TransactionalProducer.commit, TransactionState.producer, flag, l₁]

end Alone

section Steps

def TransactionAt.rest : TransactionAt → List SentMessage
  | .publishing _ rest _ => rest
  | _ => []

inductive TransactionMove (s : TransactionState) (l : TransactionThread) :
    TransactionState → TransactionThread → Prop where
  | quiet (inTransaction : Bool) {at_ : TransactionAt} :
      l.at_.rest = [] → (∀ offsets, l.at_ ≠ .committing offsets) → at_.rest = [] →
      TransactionMove s l { s with inTransaction } { l with at_ }
  | enter (clock : Nat → Timestamp) : l.at_ = .start →
      TransactionMove s l s { l with at_ := .copying clock, aborted := s.aborted, published := [] }
  | clear (aborts : Bool) : l.at_ = .clearing aborts →
      TransactionMove s l
        { s with pending := [], aborted := if aborts then s.aborted ++ s.pending else s.aborted }
        { l with at_ := .returned (.ok []) }
  | push (key payload : String) : l.at_ = .pushing key payload →
      TransactionMove s l
        { s with pending := s.pending ++ [⟨s.sends, key, payload⟩], sends := s.sends + 1 }
        { l with at_ := .returned (.ok []) }
  | copy (clock : Nat → Timestamp) : l.at_ = .copying clock →
      TransactionMove s l { s with copied := s.copied ++ s.pending }
        { l with at_ := .publishing clock s.pending [] }
  | publish {clock : Nat → Timestamp} {msg : SentMessage} {rest : List SentMessage}
      {offsets : List UInt64} : l.at_ = .publishing clock (msg :: rest) offsets →
      TransactionMove s l
        { s with
          bus := (s.bus.produce (clock offsets.length) msg.key msg.payload s.producerId 0).2
          published := s.published ++ [msg] }
        { l with
          at_ := .publishing clock rest (offsets ++ [s.bus.nextOffset])
          published := l.published ++ [msg] }
  | finish (offsets : List UInt64) : l.at_ = .committing offsets →
      TransactionMove s l { s with pending := [], committed := s.committed ++ s.pending }
        { l with at_ := .returned (.ok offsets) }

theorem move_of_transactionStep {s s' : TransactionState} {l l' : TransactionThread}
    (taken : transactionStep s l = some (s', l')) : TransactionMove s l s' l' := by
  obtain ⟨call, at_, aborted, published⟩ := l
  cases at_ with
  | start =>
    cases call with
    | begin => cases taken; exact .quiet true rfl nofun rfl
    | send key payload =>
      simp only [transactionStep] at taken
      split at taken <;> cases taken <;> exact .quiet s.inTransaction rfl nofun rfl
    | commit clock =>
      simp only [transactionStep] at taken
      split at taken <;> cases taken
      · exact .quiet s.inTransaction rfl nofun rfl
      · exact .enter clock rfl
    | abort => cases taken; exact .quiet false rfl nofun rfl
  | clearing aborts => cases taken; exact .clear aborts rfl
  | pushing key payload => cases taken; exact .push key payload rfl
  | copying clock => cases taken; exact .copy clock rfl
  | publishing clock rest offsets =>
    cases rest with
    | nil => cases taken; exact .quiet false rfl nofun rfl
    | cons msg rest => cases taken; exact .publish rfl
  | committing offsets => cases taken; exact .finish offsets rfl
  | returned result => cases taken

end Steps

section Invariants

variable {s s' : TransactionState} {l l' : TransactionThread}

-- A pending message has been neither committed nor discarded, and the next one will be new.
structure TransactionState.Consistent (s : TransactionState) : Prop where
  numbered : ∀ msg, msg ∈ s.pending ∨ msg ∈ s.committed ∨ msg ∈ s.aborted → msg.number < s.sends
  committed : ∀ msg ∈ s.pending, msg ∉ s.committed
  aborted : ∀ msg ∈ s.pending, msg ∉ s.aborted

theorem TransactionMove.consistent (move : TransactionMove s l s' l') (inv : s.Consistent) :
    s'.Consistent := by
  obtain ⟨numbered, committed, aborted⟩ := inv
  cases move with
  | quiet => exact ⟨numbered, committed, aborted⟩
  | enter => exact ⟨numbered, committed, aborted⟩
  | copy => exact ⟨numbered, committed, aborted⟩
  | publish => exact ⟨numbered, committed, aborted⟩
  | clear aborts =>
    refine ⟨fun msg member => numbered msg ?_, nofun, nofun⟩
    cases aborts with
    | true =>
      rcases member with none | member | member
      · cases none
      · exact .inr (.inl member)
      · exact (List.mem_append.mp member).elim (.inr ∘ .inr) .inl
    | false => exact .inr (member.resolve_left List.not_mem_nil)
  | finish =>
    refine ⟨fun msg member => numbered msg ?_, nofun, nofun⟩
    rcases member with none | member | member
    · cases none
    · exact (List.mem_append.mp member).elim (.inr ∘ .inl) .inl
    · exact .inr (.inr member)
  | push key payload =>
    have next {msg : SentMessage} (member : msg ∈ s.pending ++ [⟨s.sends, key, payload⟩]) :
        msg ∈ s.pending ∨ msg = ⟨s.sends, key, payload⟩ :=
      (List.mem_append.mp member).imp_right List.mem_singleton.mp
    refine ⟨fun msg member => ?_, fun msg member => ?_, fun msg member => ?_⟩
    · rcases member with member | member
      · rcases next member with earlier | rfl
        · exact Nat.lt_succ_of_lt (numbered msg (.inl earlier))
        · exact Nat.lt_succ_self _
      · exact Nat.lt_succ_of_lt (numbered msg (.inr member))
    · rcases next member with earlier | rfl
      · exact committed msg earlier
      · exact fun old => Nat.lt_irrefl _ (numbered _ (.inr (.inl old)))
    · rcases next member with earlier | rfl
      · exact aborted msg earlier
      · exact fun old => Nat.lt_irrefl _ (numbered _ (.inr (.inr old)))

structure TransactionThread.Clean (s : TransactionState) (l : TransactionThread) : Prop where
  known : l.aborted ⊆ s.aborted
  rest : ∀ msg ∈ l.aborted, msg ∉ l.at_.rest
  published : ∀ msg ∈ l.aborted, msg ∉ l.published

theorem TransactionMove.aborted_subset (move : TransactionMove s l s' l') : s.aborted ⊆ s'.aborted := by
  cases move with
  | clear aborts =>
    cases aborts with
    | true => exact List.subset_append_left _ _
    | false => exact List.Subset.refl _
  | _ => exact List.Subset.refl _

theorem TransactionMove.clean (move : TransactionMove s l s' l') (inv : s.Consistent) (clean : l.Clean s) :
    l'.Clean s' := by
  obtain ⟨known, rest, published⟩ := clean
  have kept := List.Subset.trans known move.aborted_subset
  cases move with
  | quiet _ _ _ after => exact ⟨known, fun msg _ => by simp [after], published⟩
  | enter => exact ⟨List.Subset.refl _, nofun, nofun⟩
  | clear aborts => exact ⟨kept, nofun, published⟩
  | push => exact ⟨known, nofun, published⟩
  | finish => exact ⟨known, nofun, published⟩
  | copy => exact ⟨known, fun msg member pending => inv.aborted msg pending (known member), published⟩
  | @publish clock msg later offsets at_ =>
    rw [at_] at rest
    refine ⟨known, fun other member => ?_, fun other member sent => ?_⟩
    · exact fun inside => rest other member (List.mem_cons_of_mem _ inside)
    · rcases List.mem_append.mp sent with earlier | now
      · exact published other member earlier
      · exact rest other member (List.mem_cons.mpr (.inl (List.mem_singleton.mp now)))

theorem TransactionThread.Clean.mono (clean : l.Clean s) (more : s.aborted ⊆ s'.aborted) : l.Clean s' :=
  ⟨List.Subset.trans clean.known more, clean.rest, clean.published⟩

-- Each copy is published in the end.
theorem TransactionMove.counts (move : TransactionMove s l s' l') (msg : SentMessage) :
    (s'.published.count msg : Int) + l'.at_.rest.count msg - s'.copied.count msg =
      s.published.count msg + l.at_.rest.count msg - s.copied.count msg := by
  cases move with
  | quiet _ before _ after => simp [before, after]
  | enter _ at_ => simp [at_, TransactionAt.rest]
  | clear _ at_ => simp [at_, TransactionAt.rest]
  | push _ _ at_ => simp [at_, TransactionAt.rest]
  | copy _ at_ => simp [at_, TransactionAt.rest]
  | publish at_ =>
    simp [at_, TransactionAt.rest, List.count_cons]
    omega
  | finish _ at_ => simp [at_, TransactionAt.rest]

def TransactionState.Delivered (s : TransactionState) : Prop :=
  s.bus.messages.map (fun m => (m.key, m.payload)) = s.published.map fun m => (m.key, m.payload)

theorem TransactionMove.delivered (move : TransactionMove s l s' l') (inv : s.Delivered) : s'.Delivered := by
  cases move with
  | @publish clock msg rest offsets at_ =>
    have grown := congrArg (fun all => (msg.key, msg.payload) ::ₘ all) inv
    simp only [TransactionState.Delivered, PartitionedEventBus.produce_messages, Multiset.map_cons,
      List.map_append, List.map_singleton]
    rw [grown]
    exact (Multiset.coe_eq_coe.mpr (List.perm_append_singleton _ _)).symm
  | _ => exact inv

-- A message that a commit has cleared is not copied again.
theorem TransactionMove.copied_iff (move : TransactionMove s l s' l') (inv : s.Consistent) :
    (∀ msg ∈ s'.committed, s'.copied.count msg = 1) ↔
      (∀ msg ∈ s.committed, s.copied.count msg = 1) ∧
        ∀ offsets, l.at_ = .committing offsets → ∀ msg ∈ s.pending, s.copied.count msg = 1 := by
  cases move with
  | quiet _ _ other =>
    exact (and_iff_left fun offsets at_ => absurd at_ (other offsets)).symm
  | enter _ at_ => simp [at_]
  | clear _ at_ => simp [at_]
  | push _ _ at_ => simp [at_]
  | publish at_ => simp [at_]
  | copy _ at_ =>
    have once : ∀ msg ∈ s.committed, s.pending.count msg = 0 := fun msg member =>
      List.count_eq_zero.mpr fun pending => inv.committed msg pending member
    simp only [at_, reduceCtorEq, false_implies, implies_true, and_true, List.count_append]
    exact forall₂_congr fun msg member => by rw [once msg member, Nat.add_zero]
  | finish offsets at_ =>
    simp only [at_, List.forall_mem_append, TransactionAt.committing.injEq]
    exact and_congr_right fun _ => ⟨fun all _ _ => all, fun all => all offsets rfl⟩

end Invariants

section Runs

variable {I : Type} [DecidableEq I] (producerId : String) (numPartitions : Nat) (calls : I → SessionCall)
  (schedule : List I)

def CopiedOnce (c : Config I TransactionState TransactionThread) : Prop :=
  ∀ msg ∈ c.shared.committed, c.shared.copied.count msg = 1

theorem copiedOnce_fire_iff {c : Config I TransactionState TransactionThread} (inv : c.shared.Consistent)
    (i : I) : CopiedOnce (transactors.fire c i) ↔ CopiedOnce c ∧ ClearsCopiedOnce c i := by
  cases taken : transactionStep c.shared (c.thread i) with
  | none =>
    have stays : transactors.fire c i = c := by simp [System.fire, transactors, taken]
    rw [stays]
    refine (and_iff_left fun offsets at_ => ?_).symm
    simp [transactionStep, at_] at taken
  | some next =>
    have fired : transactors.fire c i = ⟨next.1, Function.update c.thread i next.2⟩ := by
      simp [System.fire, transactors, taken]
    rw [fired]
    exact (move_of_transactionStep taken).copied_iff inv

omit [DecidableEq I] in
theorem transactionStart_consistent : (transactionStart producerId numPartitions calls).shared.Consistent where
  numbered msg member := by simp [transactionStart] at member
  committed := nofun
  aborted := nofun

theorem fire_consistent (c : Config I TransactionState TransactionThread) (i : I)
    (inv : c.shared.Consistent) : (transactors.fire c i).shared.Consistent := by
  unfold System.fire
  split
  · exact inv
  · next taken => exact (move_of_transactionStep taken).consistent inv

theorem copiedOnce_run_iff :
    CopiedOnce (transactors.run (transactionStart producerId numPartitions calls) schedule) ↔
      transactors.RunMeets ClearsCopiedOnce (transactionStart producerId numPartitions calls) schedule := by
  have exactly (c : Config I TransactionState TransactionThread) (i : I) (inv : c.shared.Consistent) :=
    copiedOnce_fire_iff inv i
  have none : CopiedOnce (transactionStart producerId numPartitions calls) := nofun
  have run := Runs.run_iff_meets_of_invariant exactly fire_consistent
    (transactionStart_consistent producerId numPartitions calls) schedule
  exact run.trans (and_iff_right none)

structure TransactionsSound (c : Config I TransactionState TransactionThread) : Prop where
  consistent : c.shared.Consistent
  delivered : c.shared.Delivered
  clean : ∀ j, (c.thread j).Clean c.shared

theorem transactions_sound :
    TransactionsSound (transactors.run (transactionStart producerId numPartitions calls) schedule) := by
  apply transactors.run_invariant _ _ schedule
  · refine ⟨transactionStart_consistent producerId numPartitions calls, ?_, fun _ => ⟨nofun, nofun, nofun⟩⟩
    simp [TransactionState.Delivered, transactionStart, PartitionedEventBus.new_messages]
  · rintro c i s l ⟨consistent, delivered, clean⟩ taken
    have move := move_of_transactionStep taken
    refine ⟨move.consistent consistent, move.delivered delivered, ?_⟩
    exact forall_update (fun _ (l : TransactionThread) => l.Clean s) (move.clean consistent (clean i))
      fun j => (clean j).mono move.aborted_subset

variable [Fintype I]

theorem published_add_rest (msg : SentMessage) :
    let final := transactors.run (transactionStart producerId numPartitions calls) schedule
    (final.shared.published.count msg : Int) + ∑ j, ((final.thread j).at_.rest.count msg : Int) =
      final.shared.copied.count msg := by
  let Inv (c : Config I TransactionState TransactionThread) : Prop :=
    (c.shared.published.count msg : Int) + ∑ j, ((c.thread j).at_.rest.count msg : Int) =
      c.shared.copied.count msg
  have final : Inv (transactors.run (transactionStart producerId numPartitions calls) schedule) := by
    apply transactors.run_invariant _ _ schedule
    · simp [Inv, transactionStart, TransactionAt.rest]
    · intro c i s l inv taken
      have counts := (move_of_transactionStep taken).counts msg
      have threads := sum_update (fun _ (l : TransactionThread) => (l.at_.rest.count msg : Int)) c.thread i l
      simp only [Inv] at inv ⊢
      rw [threads]
      omega
  exact final

/-- Where every commit clears only what has been copied once, nothing that a commit has cleared is
published twice, and of the runs in which all calls return exactly these publish all of it once. What an
abort discards is in no case published by a commit that starts later. -/
theorem transaction_published_once_iff :
    ((transactors.RunMeets ClearsCopiedOnce (transactionStart producerId numPartitions calls) schedule →
        Runs.Throughout transactors.fire
          (fun c => ∀ msg ∈ c.shared.committed, c.shared.published.count msg ≤ 1)
          (transactionStart producerId numPartitions calls) schedule) ∧
      (TransactionsReturned
          (transactors.run (transactionStart producerId numPartitions calls) schedule) →
        ((∀ msg ∈ (transactors.run (transactionStart producerId numPartitions calls) schedule).shared.committed,
            (transactors.run (transactionStart producerId numPartitions calls) schedule).shared.published.count
              msg = 1) ↔
          transactors.RunMeets ClearsCopiedOnce (transactionStart producerId numPartitions calls)
            schedule))) ∧
    Runs.Throughout transactors.fire
      (fun c => ∀ i, ∀ msg ∈ (c.thread i).aborted, msg ∉ (c.thread i).published)
      (transactionStart producerId numPartitions calls) schedule := by
  refine ⟨⟨?_, ?_⟩, ?_⟩
  · rintro meets first second rfl msg member
    have early := (copiedOnce_run_iff producerId numPartitions calls first).mpr (Runs.meets_append.mp meets).1
    have copied : _ = 1 := early msg member
    have published := published_add_rest producerId numPartitions calls first msg
    have others : (0 : Int) ≤ ∑ j, (((transactors.run (transactionStart producerId numPartitions calls)
        first).thread j).at_.rest.count msg : Int) := Finset.sum_nonneg fun _ _ => Int.natCast_nonneg _
    change (transactors.run _ first).shared.published.count msg ≤ 1
    dsimp only at published
    omega
  · intro returned
    rw [← copiedOnce_run_iff]
    refine forall₂_congr fun msg _ => ?_
    have published := published_add_rest producerId numPartitions calls schedule msg
    have none : ∀ j, ((transactors.run (transactionStart producerId numPartitions calls)
        schedule).thread j).at_.rest = [] := fun j => by
      obtain ⟨result, at_⟩ := returned j
      rw [at_]
      rfl
    simp only [none, List.count_nil, Nat.cast_zero, Finset.sum_const_zero, add_zero, Nat.cast_inj] at published
    rw [published]
  · rintro first second rfl i
    exact ((transactions_sound producerId numPartitions calls first).clean i).published

end Runs

-- The second message is sent between the copy and the clearing of the only commit.
theorem sent_during_commit_lost :
    let calls : Fin 4 → SessionCall :=
      ![.begin, .send "account:A" "debit:100", .commit fun _ => ⟨0⟩, .send "account:B" "credit:100"]
    let final := transactors.run (transactionStart "tx-prod" 2 calls) [0, 0, 1, 1, 2, 2, 3, 3, 2, 2, 2]
    TransactionsReturned final ∧ final.shared.committed =
        [⟨0, "account:A", "debit:100"⟩, ⟨1, "account:B", "credit:100"⟩] ∧
      final.shared.published = [⟨0, "account:A", "debit:100"⟩] ∧
      ¬ ∀ msg ∈ final.shared.committed, final.shared.published.count msg = 1 := by
  intro calls final
  have finished : ∀ i, ((final.thread i).at_ matches .returned _) = true := by decide +kernel
  have returned : TransactionsReturned final := by
    intro i
    have ended := finished i
    cases stop : (final.thread i).at_ with
    | returned result => exact ⟨result, rfl⟩
    | start | clearing | pushing | copying | committing | publishing => simp [stop] at ended
  have committed : final.shared.committed =
      [⟨0, "account:A", "debit:100"⟩, ⟨1, "account:B", "credit:100"⟩] := by decide +kernel
  have published : final.shared.published = [⟨0, "account:A", "debit:100"⟩] := by decide +kernel
  refine ⟨returned, committed, published, fun all => ?_⟩
  rw [committed, published] at all
  exact absurd (all ⟨1, "account:B", "credit:100"⟩ (by decide)) (by decide)

end BankingLedger
