import BankingLedger.Domain.Journal
import BankingLedger.Service.AccountService

set_option autoImplicit false

namespace BankingLedger

open FiniteMap MachineInt
open Account (Moved)

namespace EntryLeg

def signed (leg : EntryLeg) : Int64 :=
  match leg.side with
  | .debit => -leg.amountCents
  | .credit => leg.amountCents

def signedInt (leg : EntryLeg) : Int :=
  match leg.side with
  | .debit => -leg.amountCents.toInt
  | .credit => leg.amountCents.toInt

def Passes (leg : EntryLeg) (a : Account) : Prop :=
  match leg.side with
  | .debit => a.DebitPasses leg.amountCents
  | .credit => a.CreditPasses leg.amountCents

def Strands (leg : EntryLeg) (a : Account) : Prop :=
  leg.side = .credit ∧ a.CreditStrands leg.amountCents

end EntryLeg

def netCents : List EntryLeg → AccountId → Int64
  | [], _ => 0
  | leg :: rest, id => (if leg.accountId = id then leg.signed else 0) + netCents rest id

def netInt : List EntryLeg → AccountId → Int
  | [], _ => 0
  | leg :: rest, id => (if leg.accountId = id then leg.signedInt else 0) + netInt rest id

theorem netInt_eq_legTotal (legs : List EntryLeg) (id : AccountId) :
    netInt legs id = legTotal .credit legs id - legTotal .debit legs id := by
  unfold legTotal
  induction legs with
  | nil => rfl
  | cons leg rest ih =>
    obtain ⟨account, side, amount⟩ := leg
    by_cases same : account = id <;> cases side <;>
      simp [netInt, EntryLeg.signedInt, same, ih] <;> omega

def PassesAfter (accounts : Accounts) (before : List EntryLeg) (leg : EntryLeg) : Prop :=
  ∃ a ∈ accounts.lookup leg.accountId, leg.Passes (a.shift (netCents before leg.accountId))

def StrandsAfter (accounts : Accounts) (before : List EntryLeg) (leg : EntryLeg) : Prop :=
  ∃ a ∈ accounts.lookup leg.accountId, leg.Strands (a.shift (netCents before leg.accountId))

def LegsPass (accounts : Accounts) (legs : List EntryLeg) : Prop :=
  ∀ before leg after, legs = before ++ leg :: after → PassesAfter accounts before leg

def FirstRefused (accounts : Accounts) (legs before : List EntryLeg) (leg : EntryLeg) : Prop :=
  ∃ after, legs = before ++ leg :: after ∧ LegsPass accounts before ∧
    ¬ PassesAfter accounts before leg

def Shifted (net : AccountId → Int64) (accounts accounts' : Accounts) : Prop :=
  ∀ id, accounts'.lookup id = (accounts.lookup id).map (Account.shift (net id))

def cells (accounts : Accounts) (id : AccountId) : Option (Int64 × Int64) :=
  (accounts.lookup id).map fun a => (a.balance, a.availableBalance)

-- A `for` loop over the legs that returns at the first error.
def forLegs {E : Type} (post : Accounts → EntryLeg → Except E Unit × Accounts) :
    Accounts → List EntryLeg → Except E Unit × Accounts
  | accounts, [] => (.ok (), accounts)
  | accounts, leg :: rest =>
    match post accounts leg with
    | (.error e, accounts) => (.error e, accounts)
    | (.ok (), accounts) => forLegs post accounts rest

-- What one round of the loop does, whatever error it reports.
structure PostsLeg {E : Type} (post : Accounts → EntryLeg → Except E Unit × Accounts) : Prop where
  passes : ∀ {accounts : Accounts} {leg : EntryLeg} {a : Account},
    accounts.lookup leg.accountId = some a → leg.Passes a →
    post accounts leg = (.ok (), accounts.insert leg.accountId (a.shift leg.signed))
  strands : ∀ {accounts : Accounts} {leg : EntryLeg} {a : Account},
    accounts.lookup leg.accountId = some a → leg.Strands a →
    ∃ e, post accounts leg =
      (.error e, accounts.insert leg.accountId { a with balance := a.balance + leg.amountCents })
  refused : ∀ {accounts : Accounts} {leg : EntryLeg},
    (∀ a, accounts.lookup leg.accountId = some a → ¬ leg.Passes a ∧ ¬ leg.Strands a) →
    ∃ e, post accounts leg = (.error e, accounts)

def postLegWith {E : Type} (missing : EntryLeg → E) (debitError : AccountId → DebitError → E)
    (creditError : AccountId → CreditError → E) (accounts : Accounts) (leg : EntryLeg) :
    Except E Unit × Accounts :=
  match accounts.lookup leg.accountId with
  | none => (.error (missing leg), accounts)
  | some account =>
    match leg.side with
    | .debit =>
      match account.debit leg.amountCents with
      | (.error e, account) =>
        (.error (debitError leg.accountId e), accounts.insert leg.accountId account)
      | (.ok _, account) => (.ok (), accounts.insert leg.accountId account)
    | .credit =>
      match account.credit leg.amountCents with
      | (.error e, account) =>
        (.error (creditError leg.accountId e), accounts.insert leg.accountId account)
      | (.ok _, account) => (.ok (), accounts.insert leg.accountId account)

theorem postLegWith_posts {E : Type} (missing : EntryLeg → E)
    (debitError : AccountId → DebitError → E) (creditError : AccountId → CreditError → E) :
    PostsLeg (postLegWith missing debitError creditError) where
  passes := by
    rintro accounts ⟨id, side, amount⟩ a found passes
    cases side with
    | debit => simp [postLegWith, found, Account.debit_of_passes passes, EntryLeg.signed]
    | credit => simp [postLegWith, found, Account.credit_of_passes passes, EntryLeg.signed]
  strands := by
    rintro accounts ⟨id, side, amount⟩ a found ⟨rfl, strands⟩
    exact ⟨creditError id .overflow, by
      simp [postLegWith, found, Account.credit_of_strands strands]⟩
  refused := by
    rintro accounts ⟨id, side, amount⟩ refused
    cases found : accounts.lookup id with
    | none => exact ⟨missing ⟨id, side, amount⟩, by simp [postLegWith, found]⟩
    | some a =>
      obtain ⟨fails, clean⟩ := refused a found
      cases side with
      | debit =>
        obtain ⟨e, result⟩ := Account.debit_of_refused fails
        exact ⟨debitError id e, by
          simp [postLegWith, found, result, insert_lookup_self found]⟩
      | credit =>
        obtain ⟨e, result⟩ := Account.credit_of_refused fails fun strands => clean ⟨rfl, strands⟩
        exact ⟨creditError id e, by
          simp [postLegWith, found, result, insert_lookup_self found]⟩

theorem netCents_append (first second : List EntryLeg) (id : AccountId) :
    netCents (first ++ second) id = netCents first id + netCents second id := by
  induction first with
  | nil => simp [netCents]
  | cons leg rest ih => simp [netCents, ih, Int64.add_assoc]

theorem netInt_append (first second : List EntryLeg) (id : AccountId) :
    netInt (first ++ second) id = netInt first id + netInt second id := by
  induction first with
  | nil => simp [netInt]
  | cons leg rest ih => simp [netInt, ih, Int.add_assoc]

namespace Shifted

variable {accounts accounts' accounts'' : Accounts} {net net' : AccountId → Int64}

theorem refl (accounts : Accounts) : Shifted (fun _ => 0) accounts accounts := by
  intro id
  cases accounts.lookup id <;> simp

theorem trans (first : Shifted net accounts accounts') (second : Shifted net' accounts' accounts'') :
    Shifted (fun id => net id + net' id) accounts accounts'' := by
  intro id
  rw [second id, first id, Option.map_map]
  congr 1
  funext a
  exact Account.shift_shift _ _ a

theorem insert {id : AccountId} {a : Account} {d : Int64} (found : accounts.lookup id = some a) :
    Shifted (fun other => if other = id then d else 0) accounts (accounts.insert id (a.shift d)) := by
  intro other
  rw [lookup_insert_eq]
  by_cases same : other = id
  · subst same; simp [found]
  · simp only [same, if_false]
    exact refl accounts other

theorem unique (one : Shifted net accounts accounts') (two : Shifted net accounts accounts'') :
    accounts' = accounts'' := by
  apply Finmap.ext_lookup
  intro id
  rw [one id, two id]

theorem of_zero (shifted : Shifted net accounts accounts') (zero : ∀ id, net id = 0) :
    accounts' = accounts := by
  have still : net = fun _ => 0 := funext zero
  exact unique (still ▸ shifted) (refl accounts)

end Shifted

theorem Shifted.rest {accounts accounts₁ accounts' : Accounts} {first second : AccountId → Int64}
    (whole : Shifted (fun id => first id + second id) accounts accounts')
    (start : Shifted first accounts accounts₁) : Shifted second accounts₁ accounts' := by
  intro id
  rw [whole id, start id, Option.map_map]
  congr 1
  funext a
  exact (Account.shift_shift _ _ a).symm

theorem Shifted.first_leg {accounts : Accounts} {leg : EntryLeg} {a : Account}
    (found : accounts.lookup leg.accountId = some a) :
    Shifted (netCents [leg]) accounts (accounts.insert leg.accountId (a.shift leg.signed)) := by
  have moved := Shifted.insert (d := leg.signed) found
  intro id
  rw [moved id]
  by_cases same : id = leg.accountId <;> simp [netCents, same, eq_comm]

-- Posting the first leg moves its account; the rest of the legs see the moved accounts.
theorem passesAfter_cons {accounts accounts' : Accounts} {first : EntryLeg}
    (shifted : Shifted (netCents [first]) accounts accounts') (before : List EntryLeg)
    (leg : EntryLeg) :
    PassesAfter accounts' before leg ↔ PassesAfter accounts (first :: before) leg := by
  have combined : netCents (first :: before) leg.accountId =
      netCents [first] leg.accountId + netCents before leg.accountId :=
    netCents_append [first] before leg.accountId
  simp [PassesAfter, shifted leg.accountId, combined, ← Account.shift_shift]

theorem strandsAfter_cons {accounts accounts' : Accounts} {first : EntryLeg}
    (shifted : Shifted (netCents [first]) accounts accounts') (before : List EntryLeg)
    (leg : EntryLeg) :
    StrandsAfter accounts' before leg ↔ StrandsAfter accounts (first :: before) leg := by
  have combined : netCents (first :: before) leg.accountId =
      netCents [first] leg.accountId + netCents before leg.accountId :=
    netCents_append [first] before leg.accountId
  simp [StrandsAfter, shifted leg.accountId, combined, ← Account.shift_shift]

theorem legsPass_cons {accounts accounts' : Accounts} {first : EntryLeg} {rest : List EntryLeg}
    (shifted : Shifted (netCents [first]) accounts accounts') :
    LegsPass accounts (first :: rest) ↔ PassesAfter accounts [] first ∧ LegsPass accounts' rest := by
  constructor
  · intro pass
    refine ⟨pass [] first rest rfl, ?_⟩
    intro before leg after split
    rw [passesAfter_cons shifted]
    exact pass (first :: before) leg after (by rw [split]; rfl)
  · rintro ⟨head, tail⟩ before leg after split
    cases before with
    | nil =>
      cases split
      exact head
    | cons other before =>
      cases split
      exact (passesAfter_cons shifted before leg).mp (tail before leg after rfl)

theorem legsPass_nil (accounts : Accounts) : LegsPass accounts [] := by
  intro before leg after split
  simp at split

section Loop

variable {E : Type} {post : Accounts → EntryLeg → Except E Unit × Accounts}

theorem PostsLeg.first_passes (posts : PostsLeg post) {accounts : Accounts} {leg : EntryLeg}
    (passes : PassesAfter accounts [] leg) :
    ∃ accounts', post accounts leg = (.ok (), accounts') ∧
      Shifted (netCents [leg]) accounts accounts' := by
  obtain ⟨a, found, passes⟩ := passes
  rw [Option.mem_def] at found
  simp only [netCents, Account.shift_zero] at passes
  exact ⟨_, posts.passes found passes, Shifted.first_leg found⟩

theorem PostsLeg.first_refused (posts : PostsLeg post) {accounts : Accounts} {leg : EntryLeg}
    (refused : ¬ PassesAfter accounts [] leg) (clean : ¬ StrandsAfter accounts [] leg) :
    ∃ e, post accounts leg = (.error e, accounts) := by
  apply posts.refused
  intro a found
  constructor
  · intro passes
    exact refused ⟨a, found, by simpa [netCents] using passes⟩
  · intro strands
    exact clean ⟨a, found, by simpa [netCents] using strands⟩

theorem PostsLeg.loop_passes (posts : PostsLeg post) (legs : List EntryLeg) (accounts : Accounts)
    (pass : LegsPass accounts legs) :
    ∃ accounts', forLegs post accounts legs = (.ok (), accounts') ∧
      Shifted (netCents legs) accounts accounts' := by
  induction legs generalizing accounts with
  | nil => exact ⟨accounts, rfl, Shifted.refl accounts⟩
  | cons leg rest ih =>
    obtain ⟨accounts₁, posted, shifted⟩ := posts.first_passes (pass [] leg rest rfl)
    obtain ⟨accounts₂, done, more⟩ := ih accounts₁ ((legsPass_cons shifted).mp pass).2
    refine ⟨accounts₂, by simp [forLegs, posted, done], ?_⟩
    have both := shifted.trans more
    have combined : (fun id => netCents [leg] id + netCents rest id) = netCents (leg :: rest) :=
      funext fun id => (netCents_append [leg] rest id).symm
    exact combined ▸ both

-- Some leg does not pass: the loop posts the legs before the first such one and fails there, with
-- only the balance of that leg's account written if the leg strands it.
theorem PostsLeg.loop_refused (posts : PostsLeg post) (legs : List EntryLeg) (accounts : Accounts)
    (refused : ¬ LegsPass accounts legs) :
    ∃ before leg e accounts', FirstRefused accounts legs before leg ∧
      Shifted (netCents before) accounts accounts' ∧
      ((¬ StrandsAfter accounts before leg ∧ forLegs post accounts legs = (.error e, accounts')) ∨
        (StrandsAfter accounts before leg ∧ ∃ a, accounts'.lookup leg.accountId = some a ∧
          0 < leg.amountCents ∧ forLegs post accounts legs = (.error e,
            accounts'.insert leg.accountId { a with balance := a.balance + leg.amountCents }))) := by
  induction legs generalizing accounts with
  | nil => exact absurd (legsPass_nil accounts) refused
  | cons leg rest ih =>
    by_cases head : PassesAfter accounts [] leg
    · obtain ⟨accounts₁, posted, shifted⟩ := posts.first_passes head
      have tail : ¬ LegsPass accounts₁ rest := fun pass =>
        refused ((legsPass_cons shifted).mpr ⟨head, pass⟩)
      obtain ⟨before, failing, e, accounts₂, ⟨after, split, pass, fails⟩, more, result⟩ :=
        ih accounts₁ tail
      refine ⟨leg :: before, failing, e, accounts₂, ⟨after, by rw [split]; rfl, ?_, ?_⟩, ?_, ?_⟩
      · exact (legsPass_cons shifted).mpr ⟨head, pass⟩
      · rwa [← passesAfter_cons shifted]
      · have both := shifted.trans more
        have combined : (fun id => netCents [leg] id + netCents before id) =
            netCents (leg :: before) := funext fun id => (netCents_append [leg] before id).symm
        exact combined ▸ both
      · simpa [forLegs, posted, ← strandsAfter_cons shifted] using result
    · by_cases strands : StrandsAfter accounts [] leg
      · obtain ⟨a, found, stranded⟩ := strands
        rw [Option.mem_def] at found
        simp only [netCents, Account.shift_zero] at stranded
        obtain ⟨e, posted⟩ := posts.strands found stranded
        refine ⟨[], leg, e, accounts, ⟨rest, rfl, legsPass_nil accounts, head⟩,
          Shifted.refl accounts, Or.inr ⟨⟨a, found, ?_⟩, a, found, stranded.2.1, ?_⟩⟩
        · simpa [netCents] using stranded
        · simp [forLegs, posted]
      · obtain ⟨e, posted⟩ := posts.first_refused head strands
        exact ⟨[], leg, e, accounts, ⟨rest, rfl, legsPass_nil accounts, head⟩,
          Shifted.refl accounts, Or.inl ⟨strands, by simp [forLegs, posted]⟩⟩

theorem PostsLeg.loop_ok (posts : PostsLeg post) {legs : List EntryLeg} {accounts accounts' : Accounts}
    (posted : forLegs post accounts legs = (.ok (), accounts')) :
    LegsPass accounts legs ∧ Shifted (netCents legs) accounts accounts' := by
  by_cases pass : LegsPass accounts legs
  · obtain ⟨accounts₁, done, shifted⟩ := posts.loop_passes legs accounts pass
    rw [posted, Prod.mk.injEq] at done
    exact ⟨pass, done.2 ▸ shifted⟩
  · obtain ⟨before, leg, e, accounts₁, -, -, result⟩ := posts.loop_refused legs accounts pass
    rcases result with ⟨-, failed⟩ | ⟨-, a, -, -, failed⟩ <;> simp [posted] at failed

end Loop

theorem firstRefused_not_legsPass {accounts : Accounts} {legs before : List EntryLeg}
    {leg : EntryLeg} (first : FirstRefused accounts legs before leg) : ¬ LegsPass accounts legs := by
  obtain ⟨after, split, -, fails⟩ := first
  intro pass
  exact fails (pass before leg after split)

-- Two splits at a first refused leg are the same split.
theorem FirstRefused.unique {accounts : Accounts} {legs before before' : List EntryLeg}
    {leg leg' : EntryLeg} (one : FirstRefused accounts legs before leg)
    (two : FirstRefused accounts legs before' leg') : before = before' ∧ leg = leg' := by
  obtain ⟨after, split, pass, fails⟩ := one
  obtain ⟨after', split', pass', fails'⟩ := two
  rcases List.append_eq_append_iff.mp (split.symm.trans split') with
    ⟨middle, longer, rest⟩ | ⟨middle, longer, rest⟩
  · cases middle with
    | nil => simp_all
    | cons other middle =>
      simp only [List.cons_append, List.cons.injEq] at rest
      obtain ⟨rfl, -⟩ := rest
      exact absurd (pass' before leg middle longer) fails
  · cases middle with
    | nil => simp_all
    | cons other middle =>
      simp only [List.cons_append, List.cons.injEq] at rest
      obtain ⟨rfl, -⟩ := rest
      exact absurd (pass before' leg' middle longer) fails'

theorem LegsPass.found {accounts : Accounts} {legs : List EntryLeg} (pass : LegsPass accounts legs)
    {leg : EntryLeg} (member : leg ∈ legs) : ∃ a, accounts.lookup leg.accountId = some a := by
  obtain ⟨before, after, split⟩ := List.append_of_mem member
  obtain ⟨a, found, -⟩ := pass before leg after split
  exact ⟨a, found⟩

theorem Shifted.found {accounts accounts' : Accounts} {net : AccountId → Int64} {id : AccountId}
    (shifted : Shifted net accounts accounts') (present : ∃ a, accounts.lookup id = some a) :
    ∃ a, accounts'.lookup id = some a := by
  obtain ⟨a, found⟩ := present
  exact ⟨a.shift (net id), by rw [shifted id, found]; rfl⟩

theorem netCents_of_absent {legs : List EntryLeg} {id : AccountId}
    (absent : ∀ leg ∈ legs, leg.accountId ≠ id) : netCents legs id = 0 := by
  induction legs with
  | nil => rfl
  | cons leg rest ih =>
    have tail := ih fun other member => absent other (List.mem_cons_of_mem _ member)
    simp [netCents, tail, absent leg (List.mem_cons_self ..)]

theorem netInt_of_absent {legs : List EntryLeg} {id : AccountId}
    (absent : ∀ leg ∈ legs, leg.accountId ≠ id) : netInt legs id = 0 := by
  induction legs with
  | nil => rfl
  | cons leg rest ih =>
    have tail := ih fun other member => absent other (List.mem_cons_of_mem _ member)
    simp [netInt, tail, absent leg (List.mem_cons_self ..)]

theorem LegsPass.found_of_net {accounts : Accounts} {legs : List EntryLeg}
    (pass : LegsPass accounts legs) {id : AccountId} (moved : netCents legs id ≠ 0) :
    ∃ a, accounts.lookup id = some a := by
  by_contra missing
  apply moved
  apply netCents_of_absent
  rintro leg member rfl
  exact missing (pass.found member)

theorem Shifted.cells {accounts accounts' : Accounts} {net : AccountId → Int64}
    (shifted : Shifted net accounts accounts') {id : AccountId} {a : Account}
    (found : accounts.lookup id = some a) :
    cells accounts' id = some (a.balance + net id, a.availableBalance + net id) := by
  simp [BankingLedger.cells, shifted id, found]

-- No account keeps its cells under a shift that is not zero, so the shift is zero wherever there is
-- an account.
theorem Shifted.cells_eq_iff {accounts accounts' : Accounts} {net : AccountId → Int64}
    (shifted : Shifted net accounts accounts')
    (present : ∀ id, net id ≠ 0 → ∃ a, accounts.lookup id = some a) :
    (∀ id, BankingLedger.cells accounts' id = BankingLedger.cells accounts id) ↔
      ∀ id, net id = 0 := by
  constructor
  · intro same id
    by_contra moved
    obtain ⟨a, found⟩ := present id moved
    have cell := same id
    rw [shifted.cells found, BankingLedger.cells, found] at cell
    simp only [Option.map_some, Option.some.injEq, Prod.mk.injEq] at cell
    grind
  · intro zero id
    rw [shifted.of_zero zero]

/-- Nothing is left behind at the leg that stops the posting: the legs before it cancel on every
account, and it is no credit that overflows the available balance alone. -/
def StopsClean (accounts : Accounts) (legs : List EntryLeg) : Prop :=
  ∀ before leg, FirstRefused accounts legs before leg →
    (∀ id, netCents before id = 0) ∧ ¬ StrandsAfter accounts before leg

theorem FirstRefused.stopsClean_iff {accounts : Accounts} {legs before : List EntryLeg}
    {leg : EntryLeg} (first : FirstRefused accounts legs before leg) :
    StopsClean accounts legs ↔
      (∀ id, netCents before id = 0) ∧ ¬ StrandsAfter accounts before leg := by
  constructor
  · intro clean
    exact clean before leg first
  · intro clean before' leg' first'
    obtain ⟨rfl, rfl⟩ := first.unique first'
    exact clean

theorem Shifted.stranded_differs {accounts accounts' : Accounts} {net : AccountId → Int64}
    (shifted : Shifted net accounts accounts') {id : AccountId} {a : Account} {amount : Int64}
    (found : accounts'.lookup id = some a) (positive : 0 < amount) :
    BankingLedger.cells (accounts'.insert id { a with balance := a.balance + amount }) id ≠
      BankingLedger.cells accounts id := by
  have origin := shifted id
  rw [found] at origin
  cases before : accounts.lookup id with
  | none => simp [before] at origin
  | some a₀ =>
    simp only [before, Option.map_some, Option.some.injEq] at origin
    subst origin
    simp only [BankingLedger.cells, lookup_insert_eq, before, if_true, Option.map_some, ne_eq,
      Option.some.injEq, Prod.mk.injEq, Account.shift_balance, Account.shift_availableBalance]
    grind

theorem PostsLeg.refused_of_stopped {E : Type}
    {post : Accounts → EntryLeg → Except E Unit × Accounts} (posts : PostsLeg post)
    {legs : List EntryLeg} {accounts accounts' : Accounts} {e : E}
    (stopped : forLegs post accounts legs = (.error e, accounts')) : ¬ LegsPass accounts legs := by
  intro pass
  obtain ⟨_, done, -⟩ := posts.loop_passes legs accounts pass
  simp [done] at stopped

theorem PostsLeg.stopped_cells_iff {E : Type}
    {post : Accounts → EntryLeg → Except E Unit × Accounts} (posts : PostsLeg post)
    {legs : List EntryLeg} {accounts accounts' : Accounts} {e : E}
    (stopped : forLegs post accounts legs = (.error e, accounts')) :
    (∀ id, cells accounts' id = cells accounts id) ↔ StopsClean accounts legs := by
  obtain ⟨before, leg, e', accounts₁, first, shifted, result⟩ :=
    posts.loop_refused legs accounts (posts.refused_of_stopped stopped)
  rw [first.stopsClean_iff]
  obtain ⟨after, split, pass, -⟩ := first
  rcases result with ⟨clean, failed⟩ | ⟨strands, a, found, positive, failed⟩
  · obtain rfl : accounts' = accounts₁ := by
      rw [stopped, Prod.mk.injEq] at failed
      exact failed.2
    rw [shifted.cells_eq_iff fun id => pass.found_of_net]
    simp [clean]
  · obtain rfl : accounts' = accounts₁.insert leg.accountId
        { a with balance := a.balance + leg.amountCents } := by
      rw [stopped, Prod.mk.injEq] at failed
      exact failed.2
    constructor
    · intro same
      exact absurd (same leg.accountId) (shifted.stranded_differs found positive)
    · intro clean
      exact absurd strands clean.2

theorem PostsLeg.stopped_clean {E : Type} {post : Accounts → EntryLeg → Except E Unit × Accounts}
    (posts : PostsLeg post) {legs : List EntryLeg} {accounts accounts' : Accounts} {e : E}
    (stopped : forLegs post accounts legs = (.error e, accounts'))
    (clean : StopsClean accounts legs) : accounts' = accounts := by
  obtain ⟨before, leg, e', accounts₁, first, shifted, result⟩ :=
    posts.loop_refused legs accounts (posts.refused_of_stopped stopped)
  obtain ⟨zero, notStranded⟩ := clean before leg first
  rcases result with ⟨-, failed⟩ | ⟨strands, -⟩
  · rw [stopped, Prod.mk.injEq] at failed
    rw [failed.2]
    exact shifted.of_zero zero
  · exact absurd strands notStranded

/-- The balance covers what is available: no more is released than is held. -/
def Covered (accounts : Accounts) : Prop :=
  ∀ id a, accounts.lookup id = some a → a.availableBalance.toInt ≤ a.balance.toInt

theorem EntryLeg.Passes.moved {leg : EntryLeg} {a : Account} (passes : leg.Passes a)
    (covered : a.availableBalance.toInt ≤ a.balance.toInt) :
    Moved a (a.shift leg.signed) leg.signedInt leg.signedInt := by
  obtain ⟨id, side, amount⟩ := leg
  cases side with
  | debit =>
    obtain ⟨positive, -, enough⟩ := passes
    have positive := pos_iff.mp positive
    have enough := Int64.le_iff_toInt_le.mp enough
    refine ⟨?_, ?_, rfl⟩
    · simpa [Account.shift, EntryLeg.signed, EntryLeg.signedInt, ← Int64.sub_eq_add_neg,
        ← Int.sub_eq_add_neg] using toInt_sub_of_covered positive (by omega)
    · simpa [Account.shift, EntryLeg.signed, EntryLeg.signedInt, ← Int64.sub_eq_add_neg,
        ← Int.sub_eq_add_neg] using toInt_sub_of_covered positive enough
  | credit =>
    obtain ⟨-, -, balanceFits, availableFits⟩ := passes
    obtain ⟨newBalance, sum⟩ := Option.isSome_iff_exists.mp balanceFits
    obtain ⟨newAvail, availSum⟩ := Option.isSome_iff_exists.mp availableFits
    obtain ⟨low, high, -⟩ := checkedAdd_eq_some_iff.mp sum
    obtain ⟨availLow, availHigh, -⟩ := checkedAdd_eq_some_iff.mp availSum
    exact ⟨toInt_add_of_bounds low high, toInt_add_of_bounds availLow availHigh, rfl⟩

theorem AccountsMoved.covered {accounts accounts' : Accounts} {net : AccountId → Int}
    (moved : AccountsMoved accounts accounts' net net) (covered : Covered accounts) :
    Covered accounts' := by
  intro id a found
  obtain ⟨a₀, before, one⟩ := moved.lookup found
  have := covered id a₀ before
  have := one.balance
  have := one.available
  omega

theorem LegsPass.moved {accounts accounts' : Accounts} {legs : List EntryLeg}
    (pass : LegsPass accounts legs) (covered : Covered accounts)
    (shifted : Shifted (netCents legs) accounts accounts') :
    AccountsMoved accounts accounts' (netInt legs) (netInt legs) := by
  induction legs generalizing accounts with
  | nil =>
    obtain rfl := shifted.of_zero fun _ => rfl
    exact AccountsMoved.refl accounts'
  | cons leg rest ih =>
    obtain ⟨a, found, passes⟩ := pass [] leg rest rfl
    rw [Option.mem_def] at found
    simp only [netCents, Account.shift_zero] at passes
    have first := Shifted.first_leg found
    have one := AccountsMoved.insert found (passes.moved (covered _ _ found))
    have combined : netCents (leg :: rest) = fun id => netCents [leg] id + netCents rest id :=
      funext fun id => netCents_append [leg] rest id
    have more := ih ((legsPass_cons first).mp pass).2 (one.covered covered)
      ((combined ▸ shifted).rest first)
    have total := one.trans more
    have net : (fun id => (if id = leg.accountId then leg.signedInt else 0) + netInt rest id) =
        netInt (leg :: rest) := by
      funext id
      simp [netInt, eq_comm]
    exact net ▸ total

end BankingLedger
