import BankingLedger.Domain.Account
import BankingLedger.Shared.FirstMatch
import BankingLedger.Shared.ParentLinks
import BankingLedger.Shared.Runs

set_option autoImplicit false

namespace BankingLedger

open FirstMatch ParentLinks Relation Runs

abbrev CoaAccountId := Uuid

inductive CoaCategory where
  | asset
  | liability
  | equity
  | revenue
  | expense
deriving DecidableEq, Repr

inductive NormalBalance where
  | debit
  | credit
deriving DecidableEq, Repr

def CoaCategory.normalBalance : CoaCategory → NormalBalance
  | .asset | .expense => .debit
  | .liability | .equity | .revenue => .credit

inductive CoaAccountStatus where
  | active
  | inactive
  | proposed
deriving DecidableEq, Repr

structure CoaAccount where
  id : CoaAccountId
  code : String
  name : String
  category : CoaCategory
  parentId : Option CoaAccountId
  normalBalance : NormalBalance
  description : String
  status : CoaAccountStatus
  coaVersion : UInt32
deriving DecidableEq

def CoaAccount.new (id : CoaAccountId) (code name : String) (category : CoaCategory)
    (parentId : Option CoaAccountId) (coaVersion : UInt32) : CoaAccount where
  id := id
  code := code
  name := name
  category := category
  parentId := parentId
  normalBalance := category.normalBalance
  description := ""
  status := .active
  coaVersion := coaVersion

inductive CoaError where
  | notFound (id : CoaAccountId)
  | circularReference (id : CoaAccountId)
deriving DecidableEq

def CoaError.display (printUuid : Uuid → String) : CoaError → String
  | .notFound id => s!"COA account not found: {printUuid id}"
  | .circularReference id => s!"Circular reference detected for: {printUuid id}"

structure ChartOfAccounts where
  accounts : List CoaAccount
  version : UInt32
deriving DecidableEq

namespace ChartOfAccounts

def new (version : UInt32) : ChartOfAccounts := { accounts := [], version }

def findByCode (chart : ChartOfAccounts) (code : String) : Option CoaAccount :=
  chart.accounts.find? fun a => a.code = code

def findById (chart : ChartOfAccounts) (id : CoaAccountId) : Option CoaAccount :=
  chart.accounts.find? fun a => a.id = id

def byCategory (chart : ChartOfAccounts) (category : CoaCategory) : List CoaAccount :=
  chart.accounts.filter fun a => a.category = category ∧ a.status = .active

def activeAccounts (chart : ChartOfAccounts) : List CoaAccount :=
  chart.accounts.filter fun a => a.status = .active

def deactivate (id : CoaAccountId) (chart : ChartOfAccounts) : Except CoaError Unit × ChartOfAccounts :=
  match chart.findById id with
  | none => (.error (.notFound id), chart)
  | some _ =>
    (.ok (), { chart with
      accounts := updateFirst (fun a => a.id = id) (fun account => { account with status := .inactive })
        chart.accounts })

/-- `find_by_id(pid).and_then(|a| a.parent_id)` -/
def parentIdOf (chart : ChartOfAccounts) (pid : CoaAccountId) : Option CoaAccountId :=
  (chart.findById pid).bind CoaAccount.parentId

-- Each round of the loop but the last visits the id of another account of the chart.
def validateNoCircularRef (chart : ChartOfAccounts) (account : CoaAccount) : Option Bool :=
  walk chart.parentIdOf (chart.accounts.length + 1) {account.id} account.parentId

/-- In a release build, where `debug_assert!` is compiled out. -/
def addAccount (account : CoaAccount) (chart : ChartOfAccounts) : CoaAccountId × ChartOfAccounts :=
  (account.id, { chart with accounts := chart.accounts ++ [account] })

/-- In a debug build, which panics where the assertion fails. -/
def addAccountDebug (account : CoaAccount) (chart : ChartOfAccounts) :
    Option (CoaAccountId × ChartOfAccounts) :=
  if chart.validateNoCircularRef account = some true then some (chart.addAccount account) else none

def parentOf (chart : ChartOfAccounts) (account : CoaAccount) : Option CoaAccount :=
  account.parentId.bind chart.findById

/-- Following the parents from any account meets no account twice. -/
def Forest (chart : ChartOfAccounts) : Prop :=
  ∀ account ∈ chart.accounts, NeverRevisits chart.parentOf account

def Sound (chart : ChartOfAccounts) (account : CoaAccount) : Prop :=
  chart.findById account.id = none → chart.validateNoCircularRef account = some true

instance (chart : ChartOfAccounts) (account : CoaAccount) : Decidable (chart.Sound account) :=
  inferInstanceAs (Decidable (_ → _))

def add (chart : ChartOfAccounts) (account : CoaAccount) : ChartOfAccounts := (chart.addAccount account).2

variable {chart : ChartOfAccounts} {account found : CoaAccount} {id : CoaAccountId}

section Lookup

theorem id_of_findById (here : chart.findById id = some found) : found.id = id := by
  simpa using List.find?_some here

theorem mem_of_findById (here : chart.findById id = some found) : found ∈ chart.accounts :=
  List.mem_of_find?_eq_some here

theorem findById_add : (chart.add account).findById id =
    (chart.findById id).or (if account.id = id then some account else none) := by
  by_cases same : account.id = id <;> simp [add, addAccount, findById, same]

theorem parentIdOf_add_of_taken (taken : chart.findById account.id ≠ none) :
    (chart.add account).parentIdOf = chart.parentIdOf := by
  funext id
  by_cases same : account.id = id
  next =>
    subst same
    obtain ⟨first, here⟩ := Option.ne_none_iff_exists'.mp taken
    simp [parentIdOf, findById_add, here]
  next => simp [parentIdOf, findById_add, same]

theorem parentIdOf_add_self (fresh : chart.findById account.id = none) :
    (chart.add account).parentIdOf account.id = account.parentId := by
  simp [parentIdOf, findById_add, fresh]

theorem parentIdOf_add_of_ne (other : id ≠ account.id) :
    (chart.add account).parentIdOf id = chart.parentIdOf id := by
  simp [parentIdOf, findById_add, other.symm]

theorem linked_mem_ids (x y : CoaAccountId) (linked : Link chart.parentIdOf x y) :
    x ∈ (chart.accounts.map CoaAccount.id).toFinset := by
  simp only [Link, parentIdOf, Option.bind_eq_some_iff] at linked
  obtain ⟨found, here, _⟩ := linked
  simp only [List.mem_toFinset, List.mem_map]
  exact ⟨found, mem_of_findById here, id_of_findById here⟩

theorem fuel_suffices (visited : Finset CoaAccountId) :
    ((chart.accounts.map CoaAccount.id).toFinset \ visited).card < chart.accounts.length + 1 := by
  have fewer := Finset.card_le_card (Finset.sdiff_subset
    (s := (chart.accounts.map CoaAccount.id).toFinset) (t := visited))
  have listed := List.toFinset_card_le (chart.accounts.map CoaAccount.id)
  rw [List.length_map] at listed
  omega

theorem validateNoCircularRef_isSome : (chart.validateNoCircularRef account).isSome :=
  walk_isSome linked_mem_ids (fuel_suffices _)

end Lookup

section Circles

theorem circle_of_ids {x y : CoaAccountId} (path : TransGen (Link chart.parentIdOf) x y)
    (here : chart.findById y = some found) :
    ∃ start, chart.findById x = some start ∧ TransGen (Link chart.parentOf) start found := by
  induction path using TransGen.head_induction_on with
  | single linked =>
    obtain ⟨start, first, parent⟩ := Option.bind_eq_some_iff.mp linked
    refine ⟨start, first, .single ?_⟩
    simp [Link, parentOf, parent, here]
  | head linked _ ih =>
    obtain ⟨next, later, rest⟩ := ih
    obtain ⟨start, first, parent⟩ := Option.bind_eq_some_iff.mp linked
    refine ⟨start, first, .head ?_ rest⟩
    simp [Link, parentOf, parent, later]

theorem circle_of_accounts {start : CoaAccount} (path : TransGen (Link chart.parentOf) start found)
    (first : chart.findById start.id = some start) :
    TransGen (Link chart.parentIdOf) start.id found.id ∧ chart.findById found.id = some found := by
  have one {a b : CoaAccount} (linked : Link chart.parentOf a b) (here : chart.findById a.id = some a) :
      Link chart.parentIdOf a.id b.id ∧ chart.findById b.id = some b := by
    obtain ⟨pid, parent, next⟩ := Option.bind_eq_some_iff.mp linked
    have own := id_of_findById next
    subst own
    exact ⟨by simp [Link, parentIdOf, here, parent], next⟩
  induction path with
  | single linked =>
    have step := one linked first
    exact ⟨.single step.1, step.2⟩
  | tail _ linked ih =>
    have step := one linked ih.2
    exact ⟨.tail ih.1 step.1, step.2⟩

theorem findById_of_circle (circle : TransGen (Link chart.parentOf) account account) :
    chart.findById account.id = some account := by
  obtain ⟨_, _, linked⟩ := TransGen.tail'_iff.mp circle
  obtain ⟨pid, _, here⟩ := Option.bind_eq_some_iff.mp linked
  have own := id_of_findById here
  rwa [own]

theorem forest_iff_acyclic : chart.Forest ↔ Acyclic chart.parentIdOf := by
  constructor
  case mp =>
    intro forest id circle
    obtain ⟨middle, linked, _⟩ := TransGen.head'_iff.mp circle
    obtain ⟨start, here, _⟩ := Option.bind_eq_some_iff.mp linked
    obtain ⟨found, again, path⟩ := circle_of_ids circle here
    have same : found = start := Option.some.inj (again.symm.trans here)
    subst same
    exact not_neverRevisits_of_cycle path (forest found (mem_of_findById here))
  case mpr =>
    intro acyclic account _
    have accounts : Acyclic chart.parentOf := by
      intro found circle
      exact acyclic found.id (circle_of_accounts circle (findById_of_circle circle)).1
    exact accounts.neverRevisits account

end Circles

theorem validates_iff (acyclic : Acyclic chart.parentIdOf) :
    chart.validateNoCircularRef account = some true ↔
      ∀ parent, account.parentId = some parent →
        ¬ReflTransGen (Link chart.parentIdOf) parent account.id :=
  walk_eq_true_iff acyclic linked_mem_ids (fuel_suffices _)

theorem forest_add_iff : (chart.add account).Forest ↔ chart.Forest ∧ chart.Sound account := by
  rw [forest_iff_acyclic, forest_iff_acyclic]
  by_cases taken : chart.findById account.id = none
  next =>
    have others : ∀ id, id ≠ account.id → (chart.add account).parentIdOf id = chart.parentIdOf id :=
      fun id => parentIdOf_add_of_ne
    have unlinked : chart.parentIdOf account.id = none := by simp [parentIdOf, taken]
    have added := parentIdOf_add_self taken
    simp only [Sound, taken, forall_const]
    cases parent : account.parentId with
    | none =>
      have same : (chart.add account).parentIdOf = chart.parentIdOf := by
        funext id
        by_cases own : id = account.id
        next => rw [own, added, unlinked, parent]
        next => exact others id own
      rw [same]
      refine (and_iff_left_of_imp fun acyclic => ?_).symm
      simp [validates_iff acyclic, parent]
    | some parent' =>
      rw [acyclic_bind_iff unlinked (added.trans parent) others]
      refine and_congr_right fun acyclic => ?_
      simp [validates_iff acyclic, parent]
  next =>
    rw [parentIdOf_add_of_taken taken]
    exact (and_iff_left fun fresh => absurd fresh taken).symm

theorem forest_run_iff (accounts : List CoaAccount) :
    (run add chart accounts).Forest ↔ chart.Forest ∧ Meets add Sound chart accounts :=
  run_iff_meets fun _ _ => forest_add_iff

theorem forest_new (version : UInt32) : (new version).Forest := by simp [Forest, new]

/-- The chart that a sequence of additions builds is a forest exactly if every account whose id
was new passed the validation it was added without. -/
theorem chart_is_forest_iff (version : UInt32) (accounts : List CoaAccount) :
    (run add (new version) accounts).Forest ↔ Meets add Sound (new version) accounts := by
  rw [forest_run_iff, and_iff_right (forest_new version)]

-- Each of two accounts names the other as its parent, the first before the other is there.
theorem each_others_parents :
    let first := CoaAccount.new ⟨1⟩ "1000" "Assets" .asset (some ⟨2⟩) 1
    let second := CoaAccount.new ⟨2⟩ "1100" "Cash" .asset (some ⟨1⟩) 1
    ¬(run add (new 1) [first, second]).Forest := by
  intro first second
  rw [forest_run_iff, and_iff_right (forest_new 1)]
  decide

theorem forest_of_debug {chart' : ChartOfAccounts} (forest : chart.Forest)
    (added : chart.addAccountDebug account = some (id, chart')) : chart'.Forest := by
  by_cases valid : chart.validateNoCircularRef account = some true
  next =>
    simp only [addAccountDebug, valid, if_true, Option.some.injEq] at added
    have built : chart.add account = chart' := congrArg Prod.snd added
    rw [← built]
    exact forest_add_iff.mpr ⟨forest, fun _ => valid⟩
  next => simp [addAccountDebug, valid] at added

def ancestry (chart : ChartOfAccounts) (account : CoaAccount) : Nat → Option CoaAccountId :=
  after chart.parentIdOf account.id account.parentId

/-- The validation ends on every chart, with an answer that more rounds do not change. It is `true` exactly if
the ancestry ends without repeating an id, and in a forest exactly if a new account leaves it one. -/
theorem validation_decides (chart : ChartOfAccounts) (account : CoaAccount) :
    (∃ answer, chart.validateNoCircularRef account = some answer ∧ ∀ fuel, chart.accounts.length < fuel →
      walk chart.parentIdOf fuel {account.id} account.parentId = some answer) ∧
    (chart.validateNoCircularRef account = some true ↔ EndsUnrepeated (chart.ancestry account)) ∧
    (chart.Forest → chart.findById account.id = none →
      (chart.validateNoCircularRef account = some true ↔ (chart.add account).Forest)) := by
  have answers : (chart.validateNoCircularRef account).isSome := validateNoCircularRef_isSome
  refine ⟨?_, walk_eq_true_iff_endsUnrepeated answers, fun forest fresh => ?_⟩
  · obtain ⟨answer, answered⟩ := Option.isSome_iff_exists.mp answers
    exact ⟨answer, answered, fun fuel more => walk_of_more_fuel answered more⟩
  · rw [forest_add_iff, and_iff_right forest]
    exact ⟨fun valid _ => valid, fun sound => sound fresh⟩

theorem validation_decides_awaited :
    let awaiting := run add (new 1)
      [.new ⟨2⟩ "1100" "Cash" .asset (some ⟨1⟩) 1, .new ⟨3⟩ "1200" "Receivables" .asset (some ⟨2⟩) 1]
    (awaiting.add (.new ⟨1⟩ "1000" "Assets" .asset (some ⟨9⟩) 1)).Forest ∧
      ¬(awaiting.add (.new ⟨1⟩ "1000" "Assets" .asset (some ⟨3⟩) 1)).Forest := by
  intro awaiting
  have forest : awaiting.Forest := (forest_run_iff _).mpr ⟨forest_new 1, by decide⟩
  have decides (parent : CoaAccountId) :=
    (validation_decides awaiting (.new ⟨1⟩ "1000" "Assets" .asset (some parent) 1)).2.2 forest rfl
  exact ⟨(decides ⟨9⟩).mp (by decide), mt (decides ⟨3⟩).mpr (by decide)⟩

theorem parentIdOf_eq (id : CoaAccountId) : chart.parentIdOf id =
    ((chart.accounts.map fun a => (a.id, a.parentId)).find? fun entry => entry.1 = id).bind Prod.snd := by
  rw [List.find?_map, parentIdOf, findById]
  simp only [Function.comp_def]
  cases chart.accounts.find? fun a => a.id = id <;> rfl

theorem forest_deactivate : (chart.deactivate id).2.Forest ↔ chart.Forest := by
  have same : (chart.deactivate id).2.accounts.map (fun a => (a.id, a.parentId)) =
      chart.accounts.map fun a => (a.id, a.parentId) := by
    rw [deactivate]
    cases chart.findById id with
    | none => rfl
    | some _ =>
      apply map_updateFirst
      simp
  have parents : (chart.deactivate id).2.parentIdOf = chart.parentIdOf := by
    funext other
    rw [parentIdOf_eq, parentIdOf_eq, same]
  rw [forest_iff_acyclic, forest_iff_acyclic, parents]

end ChartOfAccounts

end BankingLedger
