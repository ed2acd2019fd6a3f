import BankingLedger.Log.ReadModel
import BankingLedger.Shared.Streams

set_option autoImplicit false

namespace BankingLedger

open FiniteMap MachineInt Runs Streams

structure ShardRouter where
  numShards : UInt32

namespace ShardRouter

def asBytes (id : Uuid) : List UInt8 := (List.range 16).map fun i => .ofNat (id.bits >>> (8 * (15 - i))).toNat

def shardFor (router : ShardRouter) (accountId : Uuid) : Option UInt32 :=
  let hash := (asBytes accountId).foldl (fun acc b => acc * 31 + b.toUInt64) (0 : UInt64)
  if router.numShards = 0 then none else some (hash % router.numShards.toUInt64).toUInt32

def shardForTx (router : ShardRouter) (primaryAccount : Uuid) : Option UInt32 := router.shardFor primaryAccount

theorem shardFor_lt {router : ShardRouter} {accountId : Uuid} {shard : UInt32}
    (routed : router.shardFor accountId = some shard) : shard < router.numShards := by
  unfold shardFor at routed
  split_ifs at routed with none
  obtain rfl := Option.some.inj routed
  have positive : 0 < router.numShards.toNat := by
    rw [Nat.pos_iff_ne_zero]
    exact fun zero => none (UInt32.toNat_inj.mp zero)
  have small := router.numShards.toNat_lt
  have below := Nat.mod_lt ((asBytes accountId).foldl (fun acc b => acc * 31 + b.toUInt64) (0 : UInt64)).toNat positive
  rw [UInt32.lt_iff_toNat_lt, UInt64.toNat_toUInt32, UInt64.toNat_mod, UInt32.toNat_toUInt64]
  exact Nat.lt_of_le_of_lt (Nat.mod_le _ _) below

end ShardRouter

section Parts

variable (format : PayloadFormat)

def Event.account (event : Event) : Option Uuid :=
  (event.creates format).or ((event.moves format).map Prod.fst)

def Event.shard (router : ShardRouter) (event : Event) : Option UInt32 :=
  (event.account format).bind router.shardFor

/-- The total has room for what the balance has room for. -/
def ReadModel.TotalFits (model : ReadModel) (event : Event) : Prop :=
  ∀ id delta, event.moves format = some (id, delta) → ∀ proj, model.accounts.lookup id = some proj →
    InRange (proj.balanceCents.toInt + delta) → InRange (model.totalSystemBalance.toInt + delta)

instance (model : ReadModel) (event : Event) : Decidable (model.TotalFits format event) :=
  match moves : event.moves format with
  | none => isTrue fun id delta named => by rw [moves] at named; cases named
  | some (id, delta) =>
    match known : model.accounts.lookup id with
    | none =>
      isTrue fun id' delta' named proj found => by
        rw [moves] at named
        cases named
        rw [known] at found
        cases found
    | some proj =>
      decidable_of_iff
        (InRange (proj.balanceCents.toInt + delta) → InRange (model.totalSystemBalance.toInt + delta)) (by
          constructor
          · intro room id' delta' named proj' found
            rw [moves] at named
            cases named
            rw [known] at found
            cases found
            exact room
          · exact fun fits => fits id delta moves proj known)

def ReadModel.only (id : Uuid) (proj : Option AccountProjection) : ReadModel where
  accounts := proj.elim ∅ fun proj => (∅ : Map Uuid AccountProjection).insert id proj
  totalSystemBalance := 0

def advance (proj : Option AccountProjection) (event : Event) : Option AccountProjection :=
  match event.account format with
  | none => proj
  | some id => ((ReadModel.only id proj).apply format event).accounts.lookup id

def projection (model : ReadModel) (id : Uuid) : Option AccountProjection := model.accounts.lookup id

variable {format} {model model' : ReadModel} {event : Event} {id : Uuid}

theorem account_of_creates (creates : event.creates format = some id) : event.account format = some id := by
  rw [Event.account, creates, Option.some_or]

theorem account_of_moves {delta : Int} (moves : event.moves format = some (id, delta)) :
    event.account format = some id := by
  rw [Event.account, creates_of_moves moves, Option.none_or, moves, Option.map_some]

theorem lookup_apply_other (other : event.account format ≠ some id) :
    projection (model.apply format event) id = projection model id := by
  have effect := @apply_effect format model event
  generalize model.apply format event = model' at effect ⊢
  cases effect with
  | skip => rfl
  | create key fresh creates empty =>
    refine (lookup_insert_eq _ _ _ _).trans (if_neg fun same => other ?_)
    rw [same, account_of_creates creates]
  | move key delta proj proj' total moves known balance sum =>
    refine (lookup_insert_eq _ _ _ _).trans (if_neg fun same => other ?_)
    rw [same, account_of_moves moves]

@[simp] theorem lookup_only (id : Uuid) (proj : Option AccountProjection) :
    (ReadModel.only id proj).accounts.lookup id = proj := by
  cases proj with
  | none => rfl
  | some proj => exact Finmap.lookup_insert (∅ : Map Uuid AccountProjection)

theorem inRange_of_moves {delta : Int} (moves : event.moves format = some (id, delta)) : InRange delta := by
  simp only [Event.moves, Option.bind_eq_some_iff] at moves
  obtain ⟨found, -, moves⟩ := moves
  have amount := bounds ((found.1.field "amount_cents").asI64.getD 0)
  generalize ((found.1.field "amount_cents").asI64.getD 0).toInt = n at moves amount
  rw [InRange, Int64.toInt_minValue, Int64.toInt_maxValue]
  split_ifs at moves <;> cases moves <;> constructor <;> omega

theorem only_totalFits (id : Uuid) (proj : Option AccountProjection) :
    (ReadModel.only id proj).TotalFits format event := by
  intro key delta moves _ _ _
  rw [ReadModel.only, Int64.toInt_zero, zero_add]
  exact inRange_of_moves moves

theorem lookup_fundsMoved_congr {delta : Int64 → Int} (counted : Int64 → AccountProjection → AccountProjection)
    (moves : event.moves format = (format.accountId event).bind fun found =>
      let amount := (found.1.field "amount_cents").asI64.getD 0
      if amount.toInt ≤ 0 then none else some (found.2, delta amount))
    (same : projection model id = projection model' id) (fits : model.TotalFits format event)
    (fits' : model'.TotalFits format event) (about : event.account format = some id) :
    projection (model.fundsMoved delta counted format event) id =
      projection (model'.fundsMoved delta counted format event) id := by
  unfold ReadModel.fundsMoved
  cases decoded : format.accountId event with
  | none => exact same
  | some found =>
    obtain ⟨data, key⟩ := found
    rw [decoded, Option.bind_some] at moves
    simp only [nonpos_iff] at moves ⊢
    generalize (data.field "amount_cents").asI64.getD 0 = amount at moves ⊢
    by_cases nonpositive : amount.toInt ≤ 0
    next =>
      rw [if_pos nonpositive, if_pos nonpositive]
      exact same
    next =>
      rw [if_neg nonpositive] at moves
      obtain rfl : key = id := Option.some.inj ((account_of_moves moves).symm.trans about)
      rw [if_neg nonpositive, if_neg nonpositive]
      cases known : model.accounts.lookup key with
      | none =>
        rw [show model'.accounts.lookup key = none from same.symm.trans known]
        exact same
      | some proj =>
        have known' : model'.accounts.lookup key = some proj := same.symm.trans known
        simp only [known']
        by_cases inside : InRange (proj.balanceCents.toInt + delta amount)
        next =>
          have room := fits key _ moves proj known inside
          have room' := fits' key _ moves proj known' inside
          rw [if_neg (not_not.mpr inside), if_neg (not_not.mpr inside), if_neg (not_not.mpr room),
            if_neg (not_not.mpr room')]
          simp only [projection, Finmap.lookup_insert]
        next =>
          rw [if_pos inside, if_pos inside]
          exact same

theorem lookup_apply_congr (same : projection model id = projection model' id)
    (fits : model.TotalFits format event) (fits' : model'.TotalFits format event)
    (about : event.account format = some id) :
    projection (model.apply format event) id = projection (model'.apply format event) id := by
  unfold ReadModel.apply
  split
  next =>
    unfold ReadModel.accountCreated
    cases format.accountId event with
    | none => exact same
    | some found =>
      refine (lookup_insert_eq _ _ _ _).trans ?_
      refine Eq.trans ?_ (lookup_insert_eq _ _ _ _).symm
      split_ifs
      · rfl
      · exact same
  next deposited => exact lookup_fundsMoved_congr _ (by simp [Event.moves, deposited]) same fits fits' about
  next withdrawn => exact lookup_fundsMoved_congr _ (by simp [Event.moves, withdrawn]) same fits fits' about
  next => exact same

theorem apply_local :
    Local (ReadModel.apply format) (ReadModel.TotalFits format) (Event.account format) projection (advance format) where
  own model event id fits about := by
    rw [advance, about]
    exact lookup_apply_congr (lookup_only id (projection model id)).symm fits (only_totalFits id _) about
  other model event id _ other := lookup_apply_other other

-- The balance that is overwritten is that of the account of the event.
theorem overwritten_eq : ReadModel.overwritten format = weighed (Event.account format) projection
    fun proj event => if (event.creates format).isSome then proj.elim 0 fun proj => proj.balanceCents.toInt else 0 := by
  funext model event
  rw [ReadModel.overwritten, weighed]
  cases creates : event.creates format with
  | none => cases event.account format <;> rfl
  | some id => rw [account_of_creates creates]; rfl

end Parts

section Rebuild

variable {format : PayloadFormat} {events events' : List Event}

theorem balances_congr {model model' : ReadModel} (same : model.accounts = model'.accounts) :
    model.balances = model'.balances := by rw [ReadModel.balances, same, ReadModel.balances]

theorem rebuild_eq (fits : Meets (ReadModel.apply format) (ReadModel.TotalFits format) .new events)
    (fits' : Meets (ReadModel.apply format) (ReadModel.TotalFits format) .new events')
    (same : SameStreams (Event.account format) events events') :
    ReadModel.rebuild format events = ReadModel.rebuild format events' := by
  have accounts : (ReadModel.rebuild format events).accounts = (ReadModel.rebuild format events').accounts :=
    Finmap.ext_lookup fun id => apply_local.run_eq fits fits' same id
  let gap (model : ReadModel) : Int := model.totalSystemBalance.toInt - model.balances
  have each (events : List Event) : gap (ReadModel.rebuild format events) =
      gap .new + tally (ReadModel.apply format) (ReadModel.overwritten format) .new events :=
    run_tally (fun model event => @apply_gap format model event) .new events
  have lost : tally (ReadModel.apply format) (ReadModel.overwritten format) .new events =
      tally (ReadModel.apply format) (ReadModel.overwritten format) .new events' := by
    rw [overwritten_eq]
    exact apply_local.tally_eq fits fits' same
  have totals : (ReadModel.rebuild format events).totalSystemBalance =
      (ReadModel.rebuild format events').totalSystemBalance := by
    have first := each events
    have second := each events'
    have balances := balances_congr accounts
    simp only [gap] at first second
    exact Int64.toInt_inj.mp (by omega)
  generalize ReadModel.rebuild format events = model at accounts totals ⊢
  generalize ReadModel.rebuild format events' = model' at accounts totals ⊢
  cases model
  cases model'
  cases accounts
  cases totals
  rfl

theorem sameStreams_of_shards {router : ShardRouter} (shards : router.numShards ≠ 0)
    (same : SameStreams (Event.shard format router) events events') :
    SameStreams (Event.account format) events events' := by
  have routed : Event.shard format router = fun event =>
      (event.account format).map fun id => (router.shardFor id).getD 0 := by
    funext event
    rw [Event.shard]
    cases event.account format with
    | none => rfl
    | some id =>
      rw [Option.bind_some, Option.map_some, ShardRouter.shardFor]
      simp only [if_neg shards, Option.getD_some]
  rw [routed] at same
  exact same.finer

end Rebuild

/-- As long as the total has room, a rebuilt model does not depend on how the events of the accounts are merged,
nor on the order in which the shards of a router are read. -/
theorem read_model_order_free (format : PayloadFormat) (events events' : List Event)
    (fits : Meets (ReadModel.apply format) (ReadModel.TotalFits format) .new events)
    (fits' : Meets (ReadModel.apply format) (ReadModel.TotalFits format) .new events') :
    (SameStreams (Event.account format) events events' →
      ReadModel.rebuild format events = ReadModel.rebuild format events') ∧
    ∀ router : ShardRouter, router.numShards ≠ 0 → SameStreams (Event.shard format router) events events' →
      ReadModel.rebuild format events = ReadModel.rebuild format events' := by
  constructor
  next => exact rebuild_eq fits fits'
  next => exact fun router shards same => rebuild_eq fits fits' (sameStreams_of_shards shards same)

namespace Sample

def savingsText : String := "00000000-0000-0000-0000-000000000002"

def savingsPayload : String := "\x7b\"account_id\":\"00000000-0000-0000-0000-000000000002\"\x7d"

def withdrawalPayload : String :=
  "\x7b\"account_id\":\"00000000-0000-0000-0000-000000000002\",\"amount_cents\":30\x7d"

def twoPayloads : PayloadFormat where
  fromStr text :=
    if text = savingsPayload then some (.object [("account_id", .string savingsText)])
    else if text = withdrawalPayload then
      some (.object [("account_id", .string savingsText), ("amount_cents", .number (.int 30))])
    else payloads.fromStr text
  parseStr text := if text = savingsText then some ⟨2⟩ else payloads.parseStr text

def openFirst : Event := .new ⟨10⟩ ⟨0⟩ "AccountCreated" ⟨1⟩ accountPayload 1
def depositFirst : Event := .new ⟨11⟩ ⟨1⟩ "FundsDeposited" ⟨1⟩ depositPayload 2
def openSavings : Event := .new ⟨12⟩ ⟨2⟩ "AccountCreated" ⟨2⟩ savingsPayload 1
def withdrawSavings : Event := .new ⟨13⟩ ⟨3⟩ "FundsWithdrawn" ⟨2⟩ withdrawalPayload 2

end Sample

open Sample

theorem read_model_order_free_merged :
    ReadModel.rebuild twoPayloads [openFirst, openSavings, withdrawSavings, depositFirst] =
      ReadModel.rebuild twoPayloads [openSavings, openFirst, depositFirst, withdrawSavings] :=
  (read_model_order_free twoPayloads [openFirst, openSavings, withdrawSavings, depositFirst]
    [openSavings, openFirst, depositFirst, withdrawSavings] (by decide +kernel) (by decide +kernel)).1
    (sameStreams_of_keys [⟨1⟩, ⟨2⟩] (by decide +kernel) (by decide +kernel))

end BankingLedger
