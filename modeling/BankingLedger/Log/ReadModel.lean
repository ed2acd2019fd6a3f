import BankingLedger.Log.EventStore
import BankingLedger.Shared.FiniteMap

set_option autoImplicit false

namespace BankingLedger

open FiniteMap MachineInt Runs

inductive JsonNumber where
  | int (n : Int)
  | float (text : String)

inductive JsonValue where
  | null
  | bool (b : Bool)
  | number (n : JsonNumber)
  | string (text : String)
  | array (items : List JsonValue)
  | object (fields : List (String × JsonValue))

namespace JsonValue

-- `data["name"]`: `Null` where there is no such field.
def field (name : String) : JsonValue → JsonValue
  | .object fields => (fields.lookup name).getD .null
  | _ => .null

def asStr : JsonValue → Option String
  | .string text => some text
  | _ => none

def asI64 : JsonValue → Option Int64
  | .number (.int n) => if InRange n then some (.ofInt n) else none
  | _ => none

end JsonValue

/-- `fromStr` is `serde_json::from_str`, `parseStr` is `Uuid::parse_str`. -/
structure PayloadFormat where
  fromStr : String → Option JsonValue
  parseStr : String → Option Uuid

structure AccountProjection where
  accountId : Uuid
  balanceCents : Int64
  totalCredits : Int64
  totalDebits : Int64
  transactionCount : Nat
  lastUpdated : Timestamp
deriving DecidableEq, Repr

structure ReadModel where
  accounts : Map Uuid AccountProjection
  totalSystemBalance : Int64

def PayloadFormat.accountId (format : PayloadFormat) (event : Event) : Option (JsonValue × Uuid) :=
  match format.fromStr event.payload with
  | none => none
  | some data =>
    match (data.field "account_id").asStr with
    | none => none
    | some idStr => (format.parseStr idStr).map fun id => (data, id)

namespace ReadModel

def new : ReadModel := { accounts := ∅, totalSystemBalance := 0 }

def accountCreated (format : PayloadFormat) (event : Event) (model : ReadModel) : ReadModel :=
  match format.accountId event with
  | none => model
  | some (_, id) =>
    { model with
      accounts := model.accounts.insert id
        { accountId := id, balanceCents := 0, totalCredits := 0, totalDebits := 0,
          transactionCount := 0, lastUpdated := event.timestamp } }

-- Sums are taken in `i128`; `delta` is the signed amount, `counted` adds to the credits or debits.
def fundsMoved (delta : Int64 → Int) (counted : Int64 → AccountProjection → AccountProjection)
    (format : PayloadFormat) (event : Event) (model : ReadModel) : ReadModel :=
  match format.accountId event with
  | none => model
  | some (data, id) =>
    let amount := (data.field "amount_cents").asI64.getD 0
    if amount ≤ 0 then model
    else
      match model.accounts.lookup id with
      | none => model
      | some proj =>
        let newBal := proj.balanceCents.toInt + delta amount
        if ¬ InRange newBal then model
        else
          let newSys := model.totalSystemBalance.toInt + delta amount
          if ¬ InRange newSys then model
          else
            { accounts := model.accounts.insert id
                { counted amount proj with
                  balanceCents := .ofInt newBal
                  transactionCount := proj.transactionCount + 1
                  lastUpdated := event.timestamp }
              totalSystemBalance := .ofInt newSys }

def fundsDeposited : PayloadFormat → Event → ReadModel → ReadModel :=
  fundsMoved (fun amount => amount.toInt)
    fun amount proj => { proj with totalCredits := saturatingAdd proj.totalCredits amount }

def fundsWithdrawn : PayloadFormat → Event → ReadModel → ReadModel :=
  fundsMoved (fun amount => -amount.toInt)
    fun amount proj => { proj with totalDebits := saturatingAdd proj.totalDebits amount }

def apply (format : PayloadFormat) (model : ReadModel) (event : Event) : ReadModel :=
  match event.eventType with
  | "AccountCreated" => accountCreated format event model
  | "FundsDeposited" => fundsDeposited format event model
  | "FundsWithdrawn" => fundsWithdrawn format event model
  | _ => model

def rebuild (format : PayloadFormat) (events : List Event) : ReadModel := run (apply format) new events

end ReadModel

section Effect

variable (format : PayloadFormat) (model : ReadModel) (event : Event)

def Event.creates : Option Uuid :=
  if event.eventType = "AccountCreated" then (format.accountId event).map Prod.snd else none

def Event.moves : Option (Uuid × Int) :=
  (format.accountId event).bind fun found =>
    let amount := ((found.1.field "amount_cents").asI64.getD 0).toInt
    if amount ≤ 0 then none
    else if event.eventType = "FundsDeposited" then some (found.2, amount)
    else if event.eventType = "FundsWithdrawn" then some (found.2, -amount)
    else none

-- Malformed, of an unknown type or account, not positive, or more than an `i64` holds.
def ReadModel.Skips : Prop :=
  event.creates format = none ∧ ∀ id delta, event.moves format = some (id, delta) →
    ∀ proj, model.accounts.lookup id = some proj →
      InRange (proj.balanceCents.toInt + delta) → ¬ InRange (model.totalSystemBalance.toInt + delta)

inductive ReadModel.Effect : ReadModel → Prop where
  | skip : model.Skips format event → Effect model
  | create (id : Uuid) (fresh : AccountProjection) : event.creates format = some id →
      fresh.balanceCents = 0 → Effect { model with accounts := model.accounts.insert id fresh }
  | move (id : Uuid) (delta : Int) (proj proj' : AccountProjection) (total : Int64) :
      event.moves format = some (id, delta) → model.accounts.lookup id = some proj →
      proj'.balanceCents.toInt = proj.balanceCents.toInt + delta →
      total.toInt = model.totalSystemBalance.toInt + delta →
      Effect { accounts := model.accounts.insert id proj', totalSystemBalance := total }

variable {format model event}

theorem fundsMoved_effect {delta : Int64 → Int}
    (counted : Int64 → AccountProjection → AccountProjection) (other : event.creates format = none)
    (moves : event.moves format = (format.accountId event).bind fun found =>
      let amount := (found.1.field "amount_cents").asI64.getD 0
      if amount.toInt ≤ 0 then none else some (found.2, delta amount)) :
    model.Effect format event (model.fundsMoved delta counted format event) := by
  unfold ReadModel.fundsMoved
  cases decoded : format.accountId event with
  | none =>
    refine .skip ⟨other, fun id moved named => ?_⟩
    simp [moves, decoded] at named
  | some found =>
    obtain ⟨data, id⟩ := found
    simp only [decoded, Option.bind_some] at moves
    simp only [nonpos_iff]
    generalize (data.field "amount_cents").asI64.getD 0 = amount at moves ⊢
    split
    · next nonpositive =>
      refine .skip ⟨other, fun id moved named => ?_⟩
      simp [moves, nonpositive] at named
    · next positive =>
      rw [if_neg positive] at moves
      -- Every way to stop from here on is an account or a sum that `Skips` names.
      have skips (stops : ∀ proj, model.accounts.lookup id = some proj →
          InRange (proj.balanceCents.toInt + delta amount) →
            ¬ InRange (model.totalSystemBalance.toInt + delta amount)) :
          model.Skips format event := by
        refine ⟨other, fun id' delta' named => ?_⟩
        rw [moves] at named
        cases named
        exact stops
      cases known : model.accounts.lookup id with
      | none => exact .skip (skips fun proj found => by rw [known] at found; cases found)
      | some proj =>
        simp only
        split
        · next outside =>
          refine .skip (skips fun proj' found inside => ?_)
          rw [known] at found
          cases found
          exact absurd inside outside
        · next inside =>
          rw [not_not] at inside
          split
          · next outside => exact .skip (skips fun _ _ _ => outside)
          · next total =>
            rw [not_not] at total
            exact .move id (delta amount) proj _ _ moves known (toInt_ofInt_of_inRange inside)
              (toInt_ofInt_of_inRange total)

theorem apply_effect : model.Effect format event (model.apply format event) := by
  unfold ReadModel.apply
  split
  · next created =>
    unfold ReadModel.accountCreated
    cases decoded : format.accountId event with
    | none =>
      refine .skip ⟨by simp [Event.creates, created, decoded], fun id delta named => ?_⟩
      simp [Event.moves, decoded] at named
    | some found => exact .create found.2 _ (by simp [Event.creates, created, decoded]) rfl
  · next deposited =>
    exact fundsMoved_effect _ (by simp [Event.creates, deposited]) (by simp [Event.moves, deposited])
  · next withdrawn =>
    exact fundsMoved_effect _ (by simp [Event.creates, withdrawn]) (by simp [Event.moves, withdrawn])
  · next created deposited withdrawn =>
    refine .skip ⟨if_neg created, fun id delta named => ?_⟩
    simp [Event.moves, if_neg deposited, if_neg withdrawn] at named

end Effect

section Totals

variable (format : PayloadFormat) (model : ReadModel) (event : Event)

def ReadModel.balances : Int := total (fun proj => proj.balanceCents.toInt) model.accounts

-- The balance that the creation of an existing account does away with.
def ReadModel.overwritten : Int :=
  match event.creates format with
  | none => 0
  | some id => valueAt (fun proj => proj.balanceCents.toInt) model.accounts id

def ReadModel.Unchanged : Prop := model.Skips format event → model.apply format event = model

variable {format model event}

theorem unchanged : model.Unchanged format event := by
  rintro ⟨uncreated, stops⟩
  have effect := @apply_effect format model event
  generalize model.apply format event = model' at effect ⊢
  cases effect with
  | skip => rfl
  | create id fresh creates _ =>
    rw [uncreated] at creates
    cases creates
  | move id delta proj proj' total moves known balance sum =>
    have inside : InRange (proj.balanceCents.toInt + delta) := balance ▸ inRange_toInt _
    exact absurd (sum ▸ inRange_toInt _) (stops id delta moves proj known inside)

theorem creates_of_moves {moved : Uuid × Int} (moves : event.moves format = some moved) :
    event.creates format = none := by
  apply if_neg
  intro created
  simp [Event.moves, created] at moves

theorem apply_gap :
    (model.apply format event).totalSystemBalance.toInt - (model.apply format event).balances =
      model.totalSystemBalance.toInt - model.balances + model.overwritten format event := by
  have effect := @apply_effect format model event
  generalize model.apply format event = model' at effect ⊢
  cases effect with
  | skip skips => simp [ReadModel.overwritten, skips.1]
  | create id fresh creates empty =>
    simp only [ReadModel.balances, total_insert_eq, empty, ReadModel.overwritten, creates,
      Int64.toInt_zero]
    omega
  | move id delta proj proj' total moves known balance sum =>
    simp only [ReadModel.balances, total_insert_eq, valueAt_of_found known, balance, sum,
      ReadModel.overwritten, creates_of_moves moves]
    omega

end Totals

/-- The total of a rebuilt model is the sum of its balances, with every skipped event leaving no
trace, exactly when the balances overwritten by creations add up to nothing. -/
theorem read_model_consistent_iff (format : PayloadFormat) (events : List Event) :
    ((ReadModel.rebuild format events).totalSystemBalance.toInt =
          (ReadModel.rebuild format events).balances ∧
        Meets (ReadModel.apply format) (ReadModel.Unchanged format) .new events) ↔
      tally (ReadModel.apply format) (ReadModel.overwritten format) .new events = 0 := by
  let gap (model : ReadModel) : Int := model.totalSystemBalance.toInt - model.balances
  have final : gap (run (ReadModel.apply format) .new events) = _ :=
    run_tally (fun model event => @apply_gap format model event) .new events
  have empty : ReadModel.new.balances = 0 := by simp [ReadModel.balances, ReadModel.new, total]
  have start : ReadModel.new.totalSystemBalance.toInt = 0 := rfl
  rw [and_iff_left (meets_of_forall (fun _ _ => unchanged) _ _), ReadModel.rebuild]
  simp only [gap, empty, start] at final
  omega

namespace Sample

def accountText : String := "00000000-0000-0000-0000-000000000001"

def accountPayload : String := "\x7b\"account_id\":\"00000000-0000-0000-0000-000000000001\"\x7d"

def depositPayload : String :=
  "\x7b\"account_id\":\"00000000-0000-0000-0000-000000000001\",\"amount_cents\":100\x7d"

-- `serde_json` and `uuid` on the payloads below.
def payloads : PayloadFormat where
  fromStr text :=
    if text = accountPayload then some (.object [("account_id", .string accountText)])
    else if text = depositPayload then
      some (.object [("account_id", .string accountText), ("amount_cents", .number (.int 100))])
    else none
  parseStr text := if text = accountText then some ⟨1⟩ else none

def recreated : List Event :=
  [.new ⟨10⟩ ⟨0⟩ "AccountCreated" ⟨1⟩ accountPayload 1,
    .new ⟨11⟩ ⟨1⟩ "FundsDeposited" ⟨1⟩ depositPayload 2,
    .new ⟨12⟩ ⟨2⟩ "AccountCreated" ⟨1⟩ accountPayload 3]

end Sample

open Sample

/-- The second creation takes the balance of 100 away and leaves it in the total. -/
theorem recreated_account_loses_balance :
    (ReadModel.rebuild payloads recreated).totalSystemBalance = 100 ∧
      ((ReadModel.rebuild payloads recreated).accounts.lookup ⟨1⟩).map
        AccountProjection.balanceCents = some 0 ∧
      (ReadModel.rebuild payloads recreated).totalSystemBalance.toInt ≠
        (ReadModel.rebuild payloads recreated).balances := by
  decide +kernel

end BankingLedger
