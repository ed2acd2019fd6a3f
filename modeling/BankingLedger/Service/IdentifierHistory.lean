import BankingLedger.Service.IdentityService
import BankingLedger.Shared.ParentLinks
import BankingLedger.Shared.Runs

set_option autoImplicit false

namespace BankingLedger

open FiniteMap ParentLinks Relation Runs

inductive IdentityCall where
  | createParty (id : PartyId) (now : Timestamp) (partyType : PartyType) (legalName : String)
  | addIdentifier (id : Uuid) (now : Timestamp) (partyId : PartyId) (identifierType : IdentifierType)
      (value : String) (issuingCountry : Option String)
  | replaceIdentifier (id : Uuid) (now verifiedAt : Timestamp) (oldIdentifierId : Uuid) (newValue : String)

inductive IdentityReply where
  | party (party : Party)
  | identifier (identifier : Identifier)

structure Identifier.Kept (i i' : Identifier) : Prop where
  id : i'.id = i.id
  partyId : i'.partyId = i.partyId
  identifierType : i'.identifierType = i.identifierType
  value : i'.value = i.value
  issuingCountry : i'.issuingCountry = i.issuingCountry
  replaces : i'.replaces = i.replaces
  status : i'.status = i.status ∨ i'.status = .Inactive

theorem Identifier.Kept.refl (i : Identifier) : i.Kept i :=
  ⟨rfl, rfl, rfl, rfl, rfl, rfl, .inl rfl⟩

theorem Identifier.Kept.inactive (i : Identifier) : i.Kept { i with status := .Inactive } :=
  ⟨rfl, rfl, rfl, rfl, rfl, rfl, .inr rfl⟩

theorem Identifier.Kept.trans {i i' i'' : Identifier} (first : i.Kept i') (second : i'.Kept i'') : i.Kept i'' where
  id := second.id.trans first.id
  partyId := second.partyId.trans first.partyId
  identifierType := second.identifierType.trans first.identifierType
  value := second.value.trans first.value
  issuingCountry := second.issuingCountry.trans first.issuingCountry
  replaces := second.replaces.trans first.replaces
  status := by
    cases second.status with
    | inl same => simpa only [same] using first.status
    | inr inactive => exact .inr inactive

namespace IdentityService

def handle (svc : IdentityService) : IdentityCall → Except IdentityError IdentityReply × IdentityService
  | .createParty id now partyType legalName =>
    (.ok (.party (svc.createParty id now partyType legalName).1),
      (svc.createParty id now partyType legalName).2)
  | .addIdentifier id now partyId identifierType value issuingCountry =>
    ((svc.addIdentifier id now partyId identifierType value issuingCountry).1.map .identifier,
      (svc.addIdentifier id now partyId identifierType value issuingCountry).2)
  | .replaceIdentifier id now verifiedAt oldIdentifierId newValue =>
    ((svc.replaceIdentifier id now verifiedAt oldIdentifierId newValue).1.map .identifier,
      (svc.replaceIdentifier id now verifiedAt oldIdentifierId newValue).2)

def after (svc : IdentityService) (call : IdentityCall) : IdentityService := (svc.handle call).2

def Fresh (svc : IdentityService) : IdentityCall → Prop
  | .createParty .. => True
  | .addIdentifier id .. | .replaceIdentifier id .. => svc.identifiers.lookup id = none

def replacesOf (svc : IdentityService) (id : Uuid) : Option Uuid :=
  (svc.identifiers.lookup id).bind Identifier.replaces

def retire (svc : IdentityService) (id : Uuid) (old : Identifier) : IdentityService :=
  { svc with identifiers := svc.identifiers.insert id { old with status := .Inactive } }

structure History (svc : IdentityService) : Prop where
  keyed : ∀ id i, svc.identifiers.lookup id = some i → i.id = id
  listed : ∀ id i, svc.identifiers.lookup id = some i → ∀ partyId,
    (svc.identifiersOf partyId).count id = if partyId = i.partyId then 1 else 0
  pointers : ∀ id i, svc.identifiers.lookup id = some i → ∀ old, i.replaces = some old →
    ∃ o, svc.identifiers.lookup old = some o ∧ o.partyId = i.partyId ∧ o.identifierType = i.identifierType
  acyclic : Acyclic svc.replacesOf
  known : ∀ partyId, ∀ id ∈ svc.identifiersOf partyId, svc.identifiers.lookup id ≠ none

/-- No identifier is lost and none is rewritten. -/
def Extends (svc svc' : IdentityService) : Prop :=
  ∀ id i, svc.identifiers.lookup id = some i → ∃ i', svc'.identifiers.lookup id = some i' ∧ i.Kept i'

variable {svc svc' svc'' : IdentityService} {id : Uuid} {old identifier : Identifier} {call : IdentityCall}

theorem Extends.refl (svc : IdentityService) : svc.Extends svc := fun _ i found => ⟨i, found, .refl i⟩

theorem Extends.trans (first : svc.Extends svc') (second : svc'.Extends svc'') : svc.Extends svc'' := by
  intro id i found
  obtain ⟨i', found', kept⟩ := first id i found
  obtain ⟨i'', found'', kept'⟩ := second id i' found'
  exact ⟨i'', found'', kept.trans kept'⟩

section Lookup

@[simp] theorem lookup_retire (other : Uuid) : (svc.retire id old).identifiers.lookup other =
    if other = id then some { old with status := .Inactive } else svc.identifiers.lookup other :=
  lookup_insert_eq ..

@[simp] theorem identifiersOf_retire (partyId : PartyId) :
    (svc.retire id old).identifiersOf partyId = svc.identifiersOf partyId := rfl

@[simp] theorem lookup_record (other : Uuid) : (svc.record identifier).identifiers.lookup other =
    if other = identifier.id then some identifier else svc.identifiers.lookup other :=
  lookup_insert_eq ..

@[simp] theorem identifiersOf_record (partyId : PartyId) : (svc.record identifier).identifiersOf partyId =
    svc.identifiersOf partyId ++ if partyId = identifier.partyId then [identifier.id] else [] := by
  by_cases own : partyId = identifier.partyId
  next =>
    subst own
    simp [identifiersOf, record]
  next => simp [identifiersOf, record, own]

end Lookup

section Chains

theorem link_replacesOf_iff {x y : Uuid} : Link svc.replacesOf x y ↔
    ∃ i, svc.identifiers.lookup x = some i ∧ i.replaces = some y := Option.bind_eq_some_iff

theorem replacesOf_of_fresh (fresh : svc.identifiers.lookup id = none) : svc.replacesOf id = none := by
  simp [replacesOf, fresh]

theorem replacesOf_retire (found : svc.identifiers.lookup id = some old) :
    (svc.retire id old).replacesOf = svc.replacesOf := by
  funext other
  simp only [replacesOf, lookup_retire]
  split_ifs with same
  next =>
    subst same
    simp [found]
  next => rfl

theorem replacesOf_record (other : Uuid) : (svc.record identifier).replacesOf other =
    if other = identifier.id then identifier.replaces else svc.replacesOf other := by
  simp only [replacesOf, lookup_record]
  split_ifs <;> rfl

theorem replacesOf_record_root (fresh : svc.identifiers.lookup identifier.id = none)
    (root : identifier.replaces = none) : (svc.record identifier).replacesOf = svc.replacesOf := by
  funext other
  rw [replacesOf_record]
  split_ifs with same
  next => rw [same, root, replacesOf_of_fresh fresh]
  next => rfl

end Chains

theorem extends_retire (found : svc.identifiers.lookup id = some old) : svc.Extends (svc.retire id old) := by
  intro other i here
  by_cases same : other = id
  next =>
    subst same
    obtain rfl : old = i := Option.some.inj (found.symm.trans here)
    exact ⟨_, by simp, .inactive old⟩
  next => exact ⟨i, by simp [same, here], .refl i⟩

theorem extends_record (fresh : svc.identifiers.lookup identifier.id = none) :
    svc.Extends (svc.record identifier) := by
  intro other i here
  have apart := ne_of_lookup here fresh
  exact ⟨i, by simp [apart, here], .refl i⟩

theorem history_new : History new where
  keyed := by simp [new]
  listed := by simp [new]
  pointers := by simp [new]
  acyclic := fun id cycle => by
    obtain ⟨_, linked, _⟩ := TransGen.head'_iff.mp cycle
    simp [link_replacesOf_iff, new] at linked
  known := by simp [new, identifiersOf]

theorem History.retire (history : svc.History) (found : svc.identifiers.lookup id = some old) :
    (svc.retire id old).History := by
  have back : ∀ other i, (svc.retire id old).identifiers.lookup other = some i →
      ∃ before, svc.identifiers.lookup other = some before ∧ before.Kept i := by
    intro other i here
    rw [lookup_retire] at here
    split_ifs at here with same
    next =>
      subst same
      cases here
      exact ⟨old, found, .inactive old⟩
    next => exact ⟨i, here, .refl i⟩
  refine { keyed := ?_, listed := ?_, pointers := ?_, acyclic := ?_, known := ?_ }
  next =>
    intro other i here
    obtain ⟨before, was, kept⟩ := back other i here
    exact kept.id.trans (history.keyed other before was)
  next =>
    intro other i here partyId
    obtain ⟨before, was, kept⟩ := back other i here
    rw [kept.partyId]
    exact history.listed other before was partyId
  next =>
    intro other i here target pointer
    obtain ⟨before, was, kept⟩ := back other i here
    rw [kept.replaces] at pointer
    obtain ⟨o, there, party, type⟩ := history.pointers other before was target pointer
    obtain ⟨o', there', kept'⟩ := extends_retire found target o there
    refine ⟨o', there', ?_, ?_⟩
    · rw [kept'.partyId, kept.partyId, party]
    · rw [kept'.identifierType, kept.identifierType, type]
  next =>
    rw [replacesOf_retire found]
    exact history.acyclic
  next =>
    intro partyId other member
    rw [lookup_retire]
    split_ifs
    next => simp
    next => exact history.known partyId other member

theorem History.not_reached (history : svc.History) (fresh : svc.identifiers.lookup id = none) {x : Uuid}
    (apart : x ≠ id) : ¬ReflTransGen (Link svc.replacesOf) x id := by
  intro path
  cases path with
  | refl => exact apart rfl
  | tail _ linked =>
    obtain ⟨i, here, pointer⟩ := link_replacesOf_iff.mp linked
    obtain ⟨o, there, _⟩ := history.pointers _ i here id pointer
    rw [fresh] at there
    cases there

theorem History.acyclic_record (history : svc.History) (fresh : svc.identifiers.lookup identifier.id = none)
    (apart : ∀ old, identifier.replaces = some old → old ≠ identifier.id) :
    Acyclic (svc.record identifier).replacesOf := by
  cases pointer : identifier.replaces with
  | none =>
    rw [replacesOf_record_root fresh pointer]
    exact history.acyclic
  | some old =>
    have bound : Link (svc.record identifier).replacesOf identifier.id old := by
      rw [Link, replacesOf_record, if_pos rfl, pointer]
    have others : ∀ other, other ≠ identifier.id →
        (svc.record identifier).replacesOf other = svc.replacesOf other := by
      intro other elsewhere
      rw [replacesOf_record, if_neg elsewhere]
    rw [acyclic_bind_iff (replacesOf_of_fresh fresh) bound others]
    exact ⟨history.acyclic, history.not_reached fresh (apart old pointer)⟩

theorem History.record (history : svc.History) (fresh : svc.identifiers.lookup identifier.id = none)
    (linked : ∀ old, identifier.replaces = some old → ∃ o, svc.identifiers.lookup old = some o ∧
      o.partyId = identifier.partyId ∧ o.identifierType = identifier.identifierType) :
    (svc.record identifier).History := by
  have apart : ∀ other i, svc.identifiers.lookup other = some i → other ≠ identifier.id :=
    fun other i here => ne_of_lookup here fresh
  have unlisted : ∀ partyId, identifier.id ∉ svc.identifiersOf partyId :=
    fun partyId member => history.known partyId _ member fresh
  have reaches : ∀ old o, svc.identifiers.lookup old = some o →
      (svc.record identifier).identifiers.lookup old = some o := by
    intro old o there
    simp [apart old o there, there]
  refine { keyed := ?_, listed := ?_, pointers := ?_, acyclic := ?_, known := ?_ }
  next =>
    intro other i here
    rw [lookup_record] at here
    split_ifs at here with same
    next =>
      cases here
      exact same.symm
    next => exact history.keyed other i here
  next =>
    intro other i here partyId
    rw [lookup_record] at here
    rw [identifiersOf_record, List.count_append]
    split_ifs at here with same
    next =>
      cases here
      have none := List.count_eq_zero.mpr (unlisted partyId)
      rw [same, none]
      split_ifs <;> simp
    next =>
      rw [history.listed other i here partyId]
      have elsewhere : identifier.id ≠ other := fun same' => same same'.symm
      split_ifs <;> simp [elsewhere]
  next =>
    intro other i here old pointer
    rw [lookup_record] at here
    split_ifs at here with same
    next =>
      cases here
      obtain ⟨o, there, rest⟩ := linked old pointer
      exact ⟨o, reaches old o there, rest⟩
    next =>
      obtain ⟨o, there, rest⟩ := history.pointers other i here old pointer
      exact ⟨o, reaches old o there, rest⟩
  next =>
    refine history.acyclic_record fresh fun old pointer => ?_
    obtain ⟨o, there, _⟩ := linked old pointer
    exact apart old o there
  next =>
    intro partyId other member
    rw [identifiersOf_record, List.mem_append] at member
    rw [lookup_record]
    split_ifs with same
    next => simp
    next =>
      cases member with
      | inl before => exact history.known partyId other before
      | inr now =>
        split_ifs at now
        next => exact absurd (List.mem_singleton.mp now) same
        next => cases now

def replacement (id : Uuid) (now verifiedAt : Timestamp) (newValue : String) (old : Identifier) : Identifier :=
  (old.replaceWith id now verifiedAt newValue).1

theorem replaceIdentifier_eq {now verifiedAt : Timestamp} {oldIdentifierId : Uuid} {newValue : String} :
    svc.replaceIdentifier id now verifiedAt oldIdentifierId newValue =
      match svc.identifiers.lookup oldIdentifierId with
      | none => (.error (.identifierNotFound oldIdentifierId), svc)
      | some old =>
        (.ok (replacement id now verifiedAt newValue old),
          (svc.retire oldIdentifierId old).record (replacement id now verifiedAt newValue old)) := rfl

section Calls

theorem handle_failed {e : IdentityError} (failed : (svc.handle call).1 = .error e) : svc.after call = svc := by
  cases call with
  | createParty id now partyType legalName => cases failed
  | addIdentifier id now partyId identifierType value issuingCountry =>
    simp only [after, handle, addIdentifier] at failed ⊢
    cases found : svc.getParty partyId with
    | none => rfl
    | some party =>
      simp only [found] at failed ⊢
      by_cases active : party.status = .Active
      next => simp [active, Except.map] at failed
      next => simp [active]
  | replaceIdentifier id now verifiedAt oldIdentifierId newValue =>
    simp only [after, handle, replaceIdentifier_eq] at failed ⊢
    cases found : svc.identifiers.lookup oldIdentifierId with
    | none => rfl
    | some old => simp [found, Except.map] at failed

theorem after_cases (svc : IdentityService) (call : IdentityCall) (fresh : svc.Fresh call) :
    ((svc.after call).identifiers = svc.identifiers ∧
      (svc.after call).partyIdentifiers = svc.partyIdentifiers) ∨
    (∃ identifier, svc.identifiers.lookup identifier.id = none ∧ identifier.replaces = none ∧
      svc.after call = svc.record identifier) ∨
    ∃ oldId old identifier, svc.identifiers.lookup oldId = some old ∧
      svc.identifiers.lookup identifier.id = none ∧ identifier.replaces = some old.id ∧
      identifier.partyId = old.partyId ∧ identifier.identifierType = old.identifierType ∧
      svc.after call = (svc.retire oldId old).record identifier := by
  cases call with
  | createParty id now partyType legalName => exact .inl ⟨rfl, rfl⟩
  | addIdentifier id now partyId identifierType value issuingCountry =>
    simp only [after, handle, addIdentifier]
    cases svc.getParty partyId with
    | none => exact .inl ⟨rfl, rfl⟩
    | some party =>
      by_cases active : party.status = .Active
      next =>
        refine .inr (.inl ⟨.new id now partyId identifierType value issuingCountry none, fresh, rfl, ?_⟩)
        simp [active]
      next =>
        refine .inl ?_
        simp [active]
  | replaceIdentifier id now verifiedAt oldIdentifierId newValue =>
    simp only [after, handle, replaceIdentifier_eq]
    cases found : svc.identifiers.lookup oldIdentifierId with
    | none => exact .inl ⟨rfl, rfl⟩
    | some old =>
      exact .inr (.inr ⟨oldIdentifierId, old, replacement id now verifiedAt newValue old,
        found, fresh, rfl, rfl, rfl, rfl⟩)

theorem History.of_same (history : svc.History) (identifiers : svc'.identifiers = svc.identifiers)
    (partyIdentifiers : svc'.partyIdentifiers = svc.partyIdentifiers) : svc'.History := by
  obtain ⟨parties, _, _⟩ := svc'
  subst identifiers partyIdentifiers
  exact ⟨history.keyed, history.listed, history.pointers, history.acyclic, history.known⟩

theorem History.step (history : svc.History) (fresh : svc.Fresh call) :
    (svc.after call).History ∧ svc.Extends (svc.after call) := by
  obtain ⟨identifiers, lists⟩ | ⟨identifier, new, root, result⟩ |
    ⟨oldId, old, identifier, found, new, pointer, party, type, result⟩ := after_cases svc call fresh
  next =>
    refine ⟨history.of_same identifiers lists, fun id i here => ⟨i, ?_, .refl i⟩⟩
    rw [identifiers, here]
  next =>
    rw [result]
    refine ⟨history.record new fun old pointer => ?_, extends_record new⟩
    rw [root] at pointer
    cases pointer
  next =>
    rw [result]
    have stillNew : (svc.retire oldId old).identifiers.lookup identifier.id = none := by
      simp [(ne_of_lookup found new).symm, new]
    have retired := history.retire found
    refine ⟨retired.record stillNew fun target linked => ?_,
      (extends_retire found).trans (extends_record stillNew)⟩
    rw [pointer, Option.some.injEq, history.keyed oldId old found] at linked
    subst linked
    exact ⟨{ old with status := .Inactive }, by simp, party.symm, type.symm⟩

end Calls

theorem History.ends (history : svc.History) (id : Uuid) : Ends svc.replacesOf id := by
  have supported : ∀ x y, Link svc.replacesOf x y → x ∈ svc.identifiers.keys := by
    intro x y linked
    obtain ⟨i, here, _⟩ := link_replacesOf_iff.mp linked
    exact mem_keys_of_found here
  exact history.acyclic.ends supported id

structure AppendOnly (svc : IdentityService) : Prop where
  listed : ∀ id i, svc.identifiers.lookup id = some i → ∀ partyId,
    (svc.identifiersOf partyId).count id = if partyId = i.partyId then 1 else 0
  pointers : ∀ id i, svc.identifiers.lookup id = some i → ∀ old, i.replaces = some old →
    ∃ o, svc.identifiers.lookup old = some o ∧ o.partyId = i.partyId ∧ o.identifierType = i.identifierType
  ends : ∀ id, Ends svc.replacesOf id
  failed : ∀ call e, (svc.handle call).1 = .error e → svc.after call = svc

theorem History.appendOnly (history : svc.History) : svc.AppendOnly where
  listed := history.listed
  pointers := history.pointers
  ends := history.ends
  failed := fun _ _ => handle_failed

theorem History.along {calls : List IdentityCall} (history : svc.History) (fresh : Meets after Fresh svc calls) :
    (run after svc calls).History ∧ svc.Extends (run after svc calls) := by
  induction calls generalizing svc with
  | nil => exact ⟨history, .refl svc⟩
  | cons call rest ih =>
    have now := history.step fresh.1
    have later := ih now.1 fresh.2
    exact ⟨later.1, now.2.trans later.2⟩

/-- Identifiers are only ever added to the history, and inactivated. -/
theorem identifiers_append_only {calls : List IdentityCall} (fresh : Meets after Fresh new calls)
    (first second : List IdentityCall) (split : calls = first ++ second) :
    (run after new first).AppendOnly ∧
      (run after new first).Extends (run after new calls) := by
  subst split
  rw [meets_append] at fresh
  have before := history_new.along fresh.1
  have later := before.1.along fresh.2
  rw [run_append]
  exact ⟨before.1.appendOnly, later.2⟩

private def passportCalls : List IdentityCall :=
  [.createParty ⟨1⟩ ⟨0⟩ .individual "Ada",
    .addIdentifier ⟨2⟩ ⟨1⟩ ⟨1⟩ .passportNumber "AB123456" none,
    .replaceIdentifier ⟨3⟩ ⟨2⟩ ⟨2⟩ ⟨2⟩ "CD789012"]

theorem identifiers_append_only_passport :
    (run after new (passportCalls.take 2)).AppendOnly ∧
      (run after new (passportCalls.take 2)).Extends (run after new passportCalls) := by
  have fresh : Meets after Fresh new passportCalls := by
    refine ⟨trivial, ?_, ?_, trivial⟩
    next => rfl
    next => rfl
  exact identifiers_append_only fresh _ (passportCalls.drop 2) rfl

end IdentityService

end BankingLedger
