import BankingLedger.Api.Router
import BankingLedger.Service.IdentifierHistory
import BankingLedger.Shared.Interleaving

set_option autoImplicit false

namespace BankingLedger

open FiniteMap Interleaving ParentLinks Relation Runs

inductive IdentityRequest where
  | createParty (partyType : PartyType) (legalName : String)
  | addIdentifier (partyId : PartyId) (identifierType : IdentifierType) (value : String)
      (issuingCountry : Option String)
  | verifyIdentifier (id : Uuid)
  | replaceIdentifier (id : Uuid) (newValue : String)
  -- The method of the service, without the scan of the handlers.
  | replaceDirectly (oldIdentifierId : Uuid) (newValue : String)

structure IdentityDraws where
  id : Uuid
  now : Timestamp
  verifiedAt : Timestamp

inductive IdentityPc where
  | start
  | inserting (identifier : Identifier)
  | replacing (oldIdentifierId : Uuid) (newValue : String)
  | indexing (identifier : Identifier)
  | returned (reply : Except ApiError ApiReply)

structure IdentityThread where
  request : IdentityRequest
  draws : IdentityDraws
  pc : IdentityPc

namespace IdentityService

-- Under the write lock of `identifiers`.
def insertIdentifier (svc : IdentityService) (identifier : Identifier) : IdentityService :=
  { svc with identifiers := svc.identifiers.insert identifier.id identifier }

-- Under the write lock of `party_identifiers`.
def pushIndex (svc : IdentityService) (identifier : Identifier) : IdentityService :=
  { svc with
    partyIdentifiers := svc.partyIdentifiers.insert identifier.partyId
      (svc.identifiersOf identifier.partyId ++ [identifier.id]) }

theorem record_eq (svc : IdentityService) (identifier : Identifier) :
    svc.record identifier = (svc.insertIdentifier identifier).pushIndex identifier := rfl

end IdentityService

def identityStep (svc : IdentityService) (t : IdentityThread) :
    Option (IdentityService × IdentityThread) :=
  let goto (pc : IdentityPc) : IdentityThread := { t with pc }
  match t.pc with
  | .start =>
    match t.request with
    | .createParty partyType legalName =>
      let created := svc.createParty t.draws.id t.draws.now partyType legalName
      some (created.2, goto (.returned (.ok (.party created.1.id .Active))))
    | .addIdentifier partyId identifierType value issuingCountry =>
      match svc.getParty partyId with
      | none => some (svc, goto (.returned (.error (.identity (.partyNotFound partyId)))))
      | some party =>
        if party.status ≠ .Active then
          some (svc, goto (.returned (.error (.identity (.partyNotActive partyId)))))
        else
          some (svc, goto (.inserting
            (.new t.draws.id t.draws.now partyId identifierType value issuingCountry none)))
    | .verifyIdentifier id =>
      match svc.findActive id with
      | none => some (svc, goto (.returned (.error (.app .notFound))))
      | some ident => some (svc, goto (.replacing id ident.value))
    | .replaceIdentifier id newValue =>
      if (svc.findActive id).isNone then some (svc, goto (.returned (.error (.app .notFound))))
      else some (svc, goto (.replacing id newValue))
    | .replaceDirectly oldIdentifierId newValue => some (svc, goto (.replacing oldIdentifierId newValue))
  | .inserting identifier => some (svc.insertIdentifier identifier, goto (.indexing identifier))
  | .replacing oldIdentifierId newValue =>
    match svc.identifiers.lookup oldIdentifierId with
    | none => some (svc, goto (.returned (.error (.identity (.identifierNotFound oldIdentifierId)))))
    | some old =>
      let replaced := old.replaceWith t.draws.id t.draws.now t.draws.verifiedAt newValue
      some ({ svc with identifiers := svc.identifiers.insert oldIdentifierId replaced.2 }.insertIdentifier
        replaced.1, goto (.indexing replaced.1))
  | .indexing identifier => some (svc.pushIndex identifier, goto (.returned (.ok (.identifier identifier))))
  | .returned _ => none

def identitySystem : System IdentityService IdentityThread := ⟨identityStep⟩

section Alone

variable (st : ApiState) (draws : ApiDraws)

def ApiDraws.identity : IdentityDraws where
  id := draws.identifierId
  now := draws.effectiveFrom
  verifiedAt := draws.verifiedAt

def replaceLocked (old : Uuid) (newValue : String) : Except ApiError ApiReply × ApiState :=
  identityReply (st.identityService.replaceIdentifier draws.identifierId draws.effectiveFrom
    draws.verifiedAt old newValue) st

theorem replacing_alone (request : IdentityRequest) (old : Uuid) (newValue : String) :
    identitySystem.Reaches (st.identityService, ⟨request, draws.identity, .replacing old newValue⟩)
      ((replaceLocked st draws old newValue).2.identityService,
        ⟨request, draws.identity, .returned (replaceLocked st draws old newValue).1⟩) := by
  rw [replaceLocked, IdentityService.replaceIdentifier_eq]
  cases found : st.identityService.identifiers.lookup old with
  | none =>
    refine .step ?_ (.refl _)
    simp [identitySystem, identityStep, found, identityReply]
  | some identifier =>
    let replacement := IdentityService.replacement draws.identifierId draws.effectiveFrom
      draws.verifiedAt newValue identifier
    have section' : identitySystem.step st.identityService
        ⟨request, draws.identity, .replacing old newValue⟩ =
          some ((st.identityService.retire old identifier).insertIdentifier replacement,
            ⟨request, draws.identity, .indexing replacement⟩) := by
      simp only [identitySystem, identityStep, found]
      rfl
    simp only [identityReply, IdentityService.record_eq]
    exact .step section' (.step rfl (.refl _))

theorem verifyIdentifier_alone (id : Uuid) :
    identitySystem.Reaches (st.identityService, ⟨.verifyIdentifier id, draws.identity, .start⟩)
      ((verifyIdentifier draws id st).2.identityService,
        ⟨.verifyIdentifier id, draws.identity, .returned (verifyIdentifier draws id st).1⟩) := by
  rw [verifyIdentifier]
  cases found : st.identityService.findActive id with
  | none =>
    refine .step ?_ (.refl _)
    simp [identitySystem, identityStep, found]
  | some ident =>
    refine .step ?_ (replacing_alone st draws _ id ident.value)
    simp [identitySystem, identityStep, found]

theorem replaceIdentifier_alone (id : Uuid) (newValue : String) :
    identitySystem.Reaches (st.identityService, ⟨.replaceIdentifier id newValue, draws.identity, .start⟩)
      ((replaceIdentifier draws id newValue st).2.identityService,
        ⟨.replaceIdentifier id newValue, draws.identity,
          .returned (replaceIdentifier draws id newValue st).1⟩) := by
  rw [replaceIdentifier]
  cases found : st.identityService.findActive id with
  | none =>
    refine .step ?_ (.refl _)
    simp [identitySystem, identityStep, found]
  | some ident =>
    refine .step ?_ (replacing_alone st draws _ id newValue)
    simp [identitySystem, identityStep, found]

end Alone

namespace IdentityService

def SameChain (svc : IdentityService) (id id' : Uuid) : Prop :=
  ∃ root, ReflTransGen (Link svc.replacesOf) id root ∧ ReflTransGen (Link svc.replacesOf) id' root

/-- No two identifiers replace the same one, and a chain has one active identifier at most. -/
structure OneVersion (svc : IdentityService) : Prop where
  unique : ∀ id id' i i' old, svc.identifiers.lookup id = some i → svc.identifiers.lookup id' = some i' →
    i.replaces = some old → i'.replaces = some old → id = id'
  current : ∀ id id' i i', svc.identifiers.lookup id = some i → svc.identifiers.lookup id' = some i' →
    i.status = .Active → i'.status = .Active → svc.SameChain id id' → id = id'

structure Versioned (svc : IdentityService) : Prop where
  keyed : ∀ id i, svc.identifiers.lookup id = some i → i.id = id
  pointers : ∀ x y, Link svc.replacesOf x y → svc.identifiers.lookup y ≠ none
  retired : ∀ id i, svc.identifiers.lookup id = some i →
    (i.status = .Inactive ↔ ∃ x, Link svc.replacesOf x id)

variable {svc svc' : IdentityService} {id : Uuid} {old identifier : Identifier}

theorem replacesOf_of_same (same : svc'.identifiers = svc.identifiers) : svc'.replacesOf = svc.replacesOf := by
  funext id
  rw [replacesOf, same, replacesOf]

theorem Versioned.of_same (versioned : svc.Versioned) (same : svc'.identifiers = svc.identifiers) :
    svc'.Versioned := by
  refine { keyed := ?_, pointers := ?_, retired := ?_ }
  next => simpa only [same] using versioned.keyed
  next => simpa only [same, replacesOf_of_same same] using versioned.pointers
  next => simpa only [same, replacesOf_of_same same] using versioned.retired

theorem versioned_new : new.Versioned where
  keyed := by simp [new]
  pointers := by simp [link_replacesOf_iff, new]
  retired := by simp [new]

theorem Versioned.oneVersion_iff (versioned : svc.Versioned) : svc.OneVersion ↔ Unshared svc.replacesOf := by
  constructor
  case mp =>
    intro one x y z first second
    obtain ⟨i, here, pointer⟩ := link_replacesOf_iff.mp first
    obtain ⟨i', here', pointer'⟩ := link_replacesOf_iff.mp second
    exact one.unique x y i i' z here here' pointer pointer'
  case mpr =>
    intro unshared
    have last : ∀ id i other, svc.identifiers.lookup id = some i → i.status = .Active →
        ReflTransGen (Link svc.replacesOf) other id → other = id := by
      intro id i other here active path
      cases path with
      | refl => rfl
      | tail _ linked =>
        have inactive := (versioned.retired id i here).mpr ⟨_, linked⟩
        rw [active] at inactive
        cases inactive
    refine { unique := ?_, current := ?_ }
    next =>
      intro id id' i i' old here here' pointer pointer'
      exact unshared id id' old (link_replacesOf_iff.mpr ⟨i, here, pointer⟩)
        (link_replacesOf_iff.mpr ⟨i', here', pointer'⟩)
    next =>
      intro id id' i i' here here' active active' chain
      obtain ⟨root, path, path'⟩ := chain
      cases unshared.comparable path path' with
      | inl forward => exact last id' i' id here' active' forward
      | inr backward => exact (last id i id' here active backward).symm

section Writes

@[simp] theorem lookup_insertIdentifier (other : Uuid) :
    (svc.insertIdentifier identifier).identifiers.lookup other =
      if other = identifier.id then some identifier else svc.identifiers.lookup other :=
  lookup_insert_eq ..

theorem replacesOf_insertIdentifier :
    (svc.insertIdentifier identifier).replacesOf = (svc.record identifier).replacesOf :=
  replacesOf_of_same rfl

theorem replacesOf_insert_root (fresh : svc.identifiers.lookup identifier.id = none)
    (root : identifier.replaces = none) : (svc.insertIdentifier identifier).replacesOf = svc.replacesOf := by
  rw [replacesOf_insertIdentifier, replacesOf_record_root fresh root]

theorem Versioned.not_pointed (versioned : svc.Versioned) (fresh : svc.identifiers.lookup id = none)
    (x : Uuid) : ¬Link svc.replacesOf x id := fun linked => versioned.pointers x id linked fresh

theorem Versioned.insert_root (versioned : svc.Versioned)
    (fresh : svc.identifiers.lookup identifier.id = none) (root : identifier.replaces = none)
    (active : identifier.status ≠ .Inactive) : (svc.insertIdentifier identifier).Versioned := by
  refine { keyed := ?_, pointers := ?_, retired := ?_ }
  next =>
    intro id i here
    rw [lookup_insertIdentifier] at here
    split_ifs at here with same
    next =>
      cases here
      exact same.symm
    next => exact versioned.keyed id i here
  next =>
    intro x y linked
    rw [replacesOf_insert_root fresh root] at linked
    rw [lookup_insertIdentifier]
    split_ifs
    next => simp
    next => exact versioned.pointers x y linked
  next =>
    intro id i here
    rw [replacesOf_insert_root fresh root]
    rw [lookup_insertIdentifier] at here
    split_ifs at here with same
    next =>
      cases here
      subst same
      simp [active, versioned.not_pointed fresh]
    next => exact versioned.retired id i here

def replaceBy (svc : IdentityService) (id : Uuid) (old identifier : Identifier) : IdentityService :=
  (svc.retire id old).insertIdentifier identifier

variable (found : svc.identifiers.lookup id = some old)
  (fresh : svc.identifiers.lookup identifier.id = none) (pointer : identifier.replaces = some id)

include found pointer in
theorem link_replaceBy_iff {x y : Uuid} : Link (svc.replaceBy id old identifier).replacesOf x y ↔
    if x = identifier.id then y = id else Link svc.replacesOf x y := by
  rw [Link, replaceBy, replacesOf_insertIdentifier, replacesOf_record, replacesOf_retire found]
  split_ifs
  next => rw [pointer, Option.some.injEq, eq_comm]
  next => rfl

include found fresh pointer in
theorem superseded_replaceBy_iff {y : Uuid} : (∃ x, Link (svc.replaceBy id old identifier).replacesOf x y) ↔
    y = id ∨ ∃ x, Link svc.replacesOf x y := by
  have linked_iff : ∀ x, Link (svc.replaceBy id old identifier).replacesOf x y ↔ _ :=
    fun x => link_replaceBy_iff found pointer
  simp only [linked_iff]
  constructor
  case mp =>
    rintro ⟨x, linked⟩
    split_ifs at linked
    next => exact .inl linked
    next => exact .inr ⟨x, linked⟩
  case mpr =>
    rintro (here | ⟨x, linked⟩)
    next => exact ⟨identifier.id, by simpa using here⟩
    next =>
      have other : x ≠ identifier.id := by
        intro same
        rw [same, Link, replacesOf_of_fresh fresh] at linked
        cases linked
      exact ⟨x, by simpa [other] using linked⟩

include found fresh pointer in
theorem Versioned.replaceBy (versioned : svc.Versioned) (active : identifier.status ≠ .Inactive) :
    (svc.replaceBy id old identifier).Versioned := by
  have apart : identifier.id ≠ id := (ne_of_lookup found fresh).symm
  refine { keyed := ?_, pointers := ?_, retired := ?_ }
  next =>
    intro other i here
    rw [IdentityService.replaceBy, lookup_insertIdentifier, lookup_retire] at here
    split_ifs at here with same same'
    next =>
      cases here
      exact same.symm
    next =>
      cases here
      exact (versioned.keyed id old found).trans same'.symm
    next => exact versioned.keyed other i here
  next =>
    intro x y linked
    have before : svc.identifiers.lookup y ≠ none := by
      cases (superseded_replaceBy_iff found fresh pointer).mp ⟨x, linked⟩ with
      | inl here =>
        subst here
        simp [found]
      | inr was =>
        obtain ⟨z, was⟩ := was
        exact versioned.pointers z y was
    rw [IdentityService.replaceBy, lookup_insertIdentifier, lookup_retire]
    split_ifs
    next => simp
    next => simp
    next => exact before
  next =>
    intro other i here
    rw [superseded_replaceBy_iff found fresh pointer]
    rw [IdentityService.replaceBy, lookup_insertIdentifier, lookup_retire] at here
    split_ifs at here with same same'
    next =>
      cases here
      subst same
      simp [active, apart, versioned.not_pointed fresh]
    next =>
      cases here
      simp [same']
    next => simpa [same'] using versioned.retired other i here

include found fresh pointer in
theorem Versioned.replaceBy_iff (versioned : svc.Versioned) (active : identifier.status ≠ .Inactive)
    (one : svc.OneVersion) : (svc.replaceBy id old identifier).OneVersion ↔ old.status ≠ .Inactive := by
  have free := replacesOf_of_fresh fresh
  have bound : Link (svc.replaceBy id old identifier).replacesOf identifier.id id :=
    (link_replaceBy_iff found pointer).mpr (by simp)
  have others : ∀ z, z ≠ identifier.id →
      (svc.replaceBy id old identifier).replacesOf z = svc.replacesOf z := by
    intro z other
    rw [IdentityService.replaceBy, replacesOf_insertIdentifier, replacesOf_record, if_neg other,
      replacesOf_retire found]
  rw [(versioned.replaceBy found fresh pointer active).oneVersion_iff, unshared_bind_iff free bound others,
    and_iff_right (versioned.oneVersion_iff.mp one), ne_eq, versioned.retired id old found, not_exists]

end Writes

end IdentityService

namespace IdentityThread

variable {svc svc' : IdentityService} {t t' : IdentityThread}

def Undrawn (t : IdentityThread) : Prop :=
  match t.pc with
  | .start | .inserting _ | .replacing _ _ => True
  | .indexing _ | .returned _ => False

def Fits (t : IdentityThread) : Prop :=
  match t.pc with
  | .inserting identifier =>
    identifier.id = t.draws.id ∧ identifier.replaces = none ∧ identifier.status ≠ .Inactive
  | _ => True

/-- If the next step replaces an identifier, it is one that has not been replaced. -/
def ReplacesCurrent (svc : IdentityService) (t : IdentityThread) : Prop :=
  match t.pc with
  | .replacing oldIdentifierId _ =>
    ∀ old, svc.identifiers.lookup oldIdentifierId = some old → old.status ≠ .Inactive
  | _ => True

inductive Move (svc : IdentityService) (t : IdentityThread) (svc' : IdentityService)
    (t' : IdentityThread) : Prop where
  | silent : svc'.identifiers = svc.identifiers → (t'.Undrawn → t.Undrawn) →
      t.ReplacesCurrent svc → Move svc t svc' t'
  | insert (identifier : Identifier) : t.Undrawn → ¬t'.Undrawn → t.ReplacesCurrent svc →
      identifier.id = t.draws.id → identifier.replaces = none → identifier.status ≠ .Inactive →
      svc' = svc.insertIdentifier identifier → Move svc t svc' t'
  | replace (id : Uuid) (old identifier : Identifier) : t.Undrawn → ¬t'.Undrawn →
      (t.ReplacesCurrent svc ↔ old.status ≠ .Inactive) → svc.identifiers.lookup id = some old →
      identifier.id = t.draws.id → identifier.replaces = some old.id → identifier.status ≠ .Inactive →
      svc' = svc.replaceBy id old identifier → Move svc t svc' t'

theorem step_spec (fits : t.Fits) (taken : identityStep svc t = some (svc', t')) :
    t'.draws = t.draws ∧ t'.Fits ∧ Move svc t svc' t' := by
  obtain ⟨request, draws, pc⟩ := t
  cases pc with
  | start =>
    cases request with
    | createParty partyType legalName =>
      cases taken
      exact ⟨rfl, trivial, .silent rfl (fun _ => trivial) trivial⟩
    | addIdentifier partyId identifierType value issuingCountry =>
      simp only [identityStep] at taken
      split at taken
      next =>
        cases taken
        exact ⟨rfl, trivial, .silent rfl (fun _ => trivial) trivial⟩
      next =>
        split_ifs at taken
        next =>
          cases taken
          exact ⟨rfl, trivial, .silent rfl (fun _ => trivial) trivial⟩
        next =>
          cases taken
          exact ⟨rfl, ⟨rfl, rfl, by simp [Identifier.new]⟩, .silent rfl (fun _ => trivial) trivial⟩
    | verifyIdentifier id =>
      simp only [identityStep] at taken
      split at taken <;> cases taken <;>
        exact ⟨rfl, trivial, .silent rfl (fun _ => trivial) trivial⟩
    | replaceIdentifier id newValue =>
      simp only [identityStep] at taken
      split_ifs at taken <;> cases taken <;>
        exact ⟨rfl, trivial, .silent rfl (fun _ => trivial) trivial⟩
    | replaceDirectly oldIdentifierId newValue =>
      cases taken
      exact ⟨rfl, trivial, .silent rfl (fun _ => trivial) trivial⟩
  | inserting identifier =>
    cases taken
    exact ⟨rfl, trivial, .insert identifier trivial id trivial fits.1 fits.2.1 fits.2.2 rfl⟩
  | replacing oldIdentifierId newValue =>
    simp only [identityStep] at taken
    cases found : svc.identifiers.lookup oldIdentifierId with
    | none =>
      simp only [found] at taken
      cases taken
      exact ⟨rfl, trivial, .silent rfl (fun _ => trivial) (by simp [ReplacesCurrent, found])⟩
    | some old =>
      simp only [found] at taken
      cases taken
      refine ⟨rfl, trivial, .replace oldIdentifierId old _ trivial id ?_ found rfl rfl ?_ rfl⟩
      next => simp [ReplacesCurrent, found]
      next => simp [Identifier.replaceWith]
  | indexing identifier =>
    cases taken
    exact ⟨rfl, trivial, .silent rfl (fun undrawn => undrawn.elim) trivial⟩
  | returned reply => cases taken

theorem Move.versioned (move : Move svc t svc' t') (versioned : svc.Versioned)
    (unused : t.Undrawn → svc.identifiers.lookup t.draws.id = none) : svc'.Versioned := by
  cases move with
  | silent same => exact versioned.of_same same
  | insert identifier undrawn _ _ drawn root active result =>
    rw [result]
    exact versioned.insert_root (drawn ▸ unused undrawn) root active
  | replace id old identifier undrawn _ _ found drawn pointer active result =>
    rw [result]
    rw [versioned.keyed id old found] at pointer
    exact versioned.replaceBy found (drawn ▸ unused undrawn) pointer active

theorem Move.oneVersion_iff (move : Move svc t svc' t') (versioned : svc.Versioned)
    (unused : t.Undrawn → svc.identifiers.lookup t.draws.id = none) (one : svc.OneVersion) :
    svc'.OneVersion ↔ t.ReplacesCurrent svc := by
  have next := move.versioned versioned unused
  have chains := versioned.oneVersion_iff.mp one
  cases move with
  | silent same _ current =>
    rw [next.oneVersion_iff, IdentityService.replacesOf_of_same same]
    exact iff_of_true chains current
  | insert identifier undrawn _ current drawn root active result =>
    subst result
    rw [next.oneVersion_iff, IdentityService.replacesOf_insert_root (drawn ▸ unused undrawn) root]
    exact iff_of_true chains current
  | replace id old identifier undrawn _ current found drawn pointer active result =>
    subst result
    rw [versioned.keyed id old found] at pointer
    rw [current]
    exact versioned.replaceBy_iff found (drawn ▸ unused undrawn) pointer active one

-- A step puts no identifier under an id but the one its call has drawn.
theorem Move.lookup_none (move : Move svc t svc' t') {id : Uuid} (missing : svc.identifiers.lookup id = none)
    (other : id ≠ t.draws.id) : svc'.identifiers.lookup id = none := by
  cases move with
  | silent same => rw [same, missing]
  | insert identifier _ _ _ drawn _ _ result =>
    rw [result, IdentityService.lookup_insertIdentifier, drawn, if_neg other, missing]
  | replace oldId old identifier _ _ _ found drawn _ _ result =>
    have apart : id ≠ oldId := (ne_of_lookup found missing).symm
    rw [result, IdentityService.replaceBy, IdentityService.lookup_insertIdentifier, drawn, if_neg other,
      IdentityService.lookup_retire, if_neg apart, missing]

theorem Move.undrawn (move : Move svc t svc' t') (undrawn : t'.Undrawn) :
    t.Undrawn ∧ ∀ id, svc.identifiers.lookup id = none → svc'.identifiers.lookup id = none := by
  cases move with
  | silent same before => exact ⟨before undrawn, fun id missing => by rw [same, missing]⟩
  | insert _ _ drawn => exact absurd undrawn drawn
  | replace _ _ _ _ drawn => exact absurd undrawn drawn

end IdentityThread

section Threads

variable {I : Type} [DecidableEq I]

def identityStart (request : I → IdentityRequest) (draws : I → IdentityDraws) :
    Config I IdentityService IdentityThread where
  shared := .new
  thread i := { request := request i, draws := draws i, pc := .start }

def ReplacesCurrent (c : Config I IdentityService IdentityThread) (i : I) : Prop :=
  (c.thread i).ReplacesCurrent c.shared

structure SoundVersions (c : Config I IdentityService IdentityThread) : Prop where
  distinct : Function.Injective fun i => (c.thread i).draws.id
  fits : ∀ i, (c.thread i).Fits
  unused : ∀ i, (c.thread i).Undrawn → c.shared.identifiers.lookup (c.thread i).draws.id = none
  versioned : c.shared.Versioned

variable {c : Config I IdentityService IdentityThread}

theorem SoundVersions.fire (sound : SoundVersions c) (i : I) : SoundVersions (identitySystem.fire c i) := by
  refine identitySystem.fire_keeps sound fun svc' t' taken => ?_
  obtain ⟨sameDraws, fits, move⟩ := IdentityThread.step_spec (sound.fits i) taken
  have draws : ∀ j, (Function.update c.thread i t' j).draws = (c.thread j).draws := by
    intro j
    by_cases here : j = i
    next =>
      subst here
      rw [Function.update_self, sameDraws]
    next => rw [Function.update_of_ne here]
  refine { distinct := ?_, fits := ?_, unused := ?_, versioned := ?_ }
  next => simpa only [draws] using sound.distinct
  next => exact forall_update (fun _ (t : IdentityThread) => t.Fits) fits sound.fits
  next =>
    intro j undrawn
    change (Function.update c.thread i t' j).Undrawn at undrawn
    change svc'.identifiers.lookup (Function.update c.thread i t' j).draws.id = none
    rw [draws]
    by_cases here : j = i
    next =>
      subst here
      rw [Function.update_self] at undrawn
      obtain ⟨before, kept⟩ := move.undrawn undrawn
      exact kept _ (sound.unused j before)
    next =>
      rw [Function.update_of_ne here] at undrawn
      have other : (c.thread j).draws.id ≠ (c.thread i).draws.id := fun same => here (sound.distinct same)
      exact move.lookup_none (sound.unused j undrawn) other
  next => exact move.versioned sound.versioned (sound.unused i)

theorem SoundVersions.oneVersion_fire_iff (sound : SoundVersions c) (i : I) (one : c.shared.OneVersion) :
    (identitySystem.fire c i).shared.OneVersion ↔ ReplacesCurrent c i := by
  cases taken : identitySystem.step c.shared (c.thread i) with
  | none =>
    rw [System.fire, taken]
    refine iff_of_true one ?_
    rw [ReplacesCurrent, IdentityThread.ReplacesCurrent]
    split
    next pc =>
      simp only [identitySystem, identityStep, pc] at taken
      split at taken <;> cases taken
    next => trivial
  | some result =>
    rw [System.fire, taken]
    obtain ⟨_, _, move⟩ := IdentityThread.step_spec (sound.fits i) taken
    exact move.oneVersion_iff sound.versioned (sound.unused i) one

variable {request : I → IdentityRequest} {draws : I → IdentityDraws}

omit [DecidableEq I] in
theorem sound_identityStart (distinct : Function.Injective fun i => (draws i).id) :
    SoundVersions (identityStart request draws) where
  distinct := distinct
  fits := fun _ => trivial
  unused := fun _ _ => rfl
  versioned := IdentityService.versioned_new

/-- Every identifier has one current version throughout a run exactly if no step of the run replaces
an identifier that has been replaced. -/
theorem one_current_version_iff (distinct : Function.Injective fun i => (draws i).id) (schedule : List I) :
    Throughout identitySystem.fire (fun c => c.shared.OneVersion) (identityStart request draws) schedule ↔
      identitySystem.RunMeets ReplacesCurrent (identityStart request draws) schedule := by
  have sound : SoundVersions (identityStart request draws) := sound_identityStart distinct
  have one : (identityStart request draws).shared.OneVersion := by
    rw [sound.versioned.oneVersion_iff]
    intro x y z first
    simp [identityStart, IdentityService.link_replacesOf_iff, IdentityService.new] at first
  exact throughout_iff_meets_of_invariant (fun c i sound one => sound.oneVersion_fire_iff i one)
    (fun c i sound _ _ => sound.fire i) sound one schedule

private def passportRequest : Fin 4 → IdentityRequest
  | 0 => .createParty .individual "Ada"
  | 1 => .addIdentifier ⟨0⟩ .passportNumber "AB123456" none
  | 2 => .replaceDirectly ⟨1⟩ "CD789012"
  | 3 => .replaceDirectly ⟨1⟩ "EF345678"

private def passportDraws (i : Fin 4) : IdentityDraws :=
  { id := ⟨BitVec.ofNat 128 i.val⟩, now := ⟨i.val⟩, verifiedAt := ⟨i.val⟩ }

theorem passportDraws_distinct : Function.Injective fun i => (passportDraws i).id := by decide

theorem one_current_version_iff_renewed :
    Throughout identitySystem.fire (fun c => c.shared.OneVersion)
      (identityStart passportRequest passportDraws) [0, 1, 1, 1, 2, 2, 2] := by
  refine (one_current_version_iff passportDraws_distinct _).mpr
    ⟨trivial, trivial, trivial, trivial, trivial, ?_, trivial, trivial⟩
  intro old found
  obtain rfl : _ = old := Option.some.inj found
  decide

-- The passport is replaced a second time.
theorem replaced_twice :
    Function.Injective (fun i => (passportDraws i).id) ∧
      ¬Throughout identitySystem.fire (fun c => c.shared.OneVersion)
        (identityStart passportRequest passportDraws) [0, 1, 1, 1, 2, 2, 2, 3, 3] := by
  refine ⟨passportDraws_distinct, fun all => ?_⟩
  have final := all _ [] (List.append_nil _).symm
  have same : (⟨2⟩ : Uuid) = ⟨3⟩ := final.unique ⟨2⟩ ⟨3⟩ _ _ ⟨1⟩ rfl rfl rfl rfl
  cases same

end Threads

end BankingLedger
