import BankingLedger.Shared.FiniteMap
import BankingLedger.Domain.Journal

set_option autoImplicit false

namespace BankingLedger

open FiniteMap

abbrev PartyId := Uuid

inductive PartyType where
  | individual
  | corporation
  | trust
  | governmentAgency
  | financialInstitution
  | other (name : String)
deriving DecidableEq, Repr

inductive PartyStatus where
  | Active
  | Suspended
  | Closed
deriving DecidableEq, Repr

structure Party where
  id : PartyId
  partyType : PartyType
  legalName : String
  createdAt : Timestamp
  status : PartyStatus
deriving DecidableEq, Repr

def Party.new (id : PartyId) (now : Timestamp) (partyType : PartyType) (legalName : String) : Party :=
  { id, partyType, legalName, createdAt := now, status := .Active }

inductive IdentifierType where
  | nationalId
  | passportNumber
  | taxIdentificationNumber
  | businessRegistrationNumber
  | driversLicense
  | email
  | phone
  | other (name : String)
deriving DecidableEq, Repr

inductive IdentifierStatus where
  | Active
  | Inactive
  | Expired
  | PendingVerification
deriving DecidableEq, Repr

structure Identifier where
  id : Uuid
  partyId : PartyId
  identifierType : IdentifierType
  value : String
  issuingCountry : Option String
  effectiveFrom : Timestamp
  effectiveTo : Option Timestamp
  status : IdentifierStatus
  replaces : Option Uuid
  verifiedAt : Option Timestamp
deriving DecidableEq, Repr

namespace Identifier

def new (id : Uuid) (now : Timestamp) (partyId : PartyId) (identifierType : IdentifierType)
    (value : String) (issuingCountry : Option String) (effectiveTo : Option Timestamp) : Identifier :=
  { id, partyId, identifierType, value, issuingCountry
    effectiveFrom := now
    effectiveTo
    status := .PendingVerification
    replaces := none
    verifiedAt := none }

def replaceWith (id : Uuid) (now verifiedAt : Timestamp) (newValue : String) (old : Identifier) :
    Identifier × Identifier :=
  let replacement := new id now old.partyId old.identifierType newValue old.issuingCountry old.effectiveTo
  ({ replacement with replaces := some old.id, status := .Active, verifiedAt := some verifiedAt },
    { old with status := .Inactive })

end Identifier

inductive IdentityError where
  | partyNotFound (id : PartyId)
  | partyNotActive (id : PartyId)
  | identifierNotFound (id : Uuid)
deriving DecidableEq, Repr

/-- The parties stand in the order in which their map is iterated; the map's keys are their ids. -/
structure IdentityService where
  parties : List Party
  identifiers : Map Uuid Identifier
  partyIdentifiers : Map PartyId (List Uuid)

namespace IdentityService

def new : IdentityService where
  parties := []
  identifiers := ∅
  partyIdentifiers := ∅

def getParty (svc : IdentityService) (partyId : PartyId) : Option Party :=
  svc.parties.find? fun party => party.id = partyId

def createParty (id : PartyId) (now : Timestamp) (partyType : PartyType) (legalName : String)
    (svc : IdentityService) : Party × IdentityService :=
  let party := Party.new id now partyType legalName
  (party, { svc with parties := (svc.parties.filter fun other => other.id ≠ party.id) ++ [party] })

def identifiersOf (svc : IdentityService) (partyId : PartyId) : List Uuid :=
  (svc.partyIdentifiers.lookup partyId).getD []

-- Insert the identifier and push its id to the list of its party.
def record (svc : IdentityService) (identifier : Identifier) : IdentityService :=
  { svc with
    identifiers := svc.identifiers.insert identifier.id identifier
    partyIdentifiers := svc.partyIdentifiers.insert identifier.partyId
      (svc.identifiersOf identifier.partyId ++ [identifier.id]) }

def addIdentifier (id : Uuid) (now : Timestamp) (partyId : PartyId) (identifierType : IdentifierType)
    (value : String) (issuingCountry : Option String) (svc : IdentityService) :
    Except IdentityError Identifier × IdentityService :=
  match svc.getParty partyId with
  | none => (.error (.partyNotFound partyId), svc)
  | some party =>
    if party.status ≠ .Active then (.error (.partyNotActive partyId), svc)
    else
      let identifier := Identifier.new id now partyId identifierType value issuingCountry none
      (.ok identifier, svc.record identifier)

def replaceIdentifier (id : Uuid) (now verifiedAt : Timestamp) (oldIdentifierId : Uuid)
    (newValue : String) (svc : IdentityService) : Except IdentityError Identifier × IdentityService :=
  match svc.identifiers.lookup oldIdentifierId with
  | none => (.error (.identifierNotFound oldIdentifierId), svc)
  | some old =>
    let (replacement, old) := old.replaceWith id now verifiedAt newValue
    (.ok replacement,
      { svc with identifiers := svc.identifiers.insert oldIdentifierId old }.record replacement)

def getActiveIdentifiers (svc : IdentityService) (partyId : PartyId) : List Identifier :=
  ((svc.identifiersOf partyId).filterMap svc.identifiers.lookup).filter fun i => i.status = .Active

-- The scan that `verify_identifier` and `replace_identifier` begin with.
def findActive (svc : IdentityService) (id : Uuid) : Option Identifier :=
  svc.parties.findSome? fun party => (svc.getActiveIdentifiers party.id).find? fun i => i.id = id

theorem record_partyIdentifiers_ne (svc : IdentityService) (identifier : Identifier) :
    (svc.record identifier).partyIdentifiers ≠ svc.partyIdentifiers := by
  intro same
  have list := congrArg (fun m : Map PartyId (List Uuid) => (m.lookup identifier.partyId).getD []) same
  simp only [record, Finmap.lookup_insert, Option.getD_some, identifiersOf] at list
  exact absurd (congrArg List.length list) (by simp)

end IdentityService

end BankingLedger
