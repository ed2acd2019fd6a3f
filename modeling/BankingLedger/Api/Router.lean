import BankingLedger.Api.AccountRequests
import BankingLedger.Api.Transactions
import BankingLedger.Service.Rbac
import BankingLedger.Service.IdentityService

set_option autoImplicit false

namespace BankingLedger

structure ApiState extends AppState where
  rbac : RbacEngine
  identityService : IdentityService

structure ApiRuntime extends TransactionRuntime where
  toLowercase : String → String
  parseUuid : String → Option Uuid

-- The requests arrive with their path and body parsed.
structure ApiDraws extends Draws where
  partyId : Uuid
  identifierId : Uuid
  effectiveFrom : Timestamp
  verifiedAt : Timestamp

inductive ApiError where
  | app (e : AppError)
  | redactionFailed (e : RedactError)
  | identity (e : IdentityError)
  | forbidden (required : Permission) (subject : SubjectId) (roles : Finset Role)
  | unknownRole (role : String)
  | tooManyRequests
deriving DecidableEq

inductive ApiReply where
  | account (reply : AccountReply)
  | transaction (response : TransactionResponse)
  | redacted (index : UInt64) (newChainHead : String) (chainLength : Nat)
  | bound (subject : SubjectId) (role : String) (effectivePermissions : Finset Permission)
  | party (id : PartyId) (status : PartyStatus)
  | identifier (identifier : Identifier)

-- `00000000-0000-0000-0000-000000000001`
def defaultAdmin : SubjectId := ⟨⟨1⟩⟩

-- `00000000-0000-0000-0000-000000000002`
def defaultAuditor : SubjectId := ⟨⟨2⟩⟩

def ApiState.new (rt : Runtime) (now : Timestamp) : ApiState where
  toAppState := .new rt now
  rbac := (RbacEngine.new.bind defaultAdmin .admin).bind defaultAuditor .auditor
  identityService := .new

def requirePermission (rt : ApiRuntime) (header : Option (List UInt8)) (permission : Permission)
    (rbac : RbacEngine) : Except ApiError SubjectId :=
  let subject := (extractSubject rt.parseUuid header).getD defaultAdmin
  if rbac.can subject permission then .ok subject
  else .error (.forbidden permission subject (rbac.rolesFor subject))

def parseRole (text : String) : Option Role :=
  if text = "admin" then some .admin
  else if text = "auditor" then some .auditor
  else if text = "teller" then some .teller
  else if text = "customer" then some .customer
  else if text = "system" then some .system
  else if text = "compliance" then some .compliance
  else none

def bindRole (rt : ApiRuntime) (header : Option (List UInt8)) (subjectId : Uuid) (role : String)
    (st : ApiState) : Except ApiError ApiReply × ApiState :=
  match requirePermission rt header .manageRoles st.rbac with
  | .error e => (.error e, st)
  | .ok _ =>
    match parseRole (rt.toLowercase role) with
    | none => (.error (.unknownRole role), st)
    | some parsed =>
      let rbac := st.rbac.bind ⟨subjectId⟩ parsed
      (.ok (.bound ⟨subjectId⟩ role (rbac.permissionsFor ⟨subjectId⟩)), { st with rbac })

-- The new head is the hash of the last block.
def redactBlock (rt : ApiRuntime) (index : UInt64) (st : ApiState) :
    Except ApiError ApiReply × ApiState :=
  match st.hashChain.redact rt.hashing index with
  | (.error e, hashChain) => (.error (.redactionFailed e), { st with hashChain })
  | (.ok (), hashChain) =>
    (.ok (.redacted index (hashChain.blocks.getLast hashChain.nonempty).hash hashChain.blocks.length),
      { st with hashChain })

def parsePartyType (text : String) : PartyType :=
  if text = "individual" then .individual
  else if text = "corporation" then .corporation
  else if text = "trust" then .trust
  else if text = "government" then .governmentAgency
  else if text = "financial" then .financialInstitution
  else .other text

def createParty (rt : ApiRuntime) (draws : ApiDraws) (partyType legalName : String) (st : ApiState) :
    Except ApiError ApiReply × ApiState :=
  let created := st.identityService.createParty draws.partyId draws.recordedAt
    (parsePartyType (rt.toLowercase partyType)) legalName
  (.ok (.party created.1.id .Active), { st with identityService := created.2 })

def parseIdentifierType (text : String) : IdentifierType :=
  if text = "national_id" then .nationalId
  else if text = "passport" then .passportNumber
  else if text = "drivers_license" then .driversLicense
  else if text = "tax_id" then .taxIdentificationNumber
  else if text = "business_reg" then .businessRegistrationNumber
  else if text = "email" then .email
  else if text = "phone" then .phone
  else .other text

structure AddIdentifierRequest where
  identifierType : String
  value : String
  issuingCountry : Option String

def identityReply (result : Except IdentityError Identifier × IdentityService) (st : ApiState) :
    Except ApiError ApiReply × ApiState :=
  match result with
  | (.error e, identityService) => (.error (.identity e), { st with identityService })
  | (.ok identifier, identityService) => (.ok (.identifier identifier), { st with identityService })

def addIdentifier (rt : ApiRuntime) (draws : ApiDraws) (partyId : PartyId) (req : AddIdentifierRequest)
    (st : ApiState) : Except ApiError ApiReply × ApiState :=
  identityReply (st.identityService.addIdentifier draws.identifierId draws.effectiveFrom partyId
    (parseIdentifierType (rt.toLowercase req.identifierType)) req.value req.issuingCountry) st

-- A verification replaces the identifier by one with the same value.
def verifyIdentifier (draws : ApiDraws) (id : Uuid) (st : ApiState) :
    Except ApiError ApiReply × ApiState :=
  match st.identityService.findActive id with
  | none => (.error (.app .notFound), st)
  | some ident =>
    identityReply (st.identityService.replaceIdentifier draws.identifierId draws.effectiveFrom
      draws.verifiedAt id ident.value) st

def replaceIdentifier (draws : ApiDraws) (id : Uuid) (newValue : String) (st : ApiState) :
    Except ApiError ApiReply × ApiState :=
  if (st.identityService.findActive id).isNone then (.error (.app .notFound), st)
  else
    identityReply (st.identityService.replaceIdentifier draws.identifierId draws.effectiveFrom
      draws.verifiedAt id newValue) st

inductive ApiRequest where
  | account (req : AccountRequest)
  | transaction (req : TransactionRequest)
  | redactBlock (index : UInt64)
  | bindRole (subjectId : Uuid) (role : String)
  | createParty (partyType legalName : String)
  | addIdentifier (partyId : PartyId) (req : AddIdentifierRequest)
  | verifyIdentifier (id : Uuid)
  | replaceIdentifier (id : Uuid) (newValue : String)

def onAppState {A : Type} (wrap : A → ApiReply) (handler : AppState → Except AppError A × AppState)
    (st : ApiState) : Except ApiError ApiReply × ApiState :=
  let answered := handler st.toAppState
  ((answered.1.map wrap).mapError .app, { st with toAppState := answered.2 })

-- Only `bind_role` is given the headers.
def route (rt : ApiRuntime) (draws : ApiDraws) (header : Option (List UInt8)) (req : ApiRequest)
    (st : ApiState) : Except ApiError ApiReply × ApiState :=
  match req with
  | .account req => onAppState .account (serve rt.toRuntime draws.toDraws req) st
  | .transaction req =>
    onAppState .transaction (serveTransaction rt.toTransactionRuntime draws.toDraws req) st
  | .redactBlock index => redactBlock rt index st
  | .bindRole subjectId role => bindRole rt header subjectId role st
  | .createParty partyType legalName => createParty rt draws partyType legalName st
  | .addIdentifier partyId req => addIdentifier rt draws partyId req st
  | .verifyIdentifier id => verifyIdentifier draws id st
  | .replaceIdentifier id newValue => replaceIdentifier draws id newValue st

/-- `consumed` is the answer of `try_consume`. -/
def buildRouter (rt : ApiRuntime) (draws : ApiDraws) (consumed : Bool) (header : Option (List UInt8))
    (req : ApiRequest) (st : ApiState) : Except ApiError ApiReply × ApiState :=
  if consumed then route rt draws header req st else (.error .tooManyRequests, st)

end BankingLedger
