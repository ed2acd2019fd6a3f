import BankingLedger.Api.Router
import BankingLedger.Service.TemporaryAudit
import BankingLedger.Shared.Delegation
import BankingLedger.Shared.Interleaving

set_option autoImplicit false

namespace BankingLedger

open FiniteMap Interleaving Delegation

def Role.name : Role → String
  | .admin => "Admin"
  | .auditor => "Auditor"
  | .teller => "Teller"
  | .customer => "Customer"
  | .system => "System"
  | .compliance => "Compliance"

structure SubjectAudit where
  subject : SubjectId
  roles : Finset Role
  effectivePermissions : Finset Permission
deriving DecidableEq

namespace RbacEngine

def audited (rbac : RbacEngine) (subject : SubjectId) : SubjectAudit where
  subject := subject
  roles := rbac.rolesFor subject
  effectivePermissions := rbac.permissionsFor subject

-- The order of the bindings is that of a hash map.
def exportAudit (rbac : RbacEngine) : Nat × Finset SubjectAudit :=
  (rbac.roleBindings.keys.card, rbac.roleBindings.keys.image rbac.audited)

def padLeft (width : Nat) (text : String) : String :=
  String.ofList (List.replicate (width - text.length) ' ') ++ text

def padRight (width : Nat) (text : String) : String :=
  text ++ String.ofList (List.replicate (width - text.length) ' ')

def matrixMark (rbac : RbacEngine) (role : Role) (permission : Permission) : String :=
  if permission ∈ rbac.permissionsOf role then "✓" else "-"

def matrixRow (mark : Role → Permission → String) (role : Role) : String :=
  s!"{padRight 16 role.name} | {padLeft 7 (mark role .readAnyAccount)} | " ++
    s!"{padLeft 9 (mark role .createAccount)} | {padLeft 8 (mark role .initiateTransfer)} | " ++
    s!"{padLeft 7 (mark role .viewAnyTransaction)} | {padLeft 5 (mark role .viewAuditLog)} | " ++
    s!"{padLeft 6 (mark role .redactPii)}\n"

def matrixOf (mark : Role → Permission → String) : String :=
  "Role             | ReadAcc | CreateAcc | Transfer | ViewTxn | Audit | Redact\n" ++
    String.ofList (List.replicate 80 '-') ++ "\n" ++
    String.join ([Role.admin, .auditor, .teller, .customer, .system, .compliance].map (matrixRow mark))

def permissionMatrix (rbac : RbacEngine) : String := matrixOf rbac.matrixMark

end RbacEngine

-- The codes and descriptions that `list_rbac_permissions` answers.
def permissionList : List (String × String) :=
  [("read_any_account", "View any account details and balance"),
    ("read_own_account", "View own account details only"),
    ("create_account", "Create new accounts"),
    ("update_account_status", "Freeze/unfreeze/close accounts"),
    ("close_account", "Permanently close an account"),
    ("initiate_transfer", "Create transfers between any accounts"),
    ("initiate_own_transfer", "Transfer from own accounts only"),
    ("view_any_transaction", "View all transactions"),
    ("view_own_transaction", "View own transactions only"),
    ("view_audit_log", "Access audit trail and hash chain"),
    ("verify_chain_integrity", "Run hash chain verification"),
    ("export_audit_report", "Download audit report"),
    ("view_trial_balance", "View trial balance"),
    ("manage_users", "Create/modify/delete subjects"),
    ("manage_roles", "Bind/unbind roles to subjects"),
    ("configure_limits", "Change rate limits, thresholds"),
    ("view_system_metrics", "Access /admin/metrics"),
    ("redact_pii", "Redact personally identifiable information"),
    ("export_user_data", "GDPR data export"),
    ("generate_sar_report", "Suspicious Activity Report")]

inductive RoleRequest where
  | listPermissions
  | bind (subjectId : Uuid) (role : String)
  | subjectRoles (id : Uuid)
  | auditExport
  | matrix

inductive RoleReply where
  | permissions (requestedBy : SubjectId) (permissions : List (String × String))
  | bound (subject : SubjectId) (role : String) (effectivePermissions : Finset Permission)
  | subjectRoles (subject : Uuid) (roles : Finset Role) (effectivePermissions : Finset Permission)
      (permissionCount : Nat)
  | audit (totalSubjects : Nat) (bindings : Finset SubjectAudit)
  | matrix (text : String)

namespace RoleRequest

variable (rt : ApiRuntime)

def required : RoleRequest → Permission
  | .listPermissions | .bind .. | .subjectRoles _ => .manageRoles
  | .auditExport | .matrix => .viewAuditLog

def handle (requester : SubjectId) (rbac : RbacEngine) : RoleRequest → Except ApiError RoleReply × RbacEngine
  | .listPermissions => (.ok (.permissions requester permissionList), rbac)
  | .bind subjectId role =>
    match parseRole (rt.toLowercase role) with
    | none => (.error (.unknownRole role), rbac)
    | some parsed =>
      let rbac := rbac.bind ⟨subjectId⟩ parsed
      (.ok (.bound ⟨subjectId⟩ role (rbac.permissionsFor ⟨subjectId⟩)), rbac)
  | .subjectRoles id =>
    let perms := rbac.permissionsFor ⟨id⟩
    (.ok (.subjectRoles id (rbac.rolesFor ⟨id⟩) perms perms.card), rbac)
  | .auditExport => (.ok (.audit rbac.exportAudit.1 rbac.exportAudit.2), rbac)
  | .matrix => (.ok (.matrix rbac.permissionMatrix), rbac)

def binding : RoleRequest → Option (SubjectId × Role)
  | .bind subjectId role => (parseRole (rt.toLowercase role)).map (SubjectId.mk subjectId, ·)
  | _ => none

end RoleRequest

/-- A header that names nobody leaves the default subject. -/
def requester (rt : ApiRuntime) (header : Option (List UInt8)) : SubjectId :=
  (extractSubject rt.parseUuid header).getD defaultAdmin

inductive RolePoint where
  | arrived
  | permitted (subject : SubjectId)
  | answered (reply : Except ApiError RoleReply)

structure RoleThread where
  header : Option (List UInt8)
  request : RoleRequest
  point : RolePoint

def roleStep (rt : ApiRuntime) (rbac : RbacEngine) (l : RoleThread) : Option (RbacEngine × RoleThread) :=
  match l.point with
  | .arrived =>
    match requirePermission rt l.header l.request.required rbac with
    | .error e => some (rbac, { l with point := .answered (.error e) })
    | .ok subject => some (rbac, { l with point := .permitted subject })
  | .permitted subject =>
    let (reply, rbac) := l.request.handle rt subject rbac
    some (rbac, { l with point := .answered reply })
  | .answered _ => none

def roleHandlers (rt : ApiRuntime) : System RbacEngine RoleThread := ⟨roleStep rt⟩

variable {I : Type}

def roleStart (rt : Runtime) (now : Timestamp) (header : I → Option (List UInt8)) (request : I → RoleRequest) :
    Config I RbacEngine RoleThread where
  shared := (ApiState.new rt now).rbac
  thread i := { header := header i, request := request i, point := .arrived }

section Alone

variable (rt : ApiRuntime) (header : Option (List UInt8))

def serveRoles (request : RoleRequest) (rbac : RbacEngine) : Except ApiError RoleReply × RbacEngine :=
  match requirePermission rt header request.required rbac with
  | .error e => (.error e, rbac)
  | .ok subject => request.handle rt subject rbac

theorem roles_alone (request : RoleRequest) (rbac : RbacEngine) :
    (roleHandlers rt).solo 2 (rbac, { header, request, point := .arrived }) =
      ((serveRoles rt header request rbac).2,
        { header, request, point := .answered (serveRoles rt header request rbac).1 }) := by
  rw [serveRoles]
  cases granted : requirePermission rt header request.required rbac with
  | error e => simp [System.solo, roleHandlers, roleStep, granted]
  | ok subject => simp [System.solo, roleHandlers, roleStep, granted]

def RoleReply.toApi : RoleReply → Option ApiReply
  | .bound subject role effectivePermissions => some (.bound subject role effectivePermissions)
  | _ => none

theorem bindRole_eq (subjectId : Uuid) (role : String) (st : ApiState) :
    (bindRole rt header subjectId role st).2 =
        { st with rbac := (serveRoles rt header (.bind subjectId role) st.rbac).2 } ∧
      ∀ reply, (bindRole rt header subjectId role st).1 = .ok reply →
        ∃ reply', (serveRoles rt header (.bind subjectId role) st.rbac).1 = .ok reply' ∧
          reply'.toApi = some reply := by
  rw [bindRole, serveRoles, RoleRequest.required]
  cases requirePermission rt header .manageRoles st.rbac with
  | error e => exact ⟨rfl, fun reply answered => by cases answered⟩
  | ok subject =>
    simp only [RoleRequest.handle]
    cases parseRole (rt.toLowercase role) with
    | none => exact ⟨rfl, fun reply answered => by cases answered⟩
    | some parsed =>
      refine ⟨rfl, fun reply answered => ?_⟩
      cases answered
      exact ⟨_, rfl, rfl⟩

theorem route_rbac (draws : ApiDraws) (req : ApiRequest) (st : ApiState) :
    (route rt draws header req st).2.rbac =
      match req with
      | .bindRole subjectId role => (serveRoles rt header (.bind subjectId role) st.rbac).2
      | _ => st.rbac := by
  have identities (result : Except IdentityError Identifier × IdentityService) :
      (identityReply result st).2.rbac = st.rbac := by
    obtain ⟨reply, svc⟩ := result
    cases reply <;> rfl
  cases req with
  | bindRole subjectId role => exact congrArg ApiState.rbac (bindRole_eq rt header subjectId role st).1
  | account req => rfl
  | transaction req => rfl
  | redactBlock index =>
    simp only [route, redactBlock]
    split <;> rfl
  | createParty partyType legalName => rfl
  | addIdentifier partyId req => exact identities _
  | verifyIdentifier id =>
    simp only [route, verifyIdentifier]
    split
    · rfl
    · exact identities _
  | replaceIdentifier id newValue =>
    simp only [route, replaceIdentifier]
    split_ifs
    · rfl
    · exact identities _

end Alone

end BankingLedger
