import Mathlib.Data.Finset.Union
import BankingLedger.Shared.FiniteMap
import BankingLedger.Domain.Account

set_option autoImplicit false

namespace BankingLedger

open FiniteMap

structure SubjectId where
  uuid : Uuid
deriving DecidableEq, Repr

inductive Role where
  | admin
  | auditor
  | teller
  | customer
  | system
  | compliance
deriving DecidableEq, Repr

inductive Permission where
  | readAnyAccount
  | readOwnAccount
  | createAccount
  | updateAccountStatus
  | closeAccount
  | initiateTransfer
  | initiateOwnTransfer
  | viewAnyTransaction
  | viewOwnTransaction
  | viewAuditLog
  | verifyChainIntegrity
  | exportAuditReport
  | viewTrialBalance
  | manageUsers
  | manageRoles
  | configureLimits
  | viewSystemMetrics
  | redactPii
  | exportUserData
  | generateSarReport
  | sagaOrchestrate
  | autoReconcile
  | cronJob
deriving DecidableEq, Repr

structure RbacEngine where
  roleBindings : Map SubjectId (Finset Role)
  rolePermissions : Map Role (Finset Permission)

namespace RbacEngine

def bankingRoles : Map Role (Finset Permission) :=
  (∅ : Map Role (Finset Permission))
    |>.insert .admin {.readAnyAccount, .createAccount, .updateAccountStatus, .closeAccount,
      .initiateTransfer, .viewAnyTransaction, .viewAuditLog, .verifyChainIntegrity,
      .exportAuditReport, .viewTrialBalance, .manageUsers, .manageRoles, .configureLimits,
      .viewSystemMetrics, .redactPii, .exportUserData, .generateSarReport}
    |>.insert .auditor {.readAnyAccount, .viewAnyTransaction, .viewAuditLog, .verifyChainIntegrity,
      .exportAuditReport, .viewTrialBalance}
    |>.insert .teller {.readAnyAccount, .createAccount, .initiateTransfer, .viewAnyTransaction,
      .viewAuditLog, .verifyChainIntegrity, .viewTrialBalance}
    |>.insert .customer {.readOwnAccount, .initiateOwnTransfer, .viewOwnTransaction}
    |>.insert .system {.readAnyAccount, .initiateTransfer, .sagaOrchestrate, .autoReconcile, .cronJob}
    |>.insert .compliance {.readAnyAccount, .viewAnyTransaction, .viewAuditLog,
      .verifyChainIntegrity, .exportAuditReport, .redactPii, .exportUserData, .generateSarReport}

def new : RbacEngine where
  roleBindings := ∅
  rolePermissions := bankingRoles

def rolesFor (rbac : RbacEngine) (subject : SubjectId) : Finset Role :=
  (rbac.roleBindings.lookup subject).getD ∅

def bind (rbac : RbacEngine) (subject : SubjectId) (role : Role) : RbacEngine :=
  { rbac with
    roleBindings := rbac.roleBindings.insert subject (insert role (rbac.rolesFor subject)) }

def permissionsOf (rbac : RbacEngine) (role : Role) : Finset Permission :=
  (rbac.rolePermissions.lookup role).getD ∅

def can (rbac : RbacEngine) (subject : SubjectId) (permission : Permission) : Bool :=
  decide (∃ role ∈ rbac.rolesFor subject, permission ∈ rbac.permissionsOf role)

def permissionsFor (rbac : RbacEngine) (subject : SubjectId) : Finset Permission :=
  (rbac.rolesFor subject).biUnion rbac.permissionsOf

theorem can_iff (rbac : RbacEngine) (subject : SubjectId) (permission : Permission) :
    rbac.can subject permission = true ↔ permission ∈ rbac.permissionsFor subject := by
  simp [can, permissionsFor]

theorem cannot_of_no_roles {rbac : RbacEngine} {subject : SubjectId}
    (unbound : rbac.rolesFor subject = ∅) (permission : Permission) :
    rbac.can subject permission = false := by
  rw [Bool.eq_false_iff, ne_eq, can_iff, permissionsFor, unbound, Finset.biUnion_empty]
  exact Finset.notMem_empty permission

end RbacEngine

-- `to_str` of a header value: visible ASCII and tabs.
def headerText (value : List UInt8) : Option String :=
  if value.all fun b => (32 ≤ b && b < 127) || b == 9 then
    some (String.ofList (value.map fun b => Char.ofNat b.toNat))
  else none

-- `value` is that of the `x-subject-id` header, `parseUuid` the library's parser.
def extractSubject (parseUuid : String → Option Uuid) (value : Option (List UInt8)) :
    Option SubjectId :=
  ((value.bind headerText).bind parseUuid).map SubjectId.mk

end BankingLedger
