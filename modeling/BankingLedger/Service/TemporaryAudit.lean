import BankingLedger.Service.Rbac
import BankingLedger.Shared.Runs

set_option autoImplicit false

namespace BankingLedger

open FiniteMap Runs

theorem biUnion_erase_eq_iff {R A : Type} [DecidableEq R] [DecidableEq A] {roles : Finset R} {r : R}
    {f : R → Finset A} :
    (roles.erase r).biUnion f = roles.biUnion f ↔ (r ∈ roles → f r ⊆ (roles.erase r).biUnion f) := by
  by_cases member : r ∈ roles
  next =>
    have whole : f r ∪ (roles.erase r).biUnion f = roles.biUnion f := by
      rw [← Finset.biUnion_insert, Finset.insert_erase member]
    rw [← whole, forall_prop_of_true member, eq_comm, Finset.union_eq_right]
  next =>
    rw [Finset.erase_eq_of_notMem member]
    exact iff_of_true rfl fun held => absurd held member

namespace RbacEngine

def unbind (rbac : RbacEngine) (subject : SubjectId) (role : Role) : RbacEngine :=
  match rbac.roleBindings.lookup subject with
  | some roles => { rbac with roleBindings := rbac.roleBindings.insert subject (roles.erase role) }
  | none => rbac

/-- The reply is `none` where the sum of the clock and the duration overflows, which `elapses` answers. The
role is bound by then. -/
def grantTemporaryAudit (elapses : UInt64 → Bool) (rbac : RbacEngine) (subject : SubjectId)
    (durationSeconds : UInt64) : Option Unit × RbacEngine :=
  (if elapses durationSeconds then some () else none, rbac.bind subject .auditor)

def revokeTemporaryAudit (rbac : RbacEngine) (subject : SubjectId) : RbacEngine := rbac.unbind subject .auditor

end RbacEngine

inductive RoleCall where
  | bind (subject : SubjectId) (role : Role)
  | unbind (subject : SubjectId) (role : Role)
deriving DecidableEq

namespace RoleCall

def subject : RoleCall → SubjectId
  | .bind subject _ => subject
  | .unbind subject _ => subject

-- What a call makes of the roles of its subject.
def change (roles : Finset Role) : RoleCall → Finset Role
  | .bind _ role => insert role roles
  | .unbind _ role => roles.erase role

end RoleCall

namespace RbacEngine

def apply (rbac : RbacEngine) : RoleCall → RbacEngine
  | .bind subject role => rbac.bind subject role
  | .unbind subject role => rbac.unbind subject role

section Roles

variable {rbac rbac' : RbacEngine} {subject other : SubjectId} {calls : List RoleCall}

theorem rolesFor_insert (key : SubjectId) (roles : Finset Role) (subject : SubjectId) :
    RbacEngine.rolesFor { rbac with roleBindings := rbac.roleBindings.insert key roles } subject =
      if subject = key then roles else rbac.rolesFor subject := by
  rw [rolesFor, lookup_insert_eq]
  by_cases same : subject = key
  next => rw [if_pos same, if_pos same, Option.getD_some]
  next => rw [if_neg same, if_neg same, rolesFor]

theorem rolesFor_apply (rbac : RbacEngine) (call : RoleCall) (subject : SubjectId) :
    (rbac.apply call).rolesFor subject =
      if subject = call.subject then call.change (rbac.rolesFor subject) else rbac.rolesFor subject := by
  cases call with
  | bind key role =>
    rw [apply, bind, rolesFor_insert]
    by_cases same : subject = key
    next =>
      rw [if_pos same, ← same]
      exact (if_pos rfl).symm
    next =>
      rw [if_neg same]
      exact (if_neg same).symm
  | unbind key role =>
    rw [apply, unbind]
    by_cases same : subject = key
    next =>
      subst same
      rw [RoleCall.subject, if_pos rfl, RoleCall.change]
      cases found : rbac.roleBindings.lookup subject with
      | none => rw [rolesFor, found, Option.getD_none, Finset.erase_empty]
      | some roles =>
        rw [rolesFor_insert, if_pos rfl, rolesFor, found, Option.getD_some]
    next =>
      rw [RoleCall.subject, if_neg same]
      cases rbac.roleBindings.lookup key with
      | none => rfl
      | some roles => exact (rolesFor_insert key _ subject).trans (if_neg same)

@[simp] theorem rolePermissions_apply (rbac : RbacEngine) (call : RoleCall) :
    (rbac.apply call).rolePermissions = rbac.rolePermissions := by
  cases call with
  | bind key role => rfl
  | unbind key role =>
    rw [apply, unbind]
    cases rbac.roleBindings.lookup key <;> rfl

theorem rolePermissions_run (rbac : RbacEngine) (calls : List RoleCall) :
    (run apply rbac calls).rolePermissions = rbac.rolePermissions := by
  induction calls generalizing rbac with
  | nil => rfl
  | cons call rest ih => rw [run_cons, ih, rolePermissions_apply]

theorem rolesFor_run_of_others (others : ∀ call ∈ calls, call.subject ≠ subject) :
    (run apply rbac calls).rolesFor subject = rbac.rolesFor subject := by
  induction calls generalizing rbac with
  | nil => rfl
  | cons call rest ih =>
    rw [List.forall_mem_cons] at others
    rw [run_cons, ih others.2, rolesFor_apply, if_neg others.1.symm]

theorem rolesFor_run_congr (same : rbac.rolesFor subject = rbac'.rolesFor subject) (calls : List RoleCall) :
    (run apply rbac calls).rolesFor subject = (run apply rbac' calls).rolesFor subject := by
  induction calls generalizing rbac rbac' with
  | nil => exact same
  | cons call rest ih => exact ih (by rw [rolesFor_apply, rolesFor_apply, same])

theorem permissionsFor_congr (roles : rbac.rolesFor subject = rbac'.rolesFor subject)
    (permissions : rbac.rolePermissions = rbac'.rolePermissions) :
    rbac.permissionsFor subject = rbac'.permissionsFor subject := by
  have each : rbac.permissionsOf = rbac'.permissionsOf := by
    funext role
    rw [permissionsOf, permissions, permissionsOf]
  rw [permissionsFor, roles, each, permissionsFor]

end Roles

def afterAudit (elapses : UInt64 → Bool) (rbac : RbacEngine) (subject : SubjectId) (durationSeconds : UInt64)
    (calls : List RoleCall) : RbacEngine :=
  (run apply (rbac.grantTemporaryAudit elapses subject durationSeconds).2 calls).revokeTemporaryAudit subject

structure LeavesNoTrace (elapses : UInt64 → Bool) (rbac : RbacEngine) (subject : SubjectId)
    (durationSeconds : UInt64) (calls : List RoleCall) : Prop where
  same : (rbac.afterAudit elapses subject durationSeconds calls).permissionsFor subject =
    rbac.permissionsFor subject
  others : ∀ other, other ≠ subject →
    (rbac.afterAudit elapses subject durationSeconds calls).permissionsFor other =
      (run apply rbac calls).permissionsFor other

def AuditorRedundant (rbac : RbacEngine) (subject : SubjectId) : Prop :=
  Role.auditor ∈ rbac.rolesFor subject →
    rbac.permissionsOf .auditor ⊆ ((rbac.rolesFor subject).erase .auditor).biUnion rbac.permissionsOf

section Audit

variable (elapses : UInt64 → Bool) (rbac : RbacEngine) (subject : SubjectId) (durationSeconds : UInt64)
  {calls : List RoleCall}

theorem afterAudit_eq_run (calls : List RoleCall) : rbac.afterAudit elapses subject durationSeconds calls =
    (run apply (rbac.apply (.bind subject .auditor)) calls).apply (.unbind subject .auditor) := rfl

theorem rolePermissions_afterAudit (calls : List RoleCall) :
    (rbac.afterAudit elapses subject durationSeconds calls).rolePermissions = rbac.rolePermissions := by
  rw [afterAudit_eq_run, rolePermissions_apply, rolePermissions_run, rolePermissions_apply]

theorem rolesFor_afterAudit (others : ∀ call ∈ calls, call.subject ≠ subject) :
    (rbac.afterAudit elapses subject durationSeconds calls).rolesFor subject =
      (rbac.rolesFor subject).erase .auditor := by
  rw [afterAudit_eq_run, rolesFor_apply, RoleCall.subject, if_pos rfl, rolesFor_run_of_others others,
    rolesFor_apply, RoleCall.subject, if_pos rfl]
  exact Finset.erase_insert_eq_erase _ _

theorem permissionsFor_afterAudit_other (calls : List RoleCall) {other : SubjectId} (apart : other ≠ subject) :
    (rbac.afterAudit elapses subject durationSeconds calls).permissionsFor other =
      (run apply rbac calls).permissionsFor other := by
  refine permissionsFor_congr ?_ ?_
  · rw [afterAudit_eq_run, rolesFor_apply, RoleCall.subject, if_neg apart]
    exact rolesFor_run_congr (by rw [rolesFor_apply, RoleCall.subject, if_neg apart]) calls
  · rw [rolePermissions_afterAudit, rolePermissions_run]

theorem permissionsFor_afterAudit_iff (others : ∀ call ∈ calls, call.subject ≠ subject) :
    (rbac.afterAudit elapses subject durationSeconds calls).permissionsFor subject = rbac.permissionsFor subject ↔
      rbac.AuditorRedundant subject := by
  have each : (rbac.afterAudit elapses subject durationSeconds calls).permissionsOf = rbac.permissionsOf := by
    funext role
    rw [permissionsOf, rolePermissions_afterAudit, permissionsOf]
  rw [permissionsFor, permissionsFor, rolesFor_afterAudit elapses rbac subject durationSeconds others, each]
  exact biUnion_erase_eq_iff

/-- A temporary audit leaves no trace exactly if the subject was no auditor before, or got nothing more
from that. -/
theorem temporary_audit_iff (calls : List RoleCall) (others : ∀ call ∈ calls, call.subject ≠ subject) :
    rbac.LeavesNoTrace elapses subject durationSeconds calls ↔ rbac.AuditorRedundant subject := by
  rw [← permissionsFor_afterAudit_iff elapses rbac subject durationSeconds others]
  constructor
  · exact fun none => none.same
  · exact fun same => ⟨same, fun other => permissionsFor_afterAudit_other elapses rbac subject durationSeconds calls⟩

end Audit

namespace Sample

def teller : SubjectId := ⟨⟨3⟩⟩
def auditor : SubjectId := ⟨⟨4⟩⟩

def staff : RbacEngine := (new.bind teller .teller).bind auditor .auditor

end Sample

open RbacEngine.Sample

theorem temporary_audit_iff_teller :
    staff.LeavesNoTrace (fun _ => true) teller 3600 [.bind auditor .compliance] :=
  (temporary_audit_iff (fun _ => true) staff teller 3600 [.bind auditor .compliance] (by decide)).mpr (by
    intro held
    exact absurd held (by decide +kernel))

/-- The revocation takes the role from an auditor who had it for good. -/
theorem revocation_takes_permanent_role :
    (staff.afterAudit (fun _ => true) auditor 3600 []).permissionsFor auditor = ∅ ∧
      ¬staff.LeavesNoTrace (fun _ => true) auditor 3600 [] := by
  have nothing : (staff.afterAudit (fun _ => true) auditor 3600 []).permissionsFor auditor = ∅ := by decide +kernel
  refine ⟨nothing, fun none => ?_⟩
  have before : staff.permissionsFor auditor = ∅ := none.same.symm.trans nothing
  exact absurd before (by decide +kernel)

end RbacEngine

end BankingLedger
