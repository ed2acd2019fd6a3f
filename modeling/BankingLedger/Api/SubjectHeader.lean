import BankingLedger.Api.Authorization

set_option autoImplicit false

namespace BankingLedger

/-- The headers in the order they arrived. A name may be there more than once. -/
abbrev HeaderMap : Type := List (String × List UInt8)

def HeaderMap.get (headers : HeaderMap) (name : String) : Option (List UInt8) :=
  (headers.find? fun header => header.1 = name).map Prod.snd

def requirePermissionOf (rt : ApiRuntime) (headers : HeaderMap) (permission : Permission) (rbac : RbacEngine) :
    Except ApiError SubjectId :=
  requirePermission rt (headers.get "x-subject-id") permission rbac

def ApiError.subject : ApiError → Option SubjectId
  | .forbidden _ subject _ => some subject
  | _ => none

def answeredSubject : Except ApiError SubjectId → Option SubjectId
  | .ok subject => some subject
  | .error e => e.subject

section Subject

variable {rt : ApiRuntime} {headers : HeaderMap} {value : List UInt8} {permission : Permission} {rbac : RbacEngine}
  {subject : SubjectId}

def Names (rt : ApiRuntime) (value : List UInt8) (subject : SubjectId) : Prop :=
  ∃ text, headerText value = some text ∧ rt.parseUuid text = some subject.uuid

theorem extractSubject_eq_some_iff :
    extractSubject rt.parseUuid (some value) = some subject ↔ Names rt value subject := by
  cases subject with
  | mk uuid => simp [extractSubject, Names, Option.bind_eq_some_iff]

theorem extractSubject_eq_none_iff :
    extractSubject rt.parseUuid (some value) = none ↔ ∀ subject, ¬Names rt value subject := by
  rw [Option.eq_none_iff_forall_ne_some]
  exact forall_congr' fun subject => not_congr extractSubject_eq_some_iff

theorem requirePermission_ok_iff {header : Option (List UInt8)} :
    requirePermission rt header permission rbac = .ok subject ↔
      (extractSubject rt.parseUuid header).getD defaultAdmin = subject ∧ rbac.can subject permission = true := by
  rw [requirePermission]
  by_cases granted : rbac.can ((extractSubject rt.parseUuid header).getD defaultAdmin) permission = true
  next =>
    rw [if_pos granted, Except.ok.injEq]
    exact ⟨fun same => ⟨same, same ▸ granted⟩, And.left⟩
  next =>
    rw [if_neg granted]
    constructor
    · intro refused
      cases refused
    · intro both
      exact absurd (both.1 ▸ both.2) granted

theorem answeredSubject_requirePermission (header : Option (List UInt8)) :
    answeredSubject (requirePermission rt header permission rbac) =
      some ((extractSubject rt.parseUuid header).getD defaultAdmin) := by
  rw [requirePermission]
  by_cases granted : rbac.can ((extractSubject rt.parseUuid header).getD defaultAdmin) permission = true
  next =>
    rw [if_pos granted]
    rfl
  next =>
    rw [if_neg granted]
    rfl

theorem requirePermission_of_unnamed (unnamed : ∀ subject, ¬Names rt value subject) :
    requirePermission rt (some value) permission rbac = requirePermission rt none permission rbac := by
  rw [requirePermission, extractSubject_eq_none_iff.mpr unnamed]
  rfl

theorem can_iff_role : rbac.can subject permission = true ↔
    ∃ role ∈ rbac.rolesFor subject, permission ∈ rbac.permissionsOf role :=
  decide_eq_true_iff

theorem grants_iff :
    (∀ subject, requirePermission rt (some value) permission rbac = .ok subject →
      Names rt value subject ∧ ∃ role ∈ rbac.rolesFor subject, permission ∈ rbac.permissionsOf role) ↔
      (∃ subject, Names rt value subject) ∨ rbac.can defaultAdmin permission = false := by
  by_cases named : ∃ subject, Names rt value subject
  next =>
    obtain ⟨subject, names⟩ := named
    refine iff_of_true (fun other granted => ?_) (.inl ⟨subject, names⟩)
    obtain ⟨same, can⟩ := requirePermission_ok_iff.mp granted
    rw [extractSubject_eq_some_iff.mpr names, Option.getD_some] at same
    exact ⟨same ▸ names, can_iff_role.mp can⟩
  next =>
    have nobody := extractSubject_eq_none_iff.mpr (not_exists.mp named)
    rw [or_iff_right named, ← Bool.not_eq_true]
    constructor
    · intro grants can
      have granted : requirePermission rt (some value) permission rbac = .ok defaultAdmin :=
        requirePermission_ok_iff.mpr ⟨by rw [nobody, Option.getD_none], can⟩
      exact named ⟨defaultAdmin, (grants defaultAdmin granted).1⟩
    · intro cannot subject granted
      obtain ⟨same, can⟩ := requirePermission_ok_iff.mp granted
      rw [nobody, Option.getD_none] at same
      exact absurd (same ▸ can) cannot

theorem answers_iff :
    (∀ subject, answeredSubject (requirePermission rt (some value) permission rbac) = some subject →
      Names rt value subject) ↔ ∃ subject, Names rt value subject := by
  constructor
  · intro answers
    exact ⟨_, answers _ (answeredSubject_requirePermission (some value))⟩
  · rintro ⟨subject, names⟩ other answered
    rw [answeredSubject_requirePermission, extractSubject_eq_some_iff.mpr names, Option.getD_some,
      Option.some.injEq] at answered
    exact answered ▸ names

end Subject

def GrantsNamed (rt : ApiRuntime) (headers : HeaderMap) (permission : Permission) (rbac : RbacEngine) : Prop :=
  ∀ value, headers.get "x-subject-id" = some value →
    ∀ subject, requirePermissionOf rt headers permission rbac = .ok subject →
      Names rt value subject ∧ ∃ role ∈ rbac.rolesFor subject, permission ∈ rbac.permissionsOf role

def AnswersNamed (rt : ApiRuntime) (headers : HeaderMap) (permission : Permission) (rbac : RbacEngine) : Prop :=
  ∀ value, headers.get "x-subject-id" = some value →
    ∀ subject, answeredSubject (requirePermissionOf rt headers permission rbac) = some subject →
      Names rt value subject

/-- A header that is there grants nothing to another than the subject it names exactly if it names one, or the
default subject has not got the permission. The default is kept for the absent header exactly if it names one. -/
theorem present_header_iff (rt : ApiRuntime) (headers : HeaderMap) (permission : Permission) (rbac : RbacEngine) :
    (GrantsNamed rt headers permission rbac ↔ ∀ value, headers.get "x-subject-id" = some value →
      (∃ subject, Names rt value subject) ∨ rbac.can defaultAdmin permission = false) ∧
    (GrantsNamed rt headers permission rbac ∧ AnswersNamed rt headers permission rbac ↔
      ∀ value, headers.get "x-subject-id" = some value → ∃ subject, Names rt value subject) := by
  rw [GrantsNamed, AnswersNamed, ← forall_and]
  constructor
  · refine forall_congr' fun value => forall_congr' fun present => ?_
    rw [requirePermissionOf, present, grants_iff]
  · refine forall_congr' fun value => ?_
    rw [← forall_and]
    refine forall_congr' fun present => ?_
    rw [requirePermissionOf, present, grants_iff, answers_iff]
    exact and_iff_right_of_imp Or.inl

namespace Sample

def unreadable : HeaderMap := [("content-type", "application/json".toUTF8.data.toList),
  ("x-subject-id", "not-a-uuid".toUTF8.data.toList)]

end Sample

open Sample

/-- A header that is no UUID gives the right to manage roles. -/
theorem unreadable_header_manages_roles :
    requirePermissionOf apiRuntime unreadable .manageRoles (ApiState.new runtime ⟨0⟩).rbac = .ok defaultAdmin ∧
      ¬GrantsNamed apiRuntime unreadable .manageRoles (ApiState.new runtime ⟨0⟩).rbac := by
  have granted : requirePermissionOf apiRuntime unreadable .manageRoles (ApiState.new runtime ⟨0⟩).rbac =
      .ok defaultAdmin :=
    requirePermission_ok_iff.mpr ⟨by decide +kernel, by decide +kernel⟩
  refine ⟨granted, fun grants => ?_⟩
  obtain ⟨⟨text, readable, parsed⟩, -⟩ := grants _ rfl defaultAdmin granted
  have nothing : (headerText "not-a-uuid".toUTF8.data.toList).bind apiRuntime.parseUuid = none := by decide +kernel
  rw [readable, Option.bind_some, parsed] at nothing
  cases nothing

end BankingLedger
