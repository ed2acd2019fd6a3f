import BankingLedger.Api.RoleRequests

set_option autoImplicit false

namespace BankingLedger

open FiniteMap Interleaving Delegation

def apiPolicy : Policy SubjectId Role where
  seeds subject role := subject = defaultAdmin ∧ role = .admin ∨ subject = defaultAuditor ∧ role = .auditor
  manages role := role = .admin

-- The permissions of a role, which no request changes.
def granted (role : Role) : Finset Permission := RbacEngine.new.permissionsOf role

def RoleReply.TrueOf (rbac : RbacEngine) : RoleReply → Prop
  | .permissions _ listed => listed = permissionList
  | .bound subject _ effectivePermissions => effectivePermissions ⊆ rbac.permissionsFor subject
  | .subjectRoles subject roles effectivePermissions _ =>
    roles ⊆ rbac.rolesFor ⟨subject⟩ ∧ effectivePermissions ⊆ rbac.permissionsFor ⟨subject⟩
  | .audit _ bindings => ∀ entry ∈ bindings, entry.roles ⊆ rbac.rolesFor entry.subject ∧
      entry.effectivePermissions ⊆ rbac.permissionsFor entry.subject
  | .matrix text => text = RbacEngine.new.permissionMatrix

section Threads

variable (rt : ApiRuntime) {I : Type}

def RoleThread.Gave (l : RoleThread) (sender subject : SubjectId) (role : Role) : Prop :=
  ∃ reply, l.point = .answered (.ok reply) ∧ requester rt l.header = sender ∧
    l.request.binding rt = some (subject, role)

def Gave (c : Config I RbacEngine RoleThread) (sender subject : SubjectId) (role : Role) : Prop :=
  ∃ i, (c.thread i).Gave rt sender subject role

/-- The roles that follow from the defaults and the requests answered so far. -/
def Delegated (c : Config I RbacEngine RoleThread) : SubjectId → Role → Prop := Held apiPolicy (Gave rt c)

def RoleThread.Entitled (c : Config I RbacEngine RoleThread) (l : RoleThread) : Prop :=
  ∃ role, Delegated rt c (requester rt l.header) role ∧ l.request.required ∈ granted role

/-- The engine holds what has been delegated and nothing else, and nobody else was answered. -/
structure RolesAccounted (c : Config I RbacEngine RoleThread) : Prop where
  roles : ∀ subject role, role ∈ c.shared.rolesFor subject ↔ Delegated rt c subject role
  permissions : ∀ subject permission, c.shared.can subject permission = true ↔
    ∃ role, Delegated rt c subject role ∧ permission ∈ granted role
  answers : ∀ i reply, (c.thread i).point = .answered (.ok reply) →
    (c.thread i).Entitled rt c ∧ reply.TrueOf c.shared

variable (header : I → Option (List UInt8)) (request : I → RoleRequest)

def Trusting (trusted : SubjectId → Prop) : Prop :=
  trusted defaultAdmin ∧ ∀ i subject, trusted (requester rt (header i)) →
    (request i).binding rt = some (subject, .admin) → trusted subject

def Confined (rbac : RbacEngine) : Prop :=
  ∀ trusted, Trusting rt header request trusted → ∀ subject, ∀ role ∈ rbac.rolesFor subject,
    apiPolicy.seeds subject role ∨
      ∃ i, trusted (requester rt (header i)) ∧ (request i).binding rt = some (subject, role)

end Threads

section Engine

variable {rt : ApiRuntime} {rbac rbac' : RbacEngine} {l l' : RoleThread} {subject : SubjectId} {role : Role}

structure RbacEngine.Grows (rbac rbac' : RbacEngine) : Prop where
  roles : ∀ subject, rbac.rolesFor subject ⊆ rbac'.rolesFor subject
  table : rbac'.rolePermissions = rbac.rolePermissions

theorem RbacEngine.Grows.refl (rbac : RbacEngine) : rbac.Grows rbac := ⟨fun _ => Finset.Subset.refl _, rfl⟩

theorem permissionsOf_congr (table : rbac'.rolePermissions = rbac.rolePermissions) :
    rbac'.permissionsOf = rbac.permissionsOf := by
  funext role
  rw [RbacEngine.permissionsOf, table, RbacEngine.permissionsOf]

theorem RbacEngine.Grows.permissions (grows : rbac.Grows rbac') (subject : SubjectId) :
    rbac.permissionsFor subject ⊆ rbac'.permissionsFor subject := by
  rw [permissionsFor, permissionsFor, permissionsOf_congr grows.table]
  exact Finset.biUnion_subset_biUnion_of_subset_left _ (grows.roles subject)

theorem rolesFor_bind (rbac : RbacEngine) (key : SubjectId) (role : Role) (subject : SubjectId) :
    (rbac.bind key role).rolesFor subject =
      if subject = key then insert role (rbac.rolesFor subject) else rbac.rolesFor subject :=
  rbac.rolesFor_apply (.bind key role) subject

theorem RbacEngine.grows_bind (rbac : RbacEngine) (key : SubjectId) (role : Role) :
    rbac.Grows (rbac.bind key role) where
  roles subject := by
    rw [rolesFor_bind]
    split_ifs
    · exact Finset.subset_insert _ _
    · exact Finset.Subset.refl _
  table := rfl

theorem mem_rolesFor_bind {key : SubjectId} {bound : Role} :
    role ∈ (rbac.bind key bound).rolesFor subject ↔
      (key, bound) = (subject, role) ∨ role ∈ rbac.rolesFor subject := by
  rw [rolesFor_bind, Prod.mk.injEq]
  by_cases same : subject = key
  next => rw [if_pos same, Finset.mem_insert, eq_comm, eq_comm (a := key), and_iff_right same]
  next => rw [if_neg same, or_iff_right fun both => same both.1.symm]

theorem permissionMatrix_congr (table : rbac'.rolePermissions = rbac.rolePermissions) :
    rbac'.permissionMatrix = rbac.permissionMatrix := by
  have marks : rbac'.matrixMark = rbac.matrixMark := by
    funext role permission
    rw [RbacEngine.matrixMark, permissionsOf_congr table, RbacEngine.matrixMark]
  exact congrArg RbacEngine.matrixOf marks

theorem RoleReply.TrueOf.grows {reply : RoleReply} (truth : reply.TrueOf rbac) (grows : rbac.Grows rbac') :
    reply.TrueOf rbac' := by
  cases reply with
  | permissions requestedBy permissions => exact truth
  | bound subject role effectivePermissions => exact truth.trans (grows.permissions subject)
  | subjectRoles subject roles effectivePermissions count =>
    exact ⟨truth.1.trans (grows.roles _), truth.2.trans (grows.permissions _)⟩
  | audit total bindings =>
    intro entry member
    exact ⟨(truth entry member).1.trans (grows.roles _), (truth entry member).2.trans (grows.permissions _)⟩
  | matrix text => exact truth

inductive Handled (rt : ApiRuntime) (request : RoleRequest) (rbac : RbacEngine) :
    Except ApiError RoleReply × RbacEngine → Prop where
  | unknown (role : String) : Handled rt request rbac (.error (.unknownRole role), rbac)
  | read (reply : RoleReply) (nothing : request.binding rt = none)
      (truth : rbac.rolePermissions = RbacEngine.bankingRoles → reply.TrueOf rbac) :
      Handled rt request rbac (.ok reply, rbac)
  | bound (subject : SubjectId) (role : Role) (name : String) (binding : request.binding rt = some (subject, role)) :
      Handled rt request rbac
        (.ok (.bound subject name ((rbac.bind subject role).permissionsFor subject)), rbac.bind subject role)

theorem handle_handled (rt : ApiRuntime) (subject : SubjectId) (request : RoleRequest) (rbac : RbacEngine) :
    Handled rt request rbac (request.handle rt subject rbac) := by
  cases request with
  | listPermissions => exact .read _ rfl fun _ => rfl
  | bind subjectId role =>
    simp only [RoleRequest.handle]
    cases known : parseRole (rt.toLowercase role) with
    | none => exact .unknown role
    | some parsed => exact .bound _ parsed role (by rw [RoleRequest.binding, known, Option.map_some])
  | subjectRoles id => exact .read _ rfl fun _ => ⟨Finset.Subset.refl _, Finset.Subset.refl _⟩
  | auditExport =>
    refine .read _ rfl fun _ entry member => ?_
    obtain ⟨subject, -, rfl⟩ := Finset.mem_image.mp member
    exact ⟨Finset.Subset.refl _, Finset.Subset.refl _⟩
  | matrix => exact .read _ rfl fun table => permissionMatrix_congr table

theorem can_iff_granted (table : rbac.rolePermissions = RbacEngine.bankingRoles) {permission : Permission} :
    rbac.can subject permission = true ↔ ∃ role ∈ rbac.rolesFor subject, permission ∈ granted role := by
  have same : rbac.permissionsOf = RbacEngine.new.permissionsOf := permissionsOf_congr table
  rw [RbacEngine.can, decide_eq_true_iff, same]
  rfl

theorem manageRoles_granted_iff : Permission.manageRoles ∈ granted role ↔ role = .admin := by
  cases role <;> decide +kernel

theorem mem_rolesFor_default (rt : Runtime) (now : Timestamp) :
    role ∈ (ApiState.new rt now).rbac.rolesFor subject ↔ apiPolicy.seeds subject role := by
  rw [ApiState.new, mem_rolesFor_bind, mem_rolesFor_bind, apiPolicy, Prod.mk.injEq, Prod.mk.injEq]
  have nobody : RbacEngine.new.rolesFor subject = ∅ := by
    rw [RbacEngine.rolesFor, RbacEngine.new, Finmap.lookup_empty, Option.getD_none]
  rw [nobody]
  simp only [Finset.notMem_empty, or_false]
  rw [or_comm, eq_comm, eq_comm (b := role), eq_comm (a := defaultAuditor), eq_comm (a := Role.auditor)]

end Engine

section RoleAccounting

variable {rt : ApiRuntime} {I : Type} {c : Config I RbacEngine RoleThread} {i : I} {l l' : RoleThread}
  {rbac' : RbacEngine} {sender subject : SubjectId} {role : Role}

def RoleThread.Sound (rt : ApiRuntime) (c : Config I RbacEngine RoleThread) (l : RoleThread) : Prop :=
  match l.point with
  | .arrived | .answered (.error _) => True
  | .permitted _ => l.Entitled rt c
  | .answered (.ok reply) => l.Entitled rt c ∧ reply.TrueOf c.shared

structure RoleAccounting (rt : ApiRuntime) (c : Config I RbacEngine RoleThread) : Prop where
  table : c.shared.rolePermissions = RbacEngine.bankingRoles
  seeds : ∀ subject role, apiPolicy.seeds subject role → role ∈ c.shared.rolesFor subject
  gifts : ∀ sender subject role, Gave rt c sender subject role → role ∈ c.shared.rolesFor subject
  held : ∀ subject role, role ∈ c.shared.rolesFor subject → Delegated rt c subject role
  threads : ∀ i, (c.thread i).Sound rt c

theorem RoleThread.Gave.manages (gave : l.Gave rt sender subject role) : l.request.required = .manageRoles := by
  obtain ⟨reply, -, -, binding⟩ := gave
  cases request : l.request with
  | listPermissions => rfl
  | bind subjectId name => rfl
  | subjectRoles id => rfl
  | auditExport =>
    rw [request] at binding
    cases binding
  | matrix =>
    rw [request] at binding
    cases binding

theorem RoleThread.Gave.delegated (gave : l.Gave rt sender subject role) (present : c.thread i = l)
    (entitled : l.Entitled rt c) : Delegated rt c subject role := by
  obtain ⟨manager, authority, required⟩ := entitled
  rw [gave.manages, manageRoles_granted_iff] at required
  obtain ⟨reply, answered, sent, binding⟩ := gave
  rw [← present] at answered sent binding
  rw [present] at sent
  exact .gift (sent ▸ authority) required ⟨i, reply, answered, present ▸ sent, binding⟩

theorem RoleThread.Sound.later {c' : Config I RbacEngine RoleThread} (sound : l.Sound rt c)
    (more : ∀ subject role, Delegated rt c subject role → Delegated rt c' subject role)
    (grows : c.shared.Grows c'.shared) : l.Sound rt c' := by
  have entitled (before : l.Entitled rt c) : l.Entitled rt c' := by
    obtain ⟨role, held, required⟩ := before
    exact ⟨role, more _ _ held, required⟩
  unfold RoleThread.Sound at sound ⊢
  split
  · trivial
  · trivial
  · rename_i point
    simp only [point] at sound
    exact entitled sound
  · rename_i reply point
    simp only [point] at sound
    exact ⟨entitled sound.1, sound.2.grows grows⟩

variable [DecidableEq I]

theorem gave_update_iff (unanswered : ∀ reply, (c.thread i).point ≠ .answered reply) :
    Gave rt { shared := rbac', thread := Function.update c.thread i l' } sender subject role ↔
      l'.Gave rt sender subject role ∨ Gave rt c sender subject role := by
  have nothing : ¬(c.thread i).Gave rt sender subject role := by
    intro gave
    obtain ⟨reply, answered, -⟩ := gave
    exact unanswered _ answered
  rw [Gave, Gave, exists_thread_iff (fun l => l.Gave rt sender subject role) c.thread i, or_iff_right nothing]
  exact exists_update_iff (fun l => l.Gave rt sender subject role) c.thread i l'

theorem RoleAccounting.advance (acc : RoleAccounting rt c) (unanswered : ∀ reply, (c.thread i).point ≠ .answered reply)
    (grows : c.shared.Grows rbac')
    (added : ∀ subject role, role ∈ rbac'.rolesFor subject ↔
      (∃ sender, l'.Gave rt sender subject role) ∨ role ∈ c.shared.rolesFor subject)
    (sound : ∀ c' : Config I RbacEngine RoleThread, c'.shared = rbac' →
      (∀ subject role, Delegated rt c subject role → Delegated rt c' subject role) → l'.Sound rt c') :
    RoleAccounting rt { shared := rbac', thread := Function.update c.thread i l' } := by
  have more (subject : SubjectId) (role : Role) (before : Delegated rt c subject role) :
      Delegated rt { shared := rbac', thread := Function.update c.thread i l' } subject role :=
    before.mono fun sender subject role gave => (gave_update_iff unanswered).mpr (.inr gave)
  have here := sound { shared := rbac', thread := Function.update c.thread i l' } rfl more
  constructor
  case table => exact grows.table.trans acc.table
  case seeds => exact fun subject role seeded => grows.roles subject (acc.seeds subject role seeded)
  case gifts =>
    intro sender subject role gave
    cases (gave_update_iff unanswered).mp gave with
    | inl own => exact (added subject role).mpr (.inl ⟨sender, own⟩)
    | inr before => exact grows.roles subject (acc.gifts sender subject role before)
  case held =>
    intro subject role holds
    cases (added subject role).mp holds with
    | inl own =>
      obtain ⟨sender, gave⟩ := own
      refine gave.delegated (i := i) (Function.update_self i l' c.thread) ?_
      obtain ⟨reply, answered, -⟩ := gave
      rw [RoleThread.Sound, answered] at here
      exact here.1
    | inr before => exact more subject role (acc.held subject role before)
  case threads =>
    exact forall_update (fun _ (l : RoleThread) => l.Sound rt _) here fun j => (acc.threads j).later more grows

theorem RoleAccounting.step (acc : RoleAccounting rt c) (taken : roleStep rt c.shared (c.thread i) = some (rbac', l')) :
    RoleAccounting rt { shared := rbac', thread := Function.update c.thread i l' } := by
  have silent {point : RolePoint} (quiet : ∀ reply, point ≠ .answered (.ok reply)) (subject : SubjectId) (role : Role) :
      role ∈ c.shared.rolesFor subject ↔
        (∃ sender, RoleThread.Gave rt { c.thread i with point } sender subject role) ∨
          role ∈ c.shared.rolesFor subject := by
    rw [or_iff_right]
    rintro ⟨sender, reply, answered, -⟩
    exact quiet reply answered
  unfold roleStep at taken
  split at taken
  next arrived =>
    have unanswered (reply : Except ApiError RoleReply) : (c.thread i).point ≠ .answered reply := by
      rw [arrived]
      exact RolePoint.noConfusion
    cases asked : requirePermission rt (c.thread i).header (c.thread i).request.required c.shared with
    | error e =>
      rw [asked] at taken
      cases taken
      exact acc.advance unanswered (.refl _) (silent fun reply same => by cases same) fun c' _ _ => trivial
    | ok subject =>
      rw [asked] at taken
      cases taken
      refine acc.advance unanswered (.refl _) (silent fun reply same => by cases same) fun c' _ more => ?_
      rw [requirePermission] at asked
      split_ifs at asked with can
      obtain ⟨role, holds, permission⟩ := (can_iff_granted acc.table).mp can
      exact ⟨role, more _ _ (acc.held _ _ holds), permission⟩
  next subject permitted =>
    have unanswered (reply : Except ApiError RoleReply) : (c.thread i).point ≠ .answered reply := by
      rw [permitted]
      exact RolePoint.noConfusion
    have entitled : (c.thread i).Entitled rt c := by
      have sound := acc.threads i
      rwa [RoleThread.Sound, permitted] at sound
    have later {c' : Config I RbacEngine RoleThread} (point : RolePoint)
        (more : ∀ subject role, Delegated rt c subject role → Delegated rt c' subject role) :
        RoleThread.Entitled rt c' { c.thread i with point } := by
      obtain ⟨role, held, required⟩ := entitled
      exact ⟨role, more _ _ held, required⟩
    have handled := handle_handled rt subject (c.thread i).request c.shared
    generalize (c.thread i).request.handle rt subject c.shared = result at taken handled
    cases taken
    cases handled with
    | unknown name =>
      exact acc.advance unanswered (.refl _) (silent fun reply same => by cases same) fun c' _ _ => trivial
    | read reply nothing truth =>
      refine acc.advance unanswered (.refl _) (fun subject role => ?_) fun c' same more => ?_
      · rw [or_iff_right]
        rintro ⟨sender, reply', -, -, binding⟩
        rw [nothing] at binding
        cases binding
      · exact ⟨later _ more, same ▸ truth acc.table⟩
    | bound key bound name binding =>
      refine acc.advance unanswered (c.shared.grows_bind key bound) (fun subject role => ?_) fun c' same more => ?_
      · rw [mem_rolesFor_bind]
        refine or_congr_left ⟨fun same => ?_, fun gave => ?_⟩
        · exact ⟨_, _, rfl, rfl, binding.trans (congrArg some same)⟩
        · obtain ⟨sender, reply, -, -, binding'⟩ := gave
          exact Option.some.inj (binding.symm.trans binding')
      · refine ⟨later _ more, ?_⟩
        rw [same]
        exact Finset.Subset.refl _
  next => cases taken

omit [DecidableEq I] in
theorem start_accounting (rt : ApiRuntime) (now : Timestamp) (header : I → Option (List UInt8))
    (request : I → RoleRequest) : RoleAccounting rt (roleStart rt.toRuntime now header request) where
  table := rfl
  seeds subject role seeded := (mem_rolesFor_default rt.toRuntime now).mpr seeded
  gifts sender subject role gave := by
    obtain ⟨i, reply, answered, -⟩ := gave
    cases answered
  held subject role holds := .seed ((mem_rolesFor_default rt.toRuntime now).mp holds)
  threads i := trivial

omit [DecidableEq I] in
theorem RoleAccounting.accounted (acc : RoleAccounting rt c) : RolesAccounted rt c := by
  have roles (subject : SubjectId) (role : Role) :
      role ∈ c.shared.rolesFor subject ↔ Delegated rt c subject role := by
    constructor
    next => exact acc.held subject role
    next =>
      intro delegated
      cases delegated with
      | seed seeded => exact acc.seeds subject role seeded
      | gift _ _ gave => exact acc.gifts _ subject role gave
  refine ⟨roles, fun subject permission => ?_, fun i reply answered => ?_⟩
  · rw [can_iff_granted acc.table]
    exact exists_congr fun role => and_congr_left' (roles subject role)
  · have sound := acc.threads i
    rwa [RoleThread.Sound, answered] at sound

def Asks (header : I → Option (List UInt8)) (request : I → RoleRequest) (c : Config I RbacEngine RoleThread) : Prop :=
  ∀ i, (c.thread i).header = header i ∧ (c.thread i).request = request i

omit [DecidableEq I] in
theorem roleStep_asks (taken : roleStep rt c.shared l = some (rbac', l')) :
    l'.header = l.header ∧ l'.request = l.request := by
  unfold roleStep at taken
  split at taken
  · split at taken <;> cases taken <;> exact ⟨rfl, rfl⟩
  · cases taken
    exact ⟨rfl, rfl⟩
  · cases taken

omit [DecidableEq I] in
theorem RolesAccounted.confined {header : I → Option (List UInt8)} {request : I → RoleRequest}
    (accounted : RolesAccounted rt c)
    (asks : Asks header request c) : Confined rt header request c.shared := by
  intro trusted trusting subject role holds
  have roots (root : SubjectId) (rooted : Root apiPolicy root) : trusted root := by
    obtain ⟨manager, rfl, ⟨rfl, -⟩ | ⟨-, other⟩⟩ := rooted
    · exact trusting.1
    · cases other
  have sent {sender subject : SubjectId} {role : Role} (gave : Gave rt c sender subject role) :
      ∃ i, requester rt (header i) = sender ∧ (request i).binding rt = some (subject, role) := by
    obtain ⟨i, reply, -, origin, binding⟩ := gave
    rw [(asks i).1] at origin
    rw [(asks i).2] at binding
    exact ⟨i, origin, binding⟩
  have closed (sender subject : SubjectId) (trusts : trusted sender)
      (passes : Passes apiPolicy (Gave rt c) sender subject) :
      trusted subject := by
    obtain ⟨manager, rfl, gave⟩ := passes
    obtain ⟨i, rfl, binding⟩ := sent gave
    exact trusting.2 i subject trusts binding
  cases ((accounted.roles subject role).mp holds).confined roots closed with
  | inl seeded => exact .inl seeded
  | inr given =>
    obtain ⟨sender, trusts, gave⟩ := given
    obtain ⟨i, rfl, binding⟩ := sent gave
    exact .inr ⟨i, trusts, binding⟩

end RoleAccounting

/-- Whatever order the requests take their locks in, a subject has the roles that were handed down to it from
the defaults by requests answered before, and no others. No request is answered whose sender has not been
given the permission, and requests that no trusted subject sends change nobody's roles. -/
theorem roles_are_delegated {I : Type} [DecidableEq I] (rt : ApiRuntime) (now : Timestamp)
    (header : I → Option (List UInt8)) (request : I → RoleRequest) (schedule : List I) :
    let reached := (roleHandlers rt).run (roleStart rt.toRuntime now header request) schedule
    RolesAccounted rt reached ∧ Confined rt header request reached.shared := by
  have accounting : RoleAccounting rt ((roleHandlers rt).run (roleStart rt.toRuntime now header request) schedule) :=
    (roleHandlers rt).run_invariant (fun c i rbac l acc => acc.step) _ schedule
      (start_accounting rt now header request)
  have asks : Asks header request ((roleHandlers rt).run (roleStart rt.toRuntime now header request) schedule) := by
    refine (roleHandlers rt).run_invariant (fun c i rbac l asks taken => ?_) _ schedule fun i => ⟨rfl, rfl⟩
    refine forall_update (fun i (l : RoleThread) => l.header = header i ∧ l.request = request i) ?_ asks
    have same := roleStep_asks taken
    exact ⟨same.1.trans (asks i).1, same.2.trans (asks i).2⟩
  exact ⟨accounting.accounted, accounting.accounted.confined asks⟩

end BankingLedger
