import Chronos.Tenancy
import Mathlib.Logic.Relation

/-!
# The organization guard

`requireOrgMember(minRole)` of `api/src/middleware/rbac.ts`: it resolves the
organization from the names of the route's parameters and compares the
user's role there with the required one.  On the routes whose parameter
`id` names a queue, it looks for a job of that id and never finds the
organization.
-/

namespace Chronos

/-- The parameters of a route that the guard looks at. -/
structure Params where
  orgId : Option OrgId
  projectId : Option ProjectId
  queueId : Option QueueId
  id : Option Nat

/-- The organization of the request, resolved from the first parameter that
is present. -/
def resolveOrgId (db : Database) (params : Params) :
    Except ChronosError (Option OrgId) :=
  match params.orgId with
  | some org => .ok (some org)
  | none =>
      match params.projectId with
      | some project =>
          match db.orgOfProject project with
          | some org => .ok (some org)
          | none => .error (notFoundError "Project not found")
      | none =>
          match params.queueId with
          | some queue =>
              match db.orgOfQueue queue with
              | some org => .ok (some org)
              | none => .error (notFoundError "Queue not found")
          | none => .ok (params.id.bind db.orgOfJob)

/-- The check of the membership once the organization is known. -/
def requireRole (minRole : OrgMemberRole) (db : Database) (user : UserId)
    (org : OrgId) : Except ChronosError Unit :=
  match db.memberships.get? (org, user) with
  | none =>
      .error (forbiddenError "You are not a member of this organization")
  | some role =>
      if role.roleHierarchy < minRole.roleHierarchy then
        .error (forbiddenError ("This action requires at least '" ++
          minRole.text ++ "' role in the organization"))
      else .ok ()

/-- `requireOrgMember(minRole)`; `user` is `request.user`. -/
def requireOrgMember (minRole : OrgMemberRole) (db : Database)
    (user : Option UserId) (params : Params) : Except ChronosError Unit :=
  match user with
  | none => .error (unauthorizedError "Authentication required")
  | some userId =>
      match resolveOrgId db params with
      | .error error => .error error
      | .ok none =>
          .error (forbiddenError
            "Cannot determine organization for this resource")
      | .ok (some org) => requireRole minRole db userId org

/-! ## The routes under the guard -/

inductive Route where
  /-- `POST /projects/:projectId/queues` -/
  | createQueue
  /-- `GET /projects/:projectId/queues` -/
  | listQueues
  /-- `PATCH /queues/:id` -/
  | updateQueue
  /-- `GET /queues/:id/stats` -/
  | queueStats
  /-- `POST /queues/:queueId/jobs` -/
  | submitJob
  /-- `POST /queues/:queueId/jobs/batch` -/
  | submitBatch
  /-- `POST /jobs/:id/retry` -/
  | retryJob
  /-- `POST /jobs/:id/cancel` -/
  | cancelJob
  deriving DecidableEq

/-- The kind of row that a route's handler looks up and acts on. -/
inductive ResourceKind where
  | project
  | queue
  | job
  deriving DecidableEq

namespace Route

def minRole : Route → OrgMemberRole
  | .createQueue => .admin
  | .listQueues => .member
  | .updateQueue => .admin
  | .queueStats => .member
  | .submitJob => .member
  | .submitBatch => .member
  | .retryJob => .member
  | .cancelJob => .member

/-- The parameters of the route when its URL names this resource. -/
def params (route : Route) (resource : Nat) : Params :=
  match route with
  | .createQueue | .listQueues => ⟨none, some resource, none, none⟩
  | .submitJob | .submitBatch => ⟨none, none, some resource, none⟩
  | .updateQueue | .queueStats | .retryJob | .cancelJob =>
      ⟨none, none, none, some resource⟩

def kind : Route → ResourceKind
  | .createQueue | .listQueues => .project
  | .updateQueue | .queueStats | .submitJob | .submitBatch => .queue
  | .retryJob | .cancelJob => .job

/-- The URL names the queue in a parameter called `id`. -/
def queueById : Route → Bool
  | .updateQueue | .queueStats => true
  | _ => false

end Route

/-- The organization that owns a resource. -/
def Database.ownerOf (db : Database) : ResourceKind → Nat → Option OrgId
  | .project => db.orgOfProject
  | .queue => db.orgOfQueue
  | .job => db.orgOfJob

/-! ## Who is entitled -/

namespace OrgMemberRole

/-- One step up in the order of roles. -/
inductive Promotion : OrgMemberRole → OrgMemberRole → Prop where
  | toAdmin : Promotion .member .admin
  | toOwner : Promotion .admin .owner

/-- `role` is `minRole` or is above it. -/
def AtLeast (minRole role : OrgMemberRole) : Prop :=
  Relation.ReflTransGen Promotion minRole role

theorem Promotion.roleHierarchy_le {low high : OrgMemberRole}
    (promotion : Promotion low high) :
    low.roleHierarchy ≤ high.roleHierarchy := by
  cases promotion <;> decide

theorem roleHierarchy_le_iff {minRole role : OrgMemberRole} :
    minRole.roleHierarchy ≤ role.roleHierarchy ↔ AtLeast minRole role := by
  constructor
  · intro levels
    have toAdmin : AtLeast .member .admin := .single .toAdmin
    have toOwner : AtLeast .admin .owner := .single .toOwner
    cases minRole with
    | owner =>
        cases role with
        | owner => exact .refl
        | admin => exact absurd levels (by decide)
        | member => exact absurd levels (by decide)
    | admin =>
        cases role with
        | owner => exact toOwner
        | admin => exact .refl
        | member => exact absurd levels (by decide)
    | member =>
        cases role with
        | owner => exact toAdmin.trans toOwner
        | admin => exact toAdmin
        | member => exact .refl
  · intro above
    induction above with
    | refl => exact le_rfl
    | tail _ promotion induction =>
        exact induction.trans promotion.roleHierarchy_le

end OrgMemberRole

namespace Database

/-- The user is a member of the organization with at least this role. -/
def Entitled (db : Database) (user : UserId) (minRole : OrgMemberRole)
    (org : OrgId) : Prop :=
  ∃ role, db.memberships.get? (org, user) = some role ∧ minRole.AtLeast role

end Database

section Guard

variable {db : Database} {user : UserId} {org : OrgId}

theorem requireRole_eq_ok_iff {minRole : OrgMemberRole} :
    requireRole minRole db user org = .ok () ↔
      db.Entitled user minRole org := by
  unfold requireRole Database.Entitled
  cases found : db.memberships.get? (org, user) with
  | none => simp
  | some role =>
      simp only [Option.some.injEq, exists_eq_left',
        ← OrgMemberRole.roleHierarchy_le_iff]
      split
      · rename_i below
        simp [below]
      · rename_i reaches
        simp [Nat.not_lt.mp reaches]

theorem requireOrgMember_of_resolved {minRole : OrgMemberRole}
    {params : Params} (resolved : resolveOrgId db params = .ok (some org)) :
    requireOrgMember minRole db (some user) params =
      requireRole minRole db user org := by
  simp only [requireOrgMember, resolved]

/-- The guard finds the organization from a parameter that names the kind of
the resource. -/
theorem resolveOrgId_params {route : Route} {resource : Nat}
    (named : route.queueById = false)
    (owned : db.ownerOf route.kind resource = some org) :
    resolveOrgId db (route.params resource) = .ok (some org) := by
  cases route with
  | updateQueue => cases named
  | queueStats => cases named
  | createQueue | listQueues =>
      have found : db.orgOfProject resource = some org := owned
      simp [Route.params, resolveOrgId, found]
  | submitJob | submitBatch =>
      have found : db.orgOfQueue resource = some org := owned
      simp [Route.params, resolveOrgId, found]
  | retryJob | cancelJob =>
      have found : db.orgOfJob resource = some org := owned
      simp [Route.params, resolveOrgId, found]

theorem Database.isSome_of_orgOfQueue {queue : QueueId}
    (owned : db.orgOfQueue queue = some org) :
    (db.queues.get? queue).isSome := by
  unfold Database.orgOfQueue at owned
  obtain ⟨row, found, -⟩ := Option.bind_eq_some_iff.mp owned
  simp [found]

/-- A queue named by the parameter `id` is looked up among the jobs, where no
row has its identifier. -/
theorem resolveOrgId_queueById (distinct : db.DistinctIds) {route : Route}
    {resource : Nat} (byId : route.queueById = true)
    (owned : db.ownerOf route.kind resource = some org) :
    resolveOrgId db (route.params resource) = .ok none := by
  have absent : route.kind = .queue → db.jobs.get? resource = none := by
    intro kind
    rw [kind] at owned
    exact distinct.queueJob (Database.isSome_of_orgOfQueue owned)
  cases route with
  | updateQueue | queueStats =>
      simp [Route.params, resolveOrgId, Database.orgOfJob, absent rfl]
  | _ => cases byId

theorem requireOrgMember_queueById (distinct : db.DistinctIds) {route : Route}
    {resource : Nat} (byId : route.queueById = true)
    (owned : db.ownerOf route.kind resource = some org) :
    requireOrgMember route.minRole db (some user) (route.params resource) =
      .error (forbiddenError
        "Cannot determine organization for this resource") := by
  have unresolved := resolveOrgId_queueById distinct byId owned
  simp only [requireOrgMember, unresolved]

/-- The guard lets a request through exactly if the user is entitled, unless
the route names a queue by the parameter `id`: there it turns down those who
are entitled as well. -/
theorem guard_decides_membership (distinct : db.DistinctIds) (route : Route)
    {resource : Nat}
    (owned : db.ownerOf route.kind resource = some org) :
    (requireOrgMember route.minRole db (some user) (route.params resource) =
        .ok () ↔ db.Entitled user route.minRole org) ↔
      (route.queueById = false ∨ ¬ db.Entitled user route.minRole org) := by
  cases named : route.queueById with
  | false =>
      have resolved := resolveOrgId_params named owned
      rw [requireOrgMember_of_resolved resolved]
      simp [requireRole_eq_ok_iff]
  | true =>
      rw [requireOrgMember_queueById distinct named owned]
      simp

end Guard

/-- Organization 1 with its owner, user 1, one project and one queue. -/
def Database.oneQueue : Database where
  memberships := ⟨[((1, 1), .owner)], by simp⟩
  projects := ⟨[(10, ⟨1⟩)], by simp⟩
  retryPolicies := .empty
  queues := ⟨[(20, ⟨⟨10, 10, false, none⟩, "emails"⟩)], by simp⟩
  jobs := .empty
  executions := .empty
  logs := .empty
  deadLetters := .empty
  workers := .empty

theorem Database.oneQueue_distinctIds : Database.oneQueue.DistinctIds where
  projectQueue := by
    intro id present
    simp only [oneQueue, Table.get?, List.find?_cons, List.find?_nil] at *
    by_cases same : 10 = id
    · subst id; rfl
    · simp [same] at present
  projectJob _ := rfl
  queueJob _ := rfl

theorem guard_decides_membership_member :
    requireOrgMember .member Database.oneQueue (some 1)
        (Route.submitJob.params 20) = .ok () ↔
      Database.oneQueue.Entitled 1 .member 1 := by
  have owned : Database.oneQueue.ownerOf Route.submitJob.kind 20 = some 1 :=
    rfl
  apply (guard_decides_membership Database.oneQueue_distinctIds .submitJob
    owned).mpr
  exact .inl rfl

/-- The owner of the organization cannot update its queue. -/
theorem owner_refused :
    Database.oneQueue.DistinctIds ∧
      Database.oneQueue.ownerOf Route.updateQueue.kind 20 = some 1 ∧
      Database.oneQueue.Entitled 1 Route.updateQueue.minRole 1 ∧
      requireOrgMember Route.updateQueue.minRole Database.oneQueue (some 1)
          (Route.updateQueue.params 20) =
        .error (forbiddenError
          "Cannot determine organization for this resource") := by
  refine ⟨Database.oneQueue_distinctIds, rfl, ⟨.owner, rfl, ?_⟩, rfl⟩
  exact OrgMemberRole.roleHierarchy_le_iff.mp (by decide)

end Chronos
