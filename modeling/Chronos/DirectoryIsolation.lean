import Chronos.Directory

/-!
# Tenant isolation of projects, queues and the dashboard

Two directories that agree for a user give that user the same answers, up to
one thing: the guard of the queue endpoints tells a resource of another
organization from one that does not exist.
-/

namespace Chronos

theorem Database.isSome_of_sees {db : Database} {user : UserId}
    {org : Option OrgId} (seen : db.sees user org = true) :
    org.isSome = true := by
  cases org with
  | none => cases seen
  | some org => rfl

/-! ## Which rows the user sees -/

section Sees

variable {db : Database} {user : UserId}

theorem Database.sees_orgOfProject (project : ProjectId) :
    db.sees user (db.orgOfProject project) =
      (db.projects.get? project).any (db.ownProject user project) := by
  rw [Database.orgOfProject]
  cases db.projects.get? project <;> rfl

theorem Database.sees_orgOfQueue (queue : QueueId) :
    db.sees user (db.orgOfQueue queue) =
      (db.queues.get? queue).any (db.ownQueue user queue) := by
  rw [Database.orgOfQueue]
  cases db.queues.get? queue <;> rfl

theorem Database.sees_orgOfJob (job : JobId) :
    db.sees user (db.orgOfJob job) =
      (db.jobs.get? job).any (db.ownJob user job) := by
  rw [Database.orgOfJob]
  cases db.jobs.get? job <;> rfl

theorem Database.sees_orgOfExecution (execution : ExecutionId) :
    db.sees user (db.orgOfExecution execution) =
      (db.executions.get? execution).any
        (db.ownExecution user execution) := by
  rw [Database.orgOfExecution]
  cases db.executions.get? execution <;> rfl

end Sees

/-- Two databases agree if each table, seen through the tables above it, has
the user's rows in common. -/
theorem Agree.of_rows {user : UserId} {left right : Database}
    (memberships : ∀ org,
      left.memberships.get? (org, user) = right.memberships.get? (org, user))
    (projects : left.projects.SameWhere right.projects
      (left.ownProject user) (right.ownProject user))
    (retryPolicies :
      (∀ project, left.sees user (left.orgOfProject project) =
        right.sees user (right.orgOfProject project)) →
      left.retryPolicies.SameWhere right.retryPolicies
        (left.ownPolicy user) (right.ownPolicy user))
    (queues :
      (∀ project, left.sees user (left.orgOfProject project) =
        right.sees user (right.orgOfProject project)) →
      left.queues.SameWhere right.queues
        (left.ownQueue user) (right.ownQueue user))
    (jobs :
      (∀ queue, left.sees user (left.orgOfQueue queue) =
        right.sees user (right.orgOfQueue queue)) →
      left.jobs.SameWhere right.jobs
        (left.ownJob user) (right.ownJob user))
    (executions :
      (∀ job, left.sees user (left.orgOfJob job) =
        right.sees user (right.orgOfJob job)) →
      left.executions.SameWhere right.executions
        (left.ownExecution user) (right.ownExecution user))
    (logs :
      (∀ execution, left.sees user (left.orgOfExecution execution) =
        right.sees user (right.orgOfExecution execution)) →
      left.logs.SameWhere right.logs (left.ownLog user) (right.ownLog user))
    (deadLetters :
      (∀ job, left.sees user (left.orgOfJob job) =
        right.sees user (right.orgOfJob job)) →
      left.deadLetters.SameWhere right.deadLetters
        (left.ownDeadLetter user) (right.ownDeadLetter user))
    (workers : ∀ worker,
      left.workers.get? worker = right.workers.get? worker) :
    Agree user left right := by
  have seesProject : ∀ project,
      left.sees user (left.orgOfProject project) =
        right.sees user (right.orgOfProject project) := by
    intro project
    rw [Database.sees_orgOfProject, Database.sees_orgOfProject]
    exact projects.any_eq project
  have queues := queues seesProject
  have seesQueue : ∀ queue, left.sees user (left.orgOfQueue queue) =
      right.sees user (right.orgOfQueue queue) := by
    intro queue
    rw [Database.sees_orgOfQueue, Database.sees_orgOfQueue]
    exact queues.any_eq queue
  have jobs := jobs seesQueue
  have seesJob : ∀ job, left.sees user (left.orgOfJob job) =
      right.sees user (right.orgOfJob job) := by
    intro job
    rw [Database.sees_orgOfJob, Database.sees_orgOfJob]
    exact jobs.any_eq job
  have executions := executions seesJob
  have seesExecution : ∀ execution,
      left.sees user (left.orgOfExecution execution) =
        right.sees user (right.orgOfExecution execution) := by
    intro execution
    rw [Database.sees_orgOfExecution, Database.sees_orgOfExecution]
    exact executions.any_eq execution
  exact ⟨memberships, projects, retryPolicies seesProject, queues, jobs,
    executions, logs seesExecution, deadLetters seesJob, workers⟩

namespace DirectoryRequest

/-- The route has `requireOrgMember('member')`. -/
def isGuarded : DirectoryRequest → Bool
  | .queues _ _ _ => true
  | .stats _ => true
  | _ => false

/-- What the guard says to those it turns down, if the resource that it looks
for exists and if not. -/
def refusal (request : DirectoryRequest) : Bool → ChronosError
  | true => forbiddenError "You are not a member of this organization"
  | false =>
      match request with
      | .queues _ _ _ => notFoundError "Project not found"
      | _ => forbiddenError "Cannot determine organization for this resource"

theorem refusal_ne (request : DirectoryRequest) :
    request.refusal true ≠ request.refusal false := by
  apply ne_of_apply_ne ChronosError.message
  cases request <;> simp [refusal, forbiddenError, notFoundError]

end DirectoryRequest

namespace Directory

/-- The two directories have in common what the user may see. -/
structure Agree (user : UserId) (left right : Directory) : Prop where
  rows : Chronos.Agree user left.toDatabase right.toDatabase
  projectColumns : ∀ project,
    left.sees user (left.orgOfProject project) = true →
    left.projectColumns project = right.projectColumns project
  queueColumns : ∀ queue,
    left.sees user (left.orgOfQueue queue) = true →
    left.queueColumns queue = right.queueColumns queue

/-- The organization that the guard of the request finds: `GET
/queues/:id/stats` looks for a job. -/
def guarded (directory : Directory) : DirectoryRequest → Option OrgId
  | .queues projectId _ _ => directory.orgOfProject projectId
  | .stats id => directory.orgOfJob id
  | _ => none

section Lookups

variable {directory : Directory} {user : UserId}

theorem orgOfProject_of_projectRows {id : ProjectId} {row : ProjectRow}
    (found : directory.projectRows.get? id = some row) :
    directory.orgOfProject id = some row.orgId := by
  rw [projectRows, Table.get?_mapValues] at found
  obtain ⟨project, stored, rfl⟩ := Option.map_eq_some_iff.mp found
  rw [Database.orgOfProject, stored]
  rfl

theorem exists_project {id : ProjectId}
    (seen : directory.sees user (directory.orgOfProject id) = true) :
    ∃ row, directory.projects.get? id = some row ∧
      directory.isMember user row.orgId = true := by
  unfold Database.orgOfProject at seen
  cases stored : directory.projects.get? id with
  | none =>
      rw [stored] at seen
      cases seen
  | some row =>
      rw [stored] at seen
      exact ⟨row, rfl, seen⟩

theorem exists_projectRow {id : ProjectId}
    (seen : directory.sees user (directory.orgOfProject id) = true) :
    ∃ row, directory.projectRows.get? id = some row ∧
      directory.isMember user row.orgId = true := by
  obtain ⟨row, found, own⟩ := exists_project seen
  rw [projectRows, Table.get?_mapValues, found]
  exact ⟨_, rfl, own⟩

theorem orgOfQueue_of_queueRecords {id : QueueId} {queue : QueueRecord}
    (found : directory.queueRecords.get? id = some queue) :
    directory.orgOfQueue id = directory.orgOfProject queue.projectId := by
  rw [queueRecords, Table.get?_mapValues] at found
  obtain ⟨row, stored, rfl⟩ := Option.map_eq_some_iff.mp found
  rw [Database.orgOfQueue, stored]
  rfl

theorem getProject_of_not_sees {id : ProjectId} {orders : DirectoryOrders}
    (hidden : directory.sees user (directory.orgOfProject id) = false) :
    directory.getProject user id orders = some projectNotFound := by
  unfold getProject
  cases found : directory.projectRows.get? id with
  | none => rfl
  | some row =>
      rw [orgOfProject_of_projectRows found] at hidden
      have outside : directory.isMember user row.orgId = false := hidden
      simp [outside]

theorem getProject_of_found {id : ProjectId} {orders : DirectoryOrders}
    {project : ProjectRow}
    (found : directory.projectRows.get? id = some project)
    (own : directory.isMember user project.orgId = true) :
    directory.getProject user id orders =
      (directory.queueRecords.findMany (fun _ queue => queue.projectId = id)
          QueueRecord.newer 0 orders.queues.length orders.queues).map
        fun queues =>
          .ok (.project
            { id := id, orgId := project.orgId, name := project.name
              apiKey := project.apiKey, createdAt := project.createdAt
              queues := queues.map fun queue =>
                directory.projectQueue queue.1 queue.2
              queueCount :=
                directory.queues.count fun _ queue => queue.projectId = id
              retryPolicyCount :=
                directory.retryPolicies.count fun _ policy =>
                  policy.projectId = id }) := by
  unfold getProject
  rw [found]
  simp only [own, if_true]

/-! ## The guard -/

theorem requireRole_member {db : Database} {org : OrgId} :
    requireRole .member db user org =
      if db.isMember user org then .ok ()
      else .error
        (forbiddenError "You are not a member of this organization") := by
  unfold requireRole Database.isMember
  cases db.memberships.get? (org, user) with
  | none => rfl
  | some role => cases role <;> rfl

/-- The guard turns down a user who is no member of the organization that it
finds, or who names a resource that it does not find. -/
theorem read_of_not_sees {prisma : Prisma} {clock : WallClock}
    {request : DirectoryRequest} {orders : DirectoryOrders}
    (guarded : request.isGuarded = true)
    (hidden : directory.sees user (directory.guarded request) = false) :
    directory.read prisma user clock request orders =
      some (.error (request.refusal (directory.guarded request).isSome)) := by
  cases request with
  | queues projectId page limit =>
      simp only [read, getQueues, Route.minRole, Route.params,
        requireOrgMember, resolveOrgId]
      simp only [Directory.guarded] at hidden ⊢
      cases found : directory.orgOfProject projectId with
      | none => rfl
      | some org =>
          rw [found] at hidden
          have outside : directory.isMember user org = false := hidden
          simp [requireRole_member, outside, DirectoryRequest.refusal]
  | stats id =>
      simp only [read, getQueueStats, Route.minRole, Route.params,
        requireOrgMember, resolveOrgId, Option.bind_some]
      simp only [Directory.guarded] at hidden ⊢
      cases found : directory.orgOfJob id with
      | none => rfl
      | some org =>
          rw [found] at hidden
          have outside : directory.isMember user org = false := hidden
          simp [requireRole_member, outside, DirectoryRequest.refusal]
  | _ => cases guarded

theorem read_queues_of_sees {prisma : Prisma} {clock : WallClock}
    {projectId : ProjectId} {page limit : Option String}
    {orders : DirectoryOrders}
    (seen : directory.sees user (directory.orgOfProject projectId) = true) :
    directory.read prisma user clock (.queues projectId page limit) orders =
      directory.queuesPage prisma projectId page limit orders := by
  simp only [read, getQueues, Route.minRole, Route.params, requireOrgMember,
    resolveOrgId]
  cases found : directory.orgOfProject projectId with
  | none =>
      rw [found] at seen
      cases seen
  | some org =>
      rw [found] at seen
      have inside : directory.isMember user org = true := seen
      simp [requireRole_member, inside]

theorem read_stats_of_sees {prisma : Prisma} {clock : WallClock} {id : QueueId}
    {orders : DirectoryOrders} (distinct : directory.DistinctIds)
    (seen : directory.sees user (directory.orgOfJob id) = true) :
    directory.read prisma user clock (.stats id) orders =
      some (.error (notFoundError "Queue not found")) := by
  simp only [read, getQueueStats, Route.minRole, Route.params,
    requireOrgMember, resolveOrgId, Option.bind_some]
  cases found : directory.orgOfJob id with
  | none =>
      rw [found] at seen
      cases seen
  | some org =>
      rw [found] at seen
      have inside : directory.isMember user org = true := seen
      have absent : directory.queues.get? id = none := by
        cases present : directory.queues.get? id with
        | none => rfl
        | some queue =>
            have isQueue : (directory.queues.get? id).isSome = true := by
              rw [present]
              rfl
            have noJob := distinct.queueJob isQueue
            rw [Database.orgOfJob, noJob] at found
            cases found
      simp [requireRole_member, inside, statsPage, absent]

end Lookups

namespace Agree

variable {user : UserId} {left right : Directory}

theorem seesProject (agree : Agree user left right) (project : ProjectId) :
    left.sees user (left.orgOfProject project) =
      right.sees user (right.orgOfProject project) := by
  rw [Database.sees_orgOfProject, Database.sees_orgOfProject]
  exact agree.rows.projects.any_eq project

theorem projectRows (agree : Agree user left right) :
    left.projectRows.SameWhere right.projectRows
      (fun _ row => left.isMember user row.orgId)
      (fun _ row => right.isMember user row.orgId) := by
  apply agree.rows.projects.mapValues
  · intro id row
    rfl
  · intro id row
    rfl
  · intro id row found own
    have seen : left.sees user (left.orgOfProject id) = true := by
      rw [Database.orgOfProject, found]
      exact own
    rw [agree.projectColumns id seen]

theorem queueRecords (agree : Agree user left right) :
    left.queueRecords.SameWhere right.queueRecords
      (fun _ queue => left.sees user (left.orgOfProject queue.projectId))
      (fun _ queue =>
        right.sees user (right.orgOfProject queue.projectId)) := by
  apply agree.rows.queues.mapValues
  · intro id row
    rfl
  · intro id row
    rfl
  · intro id row found own
    have seen : left.sees user (left.orgOfQueue id) = true := by
      rw [Database.orgOfQueue, found]
      exact own
    rw [agree.queueColumns id seen]

section Project

variable {project : ProjectId}

theorem recordsOf (agree : Agree user left right)
    (seen : left.sees user (left.orgOfProject project) = true) :
    left.queueRecords.SameWhere right.queueRecords
      (fun _ queue => decide (queue.projectId = project))
      (fun _ queue => decide (queue.projectId = project)) := by
  apply agree.queueRecords.of_imp
  · intro id row holds
    rw [of_decide_eq_true holds]
    exact seen
  · intro id row holds
    rw [of_decide_eq_true holds, ← agree.seesProject]
    exact seen

theorem queuesOf (agree : Agree user left right)
    (seen : left.sees user (left.orgOfProject project) = true) :
    left.queues.SameWhere right.queues
      (fun _ queue => decide (queue.projectId = project))
      (fun _ queue => decide (queue.projectId = project)) := by
  apply agree.rows.queues.of_imp
  · intro id row holds
    rw [Database.ownQueue, of_decide_eq_true holds]
    exact seen
  · intro id row holds
    rw [Database.ownQueue, of_decide_eq_true holds, ← agree.seesProject]
    exact seen

theorem policiesOf (agree : Agree user left right)
    (seen : left.sees user (left.orgOfProject project) = true) :
    left.retryPolicies.SameWhere right.retryPolicies
      (fun _ policy => decide (policy.projectId = project))
      (fun _ policy => decide (policy.projectId = project)) := by
  apply agree.rows.retryPolicies.of_imp
  · intro id row holds
    rw [Database.ownPolicy, of_decide_eq_true holds]
    exact seen
  · intro id row holds
    rw [Database.ownPolicy, of_decide_eq_true holds, ← agree.seesProject]
    exact seen

end Project

theorem jobsOf (agree : Agree user left right) (condition : QueueId → Bool)
    (seen : ∀ queue, condition queue = true →
      left.sees user (left.orgOfQueue queue) = true) :
    left.jobs.SameWhere right.jobs (fun _ job => condition job.queueId)
      (fun _ job => condition job.queueId) := by
  apply agree.rows.jobs.of_imp
  · intro id row holds
    exact seen row.queueId holds
  · intro id row holds
    have same := (agree.rows.queue (seen row.queueId holds)).2
    rw [Database.ownJob, same, ← agree.rows.sees]
    exact seen row.queueId holds

theorem countOf (agree : Agree user left right) {queue : QueueId}
    (seen : left.sees user (left.orgOfQueue queue) = true) :
    (left.jobs.count fun _ job => decide (job.queueId = queue)) =
      right.jobs.count fun _ job => decide (job.queueId = queue) := by
  apply (agree.jobsOf (fun id => decide (id = queue)) ?_).count_eq
  intro id same
  rw [of_decide_eq_true same]
  exact seen

/-! ## The endpoints -/

theorem getProjects_eq (agree : Agree user left right) (prisma : Prisma)
    (page limit : Option String) (orders : DirectoryOrders) :
    left.getProjects prisma user page limit orders =
      right.getProjects prisma user page limit orders := by
  have counts : (left.projects.count fun _ row =>
      left.isMember user row.orgId) =
      right.projects.count fun _ row => right.isMember user row.orgId :=
    agree.rows.projects.count_eq
  unfold Directory.getProjects
  simp only [Database.contains_orgIds]
  rw [← agree.projectRows.findMany_eq, ← counts]
  congr 1
  apply Option.map_congr
  intro projects answered
  have summaries : (projects.map fun project =>
      left.projectSummary project.1 project.2) =
      projects.map fun project =>
        right.projectSummary project.1 project.2 := by
    apply List.map_congr_left
    rintro ⟨id, row⟩ member
    obtain ⟨found, own⟩ := Table.mem_findMany answered member
    have seen : left.sees user (left.orgOfProject id) = true := by
      rw [orgOfProject_of_projectRows found]
      exact own
    rw [projectSummary, projectSummary, (agree.queuesOf seen).count_eq]
  rw [summaries]

theorem getProject_eq (agree : Agree user left right) (id : ProjectId)
    (orders : DirectoryOrders) :
    left.getProject user id orders = right.getProject user id orders := by
  cases seen : left.sees user (left.orgOfProject id) with
  | false =>
      have seen' := (agree.seesProject id).symm.trans seen
      rw [getProject_of_not_sees seen, getProject_of_not_sees seen']
  | true =>
      obtain ⟨row, found, own⟩ := exists_projectRow seen
      obtain ⟨found', own'⟩ := agree.projectRows.get? found own
      rw [getProject_of_found found own, getProject_of_found found' own',
        ← (agree.recordsOf seen).findMany_eq, ← (agree.queuesOf seen).count_eq,
        ← (agree.policiesOf seen).count_eq]
      apply Option.map_congr
      intro queues answered
      have shown : (queues.map fun queue =>
          left.projectQueue queue.1 queue.2) =
          queues.map fun queue => right.projectQueue queue.1 queue.2 := by
        apply List.map_congr_left
        rintro ⟨queue, record⟩ member
        obtain ⟨listed, inProject⟩ := Table.mem_findMany answered member
        have seenQueue : left.sees user (left.orgOfQueue queue) = true := by
          rw [orgOfQueue_of_queueRecords listed,
            of_decide_eq_true inProject, seen]
        rw [projectQueue, projectQueue, agree.countOf seenQueue]
      rw [shown]

theorem queuesPage_eq (agree : Agree user left right) (prisma : Prisma)
    {projectId : ProjectId}
    (seen : left.sees user (left.orgOfProject projectId) = true)
    (page limit : Option String) (orders : DirectoryOrders) :
    left.queuesPage prisma projectId page limit orders =
      right.queuesPage prisma projectId page limit orders := by
  have project : right.projects.get? projectId =
      left.projects.get? projectId := by
    obtain ⟨row, found, own⟩ := exists_project seen
    rw [found, (agree.rows.projects.get? found own).1]
  unfold Directory.queuesPage
  dsimp only
  rw [project, ← (agree.recordsOf seen).findMany_eq,
    ← (agree.queuesOf seen).count_eq]
  split
  · rfl
  · congr 1
    apply Option.bind_congr
    intro queues answered
    have seenQueue : ∀ queue ∈ queues.map Prod.fst,
        left.sees user (left.orgOfQueue queue) = true := by
      intro queue member
      obtain ⟨⟨_, record⟩, inPage, rfl⟩ := List.mem_map.mp member
      obtain ⟨listed, inProject⟩ := Table.mem_findMany answered inPage
      rw [orgOfQueue_of_queueRecords listed, of_decide_eq_true inProject, seen]
    have jobs := agree.jobsOf (queues.map Prod.fst).contains
      (fun queue member =>
        seenQueue queue (List.contains_iff_mem.mp member))
    rw [← jobs.groupBy_eq]
    apply Option.map_congr
    intro groups _
    have shown : (queues.map fun queue =>
        left.queueSummary (statusCountMap groups) queue.1 queue.2) =
        queues.map fun queue =>
          right.queueSummary (statusCountMap groups) queue.1 queue.2 := by
      apply List.map_congr_left
      intro queue member
      have seen := seenQueue queue.1 (List.mem_map.mpr ⟨_, member, rfl⟩)
      rw [queueSummary, queueSummary, agree.countOf seen]
    rw [shown]

theorem countJobs_eq (agree : Agree user left right)
    (condition : JobRow → Bool) :
    left.countJobs user condition = right.countJobs user condition := by
  have same := agree.rows.jobs.and (fun _ job => condition job)
    (fun _ job => condition job) (fun _ _ _ _ => rfl)
  unfold Directory.countJobs
  simp only [contains_queueIds]
  exact same.count_eq

theorem dashboardSummary_eq (agree : Agree user left right)
    (clock : WallClock) :
    left.dashboardSummary user clock = right.dashboardSummary user clock := by
  have queues : (left.queues.count fun _ row =>
      left.sees user (left.orgOfProject row.projectId)) =
      right.queues.count fun _ row =>
        right.sees user (right.orgOfProject row.projectId) :=
    agree.rows.queues.count_eq
  have workers : ∀ condition : WorkerRow → Bool,
      (left.workers.count fun _ row => condition row) =
        right.workers.count fun _ row => condition row := by
    intro condition
    apply Table.SameWhere.count_eq
    intro id row
    rw [agree.rows.workers id]
  unfold Directory.dashboardSummary
  simp only [contains_projectIds, agree.countJobs_eq, workers, queues]

/-- Requests that the guard treats alike have the same answers. -/
theorem read_eq (agree : Agree user left right) (distinct : left.DistinctIds)
    (distinct' : right.DistinctIds) (prisma : Prisma) (clock : WallClock)
    {request : DirectoryRequest}
    (alike : (left.guarded request).isSome = (right.guarded request).isSome)
    (orders : DirectoryOrders) :
    left.read prisma user clock request orders =
      right.read prisma user clock request orders := by
  have refused : request.isGuarded = true →
      left.sees user (left.guarded request) = false →
      right.sees user (right.guarded request) = false →
      left.read prisma user clock request orders =
        right.read prisma user clock request orders := by
    intro guarded hidden hidden'
    rw [read_of_not_sees guarded hidden, read_of_not_sees guarded hidden',
      alike]
  cases request with
  | projects page limit => exact agree.getProjects_eq prisma page limit orders
  | project id => exact agree.getProject_eq id orders
  | summary =>
      rw [Directory.read, Directory.read, agree.dashboardSummary_eq]
  | queues projectId page limit =>
      cases seen : left.sees user (left.orgOfProject projectId) with
      | true =>
          have seen' := (agree.seesProject projectId).symm.trans seen
          rw [read_queues_of_sees seen, read_queues_of_sees seen']
          exact agree.queuesPage_eq prisma seen page limit orders
      | false =>
          have seen' := (agree.seesProject projectId).symm.trans seen
          exact refused rfl seen seen'
  | stats id =>
      have same := agree.rows.sees_job id
      cases seen : left.sees user (left.orgOfJob id) with
      | true =>
          have seen' := same.symm.trans seen
          rw [read_stats_of_sees distinct seen,
            read_stats_of_sees distinct' seen']
      | false => exact refused rfl seen (same.symm.trans seen)

theorem sees_guarded (agree : Agree user left right)
    (request : DirectoryRequest) :
    left.sees user (left.guarded request) =
      right.sees user (right.guarded request) := by
  cases request with
  | queues projectId => exact agree.seesProject projectId
  | stats id => exact agree.rows.sees_job id
  | _ => rfl

theorem hidden_of_differ (agree : Agree user left right)
    {request : DirectoryRequest}
    (differ : (left.guarded request).isSome ≠
      (right.guarded request).isSome) :
    left.sees user (left.guarded request) = false := by
  cases seen : left.sees user (left.guarded request) with
  | false => rfl
  | true =>
      have seen' := (agree.sees_guarded request).symm.trans seen
      rw [Database.isSome_of_sees seen, Database.isSome_of_sees seen'] at differ
      exact absurd rfl differ

end Agree

end Directory

/-! ## Every request has an answer -/

private theorem ProjectRow.before_trans (a b c : ProjectRow) :
    a.before b = true → b.before c = true → a.before c = true := by
  simp only [ProjectRow.before, decide_eq_true_eq]
  exact fun first second => le_trans second first

private theorem ProjectRow.before_total (a b : ProjectRow) :
    a.before b = true ∨ b.before a = true := by
  simp only [ProjectRow.before, decide_eq_true_eq]
  exact le_total _ _

private theorem QueueRecord.newer_trans (a b c : QueueRecord) :
    a.newer b = true → b.newer c = true → a.newer c = true := by
  simp only [QueueRecord.newer, decide_eq_true_eq]
  exact fun first second => le_trans second first

private theorem QueueRecord.newer_total (a b : QueueRecord) :
    a.newer b = true ∨ b.newer a = true := by
  simp only [QueueRecord.newer, decide_eq_true_eq]
  exact le_total _ _

private theorem QueueRecord.before_trans (a b c : QueueRecord) :
    a.before b = true → b.before c = true → a.before c = true := by
  simp only [QueueRecord.before_iff]
  exact le_trans

private theorem QueueRecord.before_total (a b : QueueRecord) :
    a.before b = true ∨ b.before a = true := by
  simp only [QueueRecord.before_iff]
  exact le_total _ _

namespace Directory

variable (prisma : Prisma) (directory : Directory) (user : UserId)
  (clock : WallClock)

theorem exists_getProjects (page limit : Option String) :
    ∃ orders reply,
      directory.getProjects prisma user page limit orders = some reply := by
  unfold getProjects
  dsimp only
  obtain ⟨order, answers⟩ := directory.projectRows.exists_findMany
    (fun _ row => (directory.orgIds user).contains row.orgId)
    ProjectRow.before_trans ProjectRow.before_total
  refine ⟨⟨order, [], [], []⟩, ?_⟩
  split
  · obtain ⟨projects, answered⟩ := answers (parsePagination page limit).skip
      (parsePagination page limit).limit
    simp only [answered, Option.map_some]
    exact ⟨_, rfl⟩
  · exact ⟨_, rfl⟩

theorem exists_getProject (id : ProjectId) :
    ∃ orders reply, directory.getProject user id orders = some reply := by
  unfold getProject
  obtain ⟨order, answers⟩ := directory.queueRecords.exists_findMany
    (fun _ queue => queue.projectId = id) QueueRecord.newer_trans
    QueueRecord.newer_total
  refine ⟨⟨[], order, [], []⟩, ?_⟩
  split
  · exact ⟨_, rfl⟩
  · split
    · obtain ⟨queues, answered⟩ := answers 0 order.length
      simp only [answered, Option.map_some]
      exact ⟨_, rfl⟩
    · exact ⟨_, rfl⟩

theorem exists_getQueues (projectId : ProjectId) (page limit : Option String) :
    ∃ orders reply, directory.getQueues prisma user projectId page limit
      orders = some reply := by
  obtain ⟨order, answers⟩ := directory.queueRecords.exists_findMany
    (fun _ queue => queue.projectId = projectId) QueueRecord.before_trans
    QueueRecord.before_total
  obtain ⟨queues, answered⟩ := answers (parsePagination page limit).skip
    (parsePagination page limit).limit
  obtain ⟨groupOrder, groups, grouped⟩ := directory.jobs.exists_groupBy
    (fun _ job => (queues.map Prod.fst).contains job.queueId)
    (fun job => (job.queueId, job.status))
  refine ⟨⟨[], order, groupOrder, []⟩, ?_⟩
  unfold getQueues queuesPage
  dsimp only
  split
  · exact ⟨_, rfl⟩
  · split
    · exact ⟨_, rfl⟩
    · split
      · simp only [answered, Option.bind_some, grouped, Option.map_some]
        exact ⟨_, rfl⟩
      · exact ⟨_, rfl⟩

theorem exists_getQueueStats (id : QueueId) :
    ∃ orders reply,
      directory.getQueueStats user clock id orders = some reply := by
  obtain ⟨order, groups, grouped⟩ := directory.jobs.exists_groupBy
    (fun _ job => decide (job.queueId = id)) (fun job => job.status)
  refine ⟨⟨[], [], [], order⟩, ?_⟩
  unfold getQueueStats statsPage
  split
  · exact ⟨_, rfl⟩
  · split
    · exact ⟨_, rfl⟩
    · simp only [grouped, Option.map_some]
      exact ⟨_, rfl⟩

theorem exists_reply (request : DirectoryRequest) :
    ∃ reply, directory.Answers prisma user clock request reply := by
  apply exists_comm.mp
  cases request with
  | projects page limit =>
      exact directory.exists_getProjects prisma user page limit
  | project id => exact directory.exists_getProject user id
  | queues projectId page limit =>
      exact directory.exists_getQueues prisma user projectId page limit
  | stats id => exact directory.exists_getQueueStats user clock id
  | summary => exact ⟨⟨[], [], [], []⟩, _, rfl⟩

end Directory

section Isolation

variable {user : UserId} {left right : Directory}

/-- The answers to a request are the same if and only if its guard finds the
resource in both directories or in neither: the endpoints tell nothing about
the rows of other organizations, except that a guarded one tells whether a
resource exists. -/
theorem directory_reads_isolated (agree : Directory.Agree user left right)
    (distinct : left.DistinctIds) (distinct' : right.DistinctIds)
    (prisma : Prisma) (clock : WallClock) (request : DirectoryRequest) :
    (∃ reply, left.Answers prisma user clock request reply) ∧
    ((∀ reply, left.Answers prisma user clock request reply ↔
        right.Answers prisma user clock request reply) ↔
      (left.guarded request).isSome = (right.guarded request).isSome) := by
  refine ⟨left.exists_reply prisma user clock request, ?_, ?_⟩
  · intro same
    by_contra differ
    have guarded : request.isGuarded = true := by
      cases request with
      | queues => rfl
      | stats => rfl
      | _ => exact absurd rfl differ
    have hidden := agree.hidden_of_differ differ
    have hidden' := (agree.sees_guarded request).symm.trans hidden
    obtain ⟨orders, answered⟩ := (same _).mp
      ⟨⟨[], [], [], []⟩, Directory.read_of_not_sees guarded hidden⟩
    rw [Directory.read_of_not_sees guarded hidden'] at answered
    have refusals := Except.error.inj (Option.some.inj answered)
    revert differ refusals
    cases (left.guarded request).isSome <;>
      cases (right.guarded request).isSome
    · exact fun differ _ => differ rfl
    · exact fun _ refusals => request.refusal_ne refusals
    · exact fun _ refusals => request.refusal_ne refusals.symm
    · exact fun differ _ => differ rfl
  · intro alike reply
    apply exists_congr
    intro orders
    rw [agree.read_eq distinct distinct' prisma clock alike]

end Isolation

/-- The queue of organization 1, among these projects. -/
def Directory.oneQueue (projects : Table ProjectId Project) : Directory :=
  { Database.oneQueue with
    projects := projects
    projectColumns := fun _ => ⟨"mail", "key", 0⟩
    queueColumns := fun _ => ⟨0, 0⟩ }

theorem Directory.oneQueue_distinctIds (projects : Table ProjectId Project)
    (other : projects.get? 20 = none) :
    (Directory.oneQueue projects).DistinctIds where
  projectQueue := by
    intro id present
    by_cases same : 20 = id
    · subst same
      have present : (projects.get? 20).isSome = true := present
      rw [other] at present
      cases present
    · simp [oneQueue, Database.oneQueue, Table.get?, same]
  projectJob _ := rfl
  queueJob _ := rfl

theorem Directory.oneQueue_agree :
    Agree 1 (.oneQueue ⟨[(10, ⟨1⟩), (30, ⟨2⟩)], by simp⟩)
      (.oneQueue ⟨[(10, ⟨1⟩)], by simp⟩) := by
  refine ⟨Agree.of_rows ?_ ?_ ?_ ?_ ?_ ?_ ?_ ?_ ?_, fun _ _ => rfl,
    fun _ _ => rfl⟩
  · intro org
    rfl
  · apply Table.SameWhere.of_keys
    intro project
    by_cases other : project = 30
    · subst other
      refine .inr ⟨?_, ?_⟩
      · intro row found
        cases found
        rfl
      · intro row found
        cases found
    · have unequal : ¬30 = project := fun same => other same.symm
      refine .inl ⟨?_, fun _ _ => rfl⟩
      by_cases first : 10 = project <;>
        simp [oneQueue, Table.get?, unequal, first]
  · intro same
    exact .of_keys fun id => .inl ⟨rfl, fun row _ => same row.projectId⟩
  · intro same
    exact .of_keys fun id => .inl ⟨rfl, fun row _ => same row.projectId⟩
  · intro same
    exact .of_keys fun id => .inl ⟨rfl, fun row _ => same row.queueId⟩
  · intro same
    exact .of_keys fun id => .inl ⟨rfl, fun row _ => same row.jobId⟩
  · intro same
    exact .of_keys fun id => .inl ⟨rfl, fun log _ => same log.executionId⟩
  · intro same
    exact .of_keys fun id => .inl ⟨rfl, fun _ _ => same id⟩
  · intro worker
    rfl

/-- Both directories have the project 10; only one has the project 30. -/
theorem directory_reads_isolated_existence :
    (∀ reply,
      (Directory.oneQueue ⟨[(10, ⟨1⟩), (30, ⟨2⟩)], by simp⟩).Answers
          ⟨fun _ => true⟩ 1 ⟨0, 0⟩ (.queues 10 none none) reply ↔
        (Directory.oneQueue ⟨[(10, ⟨1⟩)], by simp⟩).Answers
          ⟨fun _ => true⟩ 1 ⟨0, 0⟩ (.queues 10 none none) reply) ∧
    ¬∀ reply,
      (Directory.oneQueue ⟨[(10, ⟨1⟩), (30, ⟨2⟩)], by simp⟩).Answers
          ⟨fun _ => true⟩ 1 ⟨0, 0⟩ (.queues 30 none none) reply ↔
        (Directory.oneQueue ⟨[(10, ⟨1⟩)], by simp⟩).Answers
          ⟨fun _ => true⟩ 1 ⟨0, 0⟩ (.queues 30 none none) reply := by
  have isolated := directory_reads_isolated Directory.oneQueue_agree
    (Directory.oneQueue_distinctIds _ (by decide))
    (Directory.oneQueue_distinctIds _ (by decide)) ⟨fun _ => true⟩ ⟨0, 0⟩
  refine ⟨(isolated (.queues 10 none none)).2.mpr rfl, ?_⟩
  intro same
  have alike := (isolated (.queues 30 none none)).2.mp same
  cases alike

end Chronos
