import Chronos.Isolation
import Chronos.Lib.GroupBy

/-!
# Projects, queues and the dashboard

The read endpoints of `api/src/routes/projects.ts`, `queues.ts` and
`dashboard.ts`, from the point where `requireAuth` has let the request
through.  They read columns that no other modelled code does; these are given
beside the database.
-/

namespace Chronos

structure ProjectColumns where
  name : String
  apiKey : String
  createdAt : Time

structure QueueColumns where
  priority : Int
  createdAt : Time

structure ProjectRow extends Project, ProjectColumns

structure QueueRecord extends QueueRow, QueueColumns

/-- The database with the columns that only these endpoints read. -/
structure Directory extends Database where
  projectColumns : ProjectId → ProjectColumns
  queueColumns : QueueId → QueueColumns

/-- The orders in which the database returns the rows of the queries. -/
structure DirectoryOrders where
  projects : List ProjectId
  queues : List QueueId
  groups : List (QueueId × JobStatus)
  statuses : List JobStatus

/-- What the handler reads from the clock: the instant, and the last local
midnight. -/
structure WallClock where
  now : Time
  midnight : Time

inductive DirectoryRequest where
  /-- `GET /projects` -/
  | projects (page limit : Option String)
  /-- `GET /projects/:id` -/
  | project (id : ProjectId)
  /-- `GET /projects/:projectId/queues` -/
  | queues (projectId : ProjectId) (page limit : Option String)
  /-- `GET /queues/:id/stats` -/
  | stats (id : QueueId)
  /-- `GET /dashboard/summary` -/
  | summary

structure ProjectSummary where
  id : ProjectId
  orgId : OrgId
  name : String
  createdAt : Time
  queueCount : Nat

structure ProjectQueue where
  id : QueueId
  name : String
  priority : Int
  concurrencyLimit : Nat
  isPaused : Bool
  createdAt : Time
  jobCount : Nat

structure ProjectDetail where
  id : ProjectId
  orgId : OrgId
  name : String
  apiKey : String
  createdAt : Time
  queues : List ProjectQueue
  queueCount : Nat
  retryPolicyCount : Nat

/-- `jobsByStatus` has no entry for a status without jobs. -/
structure QueueSummary where
  id : QueueId
  projectId : ProjectId
  name : String
  priority : Int
  concurrencyLimit : Nat
  isPaused : Bool
  defaultRetryPolicyId : Option RetryPolicyId
  createdAt : Time
  totalJobs : Nat
  jobsByStatus : JobStatus → Option Nat

structure QueueStats where
  totalJobs : Nat
  byStatus : JobStatus → Nat
  jobsPerMinute : Rat

structure DashboardSummary where
  totalQueues : Nat
  activeWorkers : Nat
  totalWorkers : Nat
  failedJobs : Nat
  queuedJobs : Nat
  runningJobs : Nat
  completedJobsToday : Nat
  jobsPerMinute : Rat

inductive DirectoryBody where
  | projects (data : List ProjectSummary) (pagination : PaginationMeta)
  | project (detail : ProjectDetail)
  | queues (data : List QueueSummary) (pagination : PaginationMeta)
  | stats (stats : QueueStats)
  | summary (summary : DashboardSummary)

abbrev DirectoryReply := Except ChronosError DirectoryBody

/-- `Math.round`, with halves up. -/
def mathRound (value : Rat) : Int := ⌊value + 1 / 2⌋

/-- `Math.round((recentCount / 5) * 10) / 10`. -/
def jobsPerMinute (recentCount : Nat) : Rat :=
  mathRound (recentCount / 5 * 10) / 10

/-- The rate is exact: two jobs in five minutes are 0.4 jobs a minute. -/
theorem jobsPerMinute_eq (recentCount : Nat) :
    jobsPerMinute recentCount = recentCount / 5 := by
  have tenths : (recentCount / 5 * 10 : Rat) =
      ((2 * recentCount : Int) : Rat) := by
    push_cast
    ring
  have rounded :
      mathRound ((2 * recentCount : Int) : Rat) = 2 * recentCount := by
    unfold mathRound
    rw [Int.floor_intCast_add]
    norm_num
  rw [jobsPerMinute, tenths, rounded]
  push_cast
  ring

/-- `statusCountMap`: the inner records by queue, written group by group. -/
def statusCountMap (groups : List ((QueueId × JobStatus) × Nat)) :
    QueueId → Option (JobStatus → Option Nat) :=
  groups.foldl (fun counts group =>
    let record := (counts group.1.1).getD fun _ => none
    Function.update counts group.1.1
      (some (Function.update record group.1.2 (some group.2))))
    fun _ => none

/-- The loop over `statusGroups`: the counts by status and their total. -/
def countStatuses (groups : List (JobStatus × Nat)) :
    (JobStatus → Nat) × Nat :=
  groups.foldl (fun counted group =>
    (Function.update counted.1 group.1 group.2, counted.2 + group.2))
    (fun _ => 0, 0)

namespace Directory

variable (directory : Directory)

def projectRows : Table ProjectId ProjectRow :=
  directory.projects.mapValues fun id row =>
    ⟨row, directory.projectColumns id⟩

def queueRecords : Table QueueId QueueRecord :=
  directory.queues.mapValues fun id row => ⟨row, directory.queueColumns id⟩

end Directory

/-- `orderBy: { createdAt: 'desc' }` of projects. -/
def ProjectRow.before (left right : ProjectRow) : Bool :=
  right.createdAt ≤ left.createdAt

/-- `orderBy: { createdAt: 'desc' }` of the queues of one project. -/
def QueueRecord.newer (left right : QueueRecord) : Bool :=
  right.createdAt ≤ left.createdAt

/-- `orderBy: [{ priority: 'desc' }, { createdAt: 'asc' }]`. -/
def QueueRecord.before (left right : QueueRecord) : Bool :=
  right.priority < left.priority ||
    (left.priority = right.priority && left.createdAt ≤ right.createdAt)

/-- The sort keys of the list of queues, smaller first. -/
def QueueRecord.sortKey (queue : QueueRecord) : Int ×ₗ Int :=
  toLex (-queue.priority, queue.createdAt)

theorem QueueRecord.before_iff (left right : QueueRecord) :
    left.before right = true ↔ left.sortKey ≤ right.sortKey := by
  simp only [QueueRecord.before, Bool.or_eq_true, Bool.and_eq_true,
    decide_eq_true_eq, QueueRecord.sortKey, Prod.Lex.toLex_le_toLex,
    Int.neg_lt_neg_iff, neg_inj]

/-- Jobs that have finished in the last five minutes. -/
def JobRow.finishedRecently (now : Time) (job : JobRow) : Bool :=
  (job.status = .completed || job.status = .failed) &&
    now - 5 * 60 * 1000 ≤ job.updatedAt

/-! ## Projects -/

namespace Directory

variable (prisma : Prisma) (directory : Directory) (user : UserId)

def projectSummary (id : ProjectId) (row : ProjectRow) : ProjectSummary where
  id := id
  orgId := row.orgId
  name := row.name
  createdAt := row.createdAt
  queueCount := directory.queues.count fun _ queue => queue.projectId = id

def getProjects (page limit : Option String) (orders : DirectoryOrders) :
    Option DirectoryReply :=
  let asked := parsePagination page limit
  let orgIds := directory.orgIds user
  if prisma.acceptsSkip asked.skip then
    (directory.projectRows.findMany (fun _ row => orgIds.contains row.orgId)
        ProjectRow.before asked.skip asked.limit orders.projects).map
      fun projects =>
        .ok (.projects
          (projects.map fun project =>
            directory.projectSummary project.1 project.2)
          (buildMeta
            (directory.projects.count fun _ row => orgIds.contains row.orgId)
            asked.page asked.limit))
  else some (.error internalError)

def projectQueue (id : QueueId) (queue : QueueRecord) : ProjectQueue where
  id := id
  name := queue.name
  priority := queue.priority
  concurrencyLimit := queue.concurrencyLimit
  isPaused := queue.isPaused
  createdAt := queue.createdAt
  jobCount := directory.jobs.count fun _ job => job.queueId = id

def projectNotFound : DirectoryReply :=
  .error (notFoundError "Project not found")

def getProject (id : ProjectId) (orders : DirectoryOrders) :
    Option DirectoryReply :=
  match directory.projectRows.get? id with
  | none => some projectNotFound
  | some project =>
      if directory.isMember user project.orgId then
        (directory.queueRecords.findMany (fun _ queue => queue.projectId = id)
            QueueRecord.newer 0 orders.queues.length orders.queues).map
          fun queues =>
            .ok (.project
              { id := id, orgId := project.orgId, name := project.name
                apiKey := project.apiKey, createdAt := project.createdAt
                queues := queues.map fun queue =>
                  directory.projectQueue queue.1 queue.2
                queueCount :=
                  directory.queues.count fun _ queue => queue.projectId = id
                retryPolicyCount :=
                  directory.retryPolicies.count fun _ policy =>
                    policy.projectId = id })
      else some projectNotFound

/-! ## Queues -/

def queueSummary
    (counts : QueueId → Option (JobStatus → Option Nat)) (id : QueueId)
    (queue : QueueRecord) : QueueSummary where
  id := id
  projectId := queue.projectId
  name := queue.name
  priority := queue.priority
  concurrencyLimit := queue.concurrencyLimit
  isPaused := queue.isPaused
  defaultRetryPolicyId := queue.defaultRetryPolicyId
  createdAt := queue.createdAt
  totalJobs := directory.jobs.count fun _ job => job.queueId = id
  jobsByStatus := (counts id).getD fun _ => none

/-- The handler behind the guard. -/
def queuesPage (projectId : ProjectId) (page limit : Option String)
    (orders : DirectoryOrders) : Option DirectoryReply :=
  let asked := parsePagination page limit
  match directory.projects.get? projectId with
  | none => some projectNotFound
  | some _ =>
      if prisma.acceptsSkip asked.skip then
        (directory.queueRecords.findMany
            (fun _ queue => queue.projectId = projectId) QueueRecord.before
            asked.skip asked.limit orders.queues).bind fun queues =>
          (directory.jobs.groupBy
              (fun _ job => (queues.map Prod.fst).contains job.queueId)
              (fun job => (job.queueId, job.status)) orders.groups).map
            fun groups =>
              .ok (.queues
                (queues.map fun queue =>
                  directory.queueSummary (statusCountMap groups) queue.1
                    queue.2)
                (buildMeta (directory.queues.count fun _ queue =>
                  queue.projectId = projectId) asked.page asked.limit))
      else some (.error internalError)

def getQueues (projectId : ProjectId) (page limit : Option String)
    (orders : DirectoryOrders) : Option DirectoryReply :=
  match requireOrgMember Route.listQueues.minRole directory.toDatabase
      (some user) (Route.listQueues.params projectId) with
  | .error error => some (.error error)
  | .ok () => directory.queuesPage prisma projectId page limit orders

/-- The handler behind the guard. -/
def statsPage (clock : WallClock) (id : QueueId) (orders : DirectoryOrders) :
    Option DirectoryReply :=
  match directory.queues.get? id with
  | none => some (.error (notFoundError "Queue not found"))
  | some _ =>
      (directory.jobs.groupBy (fun _ job => job.queueId = id)
          (fun job => job.status) orders.statuses).map fun groups =>
        .ok (.stats
          { totalJobs := (countStatuses groups).2
            byStatus := (countStatuses groups).1
            jobsPerMinute := Chronos.jobsPerMinute
              (directory.jobs.count fun _ job =>
                job.queueId = id && job.finishedRecently clock.now) })

def getQueueStats (clock : WallClock) (id : QueueId)
    (orders : DirectoryOrders) : Option DirectoryReply :=
  match requireOrgMember Route.queueStats.minRole directory.toDatabase
      (some user) (Route.queueStats.params id) with
  | .error error => some (.error error)
  | .ok () => directory.statsPage clock id orders

/-! ## The dashboard -/

def projectIds : List ProjectId :=
  directory.projects.keysWhere fun _ row =>
    (directory.orgIds user).contains row.orgId

def queueIds : List QueueId :=
  directory.queues.keysWhere fun _ row =>
    (directory.projectIds user).contains row.projectId

/-- `prisma.job.count` over the user's queues. -/
def countJobs (condition : JobRow → Bool) : Nat :=
  directory.jobs.count fun _ job =>
    (directory.queueIds user).contains job.queueId && condition job

def dashboardSummary (clock : WallClock) : DashboardSummary where
  totalQueues := directory.queues.count fun _ row =>
    (directory.projectIds user).contains row.projectId
  activeWorkers := directory.workers.count fun _ row => row.status = .active
  totalWorkers := directory.workers.count fun _ _ => true
  failedJobs := directory.countJobs user fun job =>
    job.status = .failed || job.status = .deadLetter
  queuedJobs := directory.countJobs user fun job => job.status = .queued
  runningJobs := directory.countJobs user fun job =>
    job.status = .claimed || job.status = .running
  completedJobsToday := directory.countJobs user fun job =>
    job.status = .completed && clock.midnight ≤ job.updatedAt
  jobsPerMinute := Chronos.jobsPerMinute
    (directory.countJobs user (JobRow.finishedRecently clock.now))

/-- The handler of each request, with its guard. -/
def read (clock : WallClock) (request : DirectoryRequest)
    (orders : DirectoryOrders) : Option DirectoryReply :=
  match request with
  | .projects page limit =>
      directory.getProjects prisma user page limit orders
  | .project id => directory.getProject user id orders
  | .queues projectId page limit =>
      directory.getQueues prisma user projectId page limit orders
  | .stats id => directory.getQueueStats user clock id orders
  | .summary => some (.ok (.summary (directory.dashboardSummary user clock)))

/-- The handler can send this answer. -/
def Answers (clock : WallClock) (request : DirectoryRequest)
    (reply : DirectoryReply) : Prop :=
  ∃ orders, directory.read prisma user clock request orders = some reply

end Directory

/-! ## The numbers that the pages show -/

/-- The jobs of a queue that have this status. -/
def Database.jobsOf (db : Database) (queue : QueueId) (status : JobStatus) :
    Nat :=
  db.jobs.count fun _ job => job.queueId = queue && job.status = status

/-- The jobs of a queue that have finished in the last five minutes. -/
def Database.recentJobs (db : Database) (clock : WallClock)
    (queue : QueueId) : Nat :=
  db.jobs.count fun _ job =>
    job.queueId = queue && job.finishedRecently clock.now

/-- The jobs of a queue that have completed since midnight. -/
def Database.completedToday (db : Database) (clock : WallClock)
    (queue : QueueId) : Nat :=
  db.jobs.count fun _ job => job.queueId = queue &&
    (job.status = .completed && clock.midnight ≤ job.updatedAt)

theorem Database.sum_jobsOf (db : Database) (queue : QueueId) :
    (JobStatus.all.map (db.jobsOf queue)).sum =
      db.jobs.count fun _ job => job.queueId = queue := by
  have nodup : JobStatus.all.Nodup := by decide
  have every : ∀ status, JobStatus.all.contains status = true := by
    intro status
    cases status <;> rfl
  have split := db.jobs.count_contains_eq_sum
    (fun _ job => decide (job.queueId = queue)) (fun job => job.status) nodup
  simp only [every, Bool.true_and] at split
  rw [split]
  congr 1
  apply List.map_congr_left
  intro status _
  simp only [Database.jobsOf, Bool.and_comm]

/-- `statusCountMap.get(queue) ?? {}`, at one status. -/
def statusCount (counts : QueueId → Option (JobStatus → Option Nat))
    (key : QueueId × JobStatus) : Option Nat :=
  ((counts key.1).getD fun _ => none) key.2

/-- The nested records are written like one record of pairs. -/
theorem statusCount_statusCountMap
    (groups : List ((QueueId × JobStatus) × Nat)) :
    statusCount (statusCountMap groups) =
      groups.foldl (fun (counts : QueueId × JobStatus → Option Nat) group =>
        Function.update counts group.1 (some group.2)) fun _ => none := by
  have written : ∀ counts (group : (QueueId × JobStatus) × Nat),
      Function.update (statusCount counts) group.1 (some group.2) =
        statusCount (Function.update counts group.1.1
          (some (Function.update ((counts group.1.1).getD fun _ => none)
            group.1.2 (some group.2)))) := by
    intro counts group
    obtain ⟨⟨other, otherStatus⟩, number⟩ := group
    funext ⟨queue, status⟩
    by_cases same : queue = other
    · subst same
      by_cases sameStatus : status = otherStatus
      · subst sameStatus
        simp [statusCount]
      · simp [statusCount, sameStatus]
    · simp [statusCount, same]
  exact (List.foldl_hom statusCount written).symm

theorem statusCountMap_eq {groups : List ((QueueId × JobStatus) × Nat)}
    (nodup : (groups.map Prod.fst).Nodup) (key : QueueId × JobStatus) :
    (∀ number, (key, number) ∈ groups →
      statusCount (statusCountMap groups) key = some number) ∧
    ((∀ number, (key, number) ∉ groups) →
      statusCount (statusCountMap groups) key = none) := by
  let entries := groups.map fun group => (group.1, some group.2)
  have keys : (entries.map Prod.fst).Nodup := by
    rw [List.map_map]
    exact nodup
  have looked := List.foldl_update_eq keys (fun _ => none) key
  rw [List.foldl_map, ← statusCount_statusCountMap] at looked
  constructor
  · intro number member
    exact looked.1 (some number) (List.mem_map.mpr ⟨_, member, rfl⟩)
  · intro absent
    apply looked.2
    intro value member
    obtain ⟨⟨_, number⟩, inGroups, same⟩ := List.mem_map.mp member
    cases same
    exact absent number inGroups

private theorem foldl_countStatuses (groups : List (JobStatus × Nat))
    (counts : JobStatus → Nat) (total : Nat) :
    groups.foldl (fun counted group =>
        (Function.update counted.1 group.1 group.2, counted.2 + group.2))
        (counts, total) =
      (groups.foldl (fun written group =>
          Function.update written group.1 group.2) counts,
        total + (groups.map Prod.snd).sum) := by
  induction groups generalizing counts total with
  | nil => rfl
  | cons group groups induction =>
      rw [List.foldl_cons, induction, List.map_cons, List.sum_cons,
        Nat.add_assoc]
      rfl

theorem countStatuses_eq (groups : List (JobStatus × Nat)) :
    countStatuses groups =
      (groups.foldl (fun written group =>
          Function.update written group.1 group.2) fun _ => 0,
        (groups.map Prod.snd).sum) := by
  rw [countStatuses, foldl_countStatuses, Nat.zero_add]

section Pages

variable {prisma : Prisma} {directory : Directory} {user : UserId}
  {clock : WallClock}

theorem Database.sees_orgOfQueue_iff {db : Database} {queue : QueueId} :
    db.sees user (db.orgOfQueue queue) = true ↔
      ∃ row, db.queues.get? queue = some row ∧
        db.sees user (db.orgOfProject row.projectId) = true := by
  unfold Database.orgOfQueue
  cases db.queues.get? queue with
  | none => simp [Database.sees]
  | some row => simp

theorem Directory.mem_projectIds {project : ProjectId} :
    project ∈ directory.projectIds user ↔
      directory.sees user (directory.orgOfProject project) = true := by
  unfold Directory.projectIds Database.orgOfProject
  rw [Table.mem_keysWhere]
  simp only [Database.contains_orgIds]
  cases directory.projects.get? project with
  | none => simp [Database.sees]
  | some row => simp [Database.sees]

theorem Directory.mem_queueIds {queue : QueueId} :
    queue ∈ directory.queueIds user ↔
      directory.sees user (directory.orgOfQueue queue) = true := by
  unfold Directory.queueIds
  rw [Table.mem_keysWhere, Database.sees_orgOfQueue_iff]
  apply exists_congr
  intro row
  rw [List.contains_iff_mem, Directory.mem_projectIds]

theorem Directory.contains_projectIds (project : ProjectId) :
    (directory.projectIds user).contains project =
      directory.sees user (directory.orgOfProject project) := by
  rw [Bool.eq_iff_iff, List.contains_iff_mem, Directory.mem_projectIds]

theorem Directory.contains_queueIds (queue : QueueId) :
    (directory.queueIds user).contains queue =
      directory.sees user (directory.orgOfQueue queue) := by
  rw [Bool.eq_iff_iff, List.contains_iff_mem, Directory.mem_queueIds]

theorem Directory.queueIds_perm {queues : List QueueId}
    (nodup : queues.Nodup)
    (listed : ∀ queue, queue ∈ queues ↔
      directory.sees user (directory.orgOfQueue queue) = true) :
    (directory.queueIds user).Perm queues := by
  apply (List.perm_ext_iff_of_nodup (Table.nodup_keysWhere _ _) nodup).mpr
  intro queue
  exact Directory.mem_queueIds.trans (listed queue).symm

theorem Directory.countJobs_eq_sum {queues : List QueueId}
    (nodup : queues.Nodup)
    (listed : ∀ queue, queue ∈ queues ↔
      directory.sees user (directory.orgOfQueue queue) = true)
    (condition : JobRow → Bool) :
    directory.countJobs user condition =
      (queues.map fun queue => directory.jobs.count fun _ job =>
        job.queueId = queue && condition job).sum := by
  have same := Directory.queueIds_perm nodup listed
  have split := directory.jobs.count_contains_eq_sum
    (fun _ job => condition job) (fun job => job.queueId)
    (same.nodup_iff.mpr nodup)
  exact split.trans (same.map _).sum_nat

theorem Database.count_or (db : Database) (queue : QueueId)
    {first second : JobStatus} (different : first ≠ second) :
    (db.jobs.count fun _ job => job.queueId = queue &&
        (job.status = first || job.status = second)) =
      db.jobsOf queue first + db.jobsOf queue second := by
  have nodup : [first, second].Nodup := by simpa using different
  have split := db.jobs.count_contains_eq_sum
    (fun _ job => decide (job.queueId = queue)) (fun job => job.status) nodup
  have either : ∀ status : JobStatus, [first, second].contains status =
      (decide (status = first) || decide (status = second)) := by
    intro status
    simp
  simp only [either, List.map_cons, List.map_nil, List.sum_cons,
    List.sum_nil, Nat.add_zero] at split
  simpa only [Database.jobsOf, Bool.and_comm] using split

/-- What the list of queues says about one queue. -/
structure QueueSummary.Counts (summary : QueueSummary) (db : Database) :
    Prop where
  byStatus : ∀ status, summary.jobsByStatus status =
    if db.jobsOf summary.id status = 0 then none
    else some (db.jobsOf summary.id status)
  total : summary.totalJobs =
    (JobStatus.all.map (db.jobsOf summary.id)).sum

/-- The one grouped query gives every listed queue its own counts. -/
theorem Directory.counts_of_groupBy {queues : List QueueId}
    {order : List (QueueId × JobStatus)}
    {groups : List ((QueueId × JobStatus) × Nat)}
    (grouped : directory.jobs.groupBy
      (fun _ job => queues.contains job.queueId)
      (fun job => (job.queueId, job.status)) order = some groups)
    {queue : QueueId} (listed : queue ∈ queues) (row : QueueRecord) :
    (directory.queueSummary (statusCountMap groups) queue row).Counts
      directory.toDatabase where
  byStatus status := by
    have own : (directory.jobs.count fun _ job =>
          queues.contains job.queueId &&
            (job.queueId, job.status) = (queue, status)) =
        directory.jobsOf queue status := by
      have inList : ∀ job : JobRow, (queues.contains job.queueId &&
            decide ((job.queueId, job.status) = (queue, status))) =
          (decide (job.queueId = queue) && decide (job.status = status)) := by
        intro job
        by_cases same : job.queueId = queue
        · simp [same, listed]
        · simp [same]
      simp only [inList, Database.jobsOf]
    have looked := statusCountMap_eq (Table.nodup_groupBy grouped)
      (queue, status)
    change statusCount (statusCountMap groups) (queue, status) = _
    have members := Table.mem_groupBy grouped (queue, status)
    simp only [own] at members
    split
    · rename_i empty
      have empty : directory.jobsOf queue status = 0 := empty
      apply looked.2
      intro number member
      have counted := (members number).mp member
      omega
    · rename_i counted
      apply looked.1
      exact (members _).mpr ⟨Nat.pos_of_ne_zero counted, rfl⟩
  total := (directory.toDatabase.sum_jobsOf queue).symm

theorem Directory.of_queuesPage {projectId : ProjectId}
    {page limit : Option String} {orders : DirectoryOrders}
    {data : List QueueSummary} {pagination : PaginationMeta}
    (answered : directory.queuesPage prisma projectId page limit orders =
      some (.ok (.queues data pagination))) :
    ∀ summary ∈ data, summary.Counts directory.toDatabase := by
  unfold Directory.queuesPage at answered
  dsimp only at answered
  split at answered
  · cases answered
  · split at answered
    · obtain ⟨queues, _, answered⟩ := Option.bind_eq_some_iff.mp answered
      obtain ⟨groups, grouped, same⟩ := Option.map_eq_some_iff.mp answered
      cases same
      intro summary member
      obtain ⟨queue, listed, rfl⟩ := List.mem_map.mp member
      exact directory.counts_of_groupBy grouped
        (List.mem_map.mpr ⟨queue, listed, rfl⟩) queue.2
    · cases answered

theorem Directory.of_statsPage {id : QueueId} {orders : DirectoryOrders}
    {stats : QueueStats}
    (answered : directory.statsPage clock id orders =
      some (.ok (.stats stats))) :
    stats.byStatus = directory.jobsOf id ∧
      stats.totalJobs = (JobStatus.all.map (directory.jobsOf id)).sum ∧
      stats.jobsPerMinute = directory.recentJobs clock id / 5 := by
  unfold Directory.statsPage at answered
  split at answered
  · cases answered
  · obtain ⟨groups, grouped, same⟩ := Option.map_eq_some_iff.mp answered
    cases same
    simp only [countStatuses_eq]
    refine ⟨?_, ?_, jobsPerMinute_eq _⟩
    · funext status
      have members := Table.mem_groupBy grouped status
      have written := List.foldl_update_eq (Table.nodup_groupBy grouped)
        (fun _ => 0) status
      by_cases empty : directory.jobsOf id status = 0
      · rw [empty]
        apply written.2
        intro number member
        have counted : 0 < number ∧ number = directory.jobsOf id status :=
          (members number).mp member
        omega
      · apply written.1
        exact (members _).mpr ⟨Nat.pos_of_ne_zero empty, rfl⟩
    · rw [directory.sum_jobsOf]
      exact Table.sum_groupBy grouped

/-- The list of queues, the page of a project, the statistics of a queue and
the dashboard all show the same numbers: those of a separate count for each
queue and status, and for each queue of the jobs that have finished
recently. -/
theorem pages_count_alike (prisma : Prisma) (directory : Directory)
    (user : UserId) (clock : WallClock) :
    (∀ projectId page limit data pagination,
      directory.Answers prisma user clock (.queues projectId page limit)
        (.ok (.queues data pagination)) →
      ∀ summary ∈ data, summary.Counts directory.toDatabase) ∧
    (∀ id detail,
      directory.Answers prisma user clock (.project id)
        (.ok (.project detail)) →
      ∀ queue ∈ detail.queues, queue.jobCount =
        (JobStatus.all.map (directory.jobsOf queue.id)).sum) ∧
    (∀ id orders stats,
      directory.statsPage clock id orders = some (.ok (.stats stats)) →
      stats.byStatus = directory.jobsOf id ∧
        stats.totalJobs = (JobStatus.all.map (directory.jobsOf id)).sum ∧
        stats.jobsPerMinute = directory.recentJobs clock id / 5) ∧
    ∀ summary,
      directory.Answers prisma user clock .summary (.ok (.summary summary)) →
      ∀ queues : List QueueId, queues.Nodup →
        (∀ queue, queue ∈ queues ↔
          directory.sees user (directory.orgOfQueue queue) = true) →
        summary.totalQueues = queues.length ∧
        summary.queuedJobs =
          (queues.map fun queue => directory.jobsOf queue .queued).sum ∧
        summary.runningJobs = (queues.map fun queue =>
          directory.jobsOf queue .claimed +
            directory.jobsOf queue .running).sum ∧
        summary.failedJobs = (queues.map fun queue =>
          directory.jobsOf queue .failed +
            directory.jobsOf queue .deadLetter).sum ∧
        summary.completedJobsToday =
          (queues.map (directory.completedToday clock)).sum ∧
        summary.jobsPerMinute =
          (queues.map (directory.recentJobs clock)).sum / 5 := by
  refine ⟨?_, ?_, ?_, ?_⟩
  · intro projectId page limit data pagination answers
    obtain ⟨orders, answered⟩ := answers
    simp only [Directory.read, Directory.getQueues] at answered
    split at answered
    · cases answered
    · exact Directory.of_queuesPage answered
  · intro id detail answers queue member
    obtain ⟨orders, answered⟩ := answers
    simp only [Directory.read, Directory.getProject] at answered
    split at answered
    · cases answered
    · split at answered
      · obtain ⟨queues, _, same⟩ := Option.map_eq_some_iff.mp answered
        cases same
        obtain ⟨entry, _, rfl⟩ := List.mem_map.mp member
        exact (directory.toDatabase.sum_jobsOf entry.1).symm
      · cases answered
  · intro id orders stats answered
    exact Directory.of_statsPage answered
  · intro summary answers queues nodup listed
    obtain ⟨orders, answered⟩ := answers
    cases answered
    have counted := Directory.countJobs_eq_sum nodup listed
    have inFlight : JobStatus.claimed ≠ .running := by decide
    have failed : JobStatus.failed ≠ .deadLetter := by decide
    have same := Directory.queueIds_perm nodup listed
    refine ⟨same.length_eq, counted _, ?_, ?_, counted _, ?_⟩
    · apply (counted _).trans
      simp only [directory.count_or _ inFlight]
    · apply (counted _).trans
      simp only [directory.count_or _ failed]
    · have recent := counted (JobRow.finishedRecently clock.now)
      change directory.countJobs user (JobRow.finishedRecently clock.now) =
        (queues.map (directory.recentJobs clock)).sum at recent
      rw [← recent]
      exact jobsPerMinute_eq _

end Pages

end Chronos
