import Chronos.Lib.Query
import Chronos.Pagination
import Chronos.Tenancy
import Mathlib.Data.Prod.Lex

/-!
# The job read endpoints

`GET /jobs`, `GET /jobs/:id`, `GET /jobs/:id/executions` and
`GET /jobs/:id/logs` of `api/src/routes/jobs.ts`, from the point where
`requireAuth` has let the request through.  An answer is the value that the
handler sends.  The order of rows that compare equal is the database's
choice: `Orders` says what it chose, and a handler has no answer for a choice
that its query does not allow.
-/

namespace Chronos

/-- The values of `skip` that the database client takes. -/
structure Prisma where
  acceptsSkip : Nat → Bool

/-- The orders in which the database returns the rows of the queries. -/
structure Orders where
  jobs : List JobId
  executions : List ExecutionId
  logs : List LogId
  logsOf : ExecutionId → List LogId

/-- The query string of `GET /jobs`.  An empty `queueId` counts as absent. -/
structure JobListQuery where
  queueId : Option QueueId
  status : Option String
  type : Option String
  batchId : Option String
  page : Option String
  limit : Option String

inductive ReadRequest where
  | jobs (query : JobListQuery)
  | job (id : JobId)
  | executions (id : JobId) (page limit : Option String)
  | logs (id : JobId) (page limit : Option String)

structure JobSummary where
  id : JobId
  queueId : QueueId
  queueName : String
  projectId : ProjectId
  type : String
  status : JobStatus
  priority : Int
  runAt : Time
  batchId : Option String
  attemptCount : Nat
  idempotencyKey : Option String
  createdAt : Time
  updatedAt : Time
  executionCount : Nat

structure ExecutionRow where
  id : ExecutionId
  row : JobExecution
  logs : List (LogId × JobLog)

structure JobDetail where
  id : JobId
  queueId : QueueId
  queueName : String
  projectId : ProjectId
  type : String
  payload : Json
  status : JobStatus
  priority : Int
  runAt : Time
  cronExpression : Option String
  batchId : Option String
  attemptCount : Nat
  retryPolicyId : Option RetryPolicyId
  retryPolicy : Option (RetryPolicyId × RetryPolicyRow)
  idempotencyKey : Option String
  createdAt : Time
  updatedAt : Time
  latestExecution : Option ExecutionRow
  deadLetter : Option (JobId × DeadLetterRow)

structure WorkerRef where
  id : WorkerId
  hostname : String
  pid : Int

structure LogLine where
  id : LogId
  level : String
  message : String
  timestamp : Time

structure ExecutionItem where
  id : ExecutionId
  jobId : JobId
  attemptNumber : Nat
  status : ExecutionStatus
  workerId : WorkerId
  worker : Option WorkerRef
  startedAt : Time
  finishedAt : Option Time
  durationMs : Option Int
  errorMessage : Option String
  logs : List LogLine

structure LogItem where
  id : LogId
  executionId : ExecutionId
  attemptNumber : Nat
  workerId : WorkerId
  level : String
  message : String
  timestamp : Time

inductive ReadBody where
  | jobs (data : List JobSummary) (pagination : PaginationMeta)
  | job (detail : JobDetail)
  | executions (data : List ExecutionItem) (pagination : PaginationMeta)
  | logs (data : List LogItem) (pagination : PaginationMeta)

abbrev ReadReply := Except ChronosError ReadBody

def jobNotFound : ReadReply := .error (notFoundError "Job not found")

/-! ## `GET /jobs` -/

def JobStatus.all : List JobStatus :=
  [.queued, .scheduled, .claimed, .running, .completed, .failed, .deadLetter,
    .cancelled]

def JobStatus.ofText? (text : String) : Option JobStatus :=
  JobStatus.all.find? fun status => status.text = text

/-- `[{ priority: 'desc' }, { runAt: 'asc' }, { createdAt: 'desc' }]`. -/
def JobRow.before (left right : JobRow) : Bool :=
  right.priority < left.priority ||
    (left.priority = right.priority &&
      (left.runAt < right.runAt ||
        (left.runAt = right.runAt && right.createdAt ≤ left.createdAt)))

/-- The sort keys of `GET /jobs`, smaller first. -/
def JobRow.sortKey (row : JobRow) : Int ×ₗ Int ×ₗ Int :=
  toLex (-row.priority, toLex (row.runAt, -row.createdAt))

theorem JobRow.before_iff (left right : JobRow) :
    left.before right = true ↔ left.sortKey ≤ right.sortKey := by
  simp only [JobRow.before, Bool.or_eq_true, Bool.and_eq_true,
    decide_eq_true_eq, JobRow.sortKey, Prod.Lex.toLex_le_toLex,
    Int.neg_lt_neg_iff, neg_inj, Int.neg_le_neg_iff]

namespace JobListQuery

/-- The status to filter by, if any; `none` when the text is no status, which
the database client refuses. -/
def statusFilter (query : JobListQuery) : Option (Option JobStatus) :=
  match query.status with
  | none => some none
  | some text =>
      if text = "" then some none else (JobStatus.ofText? text).map some

/-- The filters of the query string; empty texts do not filter. -/
def accepts (query : JobListQuery) (status : Option JobStatus)
    (row : JobRow) : Bool :=
  query.queueId.all (row.queueId = ·) && status.all (row.status = ·) &&
    (!truthy query.type || query.type = some row.type) &&
    (!truthy query.batchId || query.batchId = row.batchId)

end JobListQuery

namespace Database

/-- The organizations the user is a member of. -/
def orgIds (db : Database) (user : UserId) : List OrgId :=
  (db.memberships.keysWhere fun key _ => key.2 = user).map Prod.fst

/-- One element of `data` in the answer to `GET /jobs`. -/
def jobSummary (db : Database) (id : JobId) (row : JobRow) :
    Option JobSummary :=
  (db.queues.get? row.queueId).map fun queue =>
    { id := id, queueId := row.queueId, queueName := queue.name
      projectId := queue.projectId, type := row.type, status := row.status
      priority := row.priority, runAt := row.runAt, batchId := row.batchId
      attemptCount := row.attemptCount, idempotencyKey := row.idempotencyKey
      createdAt := row.createdAt, updatedAt := row.updatedAt
      executionCount :=
        db.executions.count fun _ execution => execution.jobId = id }

/-- The `where` of `GET /jobs`. -/
def listed (db : Database) (user : UserId) (query : JobListQuery)
    (status : Option JobStatus) (row : JobRow) : Bool :=
  (db.orgOfQueue row.queueId).any (db.orgIds user).contains &&
    query.accepts status row

def getJobs (prisma : Prisma) (db : Database) (user : UserId)
    (query : JobListQuery) (orders : Orders) : Option ReadReply :=
  let asked := parsePagination query.page query.limit
  match query.statusFilter with
  | none => some (.error internalError)
  | some status =>
      if prisma.acceptsSkip asked.skip then
        let condition := fun (_ : JobId) row => db.listed user query status row
        (db.jobs.findMany condition JobRow.before asked.skip asked.limit
            orders.jobs).map fun jobs =>
          .ok (.jobs (jobs.filterMap fun job => db.jobSummary job.1 job.2)
            (buildMeta (db.jobs.count condition) asked.page asked.limit))
      else some (.error internalError)

/-! ## `GET /jobs/:id` -/

/-- `orderBy: { timestamp: 'asc' }`. -/
def logBefore (left right : JobLog) : Bool := left.timestamp ≤ right.timestamp

/-- `orderBy: { attemptNumber: 'desc' }`. -/
def attemptBefore (left right : JobExecution) : Bool :=
  right.attemptNumber ≤ left.attemptNumber

/-- `logs: { orderBy: { timestamp: 'asc' }, take }` of one execution. -/
def logsOf (db : Database) (execution : ExecutionId) (take : Nat)
    (orders : Orders) : Option (List (LogId × JobLog)) :=
  db.logs.findMany (fun _ log => log.executionId = execution) logBefore 0 take
    (orders.logsOf execution)

/-- `executions: { orderBy, take: 1, include: { logs } }`. -/
def latestExecution (db : Database) (job : JobId) (orders : Orders) :
    Option (Option ExecutionRow) :=
  (db.executions.findMany (fun _ row => row.jobId = job) attemptBefore 0 1
      orders.executions).bind fun
    | [] => some none
    | (id, row) :: _ =>
        (db.logsOf id 50 orders).map fun logs => some ⟨id, row, logs⟩

/-- `retryPolicy: true`: the row that the job refers to. -/
def policyOf (db : Database) (row : JobRow) :
    Option (RetryPolicyId × RetryPolicyRow) :=
  row.retryPolicyId.bind db.retryPolicies.row?

end Database

/-- A job with its queue and the organization of its project. -/
structure FoundJob where
  row : JobRow
  queue : QueueRow
  orgId : OrgId

/-- The answer to `GET /jobs/:id`. -/
def FoundJob.detail (found : FoundJob) (id : JobId)
    (retryPolicy : Option (RetryPolicyId × RetryPolicyRow))
    (latestExecution : Option ExecutionRow)
    (deadLetter : Option (JobId × DeadLetterRow)) : JobDetail where
  id := id
  queueId := found.row.queueId
  queueName := found.queue.name
  projectId := found.queue.projectId
  type := found.row.type
  payload := found.row.payload
  status := found.row.status
  priority := found.row.priority
  runAt := found.row.runAt
  cronExpression := found.row.cronExpression
  batchId := found.row.batchId
  attemptCount := found.row.attemptCount
  retryPolicyId := found.row.retryPolicyId
  retryPolicy := retryPolicy
  idempotencyKey := found.row.idempotencyKey
  createdAt := found.row.createdAt
  updatedAt := found.row.updatedAt
  latestExecution := latestExecution
  deadLetter := deadLetter

namespace Database

def findJob (db : Database) (id : JobId) : Option FoundJob :=
  (db.jobs.get? id).bind fun row =>
    (db.queues.get? row.queueId).bind fun queue =>
      (db.orgOfProject queue.projectId).map fun org => ⟨row, queue, org⟩

def getJob (db : Database) (user : UserId) (id : JobId) (orders : Orders) :
    Option ReadReply :=
  match db.findJob id with
  | none => some jobNotFound
  | some found =>
      if db.isMember user found.orgId then
        (db.latestExecution id orders).map fun latest =>
          .ok (.job (found.detail id (db.policyOf found.row) latest
            (db.deadLetters.row? id)))
      else some jobNotFound

/-! ## `GET /jobs/:id/executions` and `GET /jobs/:id/logs` -/

/-- One element of `data` in the answer to `GET /jobs/:id/executions`. -/
def executionItem (db : Database) (orders : Orders) (id : ExecutionId)
    (row : JobExecution) : Option ExecutionItem :=
  (db.logsOf id 100 orders).map fun logs =>
    { id := id, jobId := row.jobId, attemptNumber := row.attemptNumber
      status := row.status, workerId := row.workerId
      worker := (db.workers.get? row.workerId).map fun worker =>
        ⟨row.workerId, worker.hostname, worker.pid⟩
      startedAt := row.startedAt, finishedAt := row.finishedAt
      durationMs := row.durationMs, errorMessage := row.errorMessage
      logs := logs.map fun log =>
        ⟨log.1, log.2.level, log.2.message, log.2.timestamp⟩ }

/-- The page that is sent once the access is verified. -/
def executionsPage (prisma : Prisma) (db : Database) (id : JobId)
    (page limit : Option String) (orders : Orders) : Option ReadReply :=
  let asked := parsePagination page limit
  if prisma.acceptsSkip asked.skip then
    let condition := fun (_ : ExecutionId) (row : JobExecution) =>
      decide (row.jobId = id)
    (db.executions.findMany condition attemptBefore asked.skip asked.limit
        orders.executions).bind fun executions =>
      (executions.mapM fun execution =>
          db.executionItem orders execution.1 execution.2).map fun data =>
        .ok (.executions data (buildMeta (db.executions.count condition)
          asked.page asked.limit))
  else some (.error internalError)

def getJobExecutions (prisma : Prisma) (db : Database) (user : UserId)
    (id : JobId) (page limit : Option String) (orders : Orders) :
    Option ReadReply :=
  match db.orgOfJob id with
  | none => some jobNotFound
  | some org =>
      if db.isMember user org then
        db.executionsPage prisma id page limit orders
      else some jobNotFound

/-- One element of `data` in the answer to `GET /jobs/:id/logs`. -/
def logItem (db : Database) (id : LogId) (log : JobLog) : Option LogItem :=
  (db.executions.get? log.executionId).map fun execution =>
    { id := id, executionId := log.executionId
      attemptNumber := execution.attemptNumber, workerId := execution.workerId
      level := log.level, message := log.message, timestamp := log.timestamp }

def logsPage (prisma : Prisma) (db : Database) (id : JobId)
    (page limit : Option String) (orders : Orders) : Option ReadReply :=
  let asked := parsePagination page limit
  if prisma.acceptsSkip asked.skip then
    let ids := db.executions.keysWhere fun _ row => row.jobId = id
    let condition := fun (_ : LogId) (log : JobLog) =>
      ids.contains log.executionId
    (db.logs.findMany condition logBefore asked.skip asked.limit
        orders.logs).map fun logs =>
      .ok (.logs (logs.filterMap fun log => db.logItem log.1 log.2)
        (buildMeta (db.logs.count condition) asked.page asked.limit))
  else some (.error internalError)

def getJobLogs (prisma : Prisma) (db : Database) (user : UserId)
    (id : JobId) (page limit : Option String) (orders : Orders) :
    Option ReadReply :=
  match db.orgOfJob id with
  | none => some jobNotFound
  | some org =>
      if db.isMember user org then
        db.logsPage prisma id page limit orders
      else some jobNotFound

/-- The handler of each read request. -/
def read (prisma : Prisma) (db : Database) (user : UserId)
    (request : ReadRequest) (orders : Orders) : Option ReadReply :=
  match request with
  | .jobs query => db.getJobs prisma user query orders
  | .job id => db.getJob user id orders
  | .executions id page limit =>
      db.getJobExecutions prisma user id page limit orders
  | .logs id page limit => db.getJobLogs prisma user id page limit orders

/-- The handler can send this answer. -/
def Answers (prisma : Prisma) (db : Database) (user : UserId)
    (request : ReadRequest) (reply : ReadReply) : Prop :=
  ∃ orders, db.read prisma user request orders = some reply

/-! ## Every request has an answer -/

theorem exists_orders_jobs (db : Database) (condition : JobId → JobRow → Bool) :
    ∃ order, ∀ skip take, ∃ answer,
      db.jobs.findMany condition JobRow.before skip take order =
        some answer := by
  apply db.jobs.exists_findMany
  · intro a b c
    simp only [JobRow.before_iff]
    exact le_trans
  · intro a b
    simp only [JobRow.before_iff]
    exact le_total _ _

theorem exists_orders_executions (db : Database)
    (condition : ExecutionId → JobExecution → Bool) :
    ∃ order, ∀ skip take, ∃ answer,
      db.executions.findMany condition attemptBefore skip take order =
        some answer := by
  apply db.executions.exists_findMany
  · intro a b c first second
    simp only [attemptBefore, decide_eq_true_eq] at *
    omega
  · intro a b
    simp only [attemptBefore, decide_eq_true_eq]
    omega

theorem exists_orders_logs (db : Database)
    (condition : LogId → JobLog → Bool) :
    ∃ order, ∀ skip take, ∃ answer,
      db.logs.findMany condition logBefore skip take order = some answer := by
  apply db.logs.exists_findMany
  · intro a b c first second
    simp only [logBefore, decide_eq_true_eq] at *
    exact le_trans first second
  · intro a b
    simp only [logBefore, decide_eq_true_eq]
    exact le_total _ _

theorem exists_getJobs (prisma : Prisma) (db : Database) (user : UserId)
    (query : JobListQuery) :
    ∃ orders reply, db.getJobs prisma user query orders = some reply := by
  cases status : query.statusFilter with
  | none =>
      refine ⟨⟨[], [], [], fun _ => []⟩, ?_⟩
      simp only [getJobs, status]
      exact ⟨_, rfl⟩
  | some filter =>
      obtain ⟨order, pages⟩ := db.exists_orders_jobs
        fun _ row => db.listed user query filter row
      obtain ⟨jobs, answered⟩ := pages
        (parsePagination query.page query.limit).skip
        (parsePagination query.page query.limit).limit
      refine ⟨⟨order, [], [], fun _ => []⟩, ?_⟩
      simp only [getJobs, status]
      split
      · rw [answered]
        exact ⟨_, rfl⟩
      · exact ⟨_, rfl⟩

theorem exists_logOrder (db : Database) :
    ∃ order : ExecutionId → List LogId, ∀ execution skip take, ∃ answer,
      db.logs.findMany (fun _ log => log.executionId = execution) logBefore
        skip take (order execution) = some answer := by
  have logsOf := fun execution => db.exists_orders_logs
    fun _ log => log.executionId = execution
  choose order pages using logsOf
  exact ⟨order, pages⟩

theorem exists_getJob (db : Database) (user : UserId) (id : JobId) :
    ∃ orders reply, db.getJob user id orders = some reply := by
  obtain ⟨logOrder, logPages⟩ := db.exists_logOrder
  obtain ⟨order, pages⟩ := db.exists_orders_executions
    fun _ row => row.jobId = id
  refine ⟨⟨[], order, [], logOrder⟩, ?_⟩
  simp only [getJob]
  split
  · exact ⟨_, rfl⟩
  · split
    · obtain ⟨executions, answered⟩ := pages 0 1
      unfold latestExecution
      rw [answered]
      cases executions with
      | nil => exact ⟨_, rfl⟩
      | cons execution rest =>
          obtain ⟨logs, found⟩ := logPages execution.1 0 50
          simp only [Option.bind_some, Database.logsOf, found]
          exact ⟨_, rfl⟩
    · exact ⟨_, rfl⟩

theorem exists_getJobExecutions (prisma : Prisma) (db : Database)
    (user : UserId) (id : JobId) (page limit : Option String) :
    ∃ orders reply,
      db.getJobExecutions prisma user id page limit orders = some reply := by
  obtain ⟨logOrder, logPages⟩ := db.exists_logOrder
  obtain ⟨order, pages⟩ := db.exists_orders_executions
    fun _ row => row.jobId = id
  refine ⟨⟨[], order, [], logOrder⟩, ?_⟩
  simp only [getJobExecutions, executionsPage]
  split
  · exact ⟨_, rfl⟩
  · split
    · split
      · obtain ⟨executions, answered⟩ := pages
          (parsePagination page limit).skip
          (parsePagination page limit).limit
        have items : ∀ execution ∈ executions, ∃ item,
            db.executionItem ⟨[], order, [], logOrder⟩ execution.1
              execution.2 = some item := by
          intro execution _
          obtain ⟨logs, found⟩ := logPages execution.1 0 100
          simp only [executionItem, Database.logsOf, found]
          exact ⟨_, rfl⟩
        obtain ⟨data, collected⟩ := List.exists_mapM_option items
        rw [answered, Option.bind_some, collected]
        exact ⟨_, rfl⟩
      · exact ⟨_, rfl⟩
    · exact ⟨_, rfl⟩

theorem exists_getJobLogs (prisma : Prisma) (db : Database) (user : UserId)
    (id : JobId) (page limit : Option String) :
    ∃ orders reply,
      db.getJobLogs prisma user id page limit orders = some reply := by
  obtain ⟨order, pages⟩ := db.exists_orders_logs fun _ log =>
    (db.executions.keysWhere fun _ row => row.jobId = id).contains
      log.executionId
  refine ⟨⟨[], [], order, fun _ => []⟩, ?_⟩
  simp only [getJobLogs, logsPage]
  split
  · exact ⟨_, rfl⟩
  · split
    · split
      · obtain ⟨logs, answered⟩ := pages
          (parsePagination page limit).skip
          (parsePagination page limit).limit
        rw [answered]
        exact ⟨_, rfl⟩
      · exact ⟨_, rfl⟩
    · exact ⟨_, rfl⟩

theorem exists_answer (prisma : Prisma) (db : Database) (user : UserId)
    (request : ReadRequest) :
    ∃ reply, db.Answers prisma user request reply := by
  apply exists_comm.mp
  cases request with
  | jobs query => exact db.exists_getJobs prisma user query
  | job id => exact db.exists_getJob user id
  | executions id page limit =>
      exact db.exists_getJobExecutions prisma user id page limit
  | logs id page limit => exact db.exists_getJobLogs prisma user id page limit

end Database

end Chronos
