import Chronos.ApiView
import Chronos.Rbac
import Chronos.Responses

/-!
# Tenant isolation of the job reads

Two databases agree for a user if they have the same rows in the user's
organizations and the same workers.  The handlers of the four read endpoints
then send the same values, except for one column: `GET /jobs/:id` joins the
retry policy that the job refers to, and a submission may refer to a policy of
any project.  The response schema of that route declares no property, so that
the user receives the same response all the same.
-/

namespace Chronos

namespace Database

variable (db : Database) (user : UserId)

def sees (org : Option OrgId) : Bool := org.any (db.isMember user)

/-! ## The rows of the user's organizations -/

def ownProject (_ : ProjectId) (row : Project) : Bool :=
  db.isMember user row.orgId

def ownPolicy (_ : RetryPolicyId) (row : RetryPolicyRow) : Bool :=
  db.sees user (db.orgOfProject row.projectId)

def ownQueue (_ : QueueId) (row : QueueRow) : Bool :=
  db.sees user (db.orgOfProject row.projectId)

def ownJob (_ : JobId) (row : JobRow) : Bool :=
  db.sees user (db.orgOfQueue row.queueId)

def ownExecution (_ : ExecutionId) (row : JobExecution) : Bool :=
  db.sees user (db.orgOfJob row.jobId)

def ownLog (_ : LogId) (log : JobLog) : Bool :=
  db.sees user (db.orgOfExecution log.executionId)

def ownDeadLetter (job : JobId) (_ : DeadLetterRow) : Bool :=
  db.sees user (db.orgOfJob job)

end Database

/-- The two databases have the user's memberships, the rows of the user's
organizations and the workers in common. -/
structure Agree (user : UserId) (left right : Database) : Prop where
  memberships : ∀ org,
    left.memberships.get? (org, user) = right.memberships.get? (org, user)
  projects : left.projects.SameWhere right.projects
    (left.ownProject user) (right.ownProject user)
  retryPolicies : left.retryPolicies.SameWhere right.retryPolicies
    (left.ownPolicy user) (right.ownPolicy user)
  queues : left.queues.SameWhere right.queues
    (left.ownQueue user) (right.ownQueue user)
  jobs : left.jobs.SameWhere right.jobs (left.ownJob user) (right.ownJob user)
  executions : left.executions.SameWhere right.executions
    (left.ownExecution user) (right.ownExecution user)
  logs : left.logs.SameWhere right.logs (left.ownLog user) (right.ownLog user)
  deadLetters : left.deadLetters.SameWhere right.deadLetters
    (left.ownDeadLetter user) (right.ownDeadLetter user)
  workers : ∀ worker, left.workers.get? worker = right.workers.get? worker

namespace Agree

variable {user : UserId} {left right : Database}

theorem symm (agree : Agree user left right) : Agree user right left where
  memberships org := (agree.memberships org).symm
  projects := agree.projects.symm
  retryPolicies := agree.retryPolicies.symm
  queues := agree.queues.symm
  jobs := agree.jobs.symm
  executions := agree.executions.symm
  logs := agree.logs.symm
  deadLetters := agree.deadLetters.symm
  workers worker := (agree.workers worker).symm

theorem isMember (agree : Agree user left right) (org : OrgId) :
    left.isMember user org = right.isMember user org := by
  rw [Database.isMember, Database.isMember, agree.memberships]

theorem sees (agree : Agree user left right) (org : Option OrgId) :
    left.sees user org = right.sees user org := by
  cases org with
  | none => rfl
  | some org => exact agree.isMember org

/-! ## Lookups that end in an organization of the user -/

theorem orgOfProject (agree : Agree user left right) {project : ProjectId}
    (seen : left.sees user (left.orgOfProject project) = true) :
    right.orgOfProject project = left.orgOfProject project := by
  rw [Database.orgOfProject] at seen
  cases found : left.projects.get? project with
  | none =>
      rw [found] at seen
      cases seen
  | some row =>
      rw [found] at seen
      have shared := (agree.projects.get? found seen).1
      rw [Database.orgOfProject, Database.orgOfProject, found, shared]

/-- A row whose parent leads to an organization of the user is the same on
both sides, and so is the organization. -/
private theorem lookup {κ ρ : Type} [DecidableEq κ]
    {leftTable rightTable : Table κ ρ}
    {leftParent rightParent : ρ → Option OrgId}
    (same : leftTable.SameWhere rightTable
      (fun _ row => left.sees user (leftParent row))
      (fun _ row => right.sees user (rightParent row)))
    (parent : ∀ {row}, left.sees user (leftParent row) = true →
      rightParent row = leftParent row)
    {key : κ}
    (seen : left.sees user ((leftTable.get? key).bind leftParent) = true) :
    rightTable.get? key = leftTable.get? key ∧
      (rightTable.get? key).bind rightParent =
        (leftTable.get? key).bind leftParent := by
  cases found : leftTable.get? key with
  | none =>
      rw [found] at seen
      cases seen
  | some row =>
      rw [found] at seen
      have shared := (same.get? found seen).1
      rw [shared]
      exact ⟨rfl, parent seen⟩

theorem queue (agree : Agree user left right) {queue : QueueId}
    (seen : left.sees user (left.orgOfQueue queue) = true) :
    right.queues.get? queue = left.queues.get? queue ∧
      right.orgOfQueue queue = left.orgOfQueue queue :=
  lookup agree.queues agree.orgOfProject seen

theorem job (agree : Agree user left right) {job : JobId}
    (seen : left.sees user (left.orgOfJob job) = true) :
    right.jobs.get? job = left.jobs.get? job ∧
      right.orgOfJob job = left.orgOfJob job :=
  lookup agree.jobs (fun seen => (agree.queue seen).2) seen

theorem execution (agree : Agree user left right) {execution : ExecutionId}
    (seen : left.sees user (left.orgOfExecution execution) = true) :
    right.executions.get? execution = left.executions.get? execution ∧
      right.orgOfExecution execution = left.orgOfExecution execution :=
  lookup agree.executions (fun seen => (agree.job seen).2) seen

theorem sees_job (agree : Agree user left right) (job : JobId) :
    left.sees user (left.orgOfJob job) =
      right.sees user (right.orgOfJob job) := by
  apply Bool.eq_iff_iff.mpr
  constructor
  · intro seen
    rw [(agree.job seen).2, ← agree.sees]
    exact seen
  · intro seen
    rw [(agree.symm.job seen).2, agree.sees]
    exact seen

end Agree

/-! ## What the handlers look at -/

/-- Without access to the job, its executions cannot be told from those of a
job that does not exist. -/
theorem Database.getJobExecutions_eq_ite (prisma : Prisma) (db : Database)
    (user : UserId) (id : JobId) (page limit : Option String)
    (orders : Orders) :
    db.getJobExecutions prisma user id page limit orders =
      if db.sees user (db.orgOfJob id) then
        db.executionsPage prisma id page limit orders
      else some jobNotFound := by
  unfold Database.getJobExecutions
  cases db.orgOfJob id <;> rfl

theorem Database.getJobLogs_eq_ite (prisma : Prisma) (db : Database)
    (user : UserId) (id : JobId) (page limit : Option String)
    (orders : Orders) :
    db.getJobLogs prisma user id page limit orders =
      if db.sees user (db.orgOfJob id) then
        db.logsPage prisma id page limit orders
      else some jobNotFound := by
  unfold Database.getJobLogs
  cases db.orgOfJob id <;> rfl

theorem Database.orgOfJob_eq (db : Database) (id : JobId) :
    db.orgOfJob id = (db.findJob id).map (·.orgId) := by
  simp only [Database.orgOfJob, Database.orgOfQueue, Database.findJob,
    Option.map_bind, Option.map_map, Function.comp_def, Option.map_id_fun', id_eq]

theorem Database.getJob_of_not_sees {db : Database} {user : UserId}
    {id : JobId} (hidden : db.sees user (db.orgOfJob id) = false)
    (orders : Orders) : db.getJob user id orders = some jobNotFound := by
  rw [Database.orgOfJob_eq] at hidden
  unfold Database.getJob
  cases found : db.findJob id with
  | none => rfl
  | some job =>
      rw [found] at hidden
      have stranger : db.isMember user job.orgId = false := hidden
      simp [stranger]

theorem Database.getJob_of_found {db : Database} {user : UserId} {id : JobId}
    {found : FoundJob} (isFound : db.findJob id = some found)
    (seen : db.sees user (db.orgOfJob id) = true) (orders : Orders) :
    db.getJob user id orders =
      (db.latestExecution id orders).map fun latest =>
        .ok (.job (found.detail id (db.policyOf found.row) latest
          (db.deadLetters.row? id))) := by
  rw [Database.orgOfJob_eq, isFound] at seen
  have member : db.isMember user found.orgId = true := seen
  simp only [Database.getJob, isFound, member, if_true]

theorem Database.get?_of_findJob {db : Database} {id : JobId}
    {found : FoundJob} (isFound : db.findJob id = some found) :
    db.jobs.get? id = some found.row := by
  simp only [Database.findJob, Option.bind_eq_some_iff,
    Option.map_eq_some_iff] at isFound
  obtain ⟨row, present, -, -, -, -, rfl⟩ := isFound
  exact present

theorem Database.exists_findJob {db : Database} {user : UserId} {id : JobId}
    (seen : db.sees user (db.orgOfJob id) = true) :
    ∃ found, db.findJob id = some found := by
  rw [Database.orgOfJob_eq] at seen
  cases found : db.findJob id with
  | none =>
      rw [found] at seen
      cases seen
  | some job => exact ⟨job, rfl⟩

theorem Database.contains_orgIds (db : Database) (user : UserId) (org : OrgId) :
    (db.orgIds user).contains org = db.isMember user org := by
  apply Bool.eq_iff_iff.mpr
  simp only [List.contains_iff_mem, Database.orgIds, List.mem_map,
    Table.mem_keysWhere, decide_eq_true_eq, Database.isMember,
    Option.isSome_iff_exists]
  constructor
  · rintro ⟨⟨_, _⟩, ⟨role, found, rfl⟩, rfl⟩
    exact ⟨role, found⟩
  · rintro ⟨role, found⟩
    exact ⟨(org, user), ⟨role, found, rfl⟩, rfl⟩

theorem Database.listed_eq (db : Database) (user : UserId)
    (query : JobListQuery) (status : Option JobStatus) (id : JobId)
    (row : JobRow) :
    db.listed user query status row =
      (db.ownJob user id row && query.accepts status row) := by
  unfold Database.listed Database.ownJob Database.sees
  cases db.orgOfQueue row.queueId with
  | none => rfl
  | some org => simp only [Option.any_some, db.contains_orgIds]

namespace Agree

variable {user : UserId} {left right : Database}

theorem executionsOf (agree : Agree user left right) {job : JobId}
    (seen : left.sees user (left.orgOfJob job) = true) :
    left.executions.SameWhere right.executions
      (fun _ row => decide (row.jobId = job))
      (fun _ row => decide (row.jobId = job)) := by
  apply agree.executions.of_imp
  · intro id row holds
    rw [Database.ownExecution, of_decide_eq_true holds]
    exact seen
  · intro id row holds
    rw [Database.ownExecution, of_decide_eq_true holds, ← agree.sees_job]
    exact seen

theorem seen_execution {job : JobId}
    (seen : left.sees user (left.orgOfJob job) = true)
    {execution : ExecutionId}
    (member : execution ∈
      left.executions.keysWhere fun _ row => row.jobId = job) :
    left.sees user (left.orgOfExecution execution) = true := by
  obtain ⟨row, found, holds⟩ := Table.mem_keysWhere.mp member
  rw [Database.orgOfExecution, found, Option.bind_some,
    of_decide_eq_true holds]
  exact seen

theorem logsOfJob (agree : Agree user left right) {job : JobId}
    (seen : left.sees user (left.orgOfJob job) = true)
    (condition : LogId → JobLog → Bool)
    (within : ∀ id log, condition id log = true → log.executionId ∈
      left.executions.keysWhere fun _ row => row.jobId = job) :
    left.logs.SameWhere right.logs condition condition := by
  have seenRight : right.sees user (right.orgOfJob job) = true := by
    rw [← agree.sees_job]
    exact seen
  apply agree.logs.of_imp
  · intro id log holds
    exact seen_execution seen (within id log holds)
  · intro id log holds
    apply seen_execution seenRight
    apply (agree.executionsOf seen).keysWhere_perm.mem_iff.mp
    exact within id log holds

theorem logsOf_eq (agree : Agree user left right) {job : JobId}
    (seen : left.sees user (left.orgOfJob job) = true)
    {execution : ExecutionId}
    (member : execution ∈
      left.executions.keysWhere fun _ row => row.jobId = job)
    (take : Nat) (orders : Orders) :
    left.logsOf execution take orders = right.logsOf execution take orders := by
  apply Table.SameWhere.findMany_eq
  apply agree.logsOfJob seen
  intro id log holds
  rw [of_decide_eq_true holds]
  exact member

theorem jobSummary_eq (agree : Agree user left right) {id : JobId}
    {row : JobRow} (found : left.jobs.get? id = some row)
    (own : left.ownJob user id row = true) :
    left.jobSummary id row = right.jobSummary id row := by
  have seen : left.sees user (left.orgOfJob id) = true := by
    rw [Database.orgOfJob, found]
    exact own
  have queue := (agree.queue own).1
  have executions := (agree.executionsOf seen).count_eq
  rw [Database.jobSummary, Database.jobSummary, queue, executions]

theorem executionItem_eq (agree : Agree user left right) {job : JobId}
    (seen : left.sees user (left.orgOfJob job) = true) (orders : Orders)
    {id : ExecutionId} {row : JobExecution}
    (found : left.executions.get? id = some row) (of : row.jobId = job) :
    left.executionItem orders id row = right.executionItem orders id row := by
  have member : id ∈ left.executions.keysWhere fun _ row => row.jobId = job :=
    Table.mem_keysWhere.mpr ⟨row, found, decide_eq_true of⟩
  rw [Database.executionItem, Database.executionItem,
    agree.logsOf_eq seen member, agree.workers]

theorem latestExecution_eq (agree : Agree user left right) {job : JobId}
    (seen : left.sees user (left.orgOfJob job) = true) (orders : Orders) :
    left.latestExecution job orders = right.latestExecution job orders := by
  unfold Database.latestExecution
  rw [← (agree.executionsOf seen).findMany_eq]
  apply Option.bind_congr
  intro executions answered
  cases executions with
  | nil => rfl
  | cons execution rest =>
      obtain ⟨id, row⟩ := execution
      obtain ⟨found, of⟩ := Table.mem_findMany answered List.mem_cons_self
      have member : id ∈
          left.executions.keysWhere fun _ row => row.jobId = job :=
        Table.mem_keysWhere.mpr ⟨row, found, of⟩
      dsimp only
      rw [agree.logsOf_eq seen member]

/-! ## The endpoints -/

theorem getJobs_eq (agree : Agree user left right) (prisma : Prisma)
    (query : JobListQuery) (orders : Orders) :
    left.getJobs prisma user query orders =
      right.getJobs prisma user query orders := by
  unfold Database.getJobs
  cases query.statusFilter with
  | none => rfl
  | some status =>
      have same := agree.jobs.and
        (fun _ row => query.accepts status row)
        (fun _ row => query.accepts status row) (fun _ _ _ _ => rfl)
      simp only [← Database.listed_eq] at same
      dsimp only
      rw [← same.findMany_eq, ← same.count_eq]
      congr 1
      apply Option.map_congr
      intro jobs answered
      have summaries : (jobs.filterMap fun job =>
          left.jobSummary job.1 job.2) =
          jobs.filterMap fun job => right.jobSummary job.1 job.2 := by
        apply List.filterMap_congr
        rintro ⟨id, row⟩ member
        obtain ⟨found, listed⟩ := Table.mem_findMany answered member
        rw [Database.listed_eq left user query status id] at listed
        exact agree.jobSummary_eq found (Bool.and_eq_true_iff.mp listed).1
      rw [summaries]

theorem getJobExecutions_eq (agree : Agree user left right) (prisma : Prisma)
    (id : JobId) (page limit : Option String) (orders : Orders) :
    left.getJobExecutions prisma user id page limit orders =
      right.getJobExecutions prisma user id page limit orders := by
  rw [Database.getJobExecutions_eq_ite, Database.getJobExecutions_eq_ite,
    ← agree.sees_job]
  split
  · rename_i seen
    have same := agree.executionsOf seen
    unfold Database.executionsPage
    dsimp only
    rw [← same.findMany_eq, ← same.count_eq]
    congr 1
    apply Option.bind_congr
    intro executions answered
    have items : (executions.mapM fun execution =>
        left.executionItem orders execution.1 execution.2) =
        executions.mapM fun execution =>
          right.executionItem orders execution.1 execution.2 := by
      apply List.mapM_option_congr
      rintro ⟨id, row⟩ member
      obtain ⟨found, of⟩ := Table.mem_findMany answered member
      exact agree.executionItem_eq seen orders found (of_decide_eq_true of)
    rw [items]
  · rfl

theorem getJobLogs_eq (agree : Agree user left right) (prisma : Prisma)
    (id : JobId) (page limit : Option String) (orders : Orders) :
    left.getJobLogs prisma user id page limit orders =
      right.getJobLogs prisma user id page limit orders := by
  rw [Database.getJobLogs_eq_ite, Database.getJobLogs_eq_ite,
    ← agree.sees_job]
  split
  · rename_i seen
    have ids := (agree.executionsOf seen).keysWhere_perm
    have sameIds : ∀ execution,
        (left.executions.keysWhere fun _ row => row.jobId = id).contains
            execution =
          (right.executions.keysWhere fun _ row => row.jobId = id).contains
            execution := by
      intro execution
      apply Bool.eq_iff_iff.mpr
      rw [List.contains_iff_mem, List.contains_iff_mem, ids.mem_iff]
    have same := agree.logsOfJob seen
      (fun _ log => (left.executions.keysWhere fun _ row =>
        row.jobId = id).contains log.executionId)
      (fun _ _ listed => List.contains_iff_mem.mp listed)
    unfold Database.logsPage
    dsimp only
    simp only [← sameIds]
    rw [← same.findMany_eq, ← same.count_eq]
    congr 1
    apply Option.map_congr
    intro logs answered
    have items : (logs.filterMap fun log => left.logItem log.1 log.2) =
        logs.filterMap fun log => right.logItem log.1 log.2 := by
      apply List.filterMap_congr
      rintro ⟨logId, log⟩ member
      have listed := (Table.mem_findMany answered member).2
      have seenLog := seen_execution seen (List.contains_iff_mem.mp listed)
      rw [Database.logItem, Database.logItem, (agree.execution seenLog).1]
    rw [items]
  · rfl

theorem findJob_eq (agree : Agree user left right) {id : JobId}
    (seen : left.sees user (left.orgOfJob id) = true) :
    right.findJob id = left.findJob id := by
  obtain ⟨found, isFound⟩ := Database.exists_findJob seen
  have row := (agree.job seen).1
  have reads := isFound
  simp only [Database.findJob, Option.bind_eq_some_iff,
    Option.map_eq_some_iff] at reads
  obtain ⟨job, jobFound, queue, queueFound, org, orgFound, rfl⟩ := reads
  have ofQueue : left.sees user (left.orgOfQueue job.queueId) = true := by
    rw [Database.orgOfJob, jobFound] at seen
    exact seen
  have ofProject : left.sees user (left.orgOfProject queue.projectId) =
      true := by
    rw [Database.orgOfQueue, queueFound] at ofQueue
    exact ofQueue
  have queueRow := (agree.queue ofQueue).1
  simp only [Database.findJob, row, jobFound, Option.bind_some, queueRow,
    queueFound, agree.orgOfProject ofProject]

theorem deadLetter_eq (agree : Agree user left right) {id : JobId}
    (seen : left.sees user (left.orgOfJob id) = true) :
    right.deadLetters.row? id = left.deadLetters.row? id := by
  have same : left.deadLetters.SameWhere right.deadLetters
      (fun job _ => decide (job = id)) (fun job _ => decide (job = id)) := by
    apply agree.deadLetters.of_imp
    · intro job row holds
      rw [Database.ownDeadLetter, of_decide_eq_true holds]
      exact seen
    · intro job row holds
      rw [Database.ownDeadLetter, of_decide_eq_true holds, ← agree.sees_job]
      exact seen
  unfold Table.row?
  congr 1
  apply Option.ext
  intro row
  have shared := same id row
  simp only [decide_true, and_true] at shared
  exact shared.symm

/-- The policies that the user's jobs refer to are the same rows. -/
def SamePolicies (user : UserId) (left right : Database) : Prop :=
  ∀ id row, left.jobs.get? id = some row → left.ownJob user id row = true →
    left.policyOf row = right.policyOf row

theorem getJob_eq (agree : Agree user left right)
    (policies : SamePolicies user left right) (id : JobId) (orders : Orders) :
    left.getJob user id orders = right.getJob user id orders := by
  cases seen : left.sees user (left.orgOfJob id) with
  | false =>
      have hidden := seen
      rw [agree.sees_job] at hidden
      rw [Database.getJob_of_not_sees seen,
        Database.getJob_of_not_sees hidden]
  | true =>
      obtain ⟨found, isFound⟩ := Database.exists_findJob seen
      have seenRight := seen
      rw [agree.sees_job] at seenRight
      have isFoundRight := (agree.findJob_eq seen).trans isFound
      have policy : left.policyOf found.row = right.policyOf found.row := by
        have jobFound := Database.get?_of_findJob isFound
        apply policies id found.row jobFound
        rw [Database.orgOfJob, jobFound] at seen
        exact seen
      rw [Database.getJob_of_found isFound seen,
        Database.getJob_of_found isFoundRight seenRight, policy,
        agree.latestExecution_eq seen, agree.deadLetter_eq seen]

end Agree

/-! ## Isolation -/

/-- With both databases every handler sends the user the same values, whatever
orders the databases choose. -/
def SameReplies (prisma : Prisma) (user : UserId) (left right : Database) :
    Prop :=
  ∀ request reply, left.Answers prisma user request reply ↔
    right.Answers prisma user request reply

/-- With both databases every endpoint answers the user the same. -/
def SameAnswers (serializer : Serializer) (texts : JsonTexts) (prisma : Prisma)
    (user : UserId) (left right : Database) : Prop :=
  ∀ request response,
    left.Responds serializer texts prisma user request response ↔
      right.Responds serializer texts prisma user request response

/-- A job of the user's organizations refers to a policy outside of them,
which is not the same row in both databases. -/
def ForeignPolicyDiffers (user : UserId) (left right : Database) : Prop :=
  ∃ id row policy, left.jobs.get? id = some row ∧
    left.ownJob user id row = true ∧ row.retryPolicyId = some policy ∧
    (∀ policyRow, left.retryPolicies.get? policy = some policyRow →
      left.ownPolicy user policy policyRow = false) ∧
    left.retryPolicies.get? policy ≠ right.retryPolicies.get? policy

section Isolation

variable {user : UserId} {left right : Database}

theorem Agree.policyOf_eq (agree : Agree user left right)
    (none : ¬ForeignPolicyDiffers user left right) :
    Agree.SamePolicies user left right := by
  intro id row found own
  cases refers : row.retryPolicyId with
  | none => simp [Database.policyOf, refers]
  | some policy =>
      have same : left.retryPolicies.get? policy =
          right.retryPolicies.get? policy := by
        by_contra differs
        refine none ⟨id, row, policy, found, own, refers, ?_, differs⟩
        intro policyRow present
        by_contra isOwn
        have shared := agree.retryPolicies.get? present (by simpa using isOwn)
        exact differs (present.trans shared.1.symm)
      simp [Database.policyOf, refers, Table.row?, same]

theorem Agree.read_eq (agree : Agree user left right)
    (policies : Agree.SamePolicies user left right) (prisma : Prisma)
    (request : ReadRequest) (orders : Orders) :
    left.read prisma user request orders =
      right.read prisma user request orders := by
  cases request with
  | jobs query => exact agree.getJobs_eq prisma query orders
  | job id => exact agree.getJob_eq policies id orders
  | executions id page limit =>
      exact agree.getJobExecutions_eq prisma id page limit orders
  | logs id page limit =>
      exact agree.getJobLogs_eq prisma id page limit orders

/-- Two databases that agree for a user make the handlers send the same values,
if and only if none of the user's jobs refers to a foreign policy that
differs. -/
theorem sameReplies_iff (prisma : Prisma) (agree : Agree user left right) :
    SameReplies prisma user left right ↔
      ¬ForeignPolicyDiffers user left right := by
  constructor
  · rintro same ⟨id, row, policy, found, own, refers, -, differs⟩
    have seen : left.sees user (left.orgOfJob id) = true := by
      rw [Database.orgOfJob, found]
      exact own
    obtain ⟨job, isFound⟩ := Database.exists_findJob seen
    have seenRight := seen
    rw [agree.sees_job] at seenRight
    have isFoundRight := (agree.findJob_eq seen).trans isFound
    have ofRow : job.row = row := by
      have lookup := (Database.get?_of_findJob isFound).symm.trans found
      exact Option.some.inj lookup
    obtain ⟨reply, answered⟩ := left.exists_answer prisma user (.job id)
    obtain ⟨orders, sent⟩ := answered
    obtain ⟨orders', sent'⟩ := (same (.job id) reply).mp ⟨orders, sent⟩
    simp only [Database.read, Database.getJob_of_found isFound seen,
      Option.map_eq_some_iff] at sent
    simp only [Database.read,
      Database.getJob_of_found isFoundRight seenRight,
      Option.map_eq_some_iff] at sent'
    obtain ⟨latest, -, rfl⟩ := sent
    obtain ⟨latest', -, sameReply⟩ := sent'
    have policies : right.policyOf job.row = left.policyOf job.row := by
      simp only [FoundJob.detail, Except.ok.injEq, ReadBody.job.injEq,
        JobDetail.mk.injEq] at sameReply
      exact sameReply.2.2.2.2.2.2.2.2.2.2.2.2.2.1
    rw [ofRow, Database.policyOf, Database.policyOf, refers] at policies
    exact differs (Table.get?_eq_of_row?_eq policies.symm)
  · intro none request reply
    apply exists_congr
    intro orders
    rw [agree.read_eq (agree.policyOf_eq none)]

/-- What the handler of one database can send, that of the other can send as
well, up to what the response schema does not declare. -/
private theorem Agree.responds (agree : Agree user left right)
    (serializer : Serializer) (texts : JsonTexts) (prisma : Prisma)
    {request : ReadRequest} {response : ReadResponse}
    (responds : left.Responds serializer texts prisma user request response) :
    right.Responds serializer texts prisma user request response := by
  obtain ⟨reply, ⟨orders, sent⟩, rfl⟩ := responds
  cases request with
  | jobs query =>
      refine ⟨reply, ⟨orders, ?_⟩, rfl⟩
      exact (agree.getJobs_eq prisma query orders).symm.trans sent
  | executions id page limit =>
      refine ⟨reply, ⟨orders, ?_⟩, rfl⟩
      exact (agree.getJobExecutions_eq prisma id page limit orders).symm.trans
        sent
  | logs id page limit =>
      refine ⟨reply, ⟨orders, ?_⟩, rfl⟩
      exact (agree.getJobLogs_eq prisma id page limit orders).symm.trans sent
  | job id =>
      cases seen : left.sees user (left.orgOfJob id) with
      | false =>
          have hidden := seen
          rw [agree.sees_job] at hidden
          refine ⟨reply, ⟨orders, ?_⟩, rfl⟩
          rw [Database.read, Database.getJob_of_not_sees seen] at sent
          rw [Database.read, Database.getJob_of_not_sees hidden, sent]
      | true =>
          -- The two bodies may differ in the policy, which is not declared.
          obtain ⟨found, isFound⟩ := Database.exists_findJob seen
          have seenRight := seen
          rw [agree.sees_job] at seenRight
          have isFoundRight := (agree.findJob_eq seen).trans isFound
          rw [Database.read, Database.getJob_of_found isFound seen,
            Option.map_eq_some_iff] at sent
          obtain ⟨latest, newest, rfl⟩ := sent
          rw [agree.latestExecution_eq seen] at newest
          have sentRight :=
            (Database.getJob_of_found isFoundRight seenRight orders).trans
              (Option.map_eq_some_iff.mpr ⟨latest, newest, rfl⟩)
          exact ⟨_, ⟨orders, sentRight⟩, congrArg Except.ok
            (serializer.serialize_job texts id _ _)⟩

/-- Two databases that agree for a user answer all job reads of the user the
same. -/
theorem job_reads_isolated (serializer : Serializer) (texts : JsonTexts)
    (prisma : Prisma) (agree : Agree user left right) :
    SameAnswers serializer texts prisma user left right :=
  fun _ _ => ⟨agree.responds serializer texts prisma,
    agree.symm.responds serializer texts prisma⟩

theorem Agree.of_foreign {db : Database}
    {policies : Table RetryPolicyId RetryPolicyRow}
    (foreign : ∀ id row, db.retryPolicies.get? id = some row →
      db.ownPolicy user id row = false)
    (foreign' : ∀ id row, policies.get? id = some row →
      db.ownPolicy user id row = false) :
    Agree user db { db with retryPolicies := policies } where
  memberships _ := rfl
  projects _ _ := Iff.rfl
  retryPolicies := by
    intro id row
    constructor
    · rintro ⟨found, own⟩
      rw [foreign id row found] at own
      cases own
    · rintro ⟨found, own⟩
      have isOwn : db.ownPolicy user id row = true := own
      rw [foreign' id row found] at isOwn
      cases isOwn
  queues _ _ := Iff.rfl
  jobs _ _ := Iff.rfl
  executions _ _ := Iff.rfl
  logs _ _ := Iff.rfl
  deadLetters _ _ := Iff.rfl
  workers _ := rfl

end Isolation

/-! ## A job with a foreign policy -/

/-- Queue 0 of project 0 and one policy, with these jobs. -/
def World.onePolicy (attempts : Int) (jobs : Table JobId Job) : World :=
  { World.sample 10 jobs with
    queues := ⟨[(0, ⟨0, 10, false, none⟩)], by simp⟩
    retryPolicies :=
      ⟨[("theirs", ⟨.fixed, 1000, 30000, attempts⟩)], by simp⟩ }

/-- User 1 owns organization 1 with project 0; the policy belongs to project
9 of organization 2. -/
def ApiColumns.twoOrgs : ApiColumns where
  memberships := ⟨[((1, 1), .owner), ((2, 2), .owner)], by simp⟩
  projects := ⟨[(0, ⟨1⟩), (9, ⟨2⟩)], by simp⟩
  policyProject _ := 9
  policyName _ := "default"
  policyCreatedAt _ := 0
  queueName _ := "emails"
  logId := .refl Nat
  deadLetterId := id
  workerHostname _ := "host"
  workerPid _ := 1

theorem World.onePolicy_agree (attempts attempts' : Int)
    (jobs : Table JobId Job) :
    Agree 1 ((World.onePolicy attempts jobs).database .twoOrgs)
      ((World.onePolicy attempts' jobs).database .twoOrgs) := by
  have foreign : ∀ limit id row,
      ((World.onePolicy limit jobs).database
        .twoOrgs).retryPolicies.get? id = some row →
      ((World.onePolicy attempts jobs).database .twoOrgs).ownPolicy 1 id row =
        false := by
    intro limit id row found
    simp only [World.database, Table.get?_mapValues,
      Option.map_eq_some_iff] at found
    obtain ⟨policy, -, rfl⟩ := found
    rfl
  exact .of_foreign (foreign attempts) (foreign attempts')

/-- The job as the submission below stores it. -/
def Job.referringToTheirs : Job :=
  { Job.sample .queued with
    payload := .obj [], retryPolicyId := some "theirs" }

/-- User 1 submits job 7 to the own queue and names the policy of
organization 2. -/
def submitTheirs : List Action :=
  [.request 5 (.submit 0
      ⟨"echo", [], none, none, some "theirs", none, none⟩),
    .api 5 .ok, .api 5 (.created [7]), .api 5 .ok]

theorem exists_run_submitTheirs (attempts : Int) : ∃ trace last,
    Run (step .sample) (World.onePolicy attempts .empty).idle trace last ∧
    last.world.database .twoOrgs =
      (World.onePolicy attempts
        ⟨[(7, .referringToTheirs)], by simp⟩).database .twoOrgs := by
  have recorded : ∃ trace last,
      record (step .sample) (World.onePolicy attempts .empty).idle
        submitTheirs = some (trace, last) ∧
      last.world.database .twoOrgs =
        (World.onePolicy attempts
          ⟨[(7, .referringToTheirs)], by simp⟩).database .twoOrgs :=
    ⟨_, _, rfl, rfl⟩
  obtain ⟨trace, last, recorded, database⟩ := recorded
  exact ⟨trace, last, .of_record recorded, database⟩

mutual

/-- The text of a JSON value whose strings need no escape. -/
def Json.shown : Json → String
  | .null => "null"
  | .bool value => if value then "true" else "false"
  | .num value => toString value
  | .str value => "\"" ++ value ++ "\""
  | .arr items => "[" ++ ",".intercalate (items.map Json.shown) ++ "]"
  | .obj fields => "\x7b" ++ ",".intercalate (Json.shownFields fields) ++ "\x7d"

def Json.shownFields : List (String × Json) → List String
  | [] => []
  | (name, value) :: rest =>
      ("\"" ++ name ++ "\":" ++ value.shown) :: Json.shownFields rest

end

/-- A serializer that writes the declared part. -/
def Serializer.plain : Serializer where
  serialize schema value := (schema.declared value).shown
  onlyDeclared same := congrArg Json.shown same

/-- Two runs from states without jobs: the guard lets user 1 submit job 7,
which refers to the policy of organization 2.  The databases then agree for
user 1, and the handler of `GET /jobs/7` sends different values; the user
receives an empty object in both. -/
theorem job_reads_isolated_foreign :
    ∃ (left right last last' : State)
      (trace trace' : List (Transition State Action)),
      Initial left ∧ Run (step .sample) left trace last ∧
      Initial right ∧ Run (step .sample) right trace' last' ∧
      (∀ state ∈ [left, right],
        requireOrgMember Route.submitJob.minRole
          (state.world.database .twoOrgs) (some 1)
          (Route.submitJob.params 0) = .ok ()) ∧
      ¬SameReplies ⟨fun _ => true⟩ 1 (last.world.database .twoOrgs)
        (last'.world.database .twoOrgs) ∧
      (∀ texts, (last.world.database .twoOrgs).Responds .plain texts
        ⟨fun _ => true⟩ 1 (.job 7) (.ok "\x7b\x7d")) ∧
      ∀ texts, SameAnswers .plain texts ⟨fun _ => true⟩ 1
        (last.world.database .twoOrgs) (last'.world.database .twoOrgs) := by
  obtain ⟨trace, last, run, database⟩ := exists_run_submitTheirs 3
  obtain ⟨trace', last', run', database'⟩ := exists_run_submitTheirs 5
  refine ⟨_, _, last, last', trace, trace',
    World.idle_initial (fun _ => rfl), run, World.idle_initial (fun _ => rfl),
    run', ?_, ?_, ?_, ?_⟩
  · intro state member
    simp only [List.mem_cons, List.not_mem_nil, or_false] at member
    rcases member with rfl | rfl <;> rfl
  · rw [database, database']
    intro same
    obtain ⟨orders, sent⟩ := (same (.job 7) _).mp
      ⟨⟨[], [], [], fun _ => []⟩, rfl⟩
    rw [Database.read, Database.getJob_of_found rfl rfl,
      Option.map_eq_some_iff] at sent
    obtain ⟨latest, -, sameReply⟩ := sent
    simp [FoundJob.detail, Database.policyOf, World.onePolicy,
      World.database, Job.referringToTheirs, Table.row?, Table.mapValues,
      Table.get?] at sameReply
  · intro texts
    rw [database]
    refine ⟨_, ⟨⟨[], [], [], fun _ => []⟩, rfl⟩, ?_⟩
    simp [Except.map, Serializer.plain, ReadRequest.responseSchema,
      ReadBody.toJson, JobDetail.toJson, ResponseSchema.declared,
      ResponseSchema.declaredFields, Json.shown, Json.shownFields]
  · intro texts
    rw [database, database']
    exact job_reads_isolated .plain texts _ (World.onePolicy_agree 3 5 _)

end Chronos
