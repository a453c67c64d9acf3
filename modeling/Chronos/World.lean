import Chronos.Lib.Table
import Chronos.Retry

/-!
# The shared world

What the API processes and the workers share: the committed rows of the
PostgreSQL tables, the row locks on `jobs`, the messages published to Redis,
one clock, and for every worker process whether it runs.

A statement or a batch transaction that writes a job row by its id is one
step.  It waits while another open transaction holds the row's lock, so it
is possible only on rows that are not locked (`writable`).  The claim
transaction alone keeps locks over several steps.
-/

namespace Chronos

/-- Identifies one call in progress: a poll cycle, an `executeJob`, a reap
cycle, a scheduler tick or an API request. -/
abbrev CallId := Nat

/-- The life of a worker process.  `stopping` is the poller's flag of that
name; after `exited` the process takes no further step. -/
inductive Process where
  | running
  | stopping
  | exited
  deriving DecidableEq

/-- A message on the Redis channel `job:transitions`. -/
structure Message where
  event : String
  jobId : Option JobId
  status : Option String
  queueId : QueueId
  projectId : Option ProjectId
  batchId : Option String
  scheduledJobId : Option ScheduledJobId
  timestamp : Time

structure World where
  jobs : Table JobId Job
  executions : Table ExecutionId JobExecution
  logs : List JobLog
  deadLetters : Table JobId DeadLetterJob
  workers : Table WorkerId Worker
  queues : Table QueueId Queue
  retryPolicies : Table RetryPolicyId RetryPolicy
  scheduledJobs : Table ScheduledJobId ScheduledJob
  locks : JobId → Option CallId
  messages : List Message
  now : Time
  process : WorkerId → Option Process

namespace World

/-- A write to the row of this job goes through: the row exists and no open
transaction has locked it. -/
def writable (world : World) (job : JobId) : Bool :=
  (world.jobs.get? job).isSome && (world.locks job).isNone

def updateJob (world : World) (job : JobId) (update : Job → Job) : World :=
  { world with jobs := world.jobs.modify job update }

def updateExecution (world : World) (execution : ExecutionId)
    (update : JobExecution → JobExecution) : World :=
  { world with executions := world.executions.modify execution update }

def appendLogs (world : World) (entries : List JobLog) : World :=
  { world with logs := world.logs ++ entries }

def publish (world : World) (message : Message) : World :=
  { world with messages := world.messages ++ [message] }

/-- The count of step 1 of `claimJobs`. -/
def inFlight (world : World) (queue : QueueId) : Nat :=
  world.jobs.count fun _ job => job.queueId = queue && job.status.inFlight

/-- `job.retryPolicy ?? job.queue.defaultRetryPolicy ?? DEFAULT_RETRY`. -/
def retryPolicyOf (world : World) (job : Job) : RetryPolicy :=
  let own := job.retryPolicyId.bind world.retryPolicies.get?
  let queueDefault := (world.queues.get? job.queueId).bind fun queue =>
    queue.defaultRetryPolicyId.bind world.retryPolicies.get?
  (own.or queueDefault).getD defaultRetry

/-- The unique index on `(queue_id, idempotency_key)`; null keys are
distinct. -/
def keyTaken (world : World) (queue : QueueId) (key : Option String) : Bool :=
  key.isSome && world.jobs.rows.any fun row =>
    row.2.queueId = queue && row.2.idempotencyKey = key

/-- Insert a job row, with `created_at` and `updated_at` set to now.  The
database refuses a taken id, a duplicate idempotency key, and a reference to
a queue or a policy that does not exist. -/
def createJob (world : World) (id : JobId) (job : Job) : Option World :=
  if world.keyTaken job.queueId job.idempotencyKey then none
  else if (world.queues.get? job.queueId).isNone then none
  else if job.retryPolicyId.any fun policy =>
      (world.retryPolicies.get? policy).isNone then none
  else
    (world.jobs.insert? id
        { job with createdAt := world.now, updatedAt := world.now }).map
      fun jobs => { world with jobs := jobs }

/-- Insert several job rows in one transaction, all or none. -/
def createJobs (world : World) : List (JobId × Job) → Option World
  | [] => some world
  | (id, job) :: rows =>
      match world.createJob id job with
      | none => none
      | some next => next.createJobs rows

end World

end Chronos
