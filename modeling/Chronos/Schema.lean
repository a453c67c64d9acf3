import Mathlib.Data.Rat.Defs

/-!
# The data model

Rows and enumerations of `prisma/schema.prisma`, with the columns that the
modelled code reads or writes.  A row does not repeat its primary key: tables
are keyed.  Instants are integers counting milliseconds, as in a JavaScript
`Date`.
-/

namespace Chronos

abbrev JobId := Nat
abbrev QueueId := Nat
abbrev ProjectId := Nat
abbrev WorkerId := Nat
abbrev ExecutionId := Nat
abbrev ScheduledJobId := Nat

/-- Retry policies are named by text, since a job template stored as JSON
refers to one. -/
abbrev RetryPolicyId := String

/-- Milliseconds since the epoch. -/
abbrev Time := Int

/-- A JSON value, as stored in a `JSONB` column. -/
inductive Json where
  | null
  | bool (value : Bool)
  | num (value : Rat)
  | str (value : String)
  | arr (items : List Json)
  | obj (fields : List (String × Json))
  deriving Inhabited

namespace Json

/-- Property access on an object; any other value has no properties here. -/
def field? : Json → String → Option Json
  | .obj fields, name => (fields.find? fun entry => entry.1 = name).map Prod.snd
  | _, _ => none

/-- `value ?? fallback` for a property that may be absent or `null`. -/
def orElse : Option Json → Json → Json
  | none, fallback => fallback
  | some .null, fallback => fallback
  | some value, _ => value

end Json

inductive RetryStrategy where
  | fixed
  | linear
  | exponential
  deriving DecidableEq, Repr

inductive JobStatus where
  | queued
  | scheduled
  | claimed
  | running
  | completed
  | failed
  | deadLetter
  | cancelled
  deriving DecidableEq, Repr

namespace JobStatus

/-- The enumeration's text in the database and in messages. -/
def text : JobStatus → String
  | .queued => "queued"
  | .scheduled => "scheduled"
  | .claimed => "claimed"
  | .running => "running"
  | .completed => "completed"
  | .failed => "failed"
  | .deadLetter => "dead_letter"
  | .cancelled => "cancelled"

/-- `status: { in: ["claimed", "running"] }`. -/
def inFlight (status : JobStatus) : Bool :=
  status = .claimed || status = .running

/-- The statuses that `POST /jobs/:id/retry` accepts. -/
def retryable (status : JobStatus) : Bool :=
  status = .failed || status = .deadLetter || status = .cancelled

/-- The statuses that `POST /jobs/:id/cancel` accepts. -/
def cancellable (status : JobStatus) : Bool :=
  status = .queued || status = .scheduled

/-- The API touches no job that a worker may have in hand. -/
theorem not_retryable_of_inFlight {status : JobStatus}
    (inFlight : status.inFlight = true) : status.retryable = false := by
  cases status <;> first | rfl | contradiction

theorem not_cancellable_of_inFlight {status : JobStatus}
    (inFlight : status.inFlight = true) : status.cancellable = false := by
  cases status <;> first | rfl | contradiction

end JobStatus

inductive WorkerStatus where
  | active
  | draining
  | dead
  deriving DecidableEq, Repr

/-- The texts the code writes to `job_executions.status`. -/
inductive ExecutionStatus where
  | running
  | completed
  | failed
  deriving DecidableEq, Repr

structure RetryPolicy where
  strategy : RetryStrategy
  baseDelayMs : Int
  maxDelayMs : Int
  maxAttempts : Int
  deriving DecidableEq

structure Queue where
  projectId : ProjectId
  concurrencyLimit : Nat
  isPaused : Bool
  defaultRetryPolicyId : Option RetryPolicyId

structure Job where
  queueId : QueueId
  type : String
  payload : Json
  status : JobStatus
  priority : Int
  runAt : Time
  batchId : Option String
  attemptCount : Nat
  retryPolicyId : Option RetryPolicyId
  idempotencyKey : Option String
  createdAt : Time
  updatedAt : Time

structure JobExecution where
  jobId : JobId
  workerId : WorkerId
  attemptNumber : Nat
  startedAt : Time
  finishedAt : Option Time
  status : ExecutionStatus
  errorMessage : Option String
  durationMs : Option Int

structure JobLog where
  executionId : ExecutionId
  timestamp : Time
  level : String
  message : String

structure Worker where
  status : WorkerStatus
  startedAt : Time
  lastHeartbeatAt : Time

structure ScheduledJob where
  projectId : ProjectId
  cronExpression : String
  queueId : QueueId
  jobTemplate : Json
  isActive : Bool
  lastRunAt : Option Time
  nextRunAt : Option Time
  createdAt : Time

/-- A row of `dead_letter_jobs`; the table is keyed by `original_job_id`,
which carries a unique index. -/
structure DeadLetterJob where
  queueId : QueueId
  payload : Json
  failureReason : String
  attemptCount : Nat
  movedAt : Time

end Chronos
