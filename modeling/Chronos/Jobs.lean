import Chronos.World

/-!
# The job endpoints

The mutating handlers of `api/src/routes/jobs.ts`, from the point where the
guards and the body schema have let the request through.  A request ends in
the phase `answered` with its HTTP status.
-/

namespace Chronos

/-- A database error as the global error handler tells them apart. -/
inductive DbError where
  | uniqueViolation
  | other
  deriving DecidableEq

def DbError.httpStatus : DbError → Nat
  | .uniqueViolation => 409
  | .other => 500

inductive ApiInput where
  | ok
  | nonce (text : String)
  | created (ids : List Nat)
  | fail (error : DbError)

/-- A body accepted by `createJobSchema`; the payload is a record. -/
structure CreateJobBody where
  type : String
  payload : List (String × Json)
  runAt : Option Time
  cronExpression : Option String
  retryPolicyId : Option RetryPolicyId
  idempotencyKey : Option String
  priority : Option Int

/-- An element accepted by `batchJobSchema`. -/
structure BatchJobBody where
  type : String
  payload : List (String × Json)
  runAt : Option Time
  priority : Option Int
  idempotencyKey : Option String

/-- A string that is present and not empty, as `if (text)` tests it. -/
def truthy : Option String → Bool
  | some text => text ≠ ""
  | none => false

/-- Whitespace of `trim()` and of `\s` in a regular expression. -/
def isJsWhitespace (char : Char) : Bool :=
  let code := char.toNat
  (9 ≤ code && code ≤ 13) || code = 0x20 || code = 0xa0 || code = 0x1680 ||
    (0x2000 ≤ code && code ≤ 0x200a) || code = 0x2028 || code = 0x2029 ||
    code = 0x202f || code = 0x205f || code = 0x3000 || code = 0xfeff

/-- The number of maximal runs of characters that are not whitespace. -/
def countFields : Bool → List Char → Nat
  | _, [] => 0
  | inside, char :: chars =>
      if isJsWhitespace char then countFields false chars
      else (if inside then 0 else 1) + countFields true chars

/-- `expr.trim().split(/\s+/).length === 5`. -/
def isValidCron (expr : String) : Bool := countFields false expr.toList = 5

/-- The next minute boundary; the expression itself is not consulted. -/
def computeNextRunAt (_cronExpression : String) (start : Time) : Time :=
  start / 60000 * 60000 + 60000

/-- The status both submission endpoints store. -/
def submittedStatus (runAt now : Time) : JobStatus :=
  if now < runAt then .scheduled else .queued

inductive SubmitPhase where
  | findQueue
  | findKey (queue : Queue)
  | createScheduled (queue : Queue) (row : ScheduledJob)
  | publishScheduled (queue : Queue) (id : ScheduledJobId)
  | createJob (queue : Queue) (job : Job)
  | publishJob (queue : Queue) (id : JobId) (job : Job)
  | answered (httpStatus : Nat)

structure SubmitCall where
  queueId : QueueId
  body : CreateJobBody
  phase : SubmitPhase

namespace CreateJobBody

/-- The column `job_template` of a cron submission; JSON drops a
`retryPolicyId` that is undefined. -/
def jobTemplate (body : CreateJobBody) : Json :=
  .obj ([("type", .str body.type), ("payload", .obj body.payload)] ++
    (body.retryPolicyId.map fun policy => ("retryPolicyId", .str policy)).toList ++
    [("priority", .num (body.priority.getD 0))])

/-- The one-shot row of `POST /queues/:queueId/jobs`. -/
def job (body : CreateJobBody) (queueId : QueueId) (queue : Queue)
    (now : Time) : Job :=
  let resolvedRunAt := body.runAt.getD now
  { queueId := queueId, type := body.type, payload := .obj body.payload
    status := submittedStatus resolvedRunAt now
    priority := body.priority.getD 0, runAt := resolvedRunAt, batchId := none
    attemptCount := 0
    retryPolicyId := body.retryPolicyId.or queue.defaultRetryPolicyId
    idempotencyKey := body.idempotencyKey, createdAt := now, updatedAt := now }

end CreateJobBody

/-- The synchronous part after the idempotency check. -/
def afterKeyCheck (queueId : QueueId) (body : CreateJobBody) (queue : Queue)
    (now : Time) : SubmitPhase :=
  match body.cronExpression with
  | some expr =>
      if expr = "" then .createJob queue (body.job queueId queue now)
      else if isValidCron expr then
        .createScheduled queue
          { projectId := queue.projectId, cronExpression := expr
            queueId := queueId, jobTemplate := body.jobTemplate
            isActive := true, lastRunAt := none
            nextRunAt := some (computeNextRunAt expr now), createdAt := now }
      else .answered 400
  | none => .createJob queue (body.job queueId queue now)

namespace World

def createScheduledJob (world : World) (id : ScheduledJobId)
    (row : ScheduledJob) : Option World :=
  (world.scheduledJobs.insert? id row).map fun scheduledJobs =>
    { world with scheduledJobs := scheduledJobs }

theorem createScheduledJob_spec {world next : World} {id : ScheduledJobId}
    {row : ScheduledJob}
    (created : world.createScheduledJob id row = some next) :
    ∃ scheduledJobs, world.scheduledJobs.insert? id row = some scheduledJobs ∧
      next = { world with scheduledJobs := scheduledJobs } := by
  obtain ⟨scheduledJobs, inserted, same⟩ := Option.map_eq_some_iff.mp created
  exact ⟨scheduledJobs, inserted, same.symm⟩

def publishApi (world : World) (event : String) (job : Option JobId)
    (status : Option String) (queue : QueueId) (project : Option ProjectId)
    (batchId : Option String) (scheduledJob : Option ScheduledJobId) : World :=
  world.publish
    { event := event, jobId := job, status := status, queueId := queue,
      projectId := project, batchId := batchId, scheduledJobId := scheduledJob,
      timestamp := world.now }

def projectOf (world : World) (queue : QueueId) : Option ProjectId :=
  (world.queues.get? queue).map (·.projectId)

end World

/-- One step of `POST /queues/:queueId/jobs`. -/
def submitJob (world : World) (call : SubmitCall) :
    ApiInput → Option (World × SubmitCall)
  | input =>
      let goto (next : World) (phase : SubmitPhase) :
          Option (World × SubmitCall) :=
        some (next, { call with phase := phase })
      let body := call.body
      match call.phase, input with
      | .findQueue, .ok =>
          match world.queues.get? call.queueId with
          | none => goto world (.answered 404)
          | some queue =>
              if truthy body.idempotencyKey then goto world (.findKey queue)
              else goto world (afterKeyCheck call.queueId body queue world.now)
      | .findKey queue, .ok =>
          if world.keyTaken call.queueId body.idempotencyKey then
            goto world (.answered 409)
          else goto world (afterKeyCheck call.queueId body queue world.now)
      | .createScheduled queue row, .created [id] =>
          match world.createScheduledJob id row with
          | none => none
          | some next => goto next (.publishScheduled queue id)
      | .publishScheduled queue id, .ok =>
          goto (world.publishApi "scheduled_job:created" none none call.queueId
            queue.projectId none id) (.answered 201)
      | .createJob queue job, .created [id] =>
          match world.createJob id job with
          | none => none
          | some next => goto next (.publishJob queue id job)
      | .publishJob queue id job, .ok =>
          goto (world.publishApi "" id (some job.status.text) call.queueId
            queue.projectId none none) (.answered 201)
      | .createJob _ job, .fail .uniqueViolation =>
          if world.keyTaken call.queueId job.idempotencyKey then
            goto world (.answered 409)
          else none
      | .answered _, _ => none
      | _, .fail .other => goto world (.answered 500)
      | _, _ => none

inductive BatchPhase where
  | findQueue
  | findKeys (queue : Queue) (batchId : String) (now : Time)
  | createJobs (queue : Queue) (batchId : String) (rows : List Job)
  | publish (queue : Queue) (batchId : String)
  | answered (httpStatus : Nat)

structure BatchCall where
  queueId : QueueId
  jobs : List BatchJobBody
  phase : BatchPhase

namespace BatchJobBody

/-- One element of `jobData`. -/
def job (body : BatchJobBody) (queueId : QueueId) (queue : Queue)
    (batchId : String) (now : Time) : Job :=
  let resolvedRunAt := body.runAt.getD now
  { queueId := queueId, type := body.type, payload := .obj body.payload
    status := submittedStatus resolvedRunAt now
    priority := body.priority.getD 0, runAt := resolvedRunAt
    batchId := some batchId, attemptCount := 0
    retryPolicyId := queue.defaultRetryPolicyId
    idempotencyKey := body.idempotencyKey, createdAt := now, updatedAt := now }

end BatchJobBody

namespace BatchCall

def keysInBatch (call : BatchCall) : List (Option String) :=
  (call.jobs.map (·.idempotencyKey)).filter truthy

def jobData (call : BatchCall) (queue : Queue) (batchId : String)
    (now : Time) : List Job :=
  call.jobs.map fun body => body.job call.queueId queue batchId now

end BatchCall

/-- One step of `POST /queues/:queueId/jobs/batch`. -/
def submitBatch (world : World) (call : BatchCall) :
    ApiInput → Option (World × BatchCall)
  | input =>
      let goto (next : World) (phase : BatchPhase) :
          Option (World × BatchCall) :=
        some (next, { call with phase := phase })
      match call.phase, input with
      | .findQueue, .nonce batchId =>
          match world.queues.get? call.queueId with
          | none => goto world (.answered 404)
          | some queue =>
              if call.keysInBatch = [] then
                goto world (.createJobs queue batchId
                  (call.jobData queue batchId world.now))
              else goto world (.findKeys queue batchId world.now)
      | .findKeys queue batchId now, .ok =>
          if call.keysInBatch.any (world.keyTaken call.queueId) then
            goto world (.answered 409)
          else
            goto world
              (.createJobs queue batchId (call.jobData queue batchId now))
      | .createJobs queue batchId rows, .created ids =>
          if ids.length = rows.length then
            match world.createJobs (ids.zip rows) with
            | none => none
            | some next => goto next (.publish queue batchId)
          else none
      | .publish queue batchId, .ok =>
          goto (world.publishApi "batch:created" none none call.queueId
            queue.projectId (some batchId) none) (.answered 201)
      | .createJobs _ _ _, .fail .uniqueViolation =>
          goto world (.answered 409)
      | .answered _, _ => none
      | _, .fail .other => goto world (.answered 500)
      | _, _ => none

/-- What a retry or a cancel request awaits, with what it read. -/
inductive RetryPhase where
  | findJob
  | transaction (queueId : QueueId) (project : Option ProjectId)
      (deadLetter : Bool)
  | publish (queueId : QueueId) (project : Option ProjectId)
  | answered (httpStatus : Nat)

structure RetryCall where
  jobId : JobId
  phase : RetryPhase

inductive CancelPhase where
  | findJob
  | update (queueId : QueueId) (project : Option ProjectId)
  | publish (queueId : QueueId) (project : Option ProjectId)
  | answered (httpStatus : Nat)

structure CancelCall where
  jobId : JobId
  phase : CancelPhase

namespace Job

def resetForRetry (now : Time) (job : Job) : Job :=
  { job with
    status := .queued, runAt := now, attemptCount := 0, updatedAt := now }

def cancel (now : Time) (job : Job) : Job :=
  { job with status := .cancelled, updatedAt := now }

end Job

namespace World

/-- The transaction of the retry handler: remove the dead letter that was
read, then reset the job, whatever its status is now. -/
def commitManualRetry (world : World) (job : JobId) (deadLetter : Bool) :
    World :=
  { world.updateJob job (Job.resetForRetry world.now) with
    deadLetters :=
      if deadLetter then world.deadLetters.erase job else world.deadLetters }

end World

/-- One step of `POST /jobs/:id/retry`. -/
def retryJob (world : World) (call : RetryCall) :
    ApiInput → Option (World × RetryCall)
  | input =>
      let goto (next : World) (phase : RetryPhase) :
          Option (World × RetryCall) :=
        some (next, { call with phase := phase })
      match call.phase, input with
      | .findJob, .ok =>
          match world.jobs.get? call.jobId with
          | none => goto world (.answered 404)
          | some job =>
              if job.status.retryable then
                goto world (.transaction job.queueId
                  (world.projectOf job.queueId)
                  (world.deadLetters.get? call.jobId).isSome)
              else goto world (.answered 400)
      | .transaction queueId project deadLetter, .ok =>
          if world.writable call.jobId ∧
              (deadLetter → (world.deadLetters.get? call.jobId).isSome) then
            goto (world.commitManualRetry call.jobId deadLetter)
              (.publish queueId project)
          else none
      | .publish queueId project, .ok =>
          goto (world.publishApi "job:retried" call.jobId (some "queued")
            queueId project none none) (.answered 200)
      | .answered _, _ => none
      | _, .fail .other => goto world (.answered 500)
      | _, _ => none

/-- One step of `POST /jobs/:id/cancel`. -/
def cancelJob (world : World) (call : CancelCall) :
    ApiInput → Option (World × CancelCall)
  | input =>
      let goto (next : World) (phase : CancelPhase) :
          Option (World × CancelCall) :=
        some (next, { call with phase := phase })
      match call.phase, input with
      | .findJob, .ok =>
          match world.jobs.get? call.jobId with
          | none => goto world (.answered 404)
          | some job =>
              if job.status.cancellable then
                goto world (.update job.queueId (world.projectOf job.queueId))
              else goto world (.answered 400)
      | .update queueId project, .ok =>
          if world.writable call.jobId then
            goto (world.updateJob call.jobId (Job.cancel world.now))
              (.publish queueId project)
          else none
      | .publish queueId project, .ok =>
          goto (world.publishApi "job:cancelled" call.jobId (some "cancelled")
            queueId project none none) (.answered 200)
      | .answered _, _ => none
      | _, .fail .other => goto world (.answered 500)
      | _, _ => none

end Chronos
