import Chronos.World

/-!
# Executing a claimed job

`worker/src/executor.ts`.  The phases of an `executeJob` call are the awaits
of the source.  The handler is the environment: it may log, resolve or reject
at any time.  A failing success transaction lands in the same `catch` block
as a rejected handler.
-/

namespace Chronos

structure LogEntry where
  level : String
  message : String

/-- The variables of an attempt once its execution row exists. -/
structure Attempt where
  job : Job
  policy : RetryPolicy
  execution : ExecutionId
  startedAt : Time
  logBuffer : List LogEntry

/-- The variables of the `catch` block. -/
structure Failure where
  durationMs : Int
  errorMessage : String

/-- What an `executeJob` call awaits. -/
inductive ExecPhase where
  | findJob
  | markRunning (job : Job) (policy : RetryPolicy)
  | publishRunning (job : Job) (policy : RetryPolicy)
  | createExecution (job : Job) (policy : RetryPolicy)
  | handler (attempt : Attempt)
  | complete (attempt : Attempt) (durationMs : Int)
  | retry (attempt : Attempt) (failure : Failure) (delayMs : Int) (runAt : Time)
  | deadLetter (attempt : Attempt) (failure : Failure)
  | publish (job : Job) (status : String)

structure ExecCall where
  jobId : JobId
  workerId : WorkerId
  phase : ExecPhase

/-- How the awaited call ends.  A failure carries its error text and the
random draw that a retry would use. -/
inductive ExecInput where
  | ok
  | created (id : ExecutionId)
  | log (level message : String)
  | resolved
  | failed (error : String) (random : Draw)

namespace Attempt

/-- `job.attemptCount + 1`, from the row read at the start. -/
def number (attempt : Attempt) : Nat := attempt.job.attemptCount + 1

end Attempt

namespace Job

def markRunning (now : Time) (job : Job) : Job :=
  { job with status := .running, updatedAt := now }

def complete (now : Time) (job : Job) : Job :=
  { job with status := .completed, updatedAt := now }

def requeueForRetry (newAttemptCount : Nat) (runAt now : Time) (job : Job) :
    Job :=
  { job with
    status := .queued, attemptCount := newAttemptCount, runAt := runAt,
    updatedAt := now }

def moveToDeadLetter (newAttemptCount : Nat) (now : Time) (job : Job) : Job :=
  { job with
    status := .deadLetter, attemptCount := newAttemptCount, updatedAt := now }

end Job

namespace JobExecution

def finish (status : ExecutionStatus) (now : Time) (durationMs : Int)
    (errorMessage : Option String) (execution : JobExecution) : JobExecution :=
  { execution with
    status := status, finishedAt := some now, durationMs := some durationMs,
    errorMessage := errorMessage.or execution.errorMessage }

end JobExecution

namespace World

/-- The executor's closing line, then the buffered lines of the handler. -/
def flushLogs (world : World) (attempt : Attempt) (level message : String) :
    World :=
  world.appendLogs
    ((⟨level, message⟩ :: attempt.logBuffer).map fun entry =>
      ⟨attempt.execution, world.now, entry.level, entry.message⟩)

/-- `publishTransition`. -/
def publishTransition (world : World) (job : JobId) (queue : QueueId)
    (status : String) : World :=
  world.publish
    { event := "job:transition", jobId := some job, status := some status,
      queueId := queue, projectId := none, batchId := none,
      scheduledJobId := none, timestamp := world.now }

/-- The success transaction. -/
def commitCompleted (world : World) (job : JobId) (attempt : Attempt)
    (durationMs : Int) : World :=
  ((world.updateJob job (Job.complete world.now)).updateExecution
      attempt.execution
      (JobExecution.finish .completed world.now durationMs none)).flushLogs
    attempt "info" s!"Job completed successfully in {durationMs}ms"

/-- The transaction that schedules the next attempt. -/
def commitRetry (world : World) (job : JobId) (attempt : Attempt)
    (failure : Failure) (delayMs : Int) (runAt : Time) : World :=
  ((world.updateJob job
      (Job.requeueForRetry attempt.number runAt world.now)).updateExecution
      attempt.execution
      (JobExecution.finish .failed world.now failure.durationMs
        failure.errorMessage)).flushLogs
    attempt "error"
    s!"Job failed (attempt {attempt.number}/{attempt.policy.maxAttempts}): {failure.errorMessage}. Retrying in {delayMs}ms"

/-- The transaction that moves the job to the dead letter queue; the unique
index on `original_job_id` refuses a second row. -/
def commitDeadLetter (world : World) (job : JobId) (attempt : Attempt)
    (failure : Failure) : Option World :=
  (world.deadLetters.insert? job
      { queueId := attempt.job.queueId
        payload := Json.orElse (some attempt.job.payload) (.obj [])
        failureReason := failure.errorMessage
        attemptCount := attempt.number
        movedAt := world.now }).map fun deadLetters =>
    (({ world with deadLetters := deadLetters }.updateJob job
        (Job.moveToDeadLetter attempt.number world.now)).updateExecution
        attempt.execution
        (JobExecution.finish .failed world.now failure.durationMs
          failure.errorMessage)).flushLogs
      attempt "error"
      s!"Job moved to dead letter queue after {attempt.number} attempts: {failure.errorMessage}"

end World

/-- The synchronous part of the `catch` block: retry or dead letter. -/
def handleFailure (world : World) (attempt : Attempt) (error : String)
    (random : Draw) : ExecPhase :=
  let failure : Failure := ⟨world.now - attempt.startedAt, error⟩
  if (attempt.number : Int) < attempt.policy.maxAttempts then
    let delayMs := attempt.policy.delay attempt.number random
    .retry attempt failure delayMs (world.now + delayMs)
  else .deadLetter attempt failure

/-- One step of `executeJob`.  `none` in place of the call means that its
promise has settled. -/
def executeJob (world : World) (exec : ExecCall) :
    ExecInput → Option (World × Option ExecCall)
  | input =>
      let goto (phase : ExecPhase) : Option ExecCall :=
        some { exec with phase := phase }
      match exec.phase, input with
      | .findJob, .ok =>
          match world.jobs.get? exec.jobId with
          | none => some (world, none)
          | some job =>
              some (world, goto (.markRunning job (world.retryPolicyOf job)))
      | .findJob, .failed _ _ => some (world, none)
      | .markRunning job policy, .ok =>
          if world.writable exec.jobId then
            some (world.updateJob exec.jobId (Job.markRunning world.now),
              goto (.publishRunning job policy))
          else none
      | .markRunning _ _, .failed _ _ => some (world, none)
      | .publishRunning job policy, .ok =>
          some (world.publishTransition exec.jobId job.queueId "running",
            goto (.createExecution job policy))
      | .publishRunning job policy, .failed _ _ =>
          some (world, goto (.createExecution job policy))
      | .createExecution job policy, .created id =>
          (world.executions.insert? id
              { jobId := exec.jobId, workerId := exec.workerId
                attemptNumber := job.attemptCount + 1, startedAt := world.now
                finishedAt := none, status := .running
                errorMessage := none, durationMs := none }).map
            fun executions =>
              ({ world with executions := executions },
                goto (.handler ⟨job, policy, id, world.now, []⟩))
      | .createExecution _ _, .failed _ _ => some (world, none)
      | .handler attempt, .log level message =>
          some (world, goto (.handler
            { attempt with
              logBuffer := attempt.logBuffer ++ [⟨level, message⟩] }))
      | .handler attempt, .resolved =>
          some (world, goto (.complete attempt (world.now - attempt.startedAt)))
      | .handler attempt, .failed error random =>
          some (world, goto (handleFailure world attempt error random))
      | .complete attempt durationMs, .ok =>
          if world.writable exec.jobId then
            some (world.commitCompleted exec.jobId attempt durationMs,
              goto (.publish attempt.job "completed"))
          else none
      | .complete attempt _, .failed error random =>
          some (world, goto (handleFailure world attempt error random))
      | .retry attempt failure delayMs runAt, .ok =>
          if world.writable exec.jobId then
            some (world.commitRetry exec.jobId attempt failure delayMs runAt,
              goto (.publish attempt.job "failed_retrying"))
          else none
      | .retry _ _ _ _, .failed _ _ => some (world, none)
      | .deadLetter attempt failure, .ok =>
          if world.writable exec.jobId then
            (world.commitDeadLetter exec.jobId attempt failure).map
              fun next => (next, goto (.publish attempt.job "dead_letter"))
          else none
      | .deadLetter _ _, .failed _ _ => some (world, none)
      | .publish job status, .ok =>
          some (world.publishTransition exec.jobId job.queueId status, none)
      | .publish _ _, .failed _ _ => some (world, none)
      | _, _ => none

end Chronos
