import Chronos.World

/-!
# Heartbeats and the reaper

`worker/src/heartbeat.ts`.  A reap cycle reads the stale workers, marks each
dead, reads its running executions and the jobs in flight that have one, and
puts these jobs back to `queued` one by one.  No step is part of a
transaction, and the updates name rows by id only.

Where the source reads rows without `ORDER BY`, the input lists them in the
order the database returns.
-/

namespace Chronos

/-- `[...new Set(values)]`: first occurrences, in order. -/
def newSet : List Nat → List Nat
  | [] => []
  | value :: values => value :: (newSet values).filter (· ≠ value)

@[simp] theorem mem_newSet {value : Nat} {values : List Nat} :
    value ∈ newSet values ↔ value ∈ values := by
  induction values with
  | nil => simp [newSet]
  | cons head tail induction =>
      by_cases same : value = head
      · simp [newSet, same]
      · simp [newSet, same, induction]

theorem nodup_newSet (values : List Nat) : (newSet values).Nodup := by
  induction values with
  | nil => exact List.nodup_nil
  | cons head tail induction =>
      refine List.nodup_cons.mpr ⟨by simp, ?_⟩
      exact induction.sublist List.filter_sublist

/-- What a reap cycle awaits.  `workers` are the stale workers still to come
after the current one, `jobIds` the jobs still to come after the current one. -/
inductive ReapPhase where
  | findStale (staleThreshold : Time)
  | markDead (worker : WorkerId) (workers : List WorkerId)
  | findExecutions (worker : WorkerId) (workers : List WorkerId)
  | findJobs (worker : WorkerId) (workers : List WorkerId)
      (orphanedJobIds : List JobId)
  | requeue (worker : WorkerId) (workers : List WorkerId)
      (job : JobId) (jobIds : List JobId)
  | closeExecutions (worker : WorkerId) (workers : List WorkerId)
      (job : JobId) (jobIds : List JobId) (queueId : QueueId)
  | publish (worker : WorkerId) (workers : List WorkerId)
      (job : JobId) (jobIds : List JobId) (queueId : QueueId)

structure ReapCall where
  workerId : WorkerId
  phase : ReapPhase

inductive ReapInput where
  | ok
  | rows (order : List Nat)
  | fail

namespace ReapPhase

/-- The head of the loop over the stale workers. -/
def nextWorker : List WorkerId → Option ReapPhase
  | [] => none
  | worker :: workers => some (.markDead worker workers)

/-- The head of the loop over the orphaned jobs of one worker. -/
def nextJob (worker : WorkerId) (workers : List WorkerId) :
    List JobId → Option ReapPhase
  | [] => nextWorker workers
  | job :: jobIds => some (.requeue worker workers job jobIds)

end ReapPhase

namespace Job

def requeueOrphan (now : Time) (job : Job) : Job :=
  { job with
    status := .queued, attemptCount := job.attemptCount + 1, updatedAt := now }

end Job

namespace JobExecution

/-- The update of `updateMany({ where: { jobId, status: "running" } })`. -/
def closeOrphan (jobId : JobId) (now : Time) (worker : WorkerId)
    (execution : JobExecution) : JobExecution :=
  if execution.jobId = jobId ∧ execution.status = .running then
    { execution with
      status := .failed, finishedAt := some now
      errorMessage := some s!"Worker {worker} died (stale heartbeat)" }
  else execution

end JobExecution

namespace World

def staleWorkers (world : World) (staleThreshold : Time) : List WorkerId :=
  world.workers.keysWhere fun _ worker =>
    worker.status = .active && decide (worker.lastHeartbeatAt < staleThreshold)

def runningExecutions (world : World) (worker : WorkerId) : List ExecutionId :=
  world.executions.keysWhere fun _ execution =>
    execution.workerId = worker && execution.status = .running

def executionJob (world : World) (execution : ExecutionId) : Option JobId :=
  (world.executions.get? execution).map (·.jobId)

/-- Some execution of the job by this worker is still running. -/
def hasRunningExecution (world : World) (worker : WorkerId) (job : JobId) :
    Bool :=
  world.executions.rows.any fun row =>
    row.2.jobId = job && row.2.workerId = worker && row.2.status = .running

/-- The query behind `claimedJobs`. -/
def inFlightJobsOf (world : World) (worker : WorkerId) : List JobId :=
  world.jobs.keysWhere fun id job =>
    job.status.inFlight && world.hasRunningExecution worker id

def setWorkerStatus (world : World) (worker : WorkerId) (status : WorkerStatus) :
    World :=
  { world with
    workers := world.workers.modify worker fun row =>
      { row with status := status } }

/-- The time is that of the commit; the source reads the clock when it sends
the update. -/
def recordHeartbeat (world : World) (worker : WorkerId) : World :=
  { world with
    workers := world.workers.modify worker fun row =>
      { row with lastHeartbeatAt := world.now } }

def closeExecutions (world : World) (worker : WorkerId) (job : JobId) : World :=
  { world with
    executions := world.executions.mapRows fun _ execution =>
      execution.closeOrphan job world.now worker }

def publishRequeued (world : World) (job : JobId) (queue : QueueId) : World :=
  world.publish
    { event := "job:transition", jobId := some job, status := some "queued",
      queueId := queue, projectId := none, batchId := none,
      scheduledJobId := none, timestamp := world.now }

end World

/-- One step of `reap`.  A failure while requeueing a job is caught inside the
loop over the jobs; any other failure ends the cycle. -/
def reap (world : World) (call : ReapCall) :
    ReapInput → Option (World × Option ReapCall)
  | input =>
      let resume (next : World) (phase : Option ReapPhase) :
          Option (World × Option ReapCall) :=
        some (next, phase.map fun phase => { call with phase := phase })
      match call.phase, input with
      | .findStale staleThreshold, .rows order =>
          if order.Perm (world.staleWorkers staleThreshold) then
            resume world (ReapPhase.nextWorker order)
          else none
      | .markDead worker workers, .ok =>
          resume (world.setWorkerStatus worker .dead)
            (some (.findExecutions worker workers))
      | .findExecutions worker workers, .rows order =>
          if order.Perm (world.runningExecutions worker) then
            match newSet (order.filterMap world.executionJob) with
            | [] => resume world (ReapPhase.nextWorker workers)
            | job :: jobIds =>
                resume world (some (.findJobs worker workers (job :: jobIds)))
          else none
      | .findJobs worker workers orphanedJobIds, .rows order =>
          if order.Perm (world.inFlightJobsOf worker) then
            resume world
              (ReapPhase.nextJob worker workers (newSet (orphanedJobIds ++ order)))
          else none
      | .requeue worker workers job jobIds, .ok =>
          match world.jobs.get? job with
          | none => none
          | some row =>
              if world.writable job then
                resume (world.updateJob job (Job.requeueOrphan world.now))
                  (some (.closeExecutions worker workers job jobIds row.queueId))
              else none
      | .closeExecutions worker workers job jobIds queueId, .ok =>
          resume (world.closeExecutions worker job)
            (some (.publish worker workers job jobIds queueId))
      | .publish worker workers job jobIds queueId, .ok =>
          resume (world.publishRequeued job queueId)
            (ReapPhase.nextJob worker workers jobIds)
      | .requeue worker workers _ jobIds, .fail =>
          resume world (ReapPhase.nextJob worker workers jobIds)
      | .closeExecutions worker workers _ jobIds _, .fail =>
          resume world (ReapPhase.nextJob worker workers jobIds)
      | .publish worker workers _ jobIds _, .fail =>
          resume world (ReapPhase.nextJob worker workers jobIds)
      | .findStale _, .fail => resume world none
      | .markDead _ _, .fail => resume world none
      | .findExecutions _ _, .fail => resume world none
      | .findJobs _ _ _, .fail => resume world none
      | _, _ => none

end Chronos
