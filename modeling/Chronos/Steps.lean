import Chronos.System

/-!
# What one step of a call can do

One inversion lemma for each program: a step of `pollCycle`, `executeJob`,
`reap`, `tick` or a request handler is one of the named cases, with its guard
and its effect.  Every invariant of the system is derived from these cases.
-/

namespace Chronos

/-- The step leaves the rows, locks and processes alone that the job life
cycle depends on; only messages and new cron definitions may be added. -/
structure SameRows (world next : World) : Prop where
  jobs : next.jobs = world.jobs
  executions : next.executions = world.executions
  deadLetters : next.deadLetters = world.deadLetters
  workers : next.workers = world.workers
  queues : next.queues = world.queues
  retryPolicies : next.retryPolicies = world.retryPolicies
  locks : next.locks = world.locks
  now : next.now = world.now
  process : next.process = world.process
  scheduledJobs : ∀ {id row}, world.scheduledJobs.get? id = some row →
    next.scheduledJobs.get? id = some row

namespace SameRows

theorem refl (world : World) : SameRows world world := by
  constructor <;> first | rfl | exact fun found => found

theorem publish (world : World) (message : Message) :
    SameRows world (world.publish message) := by
  constructor <;> first | rfl | exact fun found => found

theorem createScheduledJob {world next : World} {id : ScheduledJobId}
    {row : ScheduledJob}
    (created : world.createScheduledJob id row = some next) :
    SameRows world next := by
  obtain ⟨scheduledJobs, inserted, rfl⟩ := World.createScheduledJob_spec created
  have fresh := (Table.insert?_eq_some_iff.mp inserted).1
  constructor <;> try rfl
  intro other old found
  change scheduledJobs.get? other = some old
  rw [Table.get?_insert? inserted, if_neg, found]
  rintro rfl
  simp [fresh] at found

end SameRows

inductive PollStep (world : World) (call : CallId) (poll : PollCall) :
    PollInput → World → Option PollCall → Prop where
  | fetched {order : List QueueId} :
      poll.phase = .fetchQueues →
      order.Perm world.activeQueues →
      PollStep world call poll (.queues order) world
        (some { poll with
          phase := .nextQueue (order.filterMap world.queueRef) })
  | fetchFailed :
      poll.phase = .fetchQueues →
      PollStep world call poll .fail world none
  | finished {queues : List QueueRef} :
      poll.phase = .nextQueue queues →
      queues = [] ∨ world.stopping poll.workerId = true →
      PollStep world call poll .next world none
  | entered {queue : QueueRef} {rest : List QueueRef} :
      poll.phase = .nextQueue (queue :: rest) →
      PollStep world call poll .next world
        (some { poll with phase := .claiming queue rest .count })
  | atLimit {queue : QueueRef} {rest : List QueueRef} :
      poll.phase = .claiming queue rest .count →
      PollStep world call poll (.claim .ok) world
        (some { poll with phase := .launching rest [] })
  | counted {queue : QueueRef} {rest : List QueueRef} :
      poll.phase = .claiming queue rest .count →
      queue.concurrencyLimit - world.inFlight queue.id ≠ 0 →
      PollStep world call poll (.claim .ok) world
        (some { poll with
          phase := .claiming queue rest
            (.beginTx (queue.concurrencyLimit - world.inFlight queue.id)) })
  | countFailed {queue : QueueRef} {rest : List QueueRef} :
      poll.phase = .claiming queue rest .count →
      PollStep world call poll (.claim .fail) world
        (some { poll with phase := .nextQueue rest })
  | begun {queue : QueueRef} {rest : List QueueRef} {available : Nat} :
      poll.phase = .claiming queue rest (.beginTx available) →
      PollStep world call poll (.claim .ok) world
        (some { poll with
          phase := .claiming queue rest (.select available world.now) })
  | nothingLocked {queue : QueueRef} {rest : List QueueRef}
      {phase : ClaimPhase} :
      poll.phase = .claiming queue rest phase →
      (∃ available, phase = .beginTx available) ∨
        (∃ available txNow, phase = .select available txNow) →
      PollStep world call poll (.claim .fail) world
        (some { poll with phase := .launching rest [] })
  | selected {queue : QueueRef} {rest : List QueueRef} {available : Nat}
      {txNow : Time} {order skip : List JobId} :
      poll.phase = .claiming queue rest (.select available txNow) →
      world.ClaimOrder queue.id txNow skip order →
      order.take available ≠ [] →
      PollStep world call poll (.claim (.rows order skip))
        (world.lock call (order.take available))
        (some { poll with
          phase := .claiming queue rest
            (.update txNow (order.take available)) })
  | selectedNone {queue : QueueRef} {rest : List QueueRef} {available : Nat}
      {txNow : Time} {order skip : List JobId} :
      poll.phase = .claiming queue rest (.select available txNow) →
      world.ClaimOrder queue.id txNow skip order →
      order.take available = [] →
      PollStep world call poll (.claim (.rows order skip)) world
        (some { poll with phase := .claiming queue rest (.commit txNow []) })
  | updated {queue : QueueRef} {rest : List QueueRef} {txNow : Time}
      {ids : List JobId} :
      poll.phase = .claiming queue rest (.update txNow ids) →
      PollStep world call poll (.claim .ok) world
        (some { poll with phase := .claiming queue rest (.commit txNow ids) })
  | rolledBack {queue : QueueRef} {rest : List QueueRef} {phase : ClaimPhase}
      {txNow : Time} {ids : List JobId} :
      poll.phase = .claiming queue rest phase →
      phase = .update txNow ids ∨ phase = .commit txNow ids →
      PollStep world call poll (.claim .fail) (world.unlock ids)
        (some { poll with phase := .launching rest [] })
  | committed {queue : QueueRef} {rest : List QueueRef} {txNow : Time}
      {ids : List JobId} :
      poll.phase = .claiming queue rest (.commit txNow ids) →
      PollStep world call poll (.claim .ok)
        ((world.markClaimed txNow ids).unlock ids)
        (some { poll with phase := .launching rest ids })
  | launched {rest : List QueueRef} {ids : List JobId} :
      poll.phase = .launching rest ids →
      ids = [] ∨ world.stopping poll.workerId = true →
      PollStep world call poll .next world
        (some { poll with phase := .nextQueue rest })

theorem pollCycle_cases {world next : World} {call : CallId} {poll : PollCall}
    {input : PollInput} {poll' : Option PollCall}
    (taken : pollCycle world call poll input = some (next, poll')) :
    PollStep world call poll input next poll' := by
  unfold pollCycle at taken
  dsimp only at taken
  split at taken
  · rename_i order phase
    split at taken <;> cases taken
    exact .fetched phase ‹_›
  · cases taken
    exact .fetchFailed ‹_›
  · cases taken
    exact .finished ‹_› (.inl rfl)
  · rename_i queue rest phase
    split at taken <;> cases taken
    · exact .finished phase (.inr ‹_›)
    · exact .entered phase
  · rename_i queue rest phase claimInput entry
    unfold claimJobs at taken
    dsimp only at taken
    split at taken
    · cases taken
    · rename_i claimed
      split at claimed <;> try cases claimed
      · split at claimed <;> cases claimed
        cases taken
        exact .counted entry ‹_›
      · cases taken
        exact .begun entry
      · split at claimed
        · split at claimed <;> cases claimed <;> cases taken
          · exact .selectedNone entry ‹_› ‹_›
          · rename_i id ids shape
            rw [← shape]
            exact .selected entry ‹World.ClaimOrder _ _ _ _ _› (by simp [shape])
        · cases claimed
      · cases taken
        exact .updated entry
    · rename_i claimed
      split at claimed <;> try cases claimed
      · split at claimed <;> cases claimed
        cases taken
        exact .atLimit entry
      · cases taken
        exact .nothingLocked entry (.inl ⟨_, rfl⟩)
      · split at claimed
        · split at claimed <;> cases claimed
        · cases claimed
      · cases taken
        exact .nothingLocked entry (.inr ⟨_, _, rfl⟩)
      · cases taken
        exact .rolledBack entry (.inl rfl)
      · cases taken
        exact .committed entry
      · cases taken
        exact .rolledBack entry (.inr rfl)
    · rename_i claimed
      split at claimed <;> try cases claimed
      · split at claimed <;> cases claimed
      · cases taken
        exact .countFailed entry
      · split at claimed
        · split at claimed <;> cases claimed
        · cases claimed
  · rename_i rest ids phase
    split at taken <;> cases taken
    exact .launched phase ‹_›
  · cases taken

namespace ExecPhase

/-- A failing call of this phase is outside the `try`, or inside the `catch`
block itself, so `executeJob` rejects. -/
def failureEscapes : ExecPhase → Bool
  | .findJob => true
  | .markRunning _ _ => true
  | .createExecution _ _ => true
  | .retry _ _ _ _ => true
  | .deadLetter _ _ => true
  | _ => false

end ExecPhase

inductive ExecStep (world : World) (exec : ExecCall) :
    ExecInput → World → Option ExecCall → Prop where
  | jobMissing :
      exec.phase = .findJob →
      world.jobs.get? exec.jobId = none →
      ExecStep world exec .ok world none
  | found {job : Job} :
      exec.phase = .findJob →
      world.jobs.get? exec.jobId = some job →
      ExecStep world exec .ok world
        (some { exec with
          phase := .markRunning job (world.retryPolicyOf job) })
  | marked {job : Job} {policy : RetryPolicy} :
      exec.phase = .markRunning job policy →
      world.writable exec.jobId = true →
      ExecStep world exec .ok
        (world.updateJob exec.jobId (Job.markRunning world.now))
        (some { exec with phase := .publishRunning job policy })
  | announced {job : Job} {policy : RetryPolicy} {input : ExecInput}
      {next : World} :
      exec.phase = .publishRunning job policy →
      SameRows world next →
      ExecStep world exec input next
        (some { exec with phase := .createExecution job policy })
  | created {job : Job} {policy : RetryPolicy} {id : ExecutionId}
      {executions : Table ExecutionId JobExecution} :
      exec.phase = .createExecution job policy →
      world.executions.insert? id
          { jobId := exec.jobId, workerId := exec.workerId
            attemptNumber := job.attemptCount + 1, startedAt := world.now
            finishedAt := none, status := .running
            errorMessage := none, durationMs := none } = some executions →
      ExecStep world exec (.created id)
        { world with executions := executions }
        (some { exec with
          phase := .handler ⟨job, policy, id, world.now, []⟩ })
  | logged {attempt : Attempt} {level message : String} :
      exec.phase = .handler attempt →
      ExecStep world exec (.log level message) world
        (some { exec with
          phase := .handler
            { attempt with
              logBuffer := attempt.logBuffer ++ [⟨level, message⟩] } })
  | resolved {attempt : Attempt} :
      exec.phase = .handler attempt →
      ExecStep world exec .resolved world
        (some { exec with
          phase := .complete attempt (world.now - attempt.startedAt) })
  | rejected {attempt : Attempt} {error : String} {random : Draw} :
      exec.phase = .handler attempt ∨
        (∃ durationMs, exec.phase = .complete attempt durationMs) →
      ExecStep world exec (.failed error random) world
        (some { exec with phase := handleFailure world attempt error random })
  | completed {attempt : Attempt} {durationMs : Int} :
      exec.phase = .complete attempt durationMs →
      world.writable exec.jobId = true →
      ExecStep world exec .ok
        (world.commitCompleted exec.jobId attempt durationMs)
        (some { exec with phase := .publish attempt.job "completed" })
  | retried {attempt : Attempt} {failure : Failure} {delayMs : Int}
      {runAt : Time} :
      exec.phase = .retry attempt failure delayMs runAt →
      world.writable exec.jobId = true →
      ExecStep world exec .ok
        (world.commitRetry exec.jobId attempt failure delayMs runAt)
        (some { exec with phase := .publish attempt.job "failed_retrying" })
  | deadLettered {attempt : Attempt} {failure : Failure} {next : World} :
      exec.phase = .deadLetter attempt failure →
      world.writable exec.jobId = true →
      world.commitDeadLetter exec.jobId attempt failure = some next →
      ExecStep world exec .ok next
        (some { exec with phase := .publish attempt.job "dead_letter" })
  | published {job : Job} {status : String} {input : ExecInput}
      {next : World} :
      exec.phase = .publish job status →
      SameRows world next →
      ExecStep world exec input next none
  | abandoned {error : String} {random : Draw} :
      exec.phase.failureEscapes = true →
      ExecStep world exec (.failed error random) world none

theorem executeJob_cases {world next : World} {exec : ExecCall}
    {input : ExecInput} {exec' : Option ExecCall}
    (taken : executeJob world exec input = some (next, exec')) :
    ExecStep world exec input next exec' := by
  unfold executeJob at taken
  dsimp only at taken
  split at taken
  · rename_i phase
    split at taken <;> cases taken
    · exact .jobMissing phase ‹_›
    · exact .found phase ‹_›
  · rename_i phase
    cases taken
    exact .abandoned (by simp [phase, ExecPhase.failureEscapes])
  · rename_i phase
    split at taken <;> cases taken
    exact .marked phase ‹_›
  · rename_i phase
    cases taken
    exact .abandoned (by simp [phase, ExecPhase.failureEscapes])
  · cases taken
    exact .announced ‹_› (SameRows.publish _ _)
  · cases taken
    exact .announced ‹_› (SameRows.refl _)
  · rename_i phase
    simp only [Option.map_eq_some_iff] at taken
    obtain ⟨executions, inserted, same⟩ := taken
    cases same
    exact .created phase inserted
  · rename_i phase
    cases taken
    exact .abandoned (by simp [phase, ExecPhase.failureEscapes])
  · cases taken
    exact .logged ‹_›
  · cases taken
    exact .resolved ‹_›
  · cases taken
    exact .rejected (.inl ‹_›)
  · rename_i phase
    split at taken <;> cases taken
    exact .completed phase ‹_›
  · cases taken
    exact .rejected (.inr ⟨_, ‹_›⟩)
  · rename_i phase
    split at taken <;> cases taken
    exact .retried phase ‹_›
  · rename_i phase
    cases taken
    exact .abandoned (by simp [phase, ExecPhase.failureEscapes])
  · rename_i phase
    split at taken
    · simp only [Option.map_eq_some_iff] at taken
      obtain ⟨committed, success, same⟩ := taken
      cases same
      exact .deadLettered phase ‹_› success
    · cases taken
  · rename_i phase
    cases taken
    exact .abandoned (by simp [phase, ExecPhase.failureEscapes])
  · cases taken
    exact .published ‹_› (SameRows.publish _ _)
  · cases taken
    exact .published ‹_› (SameRows.refl _)
  · cases taken

/-- The row that the attempt has read at its start. -/
def ExecPhase.job? : ExecPhase → Option Job
  | .findJob => none
  | .markRunning job _ => some job
  | .publishRunning job _ => some job
  | .createExecution job _ => some job
  | .handler attempt => some attempt.job
  | .complete attempt _ => some attempt.job
  | .retry attempt _ _ _ => some attempt.job
  | .deadLetter attempt _ => some attempt.job
  | .publish job _ => some job

theorem handleFailure_job? (world : World) (attempt : Attempt)
    (error : String) (random : Draw) :
    (handleFailure world attempt error random).job? = some attempt.job := by
  unfold handleFailure
  dsimp only
  split
  · rfl
  · rfl

theorem ExecStep.job? {world next : World} {exec exec' : ExecCall}
    {input : ExecInput}
    (case : ExecStep world exec input next (some exec')) {job : Job}
    (read : exec'.phase.job? = some job) :
    exec.phase.job? = some job ∨ world.jobs.get? exec.jobId = some job := by
  cases case with
  | found _ present =>
      cases read
      exact .inr present
  | marked phase => exact .inl (by rw [phase]; exact read)
  | announced phase => exact .inl (by rw [phase]; exact read)
  | created phase => exact .inl (by rw [phase]; exact read)
  | logged phase => exact .inl (by rw [phase]; exact read)
  | resolved phase => exact .inl (by rw [phase]; exact read)
  | rejected phase =>
      dsimp only at read
      rw [handleFailure_job?] at read
      rcases phase with phase | ⟨_, phase⟩
      · exact .inl (by rw [phase]; exact read)
      · exact .inl (by rw [phase]; exact read)
  | completed phase => exact .inl (by rw [phase]; exact read)
  | retried phase => exact .inl (by rw [phase]; exact read)
  | deadLettered phase => exact .inl (by rw [phase]; exact read)

namespace ReapPhase

/-- The jobs still to come for the current worker, after the one at hand. -/
def current : ReapPhase → Option (WorkerId × List WorkerId × List JobId)
  | .requeue worker workers _ jobIds => some (worker, workers, jobIds)
  | .closeExecutions worker workers _ jobIds _ =>
      some (worker, workers, jobIds)
  | .publish worker workers _ jobIds _ => some (worker, workers, jobIds)
  | _ => none

end ReapPhase

inductive ReapStep (world : World) :
    ReapPhase → ReapInput → World → Option ReapPhase → Prop where
  | staleFound {staleThreshold : Time} {order : List WorkerId} :
      order.Perm (world.staleWorkers staleThreshold) →
      ReapStep world (.findStale staleThreshold) (.rows order) world
        (ReapPhase.nextWorker order)
  | markedDead {worker : WorkerId} {workers : List WorkerId} :
      ReapStep world (.markDead worker workers) .ok
        (world.setWorkerStatus worker .dead)
        (some (.findExecutions worker workers))
  | noOrphans {worker : WorkerId} {workers : List WorkerId}
      {order : List ExecutionId} :
      order.Perm (world.runningExecutions worker) →
      newSet (order.filterMap world.executionJob) = [] →
      ReapStep world (.findExecutions worker workers) (.rows order) world
        (ReapPhase.nextWorker workers)
  | orphansFound {worker : WorkerId} {workers : List WorkerId}
      {order : List ExecutionId} :
      order.Perm (world.runningExecutions worker) →
      ReapStep world (.findExecutions worker workers) (.rows order) world
        (some (.findJobs worker workers
          (newSet (order.filterMap world.executionJob))))
  | jobsFound {worker : WorkerId} {workers : List WorkerId}
      {orphanedJobIds order : List JobId} :
      order.Perm (world.inFlightJobsOf worker) →
      ReapStep world (.findJobs worker workers orphanedJobIds) (.rows order)
        world
        (ReapPhase.nextJob worker workers (newSet (orphanedJobIds ++ order)))
  | requeued {worker : WorkerId} {workers : List WorkerId} {job : JobId}
      {jobIds : List JobId} {row : Job} :
      world.jobs.get? job = some row →
      world.writable job = true →
      ReapStep world (.requeue worker workers job jobIds) .ok
        (world.updateJob job (Job.requeueOrphan world.now))
        (some (.closeExecutions worker workers job jobIds row.queueId))
  | closed {worker : WorkerId} {workers : List WorkerId} {job : JobId}
      {jobIds : List JobId} {queueId : QueueId} :
      ReapStep world (.closeExecutions worker workers job jobIds queueId) .ok
        (world.closeExecutions worker job)
        (some (.publish worker workers job jobIds queueId))
  | published {worker : WorkerId} {workers : List WorkerId} {job : JobId}
      {jobIds : List JobId} {queueId : QueueId} {next : World} :
      SameRows world next →
      ReapStep world (.publish worker workers job jobIds queueId) .ok next
        (ReapPhase.nextJob worker workers jobIds)
  | skipped {phase : ReapPhase} {worker : WorkerId} {workers : List WorkerId}
      {jobIds : List JobId} :
      phase.current = some (worker, workers, jobIds) →
      ReapStep world phase .fail world
        (ReapPhase.nextJob worker workers jobIds)
  | ended {phase : ReapPhase} :
      phase.current = none →
      ReapStep world phase .fail world none

theorem reap_cases {world next : World} {cycle : ReapCall} {input : ReapInput}
    {cycle' : Option ReapCall}
    (taken : reap world cycle input = some (next, cycle')) :
    ∃ phase', ReapStep world cycle.phase input next phase' ∧
      cycle' = phase'.map fun phase => { cycle with phase := phase } := by
  obtain ⟨owner, phase⟩ := cycle
  unfold reap at taken
  dsimp only at taken ⊢
  split at taken
  · split at taken <;> cases taken
    exact ⟨_, .staleFound ‹_›, rfl⟩
  · cases taken
    exact ⟨_, .markedDead, rfl⟩
  · split at taken
    · split at taken <;> cases taken
      · exact ⟨_, .noOrphans ‹_› ‹_›, rfl⟩
      · rename_i shape
        exact ⟨_, .orphansFound ‹_›, by rw [shape]⟩
    · cases taken
  · split at taken <;> cases taken
    exact ⟨_, .jobsFound ‹_›, rfl⟩
  · split at taken
    · cases taken
    · split at taken <;> cases taken
      exact ⟨_, .requeued ‹_› ‹_›, rfl⟩
  · cases taken
    exact ⟨_, .closed, rfl⟩
  · cases taken
    exact ⟨_, .published (SameRows.publish _ _), rfl⟩
  · cases taken
    exact ⟨_, .skipped rfl, rfl⟩
  · cases taken
    exact ⟨_, .skipped rfl, rfl⟩
  · cases taken
    exact ⟨_, .skipped rfl, rfl⟩
  · cases taken
    exact ⟨_, .ended rfl, rfl⟩
  · cases taken
    exact ⟨_, .ended rfl, rfl⟩
  · cases taken
    exact ⟨_, .ended rfl, rfl⟩
  · cases taken
    exact ⟨_, .ended rfl, rfl⟩
  · cases taken

namespace TickPhase

/-- Where the loop goes on when the body throws in this phase. -/
def afterThrow : TickPhase → Option (List DueJob)
  | .deactivate _ defs => some defs
  | .createJob _ _ _ defs => some defs
  | .advance _ _ _ defs => some defs
  | .publish _ _ defs => some defs
  | _ => none

end TickPhase

/-- What the head of the loop body of a tick makes of a definition. -/
inductive Evaluated (library : SchedulerLibrary) (world : World) (due : DueJob)
    (defs : List DueJob) : TickPhase → Prop where
  | skipped : Evaluated library world due defs (.evaluate defs)
  | exhausted :
      library.nextRun due.row.cronExpression world.now = some none →
      Evaluated library world due defs (.deactivate due defs)
  | fires {template : JobTemplate} {nextRun : Time} {job : Job} :
      library.nextRun due.row.cronExpression world.now = some (some nextRun) →
      template.job library due.row.queueId world.now = some job →
      Evaluated library world due defs (.createJob due job nextRun defs)

theorem evaluateDefinition_cases (library : SchedulerLibrary) (world : World)
    (due : DueJob) (defs : List DueJob) :
    Evaluated library world due defs
      (evaluateDefinition library world due defs) := by
  unfold evaluateDefinition
  split
  · exact .skipped
  · split
    · exact .skipped
    · exact .exhausted ‹_›
    · split
      · exact .skipped
      · exact .fires ‹_› ‹_›

inductive TickStep (library : SchedulerLibrary) (world : World) :
    TickPhase → TickInput → World → Option TickPhase → Prop where
  | dueFound {now : Time} {order : List ScheduledJobId} :
      order.Perm (world.dueJobs now) →
      TickStep library world (.findDue now) (.rows order) world
        (some (.evaluate (order.filterMap world.dueJob)))
  | findFailed {now : Time} :
      TickStep library world (.findDue now) .fail world none
  | finished : TickStep library world (.evaluate []) .ok world none
  | evaluated {due : DueJob} {defs : List DueJob} :
      TickStep library world (.evaluate (due :: defs)) .ok world
        (some (evaluateDefinition library world due defs))
  | deactivated {due : DueJob} {defs : List DueJob} :
      TickStep library world (.deactivate due defs) .ok
        (world.deactivate due.id) (some (.evaluate defs))
  | created {due : DueJob} {job : Job} {nextRun : Time} {defs : List DueJob}
      {id : JobId} {next : World} :
      world.createJob id job = some next →
      TickStep library world (.createJob due job nextRun defs) (.created id)
        next (some (.advance due id nextRun defs))
  | advanced {due : DueJob} {newJob : JobId} {nextRun : Time}
      {defs : List DueJob} :
      TickStep library world (.advance due newJob nextRun defs) .ok
        (world.advance due.id nextRun) (some (.publish due newJob defs))
  | published {due : DueJob} {newJob : JobId} {defs : List DueJob}
      {next : World} :
      SameRows world next →
      next.scheduledJobs = world.scheduledJobs →
      TickStep library world (.publish due newJob defs) .ok next
        (some (.evaluate defs))
  | caught {phase : TickPhase} {defs : List DueJob} :
      phase.afterThrow = some defs →
      TickStep library world phase .fail world (some (.evaluate defs))

theorem tick_cases {library : SchedulerLibrary} {world next : World}
    {ticker : TickCall} {input : TickInput} {ticker' : Option TickCall}
    (taken : tick library world ticker input = some (next, ticker')) :
    ∃ phase', TickStep library world ticker.phase input next phase' ∧
      ticker' = phase'.map fun phase => { ticker with phase := phase } := by
  obtain ⟨owner, phase⟩ := ticker
  unfold tick at taken
  dsimp only at taken ⊢
  split at taken
  · split at taken <;> cases taken
    exact ⟨_, .dueFound ‹_›, rfl⟩
  · cases taken
    exact ⟨_, .findFailed, rfl⟩
  · cases taken
    exact ⟨_, .finished, rfl⟩
  · cases taken
    exact ⟨_, .evaluated, rfl⟩
  · cases taken
    exact ⟨_, .deactivated, rfl⟩
  · simp only [Option.map_eq_some_iff] at taken
    obtain ⟨created, success, same⟩ := taken
    cases same
    exact ⟨_, .created success, rfl⟩
  · cases taken
    exact ⟨_, .advanced, rfl⟩
  · cases taken
    exact ⟨_, .published (SameRows.publish _ _) rfl, rfl⟩
  · cases taken
    exact ⟨_, .caught rfl, rfl⟩
  · cases taken
    exact ⟨_, .caught rfl, rfl⟩
  · cases taken
    exact ⟨_, .caught rfl, rfl⟩
  · cases taken
    exact ⟨_, .caught rfl, rfl⟩
  · cases taken

namespace Call

def isRequest : Call → Bool
  | .submit _ => true
  | .batch _ => true
  | .retry _ => true
  | .cancel _ => true
  | _ => false

end Call

/-- What comes after the check of the idempotency key. -/
inductive KeyChecked (queueId : QueueId) (body : CreateJobBody) (queue : Queue)
    (now : Time) : SubmitPhase → Prop where
  | oneShot :
      truthy body.cronExpression = false →
      KeyChecked queueId body queue now
        (.createJob queue (body.job queueId queue now))
  | cron {expr : String} :
      body.cronExpression = some expr →
      expr ≠ "" →
      isValidCron expr = true →
      KeyChecked queueId body queue now
        (.createScheduled queue
          { projectId := queue.projectId, cronExpression := expr
            queueId := queueId, jobTemplate := body.jobTemplate
            isActive := true, lastRunAt := none
            nextRunAt := some (computeNextRunAt expr now), createdAt := now })
  | malformed {expr : String} :
      body.cronExpression = some expr →
      expr ≠ "" →
      isValidCron expr = false →
      KeyChecked queueId body queue now (.answered 400)

theorem afterKeyCheck_cases (queueId : QueueId) (body : CreateJobBody)
    (queue : Queue) (now : Time) :
    KeyChecked queueId body queue now
      (afterKeyCheck queueId body queue now) := by
  unfold afterKeyCheck
  split
  · rename_i expr given
    split
    · rename_i empty
      exact .oneShot (by simp [given, empty, truthy])
    · rename_i notEmpty
      split
      · rename_i valid
        exact .cron given notEmpty valid
      · rename_i invalid
        exact .malformed given notEmpty (by simpa using invalid)
  · rename_i absent
    exact .oneShot (by simp [absent, truthy])

inductive SubmitStep (world : World) (queueId : QueueId)
    (body : CreateJobBody) :
    SubmitPhase → ApiInput → World → SubmitPhase → Prop where
  | queueMissing :
      world.queues.get? queueId = none →
      SubmitStep world queueId body .findQueue .ok world (.answered 404)
  | keyGiven {queue : Queue} :
      world.queues.get? queueId = some queue →
      truthy body.idempotencyKey = true →
      SubmitStep world queueId body .findQueue .ok world (.findKey queue)
  | keyAbsent {queue : Queue} {phase' : SubmitPhase} :
      world.queues.get? queueId = some queue →
      truthy body.idempotencyKey = false →
      KeyChecked queueId body queue world.now phase' →
      SubmitStep world queueId body .findQueue .ok world phase'
  | keyTaken {queue : Queue} :
      world.keyTaken queueId body.idempotencyKey = true →
      SubmitStep world queueId body (.findKey queue) .ok world (.answered 409)
  | keyFree {queue : Queue} {phase' : SubmitPhase} :
      world.keyTaken queueId body.idempotencyKey = false →
      KeyChecked queueId body queue world.now phase' →
      SubmitStep world queueId body (.findKey queue) .ok world phase'
  | scheduledCreated {queue : Queue} {row : ScheduledJob}
      {id : ScheduledJobId} {next : World} :
      world.createScheduledJob id row = some next →
      SubmitStep world queueId body (.createScheduled queue row)
        (.created [id]) next (.publishScheduled queue id)
  | scheduledPublished {queue : Queue} {id : ScheduledJobId} :
      SubmitStep world queueId body (.publishScheduled queue id) .ok
        (world.publishApi "scheduled_job:created" none none queueId
          queue.projectId none id) (.answered 201)
  | jobCreated {queue : Queue} {job : Job} {id : JobId} {next : World} :
      world.createJob id job = some next →
      SubmitStep world queueId body (.createJob queue job) (.created [id])
        next (.publishJob queue id job)
  | jobPublished {queue : Queue} {id : JobId} {job : Job} :
      SubmitStep world queueId body (.publishJob queue id job) .ok
        (world.publishApi "" id (some job.status.text) queueId
          queue.projectId none none) (.answered 201)
  | keyClashed {queue : Queue} {job : Job} :
      world.keyTaken queueId job.idempotencyKey = true →
      SubmitStep world queueId body (.createJob queue job)
        (.fail .uniqueViolation) world (.answered 409)
  | failed {phase : SubmitPhase} :
      (∀ status, phase ≠ .answered status) →
      SubmitStep world queueId body phase (.fail .other) world (.answered 500)

theorem submitJob_cases {world next : World} {queueId : QueueId}
    {body : CreateJobBody} {phase : SubmitPhase} {call' : SubmitCall}
    {input : ApiInput}
    (taken : submitJob world ⟨queueId, body, phase⟩ input =
      some (next, call')) :
    ∃ phase', call' = ⟨queueId, body, phase'⟩ ∧
      SubmitStep world queueId body phase input next phase' := by
  unfold submitJob at taken
  dsimp only at taken
  split at taken
  · split at taken
    · cases taken
      exact ⟨_, rfl, .queueMissing ‹_›⟩
    · split at taken <;> cases taken
      · exact ⟨_, rfl, .keyGiven ‹_› ‹_›⟩
      · rename_i found absent
        exact ⟨_, rfl, .keyAbsent found (by simpa using absent)
          (afterKeyCheck_cases ..)⟩
  · split at taken <;> cases taken
    · exact ⟨_, rfl, .keyTaken ‹_›⟩
    · rename_i isFree
      exact ⟨_, rfl, .keyFree (by simpa using isFree)
        (afterKeyCheck_cases ..)⟩
  · split at taken <;> cases taken
    exact ⟨_, rfl, .scheduledCreated ‹_›⟩
  · cases taken
    exact ⟨_, rfl, .scheduledPublished⟩
  · split at taken <;> cases taken
    exact ⟨_, rfl, .jobCreated ‹_›⟩
  · cases taken
    exact ⟨_, rfl, .jobPublished⟩
  · split at taken <;> cases taken
    exact ⟨_, rfl, .keyClashed ‹_›⟩
  · cases taken
  · rename_i unanswered
    cases taken
    exact ⟨_, rfl, .failed unanswered⟩
  · cases taken

/-- A step of a batch submission; the phase stands apart from the call. -/
inductive BatchStep (world : World) (call : BatchCall) :
    BatchPhase → ApiInput → World → BatchPhase → Prop where
  | queueMissing {batchId : String} :
      world.queues.get? call.queueId = none →
      BatchStep world call .findQueue (.nonce batchId) world (.answered 404)
  | keysAbsent {queue : Queue} {batchId : String} :
      world.queues.get? call.queueId = some queue →
      call.keysInBatch = [] →
      BatchStep world call .findQueue (.nonce batchId) world
        (.createJobs queue batchId (call.jobData queue batchId world.now))
  | keysGiven {queue : Queue} {batchId : String} :
      world.queues.get? call.queueId = some queue →
      call.keysInBatch ≠ [] →
      BatchStep world call .findQueue (.nonce batchId) world
        (.findKeys queue batchId world.now)
  | keysTaken {queue : Queue} {batchId : String} {now : Time} :
      call.keysInBatch.any (world.keyTaken call.queueId) = true →
      BatchStep world call (.findKeys queue batchId now) .ok world
        (.answered 409)
  | keysFree {queue : Queue} {batchId : String} {now : Time} :
      call.keysInBatch.any (world.keyTaken call.queueId) = false →
      BatchStep world call (.findKeys queue batchId now) .ok world
        (.createJobs queue batchId (call.jobData queue batchId now))
  | created {queue : Queue} {batchId : String} {rows : List Job}
      {ids : List JobId} {next : World} :
      ids.length = rows.length →
      world.createJobs (ids.zip rows) = some next →
      BatchStep world call (.createJobs queue batchId rows) (.created ids)
        next (.publish queue batchId)
  | published {queue : Queue} {batchId : String} :
      BatchStep world call (.publish queue batchId) .ok
        (world.publishApi "batch:created" none none call.queueId
          queue.projectId (some batchId) none) (.answered 201)
  | keyClashed {queue : Queue} {batchId : String} {rows : List Job} :
      BatchStep world call (.createJobs queue batchId rows)
        (.fail .uniqueViolation) world (.answered 409)
  | failed {phase : BatchPhase} :
      (∀ status, phase ≠ .answered status) →
      BatchStep world call phase (.fail .other) world (.answered 500)

theorem submitBatch_cases {world next : World} {call call' : BatchCall}
    {input : ApiInput}
    (taken : submitBatch world call input = some (next, call')) :
    ∃ phase', call' = { call with phase := phase' } ∧
      BatchStep world call call.phase input next phase' := by
  obtain ⟨queueId, jobs, phase⟩ := call
  unfold submitBatch at taken
  dsimp only at taken ⊢
  split at taken
  · split at taken
    · cases taken
      exact ⟨_, rfl, .queueMissing ‹_›⟩
    · split at taken <;> cases taken
      · exact ⟨_, rfl, .keysAbsent ‹_› ‹_›⟩
      · exact ⟨_, rfl, .keysGiven ‹_› ‹_›⟩
  · split at taken <;> cases taken
    · exact ⟨_, rfl, .keysTaken ‹_›⟩
    · rename_i areFree
      exact ⟨_, rfl, .keysFree (by simpa using areFree)⟩
  · split at taken
    · split at taken <;> cases taken
      exact ⟨_, rfl, .created ‹_› ‹_›⟩
    · cases taken
  · cases taken
    exact ⟨_, rfl, .published⟩
  · cases taken
    exact ⟨_, rfl, .keyClashed⟩
  · cases taken
  · rename_i unanswered
    cases taken
    exact ⟨_, rfl, .failed unanswered⟩
  · cases taken

inductive RetryStep (world : World) (job : JobId) :
    RetryPhase → ApiInput → World → RetryPhase → Prop where
  | jobMissing :
      world.jobs.get? job = none →
      RetryStep world job .findJob .ok world (.answered 404)
  | allowed {row : Job} :
      world.jobs.get? job = some row →
      row.status.retryable = true →
      RetryStep world job .findJob .ok world
        (.transaction row.queueId (world.projectOf row.queueId)
          (world.deadLetters.get? job).isSome)
  | refused {row : Job} :
      world.jobs.get? job = some row →
      row.status.retryable = false →
      RetryStep world job .findJob .ok world (.answered 400)
  | committed {queueId : QueueId} {project : Option ProjectId}
      {deadLetter : Bool} :
      world.writable job = true →
      (deadLetter → (world.deadLetters.get? job).isSome) →
      RetryStep world job (.transaction queueId project deadLetter) .ok
        (world.commitManualRetry job deadLetter) (.publish queueId project)
  | published {queueId : QueueId} {project : Option ProjectId} :
      RetryStep world job (.publish queueId project) .ok
        (world.publishApi "job:retried" job (some "queued") queueId project
          none none) (.answered 200)
  | failed {phase : RetryPhase} :
      (∀ status, phase ≠ .answered status) →
      RetryStep world job phase (.fail .other) world (.answered 500)

theorem retryJob_cases {world next : World} {job : JobId} {phase : RetryPhase}
    {call' : RetryCall} {input : ApiInput}
    (taken : retryJob world ⟨job, phase⟩ input = some (next, call')) :
    ∃ phase', call' = ⟨job, phase'⟩ ∧
      RetryStep world job phase input next phase' := by
  unfold retryJob at taken
  dsimp only at taken
  split at taken
  · split at taken
    · cases taken
      exact ⟨_, rfl, .jobMissing ‹_›⟩
    · split at taken <;> cases taken
      · exact ⟨_, rfl, .allowed ‹_› ‹_›⟩
      · rename_i found refused
        exact ⟨_, rfl, .refused found (by simpa using refused)⟩
  · split at taken <;> cases taken
    rename_i possible
    exact ⟨_, rfl, .committed possible.1 possible.2⟩
  · cases taken
    exact ⟨_, rfl, .published⟩
  · cases taken
  · rename_i unanswered
    cases taken
    exact ⟨_, rfl, .failed unanswered⟩
  · cases taken

inductive CancelStep (world : World) (job : JobId) :
    CancelPhase → ApiInput → World → CancelPhase → Prop where
  | jobMissing :
      world.jobs.get? job = none →
      CancelStep world job .findJob .ok world (.answered 404)
  | allowed {row : Job} :
      world.jobs.get? job = some row →
      row.status.cancellable = true →
      CancelStep world job .findJob .ok world
        (.update row.queueId (world.projectOf row.queueId))
  | refused {row : Job} :
      world.jobs.get? job = some row →
      row.status.cancellable = false →
      CancelStep world job .findJob .ok world (.answered 400)
  | committed {queueId : QueueId} {project : Option ProjectId} :
      world.writable job = true →
      CancelStep world job (.update queueId project) .ok
        (world.updateJob job (Job.cancel world.now)) (.publish queueId project)
  | published {queueId : QueueId} {project : Option ProjectId} :
      CancelStep world job (.publish queueId project) .ok
        (world.publishApi "job:cancelled" job (some "cancelled") queueId
          project none none) (.answered 200)
  | failed {phase : CancelPhase} :
      (∀ status, phase ≠ .answered status) →
      CancelStep world job phase (.fail .other) world (.answered 500)

theorem cancelJob_cases {world next : World} {job : JobId}
    {phase : CancelPhase} {call' : CancelCall} {input : ApiInput}
    (taken : cancelJob world ⟨job, phase⟩ input = some (next, call')) :
    ∃ phase', call' = ⟨job, phase'⟩ ∧
      CancelStep world job phase input next phase' := by
  unfold cancelJob at taken
  dsimp only at taken
  split at taken
  · split at taken
    · cases taken
      exact ⟨_, rfl, .jobMissing ‹_›⟩
    · split at taken <;> cases taken
      · exact ⟨_, rfl, .allowed ‹_› ‹_›⟩
      · rename_i found refused
        exact ⟨_, rfl, .refused found (by simpa using refused)⟩
  · split at taken <;> cases taken
    exact ⟨_, rfl, .committed ‹_›⟩
  · cases taken
    exact ⟨_, rfl, .published⟩
  · cases taken
  · rename_i unanswered
    cases taken
    exact ⟨_, rfl, .failed unanswered⟩
  · cases taken

/-- A step of a handler stays with its kind of request. -/
inductive HandleStep (world : World) (input : ApiInput) (next : World) :
    Call → Call → Prop where
  | submit {call call' : SubmitCall} :
      submitJob world call input = some (next, call') →
      HandleStep world input next (.submit call) (.submit call')
  | batch {call call' : BatchCall} :
      submitBatch world call input = some (next, call') →
      HandleStep world input next (.batch call) (.batch call')
  | retry {call call' : RetryCall} :
      retryJob world call input = some (next, call') →
      HandleStep world input next (.retry call) (.retry call')
  | cancel {call call' : CancelCall} :
      cancelJob world call input = some (next, call') →
      HandleStep world input next (.cancel call) (.cancel call')

theorem handle_cases {world next : World} {call call' : Call}
    {input : ApiInput} (handled : handle world call input = some (next, call')) :
    HandleStep world input next call call' := by
  cases call with
  | submit call =>
      simp only [handle, Option.map_eq_some_iff] at handled
      obtain ⟨⟨_, _⟩, success, same⟩ := handled
      cases same
      exact .submit success
  | batch call =>
      simp only [handle, Option.map_eq_some_iff] at handled
      obtain ⟨⟨_, _⟩, success, same⟩ := handled
      cases same
      exact .batch success
  | retry call =>
      simp only [handle, Option.map_eq_some_iff] at handled
      obtain ⟨⟨_, _⟩, success, same⟩ := handled
      cases same
      exact .retry success
  | cancel call =>
      simp only [handle, Option.map_eq_some_iff] at handled
      obtain ⟨⟨_, _⟩, success, same⟩ := handled
      cases same
      exact .cancel success
  | poll => cases handled
  | exec => cases handled
  | reap => cases handled
  | tick => cases handled

inductive ApiStep (world : World) :
    Call → ApiInput → World → Call → Prop where
  | silent {call call' : Call} {input : ApiInput} {next : World} :
      SameRows world next →
      call.isRequest = true →
      call'.isRequest = true →
      ApiStep world call input next call'
  | submitted {call : SubmitCall} {queue : Queue} {job : Job} {id : JobId}
      {next : World} :
      call.phase = .createJob queue job →
      world.createJob id job = some next →
      ApiStep world (.submit call) (.created [id]) next
        (.submit { call with phase := .publishJob queue id job })
  | batchSubmitted {call : BatchCall} {queue : Queue} {batchId : String}
      {rows : List Job} {ids : List JobId} {next : World} :
      call.phase = .createJobs queue batchId rows →
      ids.length = rows.length →
      world.createJobs (ids.zip rows) = some next →
      ApiStep world (.batch call) (.created ids) next
        (.batch { call with phase := .publish queue batchId })
  | retried {call : RetryCall} {queueId : QueueId}
      {project : Option ProjectId} {deadLetter : Bool} :
      call.phase = .transaction queueId project deadLetter →
      world.writable call.jobId = true →
      ApiStep world (.retry call) .ok
        (world.commitManualRetry call.jobId deadLetter)
        (.retry { call with phase := .publish queueId project })
  | cancelled {call : CancelCall} {queueId : QueueId}
      {project : Option ProjectId} :
      call.phase = .update queueId project →
      world.writable call.jobId = true →
      ApiStep world (.cancel call) .ok
        (world.updateJob call.jobId (Job.cancel world.now))
        (.cancel { call with phase := .publish queueId project })

namespace ApiStep

variable {world next : World} {input : ApiInput}

private theorem unchanged {κ : Type} {call : κ} {call' : κ} {wrap : κ → Call}
    (isRequest : ∀ value, (wrap value).isRequest = true)
    (same : SameRows world next) :
    ApiStep world (wrap call) input next (wrap call') :=
  .silent same (isRequest call) (isRequest call')

private theorem submitCases {call call' : SubmitCall}
    (taken : submitJob world call input = some (next, call')) :
    ApiStep world (.submit call) input next (.submit call') := by
  have silent : ∀ {call call'} {next}, SameRows world next →
      ApiStep world (.submit call) input next (.submit call') :=
    fun same => unchanged (fun _ => rfl) same
  obtain ⟨queueId, body, phase⟩ := call
  obtain ⟨phase', rfl, case⟩ := submitJob_cases taken
  cases case with
  | scheduledCreated created => exact silent (.createScheduledJob created)
  | scheduledPublished => exact silent (.publish _ _)
  | jobCreated created => exact .submitted rfl created
  | jobPublished => exact silent (.publish _ _)
  | _ => exact silent (.refl _)

private theorem batchCases {call call' : BatchCall}
    (taken : submitBatch world call input = some (next, call')) :
    ApiStep world (.batch call) input next (.batch call') := by
  have silent : ∀ {call call'} {next}, SameRows world next →
      ApiStep world (.batch call) input next (.batch call') :=
    fun same => unchanged (fun _ => rfl) same
  obtain ⟨queueId, jobs, phase⟩ := call
  obtain ⟨phase', rfl, case⟩ := submitBatch_cases taken
  cases case with
  | created sameLength created => exact .batchSubmitted rfl sameLength created
  | published => exact silent (.publish _ _)
  | _ => exact silent (.refl _)

private theorem retryCases {call call' : RetryCall}
    (taken : retryJob world call input = some (next, call')) :
    ApiStep world (.retry call) input next (.retry call') := by
  have silent : ∀ {call call'} {next}, SameRows world next →
      ApiStep world (.retry call) input next (.retry call') :=
    fun same => unchanged (fun _ => rfl) same
  obtain ⟨job, phase⟩ := call
  obtain ⟨phase', rfl, case⟩ := retryJob_cases taken
  cases case with
  | committed writable => exact .retried rfl writable
  | published => exact silent (.publish _ _)
  | _ => exact silent (.refl _)

private theorem cancelCases {call call' : CancelCall}
    (taken : cancelJob world call input = some (next, call')) :
    ApiStep world (.cancel call) input next (.cancel call') := by
  have silent : ∀ {call call'} {next}, SameRows world next →
      ApiStep world (.cancel call) input next (.cancel call') :=
    fun same => unchanged (fun _ => rfl) same
  obtain ⟨job, phase⟩ := call
  obtain ⟨phase', rfl, case⟩ := cancelJob_cases taken
  cases case with
  | committed writable => exact .cancelled rfl writable
  | published => exact silent (.publish _ _)
  | _ => exact silent (.refl _)

theorem of_handle {call call' : Call}
    (taken : handle world call input = some (next, call')) :
    ApiStep world call input next call' := by
  cases handle_cases taken with
  | submit success => exact submitCases success
  | batch success => exact batchCases success
  | retry success => exact retryCases success
  | cancel success => exact cancelCases success

end ApiStep

end Chronos
