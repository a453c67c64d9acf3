import Chronos.Outcomes

/-!
# Executions of different jobs

`pollCycle` launches `executeJob` for every claimed job and waits for none of
them, and the header of `executor.ts` promises that concurrent invocations
are isolated.  Here each handler follows a script.  What a call leaves of its
job is then a function of the script and of the rows at the launch, however
the steps of the calls are interleaved.
-/

namespace Chronos

/-! ## Records without generated ids and times -/

namespace Job

def timeless (job : Job) : Job := { job with runAt := 0, updatedAt := 0 }

/-- What an attempt keeps of the row until its outcome. -/
def core (job : Job) : Job := { job.timeless with status := .claimed }

end Job

namespace JobExecution

def timeless (execution : JobExecution) : JobExecution :=
  { execution with
    startedAt := 0, finishedAt := execution.finishedAt.map fun _ => 0 }

end JobExecution

namespace DeadLetterJob

def timeless (letter : DeadLetterJob) : DeadLetterJob :=
  { letter with movedAt := 0 }

end DeadLetterJob

/-- The rows of one job: its own, its executions in the order of their
creation, each with its log lines, and its dead letter. -/
structure JobRecords where
  row : Option Job
  executions : List (JobExecution × List LogEntry)
  deadLetter : Option DeadLetterJob

namespace World

def linesOf (world : World) (execution : ExecutionId) : List LogEntry :=
  (world.logsOf execution).map fun log => ⟨log.level, log.message⟩

def recordsOf (world : World) (job : JobId) : JobRecords where
  row := (world.jobs.get? job).map Job.timeless
  executions := (world.executionsOf job).map fun entry =>
    (entry.2.timeless, world.linesOf entry.1)
  deadLetter := (world.deadLetters.get? job).map DeadLetterJob.timeless

end World

/-! ## Scripts -/

/-- How a handler ends.  A rejection comes with the random draw that the retry
uses. -/
inductive Settlement where
  | resolved
  | rejected (error : String) (random : Draw)

/-- What the handler of a job does: the lines it logs, the time it takes and
how it ends. -/
structure Script where
  lines : List LogEntry
  durationMs : Int
  settlement : Settlement

/-- A call of `executeJob` and the script of its handler. -/
structure Launch where
  call : CallId
  job : JobId
  worker : WorkerId
  script : Script

/-- The awaited call may end so: no database call fails, and the handler
settles as the script has it, after its lines and at its time.  A message may
be lost. -/
def Script.Admits (script : Script) (now : Time) :
    ExecPhase → ExecInput → Prop
  | .handler attempt, .resolved =>
      attempt.logBuffer = script.lines ∧
        now - attempt.startedAt = script.durationMs ∧
        script.settlement = .resolved
  | .handler attempt, .failed error random =>
      attempt.logBuffer = script.lines ∧
        now - attempt.startedAt = script.durationMs ∧
        script.settlement = .rejected error random
  | .publishRunning _ _, _ => True
  | .publish _ _, _ => True
  | _, .failed _ _ => False
  | _, _ => True

namespace Launch

/-- The execution that the call creates. -/
def opened (launch : Launch) (row : Job) (startedAt : Time) : JobExecution where
  jobId := launch.job
  workerId := launch.worker
  attemptNumber := row.attemptCount + 1
  startedAt := startedAt
  finishedAt := none
  status := .running
  errorMessage := none
  durationMs := none

/-- The records after a transaction that ends the attempt. -/
def ends (launch : Launch) (row : Job) (before : JobRecords)
    (update : Job → Job) (status : ExecutionStatus) (error : Option String)
    (level message : String) (deadLetter : Option DeadLetterJob) :
    JobRecords where
  row := some (update row).timeless
  executions := before.executions ++
    [(((launch.opened row 0).finish status 0 launch.script.durationMs
        error).timeless,
      ⟨level, message⟩ :: launch.script.lines)]
  deadLetter := deadLetter

/-- What the call leaves of its job if nothing disturbs it. -/
def leaves (launch : Launch) (row : Job) (policy : RetryPolicy)
    (before : JobRecords) : JobRecords :=
  let durationMs := launch.script.durationMs
  let number := row.attemptCount + 1
  match launch.script.settlement with
  | .resolved =>
      launch.ends row before (Job.complete 0) .completed none "info"
        s!"Job completed successfully in {durationMs}ms" before.deadLetter
  | .rejected error random =>
      if (number : Int) < policy.maxAttempts then
        let delayMs := policy.delay number random
        launch.ends row before (Job.requeueForRetry number 0 0) .failed error
          "error"
          s!"Job failed (attempt {number}/{policy.maxAttempts}): {error}. Retrying in {delayMs}ms"
          before.deadLetter
      else
        launch.ends row before (Job.moveToDeadLetter number 0) .failed error
          "error"
          s!"Job moved to dead letter queue after {number} attempts: {error}"
          (some
            { queueId := row.queueId
              payload := Json.orElse (some row.payload) (.obj [])
              failureReason := error
              attemptCount := number
              movedAt := 0 })

end Launch

/-! ## What the steps of a call leave alone -/

namespace RecordsKept

variable {job : JobId} {world next after : World}

theorem refl : RecordsKept job world world :=
  ⟨rfl, rfl, fun _ _ => rfl, rfl⟩

theorem recordsOf (kept : RecordsKept job world next) :
    next.recordsOf job = world.recordsOf job := by
  have lines : ∀ entry ∈ world.executionsOf job,
      (entry.2.timeless, next.linesOf entry.1) =
        (entry.2.timeless, world.linesOf entry.1) := by
    intro entry member
    rw [World.linesOf, World.linesOf, kept.logs entry member]
  simp only [World.recordsOf]
  rw [kept.row, kept.executions, kept.deadLetter, List.map_congr_left lines]

end RecordsKept

theorem World.logsOf_flushLogs_of_ne (world : World) {attempt : Attempt}
    {id : ExecutionId} (other : id ≠ attempt.execution)
    (level message : String) :
    (world.flushLogs attempt level message).logsOf id = world.logsOf id := by
  unfold logsOf flushLogs appendLogs
  rw [List.filter_append]
  apply List.append_right_eq_self.mpr
  apply List.filter_eq_nil_iff.mpr
  intro log member
  obtain ⟨entry, _, rfl⟩ := List.mem_map.mp member
  exact fun same => other (of_decide_eq_true same).symm

theorem RecordsKept.of_ended {job owner : JobId} {world next : World}
    {attempt : Attempt} {execution : JobExecution} {update : Job → Job}
    {status : ExecutionStatus} {durationMs : Int} {error : Option String}
    {level message : String} (other : owner ≠ job)
    (found : world.executions.get? attempt.execution = some execution)
    (ofOwner : execution.jobId = owner)
    (jobs : next.jobs = world.jobs.modify owner update)
    (executions : next.executions =
      world.executions.modify attempt.execution
        (JobExecution.finish status world.now durationMs error))
    (logs : next.logs = (world.flushLogs attempt level message).logs)
    (letters : next.deadLetters.get? job = world.deadLetters.get? job) :
    RecordsKept job world next where
  row := by
    rw [jobs]
    exact Table.get?_modify_of_ne _ _ (Ne.symm other)
  executions := by
    unfold World.executionsOf
    rw [executions]
    have outside : decide (execution.jobId = job) = false := by
      rw [ofOwner]
      exact decide_eq_false other
    exact Table.rowsWhere_modify_of_not (fun _ => rfl) found outside
  logs := by
    intro entry member
    have stored := mem_executionsOf.mp member
    have distinct : entry.1 ≠ attempt.execution := by
      intro same
      rw [same, found] at stored
      cases stored.1
      exact other (ofOwner.symm.trans stored.2)
    unfold World.logsOf
    rw [logs]
    exact world.logsOf_flushLogs_of_ne distinct level message
  deadLetter := letters

section Frame

variable {env : Env} {state next : State} {call : CallId} {exec : ExecCall}
  {input : ExecInput} {job : JobId}

theorem recordsKept_of_exec (rows : AttemptRows state)
    (taken : step env state (.exec call input) = some next)
    (called : state.calls call = some (.exec exec))
    (other : exec.jobId ≠ job) : RecordsKept job state.world next.world := by
  have quiet := step_exec_logs taken called
  cases step_acting taken rfl called with
  | exec executes =>
      generalize next.world = world at executes quiet ⊢
      cases executeJob_cases executes with
      | marked =>
          refine ⟨?_, rfl, fun _ _ => rfl, rfl⟩
          exact Table.get?_modify_of_ne _ _ (Ne.symm other)
      | announced phase same =>
          exact .of_sameRows same (quiet (by rw [phase]; rfl))
      | published phase same =>
          exact .of_sameRows same (quiet (by rw [phase]; rfl))
      | created phase inserted =>
          refine ⟨rfl, ?_, fun _ _ => rfl, rfl⟩
          have extended := Table.rowsWhere_insert?
            (fun execution => execution.jobId = job) inserted
          rw [if_neg (by simpa using other), List.append_nil] at extended
          exact extended
      | completed phase =>
          obtain ⟨execution, found, ofOwner⟩ :=
            rows called (by rw [phase]; rfl)
          exact .of_ended other found ofOwner rfl rfl rfl rfl
      | retried phase =>
          obtain ⟨execution, found, ofOwner⟩ :=
            rows called (by rw [phase]; rfl)
          exact .of_ended other found ofOwner rfl rfl rfl rfl
      | @deadLettered attempt _ _ phase _ success =>
          obtain ⟨execution, found, ofOwner⟩ :=
            rows called (by rw [phase]; rfl)
          simp only [World.commitDeadLetter, Option.map_eq_some_iff] at success
          obtain ⟨letters, inserted, rfl⟩ := success
          refine .of_ended other found ofOwner rfl rfl rfl ?_
          exact (Table.get?_insert? inserted).trans (if_neg (Ne.symm other))
      | _ => exact .refl

end Frame

/-! ## How far a call has come -/

/-- The attempt has no outcome yet.  Since the launch the job got these
executions, its status has changed, and nothing else. -/
structure Pending (job : JobId) (before world : World) (row : Job)
    (opened : List (ExecutionId × JobExecution)) : Prop where
  row : ∃ row', world.jobs.get? job = some row' ∧ row'.core = row.core
  executions : world.executionsOf job = before.executionsOf job ++ opened
  logs : ∀ entry ∈ before.executionsOf job,
    world.logsOf entry.1 = before.logsOf entry.1
  deadLetter : world.deadLetters.get? job = before.deadLetters.get? job

/-- Where the call stands and what it has written, if it was launched on this
row. -/
inductive Reached (launch : Launch) (before world : World) (row : Job) :
    Standing → Prop where
  | unread :
      Pending launch.job before world row [] →
      world.jobs.get? launch.job = some row →
      Reached launch before world row (.awaiting .findJob)
  | marking :
      Pending launch.job before world row [] →
      Reached launch before world row
        (.awaiting (.markRunning row (before.retryPolicyOf row)))
  | announcing :
      Pending launch.job before world row [] →
      Reached launch before world row
        (.awaiting (.publishRunning row (before.retryPolicyOf row)))
  | creating :
      Pending launch.job before world row [] →
      Reached launch before world row
        (.awaiting (.createExecution row (before.retryPolicyOf row)))
  | handling {id : ExecutionId} {startedAt : Time} {buffer : List LogEntry} :
      Pending launch.job before world row
        [(id, launch.opened row startedAt)] →
      Reached launch before world row
        (.awaiting (.handler
          ⟨row, before.retryPolicyOf row, id, startedAt, buffer⟩))
  | completing {id : ExecutionId} {startedAt : Time} :
      Pending launch.job before world row
        [(id, launch.opened row startedAt)] →
      launch.script.settlement = .resolved →
      Reached launch before world row
        (.awaiting (.complete
          ⟨row, before.retryPolicyOf row, id, startedAt, launch.script.lines⟩
          launch.script.durationMs))
  | retrying {id : ExecutionId} {startedAt runAt : Time} {error : String}
      {random : Draw} :
      Pending launch.job before world row
        [(id, launch.opened row startedAt)] →
      launch.script.settlement = .rejected error random →
      ((row.attemptCount + 1 : Nat) : Int) <
        (before.retryPolicyOf row).maxAttempts →
      Reached launch before world row
        (.awaiting (.retry
          ⟨row, before.retryPolicyOf row, id, startedAt, launch.script.lines⟩
          ⟨launch.script.durationMs, error⟩
          ((before.retryPolicyOf row).delay (row.attemptCount + 1) random)
          runAt))
  | burying {id : ExecutionId} {startedAt : Time} {error : String}
      {random : Draw} :
      Pending launch.job before world row
        [(id, launch.opened row startedAt)] →
      launch.script.settlement = .rejected error random →
      ¬((row.attemptCount + 1 : Nat) : Int) <
        (before.retryPolicyOf row).maxAttempts →
      Reached launch before world row
        (.awaiting (.deadLetter
          ⟨row, before.retryPolicyOf row, id, startedAt, launch.script.lines⟩
          ⟨launch.script.durationMs, error⟩))
  | announcingOutcome {snapshot : Job} {status : String} :
      world.recordsOf launch.job =
        launch.leaves row (before.retryPolicyOf row)
          (before.recordsOf launch.job) →
      Reached launch before world row (.awaiting (.publish snapshot status))
  | settled :
      world.recordsOf launch.job =
        launch.leaves row (before.retryPolicyOf row)
          (before.recordsOf launch.job) →
      Reached launch before world row .settled

section Reaching

variable {launch : Launch} {before world next : World} {row : Job}
  {opened : List (ExecutionId × JobExecution)}

theorem Pending.recordsKept {job : JobId}
    (pending : Pending job before world row opened)
    (kept : RecordsKept job world next) :
    Pending job before next row opened where
  row := by
    rw [kept.row]
    exact pending.row
  executions := kept.executions.trans pending.executions
  logs := by
    intro entry member
    have present : entry ∈ world.executionsOf job := by
      rw [pending.executions]
      exact List.mem_append_left _ member
    exact (kept.logs entry present).trans (pending.logs entry member)
  deadLetter := kept.deadLetter.trans pending.deadLetter

theorem Reached.recordsKept {standing : Standing}
    (reached : Reached launch before world row standing)
    (kept : RecordsKept launch.job world next) :
    Reached launch before next row standing := by
  cases reached with
  | unread pending found =>
      exact .unread (pending.recordsKept kept) (kept.row.trans found)
  | marking pending => exact .marking (pending.recordsKept kept)
  | announcing pending => exact .announcing (pending.recordsKept kept)
  | creating pending => exact .creating (pending.recordsKept kept)
  | handling pending => exact .handling (pending.recordsKept kept)
  | completing pending resolved =>
      exact .completing (pending.recordsKept kept) resolved
  | retrying pending rejected more =>
      exact .retrying (pending.recordsKept kept) rejected more
  | burying pending rejected last =>
      exact .burying (pending.recordsKept kept) rejected last
  | announcingOutcome left =>
      exact .announcingOutcome (kept.recordsOf.trans left)
  | settled left => exact .settled (kept.recordsOf.trans left)

theorem Pending.marked {job : JobId} (pending : Pending job before world row [])
    (now : Time) :
    Pending job before (world.updateJob job (Job.markRunning now)) row [] where
  row := by
    obtain ⟨row', found, same⟩ := pending.row
    refine ⟨row'.markRunning now, ?_, same⟩
    exact (Table.get?_modify_self ..).trans (by rw [found]; rfl)
  executions := pending.executions
  logs := pending.logs
  deadLetter := pending.deadLetter

theorem Pending.created {job : JobId} {id : ExecutionId}
    {execution : JobExecution} {executions : Table ExecutionId JobExecution}
    (pending : Pending job before world row [])
    (inserted : world.executions.insert? id execution = some executions)
    (ofJob : execution.jobId = job) :
    Pending job before { world with executions := executions } row
      [(id, execution)] where
  row := pending.row
  executions := by
    have rows := Table.rowsWhere_insert? (fun row => row.jobId = job) inserted
    rw [if_pos (decide_eq_true ofJob)] at rows
    have earlier := pending.executions
    rw [List.append_nil] at earlier
    rw [← earlier]
    exact rows
  logs := pending.logs
  deadLetter := pending.deadLetter

theorem Pending.stored {job : JobId} {id : ExecutionId}
    {execution : JobExecution}
    (pending : Pending job before world row [(id, execution)]) :
    world.executions.get? id = some execution := by
  have member : (id, execution) ∈ world.executionsOf job := by
    rw [pending.executions]
    exact List.mem_append_right _ List.mem_cons_self
  exact (mem_executionsOf.mp member).1

theorem Pending.fresh {job : JobId} {id : ExecutionId}
    {execution : JobExecution}
    (pending : Pending job before world row [(id, execution)])
    {entry : ExecutionId × JobExecution}
    (member : entry ∈ before.executionsOf job) : entry.1 ≠ id := by
  have distinct := world.executions.nodup_rowsWhere
    fun execution => execution.jobId = job
  have rows := pending.executions
  unfold World.executionsOf at rows
  rw [rows, List.map_append, List.nodup_append] at distinct
  exact distinct.2.2 _ (List.mem_map_of_mem member) id (by simp)

theorem Pending.ends {id : ExecutionId} {startedAt now : Time}
    {attempt : Attempt} {update update' : Job → Job} {status : ExecutionStatus}
    {error : Option String} {level message : String}
    {letter : Option DeadLetterJob}
    (pending : Pending launch.job before world row
      [(id, launch.opened row startedAt)])
    (closed : world.LogsClosed) (isExecution : attempt.execution = id)
    (buffer : attempt.logBuffer = launch.script.lines)
    (same : ∀ row' : Job, row'.core = row.core →
      (update row').timeless = (update' row).timeless)
    (jobs : next.jobs = world.jobs.modify launch.job update)
    (executions : next.executions =
      world.executions.modify id
        (JobExecution.finish status now launch.script.durationMs error))
    (logs : next.logs = (world.flushLogs attempt level message).logs)
    (letters : (next.deadLetters.get? launch.job).map DeadLetterJob.timeless =
      letter) :
    next.recordsOf launch.job =
      launch.ends row (before.recordsOf launch.job) update' status error level
        message letter := by
  obtain ⟨row', found, core⟩ := pending.row
  have earlier : ∀ entry ∈ before.executionsOf launch.job,
      (entry.2.timeless, next.linesOf entry.1) =
        (entry.2.timeless, before.linesOf entry.1) := by
    intro entry member
    have other : entry.1 ≠ attempt.execution := by
      rw [isExecution]
      exact pending.fresh member
    have kept : next.logsOf entry.1 = world.logsOf entry.1 := by
      unfold World.logsOf
      rw [logs]
      exact world.logsOf_flushLogs_of_ne other level message
    rw [World.linesOf, World.linesOf, kept, pending.logs entry member]
  have latest : next.linesOf id = ⟨level, message⟩ :: launch.script.lines := by
    have flushed := world.logsOf_flushLogs attempt level message
    rw [isExecution, closed.logsOf_running pending.stored rfl, List.nil_append,
      buffer] at flushed
    have read : next.logsOf id =
        (world.flushLogs attempt level message).logsOf id := by
      unfold World.logsOf
      rw [logs]
    rw [World.linesOf, read, flushed, List.map_map]
    exact List.map_id _
  have written : next.executionsOf launch.job =
      before.executionsOf launch.job ++
        [(id, (launch.opened row startedAt).finish status now
          launch.script.durationMs error)] := by
    unfold World.executionsOf
    rw [executions]
    exact Table.rowsWhere_modify_last (fun _ => rfl) pending.executions
  unfold World.recordsOf Launch.ends
  rw [jobs, Table.get?_modify_self, found, written, letters, List.map_append,
    List.map_congr_left earlier, List.map_singleton, latest]
  congr 1
  exact congrArg some (same row' core)

theorem Pending.rejected {id : ExecutionId} {startedAt : Time} {error : String}
    {random : Draw}
    (pending : Pending launch.job before world row
      [(id, launch.opened row startedAt)])
    (settles : launch.script.settlement = .rejected error random)
    (duration : world.now - startedAt = launch.script.durationMs) :
    Reached launch before world row
      (.awaiting (handleFailure world
        ⟨row, before.retryPolicyOf row, id, startedAt, launch.script.lines⟩
        error random)) := by
  unfold handleFailure
  dsimp only
  rw [duration]
  split
  · rename_i more
    exact .retrying pending settles more
  · rename_i last
    exact .burying pending settles last

theorem Script.Admits.not_escaping {script : Script} {now : Time}
    {phase : ExecPhase} {error : String} {random : Draw}
    (admits : script.Admits now phase (.failed error random)) :
    ¬phase.failureEscapes = true := by
  intro escapes
  cases phase with
  | publishRunning => cases escapes
  | handler => cases escapes
  | complete => cases escapes
  | publish => cases escapes
  | findJob => exact admits
  | markRunning => exact admits
  | createExecution => exact admits
  | retry => exact admits
  | deadLetter => exact admits

theorem ExecStep.reached {phase : ExecPhase} {input : ExecInput}
    {exec' : Option ExecCall}
    (case : ExecStep world ⟨launch.job, launch.worker, phase⟩ input next exec')
    (reached : Reached launch before world row (.awaiting phase))
    (admits : launch.script.Admits world.now phase input)
    (closed : world.LogsClosed)
    (policy : world.retryPolicyOf row = before.retryPolicyOf row)
    (silent : phase.closes = none → next.logs = world.logs) :
    Reached launch before next row (.ofCall exec') := by
  cases case with
  | jobMissing isPhase absent =>
      cases isPhase
      cases reached with
      | unread _ found => exact absurd (absent.symm.trans found) nofun
  | found isPhase present =>
      cases isPhase
      cases reached with
      | unread pending found =>
          cases present.symm.trans found
          rw [policy]
          exact .marking pending
  | marked isPhase =>
      cases isPhase
      cases reached with
      | marking pending => exact .announcing (pending.marked _)
  | announced isPhase same =>
      cases isPhase
      cases reached with
      | announcing pending =>
          have kept : RecordsKept launch.job world next :=
            .of_sameRows same (silent rfl)
          exact .creating (pending.recordsKept kept)
  | created isPhase inserted =>
      cases isPhase
      cases reached with
      | creating pending => exact .handling (pending.created inserted rfl)
  | logged isPhase =>
      cases isPhase
      cases reached with
      | handling pending => exact .handling pending
  | resolved isPhase =>
      cases isPhase
      cases reached with
      | handling pending =>
          obtain ⟨lines, duration, settles⟩ := admits
          dsimp only at lines duration
          rw [duration, lines]
          exact .completing pending settles
  | rejected isPhase =>
      rcases isPhase with isPhase | ⟨_, isPhase⟩
      · cases isPhase
        cases reached with
        | handling pending =>
            obtain ⟨lines, duration, settles⟩ := admits
            dsimp only at lines
            rw [lines]
            exact pending.rejected settles duration
      · cases isPhase
        cases admits
  | completed isPhase =>
      cases isPhase
      cases reached with
      | completing pending settles =>
          apply Reached.announcingOutcome
          rw [Launch.leaves, settles]
          exact pending.ends closed rfl rfl
            (fun _ core => congrArg (fun job : Job =>
              { job with status := .completed }) core)
            rfl rfl rfl (congrArg _ pending.deadLetter)
  | retried isPhase =>
      cases isPhase
      cases reached with
      | retrying pending settles more =>
          apply Reached.announcingOutcome
          rw [Launch.leaves, settles]
          dsimp only
          rw [if_pos more]
          exact pending.ends closed rfl rfl
            (fun _ core => congrArg (fun job : Job =>
              { job with
                status := .queued, attemptCount := row.attemptCount + 1 })
              core)
            rfl rfl rfl (congrArg _ pending.deadLetter)
  | deadLettered isPhase _ success =>
      cases isPhase
      cases reached with
      | burying pending settles last =>
          apply Reached.announcingOutcome
          rw [Launch.leaves, settles]
          dsimp only
          rw [if_neg last]
          simp only [World.commitDeadLetter, Option.map_eq_some_iff] at success
          obtain ⟨letters, inserted, rfl⟩ := success
          have letter := (Table.get?_insert? inserted).trans (if_pos rfl)
          exact pending.ends closed rfl rfl
            (fun _ core => congrArg (fun job : Job =>
              { job with
                status := .deadLetter, attemptCount := row.attemptCount + 1 })
              core)
            rfl rfl rfl (congrArg (Option.map DeadLetterJob.timeless) letter)
  | published isPhase same =>
      cases isPhase
      have kept : RecordsKept launch.job world next :=
        .of_sameRows same (silent rfl)
      cases reached with
      | announcingOutcome left => exact .settled (kept.recordsOf.trans left)
  | abandoned escapes => exact (admits.not_escaping escapes).elim

end Reaching

/-! ## Interleavings -/

/-- A step of one of the calls, as its script has it, or of the clock. -/
inductive Scheduled (launches : List Launch)
    (transition : Transition State Action) : Prop where
  | own {launch : Launch} {phase : ExecPhase} {input : ExecInput} :
      launch ∈ launches →
      transition.action = .exec launch.call input →
      transition.before.calls launch.call =
        some (.exec ⟨launch.job, launch.worker, phase⟩) →
      launch.script.Admits transition.before.world.now phase input →
      Scheduled launches transition
  | clock {now : Time} :
      transition.action = .advance now → Scheduled launches transition

/-- The calls have just been launched, on different jobs. -/
structure Launched (launches : List Launch) (start : State) : Prop where
  distinct : (launches.map (·.job)).Nodup
  called : ∀ launch ∈ launches,
    start.calls launch.call =
      some (.exec ⟨launch.job, launch.worker, .findJob⟩)
  claimed : ∀ launch ∈ launches, ∃ row,
    start.world.jobs.get? launch.job = some row ∧ row.status = .claimed

/-- The calls run to their ends, their steps in any order, and nobody else
takes a step. -/
structure Interleaving (env : Env) (launches : List Launch) (start : State)
    (trace : List (Transition State Action)) (last : State) : Prop where
  run : Run (step env) start trace last
  scheduled : ∀ transition ∈ trace, Scheduled launches transition
  settled : ∀ launch ∈ launches, last.calls launch.call = none

/-- The calls run one after another, in the order of the list. -/
inductive SerialRun (env : Env) :
    List Launch → State → List (Transition State Action) → State → Prop where
  | nil {state : State} : SerialRun env [] state [] state
  | cons {launch : Launch} {launches : List Launch} {start middle last : State}
      {trace later : List (Transition State Action)} :
      Interleaving env [launch] start trace middle →
      SerialRun env launches middle later last →
      SerialRun env (launch :: launches) start (trace ++ later) last

section Interleavings

variable {env : Env} {launches : List Launch} {start last : State}
  {trace : List (Transition State Action)} {launch : Launch}

theorem Scheduled.begins {transition : Transition State Action}
    (scheduled : Scheduled launches transition) :
    transition.action.begins = none ∧ transition.action.exiting = none := by
  cases scheduled with
  | own _ action =>
      rw [action]
      exact ⟨rfl, rfl⟩
  | clock action =>
      rw [action]
      exact ⟨rfl, rfl⟩

theorem Launched.eq_of_job (launched : Launched launches start)
    (member : launch ∈ launches) {other : Launch} (otherMember : other ∈ launches)
    (same : other.job = launch.job) : other = launch :=
  List.inj_on_of_nodup_map launched.distinct otherMember member same

theorem Scheduled.recordsKept {transition : Transition State Action}
    {job : JobId} (scheduled : Scheduled launches transition)
    (rows : AttemptRows transition.before)
    (taken : step env transition.before transition.action =
      some transition.after)
    (other : ∀ launch ∈ launches, launch.job = job →
      transition.action.actor ≠ some launch.call) :
    RecordsKept job transition.before.world transition.after.world := by
  cases scheduled with
  | @own launch phase input member action called =>
      rw [action] at taken
      apply recordsKept_of_exec rows taken called
      intro same
      apply other launch member same
      rw [action]
      rfl
  | clock action =>
      rw [action] at taken
      simp only [step, Option.ite_none_right_eq_some, Option.some.injEq] at taken
      rw [← taken.2]
      exact ⟨rfl, rfl, fun _ _ => rfl, rfl⟩

theorem Interleaving.history (interleaved :
      Interleaving env launches start trace last)
    (launched : Launched launches start) (member : launch ∈ launches) :
    ExecRun env launch.call launch.job launch.worker start trace last
      .settled := by
  apply settled_execRun_of_run interleaved.run (launched.called launch member)
  · intro transition inTrace
    obtain ⟨begins, exiting⟩ := (interleaved.scheduled transition inTrace).begins
    rw [begins, exiting]
    exact ⟨nofun, nofun⟩
  · exact interleaved.settled launch member

theorem Launched.admits (launched : Launched launches start)
    (member : launch ∈ launches) {transition : Transition State Action}
    (scheduled : Scheduled launches transition) {phase : ExecPhase}
    {input : ExecInput} (action : transition.action = .exec launch.call input)
    (called : transition.before.calls launch.call =
      some (.exec ⟨launch.job, launch.worker, phase⟩)) :
    launch.script.Admits transition.before.world.now phase input := by
  cases scheduled with
  | @own other _ _ otherMember otherAction otherCalled admits =>
      rw [action, Action.exec.injEq] at otherAction
      obtain ⟨sameCall, rfl⟩ := otherAction
      rw [← sameCall, called, Option.some.injEq, Call.exec.injEq,
        ExecCall.mk.injEq] at otherCalled
      obtain ⟨sameJob, -, rfl⟩ := otherCalled
      rw [launched.eq_of_job member otherMember sameJob.symm] at admits
      exact admits
  | clock advances =>
      rw [action] at advances
      cases advances

theorem ExecRun.reached {standing : Standing} {row : Job}
    (history : ExecRun env launch.call launch.job launch.worker start trace last
      standing)
    (launched : Launched launches start) (member : launch ∈ launches)
    (rows : AttemptRows start) (closed : start.world.LogsClosed)
    (scheduled : ∀ transition ∈ trace, Scheduled launches transition)
    (found : start.world.jobs.get? launch.job = some row) :
    Reached launch start.world last.world row standing := by
  induction history with
  | launched =>
      refine .unread ⟨⟨row, found, rfl⟩, ?_, fun _ _ => rfl, rfl⟩ found
      exact (List.append_nil _).symm
  | @own trace state next phase input exec' history taken case _ induction =>
      rw [List.forall_mem_append, List.forall_mem_singleton] at scheduled
      have called := history.calls
      apply case.reached (induction scheduled.1)
      · exact launched.admits member scheduled.2 rfl called
      · exact logsClosed_of_run history.run rows closed
      · exact retryPolicyOf_of_run history.run row
      · exact step_exec_logs taken called
  | @meanwhile trace state next standing action history taken other _
      induction =>
      rw [List.forall_mem_append, List.forall_mem_singleton] at scheduled
      have rows : AttemptRows state := AttemptRows.run rows history.run
      apply (induction scheduled.1).recordsKept
      apply scheduled.2.recordsKept rows taken
      intro launch' member' same
      rw [launched.eq_of_job member member' same]
      exact other
  | stopped history taken _ induction =>
      rw [List.forall_mem_append, List.forall_mem_singleton] at scheduled
      cases scheduled.2.begins.2

/-- What the calls leave of their jobs does not depend on the order of the
steps. -/
theorem Interleaving.recordsOf_launch
    (interleaved : Interleaving env launches start trace last)
    (launched : Launched launches start) (member : launch ∈ launches)
    (rows : AttemptRows start) (closed : start.world.LogsClosed) {row : Job}
    (found : start.world.jobs.get? launch.job = some row) :
    last.world.recordsOf launch.job =
      launch.leaves row (start.world.retryPolicyOf row)
        (start.world.recordsOf launch.job) := by
  have history := interleaved.history launched member
  have reached := history.reached launched member rows closed
    interleaved.scheduled found
  cases reached with
  | settled left => exact left

theorem Interleaving.recordsOf_other
    (interleaved : Interleaving env launches start trace last)
    (rows : AttemptRows start) {job : JobId}
    (other : ∀ launch ∈ launches, launch.job ≠ job) :
    last.world.recordsOf job = start.world.recordsOf job := by
  obtain ⟨run, scheduled, -⟩ := interleaved
  induction run with
  | nil => rfl
  | @snoc trace state next action run taken induction =>
      rw [List.forall_mem_append, List.forall_mem_singleton] at scheduled
      have rows : AttemptRows state := AttemptRows.run rows run
      have kept : RecordsKept job state.world next.world := by
        apply scheduled.2.recordsKept rows taken
        intro launch member same
        exact (other launch member same).elim
      exact kept.recordsOf.trans (induction scheduled.1)

theorem Interleaving.calls_none
    (interleaved : Interleaving env launches start trace last) {call : CallId}
    (settled : start.calls call = none) : last.calls call = none := by
  obtain ⟨run, scheduled, -⟩ := interleaved
  induction run with
  | nil => exact settled
  | snoc _ taken induction =>
      rw [List.forall_mem_append, List.forall_mem_singleton] at scheduled
      apply step_calls_none taken (induction scheduled.1)
      rw [scheduled.2.begins.1]
      exact nofun

theorem Scheduled.mono {launches' : List Launch}
    {transition : Transition State Action}
    (scheduled : Scheduled launches transition)
    (subset : launches ⊆ launches') : Scheduled launches' transition := by
  cases scheduled with
  | own member action called admits =>
      exact .own (subset member) action called admits
  | clock action => exact .clock action

/-- Running the calls one after another is one of the interleavings. -/
theorem SerialRun.interleaving
    (serial : SerialRun env launches start trace last) :
    Interleaving env launches start trace last := by
  induction serial with
  | nil => exact ⟨.nil, List.forall_mem_nil _, List.forall_mem_nil _⟩
  | @cons launch launches start middle last trace later single _ rest =>
      constructor
      case run => exact single.run.append rest.run
      case scheduled =>
        intro transition member
        rcases List.mem_append.mp member with earlier | later
        · apply (single.scheduled transition earlier).mono
          intro other member
          rw [List.mem_singleton.mp member]
          exact List.mem_cons_self
        · exact (rest.scheduled transition later).mono
            (List.subset_cons_self launch launches)
      case settled =>
        intro other member
        rcases List.mem_cons.mp member with rfl | member
        · exact rest.calls_none (single.settled other List.mem_cons_self)
        · exact rest.settled other member

theorem Launched.perm {order : List Launch} (launched : Launched launches start)
    (permuted : order.Perm launches) : Launched order start where
  distinct := (permuted.map _).nodup_iff.mpr launched.distinct
  called launch member := launched.called launch (permuted.mem_iff.mp member)
  claimed launch member := launched.claimed launch (permuted.mem_iff.mp member)

theorem Interleaving.recordsOf_eq {order : List Launch} {last' : State}
    {trace' : List (Transition State Action)}
    (interleaved : Interleaving env launches start trace last)
    (other : Interleaving env order start trace' last')
    (permuted : order.Perm launches) (launched : Launched launches start)
    (rows : AttemptRows start) (closed : start.world.LogsClosed) (job : JobId) :
    last'.world.recordsOf job = last.world.recordsOf job := by
  by_cases ofLaunch : ∃ launch ∈ launches, launch.job = job
  · obtain ⟨launch, member, rfl⟩ := ofLaunch
    obtain ⟨row, found, _⟩ := launched.claimed launch member
    have inOrder : launch ∈ order := permuted.mem_iff.mpr member
    rw [interleaved.recordsOf_launch launched member rows closed found,
      other.recordsOf_launch (launched.perm permuted) inOrder rows closed found]
  · have foreign : ∀ launch ∈ launches, launch.job ≠ job :=
      fun launch member same => ofLaunch ⟨launch, member, same⟩
    have foreign' : ∀ launch ∈ order, launch.job ≠ job :=
      fun launch member => foreign launch (permuted.mem_iff.mp member)
    rw [interleaved.recordsOf_other rows foreign,
      other.recordsOf_other rows foreign']

end Interleavings

end Chronos
