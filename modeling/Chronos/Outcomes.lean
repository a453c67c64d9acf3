import Chronos.ExecutorRuns

/-!
# What an attempt records

The three transactions of `executeJob` that end an attempt: the job row, the
execution, its log lines and the dead letter change together.  The lines of an
execution are written by these transactions alone, so a running execution has
none.
-/

namespace Chronos

/-! ## Who writes log lines -/

namespace World

/-- The log lines of an execution, in the order in which they were stored. -/
def logsOf (world : World) (execution : ExecutionId) : List JobLog :=
  world.logs.filter fun log => log.executionId = execution

/-- Log lines belong to executions that have ended. -/
def LogsClosed (world : World) : Prop :=
  ∀ log ∈ world.logs, ∃ execution,
    world.executions.get? log.executionId = some execution ∧
      execution.status ≠ .running

theorem logsOf_flushLogs (world : World) (attempt : Attempt)
    (level message : String) :
    (world.flushLogs attempt level message).logsOf attempt.execution =
      world.logsOf attempt.execution ++
        ((⟨level, message⟩ :: attempt.logBuffer).map fun entry =>
          ⟨attempt.execution, world.now, entry.level, entry.message⟩) := by
  unfold logsOf flushLogs appendLogs
  rw [List.filter_append]
  congr 1
  apply List.filter_eq_self.mpr
  intro log member
  obtain ⟨entry, _, rfl⟩ := List.mem_map.mp member
  exact decide_eq_true rfl

theorem LogsClosed.logsOf_running {world : World} (closed : world.LogsClosed)
    {id : ExecutionId} {execution : JobExecution}
    (found : world.executions.get? id = some execution)
    (running : execution.status = .running) : world.logsOf id = [] := by
  apply List.filter_eq_nil_iff.mpr
  intro log member same
  obtain ⟨other, otherFound, ended⟩ := closed log member
  rw [of_decide_eq_true same, found] at otherFound
  cases otherFound
  exact ended running

end World

/-- The log after a step that writes it. -/
inductive LogsWrite (state : State) : Action → List JobLog → Prop where
  | flushed {call : CallId} {exec : ExecCall} {attempt : Attempt}
      {status : ExecutionStatus} {durationMs : Int} {error : Option String}
      {level message : String} :
      state.calls call = some (.exec exec) →
      exec.phase.closes = some (attempt, status, durationMs, error) →
      LogsWrite state (.exec call .ok)
        (state.world.flushLogs attempt level message).logs

section Steps

variable {env : Env} {state next : State} {action : Action}

theorem executeJob_logs {call : CallId} {exec : ExecCall} {input : ExecInput}
    {world : World} {exec' : Option ExecCall}
    (called : state.calls call = some (.exec exec))
    (taken : executeJob state.world exec input = some (world, exec')) :
    world.logs = state.world.logs ∨
      LogsWrite state (.exec call input) world.logs := by
  cases executeJob_cases taken with
  | announced phase =>
      simp only [executeJob, phase] at taken
      cases input <;> cases taken <;> exact .inl rfl
  | published phase =>
      simp only [executeJob, phase] at taken
      cases input <;> cases taken <;> exact .inl rfl
  | completed phase => exact .inr (.flushed called (by rw [phase]; rfl))
  | retried phase => exact .inr (.flushed called (by rw [phase]; rfl))
  | deadLettered phase _ success =>
      simp only [World.commitDeadLetter, Option.map_eq_some_iff] at success
      obtain ⟨_, _, rfl⟩ := success
      exact .inr (.flushed called (by rw [phase]; rfl))
  | _ => exact .inl rfl

theorem reap_logs {world next : World} {cycle : ReapCall} {input : ReapInput}
    {cycle' : Option ReapCall}
    (taken : reap world cycle input = some (next, cycle')) :
    next.logs = world.logs := by
  obtain ⟨owner, phase⟩ := cycle
  obtain ⟨_, case, _⟩ := reap_cases taken
  dsimp only at case
  cases case with
  | published =>
      cases taken
      rfl
  | _ => rfl

theorem tick_logs {library : SchedulerLibrary} {world next : World}
    {ticker : TickCall} {input : TickInput} {ticker' : Option TickCall}
    (taken : tick library world ticker input = some (next, ticker')) :
    next.logs = world.logs := by
  obtain ⟨owner, phase⟩ := ticker
  obtain ⟨_, case, _⟩ := tick_cases taken
  dsimp only at case
  cases case with
  | published =>
      cases taken
      rfl
  | created success => rw [(World.createJob_spec success).1]
  | _ => rfl

theorem handle_logs {world next : World} {call call' : Call} {input : ApiInput}
    (taken : handle world call input = some (next, call')) :
    next.logs = world.logs := by
  cases handle_cases taken with
  | @submit call _ success =>
      obtain ⟨queueId, body, phase⟩ := call
      obtain ⟨_, _, case⟩ := submitJob_cases success
      cases case with
      | scheduledCreated created =>
          obtain ⟨_, _, rfl⟩ := World.createScheduledJob_spec created
          rfl
      | jobCreated created => rw [(World.createJob_spec created).1]
      | _ => rfl
  | @batch call _ success =>
      obtain ⟨queueId, jobs, phase⟩ := call
      obtain ⟨_, _, case⟩ := submitBatch_cases success
      dsimp only at case
      cases case with
      | created _ created => rw [(World.createJobs_spec created).1]
      | _ => rfl
  | @retry call _ success =>
      obtain ⟨job, phase⟩ := call
      obtain ⟨_, _, case⟩ := retryJob_cases success
      cases case <;> rfl
  | @cancel call _ success =>
      obtain ⟨job, phase⟩ := call
      obtain ⟨_, _, case⟩ := cancelJob_cases success
      cases case <;> rfl

theorem step_logs (taken : step env state action = some next) :
    next.world.logs = state.world.logs ∨
      LogsWrite state action next.world.logs := by
  cases step_cases taken with
  | registered success =>
      obtain ⟨_, _, rfl⟩ := World.registerWorker_eq_some success
      exact .inl rfl
  | poll _ case => exact .inl (by rw [case.frame])
  | exec called =>
      cases step_acting taken rfl called with
      | exec executes => exact executeJob_logs called executes
  | reap called =>
      cases step_acting taken rfl called with
      | reap success => exact .inl (reap_logs success)
  | tick called =>
      cases step_acting taken rfl called with
      | tick success => exact .inl (tick_logs success)
  | api _ _ handled => exact .inl (handle_logs handled)
  | _ => exact .inl rfl

/-- Only the transaction that ends an attempt stores log lines. -/
theorem step_exec_logs {call : CallId} {exec : ExecCall} {input : ExecInput}
    (taken : step env state (.exec call input) = some next)
    (called : state.calls call = some (.exec exec))
    (quiet : exec.phase.closes = none) : next.world.logs = state.world.logs := by
  rcases step_logs taken with same | write
  · exact same
  · generalize next.world.logs = logs at write
    cases write with
    | flushed called' closes =>
        cases called.symm.trans called'
        exact absurd (quiet.symm.trans closes) nofun

theorem ExecPhase.attempt?_of_closes {phase : ExecPhase} {attempt : Attempt}
    {status : ExecutionStatus} {durationMs : Int} {error : Option String}
    (closes : phase.closes = some (attempt, status, durationMs, error)) :
    phase.attempt? = some attempt ∧ status ≠ .running := by
  cases phase <;> cases closes <;> exact ⟨rfl, by simp⟩

theorem step_closes {call : CallId} {exec : ExecCall} {attempt : Attempt}
    {status : ExecutionStatus} {durationMs : Int} {error : Option String}
    (taken : step env state (.exec call .ok) = some next)
    (called : state.calls call = some (.exec exec))
    (closes : exec.phase.closes = some (attempt, status, durationMs, error)) :
    next.world.executions =
      state.world.executions.modify attempt.execution
        (JobExecution.finish status state.world.now durationMs error) := by
  have read : ∀ {phase : ExecPhase}, exec.phase = phase →
      phase.closes = some (attempt, status, durationMs, error) := by
    rintro phase rfl
    exact closes
  cases step_acting taken rfl called with
  | exec executes =>
      generalize next.world = world at executes ⊢
      cases executeJob_cases executes with
      | completed phase =>
          cases read phase
          rfl
      | retried phase =>
          cases read phase
          rfl
      | deadLettered phase _ success =>
          cases read phase
          obtain ⟨_, _, _, rfl⟩ := World.commitDeadLetter_spec success
          rfl
      | jobMissing phase => cases read phase
      | found phase => cases read phase
      | marked phase => cases read phase
      | announced phase => cases read phase
      | published phase => cases read phase

theorem LogsClosed.step (closed : state.world.LogsClosed)
    (rows : AttemptRows state)
    (taken : Chronos.step env state action = some next) :
    next.world.LogsClosed := by
  have kept : ∀ log ∈ state.world.logs, ∃ execution,
      next.world.executions.get? log.executionId = some execution ∧
        execution.status ≠ .running := by
    intro log member
    obtain ⟨execution, found, ended⟩ := closed log member
    obtain ⟨execution', found', _, _, _, final⟩ := step_execution taken found
    exact ⟨execution', found', final ended⟩
  rcases step_logs taken with same | write
  · intro log member
    rw [same] at member
    exact kept log member
  · intro log member
    generalize next.world.logs = logs at write member
    cases write with
    | @flushed call exec attempt status durationMs error _ _ called closes =>
        obtain ⟨isAttempt, ended⟩ := ExecPhase.attempt?_of_closes closes
        obtain ⟨execution, found, _⟩ := rows called isAttempt
        have after := step_closes taken called closes
        rcases List.mem_append.mp member with old | new
        · exact kept log old
        · obtain ⟨entry, _, rfl⟩ := List.mem_map.mp new
          refine ⟨execution.finish status state.world.now durationMs error,
            ?_, ended⟩
          rw [after, Table.get?_modify_self, found]
          rfl

end Steps

/-! ## All or nothing -/

/-- The line that the handler logs. -/
def ExecInput.line? : ExecInput → Option LogEntry
  | .log level message => some ⟨level, message⟩
  | _ => none

/-- The line that the handler of this call logs in this step. -/
def Action.handlerLine (call : CallId) : Action → Option LogEntry
  | .exec acting input => if acting = call then input.line? else none
  | _ => none

/-- What the handler has logged so far. -/
def handlerLines (call : CallId) (trace : List (Transition State Action)) :
    List LogEntry :=
  trace.filterMap fun transition => transition.action.handlerLine call

/-- The step leaves the records of the job alone: its row, its executions and
their log lines, and its dead letter. -/
structure RecordsKept (job : JobId) (world next : World) : Prop where
  row : next.jobs.get? job = world.jobs.get? job
  executions : next.executionsOf job = world.executionsOf job
  logs : ∀ entry ∈ world.executionsOf job,
    next.logsOf entry.1 = world.logsOf entry.1
  deadLetter : next.deadLetters.get? job = world.deadLetters.get? job

/-- The records of the job tell of a whole outcome or of none.  `before` is
the world in which the attempt was launched. -/
structure WholeOutcome (job : JobId) (before world : World)
    (lines : List LogEntry) : Prop where
  completed : ∀ row, world.jobs.get? job = some row →
    row.status = .completed →
    ∃ id execution durationMs,
      (world.executionsOf job).getLast? = some (id, execution) ∧
      execution.status = .completed ∧
      execution.finishedAt.isSome = true ∧
      execution.durationMs = some durationMs ∧
      (world.logsOf id).map (fun log => LogEntry.mk log.level log.message) =
        ⟨"info", s!"Job completed successfully in {durationMs}ms"⟩ :: lines
  deadLettered : ∀ row, world.jobs.get? job = some row →
    row.status = .deadLetter →
    ∃ id execution letter,
      (world.executionsOf job).getLast? = some (id, execution) ∧
      execution.status = .failed ∧
      row.attemptCount = execution.attemptNumber ∧
      world.deadLetters.get? job = some letter ∧
      letter.attemptCount = execution.attemptNumber
  queued : ∀ row, world.jobs.get? job = some row → row.status = .queued →
    ∃ id execution,
      (world.executionsOf job).getLast? = some (id, execution) ∧
      execution.status = .failed ∧
      row.attemptCount = execution.attemptNumber
  running : ∀ id execution,
    (world.executionsOf job).getLast? = some (id, execution) →
    execution.status = .running →
    world.logsOf id = [] ∧
      world.deadLetters.get? job = before.deadLetters.get? job

/-- The attempt has no execution yet. -/
structure Unstarted (job : JobId) (before world : World) : Prop where
  inFlight : ∃ row, world.jobs.get? job = some row ∧
    row.status.inFlight = true
  deadLetter : world.deadLetters.get? job = before.deadLetters.get? job

/-- The attempt has an execution without an outcome. -/
structure Executing (job : JobId) (before world : World) (attempt : Attempt) :
    Prop where
  inFlight : ∃ row, world.jobs.get? job = some row ∧
    row.status.inFlight = true
  deadLetter : world.deadLetters.get? job = before.deadLetters.get? job
  latest : ∃ earlier execution,
    world.executionsOf job = earlier ++ [(attempt.execution, execution)] ∧
      execution.status = .running ∧
      execution.attemptNumber = attempt.number

/-- One of the three transactions has committed. -/
inductive Ended (job : JobId) (world : World) (lines : List LogEntry) :
    Prop where
  | completed {row : Job} {earlier : List (ExecutionId × JobExecution)}
      {id : ExecutionId} {execution : JobExecution} {durationMs : Int} :
      world.jobs.get? job = some row →
      row.status = .completed →
      world.executionsOf job = earlier ++ [(id, execution)] →
      execution.status = .completed →
      execution.finishedAt.isSome = true →
      execution.durationMs = some durationMs →
      (world.logsOf id).map (fun log => LogEntry.mk log.level log.message) =
        ⟨"info", s!"Job completed successfully in {durationMs}ms"⟩ :: lines →
      Ended job world lines
  | failed {row : Job} {earlier : List (ExecutionId × JobExecution)}
      {id : ExecutionId} {execution : JobExecution} :
      world.jobs.get? job = some row →
      row.status = .queued ∨ (row.status = .deadLetter ∧
        ∃ letter, world.deadLetters.get? job = some letter ∧
          letter.attemptCount = execution.attemptNumber) →
      world.executionsOf job = earlier ++ [(id, execution)] →
      execution.status = .failed →
      row.attemptCount = execution.attemptNumber →
      Ended job world lines

/-- How much is recorded, as far as the call has come. -/
inductive Recorded (job : JobId) (before world : World)
    (lines : List LogEntry) : Standing → Prop where
  | unstarted {phase : ExecPhase} :
      phase.attempt? = none →
      Unstarted job before world →
      lines = [] →
      Recorded job before world lines (.awaiting phase)
  | executing {phase : ExecPhase} {attempt : Attempt} :
      phase.attempt? = some attempt →
      Executing job before world attempt →
      attempt.logBuffer = lines →
      Recorded job before world lines (.awaiting phase)
  | ended {snapshot : Job} {status : String} :
      Ended job world lines →
      Recorded job before world lines (.awaiting (.publish snapshot status))
  | finished {standing : Standing} :
      (∀ phase, standing ≠ .awaiting phase) →
      Unstarted job before world ∨
        (∃ attempt, Executing job before world attempt) ∨
        Ended job world lines →
      Recorded job before world lines standing

section Whole

variable {job : JobId} {before world next : World} {lines : List LogEntry}

theorem mem_executionsOf {entry : ExecutionId × JobExecution} :
    entry ∈ world.executionsOf job ↔
      world.executions.get? entry.1 = some entry.2 ∧ entry.2.jobId = job := by
  rw [← Table.mem_rows_iff]
  simp [World.executionsOf, Table.rowsWhere]

theorem WholeOutcome.of_inFlight (closed : world.LogsClosed)
    (inFlight : ∃ row, world.jobs.get? job = some row ∧
      row.status.inFlight = true)
    (deadLetter : world.deadLetters.get? job = before.deadLetters.get? job) :
    WholeOutcome job before world lines := by
  obtain ⟨row, found, flying⟩ := inFlight
  have excluded : ∀ {row' : Job} {status : JobStatus},
      world.jobs.get? job = some row' → row'.status = status →
      status.inFlight = true := by
    intro row' status found' isStatus
    cases found.symm.trans found'
    rw [← isStatus, flying]
  constructor
  · intro row' found' completed
    cases excluded found' completed
  · intro row' found' dead
    cases excluded found' dead
  · intro row' found' queued
    cases excluded found' queued
  · intro id execution latest running
    have stored := (mem_executionsOf.mp (List.mem_of_getLast? latest)).1
    exact ⟨closed.logsOf_running stored running, deadLetter⟩

theorem Ended.whole (ended : Ended job world lines) :
    WholeOutcome job before world lines := by
  cases ended with
  | @completed row earlier id execution durationMs found status rows isCompleted
      finished duration logs =>
      have latest : (world.executionsOf job).getLast? =
          some (id, execution) := by simp [rows]
      constructor
      · intro row' found' _
        exact ⟨id, execution, durationMs, latest, isCompleted, finished,
          duration, logs⟩
      · intro row' found' dead
        cases found.symm.trans found'
        rw [status] at dead
        cases dead
      · intro row' found' queued
        cases found.symm.trans found'
        rw [status] at queued
        cases queued
      · intro id' execution' latest' running
        cases latest.symm.trans latest'
        rw [isCompleted] at running
        cases running
  | @failed row earlier id execution found status rows isFailed counted =>
      have latest : (world.executionsOf job).getLast? =
          some (id, execution) := by simp [rows]
      constructor
      · intro row' found' completed
        cases found.symm.trans found'
        rcases status with queued | ⟨dead, _⟩
        · rw [queued] at completed
          cases completed
        · rw [dead] at completed
          cases completed
      · intro row' found' dead
        cases found.symm.trans found'
        rcases status with queued | ⟨_, letter, letterFound, letterCount⟩
        · rw [queued] at dead
          cases dead
        · exact ⟨id, execution, letter, latest, isFailed, counted,
            letterFound, letterCount⟩
      · intro row' found' _
        cases found.symm.trans found'
        exact ⟨id, execution, latest, isFailed, counted⟩
      · intro id' execution' latest' running
        cases latest.symm.trans latest'
        rw [isFailed] at running
        cases running

theorem Recorded.whole {standing : Standing} (closed : world.LogsClosed)
    (recorded : Recorded job before world lines standing) :
    WholeOutcome job before world lines := by
  cases recorded with
  | unstarted _ unstarted =>
      exact .of_inFlight closed unstarted.inFlight unstarted.deadLetter
  | executing _ executing =>
      exact .of_inFlight closed executing.inFlight executing.deadLetter
  | ended ended => exact ended.whole
  | finished _ either =>
      rcases either with unstarted | ⟨_, executing⟩ | ended
      · exact .of_inFlight closed unstarted.inFlight unstarted.deadLetter
      · exact .of_inFlight closed executing.inFlight executing.deadLetter
      · exact ended.whole

/-! ### Steps of everything else -/

theorem Unstarted.recordsKept (unstarted : Unstarted job before world)
    (same : RecordsKept job world next) : Unstarted job before next where
  inFlight := by
    rw [same.row]
    exact unstarted.inFlight
  deadLetter := same.deadLetter.trans unstarted.deadLetter

theorem Executing.recordsKept {attempt : Attempt}
    (executing : Executing job before world attempt)
    (same : RecordsKept job world next) : Executing job before next attempt where
  inFlight := by
    rw [same.row]
    exact executing.inFlight
  deadLetter := same.deadLetter.trans executing.deadLetter
  latest := by
    rw [same.executions]
    exact executing.latest

theorem Ended.recordsKept (ended : Ended job world lines)
    (same : RecordsKept job world next) : Ended job next lines := by
  cases ended with
  | @completed _ earlier id execution _ found status rows isCompleted finished
      duration logs =>
      have kept : next.logsOf id = world.logsOf id :=
        same.logs (id, execution) (by simp [rows])
      exact .completed (same.row.trans found) status
        (same.executions.trans rows) isCompleted finished duration
        (kept ▸ logs)
  | failed found status rows isFailed counted =>
      rw [← same.deadLetter] at status
      exact .failed (same.row.trans found) status (same.executions.trans rows)
        isFailed counted

theorem Recorded.recordsKept {standing : Standing}
    (recorded : Recorded job before world lines standing)
    (same : RecordsKept job world next) :
    Recorded job before next lines standing := by
  cases recorded with
  | unstarted phase unstarted empty =>
      exact .unstarted phase (unstarted.recordsKept same) empty
  | executing phase executing buffer =>
      exact .executing phase (executing.recordsKept same) buffer
  | ended ended => exact .ended (ended.recordsKept same)
  | finished done either =>
      apply Recorded.finished done
      rcases either with unstarted | ⟨attempt, executing⟩ | ended
      · exact .inl (unstarted.recordsKept same)
      · exact .inr (.inl ⟨attempt, executing.recordsKept same⟩)
      · exact .inr (.inr (ended.recordsKept same))

/-! ### Steps of the call -/

theorem Recorded.unstarted_of {phase : ExecPhase}
    (recorded : Recorded job before world lines (.awaiting phase))
    (noAttempt : phase.attempt? = none)
    (inside : ∀ snapshot status, phase ≠ .publish snapshot status) :
    Unstarted job before world ∧ lines = [] := by
  generalize same : Standing.awaiting phase = standing at recorded
  cases recorded with
  | unstarted _ unstarted empty => exact ⟨unstarted, empty⟩
  | executing isAttempt =>
      cases same
      exact absurd (noAttempt.symm.trans isAttempt) nofun
  | ended =>
      cases same
      exact (inside _ _ rfl).elim
  | finished done => exact (done _ same.symm).elim

theorem Recorded.executing_of {phase : ExecPhase} {attempt : Attempt}
    (recorded : Recorded job before world lines (.awaiting phase))
    (isAttempt : phase.attempt? = some attempt) :
    Executing job before world attempt ∧ attempt.logBuffer = lines := by
  generalize same : Standing.awaiting phase = standing at recorded
  cases recorded with
  | unstarted noAttempt =>
      cases same
      exact absurd (noAttempt.symm.trans isAttempt) nofun
  | executing other executing buffer =>
      cases same
      cases isAttempt.symm.trans other
      exact ⟨executing, buffer⟩
  | ended =>
      cases same
      cases isAttempt
  | finished done => exact (done _ same.symm).elim

theorem Recorded.finish {phase : ExecPhase} {standing : Standing}
    (recorded : Recorded job before world lines (.awaiting phase))
    (done : ∀ phase, standing ≠ .awaiting phase) :
    Recorded job before world lines standing := by
  generalize same : Standing.awaiting phase = old at recorded
  cases recorded with
  | unstarted _ unstarted => exact .finished done (.inl unstarted)
  | @executing _ attempt _ executing =>
      exact .finished done (.inr (.inl ⟨attempt, executing⟩))
  | ended ended => exact .finished done (.inr (.inr ended))
  | finished other => exact (other _ same.symm).elim

theorem RecordsKept.of_sameRows (rows : SameRows world next)
    (logs : next.logs = world.logs) : RecordsKept job world next where
  row := by rw [rows.jobs]
  executions := by
    unfold World.executionsOf
    rw [rows.executions]
  logs := by
    intro entry _
    unfold World.logsOf
    rw [logs]
  deadLetter := by rw [rows.deadLetters]

theorem Unstarted.marked (unstarted : Unstarted job before world) :
    Unstarted job before (world.updateJob job (Job.markRunning world.now)) where
  inFlight := by
    obtain ⟨row, found, _⟩ := unstarted.inFlight
    refine ⟨row.markRunning world.now, ?_, rfl⟩
    exact (Table.get?_modify_self ..).trans (by rw [found]; rfl)
  deadLetter := unstarted.deadLetter

theorem Unstarted.created (unstarted : Unstarted job before world)
    {id : ExecutionId} {row : JobExecution}
    {executions : Table ExecutionId JobExecution} {attempt : Attempt}
    (inserted : world.executions.insert? id row = some executions)
    (ofJob : row.jobId = job) (running : row.status = .running)
    (number : row.attemptNumber = attempt.number)
    (isExecution : attempt.execution = id) :
    Executing job before { world with executions := executions } attempt where
  inFlight := unstarted.inFlight
  deadLetter := unstarted.deadLetter
  latest := by
    refine ⟨world.executionsOf job, row, ?_, running, number⟩
    have rows := Table.rowsWhere_insert? (fun row => row.jobId = job) inserted
    rw [if_pos (decide_eq_true ofJob)] at rows
    rw [isExecution]
    exact rows

theorem Executing.closed {attempt : Attempt} {status : ExecutionStatus}
    {durationMs : Int} {error : Option String}
    (executing : Executing job before world attempt)
    (written : next.executions =
      world.executions.modify attempt.execution
        (JobExecution.finish status world.now durationMs error)) :
    ∃ (earlier : List (ExecutionId × JobExecution))
      (execution : JobExecution),
      next.executionsOf job =
        earlier ++ [(attempt.execution,
          execution.finish status world.now durationMs error)] ∧
      execution.attemptNumber = attempt.number := by
  obtain ⟨earlier, execution, rows, _, number⟩ := executing.latest
  refine ⟨earlier, execution, ?_, number⟩
  unfold World.executionsOf
  rw [written]
  exact Table.rowsWhere_modify_last (fun _ => rfl) rows

theorem Executing.completed {attempt : Attempt} {durationMs : Int}
    (executing : Executing job before world attempt)
    (buffer : attempt.logBuffer = lines) (closed : world.LogsClosed) :
    Ended job (world.commitCompleted job attempt durationMs) lines := by
  have written : (world.commitCompleted job attempt durationMs).executions =
      world.executions.modify attempt.execution
        (JobExecution.finish .completed world.now durationMs none) := rfl
  obtain ⟨row, found, _⟩ := executing.inFlight
  obtain ⟨_, execution, rows, running, _⟩ := executing.latest
  obtain ⟨earlier, _, rows', _⟩ := executing.closed written
  have stored : (attempt.execution, execution) ∈ world.executionsOf job := by
    simp [rows]
  have silent : world.logsOf attempt.execution = [] :=
    closed.logsOf_running (mem_executionsOf.mp stored).1 running
  have found' : (world.commitCompleted job attempt durationMs).jobs.get? job =
      some (row.complete world.now) :=
    (Table.get?_modify_self ..).trans (by rw [found]; rfl)
  refine .completed found' rfl rows' rfl rfl rfl ?_
  have kept : ((world.updateJob job (Job.complete world.now)).updateExecution
      attempt.execution
      (JobExecution.finish .completed world.now durationMs none)).logsOf
        attempt.execution = [] := silent
  unfold World.commitCompleted
  rw [World.logsOf_flushLogs, kept, List.nil_append, List.map_map, buffer]
  exact List.map_id _

theorem Executing.retried {attempt : Attempt} {failure : Failure}
    {delayMs : Int} {runAt : Time}
    (executing : Executing job before world attempt) :
    Ended job (world.commitRetry job attempt failure delayMs runAt) lines := by
  have written :
      (world.commitRetry job attempt failure delayMs runAt).executions =
        world.executions.modify attempt.execution
          (JobExecution.finish .failed world.now failure.durationMs
            failure.errorMessage) := rfl
  obtain ⟨row, found, _⟩ := executing.inFlight
  obtain ⟨earlier, _, rows', number⟩ := executing.closed written
  have found' :
      (world.commitRetry job attempt failure delayMs runAt).jobs.get? job =
        some (row.requeueForRetry attempt.number runAt world.now) :=
    (Table.get?_modify_self ..).trans (by rw [found]; rfl)
  exact .failed found' (.inl rfl) rows' rfl number.symm

theorem Executing.deadLettered {attempt : Attempt} {failure : Failure}
    (executing : Executing job before world attempt)
    (success : world.commitDeadLetter job attempt failure = some next) :
    Ended job next lines := by
  obtain ⟨deadLetters, logs, inserted, rfl⟩ :=
    World.commitDeadLetter_spec success
  obtain ⟨row, found, _⟩ := executing.inFlight
  have letter := (Table.get?_insert? inserted).trans (if_pos rfl)
  have written :
      { ((world.updateJob job
          (Job.moveToDeadLetter attempt.number world.now)).updateExecution
          attempt.execution
          (JobExecution.finish .failed world.now failure.durationMs
            failure.errorMessage)) with
        deadLetters := deadLetters, logs := logs }.executions =
      world.executions.modify attempt.execution
        (JobExecution.finish .failed world.now failure.durationMs
          failure.errorMessage) := rfl
  obtain ⟨earlier, _, rows', number⟩ := executing.closed written
  have found' : (world.jobs.modify job
      (Job.moveToDeadLetter attempt.number world.now)).get? job =
        some (row.moveToDeadLetter attempt.number world.now) :=
    (Table.get?_modify_self ..).trans (by rw [found]; rfl)
  refine .failed found' (.inr ⟨rfl, _, letter, ?_⟩) rows' rfl ?_
  · exact number.symm
  · exact number.symm

theorem Executing.rejected {attempt : Attempt}
    (executing : Executing job before world attempt)
    (buffer : attempt.logBuffer = lines) (error : String) (random : Draw) :
    Recorded job before world lines
      (.awaiting (handleFailure world attempt error random)) := by
  have same : (handleFailure world attempt error random).attempt? =
      some attempt := by
    unfold handleFailure
    dsimp only
    split <;> rfl
  exact .executing same executing buffer

theorem ExecStep.recorded {worker : WorkerId} {phase : ExecPhase}
    {input : ExecInput} {exec' : Option ExecCall}
    (case : ExecStep world ⟨job, worker, phase⟩ input next exec')
    (recorded : Recorded job before world lines (.awaiting phase))
    (closed : world.LogsClosed)
    (silent : phase.closes = none → next.logs = world.logs)
    (unheard : phase.attempt? = none → input.line? = none) :
    Recorded job before next (lines ++ input.line?.toList)
      (.ofCall exec') := by
  have unlogged : lines ++ [] = lines := List.append_nil lines
  have settled : ∀ phase, Standing.settled ≠ .awaiting phase :=
    fun _ => nofun
  have finished : Recorded job before world (lines ++ []) .settled := by
    rw [unlogged]
    exact recorded.finish settled
  cases case with
  | jobMissing => exact finished
  | found isPhase =>
      cases isPhase
      obtain ⟨unstarted, empty⟩ := recorded.unstarted_of rfl fun _ _ => nofun
      exact .unstarted rfl unstarted (unlogged.trans empty)
  | marked isPhase =>
      cases isPhase
      obtain ⟨unstarted, empty⟩ := recorded.unstarted_of rfl fun _ _ => nofun
      exact .unstarted rfl unstarted.marked (unlogged.trans empty)
  | announced isPhase rows =>
      cases isPhase
      obtain ⟨unstarted, empty⟩ := recorded.unstarted_of rfl fun _ _ => nofun
      rw [unheard rfl]
      have same : RecordsKept job world next :=
        .of_sameRows rows (silent rfl)
      exact .unstarted rfl (unstarted.recordsKept same) (unlogged.trans empty)
  | created isPhase inserted =>
      cases isPhase
      obtain ⟨unstarted, empty⟩ := recorded.unstarted_of rfl fun _ _ => nofun
      exact .executing rfl (unstarted.created inserted rfl rfl rfl rfl)
        (unlogged.trans empty).symm
  | logged isPhase =>
      cases isPhase
      obtain ⟨executing, buffer⟩ := recorded.executing_of rfl
      exact .executing rfl
        ⟨executing.inFlight, executing.deadLetter, executing.latest⟩
        (by rw [buffer]; rfl)
  | resolved isPhase =>
      cases isPhase
      obtain ⟨executing, buffer⟩ := recorded.executing_of rfl
      exact .executing rfl executing (buffer.trans unlogged.symm)
  | rejected isPhase =>
      rcases isPhase with isPhase | ⟨_, isPhase⟩ <;> cases isPhase <;>
        obtain ⟨executing, buffer⟩ := recorded.executing_of rfl <;>
        exact executing.rejected (buffer.trans unlogged.symm) _ _
  | completed isPhase =>
      cases isPhase
      obtain ⟨executing, buffer⟩ := recorded.executing_of rfl
      exact .ended (executing.completed (buffer.trans unlogged.symm) closed)
  | retried isPhase =>
      cases isPhase
      obtain ⟨executing, _⟩ := recorded.executing_of rfl
      exact .ended executing.retried
  | deadLettered isPhase _ success =>
      cases isPhase
      obtain ⟨executing, _⟩ := recorded.executing_of rfl
      exact .ended (executing.deadLettered success)
  | published isPhase rows =>
      cases isPhase
      rw [unheard rfl]
      exact finished.recordsKept (.of_sameRows rows (silent rfl))
  | abandoned => exact finished

end Whole

section Runs

variable {env : Env} {start last : State} {call : CallId} {job : JobId}
  {worker : WorkerId} {trace : List (Transition State Action)}
  {standing : Standing} {row : Job}

theorem executeJob_unheard {world next : World} {phase : ExecPhase}
    {input : ExecInput} {exec' : Option ExecCall}
    (taken : executeJob world ⟨job, worker, phase⟩ input = some (next, exec'))
    (noHandler : phase.attempt? = none) : input.line? = none := by
  cases input with
  | log level message =>
      cases phase with
      | handler => cases noHandler
      | _ => cases taken
  | _ => rfl

theorem handlerLines_snoc (trace : List (Transition State Action))
    (transition : Transition State Action) :
    handlerLines call (trace ++ [transition]) =
      handlerLines call trace ++
        (transition.action.handlerLine call).toList := by
  unfold handlerLines
  rw [List.filterMap_append]
  congr 1

theorem handlerLine_of_ne {action : Action} (other : action.actor ≠ some call) :
    action.handlerLine call = none := by
  cases action with
  | exec acting input =>
      apply if_neg
      rintro rfl
      exact other rfl
  | _ => rfl

theorem attemptRows_of_initial {first : State} (initial : Initial first) :
    AttemptRows first := by
  intro other exec attempt called _
  exact absurd ((initial.calls other).symm.trans called) nofun

theorem AttemptRows.run (rows : AttemptRows start)
    (run : Run (Chronos.step env) start trace last) : AttemptRows last :=
  run.invariant AttemptRows (fun _ _ => trivial) rows
    fun _ (_ : True) taken rows => AttemptRows.step rows taken

theorem attemptRows_of_run {first : State} (initial : Initial first)
    (run : Run (step env) first trace last) : AttemptRows last :=
  AttemptRows.run (attemptRows_of_initial initial) run

theorem logsClosed_of_run (run : Run (step env) start trace last)
    (rows : AttemptRows start) (closed : start.world.LogsClosed) :
    last.world.LogsClosed := by
  have both : AttemptRows last ∧ last.world.LogsClosed := by
    refine run.invariant
      (fun state => AttemptRows state ∧ state.world.LogsClosed)
      (fun _ _ => trivial) ⟨rows, closed⟩ ?_
    rintro transition - taken ⟨rows, closed⟩
    exact ⟨AttemptRows.step rows taken, LogsClosed.step closed rows taken⟩
  exact both.2

/-- While nobody else writes the records of the job, they tell how far the
call has come. -/
theorem ExecRun.recorded
    (history : ExecRun env call job worker start trace last standing)
    (rows : AttemptRows start) (closed : start.world.LogsClosed)
    (found : start.world.jobs.get? job = some row)
    (claimed : row.status = .claimed)
    (alone : ∀ transition ∈ trace, transition.action.actor ≠ some call →
      RecordsKept job transition.before.world transition.after.world) :
    Recorded job start.world last.world (handlerLines call trace) standing := by
  induction history with
  | launched =>
      refine .unstarted rfl ⟨⟨row, found, ?_⟩, rfl⟩ rfl
      rw [claimed]
      rfl
  | @own trace state next phase input exec' history taken case _ induction =>
      rw [List.forall_mem_append, List.forall_mem_singleton] at alone
      have before := induction alone.1
      have closed := logsClosed_of_run history.run rows closed
      have called : state.calls call = some (.exec ⟨job, worker, phase⟩) :=
        history.calls
      have silent : phase.closes = none →
          next.world.logs = state.world.logs := step_exec_logs taken called
      rw [handlerLines_snoc]
      have line : (Action.exec call input).handlerLine call = input.line? :=
        if_pos rfl
      rw [line]
      cases step_acting taken rfl called with
      | exec executes =>
          exact case.recorded before closed silent (executeJob_unheard executes)
  | meanwhile history taken other _ induction =>
      rw [List.forall_mem_append, List.forall_mem_singleton] at alone
      rw [handlerLines_snoc, handlerLine_of_ne other, Option.toList_none,
        List.append_nil]
      exact (induction alone.1).recordsKept (alone.2 other)
  | stopped history taken _ induction =>
      rw [List.forall_mem_append, List.forall_mem_singleton] at alone
      have other : (Action.exit worker).actor ≠ some call := nofun
      rw [handlerLines_snoc, handlerLine_of_ne other, Option.toList_none,
        List.append_nil]
      have stopped : ∀ phase, Standing.stopped ≠ .awaiting phase :=
        fun _ => nofun
      exact ((induction alone.1).recordsKept (alone.2 other)).finish stopped

/-- Whatever fails and wherever the process stops, the records of the job tell
of a whole outcome or of none. -/
theorem records_whole {first : State} {past : List (Transition State Action)}
    (initial : Initial first) (closed : first.world.LogsClosed)
    (earlier : Run (step env) first past start)
    (history : ExecRun env call job worker start trace last standing)
    (found : start.world.jobs.get? job = some row)
    (claimed : row.status = .claimed)
    (alone : ∀ transition ∈ trace, transition.action.actor ≠ some call →
      RecordsKept job transition.before.world transition.after.world) :
    WholeOutcome job start.world last.world (handlerLines call trace) := by
  have rows : AttemptRows start := attemptRows_of_run initial earlier
  have closed : start.world.LogsClosed :=
    logsClosed_of_run earlier (attemptRows_of_initial initial) closed
  have recorded := history.recorded rows closed found claimed alone
  exact recorded.whole (logsClosed_of_run history.run rows closed)

end Runs

/-- The handler logs a line and resolves, and the success transaction
commits. -/
theorem records_whole_completed :
    ∃ start trace last standing,
      ExecRun .sample 2 7 1 start trace last standing ∧
      last.status? 7 = some .completed ∧
      (handlerLines 2 trace).length = 1 ∧
      WholeOutcome 7 start.world last.world (handlerLines 2 trace) := by
  obtain ⟨trace, last, run, ⟨launch, isLaunch, launched, row, found, claimed⟩,
      own, completed, line⟩ :=
    exists_run_of_check (step .sample)
      (World.sample 1 ⟨[(7, Job.sample .queued)], by simp⟩).idle
      (claimActions 1 1 [7] ++ executeActions 1 2 0 ++
        ([.exec 2 (.log "info" "halfway"), .exec 2 .resolved,
          .exec 2 .ok] : List Action))
      (fun trace last =>
        (∃ launch ∈ (trace.drop 8).head?,
          launch.after.justLaunched 2 7 1 = true ∧
          ∃ row ∈ launch.after.world.jobs.get? 7, row.status = .claimed) ∧
        (∀ transition ∈ trace.drop 9, transition.action.actor = some 2 ∧
          transition.action.begins ≠ some 2) ∧
        last.status? 7 = some .completed ∧
        (handlerLines 2 (trace.drop 9)).length = 1)
      (by decide)
  obtain ⟨standing, earlier, history⟩ := execRun_of_launch run isLaunch launched
    fun transition member => (own transition member).2
  have alone : ∀ transition ∈ trace.drop 9,
      transition.action.actor ≠ some 2 →
      RecordsKept 7 transition.before.world transition.after.world :=
    fun transition member other => absurd (own transition member).1 other
  have unlogged : (World.sample 1
      ⟨[(7, Job.sample .queued)], by simp⟩).LogsClosed := by
    intro log member
    cases member
  exact ⟨launch.after, trace.drop 9, last, standing, history, completed, line,
    records_whole (World.idle_initial fun _ => rfl) unlogged
      earlier history found claimed alone⟩

end Chronos
