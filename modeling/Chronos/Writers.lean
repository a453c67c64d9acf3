import Chronos.Steps

/-!
# Who writes a job row

`step_cases` inverts a step of the system.  `step_job` and `step_created`
draw the table of all writers of `jobs` from it: what each step can do to one
row.  Apart from a claim's own commit, every writer finds the row unlocked.
-/

namespace Chronos

/-- The actions that begin a call, with the call in its first phase. -/
inductive Starts (env : Env) (state : State) :
    Action → CallId → Call → Prop where
  | poll {call : CallId} {worker : WorkerId} :
      state.world.stopping worker = false →
      Starts env state (.startPoll call worker) call
        (.poll ⟨worker, .fetchQueues⟩)
  | reap {call : CallId} {worker : WorkerId} :
      state.world.alive worker = true →
      Starts env state (.startReap call worker) call
        (.reap ⟨worker,
          .findStale (state.world.now - env.heartbeatTtlSeconds * 1000)⟩)
  | tick {call : CallId} {worker : WorkerId} :
      state.world.alive worker = true →
      Starts env state (.startTick call worker) call
        (.tick ⟨worker, .findDue state.world.now⟩)
  | request {call : CallId} {request : Request} :
      Starts env state (.request call request) call request.begin

inductive StepCase (env : Env) (state : State) : Action → State → Prop where
  | advanced {now : Time} :
      state.world.now ≤ now →
      StepCase env state (.advance now)
        { state with world := { state.world with now := now } }
  | registered {worker : WorkerId} {world : World} :
      state.world.registerWorker worker = some world →
      StepCase env state (.register worker) { state with world := world }
  | heartbeat {worker : WorkerId} :
      state.world.alive worker = true →
      StepCase env state (.heartbeat worker)
        { state with world := state.world.recordHeartbeat worker }
  | stopped {worker : WorkerId} :
      state.world.alive worker = true →
      StepCase env state (.stopPoller worker)
        { state with world := state.world.setProcess worker .stopping }
  | drained {worker : WorkerId} :
      state.world.process worker = some .stopping →
      StepCase env state (.drain worker)
        { state with world := state.world.setWorkerStatus worker .draining }
  | retired {worker : WorkerId} :
      state.world.process worker = some .stopping →
      StepCase env state (.retire worker)
        { state with world := state.world.setWorkerStatus worker .dead }
  | exited {worker : WorkerId} :
      state.world.alive worker = true →
      StepCase env state (.exit worker) (state.exitWorker worker)
  | queueUpdated {queue : QueueId} {patch : QueuePatch} :
      StepCase env state (.updateQueue queue patch)
        { state with world := state.world.updateQueue queue patch }
  | started {action : Action} {call : CallId} {value : Call} :
      Starts env state action call value →
      state.calls call = none →
      StepCase env state action (state.set call (some value))
  | poll {call : CallId} {poll : PollCall} {input : PollInput} {world : World}
      {poll' : Option PollCall} :
      state.calls call = some (.poll poll) →
      PollStep state.world call poll input world poll' →
      StepCase env state (.poll call input)
        ⟨world, Function.update state.calls call (poll'.map .poll)⟩
  | launched {call exec : CallId} {poll : PollCall} {rest : List QueueRef}
      {job : JobId} {ids : List JobId} :
      state.calls call = some (.poll poll) →
      poll.phase = .launching rest (job :: ids) →
      state.world.stopping poll.workerId = false →
      exec ≠ call →
      state.calls exec = none →
      StepCase env state (.launch call exec)
        ((state.set call
            (some (.poll { poll with phase := .launching rest ids }))).set exec
          (some (.exec ⟨job, poll.workerId, .findJob⟩)))
  | exec {call : CallId} {exec : ExecCall} {input : ExecInput} {world : World}
      {exec' : Option ExecCall} :
      state.calls call = some (.exec exec) →
      ExecStep state.world exec input world exec' →
      StepCase env state (.exec call input)
        ⟨world, Function.update state.calls call (exec'.map .exec)⟩
  | reap {call : CallId} {owner : WorkerId} {phase : ReapPhase}
      {input : ReapInput} {world : World} {phase' : Option ReapPhase} :
      state.calls call = some (.reap ⟨owner, phase⟩) →
      ReapStep state.world phase input world phase' →
      StepCase env state (.reap call input)
        ⟨world, Function.update state.calls call
          (phase'.map fun phase => .reap ⟨owner, phase⟩)⟩
  | tick {call : CallId} {owner : WorkerId} {phase : TickPhase}
      {input : TickInput} {world : World} {phase' : Option TickPhase} :
      state.calls call = some (.tick ⟨owner, phase⟩) →
      TickStep env.library state.world phase input world phase' →
      StepCase env state (.tick call input)
        ⟨world, Function.update state.calls call
          (phase'.map fun phase => .tick ⟨owner, phase⟩)⟩
  | api {call : CallId} {value value' : Call} {input : ApiInput}
      {world : World} :
      state.calls call = some value →
      ApiStep state.world value input world value' →
      handle state.world value input = some (world, value') →
      StepCase env state (.api call input)
        ⟨world, Function.update state.calls call (some value')⟩

private theorem start_cases {state next : State} {call : CallId} {value : Call}
    (taken : state.start call value = some next) :
    state.calls call = none ∧ next = state.set call (some value) := by
  simp only [State.start, Option.isNone_iff_eq_none] at taken
  split at taken <;> cases taken
  exact ⟨‹_›, rfl⟩

private theorem launch_cases {env : Env} {state next : State}
    {call exec : CallId} (taken : launch state call exec = some next) :
    StepCase env state (.launch call exec) next := by
  unfold launch at taken
  split at taken <;> try cases taken
  rename_i poll found
  split at taken <;> try cases taken
  rename_i rest job ids phase
  split at taken <;> try cases taken
  rename_i notStopping
  obtain ⟨fresh, rfl⟩ := start_cases taken
  have different : exec ≠ call := by
    intro same
    simp [State.set, same] at fresh
  have absent : state.calls exec = none := by
    simpa [State.set, different] using fresh
  exact .launched found phase (by simpa using notStopping) different absent

theorem step_cases {env : Env} {state next : State} {action : Action}
    (taken : step env state action = some next) :
    StepCase env state action next := by
  cases action with
  | advance now =>
      simp only [step] at taken
      split at taken <;> cases taken
      exact .advanced ‹_›
  | register worker =>
      simp only [step, Option.map_eq_some_iff] at taken
      obtain ⟨world, success, rfl⟩ := taken
      exact .registered success
  | heartbeat worker =>
      simp only [step] at taken
      split at taken <;> cases taken
      exact .heartbeat ‹_›
  | stopPoller worker =>
      simp only [step] at taken
      split at taken <;> cases taken
      exact .stopped ‹_›
  | drain worker =>
      simp only [step] at taken
      split at taken <;> cases taken
      exact .drained ‹_›
  | retire worker =>
      simp only [step] at taken
      split at taken <;> cases taken
      exact .retired ‹_›
  | exit worker =>
      simp only [step] at taken
      split at taken <;> cases taken
      exact .exited ‹_›
  | updateQueue queue patch =>
      cases taken
      exact .queueUpdated
  | startPoll call worker =>
      simp only [step] at taken
      split at taken
      · cases taken
      · rename_i notStopping
        obtain ⟨fresh, rfl⟩ := start_cases taken
        exact .started (.poll (by simpa using notStopping)) fresh
  | poll call input =>
      simp only [step] at taken
      split at taken <;> try cases taken
      rename_i poll found
      simp only [State.resume, Option.map_eq_some_iff] at taken
      obtain ⟨⟨world, poll'⟩, success, rfl⟩ := taken
      exact .poll found (pollCycle_cases success)
  | launch call exec => exact launch_cases taken
  | exec call input =>
      simp only [step] at taken
      split at taken <;> try cases taken
      rename_i exec found
      simp only [State.resume, Option.map_eq_some_iff] at taken
      obtain ⟨⟨world, exec'⟩, success, rfl⟩ := taken
      exact .exec found (executeJob_cases success)
  | startReap call worker =>
      simp only [step] at taken
      split at taken
      · obtain ⟨fresh, rfl⟩ := start_cases taken
        exact .started (.reap ‹_›) fresh
      · cases taken
  | reap call input =>
      simp only [step] at taken
      split at taken <;> try cases taken
      rename_i cycle found
      obtain ⟨owner, phase⟩ := cycle
      simp only [State.resume, Option.map_eq_some_iff] at taken
      obtain ⟨⟨world, cycle'⟩, success, rfl⟩ := taken
      obtain ⟨phase', case, rfl⟩ := reap_cases success
      simp only [Option.map_map]
      exact .reap found case
  | startTick call worker =>
      simp only [step] at taken
      split at taken
      · obtain ⟨fresh, rfl⟩ := start_cases taken
        exact .started (.tick ‹_›) fresh
      · cases taken
  | tick call input =>
      simp only [step] at taken
      split at taken <;> try cases taken
      rename_i ticker found
      obtain ⟨owner, phase⟩ := ticker
      simp only [State.resume, Option.map_eq_some_iff] at taken
      obtain ⟨⟨world, ticker'⟩, success, rfl⟩ := taken
      obtain ⟨phase', case, rfl⟩ := tick_cases success
      simp only [Option.map_map]
      exact .tick found case
  | request call request =>
      obtain ⟨fresh, rfl⟩ := start_cases taken
      exact .started .request fresh
  | api call input =>
      simp only [step] at taken
      split at taken <;> try cases taken
      rename_i value found
      simp only [Option.map_eq_some_iff] at taken
      obtain ⟨⟨world, value'⟩, success, rfl⟩ := taken
      exact .api found (ApiStep.of_handle success) success

/-! ## Creating rows -/

namespace Job

/-- The row as inserted at this instant. -/
def stamped (now : Time) (job : Job) : Job :=
  { job with createdAt := now, updatedAt := now }

end Job

namespace World

theorem createJob_eq_some {world next : World} {id : JobId} {job : Job}
    (created : world.createJob id job = some next) :
    world.keyTaken job.queueId job.idempotencyKey = false ∧
      ∃ jobs, world.jobs.insert? id (job.stamped world.now) = some jobs ∧
        next = { world with jobs := jobs } := by
  unfold createJob at created
  split at created
  · cases created
  · rename_i free
    split at created
    · cases created
    · split at created
      · cases created
      · simp only [Option.map_eq_some_iff] at created
        obtain ⟨jobs, inserted, rfl⟩ := created
        exact ⟨by simpa using free, jobs, inserted, rfl⟩

theorem createJob_spec {world next : World} {id : JobId} {job : Job}
    (created : world.createJob id job = some next) :
    next = { world with jobs := next.jobs } ∧
      world.jobs.get? id = none ∧
      ∀ other, next.jobs.get? other =
        if other = id then some (job.stamped world.now)
        else world.jobs.get? other := by
  obtain ⟨-, jobs, inserted, rfl⟩ := createJob_eq_some created
  exact ⟨rfl, (Table.insert?_eq_some_iff.mp inserted).1,
    fun other => Table.get?_insert? inserted⟩

theorem createJobs_cons_eq_some {world next : World} {id : JobId} {job : Job}
    {rows : List (JobId × Job)} :
    world.createJobs ((id, job) :: rows) = some next ↔
      ∃ middle, world.createJob id job = some middle ∧
        middle.createJobs rows = some next := by
  rw [createJobs]
  cases world.createJob id job with
  | none => simp
  | some middle => simp

theorem createJobs_spec {world next : World} {rows : List (JobId × Job)}
    (created : world.createJobs rows = some next) :
    next = { world with jobs := next.jobs } ∧
      ∀ other row, next.jobs.get? other = some row →
        world.jobs.get? other = some row ∨
          world.jobs.get? other = none ∧
            ∃ job, (other, job) ∈ rows ∧ row = job.stamped world.now := by
  induction rows generalizing world with
  | nil =>
      cases created
      exact ⟨rfl, fun _ _ found => .inl found⟩
  | cons head rows induction =>
      obtain ⟨id, job⟩ := head
      obtain ⟨middle, first, created⟩ := createJobs_cons_eq_some.mp created
      obtain ⟨frame, fresh, lookup⟩ := createJob_spec first
      obtain ⟨restFrame, rest⟩ := induction created
      have sameNow : middle.now = world.now := by rw [frame]
      refine ⟨by rw [restFrame, frame], ?_⟩
      intro other row found
      rcases rest other row found with old | ⟨absent, body, member, rfl⟩
      · rw [lookup] at old
        split at old
        · rename_i same
          cases old
          subst other
          exact .inr ⟨fresh, job, by simp, rfl⟩
        · exact .inl old
      · rw [lookup] at absent
        split at absent
        · cases absent
        · exact .inr ⟨absent, body, by simp [member], by rw [sameNow]⟩

theorem createJobs_preserves {world next : World} {rows : List (JobId × Job)}
    (created : world.createJobs rows = some next) {other : JobId} {row : Job}
    (found : world.jobs.get? other = some row) :
    next.jobs.get? other = some row := by
  induction rows generalizing world with
  | nil =>
      cases created
      exact found
  | cons head rows induction =>
      obtain ⟨id, job⟩ := head
      obtain ⟨middle, first, created⟩ := createJobs_cons_eq_some.mp created
      obtain ⟨_, fresh, lookup⟩ := createJob_spec first
      apply induction created
      rw [lookup, if_neg, found]
      rintro rfl
      simp [fresh] at found

/-- The dead-letter transaction inserts the dead letter and otherwise changes
rows as the other transactions do. -/
theorem commitDeadLetter_spec {world next : World} {job : JobId}
    {attempt : Attempt} {failure : Failure}
    (success : world.commitDeadLetter job attempt failure = some next) :
    ∃ deadLetters logs,
      world.deadLetters.insert? job
          { queueId := attempt.job.queueId
            payload := Json.orElse (some attempt.job.payload) (.obj [])
            failureReason := failure.errorMessage
            attemptCount := attempt.number
            movedAt := world.now } = some deadLetters ∧
        next =
          { ((world.updateJob job
              (Job.moveToDeadLetter attempt.number world.now)).updateExecution
              attempt.execution
              (JobExecution.finish .failed world.now failure.durationMs
                failure.errorMessage)) with
            deadLetters := deadLetters, logs := logs } := by
  simp only [commitDeadLetter, Option.map_eq_some_iff] at success
  obtain ⟨deadLetters, inserted, rfl⟩ := success
  exact ⟨deadLetters, _, inserted, rfl⟩

theorem exists_commitDeadLetter {world : World} {job : JobId}
    (absent : world.deadLetters.get? job = none) (attempt : Attempt)
    (failure : Failure) :
    ∃ next, world.commitDeadLetter job attempt failure = some next := by
  obtain ⟨letters, inserted⟩ := Table.exists_insert?
    { queueId := attempt.job.queueId
      payload := Json.orElse (some attempt.job.payload) (.obj [])
      failureReason := failure.errorMessage
      attemptCount := attempt.number
      movedAt := world.now : DeadLetterJob } absent
  simp [World.commitDeadLetter, inserted]

end World

/-! ## What the operations and the steps of a call leave alone -/

section Frames

variable {world next : World}

theorem World.registerWorker_eq_some {worker : WorkerId}
    (registered : world.registerWorker worker = some next) :
    ∃ workers,
      world.workers.insert? worker ⟨.active, world.now, world.now⟩ =
        some workers ∧
      next = ({ world with workers := workers }).setProcess worker .running := by
  simp only [registerWorker, Option.map_eq_some_iff] at registered
  obtain ⟨workers, inserted, rfl⟩ := registered
  exact ⟨workers, inserted, rfl⟩

theorem SameRows.frame (rows : SameRows world next) :
    next = { world with
      logs := next.logs, scheduledJobs := next.scheduledJobs,
      messages := next.messages } := by
  obtain ⟨jobs, executions, deadLetters, workers, queues, retryPolicies,
    locks, now, process, _⟩ := rows
  cases next
  simp_all

theorem PollStep.frame {call : CallId} {poll : PollCall} {input : PollInput}
    {poll' : Option PollCall} (case : PollStep world call poll input next poll') :
    next = { world with jobs := next.jobs, locks := next.locks } := by
  cases case <;> rfl

theorem ExecStep.frame {exec : ExecCall} {input : ExecInput}
    {exec' : Option ExecCall} (case : ExecStep world exec input next exec') :
    next = { world with
      jobs := next.jobs, executions := next.executions, logs := next.logs,
      deadLetters := next.deadLetters, scheduledJobs := next.scheduledJobs,
      messages := next.messages } := by
  cases case with
  | announced _ rows => rw [rows.frame]
  | published _ rows => rw [rows.frame]
  | deadLettered _ _ success =>
      obtain ⟨_, _, _, rfl⟩ := World.commitDeadLetter_spec success
      rfl
  | _ => rfl

theorem ReapStep.frame {phase : ReapPhase} {input : ReapInput}
    {phase' : Option ReapPhase}
    (case : ReapStep world phase input next phase') :
    next = { world with
      jobs := next.jobs, executions := next.executions, logs := next.logs,
      workers := next.workers, scheduledJobs := next.scheduledJobs,
      messages := next.messages } := by
  cases case with
  | published rows => rw [rows.frame]
  | _ => rfl

theorem TickStep.frame {library : SchedulerLibrary} {phase : TickPhase}
    {input : TickInput} {phase' : Option TickPhase}
    (case : TickStep library world phase input next phase') :
    next = { world with
      jobs := next.jobs, logs := next.logs,
      scheduledJobs := next.scheduledJobs, messages := next.messages } := by
  cases case with
  | created success => rw [(World.createJob_spec success).1]
  | published rows => rw [rows.frame]
  | _ => rfl

theorem ApiStep.frame {call call' : Call} {input : ApiInput}
    (case : ApiStep world call input next call') :
    next = { world with
      jobs := next.jobs, logs := next.logs, deadLetters := next.deadLetters,
      scheduledJobs := next.scheduledJobs, messages := next.messages } := by
  cases case with
  | silent rows => rw [rows.frame]
  | submitted _ success => rw [(World.createJob_spec success).1]
  | batchSubmitted _ _ success => rw [(World.createJobs_spec success).1]
  | _ => rfl

theorem ApiStep.requests {call call' : Call} {input : ApiInput}
    (case : ApiStep world call input next call') :
    call.isRequest = true ∧ call'.isRequest = true := by
  cases case with
  | silent _ isRequest isRequest' => exact ⟨isRequest, isRequest'⟩
  | _ => exact ⟨rfl, rfl⟩

end Frames

/-! ## The table of writers -/

/-- An update of the row of one job by one step of the system. -/
inductive JobWrite (state : State) (job : JobId) :
    Action → Job → Job → Prop where
  | claim {call : CallId} {poll : PollCall} {queue : QueueRef}
      {rest : List QueueRef} {txNow : Time} {ids : List JobId} {row : Job} :
      state.calls call = some (.poll poll) →
      poll.phase = .claiming queue rest (.commit txNow ids) →
      job ∈ ids →
      JobWrite state job (.poll call (.claim .ok)) row (row.claim txNow)
  | markRunning {call : CallId} {exec : ExecCall} {snapshot : Job}
      {policy : RetryPolicy} {row : Job} :
      state.calls call = some (.exec exec) →
      exec.jobId = job →
      exec.phase = .markRunning snapshot policy →
      state.world.locks job = none →
      JobWrite state job (.exec call .ok) row (row.markRunning state.world.now)
  | complete {call : CallId} {exec : ExecCall} {attempt : Attempt}
      {durationMs : Int} {row : Job} :
      state.calls call = some (.exec exec) →
      exec.jobId = job →
      exec.phase = .complete attempt durationMs →
      state.world.locks job = none →
      JobWrite state job (.exec call .ok) row (row.complete state.world.now)
  | retry {call : CallId} {exec : ExecCall} {attempt : Attempt}
      {failure : Failure} {delayMs : Int} {runAt : Time} {row : Job} :
      state.calls call = some (.exec exec) →
      exec.jobId = job →
      exec.phase = .retry attempt failure delayMs runAt →
      state.world.locks job = none →
      JobWrite state job (.exec call .ok) row
        (row.requeueForRetry attempt.number runAt state.world.now)
  | deadLetter {call : CallId} {exec : ExecCall} {attempt : Attempt}
      {failure : Failure} {row : Job} :
      state.calls call = some (.exec exec) →
      exec.jobId = job →
      exec.phase = .deadLetter attempt failure →
      state.world.locks job = none →
      JobWrite state job (.exec call .ok) row
        (row.moveToDeadLetter attempt.number state.world.now)
  | requeueOrphan {call : CallId} {owner worker : WorkerId}
      {workers : List WorkerId} {jobIds : List JobId} {row : Job} :
      state.calls call =
        some (.reap ⟨owner, .requeue worker workers job jobIds⟩) →
      state.world.locks job = none →
      JobWrite state job (.reap call .ok) row
        (row.requeueOrphan state.world.now)
  | resetForRetry {call : CallId} {request : RetryCall} {queueId : QueueId}
      {project : Option ProjectId} {deadLetter : Bool} {row : Job} :
      state.calls call = some (.retry request) →
      request.jobId = job →
      request.phase = .transaction queueId project deadLetter →
      state.world.locks job = none →
      JobWrite state job (.api call .ok) row
        (row.resetForRetry state.world.now)
  | cancel {call : CallId} {request : CancelCall} {queueId : QueueId}
      {project : Option ProjectId} {row : Job} :
      state.calls call = some (.cancel request) →
      request.jobId = job →
      request.phase = .update queueId project →
      state.world.locks job = none →
      JobWrite state job (.api call .ok) row (row.cancel state.world.now)

/-- The row a step inserts for a new job. -/
inductive JobCreated (state : State) (job : JobId) : Action → Job → Prop where
  | submitted {call : CallId} {request : SubmitCall} {queue : Queue}
      {row : Job} :
      state.calls call = some (.submit request) →
      request.phase = .createJob queue row →
      JobCreated state job (.api call (.created [job]))
        (row.stamped state.world.now)
  | batch {call : CallId} {request : BatchCall} {queue : Queue}
      {batchId : String} {rows : List Job} {ids : List JobId} {row : Job} :
      state.calls call = some (.batch request) →
      request.phase = .createJobs queue batchId rows →
      (job, row) ∈ ids.zip rows →
      JobCreated state job (.api call (.created ids))
        (row.stamped state.world.now)
  | materialized {call : CallId} {owner : WorkerId} {due : DueJob} {row : Job}
      {nextRun : Time} {defs : List DueJob} :
      state.calls call =
        some (.tick ⟨owner, .createJob due row nextRun defs⟩) →
      JobCreated state job (.tick call (.created job))
        (row.stamped state.world.now)

namespace World

theorem unlocked_of_writable {world : World} {job : JobId}
    (writable : world.writable job = true) : world.locks job = none := by
  simp only [World.writable, Bool.and_eq_true, Option.isNone_iff_eq_none]
    at writable
  exact writable.2

theorem get?_updateJob (world : World) (job other : JobId)
    (update : Job → Job) :
    (world.updateJob job update).jobs.get? other =
      (world.jobs.get? other).map fun row =>
        if other = job then update row else row :=
  Table.get?_modify ..

theorem get?_markClaimed (world : World) (txNow : Time) (ids : List JobId)
    (job : JobId) :
    (world.markClaimed txNow ids).jobs.get? job =
      (world.jobs.get? job).map fun row =>
        if job ∈ ids then row.claim txNow else row :=
  Table.get?_mapRows ..

end World

private theorem written_by {state : State} {next : World} {action : Action}
    {job written : JobId} {update : Job → Job} {row : Job}
    (frame : next.jobs = (state.world.updateJob written update).jobs)
    (writable : state.world.writable written = true)
    (found : state.world.jobs.get? job = some row)
    (write : written = job → state.world.locks job = none →
      JobWrite state job action row (update row)) :
    ∃ row', next.jobs.get? job = some row' ∧
      (row' = row ∨ JobWrite state job action row row') := by
  rw [frame, World.get?_updateJob, found]
  by_cases same : job = written
  · subst written
    exact ⟨update row, by simp,
      .inr (write rfl (World.unlocked_of_writable writable))⟩
  · exact ⟨row, by simp [same], .inl rfl⟩

theorem step_job {env : Env} {state next : State} {action : Action}
    {job : JobId} {row : Job} (taken : step env state action = some next)
    (found : state.world.jobs.get? job = some row) :
    ∃ row', next.world.jobs.get? job = some row' ∧
      (row' = row ∨ JobWrite state job action row row') := by
  have unchanged : ∀ {world : World}, world.jobs = state.world.jobs →
      ∃ row', world.jobs.get? job = some row' ∧
        (row' = row ∨ JobWrite state job action row row') :=
    fun same => ⟨row, by rw [same, found], .inl rfl⟩
  cases step_cases taken with
  | advanced => exact unchanged rfl
  | registered success =>
      obtain ⟨workers, _, rfl⟩ := World.registerWorker_eq_some success
      exact unchanged rfl
  | heartbeat => exact unchanged rfl
  | stopped => exact unchanged rfl
  | drained => exact unchanged rfl
  | retired => exact unchanged rfl
  | exited => exact unchanged rfl
  | queueUpdated => exact unchanged rfl
  | started => exact unchanged rfl
  | launched => exact unchanged rfl
  | poll called case =>
      cases case with
      | @committed queue rest txNow ids phase =>
          refine ⟨if job ∈ ids then row.claim txNow else row, ?_, ?_⟩
          · simp [World.unlock, World.get?_markClaimed, found]
          · split
            · exact .inr (.claim called phase ‹_›)
            · exact .inl rfl
      | _ => exact unchanged rfl
  | exec called case =>
      cases case with
      | marked phase writable =>
          exact written_by rfl writable found fun target unlocked =>
            .markRunning called target phase unlocked
      | completed phase writable =>
          exact written_by rfl writable found fun target unlocked =>
            .complete called target phase unlocked
      | retried phase writable =>
          exact written_by rfl writable found fun target unlocked =>
            .retry called target phase unlocked
      | deadLettered phase writable success =>
          obtain ⟨_, _, _, rfl⟩ := World.commitDeadLetter_spec success
          exact written_by rfl writable found fun target unlocked =>
            .deadLetter called target phase unlocked
      | announced _ same => exact unchanged same.jobs
      | published _ same => exact unchanged same.jobs
      | _ => exact unchanged rfl
  | reap called case =>
      cases case with
      | requeued _ writable =>
          exact written_by rfl writable found fun target unlocked =>
            .requeueOrphan (target ▸ called) unlocked
      | published same => exact unchanged same.jobs
      | _ => exact unchanged rfl
  | tick called case =>
      cases case with
      | created success =>
          obtain ⟨_, fresh, lookup⟩ := World.createJob_spec success
          refine ⟨row, ?_, .inl rfl⟩
          rw [lookup, if_neg, found]
          rintro rfl
          simp [fresh] at found
      | published same => exact unchanged same.jobs
      | _ => exact unchanged rfl
  | api called case =>
      cases case with
      | silent same => exact unchanged same.jobs
      | submitted _ success =>
          obtain ⟨_, fresh, lookup⟩ := World.createJob_spec success
          refine ⟨row, ?_, .inl rfl⟩
          rw [lookup, if_neg, found]
          rintro rfl
          simp [fresh] at found
      | batchSubmitted _ _ success =>
          exact ⟨row, World.createJobs_preserves success found, .inl rfl⟩
      | retried phase writable =>
          exact written_by rfl writable found fun target unlocked =>
            .resetForRetry called target phase unlocked
      | cancelled phase writable =>
          exact written_by rfl writable found fun target unlocked =>
            .cancel called target phase unlocked

/-- Two versions of a job row agree in the columns that no update names. -/
structure Job.SameColumns (row row' : Job) : Prop where
  queueId : row'.queueId = row.queueId
  payload : row'.payload = row.payload
  retryPolicyId : row'.retryPolicyId = row.retryPolicyId
  idempotencyKey : row'.idempotencyKey = row.idempotencyKey

theorem JobWrite.columns {state : State} {job : JobId} {action : Action}
    {row row' : Job} (write : JobWrite state job action row row') :
    row.SameColumns row' := by
  cases write <;> exact ⟨rfl, rfl, rfl, rfl⟩

theorem step_columns {env : Env} {state next : State} {action : Action}
    {job : JobId} {row row' : Job} (taken : step env state action = some next)
    (found : state.world.jobs.get? job = some row)
    (found' : next.world.jobs.get? job = some row') :
    row.SameColumns row' := by
  obtain ⟨written, after, same | write⟩ := step_job taken found
  · cases found'.symm.trans after
    rw [same]
    exact ⟨rfl, rfl, rfl, rfl⟩
  · cases found'.symm.trans after
    exact write.columns

theorem step_created {env : Env} {state next : State} {action : Action}
    {job : JobId} {row : Job} (taken : step env state action = some next)
    (absent : state.world.jobs.get? job = none)
    (found : next.world.jobs.get? job = some row) :
    JobCreated state job action row := by
  have unchanged : ∀ {world : World}, world.jobs = state.world.jobs →
      world.jobs.get? job = some row → JobCreated state job action row := by
    intro world same present
    rw [same, absent] at present
    cases present
  have updated : ∀ {world : World} {written : JobId} {update : Job → Job},
      world.jobs = (state.world.updateJob written update).jobs →
      world.jobs.get? job = some row → JobCreated state job action row := by
    intro world written update same present
    rw [same, World.get?_updateJob, absent] at present
    cases present
  cases step_cases taken with
  | advanced => exact unchanged rfl found
  | registered success =>
      obtain ⟨workers, _, rfl⟩ := World.registerWorker_eq_some success
      exact unchanged rfl found
  | heartbeat => exact unchanged rfl found
  | stopped => exact unchanged rfl found
  | drained => exact unchanged rfl found
  | retired => exact unchanged rfl found
  | exited => exact unchanged rfl found
  | queueUpdated => exact unchanged rfl found
  | started => exact unchanged rfl found
  | launched => exact unchanged rfl found
  | poll called case =>
      cases case with
      | committed =>
          simp [World.unlock, World.get?_markClaimed, absent] at found
      | _ => exact unchanged rfl found
  | exec called case =>
      cases case with
      | marked => exact updated rfl found
      | completed => exact updated rfl found
      | retried => exact updated rfl found
      | deadLettered _ _ success =>
          obtain ⟨_, _, _, rfl⟩ := World.commitDeadLetter_spec success
          exact updated rfl found
      | announced _ same => exact unchanged same.jobs found
      | published _ same => exact unchanged same.jobs found
      | _ => exact unchanged rfl found
  | reap called case =>
      cases case with
      | requeued => exact updated rfl found
      | published same => exact unchanged same.jobs found
      | _ => exact unchanged rfl found
  | tick called case =>
      cases case with
      | created success =>
          obtain ⟨_, _, lookup⟩ := World.createJob_spec success
          rw [lookup] at found
          split at found
          · rename_i same
            cases found
            subst job
            exact .materialized called
          · rw [absent] at found
            cases found
      | published same => exact unchanged same.jobs found
      | _ => exact unchanged rfl found
  | api called case =>
      cases case with
      | silent same => exact unchanged same.jobs found
      | submitted phase success =>
          obtain ⟨_, _, lookup⟩ := World.createJob_spec success
          rw [lookup] at found
          split at found
          · rename_i same
            cases found
            subst job
            exact .submitted called phase
          · rw [absent] at found
            cases found
      | batchSubmitted phase _ success =>
          obtain ⟨_, rows⟩ := World.createJobs_spec success
          rcases rows job row found with old | ⟨_, body, member, rfl⟩
          · rw [absent] at old
            cases old
          · exact .batch called phase member
      | retried => exact updated rfl found
      | cancelled => exact updated rfl found

namespace State

/-- The committed status of a job. -/
def status? (state : State) (job : JobId) : Option JobStatus :=
  (state.world.jobs.get? job).map (·.status)

theorem status?_eq_some_iff {state : State} {job : JobId}
    {status : JobStatus} :
    state.status? job = some status ↔
      ∃ row, state.world.jobs.get? job = some row ∧ row.status = status :=
  Option.map_eq_some_iff

end State

/-- Job rows are never deleted. -/
theorem step_status {env : Env} {state next : State} {action : Action}
    (taken : step env state action = some next) {job : JobId}
    {status : JobStatus} (found : state.status? job = some status) :
    ∃ status', next.status? job = some status' := by
  obtain ⟨row, rowFound, _⟩ := State.status?_eq_some_iff.mp found
  obtain ⟨row', found', _⟩ := step_job taken rowFound
  exact ⟨row'.status, State.status?_eq_some_iff.mpr ⟨row', found', rfl⟩⟩

theorem step_now {env : Env} {state next : State} {action : Action}
    (taken : step env state action = some next) :
    state.world.now ≤ next.world.now := by
  cases step_cases taken with
  | advanced later => exact later
  | registered success =>
      obtain ⟨workers, _, rfl⟩ := World.registerWorker_eq_some success
      exact le_refl _
  | poll _ case => rw [case.frame]
  | exec _ case => rw [case.frame]
  | reap _ case => rw [case.frame]
  | tick _ case => rw [case.frame]
  | api _ case => rw [case.frame]
  | _ => exact le_refl _

/-! ## Workers -/

/-- An update of the row of one worker by one step. -/
inductive WorkerWrite (state : State) (worker : WorkerId) :
    Action → Worker → Worker → Prop where
  | heartbeat {row : Worker} :
      state.world.alive worker = true →
      WorkerWrite state worker (.heartbeat worker) row
        { row with lastHeartbeatAt := state.world.now }
  | leave {action : Action} {row : Worker} {status : WorkerStatus} :
      status ≠ .active →
      WorkerWrite state worker action row { row with status := status }

theorem step_worker {env : Env} {state next : State} {action : Action}
    (taken : step env state action = some next) {worker : WorkerId}
    {row : Worker} (found : state.world.workers.get? worker = some row) :
    ∃ row', next.world.workers.get? worker = some row' ∧
      (row' = row ∨ WorkerWrite state worker action row row') := by
  have kept : ∀ {world : World}, world.workers = state.world.workers →
      ∃ row', world.workers.get? worker = some row' ∧
        (row' = row ∨ WorkerWrite state worker action row row') := by
    intro world same
    exact ⟨row, by rw [same, found], .inl rfl⟩
  have left : ∀ {other : WorkerId} {status : WorkerStatus},
      status ≠ .active →
      ∃ row', (state.world.setWorkerStatus other status).workers.get? worker =
          some row' ∧
        (row' = row ∨ WorkerWrite state worker action row row') := by
    intro other status inactive
    by_cases same : worker = other
    · subst other
      exact ⟨{ row with status := status },
        by simp [World.setWorkerStatus, found], .inr (.leave inactive)⟩
    · exact ⟨row, by simp [World.setWorkerStatus, same, found], .inl rfl⟩
  cases step_cases taken with
  | registered success =>
      obtain ⟨workers, inserted, rfl⟩ := World.registerWorker_eq_some success
      refine ⟨row, ?_, .inl rfl⟩
      have fresh := (Table.insert?_eq_some_iff.mp inserted).1
      change workers.get? worker = some row
      rw [Table.get?_insert? inserted, if_neg, found]
      rintro rfl
      rw [fresh] at found
      cases found
  | @heartbeat other alive =>
      by_cases same : worker = other
      · subst other
        exact ⟨{ row with lastHeartbeatAt := state.world.now },
          by simp [World.recordHeartbeat, found], .inr (.heartbeat alive)⟩
      · exact ⟨row, by simp [World.recordHeartbeat, same, found], .inl rfl⟩
  | drained => exact left (by decide)
  | retired => exact left (by decide)
  | poll _ case => exact kept (by rw [case.frame])
  | exec _ case => exact kept (by rw [case.frame])
  | reap _ case =>
      cases case with
      | markedDead => exact left (by decide)
      | published rows => exact kept rows.workers
      | _ => exact kept rfl
  | tick _ case => exact kept (by rw [case.frame])
  | api _ case => exact kept (by rw [case.frame])
  | _ => exact kept rfl

/-- A process that has ended never starts again: worker ids are new. -/
theorem step_exited {env : Env} {state next : State} {action : Action}
    (taken : step env state action = some next) {worker : WorkerId}
    {row : Worker} (found : state.world.workers.get? worker = some row)
    (exited : state.world.process worker = some .exited) :
    next.world.process worker = some .exited := by
  have kept : ∀ {world : World}, world.process = state.world.process →
      world.process worker = some .exited := by
    intro world same
    rw [same, exited]
  have other : ∀ {world : World} {changed : WorkerId} {process : Process},
      changed ≠ worker →
      (state.world.setProcess changed process).process = world.process →
      world.process worker = some .exited := by
    intro world changed process different same
    rw [← same]
    simp [World.setProcess, Ne.symm different, exited]
  have alive : ∀ {changed : WorkerId}, state.world.alive changed = true →
      changed ≠ worker := by
    rintro changed alive rfl
    simp [World.alive, exited] at alive
  cases step_cases taken with
  | @registered changed _ success =>
      obtain ⟨workers, inserted, rfl⟩ := World.registerWorker_eq_some success
      have different : changed ≠ worker := by
        rintro rfl
        rw [(Table.insert?_eq_some_iff.mp inserted).1] at found
        cases found
      exact other different rfl
  | stopped isAlive => exact other (alive isAlive) rfl
  | exited isAlive => exact other (alive isAlive) rfl
  | poll _ case => exact kept (by rw [case.frame])
  | exec _ case => exact kept (by rw [case.frame])
  | reap _ case => exact kept (by rw [case.frame])
  | tick _ case => exact kept (by rw [case.frame])
  | api _ case => exact kept (by rw [case.frame])
  | _ => exact kept rfl

/-! ## Which calls exist -/

/-- How a call has come to be in its state after a step. -/
inductive CallChange (env : Env) (state next : State) (call : CallId) :
    Action → Call → Prop where
  | kept {action : Action} {value : Call} :
      state.calls call = some value →
      CallChange env state next call action value
  | started {action : Action} {value : Call} :
      Starts env state action call value →
      state.calls call = none →
      CallChange env state next call action value
  | handedOver {exec : CallId} {poll : PollCall} {rest : List QueueRef}
      {job : JobId} {ids : List JobId} :
      state.calls call = some (.poll poll) →
      poll.phase = .launching rest (job :: ids) →
      CallChange env state next call (.launch call exec)
        (.poll { poll with phase := .launching rest ids })
  | launched {cycle : CallId} {poll : PollCall} {rest : List QueueRef}
      {job : JobId} {ids : List JobId} :
      state.calls cycle = some (.poll poll) →
      poll.phase = .launching rest (job :: ids) →
      CallChange env state next call (.launch cycle call)
        (.exec ⟨job, poll.workerId, .findJob⟩)
  | poll {poll poll' : PollCall} {input : PollInput} {world : World} :
      state.calls call = some (.poll poll) →
      PollStep state.world call poll input world (some poll') →
      next.world = world →
      CallChange env state next call (.poll call input) (.poll poll')
  | exec {exec exec' : ExecCall} {input : ExecInput} {world : World} :
      state.calls call = some (.exec exec) →
      ExecStep state.world exec input world (some exec') →
      next.world = world →
      CallChange env state next call (.exec call input) (.exec exec')
  | reap {owner : WorkerId} {phase phase' : ReapPhase} {input : ReapInput}
      {world : World} :
      state.calls call = some (.reap ⟨owner, phase⟩) →
      ReapStep state.world phase input world (some phase') →
      next.world = world →
      CallChange env state next call (.reap call input) (.reap ⟨owner, phase'⟩)
  | tick {owner : WorkerId} {phase phase' : TickPhase} {input : TickInput}
      {world : World} :
      state.calls call = some (.tick ⟨owner, phase⟩) →
      TickStep env.library state.world phase input world (some phase') →
      next.world = world →
      CallChange env state next call (.tick call input) (.tick ⟨owner, phase'⟩)
  | api {value value' : Call} {input : ApiInput} {world : World} :
      state.calls call = some value →
      ApiStep state.world value input world value' →
      next.world = world →
      handle state.world value input = some (world, value') →
      CallChange env state next call (.api call input) value'

theorem step_call {env : Env} {state next : State} {action : Action}
    (taken : step env state action = some next) {call : CallId} {value : Call}
    (found : next.calls call = some value) :
    CallChange env state next call action value := by
  have updated : ∀ {calls : CallId → Option Call} {changed : CallId}
      {result : Option Call},
      Function.update calls changed result call = some value →
      calls call = some value ∨ (call = changed ∧ result = some value) := by
    intro calls changed result lookup
    by_cases same : call = changed
    · subst changed
      exact .inr ⟨rfl, by simpa using lookup⟩
    · exact .inl (by simpa [same] using lookup)
  cases step_cases taken with
  | exited =>
      simp only [State.exitWorker] at found
      split at found
      · cases found
      · exact .kept found
  | started starts absent =>
      rcases updated found with old | ⟨rfl, same⟩
      · exact .kept old
      · cases same
        exact .started starts absent
  | poll called case =>
      rcases updated found with old | ⟨rfl, same⟩
      · exact .kept old
      · obtain ⟨poll', rfl, rfl⟩ := Option.map_eq_some_iff.mp same
        exact .poll called case rfl
  | launched called phase _ _ _ =>
      rcases updated found with old | ⟨rfl, same⟩
      · rcases updated old with older | ⟨rfl, same⟩
        · exact .kept older
        · cases same
          exact .handedOver called phase
      · cases same
        exact .launched called phase
  | exec called case =>
      rcases updated found with old | ⟨rfl, same⟩
      · exact .kept old
      · obtain ⟨exec', rfl, rfl⟩ := Option.map_eq_some_iff.mp same
        exact .exec called case rfl
  | reap called case =>
      rcases updated found with old | ⟨rfl, same⟩
      · exact .kept old
      · obtain ⟨phase', rfl, rfl⟩ := Option.map_eq_some_iff.mp same
        exact .reap called case rfl
  | tick called case =>
      rcases updated found with old | ⟨rfl, same⟩
      · exact .kept old
      · obtain ⟨phase', rfl, rfl⟩ := Option.map_eq_some_iff.mp same
        exact .tick called case rfl
  | api called case handled =>
      rcases updated found with old | ⟨rfl, same⟩
      · exact .kept old
      · cases same
        exact .api called case rfl handled
  | _ => exact .kept found

namespace Action

/-- The identifier of the call that this action begins. -/
def begins : Action → Option CallId
  | .startPoll call _ => some call
  | .launch _ started => some started
  | .startReap call _ => some call
  | .startTick call _ => some call
  | .request call _ => some call
  | _ => none

/-- The call that takes this step. -/
def actor : Action → Option CallId
  | .poll call _ => some call
  | .launch call _ => some call
  | .exec call _ => some call
  | .reap call _ => some call
  | .tick call _ => some call
  | .api call _ => some call
  | _ => none

def exits : Action → Bool
  | .exit _ => true
  | _ => false

/-- The worker whose process ends in this step. -/
def exiting : Action → Option WorkerId
  | .exit worker => some worker
  | _ => none

theorem exiting_eq_some {action : Action} {worker : WorkerId}
    (exiting : action.exiting = some worker) : action = .exit worker := by
  cases action <;> cases exiting
  rfl

/-- The call and the worker, if a reap cycle begins in this step. -/
def startsReap : Action → Option (CallId × WorkerId)
  | .startReap call reaper => some (call, reaper)
  | _ => none

theorem startsReap_eq_some {action : Action} {call : CallId}
    {reaper : WorkerId} (starts : action.startsReap = some (call, reaper)) :
    action = .startReap call reaper := by
  cases action <;> cases starts
  rfl

/-- A call to the database or to Redis fails in this step.  A rejected
handler is no such failure. -/
def fails (state : State) : Action → Bool
  | .poll _ .fail => true
  | .poll _ (.claim .fail) => true
  | .exec call (.failed _ _) =>
      match state.calls call with
      | some (.exec ⟨_, _, .handler _⟩) => false
      | _ => true
  | .reap _ .fail => true
  | .tick _ .fail => true
  | .api _ (.fail _) => true
  | _ => false

/-- A worker process stops taking part. -/
def stops : Action → Bool
  | .stopPoller _ => true
  | .drain _ => true
  | .retire _ => true
  | .exit _ => true
  | _ => false

def reaps : Action → Bool
  | .startReap _ _ => true
  | .reap _ _ => true
  | _ => false

/-- No call fails, every worker stays, and no reap cycle runs. -/
def steady (state : State) (action : Action) : Bool :=
  !action.fails state && !action.stops && !action.reaps

end Action

/-- A call stays as it is until its own next step or the end of its worker. -/
theorem step_keeps {env : Env} {state next : State} {action : Action}
    (taken : step env state action = some next) (stays : action.exits = false)
    {call : CallId} {value : Call} (found : state.calls call = some value)
    (other : action.actor ≠ some call) : next.calls call = some value := by
  have updated : ∀ {calls : CallId → Option Call} {changed : CallId}
      {result : Option Call}, calls call = some value → changed ≠ call →
      Function.update calls changed result call = some value := by
    intro calls changed result lookup different
    rw [Function.update_of_ne (Ne.symm different), lookup]
  have notCall : ∀ {acting : CallId}, some acting ≠ some call →
      acting ≠ call := by
    rintro acting different rfl
    exact different rfl
  have fresh : ∀ {new : CallId}, state.calls new = none → new ≠ call := by
    rintro new absent rfl
    rw [absent] at found
    cases found
  cases step_cases taken with
  | exited => cases stays
  | started _ absent => exact updated found (fresh absent)
  | poll => exact updated found (notCall other)
  | launched _ _ _ _ absent =>
      exact updated (updated found (notCall other)) (fresh absent)
  | exec => exact updated found (notCall other)
  | reap => exact updated found (notCall other)
  | tick => exact updated found (notCall other)
  | api => exact updated found (notCall other)
  | _ => exact found

theorem step_calls_none {env : Env} {state next : State} {action : Action}
    (taken : step env state action = some next) {call : CallId}
    (absent : state.calls call = none) (other : action.begins ≠ some call) :
    next.calls call = none := by
  cases found : next.calls call with
  | none => rfl
  | some value =>
      have unknown : ∀ {value : Call}, state.calls call ≠ some value := by
        intro value present
        rw [absent] at present
        cases present
      cases step_call taken found with
      | kept called => exact (unknown called).elim
      | started starts => cases starts <;> exact (other rfl).elim
      | handedOver called _ => exact (unknown called).elim
      | launched => exact (other rfl).elim
      | poll called => exact (unknown called).elim
      | exec called => exact (unknown called).elim
      | reap called => exact (unknown called).elim
      | tick called => exact (unknown called).elim
      | api called => exact (unknown called).elim

theorem step_exec {env : Env} {state next : State} {call : CallId}
    {exec : ExecCall} {input : ExecInput}
    (taken : step env state (.exec call input) = some next)
    (called : state.calls call = some (.exec exec)) :
    ∃ exec', ExecStep state.world exec input next.world exec' ∧
      next.calls call = exec'.map .exec := by
  cases step_cases taken with
  | started starts => cases starts
  | exec called' case =>
      cases called.symm.trans called'
      exact ⟨_, case, by simp⟩

theorem step_exec_call {env : Env} {state next : State} {action : Action}
    (taken : step env state action = some next) {call : CallId}
    {exec : ExecCall}
    (called : next.calls call = some (.exec exec)) :
    state.calls call = some (.exec exec) ∨ exec.phase = .findJob ∨
      ∃ before input world, state.calls call = some (.exec before) ∧
        ExecStep state.world before input world (some exec) ∧
        action = .exec call input := by
  generalize same : Call.exec exec = value at called
  cases step_call taken called with
  | kept old =>
      subst same
      exact .inl old
  | started starts =>
      cases starts with
      | request =>
          rename_i request
          cases request <;> cases same
      | _ => cases same
  | launched =>
      cases same
      exact .inr (.inl rfl)
  | exec old case =>
      cases same
      exact .inr (.inr ⟨_, _, _, old, case, rfl⟩)
  | api old case =>
      subst same
      cases case.requests.2
  | _ => cases same

/-- All calls of a history are below the bound, and each of them satisfies a
condition on every transition. -/
def ChecksCalls (bound : CallId)
    (condition : Transition State Action → CallId → Prop)
    (trace : List (Transition State Action)) : Prop :=
  ∀ transition ∈ trace,
    (∀ call ∈ transition.action.begins, call < bound) ∧
    ∀ call < bound, condition transition call

instance (bound : CallId) (condition : Transition State Action → CallId → Prop)
    [∀ transition call, Decidable (condition transition call)]
    (trace : List (Transition State Action)) :
    Decidable (ChecksCalls bound condition trace) :=
  inferInstanceAs (Decidable (∀ transition ∈ trace, _ ∧ ∀ call < bound, _))

section Bounded

variable {env : Env} {start last : State} {bound : CallId}
  {trace : List (Transition State Action)}

theorem calls_none_of_run (run : Run (step env) start trace last)
    (initial : Initial start)
    (below : ∀ transition ∈ trace, ∀ call ∈ transition.action.begins,
      call < bound) {call : CallId} (large : bound ≤ call) :
    last.calls call = none := by
  refine run.invariant (fun state => state.calls call = none) below
    (initial.calls call) ?_
  intro transition small taken absent
  refine step_calls_none taken absent ?_
  intro begins
  exact absurd (small call begins) (Nat.not_lt.mpr large)

/-- In a run with few calls a condition on all calls can be evaluated. -/
theorem ChecksCalls.forall_calls
    {condition : Transition State Action → CallId → Prop}
    (checked : ChecksCalls bound condition trace)
    (run : Run (step env) start trace last) (initial : Initial start)
    (absent : ∀ transition call, transition.before.calls call = none →
      condition transition call) :
    ∀ transition ∈ trace, ∀ call, condition transition call := by
  intro transition member call
  by_cases small : call < bound
  · exact (checked transition member).2 call small
  · obtain ⟨earlier, later, rfl⟩ := List.append_of_mem member
    obtain ⟨before, _, _⟩ := run.around
    refine absent transition call (calls_none_of_run before initial ?_
      (Nat.not_lt.mp small))
    intro other otherMember
    exact (checked other (List.mem_append_left _ otherMember)).1

end Bounded

end Chronos
