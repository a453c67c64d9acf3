import Chronos.Writers

/-!
# What is published on the channel

Seven places publish on `job:transitions`, each with a message of its own
shape.  `Call.announces` lists them: the message of the publish that a call
awaits.  A step appends exactly this message, or, when the publish fails,
loses it.
-/

namespace Chronos

/-- The message of the publish that the call awaits. -/
def Call.announces (now : Time) : Call → Option Message
  | .exec ⟨jobId, _, .publishRunning job _⟩ =>
      some ⟨"job:transition", some jobId, some "running", job.queueId, none,
        none, none, now⟩
  | .exec ⟨jobId, _, .publish job status⟩ =>
      some ⟨"job:transition", some jobId, some status, job.queueId, none,
        none, none, now⟩
  | .reap ⟨_, .publish _ _ job _ queueId⟩ =>
      some ⟨"job:transition", some job, some "queued", queueId, none, none,
        none, now⟩
  | .tick ⟨_, .publish due newJob _⟩ =>
      some ⟨"job:created", some newJob, none, due.row.queueId, none, none,
        some due.id, now⟩
  | .submit ⟨queueId, _, .publishScheduled queue id⟩ =>
      some ⟨"scheduled_job:created", none, none, queueId,
        some queue.projectId, none, some id, now⟩
  | .submit ⟨queueId, _, .publishJob queue id job⟩ =>
      some ⟨"", some id, some job.status.text, queueId,
        some queue.projectId, none, none, now⟩
  | .batch ⟨queueId, _, .publish queue batchId⟩ =>
      some ⟨"batch:created", none, none, queueId, some queue.projectId,
        some batchId, none, now⟩
  | .retry ⟨jobId, .publish queueId project⟩ =>
      some ⟨"job:retried", some jobId, some "queued", queueId, project, none,
        none, now⟩
  | .cancel ⟨jobId, .publish queueId project⟩ =>
      some ⟨"job:cancelled", some jobId, some "cancelled", queueId, project,
        none, none, now⟩
  | _ => none

/-- What a step does to the channel, for the message that the call awaits to
publish and for whether the awaited call fails. -/
inductive Posts (before after : List Message) (failed : Bool) :
    Option Message → Prop where
  | silent : after = before → Posts before after failed none
  | posted {message : Message} :
      after = before ++ [message] → Posts before after failed (some message)
  | lost {message : Message} :
      after = before → failed = true →
      Posts before after failed (some message)

namespace Posts

variable {before after : List Message} {failed : Bool}
  {announced : Option Message}

theorem announced_of_snoc (posts : Posts before after failed announced)
    {message : Message} (published : after = before ++ [message]) :
    announced = some message := by
  have longer : after ≠ before := by
    intro same
    simp [published] at same
  cases posts with
  | silent same => exact (longer same).elim
  | lost same => exact (longer same).elim
  | posted same =>
      rw [published, List.append_cancel_left_eq] at same
      cases same
      rfl

end Posts

/-! ## The steps of one call -/

def ExecInput.fails : ExecInput → Bool
  | .failed _ _ => true
  | _ => false

def ReapInput.fails : ReapInput → Bool
  | .fail => true
  | _ => false

def TickInput.fails : TickInput → Bool
  | .fail => true
  | _ => false

def ApiInput.fails : ApiInput → Bool
  | .fail _ => true
  | _ => false

section Calls

variable {world next : World}

theorem executeJob_posts {exec : ExecCall} {input : ExecInput}
    {exec' : Option ExecCall}
    (taken : executeJob world exec input = some (next, exec')) :
    Posts world.messages next.messages input.fails
      ((Call.exec exec).announces world.now) := by
  obtain ⟨job, worker, phase⟩ := exec
  unfold executeJob at taken
  dsimp only at taken
  split at taken
  · split at taken <;> cases taken <;> exact .silent rfl
  · cases taken; exact .silent rfl
  · split at taken <;> cases taken
    exact .silent rfl
  · cases taken; exact .silent rfl
  · cases taken; exact .posted rfl
  · cases taken; exact .lost rfl rfl
  · simp only [Option.map_eq_some_iff] at taken
    obtain ⟨executions, _, same⟩ := taken
    cases same
    exact .silent rfl
  · cases taken; exact .silent rfl
  · cases taken; exact .silent rfl
  · cases taken; exact .silent rfl
  · cases taken; exact .silent rfl
  · split at taken <;> cases taken
    exact .silent rfl
  · cases taken; exact .silent rfl
  · split at taken <;> cases taken
    exact .silent rfl
  · cases taken; exact .silent rfl
  · split at taken
    · simp only [Option.map_eq_some_iff] at taken
      obtain ⟨committed, success, same⟩ := taken
      cases same
      obtain ⟨_, _, _, rfl⟩ := World.commitDeadLetter_spec success
      exact .silent rfl
    · cases taken
  · cases taken; exact .silent rfl
  · cases taken; exact .posted rfl
  · cases taken; exact .lost rfl rfl
  · cases taken

theorem reap_posts {cycle : ReapCall} {input : ReapInput}
    {cycle' : Option ReapCall}
    (taken : reap world cycle input = some (next, cycle')) :
    Posts world.messages next.messages input.fails
      ((Call.reap cycle).announces world.now) := by
  obtain ⟨owner, phase⟩ := cycle
  unfold reap at taken
  dsimp only at taken
  split at taken
  · split at taken <;> cases taken
    exact .silent rfl
  · cases taken; exact .silent rfl
  · split at taken
    · split at taken <;> cases taken <;> exact .silent rfl
    · cases taken
  · split at taken <;> cases taken
    exact .silent rfl
  · split at taken
    · cases taken
    · split at taken <;> cases taken
      exact .silent rfl
  · cases taken; exact .silent rfl
  · cases taken; exact .posted rfl
  · cases taken; exact .silent rfl
  · cases taken; exact .silent rfl
  · cases taken; exact .lost rfl rfl
  · cases taken; exact .silent rfl
  · cases taken; exact .silent rfl
  · cases taken; exact .silent rfl
  · cases taken; exact .silent rfl
  · cases taken

theorem tick_posts {library : SchedulerLibrary} {ticker : TickCall}
    {input : TickInput} {ticker' : Option TickCall}
    (taken : tick library world ticker input = some (next, ticker')) :
    Posts world.messages next.messages input.fails
      ((Call.tick ticker).announces world.now) := by
  obtain ⟨owner, phase⟩ := ticker
  unfold tick at taken
  dsimp only at taken
  split at taken
  · split at taken <;> cases taken
    exact .silent rfl
  · cases taken; exact .silent rfl
  · cases taken; exact .silent rfl
  · cases taken; exact .silent rfl
  · cases taken; exact .silent rfl
  · simp only [Option.map_eq_some_iff] at taken
    obtain ⟨created, success, same⟩ := taken
    cases same
    rw [(World.createJob_spec success).1]
    exact .silent rfl
  · cases taken; exact .silent rfl
  · cases taken; exact .posted rfl
  · cases taken; exact .silent rfl
  · cases taken; exact .silent rfl
  · cases taken; exact .silent rfl
  · cases taken; exact .lost rfl rfl
  · cases taken

private theorem request_fails {call : Call} :
    Posts world.messages world.messages (ApiInput.fail .other).fails
      (call.announces world.now) := by
  cases announced : call.announces world.now with
  | none => exact .silent rfl
  | some message => exact .lost rfl rfl

private theorem submitJob_posts {call call' : SubmitCall} {input : ApiInput}
    (taken : submitJob world call input = some (next, call')) :
    Posts world.messages next.messages input.fails
      ((Call.submit call).announces world.now) := by
  obtain ⟨queueId, body, phase⟩ := call
  obtain ⟨phase', rfl, case⟩ := submitJob_cases taken
  cases case with
  | scheduledCreated created =>
      obtain ⟨scheduledJobs, _, rfl⟩ := World.createScheduledJob_spec created
      exact .silent rfl
  | jobCreated created =>
      rw [(World.createJob_spec created).1]
      exact .silent rfl
  | scheduledPublished => exact .posted rfl
  | jobPublished => exact .posted rfl
  | failed => exact request_fails
  | _ => exact .silent rfl

private theorem submitBatch_posts {call call' : BatchCall} {input : ApiInput}
    (taken : submitBatch world call input = some (next, call')) :
    Posts world.messages next.messages input.fails
      ((Call.batch call).announces world.now) := by
  obtain ⟨queueId, jobs, phase⟩ := call
  obtain ⟨phase', rfl, case⟩ := submitBatch_cases taken
  cases case with
  | created _ created =>
      rw [(World.createJobs_spec created).1]
      exact .silent rfl
  | published => exact .posted rfl
  | failed => exact request_fails
  | _ => exact .silent rfl

private theorem retryJob_posts {call call' : RetryCall} {input : ApiInput}
    (taken : retryJob world call input = some (next, call')) :
    Posts world.messages next.messages input.fails
      ((Call.retry call).announces world.now) := by
  obtain ⟨job, phase⟩ := call
  obtain ⟨phase', rfl, case⟩ := retryJob_cases taken
  cases case with
  | published => exact .posted rfl
  | failed => exact request_fails
  | _ => exact .silent rfl

private theorem cancelJob_posts {call call' : CancelCall} {input : ApiInput}
    (taken : cancelJob world call input = some (next, call')) :
    Posts world.messages next.messages input.fails
      ((Call.cancel call).announces world.now) := by
  obtain ⟨job, phase⟩ := call
  obtain ⟨phase', rfl, case⟩ := cancelJob_cases taken
  cases case with
  | published => exact .posted rfl
  | failed => exact request_fails
  | _ => exact .silent rfl

theorem handle_posts {call call' : Call} {input : ApiInput}
    (handled : handle world call input = some (next, call')) :
    Posts world.messages next.messages input.fails
      (call.announces world.now) := by
  cases handle_cases handled with
  | submit success => exact submitJob_posts success
  | batch success => exact submitBatch_posts success
  | retry success => exact retryJob_posts success
  | cancel success => exact cancelJob_posts success

end Calls

/-! ## The reaper between its update and its publish -/

/-- The job that the cycle has requeued, with its queue. -/
def ReapPhase.requeued? : ReapPhase → Option (JobId × QueueId)
  | .closeExecutions _ _ job _ queueId => some (job, queueId)
  | .publish _ _ job _ queueId => some (job, queueId)
  | _ => none

section Requeued

variable {world next : World} {worker : WorkerId} {workers : List WorkerId}

theorem ReapPhase.nextWorker_requeued? {phase : ReapPhase}
    (goes : nextWorker workers = some phase) : phase.requeued? = none := by
  cases workers with
  | nil => cases goes
  | cons worker workers => cases goes; rfl

theorem ReapPhase.nextJob_requeued? {jobIds : List JobId} {phase : ReapPhase}
    (goes : nextJob worker workers jobIds = some phase) :
    phase.requeued? = none := by
  cases jobIds with
  | nil => exact nextWorker_requeued? goes
  | cons job jobIds => cases goes; rfl

theorem ReapStep.requeued? {phase phase' : ReapPhase} {input : ReapInput}
    (case : ReapStep world phase input next (some phase')) {job : JobId}
    {queueId : QueueId} (requeued : phase'.requeued? = some (job, queueId)) :
    phase.requeued? = some (job, queueId) ∨
      ∃ row, input = .ok ∧ world.jobs.get? job = some row ∧
        row.queueId = queueId ∧
        ∃ worker workers jobIds, phase = .requeue worker workers job jobIds := by
  generalize after : some phase' = result at case
  cases case with
  | requeued present =>
      cases after
      cases requeued
      exact .inr ⟨_, rfl, present, rfl, _, _, _, rfl⟩
  | closed =>
      cases after
      exact .inl requeued
  | staleFound =>
      rw [ReapPhase.nextWorker_requeued? after.symm] at requeued
      cases requeued
  | noOrphans =>
      rw [ReapPhase.nextWorker_requeued? after.symm] at requeued
      cases requeued
  | jobsFound =>
      rw [ReapPhase.nextJob_requeued? after.symm] at requeued
      cases requeued
  | published =>
      rw [ReapPhase.nextJob_requeued? after.symm] at requeued
      cases requeued
  | skipped =>
      rw [ReapPhase.nextJob_requeued? after.symm] at requeued
      cases requeued
  | markedDead => cases after; cases requeued
  | orphansFound => cases after; cases requeued
  | ended => cases after

end Requeued

/-! ## The steps of the system -/

section Steps

variable {env : Env} {state next : State} {action : Action}

/-- A call that awaits a publish fails only by the failure of that publish. -/
private theorem exec_fails {call : CallId} {exec : ExecCall}
    {input : ExecInput} {message : Message}
    (called : state.calls call = some (.exec exec))
    (announced : (Call.exec exec).announces state.world.now = some message)
    (failed : input.fails = true) :
    Action.fails state (.exec call input) = true := by
  obtain ⟨job, worker, phase⟩ := exec
  cases input with
  | failed error random =>
      cases phase with
      | handler attempt => cases announced
      | _ => simp only [Action.fails, called]
  | _ => cases failed

/-- The step of the call that acts, as its own program takes it. -/
inductive Acting (env : Env) (state next : State) (call : CallId) :
    Call → Action → Prop where
  | poll {poll : PollCall} {input : PollInput} {poll' : Option PollCall} :
      pollCycle state.world call poll input = some (next.world, poll') →
      next.calls call = poll'.map .poll →
      Acting env state next call (.poll poll) (.poll call input)
  | launch {poll poll' : PollCall} {exec : CallId} :
      next.world = state.world →
      next.calls call = some (.poll poll') →
      Acting env state next call (.poll poll) (.launch call exec)
  | exec {exec : ExecCall} {input : ExecInput} {exec' : Option ExecCall} :
      executeJob state.world exec input = some (next.world, exec') →
      next.calls call = exec'.map .exec →
      Acting env state next call (.exec exec) (.exec call input)
  | reap {cycle : ReapCall} {input : ReapInput} {cycle' : Option ReapCall} :
      reap state.world cycle input = some (next.world, cycle') →
      next.calls call = cycle'.map .reap →
      Acting env state next call (.reap cycle) (.reap call input)
  | tick {ticker : TickCall} {input : TickInput} {ticker' : Option TickCall} :
      tick env.library state.world ticker input = some (next.world, ticker') →
      next.calls call = ticker'.map .tick →
      Acting env state next call (.tick ticker) (.tick call input)
  | api {value value' : Call} {input : ApiInput} :
      handle state.world value input = some (next.world, value') →
      next.calls call = some value' →
      Acting env state next call value (.api call input)

theorem step_acting (taken : step env state action = some next)
    {call : CallId} {value : Call} (acting : action.actor = some call)
    (called : state.calls call = some value) :
    Acting env state next call value action := by
  cases action with
  | poll acting' input =>
      cases acting
      simp only [step, called] at taken
      split at taken <;> try cases taken
      rename_i poll same
      cases same
      simp only [State.resume, Option.map_eq_some_iff] at taken
      obtain ⟨⟨world, poll'⟩, success, rfl⟩ := taken
      exact .poll success (Function.update_self ..)
  | launch acting' exec =>
      cases acting
      cases step_cases taken with
      | launched called' _ _ different =>
          cases called.symm.trans called'
          have kept : ∀ {value value' : Call},
              ((state.set call (some value)).set exec (some value')).calls call =
                some value := by
            intro value value'
            simp only [State.set]
            rw [Function.update_of_ne (Ne.symm different),
              Function.update_self]
          exact .launch rfl kept
      | started starts => cases starts
  | exec acting' input =>
      cases acting
      simp only [step, called] at taken
      split at taken <;> try cases taken
      rename_i exec same
      cases same
      simp only [State.resume, Option.map_eq_some_iff] at taken
      obtain ⟨⟨world, exec'⟩, success, rfl⟩ := taken
      exact .exec success (Function.update_self ..)
  | reap acting' input =>
      cases acting
      simp only [step, called] at taken
      split at taken <;> try cases taken
      rename_i cycle same
      cases same
      simp only [State.resume, Option.map_eq_some_iff] at taken
      obtain ⟨⟨world, cycle'⟩, success, rfl⟩ := taken
      exact .reap success (Function.update_self ..)
  | tick acting' input =>
      cases acting
      simp only [step, called] at taken
      split at taken <;> try cases taken
      rename_i ticker same
      cases same
      simp only [State.resume, Option.map_eq_some_iff] at taken
      obtain ⟨⟨world, ticker'⟩, success, rfl⟩ := taken
      exact .tick success (Function.update_self ..)
  | api acting' input =>
      cases acting
      simp only [step, called, Option.map_eq_some_iff] at taken
      obtain ⟨⟨world, value'⟩, success, rfl⟩ := taken
      exact .api success (Function.update_self ..)
  | _ => cases acting

theorem step_posts (taken : step env state action = some next) {call : CallId}
    {value : Call} (acting : action.actor = some call)
    (called : state.calls call = some value) :
    Posts state.world.messages next.world.messages (action.fails state)
      (value.announces state.world.now) := by
  cases step_acting taken acting called with
  | poll success =>
      rw [(pollCycle_cases success).frame]
      exact .silent rfl
  | launch same =>
      rw [same]
      exact .silent rfl
  | @exec exec _ _ success =>
      generalize announced :
        (Call.exec exec).announces state.world.now = message
      have posts := executeJob_posts success
      rw [announced] at posts
      cases posts with
      | silent same => exact .silent same
      | posted same => exact .posted same
      | lost same failed => exact .lost same (exec_fails called announced failed)
  | @reap _ input _ success =>
      have posts := reap_posts success
      cases input <;> exact posts
  | @tick _ input _ success =>
      have posts := tick_posts success
      cases input <;> exact posts
  | @api _ _ input success =>
      have posts := handle_posts success
      cases input <;> exact posts

theorem step_messages (taken : step env state action = some next)
    (noCall : action.actor = none) :
    next.world.messages = state.world.messages := by
  cases step_cases taken with
  | registered success =>
      obtain ⟨workers, _, rfl⟩ := World.registerWorker_eq_some success
      rfl
  | poll => cases noCall
  | launched => cases noCall
  | exec => cases noCall
  | reap => cases noCall
  | tick => cases noCall
  | api => cases noCall
  | _ => rfl

theorem exists_acting (taken : step env state action = some next)
    {call : CallId} (acting : action.actor = some call) :
    ∃ value, state.calls call = some value := by
  cases step_cases taken with
  | poll called => cases acting; exact ⟨_, called⟩
  | launched called => cases acting; exact ⟨_, called⟩
  | exec called => cases acting; exact ⟨_, called⟩
  | reap called => cases acting; exact ⟨_, called⟩
  | tick called => cases acting; exact ⟨_, called⟩
  | api called => cases acting; exact ⟨_, called⟩
  | started starts => cases starts <;> cases acting
  | _ => cases acting

end Steps

end Chronos
