import Chronos.ConcurrencyLimit
import Chronos.Messages
import Chronos.Requests
import Chronos.Lib.Latest

/-!
# The event stream beside the jobs table

The database and the channel are written one after the other: a call commits
a status and then publishes it.  `Call.owes` is the publish still to come.
The last message about a job tells its status when the last commit is one of
those that are reported, and when its publish has not been lost or overtaken.
Claims are not reported at all, batch and cron jobs are not announced with a
status, and a retry is reported under another name.
-/

namespace Chronos

/-- The job that the call's next publish is about, and the status that the
message will carry. -/
def Call.owes : Call → Option (JobId × Option String)
  | .exec ⟨job, _, .publishRunning _ _⟩ => some (job, some "running")
  | .exec ⟨job, _, .publish _ status⟩ => some (job, some status)
  | .reap ⟨_, .closeExecutions _ _ job _ _⟩ => some (job, some "queued")
  | .reap ⟨_, .publish _ _ job _ _⟩ => some (job, some "queued")
  | .tick ⟨_, .advance _ newJob _ _⟩ => some (newJob, none)
  | .tick ⟨_, .publish _ newJob _⟩ => some (newJob, none)
  | .submit ⟨_, _, .publishJob _ id job⟩ => some (id, some job.status.text)
  | .retry ⟨job, .publish _ _⟩ => some (job, some "queued")
  | .cancel ⟨job, .publish _ _⟩ => some (job, some "cancelled")
  | _ => none

def State.owes (state : State) (call : CallId) :
    Option (JobId × Option String) :=
  (state.calls call).bind Call.owes

/-- The commits that write the status of a job. -/
inductive StatusCommit where
  | submit
  | batch
  | cron
  | claim
  | running
  | complete
  | retry
  | deadLetter
  | requeue
  | manualRetry
  | cancel
  deriving DecidableEq

namespace StatusCommit

/-- A message about the job follows, and it carries a status. -/
def told : StatusCommit → Bool
  | .batch => false
  | .cron => false
  | .claim => false
  | _ => true

/-- The status that the message carries is the one that was written. -/
def reported (commit : StatusCommit) : Bool :=
  commit.told && commit ≠ .retry

end StatusCommit

/-- The commit of an `executeJob` call that awaits one. -/
def ExecPhase.commit? : ExecPhase → Option StatusCommit
  | .markRunning _ _ => some .running
  | .complete _ _ => some .complete
  | .retry _ _ _ _ => some .retry
  | .deadLetter _ _ => some .deadLetter
  | _ => none

/-- The commit of this step, if it writes the status of the job. -/
def Action.commits (state : State) (job : JobId) :
    Action → Option StatusCommit
  | .poll call (.claim .ok) =>
      match state.calls call with
      | some (.poll ⟨_, .claiming _ _ (.commit _ ids)⟩) =>
          if job ∈ ids then some .claim else none
      | _ => none
  | .exec call .ok =>
      match state.calls call with
      | some (.exec ⟨target, _, phase⟩) =>
          if target = job then phase.commit? else none
      | _ => none
  | .reap call .ok =>
      match state.calls call with
      | some (.reap ⟨_, .requeue _ _ target _⟩) =>
          if target = job then some .requeue else none
      | _ => none
  | .tick call (.created id) =>
      match state.calls call with
      | some (.tick ⟨_, .createJob _ _ _ _⟩) =>
          if id = job then some .cron else none
      | _ => none
  | .api call .ok =>
      match state.calls call with
      | some (.retry ⟨target, .transaction _ _ _⟩) =>
          if target = job then some .manualRetry else none
      | some (.cancel ⟨target, .update _ _⟩) =>
          if target = job then some .cancel else none
      | _ => none
  | .api call (.created ids) =>
      match state.calls call with
      | some (.submit ⟨_, _, .createJob _ _⟩) =>
          if ids = [job] then some .submit else none
      | some (.batch ⟨_, _, .createJobs _ _ _⟩) =>
          if job ∈ ids then some .batch else none
      | _ => none
  | _ => none

/-- The last commit of the job's status in a history, with its call. -/
def lastCommit (job : JobId) (trace : List (Transition State Action)) :
    Option (CallId × StatusCommit) :=
  latest (fun transition =>
    (transition.action.commits transition.before job).bind fun commit =>
      transition.action.actor.map fun call => (call, commit)) trace

/-- The status carried by the last message that names the job. -/
def replay (messages : List Message) (job : JobId) : Option String :=
  (latest (fun message =>
    if message.jobId = some job then some message.status else none)
    messages).join

/-- The last message about the job tells its status in the database. -/
def Mirrors (world : World) (job : JobId) : Prop :=
  replay world.messages job =
    (world.jobs.get? job).map fun row => row.status.text

theorem replay_snoc (messages : List Message) (message : Message)
    (job : JobId) :
    replay (messages ++ [message]) job =
      if message.jobId = some job then message.status
      else replay messages job := by
  unfold replay
  rw [latest_snoc]
  by_cases named : message.jobId = some job
  · simp [named]
  · simp [named]

theorem replay_snoc_of_ne {messages : List Message} {message : Message}
    {job : JobId} (other : message.jobId ≠ some job) :
    replay (messages ++ [message]) job = replay messages job := by
  rw [replay_snoc, if_neg other]

section Owing

variable {value : Call} {now : Time} {message : Message} {job : JobId}
  {status : Option String}

theorem Call.owes_of_announces (announced : value.announces now = some message)
    (named : message.jobId = some job) :
    value.owes = some (job, message.status) := by
  unfold Call.announces at announced
  split at announced <;> cases announced <;> cases named <;> rfl

theorem Call.announces_of_owes (announced : value.announces now = some message)
    (owed : value.owes = some (job, status)) :
    message.jobId = some job ∧ message.status = status := by
  unfold Call.announces at announced
  split at announced <;> cases announced <;> cases owed <;> exact ⟨rfl, rfl⟩

theorem Call.owes_reap (owner : WorkerId) (phase : ReapPhase) :
    (Call.reap ⟨owner, phase⟩).owes =
      phase.requeued?.map fun requeued => (requeued.1, some "queued") := by
  cases phase <;> rfl

theorem Call.owes_of_quiet (isRequest : value.isRequest = true)
    (quiet : value.publishing = false) : value.owes = none := by
  unfold Call.owes
  split <;> first | rfl | (cases isRequest; done) | cases quiet

theorem Call.publishing_of_announces (isRequest : value.isRequest = true)
    (announced : value.announces now = some message) :
    value.publishing = true := by
  unfold Call.announces at announced
  split at announced <;>
    first | rfl | cases isRequest | cases announced

theorem Call.announces_ne_none (isRequest : value.isRequest = true)
    (owed : value.owes = some (job, status)) : value.announces now ≠ none := by
  unfold Call.owes at owed
  split at owed <;>
    first | (cases isRequest; done) | cases owed
  all_goals exact Option.some_ne_none _

end Owing

/-! ## Commits -/

theorem JobWrite.commits {state : State} {job : JobId} {action : Action}
    {row row' : Job} (write : JobWrite state job action row row') :
    ∃ commit, action.commits state job = some commit := by
  cases write with
  | @claim call poll queue rest txNow ids _ called phase member =>
      obtain ⟨worker, at'⟩ := poll
      subst phase
      exact ⟨.claim, by simp [Action.commits, called, member]⟩
  | @markRunning call exec snapshot policy _ called target phase =>
      obtain ⟨jobId, worker, at'⟩ := exec
      subst target phase
      exact ⟨.running, by simp [Action.commits, called, ExecPhase.commit?]⟩
  | @complete call exec attempt durationMs _ called target phase =>
      obtain ⟨jobId, worker, at'⟩ := exec
      subst target phase
      exact ⟨.complete, by simp [Action.commits, called, ExecPhase.commit?]⟩
  | @retry call exec attempt failure delayMs runAt _ called target phase =>
      obtain ⟨jobId, worker, at'⟩ := exec
      subst target phase
      exact ⟨.retry, by simp [Action.commits, called, ExecPhase.commit?]⟩
  | @deadLetter call exec attempt failure _ called target phase =>
      obtain ⟨jobId, worker, at'⟩ := exec
      subst target phase
      exact ⟨.deadLetter, by simp [Action.commits, called, ExecPhase.commit?]⟩
  | requeueOrphan called =>
      exact ⟨.requeue, by simp [Action.commits, called]⟩
  | @resetForRetry call request queueId project deadLetter _ called target
      phase =>
      obtain ⟨jobId, at'⟩ := request
      subst target phase
      exact ⟨.manualRetry, by simp [Action.commits, called]⟩
  | @cancel call request queueId project _ called target phase =>
      obtain ⟨jobId, at'⟩ := request
      subst target phase
      exact ⟨.cancel, by simp [Action.commits, called]⟩

theorem JobCreated.commits {state : State} {job : JobId} {action : Action}
    {row : Job} (created : JobCreated state job action row) :
    ∃ commit, action.commits state job = some commit := by
  cases created with
  | @submitted call request queue row called phase =>
      obtain ⟨queueId, body, at'⟩ := request
      subst phase
      exact ⟨.submit, by simp [Action.commits, called]⟩
  | @batch call request queue batchId rows ids row called phase member =>
      obtain ⟨queueId, jobs, at'⟩ := request
      subst phase
      have inBatch : job ∈ ids := (List.of_mem_zip member).1
      exact ⟨.batch, by simp [Action.commits, called, inBatch]⟩
  | materialized called =>
      exact ⟨.cron, by simp [Action.commits, called]⟩

/-- The status of a job before and after a commit, and what the call owes
after it. -/
inductive Committed (job : JobId) (before after : Option JobStatus)
    (owed : Option (JobId × Option String)) : StatusCommit → Prop where
  | reported {commit : StatusCommit} {status : JobStatus} :
      commit.reported = true →
      after = some status →
      owed = some (job, some status.text) →
      status ≠ .claimed →
      Committed job before after owed commit
  | retry :
      after = some .queued →
      owed = some (job, some "failed_retrying") →
      Committed job before after owed .retry
  | claim :
      after = some .claimed →
      owed = none →
      Committed job before after owed .claim
  | untold {commit : StatusCommit} :
      commit = .batch ∨ commit = .cron →
      before = none →
      after ≠ none →
      (∀ status, owed = some (job, status) → status = none) →
      Committed job before after owed commit

namespace World

variable {world next : World} {job : JobId}

/-- The committed status of a job. -/
def status? (world : World) (job : JobId) : Option JobStatus :=
  (world.jobs.get? job).map (·.status)

theorem status?_updateJob (possible : world.writable job = true)
    {update : Job → Job} {status : JobStatus}
    (writes : ∀ row, (update row).status = status) :
    (world.updateJob job update).status? job = some status := by
  simp only [writable, Bool.and_eq_true, Option.isSome_iff_exists] at possible
  obtain ⟨⟨row, found⟩, _⟩ := possible
  simp [status?, get?_updateJob, found, writes]

theorem createJob_status {id : JobId} {row : Job}
    (created : world.createJob id row = some next) :
    world.status? id = none ∧ next.status? id = some row.status := by
  obtain ⟨_, fresh, lookup⟩ := createJob_spec created
  simp [status?, fresh, lookup, Job.stamped]

theorem createJobs_status {rows : List (JobId × Job)}
    (created : world.createJobs rows = some next) {id : JobId}
    (member : id ∈ rows.map Prod.fst) :
    world.status? id = none ∧ next.status? id ≠ none := by
  induction rows generalizing world with
  | nil => cases member
  | cons head rows induction =>
      obtain ⟨other, row⟩ := head
      obtain ⟨middle, first, rest⟩ := createJobs_cons_eq_some.mp created
      obtain ⟨_, fresh, lookup⟩ := createJob_spec first
      by_cases same : id = other
      · subst other
        have stays := createJobs_preserves rest
          ((lookup id).trans (if_pos rfl))
        simp [status?, fresh, stays]
      · have later : id ∈ rows.map Prod.fst := by
          simpa [same] using member
        obtain ⟨absent, present⟩ := induction rest later
        simp only [status?, lookup, if_neg same] at absent
        exact ⟨absent, present⟩

end World

section Programs

variable {world next : World} {job : JobId} {commit : StatusCommit}

theorem executeJob_commits {worker : WorkerId} {phase : ExecPhase}
    {exec' : Option ExecCall}
    (taken : executeJob world ⟨job, worker, phase⟩ .ok = some (next, exec'))
    (commits : phase.commit? = some commit) :
    Committed job (world.status? job) (next.status? job)
      ((exec'.map Call.exec).bind Call.owes) commit := by
  have case := executeJob_cases taken
  generalize isCall : (ExecCall.mk job worker phase) = exec at case
  cases case with
  | marked before writable =>
      subst isCall before
      cases commits
      exact .reported rfl
        (World.status?_updateJob writable fun _ => rfl) rfl (by decide)
  | completed before writable =>
      subst isCall before
      cases commits
      exact .reported rfl
        (World.status?_updateJob writable fun _ => rfl) rfl (by decide)
  | retried before writable =>
      subst isCall before
      cases commits
      exact .retry (World.status?_updateJob writable fun _ => rfl) rfl
  | @deadLettered attempt _ _ before writable success =>
      subst isCall before
      cases commits
      obtain ⟨_, _, _, rfl⟩ := World.commitDeadLetter_spec success
      have after : (world.updateJob job (Job.moveToDeadLetter attempt.number
          world.now)).status? job = some .deadLetter :=
        World.status?_updateJob writable fun _ => rfl
      exact .reported rfl after rfl (by decide)
  | jobMissing before => subst isCall before; cases commits
  | found before => subst isCall before; cases commits
  | announced before => subst isCall before; cases commits
  | published before => subst isCall before; cases commits

private theorem submitJob_commits {queueId : QueueId} {body : CreateJobBody}
    {queue : Queue} {row : Job} {call' : SubmitCall}
    (taken : submitJob world ⟨queueId, body, .createJob queue row⟩
      (.created [job]) = some (next, call')) (waiting : row.status ≠ .claimed) :
    Committed job (world.status? job) (next.status? job)
      (Call.submit call').owes .submit := by
  obtain ⟨phase', rfl, case⟩ := submitJob_cases taken
  cases case with
  | jobCreated created =>
      exact .reported rfl (World.createJob_status created).2 rfl waiting

private theorem submitBatch_commits {queueId : QueueId}
    {jobs : List BatchJobBody} {queue : Queue} {batchId : String}
    {rows : List Job} {ids : List JobId} {call' : BatchCall}
    (taken : submitBatch world ⟨queueId, jobs, .createJobs queue batchId rows⟩
      (.created ids) = some (next, call')) (member : job ∈ ids) :
    Committed job (world.status? job) (next.status? job)
      (Call.batch call').owes .batch := by
  obtain ⟨phase', rfl, case⟩ := submitBatch_cases taken
  cases case with
  | created sameLength created =>
      have keys : (ids.zip rows).map Prod.fst = ids :=
        List.map_fst_zip (Nat.le_of_eq sameLength)
      obtain ⟨absent, present⟩ :=
        World.createJobs_status created (keys.symm ▸ member)
      exact .untold (.inl rfl) absent present fun _ owed => by cases owed

private theorem retryJob_commits {queueId : QueueId}
    {project : Option ProjectId} {deadLetter : Bool} {call' : RetryCall}
    (taken : retryJob world ⟨job, .transaction queueId project deadLetter⟩ .ok =
      some (next, call')) :
    Committed job (world.status? job) (next.status? job)
      (Call.retry call').owes .manualRetry := by
  obtain ⟨phase', rfl, case⟩ := retryJob_cases taken
  cases case with
  | committed writable =>
      have after : (world.updateJob job (Job.resetForRetry
          world.now)).status? job = some .queued :=
        World.status?_updateJob writable fun _ => rfl
      exact .reported rfl after rfl (by decide)

private theorem cancelJob_commits {queueId : QueueId}
    {project : Option ProjectId} {call' : CancelCall}
    (taken : cancelJob world ⟨job, .update queueId project⟩ .ok =
      some (next, call')) :
    Committed job (world.status? job) (next.status? job)
      (Call.cancel call').owes .cancel := by
  obtain ⟨phase', rfl, case⟩ := cancelJob_cases taken
  cases case with
  | committed writable =>
      exact .reported rfl (World.status?_updateJob writable fun _ => rfl) rfl
        (by decide)

end Programs

section Steps

variable {env : Env} {state next : State} {action : Action} {job : JobId}

theorem step_uncommitted (taken : step env state action = some next)
    (silent : action.commits state job = none) :
    next.status? job = state.status? job := by
  have none : ∀ {commit}, action.commits state job ≠ some commit := by
    intro commit commits
    rw [silent] at commits
    cases commits
  cases found : state.world.jobs.get? job with
  | some row =>
      obtain ⟨row', found', same | write⟩ := step_job taken found
      · rw [State.status?, State.status?, found, found', same]
      · obtain ⟨commit, commits⟩ := write.commits
        exact (none commits).elim
  | none =>
      cases found' : next.world.jobs.get? job with
      | none => rw [State.status?, State.status?, found, found']
      | some row =>
          obtain ⟨commit, commits⟩ := (step_created taken found found').commits
          exact (none commits).elim

private theorem exec_owes {world : World} {target : JobId} {worker : WorkerId}
    {phase : ExecPhase} {exec' : ExecCall} {input : ExecInput}
    (case : ExecStep state.world ⟨target, worker, phase⟩ input world
      (some exec')) {status : Option String}
    (owed : (Call.exec exec').owes = some (job, status)) :
    input = .ok ∧ target = job ∧ ∃ commit, phase.commit? = some commit := by
  cases case with
  | marked before => cases before; cases owed; exact ⟨rfl, rfl, _, rfl⟩
  | completed before => cases before; cases owed; exact ⟨rfl, rfl, _, rfl⟩
  | retried before => cases before; cases owed; exact ⟨rfl, rfl, _, rfl⟩
  | deadLettered before => cases before; cases owed; exact ⟨rfl, rfl, _, rfl⟩
  | rejected =>
      unfold handleFailure at owed
      dsimp only at owed
      split at owed <;> cases owed
  | _ => cases owed

private theorem request_owes {call : CallId} {world : World}
    {value value' : Call} {input : ApiInput}
    (called : state.calls call = some value)
    (isRequest : value'.isRequest = true)
    (case : RequestStep state.world value input world value')
    {status : Option String} (owed : value'.owes = some (job, status)) :
    ∃ commit, (Action.api call input).commits state job = some commit := by
  cases case with
  | waited _ _ quiet =>
      rw [Call.owes_of_quiet isRequest quiet] at owed
      cases owed
  | published _ _ quiet =>
      rw [Call.owes_of_quiet isRequest quiet] at owed
      cases owed
  | publishFailed _ quiet =>
      rw [Call.owes_of_quiet isRequest quiet] at owed
      cases owed
  | committed commits =>
      cases commits with
      | scheduled => cases owed
      | batchSubmitted => cases owed
      | submitted =>
          cases owed
          exact ⟨.submit, by simp [Action.commits, called]⟩
      | retried =>
          cases owed
          exact ⟨.manualRetry, by simp [Action.commits, called]⟩
      | cancelled =>
          cases owed
          exact ⟨.cancel, by simp [Action.commits, called]⟩

/-- A call begins to owe a publish about a job with its commit. -/
theorem step_owes (taken : step env state action = some next) {call : CallId}
    {status : Option String} (owed : next.owes call = some (job, status)) :
    state.owes call = some (job, status) ∨
      action.actor = some call ∧
        ∃ commit, action.commits state job = some commit := by
  obtain ⟨value, found, owes⟩ := Option.bind_eq_some_iff.mp owed
  cases step_call taken found with
  | kept called => exact .inl (Option.bind_eq_some_iff.mpr ⟨value, called, owes⟩)
  | started starts =>
      cases starts with
      | request =>
          rename_i body
          cases body <;> cases owes
      | _ => cases owes
  | handedOver => cases owes
  | launched => cases owes
  | poll => cases owes
  | @exec exec exec' input world called case =>
      obtain ⟨target, worker, phase⟩ := exec
      obtain ⟨rfl, rfl, commit, commits⟩ := exec_owes case owes
      exact .inr ⟨rfl, commit, by simp [Action.commits, called, commits]⟩
  | @reap owner phase phase' input world called case =>
      rw [Call.owes_reap] at owes
      obtain ⟨⟨target, queueId⟩, requeued, same⟩ :=
        Option.map_eq_some_iff.mp owes
      cases same
      rcases case.requeued? requeued with earlier | ⟨_, rfl, _, _, updated⟩
      · left
        rw [State.owes, called, Option.bind_some, Call.owes_reap, earlier]
        rfl
      · obtain ⟨worker, workers, jobIds, rfl⟩ := updated
        exact .inr ⟨rfl, .requeue, by simp [Action.commits, called]⟩
  | @tick owner phase phase' input world called case =>
      generalize after : some phase' = result at case
      cases case with
      | created =>
          cases after
          cases owes
          exact .inr ⟨rfl, .cron, by simp [Action.commits, called]⟩
      | advanced =>
          cases after
          exact .inl (Option.bind_eq_some_iff.mpr ⟨_, called, owes⟩)
      | @evaluated due defs =>
          cases after
          have evaluated := evaluateDefinition_cases env.library state.world due defs
          generalize evaluateDefinition env.library state.world due defs = reached
            at owes evaluated
          cases evaluated <;> cases owes
      | finished => cases after
      | findFailed => cases after
      | _ => cases after; cases owes
  | api called case _ handled =>
      right
      exact ⟨rfl, request_owes called case.requests.2
        (RequestStep.of_handle handled).1 owes⟩

private theorem step_handles {call : CallId} {value : Call} {input : ApiInput}
    (taken : step env state (.api call input) = some next)
    (called : state.calls call = some value) :
    ∃ value', HandleStep state.world input next.world value value' ∧
      next.owes call = value'.owes := by
  cases step_acting taken rfl called with
  | api success after =>
      refine ⟨_, handle_cases success, ?_⟩
      rw [State.owes, after]
      rfl

private theorem claim_commits {call : CallId} {worker : WorkerId}
    {queue : QueueRef} {rest : List QueueRef} {txNow : Time} {ids : List JobId}
    (taken : step env state (.poll call (.claim .ok)) = some next)
    (locks : LockInv state)
    (called : state.calls call =
      some (.poll ⟨worker, .claiming queue rest (.commit txNow ids)⟩))
    (member : job ∈ ids) :
    Committed job (state.status? job) (next.status? job) (next.owes call)
      .claim := by
  have returns := ClaimReturns.of_commit taken called rfl
  refine .claim (returns.status_after taken locks member) ?_
  cases step_acting taken rfl called with
  | @poll _ _ poll' _ after =>
      rw [State.owes, after]
      cases poll' <;> rfl

private theorem requeue_commits {call : CallId} {owner worker : WorkerId}
    {workers : List WorkerId} {jobIds : List JobId}
    (taken : step env state (.reap call .ok) = some next)
    (called : state.calls call =
      some (.reap ⟨owner, .requeue worker workers job jobIds⟩)) :
    Committed job (state.status? job) (next.status? job) (next.owes call)
      .requeue := by
  have acts := step_acting taken rfl called
  obtain ⟨world, calls⟩ := next
  cases acts with
  | reap success after =>
      dsimp only [reap] at success
      split at success
      · cases success
      · split at success <;> cases success
        rename_i writable
        have written : (state.world.updateJob job (Job.requeueOrphan
            state.world.now)).status? job = some .queued :=
          World.status?_updateJob writable fun _ => rfl
        exact .reported rfl written (by rw [State.owes, after]; rfl)
          (by decide)

private theorem cron_commits {call : CallId} {owner : WorkerId} {due : DueJob}
    {row : Job} {nextRun : Time} {defs : List DueJob}
    (taken : step env state (.tick call (.created job)) = some next)
    (called : state.calls call =
      some (.tick ⟨owner, .createJob due row nextRun defs⟩)) :
    Committed job (state.status? job) (next.status? job) (next.owes call)
      .cron := by
  cases step_acting taken rfl called with
  | tick success after =>
      simp only [tick, Option.map_eq_some_iff] at success
      obtain ⟨created, success, same⟩ := success
      cases same
      obtain ⟨absent, present⟩ := World.createJob_status success
      refine .untold (.inr rfl) absent (ne_of_eq_of_ne present
        (Option.some_ne_none _)) ?_
      intro status owed
      rw [State.owes, after] at owed
      cases owed
      rfl

theorem step_commits (taken : step env state action = some next)
    {reads : CallId → Time → Prop} (locks : LockInv state)
    (rows : RowsInv reads state) {commit : StatusCommit}
    (commits : action.commits state job = some commit) :
    ∃ call, action.actor = some call ∧
      next.world.messages = state.world.messages ∧
      Committed job (state.status? job) (next.status? job) (next.owes call)
        commit := by
  have silent : ∀ {call value}, action.actor = some call →
      state.calls call = some value → value.announces state.world.now = none →
      next.world.messages = state.world.messages := by
    intro call value acting called announced
    have posts := step_posts taken acting called
    rw [announced] at posts
    cases posts with
    | silent same => exact same
  unfold Action.commits at commits
  split at commits
  · rename_i call
    split at commits
    · rename_i called
      split at commits <;> cases commits
      exact ⟨call, rfl, silent rfl called rfl,
        claim_commits taken locks called ‹_›⟩
    · cases commits
  · rename_i call
    split at commits
    · rename_i target worker phase called
      split at commits
      · rename_i same
        subst target
        refine ⟨call, rfl, silent rfl called ?_, ?_⟩
        · cases phase <;> first | rfl | cases commits
        · cases step_acting taken rfl called with
          | exec success after =>
              rw [State.owes, after]
              exact executeJob_commits success commits
      · cases commits
    · cases commits
  · rename_i call
    split at commits
    · rename_i called
      split at commits <;> cases commits
      rename_i same
      subst same
      exact ⟨call, rfl, silent rfl called rfl, requeue_commits taken called⟩
    · cases commits
  · rename_i call id
    split at commits
    · rename_i called
      split at commits <;> cases commits
      rename_i same
      subst same
      exact ⟨call, rfl, silent rfl called rfl, cron_commits taken called⟩
    · cases commits
  · rename_i call
    split at commits
    · rename_i called
      split at commits <;> cases commits
      rename_i same
      subst same
      refine ⟨call, rfl, silent rfl called rfl, ?_⟩
      obtain ⟨value', handled, owes⟩ := step_handles taken called
      rw [owes]
      cases handled with
      | retry success => exact retryJob_commits success
    · rename_i called
      split at commits <;> cases commits
      rename_i same
      subst same
      refine ⟨call, rfl, silent rfl called rfl, ?_⟩
      obtain ⟨value', handled, owes⟩ := step_handles taken called
      rw [owes]
      cases handled with
      | cancel success => exact cancelJob_commits success
    · cases commits
  · rename_i call ids
    split at commits
    · rename_i queueId body queue row called
      split at commits <;> cases commits
      rename_i same
      subst same
      refine ⟨call, rfl, silent rfl called rfl, ?_⟩
      obtain ⟨reading, _, computed⟩ := rows.submit called rfl
      have waiting : row.status ≠ .claimed := by
        rw [computed]
        rcases submittedStatus_cases (body.runAt.getD reading) reading with
          queued | scheduled
        · simp [CreateJobBody.job, queued]
        · simp [CreateJobBody.job, scheduled]
      obtain ⟨value', handled, owes⟩ := step_handles taken called
      rw [owes]
      cases handled with
      | submit success => exact submitJob_commits success waiting
    · rename_i called
      split at commits <;> cases commits
      rename_i member
      refine ⟨call, rfl, silent rfl called rfl, ?_⟩
      obtain ⟨value', handled, owes⟩ := step_handles taken called
      rw [owes]
      cases handled with
      | batch success => exact submitBatch_commits success member
    · cases commits
  · cases commits

/-- After its publish, even a failed one, a call owes nothing. -/
theorem step_publishes (taken : step env state action = some next)
    {call : CallId} {value : Call} {message : Message}
    (acting : action.actor = some call)
    (called : state.calls call = some value)
    (announced : value.announces state.world.now = some message) :
    next.owes call = none := by
  have acts := step_acting taken acting called
  obtain ⟨world, calls⟩ := next
  cases acts with
  | poll => cases announced
  | launch => cases announced
  | @exec exec input exec' success after =>
      obtain ⟨target, worker, phase⟩ := exec
      rw [State.owes, after]
      cases phase with
      | publishRunning => cases input <;> cases success <;> rfl
      | publish => cases input <;> cases success <;> rfl
      | _ => cases announced
  | @reap cycle input cycle' success after =>
      obtain ⟨owner, phase⟩ := cycle
      rw [State.owes, after]
      cases phase with
      | publish worker workers target jobIds queueId =>
          have goes : cycle' = (ReapPhase.nextJob worker workers jobIds).map
              fun phase => ⟨owner, phase⟩ := by
            cases input <;> cases success <;> rfl
          rw [goes]
          cases reached : ReapPhase.nextJob worker workers jobIds with
          | none => rfl
          | some phase =>
              rw [Option.map_some, Option.map_some, Option.bind_some,
                Call.owes_reap, ReapPhase.nextJob_requeued? reached]
              rfl
      | _ => cases announced
  | @tick ticker input ticker' success after =>
      obtain ⟨owner, phase⟩ := ticker
      rw [State.owes, after]
      cases phase with
      | publish => cases input <;> cases success <;> rfl
      | _ => cases announced
  | @api _ value' input success after =>
      obtain ⟨wasRequest, isRequest⟩ := (ApiStep.of_handle success).requests
      have publishing := Call.publishing_of_announces wasRequest announced
      rw [State.owes, after]
      cases (RequestStep.of_handle success).1 with
      | waited quiet => rw [publishing] at quiet; cases quiet
      | committed commits => cases commits <;> cases publishing
      | published _ _ quiet => exact Call.owes_of_quiet isRequest quiet
      | publishFailed _ quiet => exact Call.owes_of_quiet isRequest quiet

theorem step_delays (taken : step env state action = some next)
    {call : CallId} {value : Call} {status : Option String}
    (acting : action.actor = some call)
    (called : state.calls call = some value)
    (owed : value.owes = some (job, status))
    (silent : value.announces state.world.now = none) :
    next.owes call = some (job, status) ∨ action.fails state = true := by
  have acts := step_acting taken acting called
  obtain ⟨world, calls⟩ := next
  cases acts with
  | poll => cases owed
  | launch => cases owed
  | @exec exec input exec' success after =>
      obtain ⟨target, worker, phase⟩ := exec
      cases phase with
      | publishRunning => cases silent
      | publish => cases silent
      | _ => cases owed
  | @reap cycle input cycle' success after =>
      obtain ⟨owner, phase⟩ := cycle
      rw [State.owes, after]
      cases phase with
      | closeExecutions =>
          cases input with
          | ok => cases success; exact .inl owed
          | rows => cases success
          | fail => exact .inr rfl
      | publish => cases silent
      | _ => cases owed
  | @tick ticker input ticker' success after =>
      obtain ⟨owner, phase⟩ := ticker
      rw [State.owes, after]
      cases phase with
      | advance =>
          cases input with
          | ok => cases success; exact .inl owed
          | rows => cases success
          | created => cases success
          | fail => exact .inr rfl
      | publish => cases silent
      | _ => cases owed
  | @api _ value' input success after =>
      obtain ⟨wasRequest, _⟩ := (ApiStep.of_handle success).requests
      exact (Call.announces_ne_none wasRequest owed silent).elim

/-- The last message about a job is that of a call which owed it. -/
theorem step_replay (taken : step env state action = some next) :
    replay next.world.messages job = replay state.world.messages job ∨
      ∃ call value message status, action.actor = some call ∧
        state.calls call = some value ∧
        value.announces state.world.now = some message ∧
        value.owes = some (job, status) ∧
        replay next.world.messages job = status := by
  cases acting : action.actor with
  | none => exact .inl (by rw [step_messages taken acting])
  | some call =>
      obtain ⟨value, called⟩ := exists_acting taken acting
      have posts := step_posts taken acting called
      generalize announced : value.announces state.world.now = message at posts
      cases posts with
      | silent same => exact .inl (by rw [same])
      | lost same => exact .inl (by rw [same])
      | @posted message same =>
          by_cases named : message.jobId = some job
          · refine .inr ⟨call, value, message, message.status, rfl, called,
              announced, Call.owes_of_announces announced named, ?_⟩
            rw [same, replay_snoc, if_pos named]
          · left
            rw [same, replay_snoc_of_ne named]

theorem step_owes_kept (taken : step env state action = some next)
    {call : CallId} {notice : JobId × Option String}
    (owed : state.owes call = some notice)
    (other : action.actor ≠ some call)
    (stays : ∀ worker ∈ action.exiting, state.belongs worker call = false) :
    next.owes call = some notice := by
  obtain ⟨value, called, owes⟩ := Option.bind_eq_some_iff.mp owed
  have kept : next.calls call = some value := by
    cases exits : action.exits with
    | false => exact step_keeps taken exits called other
    | true =>
        cases step_cases taken with
        | @exited worker =>
            have foreign := stays worker rfl
            simp only [State.exitWorker, foreign, Bool.false_eq_true, if_false]
            exact called
        | started starts => cases starts <;> cases exits
        | _ => cases exits
  rw [State.owes, kept]
  exact owes

end Steps

end Chronos
