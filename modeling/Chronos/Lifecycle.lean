import Chronos.ApiRaces
import Chronos.CrashRecovery
import Chronos.EventStream
import Chronos.Lib.Simulation

/-!
# The life of a job

The README describes a job as a small machine: it is submitted, claimed, run,
and then completed, retried or buried; a reap cycle puts it back, and a user
may cancel or retry it.  As long as no write of the API or of a reap cycle
comes late, the system is a refinement of this machine, and so every claim of
a job has exactly one end.
-/

namespace Chronos

/-- The status that a commit writes over an existing row. -/
def StatusCommit.status : StatusCommit → Option JobStatus
  | .claim => some .claimed
  | .running => some .running
  | .complete => some .completed
  | .retry => some .queued
  | .deadLetter => some .deadLetter
  | .requeue => some .queued
  | .manualRetry => some .queued
  | .cancel => some .cancelled
  | .submit => none
  | .batch => none
  | .cron => none

/-- The documented life of one job. -/
inductive LifecycleStep :
    Option JobStatus → StatusCommit → Option JobStatus → Prop where
  | created {commit : StatusCommit} {status : JobStatus} :
      commit.status = none →
      status.cancellable = true →
      LifecycleStep none commit (some status)
  | claimed : LifecycleStep (some .queued) .claim (some .claimed)
  | started : LifecycleStep (some .claimed) .running (some .running)
  | completed : LifecycleStep (some .running) .complete (some .completed)
  | retried : LifecycleStep (some .running) .retry (some .queued)
  | buried : LifecycleStep (some .running) .deadLetter (some .deadLetter)
  | requeued {status : JobStatus} :
      status.inFlight = true →
      LifecycleStep (some status) .requeue (some .queued)
  | reset {status : JobStatus} :
      status.retryable = true →
      LifecycleStep (some status) .manualRetry (some .queued)
  | cancelled {status : JobStatus} :
      status.cancellable = true →
      LifecycleStep (some status) .cancel (some .cancelled)

/-- The commits of the job's status in a history, in their order. -/
def commitsOf (job : JobId) (trace : List (Transition State Action)) :
    List StatusCommit :=
  trace.filterMap fun transition =>
    transition.action.commits transition.before job

section Steps

variable {env : Env} {start last state next : State} {action : Action}
  {trace : List (Transition State Action)} {job : JobId}

/-! ## What a commit writes -/

private theorem exec_commit_status {world after : World} {exec : ExecCall}
    {exec' : Option ExecCall} {commit : StatusCommit} {status : JobStatus}
    (case : ExecStep world exec .ok after exec')
    (commits : exec.phase.commit? = some commit)
    (writes : commit.status = some status) :
    after.status? exec.jobId = some status := by
  cases case with
  | marked phase writable =>
      rw [phase] at commits
      cases commits
      cases writes
      exact World.status?_updateJob writable fun _ => rfl
  | completed phase writable =>
      rw [phase] at commits
      cases commits
      cases writes
      exact World.status?_updateJob writable fun _ => rfl
  | retried phase writable =>
      rw [phase] at commits
      cases commits
      cases writes
      exact World.status?_updateJob writable fun _ => rfl
  | @deadLettered attempt _ _ phase writable success =>
      rw [phase] at commits
      cases commits
      cases writes
      obtain ⟨_, _, _, rfl⟩ := World.commitDeadLetter_spec success
      have written : (world.updateJob exec.jobId (Job.moveToDeadLetter
          attempt.number world.now)).status? exec.jobId = some .deadLetter :=
        World.status?_updateJob writable fun _ => rfl
      exact written
  | jobMissing phase => rw [phase] at commits; cases commits
  | found phase => rw [phase] at commits; cases commits
  | announced phase => rw [phase] at commits; cases commits
  | published phase => rw [phase] at commits; cases commits

theorem commit_status (locks : LockInv state)
    (taken : step env state action = some next) {commit : StatusCommit}
    (commits : action.commits state job = some commit) {status : JobStatus}
    (writes : commit.status = some status) :
    next.status? job = some status := by
  unfold Action.commits at commits
  split at commits
  · split at commits
    · rename_i called
      split at commits <;> cases commits
      cases writes
      exact (ClaimReturns.of_commit taken called rfl).status_after taken locks
        ‹_›
    · cases commits
  · split at commits
    · rename_i target worker phase called
      split at commits
      · rename_i same
        subst same
        cases step_cases taken with
        | started starts => cases starts
        | exec called' case =>
            cases called.symm.trans called'
            exact exec_commit_status case commits writes
      · cases commits
    · cases commits
  · split at commits
    · rename_i called
      split at commits <;> cases commits
      rename_i same
      subst same
      cases writes
      cases step_cases taken with
      | started starts => cases starts
      | reap called' case =>
          cases called.symm.trans called'
          cases case with
          | requeued _ writable =>
              exact World.status?_updateJob writable fun _ => rfl
    · cases commits
  · split at commits
    · split at commits <;> cases commits
      cases writes
    · cases commits
  · split at commits
    · rename_i called
      split at commits <;> cases commits
      rename_i same
      subst same
      cases writes
      cases step_cases taken with
      | started starts => cases starts
      | api called' _ handled =>
          cases called.symm.trans called'
          cases handle_cases handled with
          | @retry request _ success =>
              obtain ⟨_, _, case⟩ := retryJob_cases success
              cases case with
              | committed writable =>
                  have written : (state.world.updateJob _ (Job.resetForRetry
                      state.world.now)).status? _ = some .queued :=
                    World.status?_updateJob writable fun _ => rfl
                  exact written
    · rename_i called
      split at commits <;> cases commits
      rename_i same
      subst same
      cases writes
      cases step_cases taken with
      | started starts => cases starts
      | api called' _ handled =>
          cases called.symm.trans called'
          cases handle_cases handled with
          | cancel success =>
              obtain ⟨_, _, case⟩ := cancelJob_cases success
              cases case with
              | committed writable =>
                  exact World.status?_updateJob writable fun _ => rfl
    · cases commits
  · split at commits
    · split at commits <;> cases commits
      cases writes
    · split at commits <;> cases commits
      cases writes
    · cases commits
  · cases commits

theorem Action.commits_submit
    (commits : action.commits state job = some .submit) :
    ∃ call queueId body queue row, action = .api call (.created [job]) ∧
      state.calls call =
        some (.submit ⟨queueId, body, .createJob queue row⟩) := by
  unfold Action.commits at commits
  split at commits
  · split at commits
    · split at commits <;> cases commits
    · cases commits
  · split at commits
    · rename_i phase _
      split at commits
      · cases phase <;> cases commits
      · cases commits
    · cases commits
  · split at commits
    · split at commits <;> cases commits
    · cases commits
  · split at commits
    · split at commits <;> cases commits
    · cases commits
  · split at commits
    · split at commits <;> cases commits
    · split at commits <;> cases commits
    · cases commits
  · split at commits
    · rename_i called
      split at commits <;> cases commits
      rename_i same
      subst same
      exact ⟨_, _, _, _, _, rfl, called⟩
    · split at commits <;> cases commits
    · cases commits
  · cases commits

theorem commit_creates {reads : CallId → Time → Prop} (locks : LockInv state)
    (rows : RowsInv reads state) (taken : step env state action = some next)
    {commit : StatusCommit} (commits : action.commits state job = some commit)
    (creates : commit.status = none) :
    state.status? job = none ∧ next.status? job ≠ none := by
  obtain ⟨_, _, _, committed⟩ := step_commits taken locks rows commits
  cases committed with
  | retry => cases creates
  | claim => cases creates
  | untold _ before after => exact ⟨before, after⟩
  | reported told after =>
      refine ⟨?_, by rw [after]; exact Option.some_ne_none _⟩
      have isSubmit : commit = .submit := by
        cases commit with
        | submit => rfl
        | batch => cases told
        | cron => cases told
        | _ => cases creates
      subst isSubmit
      obtain ⟨call, _, _, _, _, rfl, called⟩ := Action.commits_submit commits
      cases step_cases taken with
      | started starts => cases starts
      | api called' _ handled =>
          cases called.symm.trans called'
          cases handle_cases handled with
          | submit success =>
              obtain ⟨_, _, case⟩ := submitJob_cases success
              cases case with
              | jobCreated created => exact (World.createJob_status created).1

theorem created_waits {reads : CallId → Time → Prop} (rows : RowsInv reads state)
    (taken : step env state action = some next)
    (absent : state.status? job = none) {status : JobStatus}
    (found : next.status? job = some status) : status.cancellable = true := by
  obtain ⟨row, present, rfl⟩ := State.status?_eq_some_iff.mp found
  have created := step_created taken (Option.map_eq_none_iff.mp absent) present
  rcases (created.new rows).1 with queued | scheduled
  · rw [queued]
    rfl
  · rw [scheduled]
    rfl

/-! ## Who has a job in hand -/

/-- The attempt has begun and its end is not written yet. -/
def ExecPhase.inAttempt (phase : ExecPhase) : Bool :=
  phase.owns && !phase.unstarted

/-- What a call has in hand is `claimed` until the call sets it `running`, and
then `running` until it writes the end of the attempt. -/
structure InHand (state : State) : Prop where
  claimed : ∀ {call job}, state.holdsIn ExecPhase.unstarted call job →
    state.status? job = some .claimed
  running : ∀ {call exec}, state.calls call = some (.exec exec) →
    exec.phase.inAttempt = true → state.status? exec.jobId = some .running

/-- What the system keeps as long as no write comes late. -/
structure LifeInv (state : State) : Prop where
  locks : LockInv state
  rows : RowsInv (fun _ _ => True) state
  ownership : Ownership (fun status => !status.inFlight) state
  inHand : InHand state

/-- Who writes the status of a job that exists. -/
inductive Committer (state : State) (job : JobId) (action : Action) :
    StatusCommit → Prop where
  | claim {call : CallId} {tx : ClaimTx} :
      state.tx call = some tx → job ∈ tx.ids →
      Committer state job action .claim
  | exec {call : CallId} {exec : ExecCall} {commit : StatusCommit} :
      action = .exec call .ok → state.calls call = some (.exec exec) →
      exec.jobId = job → exec.phase.commit? = some commit →
      Committer state job action commit
  | requeue :
      action.requeuesOrphan state = some job →
      Committer state job action .requeue
  | manualRetry :
      action.commitsRetry state = some job →
      Committer state job action .manualRetry
  | cancel :
      action.commitsCancel state = some job →
      Committer state job action .cancel

theorem Committer.of_commits {commit : StatusCommit}
    (commits : action.commits state job = some commit) {status : JobStatus}
    (writes : commit.status = some status) :
    Committer state job action commit := by
  unfold Action.commits at commits
  split at commits
  · split at commits
    · rename_i called
      split at commits <;> cases commits
      exact .claim (by rw [State.tx, called]; rfl) ‹_›
    · cases commits
  · split at commits
    · rename_i called
      split at commits
      · exact .exec rfl called ‹_› commits
      · cases commits
    · cases commits
  · split at commits
    · rename_i called
      split at commits <;> cases commits
      rename_i same
      exact .requeue (by simp [Action.requeuesOrphan, called, same])
    · cases commits
  · split at commits
    · split at commits <;> cases commits
      cases writes
    · cases commits
  · split at commits
    · rename_i called
      split at commits <;> cases commits
      rename_i same
      exact .manualRetry (by simp [Action.commitsRetry, called, same])
    · rename_i called
      split at commits <;> cases commits
      rename_i same
      exact .cancel (by simp [Action.commitsCancel, called, same])
    · cases commits
  · split at commits
    · split at commits <;> cases commits
      cases writes
    · split at commits <;> cases commits
      cases writes
    · cases commits
  · cases commits

private theorem Timely.checks (timely : Timely ⟨state, action, next⟩)
    (job : JobId) :
    (action.requeuesOrphan state = some job →
      ∃ status, state.status? job = some status ∧ status.inFlight = true) ∧
    (action.commitsRetry state = some job →
      ∃ status, state.status? job = some status ∧
        status.retryable = true) ∧
    (action.commitsCancel state = some job →
      ∃ status, state.status? job = some status ∧
        status.cancellable = true) := by
  have recheck := timely.recheck
  simp only [Action.recheck, Bool.and_eq_true] at recheck
  obtain ⟨⟨orphan, retry⟩, cancel⟩ := recheck
  refine ⟨fun found => ?_, fun found => ?_, fun found => ?_⟩
  · rw [found] at orphan
    exact (Option.any_eq_true _ _).mp orphan
  · rw [found] at retry
    exact (Option.any_eq_true _ _).mp retry
  · rw [found] at cancel
    exact (Option.any_eq_true _ _).mp cancel

/-- What a call has in hand changes its status by a commit of this call
only. -/
private theorem status_held (inv : LifeInv state)
    (timely : Timely ⟨state, action, next⟩)
    (taken : step env state action = some next) {holder : CallId}
    (held : state.holds holder job) :
    next.status? job = state.status? job ∨
      ∃ exec commit, action = .exec holder .ok ∧
        state.calls holder = some (.exec exec) ∧ exec.jobId = job ∧
        exec.phase.commit? = some commit := by
  obtain ⟨status, before, busy⟩ := inv.ownership.status held
  have inFlight : status.inFlight = true := by simpa using busy
  cases commits : action.commits state job with
  | none => exact .inl (step_uncommitted taken commits)
  | some commit =>
      cases writes : commit.status with
      | none =>
          have absent := (commit_creates inv.locks inv.rows taken commits
            writes).1
          rw [before] at absent
          cases absent
      | some status' =>
          obtain ⟨requeues, retries, cancels⟩ := timely.checks job
          cases Committer.of_commits commits writes with
          | claim isOpen member =>
              cases before.symm.trans (inv.locks.status_of_tx isOpen member)
              cases inFlight
          | @exec call exec _ isAction called target commits =>
              have owns : exec.phase.owns = true := by
                cases isPhase : exec.phase <;> first
                  | rfl
                  | (rw [isPhase] at commits; cases commits)
              have same := inv.ownership.exclusive.unique held
                ⟨_, called, target, owns⟩
              subst same
              exact .inr ⟨exec, commit, isAction, called, target, commits⟩
          | requeue orphan => exact (timely.unheld holder job orphan held).elim
          | manualRetry retry =>
              obtain ⟨status, same, retryable⟩ := retries retry
              cases before.symm.trans same
              rw [JobStatus.not_retryable_of_inFlight inFlight] at retryable
              cases retryable
          | cancel cancel =>
              obtain ⟨status, same, cancellable⟩ := cancels cancel
              cases before.symm.trans same
              rw [JobStatus.not_cancellable_of_inFlight inFlight] at cancellable
              cases cancellable

theorem ExecPhase.owns_of_unstarted {phase : ExecPhase}
    (unstarted : phase.unstarted = true) : phase.owns = true := by
  cases phase <;> first | rfl | cases unstarted

theorem Call.holds_of_unstarted {value : Call}
    (held : value.holdsIn ExecPhase.unstarted job) : value.holds job := by
  cases value with
  | poll => exact held
  | exec => exact ⟨held.1, ExecPhase.owns_of_unstarted held.2⟩
  | _ => cases held

namespace ExecStep

variable {world after : World} {exec exec' : ExecCall} {input : ExecInput}
  {commit : StatusCommit}

theorem not_unstarted (case : ExecStep world exec .ok after (some exec'))
    (commits : exec.phase.commit? = some commit) :
    exec'.phase.unstarted = false := by
  cases case with
  | marked => rfl
  | completed => rfl
  | retried => rfl
  | deadLettered => rfl
  | found phase => rw [phase] at commits; cases commits
  | announced phase => rw [phase] at commits; cases commits

theorem inAttempt (case : ExecStep world exec input after (some exec'))
    (begun : exec'.phase.inAttempt = true) :
    (exec.phase.inAttempt = true ∧
      (input = .ok → exec.phase.commit? = none)) ∨
    (input = .ok ∧ exec.phase.commit? = some .running) := by
  cases case with
  | found => cases begun
  | marked phase => exact .inr ⟨rfl, by rw [phase]; rfl⟩
  | announced phase => exact .inl ⟨by rw [phase]; rfl, fun _ => by rw [phase]; rfl⟩
  | created phase => exact .inl ⟨by rw [phase]; rfl, fun _ => by rw [phase]; rfl⟩
  | logged phase => exact .inl ⟨by rw [phase]; rfl, fun _ => by rw [phase]; rfl⟩
  | resolved phase => exact .inl ⟨by rw [phase]; rfl, fun _ => by rw [phase]; rfl⟩
  | rejected phase =>
      left
      refine ⟨?_, fun same => by cases same⟩
      rcases phase with phase | ⟨_, phase⟩ <;> rw [phase] <;> rfl
  | completed => cases begun
  | retried => cases begun
  | deadLettered => cases begun

end ExecStep

private theorem claimed_step (inv : LifeInv state)
    (timely : Timely ⟨state, action, next⟩)
    (taken : step env state action = some next) {holder : CallId}
    (held : next.holdsIn ExecPhase.unstarted holder job) :
    next.status? job = some .claimed := by
  rcases step_holdsIn ExecPhase.unstarted_entered taken held with
    ⟨value, found, holds⟩ | gains
  · rcases status_held inv timely taken
        ⟨value, found, Call.holds_of_unstarted holds⟩ with
      same | ⟨exec, commit, rfl, called, target, commits⟩
    · rw [same]
      exact inv.inHand.claimed ⟨value, found, holds⟩
    · exfalso
      obtain ⟨result, case, after⟩ := step_exec taken called
      obtain ⟨value', found', holds'⟩ := held
      rw [after] at found'
      obtain ⟨exec', rfl, rfl⟩ := Option.map_eq_some_iff.mp found'
      have started := case.not_unstarted commits
      rw [holds'.2] at started
      cases started
  · cases gains with
    | @claimed _ poll _ _ _ _ _ called phase member =>
        obtain ⟨worker, current⟩ := poll
        cases phase
        refine commit_status inv.locks taken (?_ : _ = some .claim) rfl
        simp [Action.commits, called, member]
    | @launched cycle _ _ _ _ _ called phase =>
        have silent : (Action.launch cycle holder).commits state job =
            none := rfl
        rw [step_uncommitted taken silent]
        exact inv.inHand.claimed
          ⟨_, called, Call.holdsIn_of_launching phase List.mem_cons_self⟩

private theorem running_step (inv : LifeInv state)
    (timely : Timely ⟨state, action, next⟩)
    (taken : step env state action = some next) {call : CallId}
    {exec : ExecCall} (found : next.calls call = some (.exec exec))
    (begun : exec.phase.inAttempt = true) :
    next.status? exec.jobId = some .running := by
  have kept : ∀ {before}, state.calls call = some (.exec before) →
      before.jobId = exec.jobId → before.phase.inAttempt = true →
      (action = .exec call .ok → before.phase.commit? = none) →
      next.status? exec.jobId = some .running := by
    intro before called target begun silent
    have owns := (Bool.and_eq_true_iff.mp begun).1
    rcases status_held inv timely taken ⟨_, called, target, owns⟩ with
      same | ⟨other, commit, isAction, called', _, commits⟩
    · rw [same, ← target]
      exact inv.inHand.running called begun
    · cases called.symm.trans called'
      rw [silent isAction] at commits
      cases commits
  by_cases own : ∃ before input, action = .exec call input ∧
      state.calls call = some (.exec before)
  · obtain ⟨before, input, rfl, called⟩ := own
    obtain ⟨result, case, after⟩ := step_exec taken called
    rw [found] at after
    obtain ⟨exec', rfl, same⟩ := Option.map_eq_some_iff.mp after.symm
    cases same
    rcases case.inAttempt begun with ⟨going, silent⟩ | ⟨rfl, commits⟩
    · refine kept called case.same_job.symm going ?_
      intro isOk
      cases isOk
      exact silent rfl
    · refine commit_status inv.locks taken (?_ : _ = some .running) rfl
      obtain ⟨target, worker, phase⟩ := before
      rw [case.same_job]
      simpa [Action.commits, called] using commits
  · generalize same : Call.exec exec = value at found
    cases step_call taken found with
    | kept old =>
        subst same
        refine kept old rfl begun ?_
        rintro rfl
        exact (own ⟨exec, .ok, rfl, old⟩).elim
    | started starts =>
        cases starts with
        | request =>
            rename_i request
            cases request <;> cases same
        | _ => cases same
    | launched => cases same; cases begun
    | exec called case => exact (own ⟨_, _, rfl, called⟩).elim
    | api _ case =>
        subst same
        cases case.requests.2
    | _ => cases same

namespace LifeInv

theorem initial (initial : Initial start) : LifeInv start where
  locks := .initial initial
  rows := .initial initial
  ownership := .initial initial
  inHand := by
    constructor
    · rintro call job ⟨value, found, _⟩
      rw [initial.calls call] at found
      cases found
    · intro call exec found
      rw [initial.calls call] at found
      cases found

private theorem undisturbed (inv : LifeInv state)
    (timely : Timely ⟨state, action, next⟩) (call : CallId) :
    Undisturbed (fun status => !status.inFlight) ⟨state, action, next⟩ call := by
  rintro ⟨job, status⟩ write _ held
  obtain ⟨before, found, busy⟩ := inv.ownership.status held
  have inFlight : before.inFlight = true := by simpa using busy
  obtain ⟨_, retries, cancels⟩ := timely.checks job
  rcases Action.outsideWrite_cases write with
    ⟨orphan, _⟩ | ⟨retry, _⟩ | ⟨cancel, _⟩
  · exact timely.unheld call job orphan held
  · obtain ⟨status, same, retryable⟩ := retries retry
    cases found.symm.trans same
    rw [JobStatus.not_retryable_of_inFlight inFlight] at retryable
    cases retryable
  · obtain ⟨status, same, cancellable⟩ := cancels cancel
    cases found.symm.trans same
    rw [JobStatus.not_cancellable_of_inFlight inFlight] at cancellable
    cases cancellable

theorem step (inv : LifeInv state) (timely : Timely ⟨state, action, next⟩)
    (taken : Chronos.step env state action = some next) : LifeInv next where
  locks := inv.locks.step taken
  rows := inv.rows.step taken (fun _ => trivial) fun _ => trivial
  ownership := inv.ownership.step notInFlight_idle inv.locks taken
    (inv.undisturbed timely)
  inHand :=
    ⟨claimed_step inv timely taken, running_step inv timely taken⟩

/-- Every commit takes an edge of the documented machine. -/
theorem edge (inv : LifeInv state) (timely : Timely ⟨state, action, next⟩)
    (taken : Chronos.step env state action = some next)
    {commit : StatusCommit}
    (commits : action.commits state job = some commit) :
    LifecycleStep (state.status? job) commit (next.status? job) := by
  cases writes : commit.status with
  | none =>
      obtain ⟨absent, present⟩ :=
        commit_creates inv.locks inv.rows taken commits writes
      obtain ⟨status, found⟩ := Option.ne_none_iff_exists'.mp present
      rw [absent, found]
      exact .created writes (created_waits inv.rows taken absent found)
  | some status =>
      rw [commit_status inv.locks taken commits writes]
      obtain ⟨requeues, retries, cancels⟩ := timely.checks job
      cases Committer.of_commits commits writes with
      | claim isOpen member =>
          cases writes
          rw [inv.locks.status_of_tx isOpen member]
          exact .claimed
      | @exec call exec _ _ called target own =>
          subst target
          have running := fun begun => inv.inHand.running called begun
          cases isPhase : exec.phase with
          | markRunning =>
              rw [isPhase] at own
              cases own
              cases writes
              rw [inv.inHand.claimed
                ⟨_, called, rfl, by rw [isPhase]; rfl⟩]
              exact .started
          | complete =>
              rw [isPhase] at own
              cases own
              cases writes
              rw [running (by rw [isPhase]; rfl)]
              exact .completed
          | retry =>
              rw [isPhase] at own
              cases own
              cases writes
              rw [running (by rw [isPhase]; rfl)]
              exact .retried
          | deadLetter =>
              rw [isPhase] at own
              cases own
              cases writes
              rw [running (by rw [isPhase]; rfl)]
              exact .buried
          | _ =>
              rw [isPhase] at own
              cases own
      | requeue orphan =>
          cases writes
          obtain ⟨before, found, inFlight⟩ := requeues orphan
          rw [found]
          exact .requeued inFlight
      | manualRetry retry =>
          cases writes
          obtain ⟨before, found, retryable⟩ := retries retry
          rw [found]
          exact .reset retryable
      | cancel cancel =>
          cases writes
          obtain ⟨before, found, cancellable⟩ := cancels cancel
          rw [found]
          exact .cancelled cancellable

/-- The commits of a run without late writes form a path of the machine. -/
theorem path (inv : LifeInv start) (run : Run (Chronos.step env) start trace last)
    (timely : ∀ transition ∈ trace, Timely transition) (job : JobId) :
    LabelledPath LifecycleStep (start.status? job) (commitsOf job trace)
      (last.status? job) := by
  refine run.path (State.status? · job) _ timely inv ?_ ?_ ?_
  · intro transition timely taken inv
    exact inv.step timely taken
  · intro transition taken _ silent
    exact step_uncommitted taken silent
  · intro transition timely taken inv commit commits
    exact inv.edge timely taken commits

end LifeInv

/-! ## Every claim has one end -/

namespace StatusCommit

/-- The commit ends the attempt for which the job was claimed. -/
def endsClaim : StatusCommit → Bool
  | .complete => true
  | .retry => true
  | .deadLetter => true
  | .requeue => true
  | _ => false

/-- Claims minus ends. -/
def claimBalance (commit : StatusCommit) : Int :=
  if commit = .claim then 1 else if commit.endsClaim then -1 else 0

theorem sum_claimBalance (commits : List StatusCommit) :
    (commits.map claimBalance).sum =
      commits.count .claim - commits.countP endsClaim := by
  induction commits with
  | nil => rfl
  | cons commit commits ih =>
      rw [List.map_cons, List.sum_cons, ih, List.count_cons, List.countP_cons]
      cases commit <;> simp [claimBalance, endsClaim] <;> omega

end StatusCommit

/-- One if the job is in flight. -/
def claimsOpen (status : Option JobStatus) : Nat :=
  if status.any JobStatus.inFlight then 1 else 0

theorem claimsOpen_of_cancellable {status : JobStatus}
    (cancellable : status.cancellable = true) :
    claimsOpen (some status) = 0 := by
  cases status <;> first | rfl | cases cancellable

theorem claimsOpen_of_retryable {status : JobStatus}
    (retryable : status.retryable = true) : claimsOpen (some status) = 0 := by
  cases status <;> first | rfl | cases retryable

theorem claimsOpen_of_inFlight {status : JobStatus}
    (inFlight : status.inFlight = true) : claimsOpen (some status) = 1 := by
  cases status <;> first | rfl | cases inFlight

theorem LifecycleStep.balanced {before after : Option JobStatus}
    {commit : StatusCommit} (edge : LifecycleStep before commit after) :
    (claimsOpen after : Int) = claimsOpen before + commit.claimBalance := by
  cases edge with
  | created creates waits =>
      rw [claimsOpen_of_cancellable waits]
      cases commit <;> first | rfl | cases creates
  | requeued inFlight =>
      rw [claimsOpen_of_inFlight inFlight]
      rfl
  | reset retryable =>
      rw [claimsOpen_of_retryable retryable]
      rfl
  | cancelled cancellable =>
      rw [claimsOpen_of_cancellable cancellable]
      rfl
  | _ => rfl

end Steps

/-! ## The system refines the machine -/

section Refinement

variable {env : Env} {start last : State}
  {trace : List (Transition State Action)}

/-- In a run without late writes the commits of a job form a path of the
documented machine, from the job's status at the start to its status at the
end; and every claim of the job is ended exactly once, by a completion, a
retry, a dead letter or a requeue, except for the one that is still open. -/
theorem lifecycle_refined (run : Run (step env) start trace last)
    (initial : Initial start)
    (timely : ∀ transition ∈ trace, Timely transition) (job : JobId) :
    LabelledPath LifecycleStep (start.status? job) (commitsOf job trace)
        (last.status? job) ∧
      claimsOpen (start.status? job) + (commitsOf job trace).count .claim =
        (commitsOf job trace).countP StatusCommit.endsClaim +
          claimsOpen (last.status? job) := by
  have path := (LifeInv.initial initial).path run timely job
  refine ⟨path, ?_⟩
  have total := path.balance (fun status => (claimsOpen status : Int))
    StatusCommit.claimBalance LifecycleStep.balanced
  rw [StatusCommit.sum_claimBalance] at total
  omega

/-- A worker dies in the attempt, a reap cycle puts the job back, and the
other worker completes it. -/
theorem lifecycle_refined_reaped :
    ∃ trace last,
      Run (step .sample)
        (World.sample 2 ⟨[(7, .sample .queued)], by simp⟩).idle trace last ∧
      commitsOf 7 trace =
        [.claim, .running, .requeue, .claim, .running, .complete] ∧
      LabelledPath LifecycleStep (some .queued) (commitsOf 7 trace)
        (some .completed) := by
  obtain ⟨trace, last, run, checked, recheck, commits, completed⟩ :=
    exists_run_of_check (step .sample)
      (World.sample 2 ⟨[(7, .sample .queued)], by simp⟩).idle
      (claimActions 1 1 [7] ++ executeActions 1 2 0 ++
        crashActions 1 20000 3 2 ++ reapActions 3 1 0 7 ++
        claimActions 4 2 [7] ++ executeActions 4 5 1 ++
        ([.exec 5 .resolved, .exec 5 .ok, .exec 5 .ok] : List Action))
      (fun trace last =>
        ChecksCalls 6 LeavesHeld trace ∧
        (∀ transition ∈ trace,
          transition.action.recheck transition.before = true) ∧
        commitsOf 7 trace =
          [.claim, .running, .requeue, .claim, .running, .complete] ∧
        last.status? 7 = some .completed)
      (by decide)
  have initial : Initial
      (World.sample 2 ⟨[(7, .sample .queued)], by simp⟩).idle :=
    World.idle_initial fun _ => rfl
  have leaves := checked.forall_calls run initial (by
    intro transition call absent job _ held
    obtain ⟨value, found, _⟩ := held
    rw [absent] at found
    cases found)
  have refined := lifecycle_refined run initial
    (fun transition member =>
      ⟨recheck transition member, leaves transition member⟩) 7
  rw [completed] at refined
  exact ⟨trace, last, run, commits, refined.1⟩

end Refinement

end Chronos
