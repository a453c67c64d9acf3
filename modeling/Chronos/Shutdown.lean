import Chronos.ApiRaces
import Chronos.CrashRecovery

/-!
# Graceful shutdown

`shutdown` of `worker/src/index.ts`.  The signal stops the poller at once, the
worker row leaves `active`, and the process ends when its executions have
settled or after 30 s, or is killed before.  Reap cycles look for `active`
workers only.  This file shows when no job of the worker is left in flight: it
is finished when the process ends, or the worker still looks alive to the
database and the job can be found.
-/

namespace Chronos

/-- A history in which a worker process ends after its shutdown signal, and
later a complete reap cycle finds its heartbeat stale. -/
structure ShutdownThenReap (env : Env) extends ExitThenReap env where
  signalled : exit.before.world.process worker = some .stopping

/-- A job that this worker is done with: it is not in flight, and no call of
another process is about to set it `running`. -/
structure Finished (worker : WorkerId) (state : State) (job : JobId) :
    Prop where
  settled : ∀ status ∈ state.status? job, status.inFlight = false
  unstarted : ∀ holder, state.holdsIn ExecPhase.unstarted holder job →
    state.belongs worker holder = true

namespace ShutdownThenReap

variable {env : Env}

/-- Every job of the worker is `queued` or terminal. -/
def StrandsNone (scenario : ShutdownThenReap env) (last : State) : Prop :=
  ∀ job ∈ scenario.jobs, ∃ status, last.status? job = some status ∧
    (status = .queued ∨ status.terminal = true)

/-- Every job of the worker is finished when the process ends, or found by the
cycle. -/
def Covers (scenario : ShutdownThenReap env) : Prop :=
  ∀ job ∈ scenario.jobs,
    Finished scenario.worker scenario.exit.before job ∨ scenario.Finds job

end ShutdownThenReap

namespace JobStatus

/-- The statuses that are written after the creation of a job. -/
def written (status : JobStatus) : Bool :=
  status = .queued || status.terminal || status.inFlight

end JobStatus

section Steps

variable {env : Env} {start last state next : State} {action : Action}
  {trace : List (Transition State Action)}

theorem StatusWrite.written {job : JobId} {status : JobStatus}
    (write : StatusWrite state job action status) : status.written = true := by
  cases write with
  | claim => rfl
  | markRunning => rfl
  | @release _ exec _ _ _ releases =>
      cases phase : exec.phase <;> rw [phase] at releases <;> cases releases <;>
        rfl
  | outside write =>
      rcases Action.outsideWrite_cases write with
        ⟨_, rfl⟩ | ⟨_, rfl⟩ | ⟨_, rfl⟩ <;> rfl

theorem written_of_lastClaimed (run : Run (step env) start trace last)
    (initial : Initial start) {worker : WorkerId} {job : JobId}
    (member : job ∈ lastClaimed worker trace) :
    ∃ status, last.status? job = some status ∧ status.written = true := by
  induction run with
  | nil => cases member
  | snoc run taken induction =>
      rcases mem_lastClaimed_snoc.mp member with
        ⟨before, _⟩ | ⟨ids, claims, inIds⟩
      · obtain ⟨old, found, written⟩ := induction before
        obtain ⟨status, after⟩ := step_status taken found
        refine ⟨status, after, ?_⟩
        rcases step_status_cases taken after with same | absent | write
        · cases found.symm.trans same
          exact written
        · rw [found] at absent
          cases absent
        · exact write.written
      · obtain ⟨call, queue, rest, txNow, rfl, called⟩ :=
          Action.claims_eq_some claims
        have returns := ClaimReturns.of_commit taken called rfl
        exact ⟨_, returns.status_after taken (LockInv.run run initial) inIds,
          rfl⟩

/-- When the process ends, a finished job has nobody left to start it. -/
theorem Finished.stranded {worker : WorkerId} {job : JobId}
    (finished : Finished worker state job)
    (taken : step env state (.exit worker) = some next)
    (present : ∃ status, state.status? job = some status) :
    Stranded next job [] := by
  obtain ⟨status, found⟩ := present
  cases step_cases taken with
  | started starts => cases starts
  | exited =>
      constructor
      · exact ⟨status, found⟩
      · rintro holder ⟨value, called, holds⟩
        simp only [State.exitWorker] at called
        split at called
        · cases called
        · rename_i stays
          exact stays (finished.unstarted holder ⟨value, called, holds⟩)
      · intro status found inFlight
        rw [finished.settled status found] at inFlight
        cases inFlight

/-- A graceful shutdown leaves no job in flight if each job of the worker is
finished when its process ends, or found by the cycle. -/
theorem shutdown_strands_none (scenario : ShutdownThenReap env)
    (run : Run (step env) start scenario.trace last) (initial : Initial start)
    (covers : scenario.Covers) : scenario.StrandsNone last := by
  intro job member
  obtain ⟨status, found, written⟩ :=
    written_of_lastClaimed run initial member
  have notInFlight : status.inFlight = false := by
    rcases covers job member with finished | finds
    · obtain ⟨old, unclaimed⟩ := scenario.claimed_before run member
      obtain ⟨toExit, exits, afterExit⟩ := run.around
      have stranded := finished.stranded (scenario.exits ▸ exits)
        (status_of_lastClaimed toExit initial old)
      have atEnd := afterExit.invariant (Stranded · job []) unclaimed stranded
        (fun _ unclaimed taken stranded => stranded.step taken unclaimed)
      cases inFlight : status.inFlight with
      | false => rfl
      | true => cases atEnd.inFlight status found inFlight
    · exact scenario.recovers run initial member finds status found
  refine ⟨status, found, ?_⟩
  simpa [JobStatus.written, notInFlight] using written

/-- If the process of the worker ends in this step, this call is not about to
start the job. -/
def EndsUnstarted (worker : WorkerId) (job : JobId)
    (transition : Transition State Action) (holder : CallId) : Prop :=
  transition.action.exiting = some worker →
    ¬transition.before.holdsIn ExecPhase.unstarted holder job

instance (worker : WorkerId) (job : JobId)
    (transition : Transition State Action) (holder : CallId) :
    Decidable (EndsUnstarted worker job transition holder) :=
  inferInstanceAs (Decidable (_ = _ → ¬_))

/-- Job 7 is done and job 8 is in its handler when worker 1, which failed to
mark itself `draining`, is killed.  A cycle of worker 2 puts job 8 back. -/
theorem shutdown_strands_none_killed :
    ∃ (scenario : ShutdownThenReap .sample) (last : State),
      Run (step .sample)
        (World.sample 2
          ⟨[(7, .sample .queued), (8, .sample .queued)], by decide⟩).idle
        scenario.trace last ∧
      scenario.jobs = [7, 8] ∧ last.status? 7 = some .completed ∧
      last.status? 8 = some .queued ∧ scenario.StrandsNone last := by
  obtain ⟨trace, last, run, ⟨exit, isExit, exits, registered, signalled,
      settled⟩, follows, jobs, findsWorker, findsJob, checked, completed,
      queued⟩ :=
    exists_run_of_check (step .sample)
      (World.sample 2
        ⟨[(7, .sample .queued), (8, .sample .queued)], by decide⟩).idle
      (claimActions 1 1 [7, 8] ++ executeActions 1 2 0 ++
        executeActions 1 3 1 ++
        ([.exec 2 .resolved, .exec 2 .ok, .exec 2 .ok, .stopPoller 1] :
          List Action) ++
        crashActions 1 20000 4 2 ++ reapActions 4 1 1 8)
      (fun trace last =>
        (∃ exit ∈ (trace.drop 22).head?,
          exit.action.exiting = some 1 ∧
          (exit.before.workerStatus? 1).isSome = true ∧
          exit.before.world.process 1 = some .stopping ∧
          ∀ status ∈ exit.before.status? 7, status.inFlight = false) ∧
        ExitThenReap.ReapFollows .sample 1 2 4 (trace.drop 23) 2 ∧
        lastClaimed 1 trace = [7, 8] ∧
        (∀ transition ∈ trace, FindsWorker 4 1 transition) ∧
        (∀ transition ∈ trace, FindsJob 4 1 8 transition) ∧
        ChecksCalls 5 (fun transition holder =>
          FindsUnstarted 4 1 8 transition holder ∧
          EndsUnstarted 1 7 transition holder) trace ∧
        last.status? 7 = some .completed ∧ last.status? 8 = some .queued)
      (by decide)
  have initial : Initial (World.sample 2
      ⟨[(7, .sample .queued), (8, .sample .queued)], by decide⟩).idle :=
    World.idle_initial fun _ => rfl
  have calls := checked.forall_calls run initial (by
    intro transition call absent
    simp [FindsUnstarted, EndsUnstarted, State.holdsIn, absent])
  obtain ⟨scenario, rfl, worker, call, rfl⟩ :=
    ExitThenReap.exists_of_follows isExit exits registered follows
  have scenarioJobs : scenario.jobs = [7, 8] := by
    rw [ExitThenReap.jobs, worker, jobs]
  have inTrace : ∀ transition ∈ scenario.steps,
      transition ∈ scenario.trace := by
    intro transition inCycle
    apply List.mem_append_right
    apply List.mem_cons_of_mem
    apply List.mem_append_right
    exact List.mem_cons_of_mem _ inCycle
  refine ⟨⟨scenario, by rw [worker]; exact signalled⟩, last, run, scenarioJobs,
    completed, queued, shutdown_strands_none _ run initial ?_⟩
  intro job member
  dsimp only at member ⊢
  rw [scenarioJobs] at member
  rcases List.mem_pair.mp member with rfl | rfl
  · left
    refine ⟨settled, fun holder held => ?_⟩
    have isStep : scenario.exit ∈ scenario.trace := by
      apply List.mem_append_right
      exact List.mem_cons_self
    exact ((calls _ isStep holder).2 exits held).elim
  · right
    constructor
    · intro transition inCycle
      rw [call, worker]
      exact findsWorker transition (inTrace transition inCycle)
    · intro transition inCycle
      rw [call, worker]
      exact findsJob transition (inTrace transition inCycle)
    · intro transition inCycle holder
      rw [call, worker]
      exact (calls transition (inTrace transition inCycle) holder).1

/-- Without the condition it fails: the worker is killed while `draining`, and
no cycle looks at its job again. -/
theorem draining_job_stranded :
    ¬∀ (env : Env) (start last : State) (scenario : ShutdownThenReap env),
      Run (step env) start scenario.trace last → Initial start →
      scenario.StrandsNone last := by
  intro strandsNone
  obtain ⟨trace, last, run, ⟨exit, isExit, exits, registered, signalled⟩,
      follows, jobs, running⟩ :=
    exists_run_of_check (step .sample)
      (World.sample 1 ⟨[(7, .sample .queued)], by simp⟩).idle
      (claimActions 1 1 [7] ++ executeActions 1 2 0 ++
        ([.stopPoller 1, .drain 1] : List Action) ++
        crashActions 1 20000 3 2 ++ ([.reap 3 (.rows [])] : List Action))
      (fun trace last =>
        (∃ exit ∈ (trace.drop 15).head?,
          exit.action.exiting = some 1 ∧
          (exit.before.workerStatus? 1).isSome = true ∧
          exit.before.world.process 1 = some .stopping) ∧
        ExitThenReap.ReapFollows .sample 1 2 3 (trace.drop 16) 2 ∧
        lastClaimed 1 trace = [7] ∧ last.status? 7 = some .running)
      (by decide)
  obtain ⟨scenario, rfl, worker, _, rfl⟩ :=
    ExitThenReap.exists_of_follows isExit exits registered follows
  have member : 7 ∈ scenario.jobs := by
    simp [ExitThenReap.jobs, worker, jobs]
  obtain ⟨status, found, settled⟩ := strandsNone .sample _ last
    ⟨scenario, by rw [worker]; exact signalled⟩ run
    (World.idle_initial fun _ => rfl) 7 member
  cases running.symm.trans found
  rcases settled with queued | terminal
  · cases queued
  · cases terminal

end Steps

end Chronos
