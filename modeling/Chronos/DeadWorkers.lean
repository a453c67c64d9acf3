import Chronos.AttemptNumbers
import Chronos.PartialReap

/-!
# A worker that is marked dead

The reaper marks a stale worker dead by its row alone, and the heartbeat of a
worker that resumes refreshes the time and leaves the status.  A row that says
`dead` is then out of the reaper's sight for good.  This file shows when such
a worker does no more work, so that every execution that begins belongs to a
worker that the reaper scans.
-/

namespace Chronos

namespace Call

/-- A `claimJobs` call of this worker. -/
def claimsFor : Call → WorkerId → Prop
  | .poll ⟨owner, .claiming _ _ _⟩, worker => owner = worker
  | _, _ => False

/-- An `executeJob` call of this worker whose attempt has not begun. -/
def startsFor : Call → WorkerId → Prop
  | .exec ⟨_, owner, phase⟩, worker => owner = worker ∧ phase.starting = true
  | _, _ => False

instance (value : Call) (worker : WorkerId) :
    Decidable (value.claimsFor worker) :=
  match value with
  | .poll ⟨owner, .claiming _ _ _⟩ =>
      inferInstanceAs (Decidable (owner = worker))
  | .poll ⟨_, .fetchQueues⟩ | .poll ⟨_, .nextQueue _⟩
  | .poll ⟨_, .launching _ _⟩ | .exec _ | .reap _ | .tick _ | .submit _
  | .batch _ | .retry _ | .cancel _ => inferInstanceAs (Decidable False)

instance (value : Call) (worker : WorkerId) :
    Decidable (value.startsFor worker) :=
  match value with
  | .exec ⟨_, owner, phase⟩ =>
      inferInstanceAs (Decidable (owner = worker ∧ phase.starting = true))
  | .poll _ | .reap _ | .tick _ | .submit _ | .batch _ | .retry _
  | .cancel _ => inferInstanceAs (Decidable False)

theorem not_claimsFor_of_isRequest {value : Call} {worker : WorkerId}
    (isRequest : value.isRequest = true) : ¬value.claimsFor worker := by
  intro claims
  cases value with
  | poll => cases isRequest
  | _ => exact claims

theorem not_startsFor_of_isRequest {value : Call} {worker : WorkerId}
    (isRequest : value.isRequest = true) : ¬value.startsFor worker := by
  intro starts
  cases value with
  | exec => cases isRequest
  | _ => exact starts

end Call

namespace State

def claimsFor (state : State) (call : CallId) (worker : WorkerId) : Prop :=
  ∃ value ∈ state.calls call, value.claimsFor worker

def startsFor (state : State) (call : CallId) (worker : WorkerId) : Prop :=
  ∃ value ∈ state.calls call, value.startsFor worker

instance (state : State) (call : CallId) (worker : WorkerId) :
    Decidable (state.claimsFor call worker) :=
  inferInstanceAs (Decidable (∃ value ∈ state.calls call, _))

instance (state : State) (call : CallId) (worker : WorkerId) :
    Decidable (state.startsFor call worker) :=
  inferInstanceAs (Decidable (∃ value ∈ state.calls call, _))

/-- Every process whose poller runs has an `active` row. -/
def Registered (state : State) : Prop :=
  ∀ worker, state.world.process worker = some .running →
    state.workerStatus? worker = some .active

end State

namespace Action

def retires : Action → Option WorkerId
  | .retire worker => some worker
  | _ => none

def drains : Action → Option WorkerId
  | .drain worker => some worker
  | _ => none

/-- The worker whose row this step sets to `dead`. -/
def setsDead (state : State) (action : Action) : Option WorkerId :=
  (action.marksDead state).or action.retires

end Action

/-- The poller of a worker that is set to `dead` does not run any more. -/
def PollerStopped (transition : Transition State Action) : Prop :=
  ∀ worker ∈ transition.action.setsDead transition.before,
    transition.before.world.process worker ≠ some .running

/-- The call is no claim of a worker that is set to `dead`, and no attempt of
it or of a worker that is set to `draining` is about to begin in it. -/
structure CallStopped (transition : Transition State Action) (call : CallId) :
    Prop where
  claims : ∀ worker ∈ transition.action.setsDead transition.before,
    ¬transition.before.claimsFor call worker
  starts : ∀ worker ∈ (transition.action.setsDead transition.before).or
      transition.action.drains,
    ¬transition.before.startsFor call worker

instance (transition : Transition State Action) :
    Decidable (PollerStopped transition) :=
  inferInstanceAs (Decidable (∀ worker ∈ _, _ ≠ _))

instance (transition : Transition State Action) (call : CallId) :
    Decidable (CallStopped transition call) :=
  decidable_of_iff
    ((∀ worker ∈ transition.action.setsDead transition.before,
        ¬transition.before.claimsFor call worker) ∧
      ∀ worker ∈ (transition.action.setsDead transition.before).or
          transition.action.drains,
        ¬transition.before.startsFor call worker)
    ⟨fun both => ⟨both.1, both.2⟩, fun stopped => ⟨stopped.1, stopped.2⟩⟩

/-- A worker whose row says `dead` commits no claim and begins no execution,
and whoever begins one is scanned by the reaper. -/
structure DeadRest (transition : Transition State Action) : Prop where
  claims : ∀ claim ∈ transition.action.claims transition.before,
    transition.before.workerStatus? claim.1 ≠ some .dead
  starts : ∀ worker ∈ transition.action.startsFor transition.before,
    transition.before.workerStatus? worker ≠ some .dead
  scanned : ∀ worker ∈ transition.action.startsFor transition.before,
    transition.before.workerStatus? worker = some .active

/-! ## Where working calls come from -/

section Steps

variable {env : Env} {start last state next : State} {action : Action}
  {trace : List (Transition State Action)}

theorem step_running (taken : step env state action = some next)
    {worker : WorkerId}
    (running : next.world.process worker = some .running) :
    state.world.process worker = some .running ∨
      next.workerStatus? worker = some .active := by
  have set : ∀ {changed : WorkerId} {process : Process},
      process ≠ .running →
      (state.world.setProcess changed process).process worker =
        some .running →
      state.world.process worker = some .running := by
    intro changed process notRunning found
    by_cases same : worker = changed
    · subst changed
      simp only [World.setProcess, Function.update_self,
        Option.some.injEq] at found
      exact (notRunning found).elim
    · simpa [World.setProcess, same] using found
  cases step_cases taken with
  | @registered changed _ success =>
      obtain ⟨workers, inserted, rfl⟩ := World.registerWorker_eq_some success
      by_cases same : worker = changed
      · subst changed
        right
        simp [State.workerStatus?, World.setProcess,
          Table.get?_insert? inserted]
      · left
        simpa [World.setProcess, same] using running
  | stopped => exact .inl (set (by rintro ⟨⟩) running)
  | exited => exact .inl (set (by rintro ⟨⟩) running)
  | poll _ case => exact .inl (by rwa [case.frame] at running)
  | exec _ case => exact .inl (by rwa [case.frame] at running)
  | reap _ case => exact .inl (by rwa [case.frame] at running)
  | tick _ case => exact .inl (by rwa [case.frame] at running)
  | api _ case => exact .inl (by rwa [case.frame] at running)
  | _ => exact .inl running

private theorem running_of_not_stopping {worker : WorkerId}
    (notStopping : state.world.stopping worker = false) :
    state.world.process worker = some .running := by
  simpa [World.stopping] using notStopping

/-- A cycle enters `claimJobs` only while its poller runs. -/
private theorem running_of_entered {call : CallId} {poll : PollCall}
    {queue : QueueRef} {rest queues : List QueueRef} {phase : ClaimPhase}
    (taken : step env state (.poll call .next) = some next)
    (called : state.calls call = some (.poll poll))
    (before : poll.phase = .nextQueue queues)
    (after : next.calls call =
      some (.poll { poll with phase := .claiming queue rest phase })) :
    state.world.process poll.workerId = some .running := by
  apply running_of_not_stopping
  cases stopping : state.world.stopping poll.workerId with
  | false => rfl
  | true =>
      simp only [step, called, State.resume, Option.map_eq_some_iff] at taken
      obtain ⟨⟨world, poll'⟩, success, rfl⟩ := taken
      cases queues with
      | nil =>
          simp only [pollCycle, before] at success
          cases success
          simp at after
      | cons head tail =>
          simp only [pollCycle, before, stopping, if_true] at success
          cases success
          simp at after

theorem step_claimsFor (taken : step env state action = some next)
    {call : CallId} {worker : WorkerId}
    (claims : next.claimsFor call worker) :
    state.claimsFor call worker ∨
      state.world.process worker = some .running := by
  obtain ⟨value, found, claims⟩ := claims
  cases step_call taken found with
  | kept called => exact .inl ⟨value, called, claims⟩
  | started starts =>
      cases starts with
      | request =>
          rename_i request
          cases request <;> cases claims
      | _ => cases claims
  | handedOver => cases claims
  | @poll poll _ _ _ called case =>
      have goesOn : ∀ {queue rest phase},
          poll.phase = .claiming queue rest phase →
          poll.workerId = worker → state.claimsFor call worker := by
        rintro queue rest phase isPhase same
        obtain ⟨owner, phase'⟩ := poll
        subst isPhase
        exact ⟨_, called, same⟩
      cases case with
      | entered phase =>
          right
          have running := running_of_entered taken called phase found
          exact (show poll.workerId = worker from claims) ▸ running
      | counted phase => exact .inl (goesOn phase claims)
      | begun phase => exact .inl (goesOn phase claims)
      | selected phase => exact .inl (goesOn phase claims)
      | selectedNone phase => exact .inl (goesOn phase claims)
      | updated phase => exact .inl (goesOn phase claims)
      | _ => cases claims
  | api _ case =>
      exact (Call.not_claimsFor_of_isRequest case.requests.2 claims).elim
  | _ => cases claims

theorem step_startsFor (taken : step env state action = some next)
    {call : CallId} {worker : WorkerId}
    (starts : next.startsFor call worker) :
    state.startsFor call worker ∨
      state.world.process worker = some .running := by
  obtain ⟨value, found, isStarting⟩ := starts
  cases step_call taken found with
  | kept called => exact .inl ⟨value, called, isStarting⟩
  | started starts =>
      cases starts with
      | request =>
          rename_i request
          cases request <;> cases isStarting
      | _ => cases isStarting
  | launched called =>
      right
      cases step_cases taken with
      | started starts => cases starts
      | launched called' _ notStopping =>
          cases called.symm.trans called'
          exact isStarting.1 ▸ running_of_not_stopping notStopping
  | @exec exec exec' _ _ called case =>
      left
      have same : exec'.workerId = exec.workerId := by cases case <;> rfl
      exact ⟨_, called, same.symm.trans isStarting.1,
        ExecPhase.starting_entered case isStarting.2⟩
  | api _ case =>
      exact (Call.not_startsFor_of_isRequest case.requests.2 isStarting).elim
  | _ => cases isStarting

theorem step_status_kept (taken : step env state action = some next)
    {worker : WorkerId} {status : WorkerStatus}
    (known : state.workerStatus? worker = some status) :
    next.workerStatus? worker = some status ∨
      action.setsDead state = some worker ∨
      (action = .drain worker ∧
        next.workerStatus? worker = some .draining) := by
  rcases step_workerStatus_cases taken known with
    same | marks | drained | rfl
  · exact .inl same
  · exact .inr (.inl (by simp [Action.setsDead, marks]))
  · exact .inr (.inr drained)
  · exact .inr (.inl rfl)

theorem not_running_of_drain {worker : WorkerId}
    (taken : step env state (.drain worker) = some next) :
    state.world.process worker ≠ some .running := by
  intro running
  cases step_cases taken with
  | started begins => cases begins
  | drained stopping =>
      rw [running] at stopping
      cases stopping

/-! ## Who works is not dead -/

/-- Workers whose poller runs are `active`, and so are those with an attempt
about to begin; a worker that claims is not dead. -/
structure WorkersAlive (state : State) : Prop where
  registered : state.Registered
  claims : ∀ {call worker}, state.claimsFor call worker →
    ∃ status, state.workerStatus? worker = some status ∧ status ≠ .dead
  starts : ∀ {call worker}, state.startsFor call worker →
    state.workerStatus? worker = some .active

namespace WorkersAlive

theorem initial (initial : Initial start) (registered : start.Registered) :
    WorkersAlive start := by
  refine ⟨registered, ?_, ?_⟩
  · rintro call worker ⟨value, found, _⟩
    rw [initial.calls call] at found
    cases found
  · rintro call worker ⟨value, found, _⟩
    rw [initial.calls call] at found
    cases found

private theorem registered_step (alive : WorkersAlive state)
    (taken : step env state action = some next)
    (poller : PollerStopped ⟨state, action, next⟩) : next.Registered := by
  intro worker running
  rcases step_running taken running with before | active
  · rcases step_status_kept taken (alive.registered worker before) with
      same | dead | ⟨rfl, _⟩
    · exact same
    · exact (poller worker dead before).elim
    · exact (not_running_of_drain taken before).elim
  · exact active

theorem step (alive : WorkersAlive state)
    (taken : Chronos.step env state action = some next)
    (poller : PollerStopped ⟨state, action, next⟩)
    (stopped : ∀ call, CallStopped ⟨state, action, next⟩ call) :
    WorkersAlive next := by
  refine ⟨alive.registered_step taken poller, ?_, ?_⟩
  · intro call worker claims
    obtain ⟨status, known, notDead, notSet⟩ : ∃ status,
        state.workerStatus? worker = some status ∧ status ≠ .dead ∧
          action.setsDead state ≠ some worker := by
      rcases step_claimsFor taken claims with before | running
      · obtain ⟨status, known, notDead⟩ := alive.claims before
        exact ⟨status, known, notDead,
          fun dead => (stopped call).claims worker dead before⟩
      · exact ⟨.active, alive.registered worker running, by simp,
          fun dead => poller worker dead running⟩
    rcases step_status_kept taken known with same | dead | ⟨_, draining⟩
    · exact ⟨status, same, notDead⟩
    · exact (notSet dead).elim
    · exact ⟨.draining, draining, by simp⟩
  · intro call worker starts
    obtain ⟨active, notSet, notDrained⟩ :
        state.workerStatus? worker = some .active ∧
          action.setsDead state ≠ some worker ∧ action ≠ .drain worker := by
      rcases step_startsFor taken starts with before | running
      · refine ⟨alive.starts before, ?_, ?_⟩
        · intro dead
          exact (stopped call).starts worker (by simp [dead]) before
        · rintro rfl
          exact (stopped call).starts worker rfl before
      · refine ⟨alive.registered worker running,
          fun dead => poller worker dead running, ?_⟩
        rintro rfl
        exact not_running_of_drain taken running
    rcases step_status_kept taken active with same | dead | ⟨drained, _⟩
    · exact same
    · exact (notSet dead).elim
    · exact (notDrained drained).elim

theorem run (run : Run (Chronos.step env) start trace last)
    (initial : Initial start) (registered : start.Registered)
    (poller : ∀ transition ∈ trace, PollerStopped transition)
    (stopped : ∀ transition ∈ trace, ∀ call, CallStopped transition call) :
    WorkersAlive last := by
  have both : ∀ transition ∈ trace, PollerStopped transition ∧
      ∀ call, CallStopped transition call :=
    fun transition member =>
      ⟨poller transition member, stopped transition member⟩
  refine run.invariant WorkersAlive both (.initial initial registered) ?_
  rintro transition ⟨poller, stopped⟩ taken alive
  exact alive.step taken poller stopped

theorem rest (alive : WorkersAlive state) : DeadRest ⟨state, action, next⟩ := by
  have active : ∀ worker ∈ action.startsFor state,
      state.workerStatus? worker = some .active := by
    intro worker starts
    obtain ⟨call, _, _, _, _, rfl, called⟩ :=
      Action.startsFor_eq_some starts
    exact alive.starts ⟨_, called, rfl, rfl⟩
  constructor
  · rintro ⟨worker, ids⟩ claims
    obtain ⟨call, queue, rest, txNow, rfl, called⟩ :=
      Action.claims_eq_some claims
    obtain ⟨status, known, notDead⟩ := alive.claims ⟨_, called, rfl⟩
    intro dead
    cases known.symm.trans dead
    exact notDead rfl
  · intro worker starts dead
    cases (active worker starts).symm.trans dead
  · exact active

end WorkersAlive

/-! ## Runs -/

/-- Workers that are marked dead do no work in every run in which a row is set
to `dead` only when the poller has stopped, with no claim in progress and no
attempt about to begin, and to `draining` only with no attempt about to
begin. -/
theorem dead_workers_rest (run : Run (step env) start trace last)
    (initial : Initial start) (registered : start.Registered)
    (poller : ∀ transition ∈ trace, PollerStopped transition)
    (stopped : ∀ transition ∈ trace, ∀ call, CallStopped transition call) :
    ∀ transition ∈ trace, DeadRest transition := by
  intro transition member
  obtain ⟨earlier, later, rfl⟩ := List.append_of_mem member
  simp only [List.forall_mem_append] at poller stopped
  obtain ⟨before, _, _⟩ := run.around
  exact (WorkersAlive.run before initial registered poller.1
    stopped.1).rest

theorem sample_registered (limit : Nat) (jobs : Table JobId Job) :
    (World.sample limit jobs).idle.Registered := by
  intro worker running
  simp only [World.idle, World.sample] at running
  split at running
  · rename_i named
    rcases named with rfl | rfl <;> rfl
  · cases running

/-- Worker 1 crashes and is marked dead, and worker 2 executes its job. -/
theorem dead_workers_rest_crashed :
    ∃ trace last,
      Run (step .sample)
        (World.sample 1 ⟨[(7, .sample .queued)], by simp⟩).idle trace last ∧
      last.workerStatus? 1 = some .dead ∧
      (∃ transition ∈ trace,
        transition.action.startsFor transition.before = some 2) ∧
      ∀ transition ∈ trace, DeadRest transition := by
  obtain ⟨trace, last, run, dead, starts, poller, checked⟩ :=
    exists_run_of_check (step .sample)
      (World.sample 1 ⟨[(7, .sample .queued)], by simp⟩).idle
      (claimActions 1 1 [7] ++ executeActions 1 2 0 ++
        crashActions 1 20000 3 2 ++ reapActions 3 1 0 7 ++
        claimActions 4 2 [7] ++ executeActions 4 5 1)
      (fun trace last =>
        last.workerStatus? 1 = some .dead ∧
        (∃ transition ∈ trace,
          transition.action.startsFor transition.before = some 2) ∧
        (∀ transition ∈ trace, PollerStopped transition) ∧
        ChecksCalls 6 CallStopped trace)
      (by decide)
  have initial : Initial
      (World.sample 1 ⟨[(7, .sample .queued)], by simp⟩).idle :=
    World.idle_initial fun _ => rfl
  have stopped := checked.forall_calls run initial (by
    intro transition call absent
    constructor <;>
      simp [State.claimsFor, State.startsFor, absent])
  exact ⟨trace, last, run, dead, starts, dead_workers_rest run initial
    (sample_registered _ _) poller stopped⟩

/-- Worker 1 stalls while it is idle, is marked dead, and resumes: it claims a
job and begins an execution that no reaper will look for. -/
theorem dead_worker_executes :
    ∃ trace last,
      Run (step .sample)
        (World.sample 1 ⟨[(7, .sample .queued)], by simp⟩).idle trace last ∧
      Initial (World.sample 1 ⟨[(7, .sample .queued)], by simp⟩).idle ∧
      (World.sample 1 ⟨[(7, .sample .queued)], by simp⟩).idle.Registered ∧
      (∃ transition ∈ trace,
        transition.action.claims transition.before = some (1, [7]) ∧
        transition.before.workerStatus? 1 = some .dead) ∧
      (∃ transition ∈ trace,
        transition.action.startsFor transition.before = some 1 ∧
        transition.before.workerStatus? 1 = some .dead) ∧
      ¬∀ transition ∈ trace, DeadRest transition := by
  obtain ⟨trace, last, run, claimed, started⟩ :=
    exists_run_of_check (step .sample)
      (World.sample 1 ⟨[(7, .sample .queued)], by simp⟩).idle
      (([.advance 20000, .heartbeat 2, .startReap 3 2,
          .reap 3 (.rows [1]), .reap 3 .ok, .reap 3 (.rows []),
          .heartbeat 1] : List Action) ++
        claimActions 1 1 [7] ++ executeActions 1 2 0)
      (fun trace _ =>
        (∃ transition ∈ trace,
          transition.action.claims transition.before = some (1, [7]) ∧
          transition.before.workerStatus? 1 = some .dead) ∧
        ∃ transition ∈ trace,
          transition.action.startsFor transition.before = some 1 ∧
          transition.before.workerStatus? 1 = some .dead)
      (by decide)
  refine ⟨trace, last, run, World.idle_initial fun _ => rfl,
    sample_registered _ _, claimed, started, ?_⟩
  intro rest
  obtain ⟨transition, member, starts, dead⟩ := started
  exact (rest transition member).starts 1 starts dead

end Steps

end Chronos
