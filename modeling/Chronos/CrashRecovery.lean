import Chronos.Ownership
import Chronos.Requeue

/-!
# Recovery after a crash

A worker process ends, its heartbeat becomes stale, and a reap cycle of
another worker runs to its end.  This file shows when no job that the dead
worker claimed last is left in flight.  A claim stores no owner, so the cycle
knows the jobs of a worker by their running executions only.
-/

namespace Chronos

/-! ## Latest claims -/

/-- The jobs whose latest claim in this history was made by the worker. -/
def lastClaimed (worker : WorkerId) (trace : List (Transition State Action)) :
    List JobId :=
  trace.foldl
    (fun jobs transition =>
      match transition.action.claims transition.before with
      | none => jobs
      | some (owner, ids) =>
          jobs.filter (· ∉ ids) ++ if owner = worker then ids else [])
    []

theorem mem_lastClaimed_snoc {worker : WorkerId} {job : JobId}
    {trace : List (Transition State Action)}
    {transition : Transition State Action} :
    job ∈ lastClaimed worker (trace ++ [transition]) ↔
      (job ∈ lastClaimed worker trace ∧ Unclaimed job transition) ∨
        ∃ ids, transition.action.claims transition.before =
          some (worker, ids) ∧ job ∈ ids := by
  simp only [lastClaimed, List.foldl_append, List.foldl_cons, List.foldl_nil,
    Unclaimed]
  cases committed : transition.action.claims transition.before with
  | none => simp
  | some claim =>
      obtain ⟨owner, ids⟩ := claim
      by_cases same : owner = worker
      · subst owner
        simp
      · simp [same]

/-- Where the worker claims nothing any more, its latest claims are the old
ones, less the jobs that others have claimed. -/
theorem of_mem_lastClaimed_append {worker : WorkerId} {job : JobId}
    {first second : List (Transition State Action)}
    (silent : ∀ transition ∈ second,
      ∀ claim ∈ transition.action.claims transition.before, claim.1 ≠ worker)
    (member : job ∈ lastClaimed worker (first ++ second)) :
    job ∈ lastClaimed worker first ∧
      ∀ transition ∈ second, Unclaimed job transition := by
  induction second using List.reverseRecOn with
  | nil => exact ⟨by simpa using member, by simp⟩
  | append_singleton second transition induction =>
      rw [← List.append_assoc, mem_lastClaimed_snoc] at member
      rcases member with ⟨before, unclaimed⟩ | ⟨ids, claims, _⟩
      · obtain ⟨old, rest⟩ := induction
          (fun other inSecond => silent other (by simp [inSecond])) before
        refine ⟨old, ?_⟩
        intro other inBoth
        rcases List.mem_append.mp inBoth with inSecond | isLast
        · exact rest other inSecond
        · cases List.mem_singleton.mp isLast
          exact unclaimed
      · exact (silent transition (by simp) _ claims rfl).elim

theorem status_of_lastClaimed {env : Env} {start last : State}
    {trace : List (Transition State Action)}
    (run : Run (step env) start trace last) (initial : Initial start)
    {worker : WorkerId} {job : JobId}
    (member : job ∈ lastClaimed worker trace) :
    ∃ status, last.status? job = some status := by
  induction run with
  | nil => cases member
  | snoc run taken induction =>
      rcases mem_lastClaimed_snoc.mp member with
        ⟨before, _⟩ | ⟨ids, claims, inIds⟩
      · obtain ⟨status, found⟩ := induction before
        exact step_status taken found
      · obtain ⟨call, queue, rest, txNow, rfl, called⟩ :=
          Action.claims_eq_some claims
        have returns := ClaimReturns.of_commit taken called rfl
        exact ⟨_, returns.status_after taken (LockInv.run run initial) inIds⟩

/-! ## A worker that is gone -/

/-- The process of the worker has ended, no call of it is left, and its last
heartbeat was at this instant. -/
structure Gone (worker : WorkerId) (heartbeat : Time) (state : State) :
    Prop where
  exited : state.world.process worker = some .exited
  calls : ∀ {call value}, state.calls call = some value →
    value.worker ≠ some worker
  row : ∃ row, state.world.workers.get? worker = some row ∧
    row.lastHeartbeatAt = heartbeat

namespace Gone

variable {env : Env} {state next : State} {action : Action}
  {worker : WorkerId} {heartbeat : Time}

theorem of_exit (taken : Chronos.step env state (.exit worker) = some next)
    {row : Worker} (found : state.world.workers.get? worker = some row) :
    Gone worker row.lastHeartbeatAt next := by
  cases step_cases taken with
  | started starts => cases starts
  | exited =>
      constructor
      · simp [State.exitWorker, World.setProcess]
      · intro call value called
        simp only [State.exitWorker] at called
        split at called
        · cases called
        · rename_i stays
          intro mine
          simp [State.belongs, called, mine] at stays
      · exact ⟨row, found, rfl⟩

theorem not_alive (gone : Gone worker heartbeat state) :
    state.world.alive worker = false := by
  simp [World.alive, gone.exited]

theorem step (gone : Gone worker heartbeat state)
    (taken : Chronos.step env state action = some next) :
    Gone worker heartbeat next := by
  obtain ⟨row, found, beat⟩ := gone.row
  have dead := gone.not_alive
  constructor
  · exact step_exited taken found gone.exited
  · intro call value called mine
    cases step_call taken called with
    | kept old => exact gone.calls old mine
    | started starts =>
        cases starts with
        | poll notStopping =>
            cases mine
            simp [World.stopping, gone.exited] at notStopping
        | reap alive => cases mine; simp [dead] at alive
        | tick alive => cases mine; simp [dead] at alive
        | request =>
            rename_i request
            cases request <;> cases mine
    | handedOver old => exact gone.calls old mine
    | launched old => exact gone.calls old mine
    | poll old case => cases case <;> exact gone.calls old mine
    | exec old case => cases case <;> exact gone.calls old mine
    | reap old => exact gone.calls old mine
    | tick old => exact gone.calls old mine
    | api old case =>
        have isRequest := case.requests.2
        cases value with
        | poll => cases isRequest
        | exec => cases isRequest
        | reap => cases isRequest
        | tick => cases isRequest
        | _ => cases mine
  · obtain ⟨row', found', same | write⟩ := step_worker taken found
    · exact ⟨row', found', same ▸ beat⟩
    · cases write with
      | heartbeat alive => simp [dead] at alive
      | leave => exact ⟨_, found', beat⟩

theorem claims_ne (gone : Gone worker heartbeat state)
    {claim : WorkerId × List JobId} (claims : action.claims state = some claim) :
    claim.1 ≠ worker := by
  obtain ⟨call, _, _, _, _, called⟩ := Action.claims_eq_some claims
  rintro rfl
  exact gone.calls called rfl

end Gone

/-- The job exists, and the worker that claimed it is gone. -/
structure Orphaned (worker : WorkerId) (heartbeat : Time) (job : JobId)
    (state : State) : Prop where
  gone : Gone worker heartbeat state
  present : ∃ status, state.status? job = some status

theorem Orphaned.step {env : Env} {state next : State} {action : Action}
    {worker : WorkerId} {heartbeat : Time} {job : JobId}
    (orphaned : Orphaned worker heartbeat job state)
    (taken : Chronos.step env state action = some next) :
    Orphaned worker heartbeat job next := by
  obtain ⟨status, found⟩ := orphaned.present
  exact ⟨orphaned.gone.step taken, step_status taken found⟩

/-! ## A job that nobody will start -/

namespace ExecPhase

/-- The call may still set its job `running`. -/
def unstarted : ExecPhase → Bool
  | .findJob => true
  | .markRunning _ _ => true
  | _ => false

theorem unstarted_entered : Entered unstarted := by
  intro world next exec exec' input case after
  cases case with
  | found phase => rw [phase]; rfl
  | rejected phase =>
      simp only [handleFailure] at after
      split at after <;> cases after
  | _ => cases after

end ExecPhase

/-- The job exists, no call may still set it `running`, and if it is in flight
it is listed. -/
structure Stranded (state : State) (job : JobId) (listed : List JobId) :
    Prop where
  present : ∃ status, state.status? job = some status
  unstarted : ∀ holder, ¬state.holdsIn ExecPhase.unstarted holder job
  inFlight : ∀ status, state.status? job = some status →
    status.inFlight = true → job ∈ listed

namespace Stranded

variable {env : Env} {state next : State} {action : Action} {job : JobId}
  {listed : List JobId}

theorem step (stranded : Stranded state job listed)
    (taken : Chronos.step env state action = some next)
    (unclaimed : Unclaimed job ⟨state, action, next⟩) :
    Stranded next job listed := by
  obtain ⟨old, found⟩ := stranded.present
  constructor
  · exact step_status taken found
  · intro holder held
    rcases step_holdsIn ExecPhase.unstarted_entered taken held with old | gains
    · exact stranded.unstarted holder old
    · cases gains with
      | claimed called phase member =>
          exact unclaimed.notMem called phase member
      | @launched call _ _ _ _ _ called phase =>
          exact stranded.unstarted call ⟨_, called,
            Call.holdsIn_of_launching phase List.mem_cons_self⟩
  · intro status after inFlight
    obtain ⟨row, rowFound, rfl⟩ := State.status?_eq_some_iff.mp found
    obtain ⟨row', found', change⟩ := step_job taken rowFound
    have same : row'.status = status := by
      simpa [State.status?, found'] using after
    subst same
    rcases change with rfl | write
    · exact stranded.inFlight _ found inFlight
    · cases write with
      | claim called phase member =>
          exact (unclaimed.notMem called phase member).elim
      | @markRunning call exec _ _ _ called target phase _ =>
          refine (stranded.unstarted call ⟨_, called, target, ?_⟩).elim
          rw [phase]
          rfl
      | _ => cases inFlight

end Stranded

/-! ## The cycle -/

namespace ReapPhase

/-- The workers whose running executions the cycle is still to read. -/
def unread : ReapPhase → List WorkerId
  | .findStale _ => []
  | .markDead worker workers => worker :: workers
  | .findExecutions worker workers => worker :: workers
  | .findJobs _ workers _ => workers
  | .requeue _ workers _ _ => workers
  | .closeExecutions _ workers _ _ _ => workers
  | .publish _ workers _ _ _ => workers

def readsStale : ReapPhase → Bool
  | .findStale _ => true
  | _ => false

/-- The next step reads the running executions of this worker. -/
def readsExecutions (worker : WorkerId) : ReapPhase → Bool
  | .findExecutions other _ => other = worker
  | _ => false

end ReapPhase

/-- If this is the cycle's read of the stale workers, this one is `active`. -/
def FindsWorker (call : CallId) (worker : WorkerId)
    (transition : Transition State Action) : Prop :=
  transition.action.actor = some call →
  (transition.before.reaping? call).any ReapPhase.readsStale = true →
  transition.before.workerStatus? worker = some .active

/-- If this is the cycle's read of the worker's running executions, one of
them is of this job, should it be in flight. -/
def FindsJob (call : CallId) (worker : WorkerId) (job : JobId)
    (transition : Transition State Action) : Prop :=
  transition.action.actor = some call →
  (transition.before.reaping? call).any (ReapPhase.readsExecutions worker) =
    true →
  ∀ status ∈ transition.before.status? job, status.inFlight = true →
    transition.before.world.hasRunningExecution worker job = true

/-- If this is the cycle's read of the worker's running executions, this call
is not about to set the job `running`. -/
def FindsUnstarted (call : CallId) (worker : WorkerId) (job : JobId)
    (transition : Transition State Action) (holder : CallId) : Prop :=
  transition.action.actor = some call →
  (transition.before.reaping? call).any (ReapPhase.readsExecutions worker) =
    true →
  ¬transition.before.holdsIn ExecPhase.unstarted holder job

/-- How far a cycle has come with the jobs of one stale worker: it is still to
find the worker, still to read its executions, or it has the job on its list if
that is in flight. -/
inductive Recovering (worker : WorkerId) (job : JobId) (staleThreshold : Time)
    (state : State) : Option ReapPhase → Prop where
  | findStale :
      Recovering worker job staleThreshold state
        (some (.findStale staleThreshold))
  | unread {phase : ReapPhase} :
      worker ∈ phase.unread →
      Recovering worker job staleThreshold state (some phase)
  | listed {phase : ReapPhase} :
      Stranded state job phase.pending →
      Recovering worker job staleThreshold state (some phase)
  | ended :
      Stranded state job [] →
      Recovering worker job staleThreshold state none

namespace Recovering

variable {env : Env} {state next : State} {action : Action}
  {worker current : WorkerId} {workers : List WorkerId} {job : JobId}
  {jobIds : List JobId} {staleThreshold : Time}

theorem nextWorker (goesOn : worker ∈ workers ∨ Stranded state job []) :
    Recovering worker job staleThreshold state
      (ReapPhase.nextWorker workers) := by
  cases workers with
  | nil =>
      rcases goesOn with member | stranded
      · cases member
      · exact .ended stranded
  | cons =>
      rcases goesOn with member | stranded
      · exact .unread member
      · exact .listed stranded

theorem nextJob (goesOn : worker ∈ workers ∨ Stranded state job jobIds) :
    Recovering worker job staleThreshold state
      (ReapPhase.nextJob current workers jobIds) := by
  cases jobIds with
  | nil => exact nextWorker goesOn
  | cons =>
      rcases goesOn with member | stranded
      · exact .unread member
      · exact .listed stranded

theorem mem_orphans {world : World} {order : List ExecutionId}
    (read : order.Perm (world.runningExecutions worker))
    (running : world.hasRunningExecution worker job = true) :
    job ∈ newSet (order.filterMap world.executionJob) := by
  simp only [World.hasRunningExecution, List.any_eq_true, Bool.and_eq_true,
    decide_eq_true_eq] at running
  obtain ⟨⟨id, execution⟩, member, ⟨sameJob, sameWorker⟩, isRunning⟩ := running
  dsimp only at sameJob sameWorker isRunning
  have found := Table.mem_rows_iff.mp member
  have selected : id ∈ order := by
    apply read.mem_iff.mpr
    apply Table.mem_keysWhere.mpr
    exact ⟨execution, found, by simp [sameWorker, isRunning]⟩
  apply mem_newSet.mpr
  apply List.mem_filterMap.mpr
  exact ⟨id, selected, by simp [World.executionJob, found, sameJob]⟩

theorem own_step {phase : ReapPhase} {phase' : Option ReapPhase}
    {input : ReapInput} {world : World}
    (recovering : Recovering worker job staleThreshold state (some phase))
    (case : ReapStep state.world phase input world phase')
    (succeeds : input ≠ .fail) (sameWorld : next.world = world)
    (stays : ∀ {listed}, Stranded state job listed →
      Stranded next job listed)
    (findsWorker : phase.readsStale = true →
      worker ∈ state.world.staleWorkers staleThreshold)
    (findsJob : phase.readsExecutions worker = true →
      ∀ {listed}, (state.world.hasRunningExecution worker job = true →
        job ∈ listed) → Stranded state job listed) :
    Recovering worker job staleThreshold next phase' := by
  have unread_or_stranded : ¬phase.readsStale = true →
      worker ∈ phase.unread ∨ Stranded next job phase.pending := by
    intro other
    cases recovering with
    | findStale => exact (other rfl).elim
    | unread member => exact .inl member
    | listed stranded => exact .inr (stays stranded)
  cases case with
  | staleFound read =>
      cases recovering with
      | findStale =>
          apply nextWorker
          exact .inl (read.mem_iff.mpr (findsWorker rfl))
      | unread member => cases member
      | listed stranded => exact nextWorker (.inr (stays stranded))
  | markedDead =>
      rcases unread_or_stranded (by simp [ReapPhase.readsStale]) with
        member | stranded
      · exact .unread member
      · exact .listed stranded
  | @noOrphans current workers order read none =>
      rcases unread_or_stranded (by simp [ReapPhase.readsStale]) with
        member | stranded
      · apply nextWorker
        rcases List.mem_cons.mp member with rfl | later
        · right
          apply stays
          apply findsJob (by simp [ReapPhase.readsExecutions])
          intro running
          exact none ▸ mem_orphans read running
        · exact .inl later
      · exact nextWorker (.inr stranded)
  | @orphansFound current workers order read =>
      rcases unread_or_stranded (by simp [ReapPhase.readsStale]) with
        member | stranded
      · rcases List.mem_cons.mp member with rfl | later
        · apply Recovering.listed
          apply stays
          apply findsJob (by simp [ReapPhase.readsExecutions])
          exact mem_orphans read
        · exact .unread later
      · refine .listed ⟨stranded.present, stranded.unstarted, ?_⟩
        intro status found inFlight
        cases stranded.inFlight status found inFlight
  | jobsFound =>
      rcases unread_or_stranded (by simp [ReapPhase.readsStale]) with
        member | stranded
      · exact nextJob (.inl member)
      · apply nextJob
        refine .inr ⟨stranded.present, stranded.unstarted, ?_⟩
        intro status found inFlight
        have listed := stranded.inFlight status found inFlight
        exact mem_newSet.mpr (List.mem_append_left _ listed)
  | @requeued current workers requeued jobIds row rowFound _ =>
      rcases unread_or_stranded (by simp [ReapPhase.readsStale]) with
        member | stranded
      · exact .unread member
      · refine .listed ⟨stranded.present, stranded.unstarted, ?_⟩
        intro status found inFlight
        rcases List.mem_cons.mp (stranded.inFlight status found inFlight) with
          rfl | later
        · simp only [State.status?, sameWorld, World.get?_updateJob, rowFound,
            Option.map_some, if_pos, Job.requeueOrphan,
            Option.some.injEq] at found
          subst found
          cases inFlight
        · exact later
  | closed =>
      rcases unread_or_stranded (by simp [ReapPhase.readsStale]) with
        member | stranded
      · exact .unread member
      · exact .listed stranded
  | published =>
      exact nextJob (unread_or_stranded (by simp [ReapPhase.readsStale]))
  | skipped => exact (succeeds rfl).elim
  | ended => exact (succeeds rfl).elim

end Recovering

/-! ## The scenario -/

/-- A history in which a worker process ends, and later, when the last
heartbeat of the worker is older than the TTL, a reap cycle begins and runs to
its end with no failing call. -/
structure ExitThenReap (env : Env) where
  worker : WorkerId
  reaper : WorkerId
  call : CallId
  past : List (Transition State Action)
  exit : Transition State Action
  between : List (Transition State Action)
  begin : Transition State Action
  cycle : List (Transition State Action)
  finish : Transition State Action
  exits : exit.action = .exit worker
  registered : (exit.before.workerStatus? worker).isSome = true
  begins : begin.action = .startReap call reaper
  stale : ∀ row ∈ begin.before.world.workers.get? worker,
    row.lastHeartbeatAt <
      begin.before.world.now - env.heartbeatTtlSeconds * 1000
  goesOn : ∀ transition ∈ cycle, (transition.after.reaping? call).isSome = true
  acts : finish.action.actor = some call
  ends : finish.after.calls call = none
  succeeds : ∀ transition ∈ cycle ++ [finish],
    transition.action.actor = some call →
    transition.action.fails transition.before = false

namespace ExitThenReap

variable {env : Env}

/-- The steps of the cycle. -/
def steps (scenario : ExitThenReap env) : List (Transition State Action) :=
  scenario.cycle ++ [scenario.finish]

def trace (scenario : ExitThenReap env) : List (Transition State Action) :=
  scenario.past ++ scenario.exit ::
    (scenario.between ++ scenario.begin :: scenario.steps)

/-- The `staleThreshold` of the cycle. -/
def threshold (scenario : ExitThenReap env) : Time :=
  scenario.begin.before.world.now - env.heartbeatTtlSeconds * 1000

/-- The jobs whose latest claim was made by the worker that is gone. -/
def jobs (scenario : ExitThenReap env) : List JobId :=
  lastClaimed scenario.worker scenario.trace

/-- The cycle's reads find the worker still `active`, and for this job, if it
is in flight, a running execution, and no call about to start it. -/
structure Finds (scenario : ExitThenReap env) (job : JobId) : Prop where
  worker : ∀ transition ∈ scenario.steps,
    FindsWorker scenario.call scenario.worker transition
  running : ∀ transition ∈ scenario.steps,
    FindsJob scenario.call scenario.worker job transition
  unstarted : ∀ transition ∈ scenario.steps, ∀ holder,
    FindsUnstarted scenario.call scenario.worker job transition holder

end ExitThenReap

/-- A history in which an `active` worker process ends, and later, when the
last heartbeat of the worker is older than the TTL, a reap cycle begins and
runs to its end with no failing call. -/
structure CrashThenReap (env : Env) where
  worker : WorkerId
  reaper : WorkerId
  call : CallId
  past : List (Transition State Action)
  crash : Transition State Action
  between : List (Transition State Action)
  begin : Transition State Action
  cycle : List (Transition State Action)
  finish : Transition State Action
  exits : crash.action = .exit worker
  active : crash.before.workerStatus? worker = some .active
  begins : begin.action = .startReap call reaper
  stale : ∀ row ∈ begin.before.world.workers.get? worker,
    row.lastHeartbeatAt <
      begin.before.world.now - env.heartbeatTtlSeconds * 1000
  goesOn : ∀ transition ∈ cycle, (transition.after.reaping? call).isSome = true
  acts : finish.action.actor = some call
  ends : finish.after.calls call = none
  succeeds : ∀ transition ∈ cycle ++ [finish],
    transition.action.actor = some call →
    transition.action.fails transition.before = false

namespace CrashThenReap

variable {env : Env}

def trace (scenario : CrashThenReap env) : List (Transition State Action) :=
  scenario.past ++ scenario.crash ::
    (scenario.between ++ scenario.begin ::
      (scenario.cycle ++ [scenario.finish]))

/-- The `staleThreshold` of the cycle. -/
def threshold (scenario : CrashThenReap env) : Time :=
  scenario.begin.before.world.now - env.heartbeatTtlSeconds * 1000

/-- The jobs whose latest claim was made by the worker that is gone. -/
def jobs (scenario : CrashThenReap env) : List JobId :=
  lastClaimed scenario.worker scenario.trace

/-- None of these jobs is left in flight. -/
def Recovered (scenario : CrashThenReap env) (last : State) : Prop :=
  ∀ job ∈ scenario.jobs, ∀ status ∈ last.status? job, status.inFlight = false

/-- The cycle's reads find the worker still `active`, and for each of its jobs
that is in flight a running execution, and no call about to start the job. -/
structure Traceable (scenario : CrashThenReap env) : Prop where
  worker : ∀ transition ∈ scenario.cycle ++ [scenario.finish],
    FindsWorker scenario.call scenario.worker transition
  running : ∀ transition ∈ scenario.cycle ++ [scenario.finish],
    ∀ job ∈ scenario.jobs,
    FindsJob scenario.call scenario.worker job transition
  unstarted : ∀ transition ∈ scenario.cycle ++ [scenario.finish],
    ∀ job ∈ scenario.jobs, ∀ holder,
    FindsUnstarted scenario.call scenario.worker job transition holder

/-- A crash is an end of the process like others. -/
def toExit (scenario : CrashThenReap env) : ExitThenReap env where
  worker := scenario.worker
  reaper := scenario.reaper
  call := scenario.call
  past := scenario.past
  exit := scenario.crash
  between := scenario.between
  begin := scenario.begin
  cycle := scenario.cycle
  finish := scenario.finish
  exits := scenario.exits
  registered := by rw [scenario.active]; rfl
  begins := scenario.begins
  stale := scenario.stale
  goesOn := scenario.goesOn
  acts := scenario.acts
  ends := scenario.ends
  succeeds := scenario.succeeds

end CrashThenReap

section Recovery

variable {env : Env} {start last : State}

private theorem startReap_reaping {state next : State} {call : CallId}
    {reaper : WorkerId}
    (taken : step env state (.startReap call reaper) = some next) :
    next.reaping? call = some (.findStale
      (state.world.now - env.heartbeatTtlSeconds * 1000)) := by
  cases step_cases taken with
  | started starts _ =>
      cases starts with
      | reap => simp [State.reaping?, State.set]

/-- No step while the cycle runs sets it back. -/
private theorem recovering_step {scenario : ExitThenReap env} {job : JobId}
    (finds : scenario.Finds job) {heartbeat : Time}
    (late : heartbeat < scenario.threshold)
    {transition : Transition State Action}
    (inCycle : transition ∈ scenario.steps)
    (taken : step env transition.before transition.action =
      some transition.after)
    (unclaimed : Unclaimed job transition)
    (orphaned : Orphaned scenario.worker heartbeat job transition.before)
    {phase : ReapPhase}
    (reaping : transition.before.reaping? scenario.call = some phase)
    (recovering : Recovering scenario.worker job scenario.threshold
      transition.before (some phase))
    (goesOn : (transition.after.reaping? scenario.call).isSome = true ∨
      transition.action.actor = some scenario.call) :
    Recovering scenario.worker job scenario.threshold transition.after
      (transition.after.reaping? scenario.call) := by
  have stays : ∀ {listed}, Stranded transition.before job listed →
      Stranded transition.after job listed :=
    fun stranded => stranded.step taken unclaimed
  by_cases own : transition.action.actor = some scenario.call
  · obtain ⟨input, world, phase', action, case, sameWorld, after⟩ :=
      step_reap taken reaping own
    rw [after]
    refine recovering.own_step case ?_ sameWorld stays ?_ ?_
    · rintro rfl
      have succeeds := scenario.succeeds transition inCycle own
      rw [action] at succeeds
      cases succeeds
    · intro readsStale
      have isActive := finds.worker transition inCycle own
        (by simp [reaping, readsStale])
      obtain ⟨row, found, status⟩ := Option.map_eq_some_iff.mp isActive
      obtain ⟨row', found', beat⟩ := orphaned.gone.row
      cases found.symm.trans found'
      apply Table.mem_keysWhere.mpr
      exact ⟨row, found, by simp [status, beat, late]⟩
    · intro reads listed covers
      refine ⟨orphaned.present, ?_, ?_⟩
      · intro holder
        exact finds.unstarted transition inCycle holder own
          (by simp [reaping, reads])
      · intro status found inFlight
        apply covers
        exact finds.running transition inCycle own
          (by simp [reaping, reads]) status found inFlight
  · obtain ⟨phase', after⟩ :=
      Option.isSome_iff_exists.mp (goesOn.resolve_right own)
    rw [after]
    rcases step_reaping taken after with
      same | ⟨absent, _⟩ | ⟨_, _, _, action, _⟩
    · cases reaping.symm.trans same
      cases recovering with
      | findStale => exact .findStale
      | unread member => exact .unread member
      | listed stranded => exact .listed (stays stranded)
    · simp [State.reaping?, absent] at reaping
    · rw [action] at own
      exact (own rfl).elim

private theorem silent_after {trace : List (Transition State Action)}
    {worker : WorkerId} {heartbeat : Time} (gone : Gone worker heartbeat start)
    (run : Run (step env) start trace last) :
    ∀ transition ∈ trace,
      ∀ claim ∈ transition.action.claims transition.before,
        claim.1 ≠ worker := by
  intro transition member claim claims
  have always : ∀ transition ∈ trace, True := fun _ _ => trivial
  have goneBefore := (run.invariant_before (Gone worker heartbeat) always gone
    (fun _ _ taken gone => gone.step taken) member).1
  exact goneBefore.claims_ne claims

namespace ExitThenReap

private theorem gone (scenario : ExitThenReap env)
    (exits : step env scenario.exit.before scenario.exit.action =
      some scenario.exit.after) :
    ∃ heartbeat, Gone scenario.worker heartbeat scenario.exit.after := by
  obtain ⟨status, isStatus⟩ :=
    Option.isSome_iff_exists.mp scenario.registered
  obtain ⟨row, found, _⟩ := Option.map_eq_some_iff.mp isStatus
  exact ⟨_, Gone.of_exit (scenario.exits ▸ exits) found⟩

theorem claimed_before (scenario : ExitThenReap env)
    (run : Run (step env) start scenario.trace last)
    {job : JobId} (member : job ∈ scenario.jobs) :
    job ∈ lastClaimed scenario.worker scenario.past ∧
      ∀ transition ∈ scenario.between ++ scenario.begin :: scenario.steps,
        Unclaimed job transition := by
  obtain ⟨_, exits, afterExit⟩ := run.around
  obtain ⟨heartbeat, gone⟩ := scenario.gone exits
  have silent : ∀ transition ∈ scenario.exit :: (scenario.between ++
      scenario.begin :: scenario.steps),
      ∀ claim ∈ transition.action.claims transition.before,
      claim.1 ≠ scenario.worker := by
    intro transition inRest claim claims
    rcases List.mem_cons.mp inRest with rfl | inRest
    · rw [scenario.exits] at claims
      cases claims
    · exact silent_after gone afterExit transition inRest claim claims
  obtain ⟨old, unclaimed⟩ := of_mem_lastClaimed_append silent member
  exact ⟨old, fun transition inRest =>
    unclaimed transition (List.mem_cons_of_mem _ inRest)⟩

/-- After the cycle the job is not in flight, if the cycle's reads find the
worker and the job. -/
theorem recovers (scenario : ExitThenReap env)
    (run : Run (step env) start scenario.trace last) (initial : Initial start)
    {job : JobId} (member : job ∈ scenario.jobs)
    (finds : scenario.Finds job) :
    ∀ status ∈ last.status? job, status.inFlight = false := by
  obtain ⟨old, unclaimed⟩ := scenario.claimed_before run member
  obtain ⟨toExit, exits, afterExit⟩ := run.around
  obtain ⟨toBegin, begun, afterBegin⟩ := afterExit.around
  obtain ⟨toFinish, finished, done⟩ := afterBegin.around
  cases done.eq_of_nil
  obtain ⟨heartbeat, gone⟩ := scenario.gone exits
  have present : ∃ status, scenario.exit.after.status? job = some status := by
    obtain ⟨status, before⟩ := status_of_lastClaimed toExit initial old
    exact step_status exits before
  have always : ∀ {trace : List (Transition State Action)},
      ∀ transition ∈ trace, True := fun _ _ => trivial
  have orphaned := toBegin.invariant
    (Orphaned scenario.worker heartbeat job) always ⟨gone, present⟩
    (fun _ _ taken orphaned => orphaned.step taken)
  -- The cycle begins with a threshold above the last heartbeat.
  obtain ⟨row', found', beat⟩ := orphaned.gone.row
  have late := scenario.stale row' found'
  rw [beat] at late
  have reaping := startReap_reaping (scenario.begins ▸ begun)
  have unclaimedInCycle : ∀ transition ∈ scenario.steps,
      Unclaimed job transition := by
    intro transition inCycle
    apply unclaimed
    apply List.mem_append_right
    exact List.mem_cons_of_mem _ inCycle
  obtain ⟨orphanedAtFinish, phase, reapingAtFinish, recovering⟩ :=
    toFinish.invariant
      (fun state => Orphaned scenario.worker heartbeat job state ∧
        ∃ phase, state.reaping? scenario.call = some phase ∧
          Recovering scenario.worker job scenario.threshold state (some phase))
      (fun _ inCycle => inCycle) ⟨orphaned.step begun, _, reaping, .findStale⟩
      (by
        rintro transition inCycle taken ⟨orphaned, phase, reaping, recovering⟩
        have inSteps : transition ∈ scenario.steps :=
          List.mem_append_left _ inCycle
        have goesOn := scenario.goesOn transition inCycle
        obtain ⟨phase', after⟩ := Option.isSome_iff_exists.mp goesOn
        have next := recovering_step finds late inSteps taken
          (unclaimedInCycle transition inSteps) orphaned reaping recovering
          (.inl goesOn)
        rw [after] at next
        exact ⟨orphaned.step taken, phase', after, next⟩)
  have isStep : scenario.finish ∈ scenario.steps := by simp [steps]
  have final := recovering_step finds late isStep finished
    (unclaimedInCycle scenario.finish isStep) orphanedAtFinish
    reapingAtFinish recovering (.inr scenario.acts)
  have ended : scenario.finish.after.reaping? scenario.call = none := by
    simp [State.reaping?, scenario.ends]
  rw [ended] at final
  cases final with
  | ended stranded =>
      intro status found
      cases inFlight : status.inFlight with
      | false => rfl
      | true => cases stranded.inFlight status found inFlight

end ExitThenReap

/-- After the cycle no job that the dead worker claimed last is in flight, if
the worker and its jobs can be found when the cycle reads them. -/
theorem crash_recovered (scenario : CrashThenReap env)
    (run : Run (step env) start scenario.trace last) (initial : Initial start)
    (traceable : scenario.Traceable) : scenario.Recovered last := by
  intro job member
  apply scenario.toExit.recovers run initial member
  constructor
  · exact traceable.worker
  · intro transition inCycle
    exact traceable.running transition inCycle job member
  · intro transition inCycle
    exact traceable.unstarted transition inCycle job member

/-- The scenario occurs in this history, with the crash and the begin of the
cycle at these positions. -/
def CrashThenReap.OccursAt (env : Env) (worker reaper : WorkerId)
    (call : CallId) (trace : List (Transition State Action))
    (crashAt gap : Nat) : Prop :=
  (∃ crash ∈ (trace.drop crashAt).head?,
    crash.action.exiting = some worker ∧
    crash.before.workerStatus? worker = some .active) ∧
  (∃ begin ∈ ((trace.drop (crashAt + 1)).drop gap).head?,
    begin.action.startsReap = some (call, reaper) ∧
    ∀ row ∈ begin.before.world.workers.get? worker,
      row.lastHeartbeatAt <
        begin.before.world.now - env.heartbeatTtlSeconds * 1000) ∧
  (∀ transition ∈ ((trace.drop (crashAt + 1)).drop (gap + 1)).dropLast,
    (transition.after.reaping? call).isSome = true) ∧
  (∃ finish ∈ ((trace.drop (crashAt + 1)).drop (gap + 1)).getLast?,
    finish.action.actor = some call ∧
    (finish.after.calls call).isNone = true) ∧
  ∀ transition ∈ trace, transition.action.actor = some call →
    transition.action.fails transition.before = false

instance (env : Env) (worker reaper : WorkerId) (call : CallId)
    (trace : List (Transition State Action)) (crashAt gap : Nat) :
    Decidable (CrashThenReap.OccursAt env worker reaper call trace crashAt
      gap) := by
  unfold CrashThenReap.OccursAt
  infer_instance

/-- In this history, a complete cycle that begins after so many steps finds
the heartbeat of the worker stale. -/
def ExitThenReap.ReapFollows (env : Env) (worker reaper : WorkerId)
    (call : CallId) (rest : List (Transition State Action)) (gap : Nat) :
    Prop :=
  (∃ begin ∈ (rest.drop gap).head?,
    begin.action.startsReap = some (call, reaper) ∧
    ∀ row ∈ begin.before.world.workers.get? worker,
      row.lastHeartbeatAt <
        begin.before.world.now - env.heartbeatTtlSeconds * 1000) ∧
  (∀ transition ∈ (rest.drop (gap + 1)).dropLast,
    (transition.after.reaping? call).isSome = true) ∧
  (∃ finish ∈ (rest.drop (gap + 1)).getLast?,
    finish.action.actor = some call ∧
    (finish.after.calls call).isNone = true) ∧
  ∀ transition ∈ rest, transition.action.actor = some call →
    transition.action.fails transition.before = false

instance (env : Env) (worker reaper : WorkerId) (call : CallId)
    (rest : List (Transition State Action)) (gap : Nat) :
    Decidable (ExitThenReap.ReapFollows env worker reaper call rest gap) := by
  unfold ExitThenReap.ReapFollows
  infer_instance

theorem ExitThenReap.exists_of_follows {worker reaper : WorkerId}
    {call : CallId} {trace : List (Transition State Action)}
    {exitAt gap : Nat} {exit : Transition State Action}
    (isExit : exit ∈ (trace.drop exitAt).head?)
    (exits : exit.action.exiting = some worker)
    (registered : (exit.before.workerStatus? worker).isSome = true)
    (follows : ReapFollows env worker reaper call (trace.drop (exitAt + 1))
      gap) :
    ∃ scenario : ExitThenReap env, scenario.trace = trace ∧
      scenario.worker = worker ∧ scenario.call = call ∧
      scenario.exit = exit := by
  obtain ⟨⟨begin, isBegin, begins, stale⟩, goesOn,
    ⟨finish, isFinish, acts, ends⟩, succeeds⟩ := follows
  have steps := List.dropLast_append_getLast? finish isFinish
  refine ⟨
    { worker := worker
      reaper := reaper
      call := call
      past := trace.take exitAt
      exit := exit
      between := (trace.drop (exitAt + 1)).take gap
      begin := begin
      cycle := ((trace.drop (exitAt + 1)).drop (gap + 1)).dropLast
      finish := finish
      exits := Action.exiting_eq_some exits
      registered := registered
      begins := Action.startsReap_eq_some begins
      stale := stale
      goesOn := goesOn
      acts := acts
      ends := Option.isNone_iff_eq_none.mp ends
      succeeds := ?_ }, ?_, rfl, rfl, rfl⟩
  · rw [steps]
    intro transition inCycle
    exact succeeds transition (List.mem_of_mem_drop inCycle)
  · simp only [ExitThenReap.trace, ExitThenReap.steps, steps]
    rw [← List.eq_take_append_cons isBegin, ← List.eq_take_append_cons isExit]

theorem CrashThenReap.exists_of_occursAt {worker reaper : WorkerId}
    {call : CallId} {trace : List (Transition State Action)}
    {crashAt gap : Nat}
    (occurs : OccursAt env worker reaper call trace crashAt gap) :
    ∃ scenario : CrashThenReap env, scenario.trace = trace ∧
      scenario.worker = worker ∧ scenario.call = call := by
  obtain ⟨⟨crash, isCrash, exits, active⟩, isBegin, goesOn, isFinish,
    succeeds⟩ := occurs
  obtain ⟨scenario, rfl, rfl, rfl, rfl⟩ := ExitThenReap.exists_of_follows
    isCrash exits (by rw [active]; rfl)
    ⟨isBegin, goesOn, isFinish, fun transition inRest =>
      succeeds transition (List.mem_of_mem_drop inRest)⟩
  exact ⟨{ scenario with crash := scenario.exit, active := active }, rfl, rfl,
    rfl⟩

instance (call : CallId) (worker : WorkerId)
    (transition : Transition State Action) :
    Decidable (FindsWorker call worker transition) :=
  inferInstanceAs (Decidable (_ = _ → _ = _ → _ = _))

instance (call : CallId) (worker : WorkerId) (job : JobId)
    (transition : Transition State Action) :
    Decidable (FindsJob call worker job transition) :=
  inferInstanceAs (Decidable (_ = _ → _ = _ → ∀ status ∈ _, _ → _))

instance (call : CallId) (worker : WorkerId) (job : JobId)
    (transition : Transition State Action) (holder : CallId) :
    Decidable (FindsUnstarted call worker job transition holder) :=
  inferInstanceAs (Decidable (_ = _ → _ = _ → ¬_))

/-- Worker 1 dies in the handler of job 7, and a cycle of worker 2 puts the
job back. -/
theorem crash_recovered_running :
    ∃ (scenario : CrashThenReap .sample) (last : State),
      Run (step .sample)
        (World.sample 1 ⟨[(7, .sample .queued)], by simp⟩).idle
        scenario.trace last ∧
      scenario.jobs = [7] ∧ last.status? 7 = some .queued ∧
      scenario.Recovered last := by
  obtain ⟨trace, last, run, occurs, jobs, findsWorker, findsJob, checked,
      queued⟩ :=
    exists_run_of_check (step .sample)
      (World.sample 1 ⟨[(7, .sample .queued)], by simp⟩).idle
      (claimActions 1 1 [7] ++ executeActions 1 2 0 ++
        crashActions 1 20000 3 2 ++ reapActions 3 1 0 7)
      (fun trace last =>
        CrashThenReap.OccursAt .sample 1 2 3 trace 13 2 ∧
        lastClaimed 1 trace = [7] ∧
        (∀ transition ∈ trace, FindsWorker 3 1 transition) ∧
        (∀ transition ∈ trace, FindsJob 3 1 7 transition) ∧
        ChecksCalls 4 (FindsUnstarted 3 1 7) trace ∧
        last.status? 7 = some .queued)
      (by decide)
  have initial : Initial
      (World.sample 1 ⟨[(7, .sample .queued)], by simp⟩).idle :=
    World.idle_initial fun _ => rfl
  have findsUnstarted := checked.forall_calls run initial (by
    intro transition call absent
    simp [FindsUnstarted, State.holdsIn, absent])
  obtain ⟨scenario, rfl, worker, call⟩ :=
    CrashThenReap.exists_of_occursAt occurs
  have scenarioJobs : scenario.jobs = [7] := by
    rw [CrashThenReap.jobs, worker, jobs]
  have inTrace : ∀ transition ∈ scenario.cycle ++ [scenario.finish],
      transition ∈ scenario.trace := by
    intro transition inCycle
    apply List.mem_append_right
    apply List.mem_cons_of_mem
    apply List.mem_append_right
    exact List.mem_cons_of_mem _ inCycle
  refine ⟨scenario, last, run, scenarioJobs, queued,
    crash_recovered scenario run initial ⟨?_, ?_, ?_⟩⟩
  · intro transition inCycle
    rw [call, worker]
    exact findsWorker transition (inTrace transition inCycle)
  · intro transition inCycle job member
    rw [scenarioJobs, List.mem_singleton] at member
    rw [call, worker, member]
    exact findsJob transition (inTrace transition inCycle)
  · intro transition inCycle job member holder
    rw [scenarioJobs, List.mem_singleton] at member
    rw [call, worker, member]
    exact findsUnstarted transition (inTrace transition inCycle) holder

/-- Without the condition it fails: the worker dies between its claim and the
first step of the execution, and the cycle does not see the job. -/
theorem claimed_job_lost :
    ¬∀ (env : Env) (start last : State) (scenario : CrashThenReap env),
      Run (step env) start scenario.trace last → Initial start →
      scenario.Recovered last := by
  intro recovered
  obtain ⟨trace, last, run, occurs, jobs, claimed⟩ :=
    exists_run_of_check (step .sample)
      (World.sample 1 ⟨[(7, .sample .queued)], by simp⟩).idle
      (claimActions 1 1 [7] ++
        crashActions 1 20000 3 2 ++
        ([.reap 3 (.rows [1]), .reap 3 .ok, .reap 3 (.rows [])] :
          List Action))
      (fun trace last =>
        CrashThenReap.OccursAt .sample 1 2 3 trace 8 2 ∧
        lastClaimed 1 trace = [7] ∧ last.status? 7 = some .claimed)
      (by decide)
  obtain ⟨scenario, rfl, worker, _⟩ := CrashThenReap.exists_of_occursAt occurs
  have member : 7 ∈ scenario.jobs := by
    simp [CrashThenReap.jobs, worker, jobs]
  have notInFlight := recovered _ _ last scenario run
    (World.idle_initial fun _ => rfl) 7 member _ claimed
  cases notInFlight

end Recovery

end Chronos
