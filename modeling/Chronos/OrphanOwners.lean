import Chronos.PartialReap

/-!
# Whose work a reap cycle touches

A cycle reads the running executions of a stale worker, and then requeues
their jobs and closes the executions of these jobs by the id of the job alone.
So what it touches is the work of the stale worker as long as nobody else
comes in between.
-/

namespace Chronos

namespace World

/-- No other worker has a running execution of this job. -/
def onlyRunBy (world : World) (worker : WorkerId) (job : JobId) : Bool :=
  world.executions.rows.all fun row =>
    row.2.jobId ≠ job || row.2.status ≠ .running || row.2.workerId = worker

/-- The job is `claimed` or `running`. -/
def jobInFlight (world : World) (job : JobId) : Bool :=
  (world.jobs.get? job).any fun row => row.status.inFlight

theorem onlyRunBy_iff {world : World} {worker : WorkerId} {job : JobId} :
    world.onlyRunBy worker job = true ↔
      ∀ {id : ExecutionId} {row : JobExecution},
        world.executions.get? id = some row → row.jobId = job →
        row.status = .running → row.workerId = worker := by
  simp only [onlyRunBy, List.all_eq_true, Bool.or_eq_true, decide_eq_true_eq]
  constructor
  · intro all id row found same running
    rcases all (id, row) (Table.mem_rows_iff.mpr found) with
      (different | ended) | owned
    · exact (different same).elim
    · exact (ended running).elim
    · exact owned
  · rintro owned ⟨id, row⟩ member
    by_cases same : row.jobId = job
    · by_cases running : row.status = .running
      · exact .inr (owned (Table.mem_rows_iff.mp member) same running)
      · exact .inl (.inr running)
    · exact .inl (.inl same)

theorem hasRunningExecution_iff {world : World} {worker : WorkerId}
    {job : JobId} :
    world.hasRunningExecution worker job = true ↔
      ∃ id row, world.executions.get? id = some row ∧ row.jobId = job ∧
        row.workerId = worker ∧ row.status = .running := by
  simp only [hasRunningExecution, List.any_eq_true, Bool.and_eq_true,
    decide_eq_true_eq]
  constructor
  · rintro ⟨⟨id, row⟩, member, ⟨same, owned⟩, running⟩
    exact ⟨id, row, Table.mem_rows_iff.mp member, same, owned, running⟩
  · rintro ⟨id, row, found, same, owned, running⟩
    exact ⟨(id, row), Table.mem_rows_iff.mpr found, ⟨same, owned⟩, running⟩

end World

namespace ReapPhase

/-- The worker whose running executions the cycle is about to read. -/
def readsExecutionsOf : ReapPhase → Option WorkerId
  | .findExecutions worker _ => some worker
  | _ => none

/-- The worker whose jobs in flight the cycle is about to read. -/
def readsJobsOf : ReapPhase → Option WorkerId
  | .findJobs worker _ _ => some worker
  | _ => none

end ReapPhase

namespace State

/-- The stale worker whose jobs this cycle is reading or requeueing. -/
def reapsFor (state : State) (call : CallId) : Option WorkerId :=
  (state.reaping? call).bind ReapPhase.processing

/-- The job is in flight because of an execution of this worker, and of no
other. -/
structure Orphan (state : State) (worker : WorkerId) (job : JobId) : Prop where
  inFlight : state.world.jobInFlight job = true
  running : state.world.hasRunningExecution worker job = true
  only : state.world.onlyRunBy worker job = true

instance (state : State) (worker : WorkerId) (job : JobId) :
    Decidable (state.Orphan worker job) :=
  decidable_of_iff
    (state.world.jobInFlight job = true ∧
      state.world.hasRunningExecution worker job = true ∧
      state.world.onlyRunBy worker job = true)
    ⟨fun all => ⟨all.1, all.2.1, all.2.2⟩,
      fun orphan => ⟨orphan.inFlight, orphan.running, orphan.only⟩⟩

end State

/-- The jobs that change in this step of a cycle were in flight because of an
execution of the worker at hand, and are `queued` after it; the executions
that change are of this worker. -/
structure TouchesOwn (transition : Transition State Action) (call : CallId) :
    Prop where
  jobs : ∀ {job : JobId},
    transition.after.world.jobs.get? job ≠
      transition.before.world.jobs.get? job →
    ∃ worker, transition.before.reapsFor call = some worker ∧
      transition.before.world.jobInFlight job = true ∧
      transition.before.world.hasRunningExecution worker job = true ∧
      transition.after.status? job = some .queued
  executions : ∀ {id : ExecutionId} {row : JobExecution},
    transition.before.world.executions.get? id = some row →
    transition.after.world.executions.get? id ≠ some row →
    transition.before.reapsFor call = some row.workerId

/-- What a cycle finds is in flight because of the worker at hand alone, and
nobody else takes a job that it is still to requeue out of `claimed` or
`running`, ends the execution of the worker, or begins one for another worker
before the cycle has closed the executions of the job. -/
structure LeavesOrphans (transition : Transition State Action) (call : CallId) :
    Prop where
  executions : ∀ phase ∈ transition.before.reaping? call,
    ∀ worker ∈ phase.readsExecutionsOf,
    ∀ id ∈ transition.before.world.runningExecutions worker,
    ∀ job ∈ transition.before.world.executionJob id,
      transition.before.Orphan worker job
  jobs : ∀ phase ∈ transition.before.reaping? call,
    ∀ worker ∈ phase.readsJobsOf,
    ∀ job ∈ transition.before.world.inFlightJobsOf worker,
      transition.before.Orphan worker job
  pending : transition.action.actor ≠ some call →
    ∀ phase ∈ transition.before.reaping? call,
    ∀ worker ∈ phase.processing, ∀ job ∈ phase.pending,
      transition.before.Orphan worker job → transition.after.Orphan worker job
  closing : transition.action.actor ≠ some call →
    ∀ phase ∈ transition.before.reaping? call,
    ∀ worker ∈ phase.processing, ∀ job ∈ phase.closing,
      transition.before.world.onlyRunBy worker job = true →
      transition.after.world.onlyRunBy worker job = true

instance (transition : Transition State Action) (call : CallId) :
    Decidable (LeavesOrphans transition call) :=
  decidable_of_iff
    ((∀ phase ∈ transition.before.reaping? call,
      (∀ worker ∈ phase.readsExecutionsOf,
        ∀ id ∈ transition.before.world.runningExecutions worker,
        ∀ job ∈ transition.before.world.executionJob id,
          transition.before.Orphan worker job) ∧
      ∀ worker ∈ phase.readsJobsOf,
        ∀ job ∈ transition.before.world.inFlightJobsOf worker,
          transition.before.Orphan worker job) ∧
      (transition.action.actor ≠ some call →
        ∀ phase ∈ transition.before.reaping? call,
        ∀ worker ∈ phase.processing,
          (∀ job ∈ phase.pending, transition.before.Orphan worker job →
            transition.after.Orphan worker job) ∧
          ∀ job ∈ phase.closing,
            transition.before.world.onlyRunBy worker job = true →
            transition.after.world.onlyRunBy worker job = true))
    ⟨fun ⟨reads, others⟩ =>
      { executions := fun phase reaping => (reads phase reaping).1
        jobs := fun phase reaping => (reads phase reaping).2
        pending := fun other phase reaping worker processing =>
          (others other phase reaping worker processing).1
        closing := fun other phase reaping worker processing =>
          (others other phase reaping worker processing).2 },
      fun leaves =>
        ⟨fun phase reaping =>
          ⟨leaves.executions phase reaping, leaves.jobs phase reaping⟩,
        fun other phase reaping worker processing =>
          ⟨leaves.pending other phase reaping worker processing,
            leaves.closing other phase reaping worker processing⟩⟩⟩

/-- What a cycle in this phase has in hand is in flight because of the worker
at hand. -/
structure HoldsOrphans (state : State) (phase : ReapPhase) : Prop where
  pending : ∀ {worker : WorkerId} {job : JobId},
    phase.processing = some worker → job ∈ phase.pending →
    state.Orphan worker job
  closing : ∀ {worker : WorkerId} {job : JobId},
    phase.processing = some worker → phase.closing = some job →
    state.world.onlyRunBy worker job = true ∧ job ∉ phase.pending

namespace World

theorem closeExecutions_get? {world : World} {closer : WorkerId}
    {closed : JobId} {id : ExecutionId} {row : JobExecution}
    (different : row.jobId ≠ closed) :
    (world.closeExecutions closer closed).executions.get? id = some row ↔
      world.executions.get? id = some row := by
  rw [closeExecutions, Table.get?_mapRows, Option.map_eq_some_iff]
  constructor
  · rintro ⟨before, found, rfl⟩
    rw [JobExecution.closeOrphan_jobId] at different
    rw [JobExecution.closeOrphan, if_neg fun both => different both.1]
    exact found
  · intro found
    exact ⟨row, found, if_neg fun both => different both.1⟩

end World

section Steps

variable {env : Env} {start last state next : State} {action : Action}
  {call : CallId} {trace : List (Transition State Action)}

theorem State.Orphan.of_same {worker : WorkerId} {job : JobId}
    (orphan : state.Orphan worker job)
    (jobs : next.world.jobs.get? job = state.world.jobs.get? job)
    (executions : next.world.executions = state.world.executions) :
    next.Orphan worker job := by
  obtain ⟨inFlight, running, only⟩ := orphan
  constructor
  · rw [World.jobInFlight, jobs]
    exact inFlight
  · rw [World.hasRunningExecution, executions]
    exact running
  · rw [World.onlyRunBy, executions]
    exact only

theorem State.Orphan.of_closed {worker closer : WorkerId} {job closed : JobId}
    (orphan : state.Orphan worker job) (different : job ≠ closed)
    (world : next.world = state.world.closeExecutions closer closed) :
    next.Orphan worker job := by
  obtain ⟨inFlight, running, only⟩ := orphan
  constructor
  · rw [world]
    exact inFlight
  · obtain ⟨id, row, found, rfl, owned⟩ :=
      World.hasRunningExecution_iff.mp running
    rw [world, World.hasRunningExecution_iff]
    exact ⟨id, row, (World.closeExecutions_get? different).mpr found, rfl, owned⟩
  · rw [world, World.onlyRunBy_iff]
    rintro id row found rfl isRunning
    exact World.onlyRunBy_iff.mp only
      ((World.closeExecutions_get? different).mp found) rfl isRunning

theorem holdsOrphans_nextWorker {workers : List WorkerId} :
    ∀ phase ∈ ReapPhase.nextWorker workers, HoldsOrphans state phase := by
  intro phase isNext
  cases workers with
  | nil => cases isNext
  | cons =>
      cases isNext
      exact ⟨nofun, nofun⟩

theorem holdsOrphans_nextJob {worker : WorkerId} {workers : List WorkerId}
    {jobIds : List JobId}
    (orphans : ∀ job ∈ jobIds, state.Orphan worker job) :
    ∀ phase ∈ ReapPhase.nextJob worker workers jobIds,
      HoldsOrphans state phase := by
  intro phase isNext
  cases jobIds with
  | nil => exact holdsOrphans_nextWorker phase isNext
  | cons job jobIds =>
      cases isNext
      refine ⟨?_, nofun⟩
      intro _ other same member
      cases same
      exact orphans other member

theorem ReapStep.holdsOrphans {phase : ReapPhase} {input : ReapInput}
    {phase' : Option ReapPhase}
    (case : ReapStep state.world phase input next.world phase')
    (holds : HoldsOrphans state phase) (nodup : phase.pending.Nodup)
    (reads : ∀ worker ∈ phase.readsExecutionsOf,
      ∀ id ∈ state.world.runningExecutions worker,
      ∀ job ∈ state.world.executionJob id, state.Orphan worker job)
    (readsJobs : ∀ worker ∈ phase.readsJobsOf,
      ∀ job ∈ state.world.inFlightJobsOf worker, state.Orphan worker job) :
    ∀ after ∈ phase', HoldsOrphans next after := by
  generalize isNext : next.world = world at case
  cases case with
  | staleFound => exact holdsOrphans_nextWorker
  | noOrphans => exact holdsOrphans_nextWorker
  | markedDead =>
      rintro _ ⟨⟩
      exact ⟨nofun, nofun⟩
  | @orphansFound worker workers order read =>
      rintro _ ⟨⟩
      refine ⟨?_, nofun⟩
      intro _ job same member
      cases same
      obtain ⟨id, inOrder, isJob⟩ :=
        List.mem_filterMap.mp (mem_newSet.mp member)
      have orphan := reads worker rfl id (read.mem_iff.mp inOrder) job isJob
      exact orphan.of_same (by rw [isNext]) (by rw [isNext])
  | @jobsFound worker workers orphanedJobIds order read =>
      apply holdsOrphans_nextJob
      intro job member
      have orphan : state.Orphan worker job := by
        rcases List.mem_append.mp (mem_newSet.mp member) with found | inOrder
        · exact holds.pending rfl found
        · exact readsJobs worker rfl job (read.mem_iff.mp inOrder)
      exact orphan.of_same (by rw [isNext]) (by rw [isNext])
  | @requeued worker workers job jobIds row found =>
      have distinct := List.nodup_cons.mp nodup
      rintro _ ⟨⟩
      constructor
      · intro _ other same member
        cases same
        have different : other ≠ job := by
          rintro rfl
          exact distinct.1 member
        apply (holds.pending rfl (List.mem_cons_of_mem _ member)).of_same
        · rw [isNext]
          exact Table.get?_modify_of_ne _ _ different
        · rw [isNext]
          rfl
      · intro _ other same closes
        cases same
        cases closes
        rw [isNext]
        exact ⟨(holds.pending rfl List.mem_cons_self).only, distinct.1⟩
  | @closed worker workers job jobIds =>
      rintro _ ⟨⟩
      refine ⟨?_, nofun⟩
      intro _ other same member
      cases same
      have different : other ≠ job := by
        rintro rfl
        exact (holds.closing rfl rfl).2 member
      exact (holds.pending rfl member).of_closed different isNext
  | published same =>
      apply holdsOrphans_nextJob
      intro job member
      apply (holds.pending rfl member).of_same
      · rw [isNext, same.jobs]
      · rw [isNext, same.executions]
  | @skipped _ worker workers jobIds current =>
      apply holdsOrphans_nextJob
      intro job member
      have orphan : state.Orphan worker job := by
        cases phase with
        | requeue =>
            cases current
            exact holds.pending rfl (List.mem_cons_of_mem _ member)
        | closeExecutions => cases current; exact holds.pending rfl member
        | publish => cases current; exact holds.pending rfl member
        | findStale => cases current
        | markDead => cases current
        | findExecutions => cases current
        | findJobs => cases current
      exact orphan.of_same (by rw [isNext]) (by rw [isNext])
  | ended => exact nofun

theorem ReapStep.touchesOwn {phase : ReapPhase} {input : ReapInput}
    {phase' : Option ReapPhase}
    (case : ReapStep state.world phase input next.world phase')
    (reaping : state.reaping? call = some phase)
    (holds : HoldsOrphans state phase) :
    TouchesOwn ⟨state, action, next⟩ call := by
  have reapsFor : state.reapsFor call = phase.processing := by
    rw [State.reapsFor, reaping]
    rfl
  have silent : next.world.jobs = state.world.jobs →
      next.world.executions = state.world.executions →
      TouchesOwn ⟨state, action, next⟩ call := by
    intro jobs executions
    constructor
    · intro job changed
      exact (changed (by rw [jobs])).elim
    · intro id row found changed
      exact (changed (by rw [executions]; exact found)).elim
  generalize isNext : next.world = world at case
  cases case with
  | @requeued worker workers job jobIds row found =>
      constructor
      · intro other changed
        have same : other = job := by
          by_contra different
          apply changed
          rw [isNext]
          exact Table.get?_modify_of_ne _ _ different
        subst same
        have orphan := holds.pending rfl List.mem_cons_self
        refine ⟨worker, reapsFor, orphan.inFlight, orphan.running, ?_⟩
        rw [State.status?, isNext, World.updateJob, Table.get?_modify_self,
          found]
        rfl
      · intro id row found changed
        exact (changed (by rw [isNext]; exact found)).elim
  | @closed worker workers job jobIds queueId =>
      constructor
      · intro other changed
        exact (changed (by rw [isNext]; rfl)).elim
      · intro id row found changed
        rw [reapsFor]
        apply congrArg some
        by_contra other
        apply changed
        have open' : ¬(row.jobId = job ∧ row.status = .running) := by
          rintro ⟨same, running⟩
          have only := (holds.closing rfl rfl).1
          exact other (World.onlyRunBy_iff.mp only found same running).symm
        rw [isNext, World.closeExecutions, Table.get?_mapRows, found,
          Option.map_some, JobExecution.closeOrphan, if_neg open']
  | markedDead => exact silent (by rw [isNext]; rfl) (by rw [isNext]; rfl)
  | published same =>
      exact silent (by rw [isNext, same.jobs]) (by rw [isNext, same.executions])
  | staleFound => exact silent (by rw [isNext]) (by rw [isNext])
  | noOrphans => exact silent (by rw [isNext]) (by rw [isNext])
  | orphansFound => exact silent (by rw [isNext]) (by rw [isNext])
  | jobsFound => exact silent (by rw [isNext]) (by rw [isNext])
  | skipped => exact silent (by rw [isNext]) (by rw [isNext])
  | ended => exact silent (by rw [isNext]) (by rw [isNext])

/-- What a cycle has in hand, in every state of a run. -/
theorem holdsOrphans_findStale (state : State) (threshold : Time) :
    HoldsOrphans state (.findStale threshold) := by
  constructor
  · intro worker job processing
    cases processing
  · intro worker job processing
    cases processing

theorem holdsOrphans_of_run (run : Run (step env) start trace last)
    (initial : Initial start)
    (leaves : ∀ transition ∈ trace, LeavesOrphans transition call) :
    ∀ phase ∈ last.reaping? call,
      HoldsOrphans last phase ∧ phase.pending.Nodup := by
  refine run.invariant
    (fun state => ∀ phase ∈ state.reaping? call,
      HoldsOrphans state phase ∧ phase.pending.Nodup) leaves ?_ ?_
  · intro phase reaping
    simp [State.reaping?, initial.calls] at reaping
  · rintro ⟨state, action, next⟩ leaves taken holds phase' reaping'
    dsimp only at taken holds reaping'
    by_cases own : action.actor = some call
    · cases reaping : state.reaping? call with
      | none =>
          rcases step_reaping taken reaping' with
            kept | ⟨_, _, rfl⟩ | ⟨_, _, _, _, was, _⟩
          · cases reaping.symm.trans kept
          · exact ⟨holdsOrphans_findStale next _, List.nodup_nil⟩
          · cases reaping.symm.trans was
      | some phase =>
          obtain ⟨input, world, after, _, case, same, result⟩ :=
            step_reap taken reaping own
          subst same
          obtain ⟨hold, nodup⟩ := holds phase reaping
          cases result.symm.trans reaping'
          exact ⟨case.holdsOrphans hold nodup (leaves.executions phase reaping)
            (leaves.jobs phase reaping) phase' rfl, case.nodup nodup⟩
    · rcases step_reaping taken reaping' with
        kept | ⟨_, _, rfl⟩ | ⟨_, _, _, rfl, _⟩
      · obtain ⟨hold, nodup⟩ := holds phase' kept
        refine ⟨⟨?_, ?_⟩, nodup⟩
        · intro worker job processing member
          exact leaves.pending own phase' kept worker processing job member
            (hold.pending processing member)
        · intro worker job processing closes
          obtain ⟨only, apart⟩ := hold.closing processing closes
          exact ⟨leaves.closing own phase' kept worker processing job closes
            only, apart⟩
      · exact ⟨holdsOrphans_findStale next _, List.nodup_nil⟩
      · exact (own rfl).elim

/-- A cycle touches the work of its stale workers only, if what it finds is
theirs alone and nobody else interferes before it is done with it. -/
theorem reap_touches_own (run : Run (step env) start trace last)
    (initial : Initial start)
    (leaves : ∀ transition ∈ trace, LeavesOrphans transition call) :
    ∀ transition ∈ trace, transition.action.actor = some call →
      (transition.before.reaping? call).isSome = true →
      TouchesOwn transition call := by
  intro transition member own isReap
  obtain ⟨earlier, later, rfl⟩ := List.append_of_mem member
  obtain ⟨before, taken, _⟩ := run.around
  obtain ⟨phase, reaping⟩ := Option.isSome_iff_exists.mp isReap
  have holds := holdsOrphans_of_run before initial
    (fun other isOther => leaves other (by simp [isOther])) phase reaping
  obtain ⟨before, action, after⟩ := transition
  obtain ⟨input, world, phase', _, case, same, _⟩ := step_reap taken reaping own
  dsimp only at case same
  subst same
  exact case.touchesOwn reaping holds.1

/-- While the cycle puts job 7 of worker 1 back, worker 2 begins job 8. -/
theorem reap_touches_own_running :
    ∃ trace last,
      Run (step .sample)
        (World.sample 2 ⟨[(7, .sample .queued),
          (8, { Job.sample .queued with runAt := 10000 })], by decide⟩).idle
        trace last ∧
      last.status? 7 = some .queued ∧ last.status? 8 = some .running ∧
      ∀ transition ∈ trace, transition.action.actor = some 3 →
        (transition.before.reaping? 3).isSome = true →
        TouchesOwn transition 3 := by
  obtain ⟨trace, last, run, leaves, queued, running⟩ :=
    exists_run_of_check (step .sample)
      (World.sample 2 ⟨[(7, .sample .queued),
        (8, { Job.sample .queued with runAt := 10000 })], by decide⟩).idle
      (claimActions 1 1 [7] ++ executeActions 1 2 0 ++
        crashActions 1 20000 3 2 ++
        ([.reap 3 (.rows [1]), .reap 3 .ok, .reap 3 (.rows [0]),
          .reap 3 (.rows [7])] : List Action) ++
        claimActions 4 2 [8] ++ executeActions 4 5 1 ++
        ([.reap 3 .ok, .reap 3 .ok, .reap 3 .ok] : List Action))
      (fun trace last =>
        (∀ transition ∈ trace, LeavesOrphans transition 3) ∧
        last.status? 7 = some .queued ∧ last.status? 8 = some .running)
      (by decide)
  exact ⟨trace, last, run, queued, running,
    reap_touches_own run (World.idle_initial fun _ => rfl) leaves⟩

/-- Between the two writes of the cycle worker 2 claims and starts the job, and
the cycle closes its execution. -/
theorem live_execution_closed :
    ¬∀ (env : Env) (start last : State) (call : CallId)
      (trace : List (Transition State Action)),
      Run (step env) start trace last → Initial start →
      ∀ transition ∈ trace, transition.action.actor = some call →
        (transition.before.reaping? call).isSome = true →
        TouchesOwn transition call := by
  intro touches
  obtain ⟨trace, last, run, close, isClose, own, isReap, reapsFor, owner,
      running, failed⟩ :=
    exists_run_of_check (step .sample)
      (World.sample 1 ⟨[(7, .sample .queued)], by simp⟩).idle
      (claimActions 1 1 [7] ++ executeActions 1 2 0 ++
        crashActions 1 20000 3 2 ++
        ([.reap 3 (.rows [1]), .reap 3 .ok, .reap 3 (.rows [0]),
          .reap 3 (.rows [7]), .reap 3 .ok] : List Action) ++
        claimActions 4 2 [7] ++ executeActions 4 5 1 ++
        ([.reap 3 .ok] : List Action))
      (fun trace _ =>
        ∃ close ∈ (trace.drop 35).head?,
          close.action.actor = some 3 ∧
          (close.before.reaping? 3).isSome = true ∧
          close.before.reapsFor 3 = some 1 ∧
          (close.before.world.executions.get? 1).map (·.workerId) = some 2 ∧
          (close.before.world.executions.get? 1).map (·.status) =
            some .running ∧
          (close.after.world.executions.get? 1).map (·.status) = some .failed)
      (by decide)
  obtain ⟨row, found, isOwner⟩ := Option.map_eq_some_iff.mp owner
  have changed : close.after.world.executions.get? 1 ≠ some row := by
    intro same
    rw [found] at running
    rw [same] at failed
    cases (Option.some.inj running).symm.trans (Option.some.inj failed)
  have touched := (touches .sample _ last 3 trace run
    (World.idle_initial fun _ => rfl) close
    (List.mem_of_mem_drop (List.mem_of_mem_head? isClose)) own
    isReap).executions found changed
  rw [reapsFor, isOwner] at touched
  cases touched

end Steps

end Chronos
