import Chronos.Writers

/-!
# One requeue per orphan

Every worker process runs reap cycles, also overlapping ones, and a cycle
reads the orphans of a stale worker before it writes.  This file shows that a
job goes back to `queued` on behalf of a stale worker at most once if the
cycles mark a worker dead only while it is still `active`, and that it fails
otherwise.
-/

namespace Chronos

namespace ReapPhase

/-- The stale worker whose jobs the cycle is reading or requeueing. -/
def processing : ReapPhase → Option WorkerId
  | .findStale _ => none
  | .markDead _ _ => none
  | .findExecutions worker _ => some worker
  | .findJobs worker _ _ => some worker
  | .requeue worker _ _ _ => some worker
  | .closeExecutions worker _ _ _ _ => some worker
  | .publish worker _ _ _ _ => some worker

/-- The jobs that the cycle is still to requeue for the worker at hand. -/
def pending : ReapPhase → List JobId
  | .findJobs _ _ jobIds => jobIds
  | .requeue _ _ job jobIds => job :: jobIds
  | .closeExecutions _ _ _ jobIds _ => jobIds
  | .publish _ _ _ jobIds _ => jobIds
  | _ => []

/-- The cycle may yet requeue this job on behalf of this worker, without
marking the worker dead once more. -/
def mayRequeue : ReapPhase → WorkerId → JobId → Prop
  | .findExecutions worker _, stale, _ => worker = stale
  | .findJobs worker _ _, stale, _ => worker = stale
  | .requeue worker _ job jobIds, stale, orphan =>
      worker = stale ∧ orphan ∈ job :: jobIds
  | .closeExecutions worker _ _ jobIds _, stale, orphan =>
      worker = stale ∧ orphan ∈ jobIds
  | .publish worker _ _ jobIds _, stale, orphan =>
      worker = stale ∧ orphan ∈ jobIds
  | _, _, _ => False

theorem mayRequeue.processing {phase : ReapPhase} {worker : WorkerId}
    {job : JobId} (may : phase.mayRequeue worker job) :
    phase.processing = some worker := by
  cases phase with
  | findStale => cases may
  | markDead => cases may
  | findExecutions => exact congrArg some may
  | findJobs => exact congrArg some may
  | requeue => exact congrArg some may.1
  | closeExecutions => exact congrArg some may.1
  | publish => exact congrArg some may.1

end ReapPhase

namespace State

/-- The phase of this call, if it is a reap cycle. -/
def reaping? (state : State) (call : CallId) : Option ReapPhase :=
  match state.calls call with
  | some (.reap ⟨_, phase⟩) => some phase
  | _ => none

def workerStatus? (state : State) (worker : WorkerId) : Option WorkerStatus :=
  (state.world.workers.get? worker).map (·.status)

end State

namespace Action

/-- The stale worker and the job, if a reap cycle requeues one in this step. -/
def requeuesFor (state : State) : Action → Option (WorkerId × JobId)
  | .reap call .ok =>
      match state.reaping? call with
      | some (.requeue worker _ job _) => some (worker, job)
      | _ => none
  | _ => none

/-- The worker that a reap cycle marks dead in this step. -/
def marksDead (state : State) : Action → Option WorkerId
  | .reap call .ok =>
      match state.reaping? call with
      | some (.markDead worker _) => some worker
      | _ => none
  | _ => none

end Action

/-- No job is requeued twice on behalf of the same stale worker. -/
def RequeuesOnce (trace : List (Transition State Action)) : Prop :=
  ∀ {earlier between later first second orphan},
    trace = earlier ++ first :: (between ++ second :: later) →
    first.action.requeuesFor first.before = some orphan →
    second.action.requeuesFor second.before ≠ some orphan

/-- A worker that is marked dead in this step is still `active`. -/
def MarksActive (transition : Transition State Action) : Prop :=
  ∀ worker ∈ transition.action.marksDead transition.before,
    transition.before.workerStatus? worker = some .active

instance (transition : Transition State Action) :
    Decidable (MarksActive transition) :=
  inferInstanceAs (Decidable (∀ worker ∈ _, _ = _))

/-- A worker whose jobs are being requeued is marked, by one cycle only, and
the cycle has each of its jobs once. -/
structure ReapInv (state : State) : Prop where
  marked : ∀ {call phase worker}, state.reaping? call = some phase →
    phase.processing = some worker →
    ∃ status, state.workerStatus? worker = some status ∧ status ≠ .active
  unique : ∀ {first second phase other worker},
    state.reaping? first = some phase → state.reaping? second = some other →
    phase.processing = some worker → other.processing = some worker →
    first = second
  nodup : ∀ {call phase}, state.reaping? call = some phase →
    phase.pending.Nodup

section Steps

variable {env : Env} {start last state next : State} {action : Action}
  {trace : List (Transition State Action)}

theorem step_workerStatus (taken : step env state action = some next)
    {worker : WorkerId} {status : WorkerStatus}
    (found : state.workerStatus? worker = some status)
    (notActive : status ≠ .active) :
    ∃ status', next.workerStatus? worker = some status' ∧
      status' ≠ .active := by
  obtain ⟨row, rowFound, rfl⟩ := Option.map_eq_some_iff.mp found
  obtain ⟨row', found', change⟩ := step_worker taken rowFound
  refine ⟨row'.status, by simp [State.workerStatus?, found'], ?_⟩
  rcases change with rfl | write
  · exact notActive
  · cases write with
    | heartbeat => exact notActive
    | leave inactive => exact inactive

/-- How a reap cycle has come to its phase: it was there, it has just begun,
or it took the last step. -/
theorem step_reaping (taken : step env state action = some next)
    {call : CallId} {phase' : ReapPhase}
    (found : next.reaping? call = some phase') :
    state.reaping? call = some phase' ∨
      (state.calls call = none ∧
        ∃ staleThreshold, phase' = .findStale staleThreshold) ∨
      ∃ phase input world, action = .reap call input ∧
        state.reaping? call = some phase ∧
        ReapStep state.world phase input world (some phase') ∧
        next.world = world := by
  have reaping : ∀ {owner : WorkerId} {phase : ReapPhase},
      state.calls call = some (.reap ⟨owner, phase⟩) →
      state.reaping? call = some phase := by
    intro owner phase called
    simp [State.reaping?, called]
  unfold State.reaping? at found
  split at found <;> cases found
  rename_i owner present
  generalize same : Call.reap ⟨owner, phase'⟩ = value at present
  cases step_call taken present with
  | kept called =>
      subst same
      exact .inl (reaping called)
  | started starts absent =>
      cases starts with
      | reap =>
          cases same
          exact .inr (.inl ⟨absent, _, rfl⟩)
      | request =>
          rename_i request
          cases request <;> cases same
      | _ => cases same
  | handedOver => cases same
  | launched => cases same
  | poll => cases same
  | exec => cases same
  | tick => cases same
  | reap called case world =>
      cases same
      exact .inr (.inr ⟨_, _, _, rfl, reaping called, case, world⟩)
  | api _ case =>
      subst same
      cases case.requests.2

theorem step_reap (taken : step env state action = some next)
    {call : CallId} {phase : ReapPhase}
    (reaping : state.reaping? call = some phase)
    (own : action.actor = some call) :
    ∃ input world phase', action = .reap call input ∧
      ReapStep state.world phase input world phase' ∧
      next.world = world ∧ next.reaping? call = phase' := by
  unfold State.reaping? at reaping
  split at reaping <;> cases reaping
  rename_i owner called
  cases step_cases taken with
  | started starts _ => cases starts <;> cases own
  | @reap _ _ _ input world phase' found case =>
      cases own
      cases called.symm.trans found
      refine ⟨input, world, phase', rfl, case, rfl, ?_⟩
      cases phase' <;> simp [State.reaping?]
  | poll found => cases own; cases called.symm.trans found
  | launched found => cases own; cases called.symm.trans found
  | exec found => cases own; cases called.symm.trans found
  | tick found => cases own; cases called.symm.trans found
  | api found case =>
      cases own
      cases called.symm.trans found
      cases case.requests.1
  | _ => cases own

end Steps

namespace ReapPhase

theorem processing_nextWorker {workers : List WorkerId} {phase : ReapPhase}
    (next : nextWorker workers = some phase) :
    phase.processing = none ∧ phase.pending = [] := by
  cases workers with
  | nil => cases next
  | cons => cases next; exact ⟨rfl, rfl⟩

theorem pending_nextJob {worker : WorkerId} {workers : List WorkerId}
    {jobIds : List JobId} {phase : ReapPhase}
    (next : nextJob worker workers jobIds = some phase) :
    phase.pending = jobIds ∧ (phase.processing = none ∨
      phase.processing = some worker) := by
  cases jobIds with
  | nil =>
      cases workers with
      | nil => cases next
      | cons => cases next; exact ⟨rfl, .inl rfl⟩
  | cons => cases next; exact ⟨rfl, .inr rfl⟩

theorem mayRequeue_nextJob {worker stale : WorkerId} {workers : List WorkerId}
    {jobIds : List JobId} {job : JobId} {phase : ReapPhase}
    (next : nextJob worker workers jobIds = some phase)
    (may : phase.mayRequeue stale job) : worker = stale ∧ job ∈ jobIds := by
  cases jobIds with
  | nil =>
      cases workers with
      | nil => cases next
      | cons => cases next; cases may
  | cons => cases next; exact may

end ReapPhase

namespace ReapStep

variable {world next : World} {phase phase' : ReapPhase} {input : ReapInput}

/-- A cycle turns to a worker only by marking it dead. -/
theorem processing (case : ReapStep world phase input next (some phase'))
    {worker : WorkerId} (processing : phase'.processing = some worker) :
    phase.processing = some worker ∨
      (∃ workers, phase = .markDead worker workers) ∧ input = .ok := by
  generalize after : some phase' = result at case
  cases case with
  | staleFound =>
      rw [(ReapPhase.processing_nextWorker after.symm).1] at processing
      cases processing
  | markedDead =>
      cases after
      cases processing
      exact .inr ⟨⟨_, rfl⟩, rfl⟩
  | noOrphans =>
      rw [(ReapPhase.processing_nextWorker after.symm).1] at processing
      cases processing
  | jobsFound =>
      rcases (ReapPhase.pending_nextJob after.symm).2 with none | some
      · rw [none] at processing
        cases processing
      · exact .inl (some.symm.trans processing)
  | published =>
      rcases (ReapPhase.pending_nextJob after.symm).2 with none | some
      · rw [none] at processing
        cases processing
      · exact .inl (some.symm.trans processing)
  | skipped same =>
      rcases (ReapPhase.pending_nextJob after.symm).2 with none | found
      · rw [none] at processing
        cases processing
      · left
        rw [← processing, found]
        cases phase <;> cases same <;> rfl
  | ended => cases after
  | orphansFound => cases after; exact .inl processing
  | requeued => cases after; exact .inl processing
  | closed => cases after; exact .inl processing

theorem nodup (case : ReapStep world phase input next (some phase'))
    (before : phase.pending.Nodup) : phase'.pending.Nodup := by
  generalize after : some phase' = result at case
  cases case with
  | staleFound =>
      rw [(ReapPhase.processing_nextWorker after.symm).2]
      exact List.nodup_nil
  | noOrphans =>
      rw [(ReapPhase.processing_nextWorker after.symm).2]
      exact List.nodup_nil
  | markedDead =>
      cases after
      exact List.nodup_nil
  | orphansFound =>
      cases after
      exact nodup_newSet _
  | jobsFound =>
      rw [(ReapPhase.pending_nextJob after.symm).1]
      exact nodup_newSet _
  | requeued =>
      cases after
      exact (List.nodup_cons.mp before).2
  | closed =>
      cases after
      exact before
  | published =>
      rw [(ReapPhase.pending_nextJob after.symm).1]
      exact before
  | skipped same =>
      rw [(ReapPhase.pending_nextJob after.symm).1]
      cases phase <;> cases same
      · exact (List.nodup_cons.mp before).2
      · exact before
      · exact before
  | ended => cases after

/-- The jobs that a cycle may requeue for a worker only become fewer, unless
it marks that worker dead. -/
theorem mayRequeue (case : ReapStep world phase input next (some phase'))
    {worker : WorkerId} {job : JobId} (may : phase'.mayRequeue worker job) :
    phase.mayRequeue worker job ∨
      (∃ workers, phase = .markDead worker workers) ∧ input = .ok := by
  generalize after : some phase' = result at case
  cases case with
  | staleFound =>
      have none := (ReapPhase.processing_nextWorker after.symm).1
      rw [may.processing] at none
      cases none
  | markedDead =>
      cases after
      cases may
      exact .inr ⟨⟨_, rfl⟩, rfl⟩
  | noOrphans =>
      have none := (ReapPhase.processing_nextWorker after.symm).1
      rw [may.processing] at none
      cases none
  | orphansFound => cases after; exact .inl may
  | jobsFound =>
      exact .inl (ReapPhase.mayRequeue_nextJob after.symm may).1
  | requeued =>
      cases after
      exact .inl ⟨may.1, List.mem_cons_of_mem _ may.2⟩
  | closed => cases after; exact .inl may
  | published => exact .inl (ReapPhase.mayRequeue_nextJob after.symm may)
  | skipped same =>
      have found := ReapPhase.mayRequeue_nextJob after.symm may
      left
      cases phase <;> cases same
      · exact ⟨found.1, List.mem_cons_of_mem _ found.2⟩
      · exact found
      · exact found
  | ended => cases after

theorem marked {worker : WorkerId} {workers : List WorkerId}
    (case : ReapStep world (.markDead worker workers) .ok next (some phase')) :
    next = world.setWorkerStatus worker .dead := by
  cases case
  rfl

end ReapStep

namespace Action

theorem requeuesFor_eq_some {state : State} {action : Action}
    {worker : WorkerId} {job : JobId}
    (requeues : action.requeuesFor state = some (worker, job)) :
    ∃ call workers jobIds, action = .reap call .ok ∧
      state.reaping? call = some (.requeue worker workers job jobIds) := by
  unfold requeuesFor at requeues
  split at requeues
  · split at requeues <;> cases requeues
    exact ⟨_, _, _, rfl, ‹_›⟩
  · cases requeues

end Action

section Steps

variable {env : Env} {start last state next : State} {action : Action}
  {trace : List (Transition State Action)}

private theorem step_processing (taken : step env state action = some next)
    {call : CallId} {phase' : ReapPhase} {worker : WorkerId}
    (found : next.reaping? call = some phase')
    (processing : phase'.processing = some worker) :
    (∃ phase, state.reaping? call = some phase ∧
      phase.processing = some worker) ∨
    (action.actor = some call ∧ action.marksDead state = some worker ∧
      next.world = state.world.setWorkerStatus worker .dead) := by
  rcases step_reaping taken found with
    old | ⟨_, _, rfl⟩ | ⟨phase, input, world, rfl, old, case, same⟩
  · exact .inl ⟨phase', old, processing⟩
  · cases processing
  · rcases case.processing processing with before | ⟨⟨_, rfl⟩, rfl⟩
    · exact .inl ⟨phase, old, before⟩
    · exact .inr ⟨rfl, by simp [Action.marksDead, old],
        same.trans case.marked⟩

theorem ReapInv.initial (initial : Initial start) : ReapInv start := by
  have none : ∀ {call : CallId} {phase : ReapPhase},
      start.reaping? call ≠ some phase := by
    intro call phase found
    simp [State.reaping?, initial.calls call] at found
  constructor
  · intro call phase worker found
    exact (none found).elim
  · intro first second phase other worker found
    exact (none found).elim
  · intro call phase found
    exact (none found).elim

theorem ReapInv.step (inv : ReapInv state)
    (taken : Chronos.step env state action = some next)
    (active : MarksActive ⟨state, action, next⟩) : ReapInv next := by
  have notBoth : ∀ {call phase worker}, state.reaping? call = some phase →
      phase.processing = some worker →
      action.marksDead state ≠ some worker := by
    intro call phase worker found processing marks
    obtain ⟨status, known, notActive⟩ := inv.marked found processing
    cases known.symm.trans (active worker marks)
    exact notActive rfl
  constructor
  · intro call phase' worker found processing
    rcases step_processing taken found processing with
      ⟨phase, old, before⟩ | ⟨_, marks, world⟩
    · obtain ⟨status, known, notActive⟩ := inv.marked old before
      exact step_workerStatus taken known notActive
    · obtain ⟨row, rowFound, _⟩ :=
        Option.map_eq_some_iff.mp (active worker marks)
      refine ⟨.dead, ?_, by decide⟩
      simp [State.workerStatus?, world, World.setWorkerStatus, rowFound]
  · intro first second phase other worker found otherFound processing
      otherProcessing
    rcases step_processing taken found processing with
      ⟨_, old, before⟩ | ⟨acts, marks, _⟩
    · rcases step_processing taken otherFound otherProcessing with
        ⟨_, otherOld, otherBefore⟩ | ⟨_, marks, _⟩
      · exact inv.unique old otherOld before otherBefore
      · exact (notBoth old before marks).elim
    · rcases step_processing taken otherFound otherProcessing with
        ⟨_, otherOld, otherBefore⟩ | ⟨otherActs, _, _⟩
      · exact (notBoth otherOld otherBefore marks).elim
      · rw [acts] at otherActs
        exact Option.some.inj otherActs
  · intro call phase' found
    rcases step_reaping taken found with
      old | ⟨_, _, rfl⟩ | ⟨phase, input, world, rfl, old, case, _⟩
    · exact inv.nodup old
    · exact List.nodup_nil
    · exact case.nodup (inv.nodup old)

/-- The stale worker is marked, and no cycle is to requeue the job for it. -/
structure Requeued (worker : WorkerId) (job : JobId) (state : State) :
    Prop where
  marked : ∃ status, state.workerStatus? worker = some status ∧
    status ≠ .active
  done : ∀ {call phase}, state.reaping? call = some phase →
    ¬phase.mayRequeue worker job

namespace Requeued

variable {worker : WorkerId} {job : JobId}

/-- After a cycle has requeued the job, neither it nor another one has it left
for this worker. -/
theorem of_requeue (inv : ReapInv state)
    (taken : Chronos.step env state action = some next)
    (requeues : action.requeuesFor state = some (worker, job)) :
    Requeued worker job next := by
  obtain ⟨call, workers, jobIds, rfl, found⟩ :=
    Action.requeuesFor_eq_some requeues
  obtain ⟨status, known, notActive⟩ := inv.marked found rfl
  refine ⟨step_workerStatus taken known notActive, ?_⟩
  intro other phase' otherFound may
  rcases step_reaping taken otherFound with
    old | ⟨_, _, rfl⟩ | ⟨phase, input, world, same, old, case, _⟩
  · have mine := inv.unique old found may.processing rfl
    subst other
    have nodup := inv.nodup found
    cases step_cases taken with
    | started starts => cases starts
    | reap called case =>
        simp only [State.reaping?, called, Option.some.injEq] at found
        subst found
        cases case with
        | requeued =>
            simp only [State.reaping?, Function.update_self, Option.map_some,
              Option.some.injEq] at otherFound
            subst otherFound
            exact (List.nodup_cons.mp nodup).1 may.2
  · cases may
  · cases same
    cases found.symm.trans old
    cases case with
    | requeued => exact (List.nodup_cons.mp (inv.nodup found)).1 may.2

theorem step (requeued : Requeued worker job state)
    (taken : Chronos.step env state action = some next)
    (active : MarksActive ⟨state, action, next⟩) :
    Requeued worker job next := by
  obtain ⟨status, known, notActive⟩ := requeued.marked
  refine ⟨step_workerStatus taken known notActive, ?_⟩
  intro call phase' found may
  rcases step_reaping taken found with
    old | ⟨_, _, rfl⟩ | ⟨phase, input, world, rfl, old, case, _⟩
  · exact requeued.done old may
  · cases may
  · rcases case.mayRequeue may with before | ⟨⟨_, rfl⟩, rfl⟩
    · exact requeued.done old before
    · have stillActive := active worker (by simp [Action.marksDead, old])
      cases known.symm.trans stillActive
      exact notActive rfl

end Requeued

/-- Each orphan of a stale worker is requeued at most once in every run in
which reap cycles mark only `active` workers dead. -/
theorem reap_once (run : Run (step env) start trace last)
    (initial : Initial start)
    (active : ∀ transition ∈ trace, MarksActive transition) :
    RequeuesOnce trace := by
  rintro earlier between later first second ⟨worker, job⟩ rfl requeues again
  obtain ⟨toFirst, taken, afterFirst⟩ := run.around
  obtain ⟨toSecond, _, _⟩ := afterFirst.around
  have inv := toFirst.invariant ReapInv
    (fun transition member => active transition (by simp [member]))
    (.initial initial) (fun _ active taken inv => inv.step taken active)
  have requeued := toSecond.invariant (Requeued worker job)
    (fun transition member => active transition (by simp [member]))
    (.of_requeue inv taken requeues)
    (fun _ active taken requeued => requeued.step taken active)
  obtain ⟨call, _, _, _, found⟩ := Action.requeuesFor_eq_some again
  exact requeued.done found ⟨rfl, List.mem_cons_self⟩

/-- Worker 1 dies in the handler of job 7, and of two overlapping cycles one
finds it. -/
theorem reap_once_overlapping :
    ∃ trace last,
      Run (step .sample)
        (World.sample 1 ⟨[(7, .sample .queued)], by simp⟩).idle trace last ∧
      last.status? 7 = some .queued ∧ RequeuesOnce trace := by
  obtain ⟨trace, last, run, active, queued⟩ :=
    exists_run_of_check (step .sample)
      (World.sample 1 ⟨[(7, .sample .queued)], by simp⟩).idle
      (claimActions 1 1 [7] ++ executeActions 1 2 0 ++
        crashActions 1 20000 3 2 ++
        ([.startReap 4 2, .reap 3 (.rows [1]), .reap 3 .ok, .reap 4 (.rows []),
          .reap 3 (.rows [0]), .reap 3 (.rows [7]), .reap 3 .ok, .reap 3 .ok] :
          List Action))
      (fun trace last =>
        (∀ transition ∈ trace, MarksActive transition) ∧
        last.status? 7 = some .queued)
      (by decide)
  exact ⟨trace, last, run, queued,
    reap_once run (World.idle_initial fun _ => rfl) active⟩

/-- Without the condition it fails: two cycles read the stale worker before
either marks it, and each requeues the job. -/
theorem reap_twice :
    ¬∀ (env : Env) (start last : State)
      (trace : List (Transition State Action)),
      Run (step env) start trace last → Initial start →
      (∀ transition ∈ trace,
        transition.action.fails transition.before = false) →
      RequeuesOnce trace := by
  intro once
  obtain ⟨trace, last, run, noFailure, ⟨first, isFirst, requeues⟩,
      ⟨second, isSecond, again⟩⟩ :=
    exists_run_of_check (step .sample)
      (World.sample 1 ⟨[(7, .sample .queued)], by simp⟩).idle
      (claimActions 1 1 [7] ++ executeActions 1 2 0 ++
        crashActions 1 20000 3 2 ++
        ([.startReap 4 2, .reap 3 (.rows [1]), .reap 4 (.rows [1]),
          .reap 3 .ok, .reap 4 .ok, .reap 3 (.rows [0]), .reap 4 (.rows [0]),
          .reap 3 (.rows [7]), .reap 4 (.rows [7]), .reap 3 .ok, .reap 4 .ok] :
          List Action))
      (fun trace _ =>
        (∀ transition ∈ trace,
          transition.action.fails transition.before = false) ∧
        (∃ first ∈ (trace.drop 26).head?,
          first.action.requeuesFor first.before = some (1, 7)) ∧
        ∃ second ∈ (trace.drop 27).head?,
          second.action.requeuesFor second.before = some (1, 7))
      (by decide)
  exact once _ _ last trace run (World.idle_initial fun _ => rfl) noFailure
    (List.eq_around_of_head? isFirst isSecond) requeues again

end Steps

end Chronos
