import Chronos.CrashRecovery
import Chronos.Records

/-!
# A reap cycle that stops early

A cycle marks a stale worker dead before it reads and requeues the worker's
jobs, and cycles look for `active` workers only.  So an orphan is found again
as long as its worker is `active`, and is in the hands of the one cycle after
that.  This file shows that nothing is lost in the runs in which a cycle drops
no running execution from its hands, and that the others lose jobs for good.
-/

namespace Chronos

namespace ReapPhase

/-- The cycle has yet to close the executions of this job that it found for
this worker. -/
def hasInHand : ReapPhase → WorkerId → JobId → Prop
  | .findExecutions worker _, stale, _ => worker = stale
  | .findJobs worker _ jobIds, stale, orphan =>
      worker = stale ∧ orphan ∈ jobIds
  | .requeue worker _ job jobIds, stale, orphan =>
      worker = stale ∧ orphan ∈ job :: jobIds
  | .closeExecutions worker _ job jobIds _, stale, orphan =>
      worker = stale ∧ orphan ∈ job :: jobIds
  | .publish worker _ _ jobIds _, stale, orphan =>
      worker = stale ∧ orphan ∈ jobIds
  | _, _, _ => False

/-- What the cycle lets drop if the call that it awaits fails.  A failure in
the loop over the jobs costs the job at hand, one before it all of them. -/
def drops : ReapPhase → WorkerId → JobId → Prop
  | .findExecutions worker _, stale, _ => worker = stale
  | .findJobs worker _ jobIds, stale, orphan =>
      worker = stale ∧ orphan ∈ jobIds
  | .requeue worker _ job _, stale, orphan => worker = stale ∧ orphan = job
  | .closeExecutions worker _ job _ _, stale, orphan =>
      worker = stale ∧ orphan = job
  | _, _, _ => False

/-- The job whose open executions the cycle is about to close. -/
def closing : ReapPhase → Option JobId
  | .closeExecutions _ _ job _ _ => some job
  | _ => none

instance (phase : ReapPhase) (worker : WorkerId) (job : JobId) :
    Decidable (phase.hasInHand worker job) := by
  cases phase <;> unfold hasInHand <;> infer_instance

instance (phase : ReapPhase) (worker : WorkerId) (job : JobId) :
    Decidable (phase.drops worker job) := by
  cases phase <;> unfold drops <;> infer_instance

end ReapPhase

namespace World

/-- The executions whose row says `running`. -/
def unfinished (world : World) : List JobExecution :=
  (world.executions.rowsWhere fun row => row.status = .running).map Prod.snd

theorem mem_unfinished {world : World} {row : JobExecution} :
    row ∈ world.unfinished ↔
      ∃ id, world.executions.get? id = some row ∧ row.status = .running := by
  simp only [unfinished, Table.rowsWhere, List.mem_map, List.mem_filter,
    Prod.exists, Table.mem_rows_iff, decide_eq_true_eq]
  constructor
  · rintro ⟨id, other, ⟨found, running⟩, rfl⟩
    exact ⟨id, found, running⟩
  · rintro ⟨id, found, running⟩
    exact ⟨id, row, ⟨found, running⟩, rfl⟩

end World

namespace State

/-- A cycle will find the execution, or has it in hand. -/
def Traces (state : State) (execution : JobExecution) : Prop :=
  state.workerStatus? execution.workerId = some .active ∨
    ∃ call phase, state.reaping? call = some phase ∧
      phase.hasInHand execution.workerId execution.jobId

/-- No running execution is lost to the reap cycles. -/
def TracesAll (state : State) : Prop :=
  ∀ execution ∈ state.world.unfinished, state.Traces execution

end State

namespace Action

/-- The reap cycle whose awaited call fails in this step. -/
def failsReap : Action → Option CallId
  | .reap call .fail => some call
  | _ => none

/-- The worker for which this step creates an execution. -/
def startsFor (state : State) : Action → Option WorkerId
  | .exec call (.created _) =>
      match state.calls call with
      | some (.exec ⟨_, worker, .createExecution _ _⟩) => some worker
      | _ => none
  | _ => none

/-- The worker whose shutdown changes its status in this step. -/
def shutsDown : Action → Option WorkerId
  | .drain worker => some worker
  | .retire worker => some worker
  | _ => none

/-- The job whose open executions a cycle closes in this step. -/
def closesOrphans (state : State) : Action → Option JobId
  | .reap call .ok => (state.reaping? call).bind ReapPhase.closing
  | _ => none

end Action

/-- This cycle has the execution in hand, and drops it: the awaited call fails,
or its process ends. -/
def Drops (transition : Transition State Action) (call : CallId)
    (execution : JobExecution) : Prop :=
  ∃ phase ∈ transition.before.reaping? call,
    (transition.action.failsReap = some call ∧
      phase.drops execution.workerId execution.jobId) ∨
    (∃ worker ∈ transition.action.exiting,
      transition.before.belongs worker call = true ∧
      phase.hasInHand execution.workerId execution.jobId)

/-- This cycle drops no execution that is still running. -/
def DropsNone (transition : Transition State Action) (call : CallId) : Prop :=
  ∀ execution ∈ transition.before.world.unfinished,
    ¬Drops transition call execution

/-- Only workers that are `active` begin an execution, and a worker shuts down
when none of its executions is running. -/
structure StaysVisible (transition : Transition State Action) : Prop where
  starts : ∀ worker ∈ transition.action.startsFor transition.before,
    transition.before.workerStatus? worker = some .active
  leaves : ∀ worker ∈ transition.action.shutsDown,
    ∀ execution ∈ transition.before.world.unfinished,
    execution.workerId ≠ worker

instance (transition : Transition State Action) (call : CallId)
    (execution : JobExecution) : Decidable (Drops transition call execution) :=
  inferInstanceAs (Decidable (∃ phase ∈ _, _ ∨ ∃ worker ∈ _, _))

instance (transition : Transition State Action) (call : CallId) :
    Decidable (DropsNone transition call) :=
  inferInstanceAs (Decidable (∀ execution ∈ _, ¬_))

instance (transition : Transition State Action) :
    Decidable (StaysVisible transition) :=
  decidable_of_iff
    ((∀ worker ∈ transition.action.startsFor transition.before,
        transition.before.workerStatus? worker = some .active) ∧
      ∀ worker ∈ transition.action.shutsDown,
        ∀ execution ∈ transition.before.world.unfinished,
        execution.workerId ≠ worker)
    ⟨fun both => ⟨both.1, both.2⟩, fun visible => ⟨visible.1, visible.2⟩⟩

deriving instance DecidableEq for ReapPhase

/-! ## Running executions stay in sight -/

namespace ReapPhase

theorem closing_eq_some {phase : ReapPhase} {job : JobId}
    (closes : phase.closing = some job) :
    ∃ worker workers jobIds queueId,
      phase = .closeExecutions worker workers job jobIds queueId := by
  cases phase <;> cases closes
  exact ⟨_, _, _, _, rfl⟩

@[simp] theorem nextWorker_closing (workers : List WorkerId) :
    (nextWorker workers).bind closing = none := by
  cases workers <;> rfl

@[simp] theorem nextJob_closing (worker : WorkerId) (workers : List WorkerId)
    (jobIds : List JobId) :
    (nextJob worker workers jobIds).bind closing = none := by
  cases jobIds with
  | nil => exact nextWorker_closing workers
  | cons => rfl

theorem nextJob_hasInHand {worker : WorkerId}
    {workers : List WorkerId} {jobIds : List JobId} {job : JobId}
    (member : job ∈ jobIds) :
    ∃ phase, nextJob worker workers jobIds = some phase ∧
      phase.hasInHand worker job := by
  cases jobIds with
  | nil => cases member
  | cons head jobIds => exact ⟨_, rfl, rfl, member⟩

end ReapPhase

namespace ReapStep

variable {world next : World} {phase : ReapPhase} {phase' : Option ReapPhase}
  {input : ReapInput}

/-- What a cycle has in hand it keeps, unless its call fails, it closes the
executions of the job, or it finds none that is running. -/
theorem hasInHand (case : ReapStep world phase input next phase')
    {worker : WorkerId} {job : JobId} (hand : phase.hasInHand worker job) :
    (input = .fail ∧ phase.drops worker job) ∨
    (input = .ok ∧ ∃ workers jobIds queueId,
      phase = .closeExecutions worker workers job jobIds queueId) ∨
    world.hasRunningExecution worker job = false ∨
    ∃ after, phase' = some after ∧ after.hasInHand worker job := by
  cases case with
  | staleFound => cases hand
  | markedDead => cases hand
  | noOrphans read none =>
      obtain rfl : _ = worker := hand
      cases running : world.hasRunningExecution _ job with
      | false => exact .inr (.inr (.inl rfl))
      | true =>
          have listed := Recovering.mem_orphans read running
          rw [none] at listed
          cases listed
  | orphansFound read =>
      obtain rfl : _ = worker := hand
      cases running : world.hasRunningExecution _ job with
      | false => exact .inr (.inr (.inl rfl))
      | true =>
          have listed := Recovering.mem_orphans read running
          exact .inr (.inr (.inr ⟨_, rfl, rfl, listed⟩))
  | jobsFound =>
      obtain ⟨rfl, member⟩ := hand
      refine .inr (.inr (.inr (ReapPhase.nextJob_hasInHand ?_)))
      exact mem_newSet.mpr (List.mem_append_left _ member)
  | requeued => exact .inr (.inr (.inr ⟨_, rfl, hand⟩))
  | closed =>
      obtain ⟨rfl, member⟩ := hand
      rcases List.mem_cons.mp member with rfl | later
      · exact .inr (.inl ⟨rfl, _, _, _, rfl⟩)
      · exact .inr (.inr (.inr ⟨_, rfl, rfl, later⟩))
  | published =>
      obtain ⟨rfl, member⟩ := hand
      exact .inr (.inr (.inr (ReapPhase.nextJob_hasInHand member)))
  | skipped current =>
      cases phase with
      | findStale => cases current
      | markDead => cases current
      | findExecutions => cases current
      | findJobs => cases current
      | requeue =>
          cases current
          obtain ⟨rfl, member⟩ := hand
          rcases List.mem_cons.mp member with rfl | later
          · exact .inl ⟨rfl, rfl, rfl⟩
          · exact .inr (.inr (.inr (ReapPhase.nextJob_hasInHand later)))
      | closeExecutions =>
          cases current
          obtain ⟨rfl, member⟩ := hand
          rcases List.mem_cons.mp member with rfl | later
          · exact .inl ⟨rfl, rfl, rfl⟩
          · exact .inr (.inr (.inr (ReapPhase.nextJob_hasInHand later)))
      | publish =>
          cases current
          obtain ⟨rfl, member⟩ := hand
          exact .inr (.inr (.inr (ReapPhase.nextJob_hasInHand member)))
  | ended current =>
      cases phase with
      | findStale => cases hand
      | markDead => cases hand
      | findExecutions => exact .inl ⟨rfl, hand⟩
      | findJobs => exact .inl ⟨rfl, hand⟩
      | requeue => cases current
      | closeExecutions => cases current
      | publish => cases current

theorem closing (case : ReapStep world phase input next phase') {job : JobId}
    (closes : phase'.bind ReapPhase.closing = some job) :
    input = .ok ∧ ∃ worker workers jobIds,
      phase = .requeue worker workers job jobIds := by
  cases case with
  | requeued => cases closes; exact ⟨rfl, _, _, _, rfl⟩
  | staleFound => simp at closes
  | noOrphans => simp at closes
  | jobsFound => simp at closes
  | published => simp at closes
  | skipped => simp at closes
  | _ => cases closes

end ReapStep

section Steps

variable {env : Env} {start last state next : State} {action : Action}
  {trace : List (Transition State Action)}

theorem step_workerStatus_cases (taken : step env state action = some next)
    {worker : WorkerId} {status : WorkerStatus}
    (known : state.workerStatus? worker = some status) :
    next.workerStatus? worker = some status ∨
      action.marksDead state = some worker ∨
      (action = .drain worker ∧
        next.workerStatus? worker = some .draining) ∨
      action = .retire worker := by
  obtain ⟨row, found, rfl⟩ := Option.map_eq_some_iff.mp known
  have kept : ∀ {world : World} {calls : CallId → Option Call},
      world.workers = state.world.workers →
      (State.mk world calls).workerStatus? worker = some row.status := by
    intro world calls same
    rw [State.workerStatus?, same, found]
    rfl
  have set : ∀ {other : WorkerId} {status : WorkerStatus}
      {calls : CallId → Option Call},
      (State.mk (state.world.setWorkerStatus other status) calls).workerStatus?
          worker = some (if worker = other then status else row.status) := by
    intro other status calls
    by_cases same : worker = other
    · simp [State.workerStatus?, World.setWorkerStatus, ← same, found]
    · simp [State.workerStatus?, World.setWorkerStatus, same, found]
  cases step_cases taken with
  | registered success =>
      obtain ⟨workers, inserted, rfl⟩ := World.registerWorker_eq_some success
      left
      have fresh := (Table.insert?_eq_some_iff.mp inserted).1
      have lookup : workers.get? worker = some row := by
        rw [Table.get?_insert? inserted, if_neg, found]
        rintro rfl
        rw [fresh] at found
        cases found
      simp [State.workerStatus?, World.setProcess, lookup]
  | @heartbeat other alive =>
      left
      by_cases same : worker = other
      · subst other
        simp [State.workerStatus?, World.recordHeartbeat, found]
      · simp [State.workerStatus?, World.recordHeartbeat, same, found]
  | @drained other =>
      by_cases same : worker = other
      · subst other
        exact .inr (.inr (.inl ⟨rfl, by rw [set, if_pos rfl]⟩))
      · exact .inl (by rw [set, if_neg same])
  | @retired other =>
      by_cases same : worker = other
      · subst other
        exact .inr (.inr (.inr rfl))
      · exact .inl (by rw [set, if_neg same])
  | exited => exact .inl (kept rfl)
  | poll _ case => exact .inl (kept (by rw [case.frame]))
  | exec _ case => exact .inl (kept (by rw [case.frame]))
  | reap called case =>
      cases case with
      | @markedDead other =>
          by_cases same : worker = other
          · subst other
            right
            left
            simp [Action.marksDead, State.reaping?, called]
          · exact .inl (by rw [set, if_neg same])
      | published rows => exact .inl (kept rows.workers)
      | _ => exact .inl (kept rfl)
  | tick _ case => exact .inl (kept (by rw [case.frame]))
  | api _ case => exact .inl (kept (by rw [case.frame]))
  | _ => exact .inl (kept rfl)

theorem step_active (taken : step env state action = some next)
    {worker : WorkerId} (active : state.workerStatus? worker = some .active) :
    next.workerStatus? worker = some .active ∨
      action.marksDead state = some worker ∨
      action.shutsDown = some worker := by
  rcases step_workerStatus_cases taken active with
    same | marks | ⟨rfl, _⟩ | rfl
  · exact .inl same
  · exact .inr (.inl marks)
  · exact .inr (.inr rfl)
  · exact .inr (.inr rfl)

theorem step_reaping_kept (taken : step env state action = some next)
    {call : CallId} {phase : ReapPhase}
    (reaping : state.reaping? call = some phase)
    (other : action.actor ≠ some call)
    (stays : ∀ worker ∈ action.exiting, state.belongs worker call = false) :
    next.reaping? call = some phase := by
  unfold State.reaping? at reaping
  split at reaping <;> cases reaping
  rename_i owner called
  have kept : next.calls call = some (.reap ⟨owner, phase⟩) := by
    cases exits : action.exits with
    | false => exact step_keeps taken exits called other
    | true =>
        cases step_cases taken with
        | exited =>
            simp only [State.exitWorker]
            rw [if_neg (by simp [stays _ rfl]), called]
        | started starts => cases starts <;> cases exits
        | _ => cases exits
  simp [State.reaping?, kept]

private theorem not_running_closeOrphan (execution : JobExecution) (now : Time)
    (worker : WorkerId) :
    (execution.closeOrphan execution.jobId now worker).status ≠ .running := by
  unfold JobExecution.closeOrphan
  split
  · simp
  · rename_i open'
    simpa using open'

theorem closesOrphans_eq_some {job : JobId}
    (closes : action.closesOrphans state = some job) :
    ∃ call worker workers jobIds queueId, action = .reap call .ok ∧
      state.reaping? call =
        some (.closeExecutions worker workers job jobIds queueId) := by
  unfold Action.closesOrphans at closes
  split at closes
  · obtain ⟨phase, reaping, isClosing⟩ := Option.bind_eq_some_iff.mp closes
    obtain ⟨_, _, _, _, rfl⟩ := ReapPhase.closing_eq_some isClosing
    exact ⟨_, _, _, _, _, rfl, reaping⟩
  · cases closes

theorem not_running_of_closed (taken : step env state action = some next)
    {id : ExecutionId} {row : JobExecution} {job : JobId}
    (closes : action.closesOrphans state = some job)
    (found : next.world.executions.get? id = some row)
    (same : row.jobId = job) : row.status ≠ .running := by
  obtain ⟨call, worker, workers, jobIds, queueId, rfl, reaping⟩ :=
    closesOrphans_eq_some closes
  obtain ⟨input, world, phase', isOk, case, sameWorld, _⟩ :=
    step_reap taken reaping rfl
  cases isOk
  rw [sameWorld] at found
  cases case with
  | closed =>
      rw [World.closeExecutions, Table.get?_mapRows,
        Option.map_eq_some_iff] at found
      obtain ⟨before, old, rfl⟩ := found
      rw [JobExecution.closeOrphan_jobId] at same
      subst same
      exact not_running_closeOrphan before _ _

/-- Where a running execution comes from: it was running and no cycle closes
the executions of its job, or it is new. -/
theorem running_origin (taken : step env state action = some next)
    {id : ExecutionId} {row : JobExecution}
    (found : next.world.executions.get? id = some row)
    (running : row.status = .running) :
    (state.world.executions.get? id = some row ∧
      action.closesOrphans state ≠ some row.jobId) ∨
    action.startsFor state = some row.workerId := by
  have notClosed : action.closesOrphans state ≠ some row.jobId := by
    intro closes
    exact not_running_of_closed taken closes found rfl running
  rcases step_executions taken with same | write
  · exact .inl ⟨same ▸ found, notClosed⟩
  · generalize next.world.executions = executions at write found
    cases write with
    | @created call exec snapshot policy other _ called phase inserted =>
        rw [Table.get?_insert? inserted] at found
        split at found
        · cases found
          right
          obtain ⟨target, worker, before⟩ := exec
          subst phase
          simp [Action.startsFor, called]
        · exact .inl ⟨found, notClosed⟩
    | @closed call exec attempt status durationMs error called closes =>
        rw [Table.get?_modify, Option.map_eq_some_iff] at found
        obtain ⟨before, old, rfl⟩ := found
        split at running
        · cases shape : exec.phase <;> rw [shape] at closes <;> cases closes <;>
            cases running
        · rename_i other
          rw [if_neg other] at notClosed ⊢
          exact .inl ⟨old, notClosed⟩
    | orphansClosed called =>
        rw [World.closeExecutions, Table.get?_mapRows,
          Option.map_eq_some_iff] at found
        obtain ⟨before, old, rfl⟩ := found
        unfold JobExecution.closeOrphan at running notClosed ⊢
        split at running
        · cases running
        · rename_i other
          rw [if_neg other] at notClosed ⊢
          exact .inl ⟨old, notClosed⟩

theorem Action.startsFor_eq_some {worker : WorkerId}
    (starts : action.startsFor state = some worker) :
    ∃ call id job snapshot policy, action = .exec call (.created id) ∧
      state.calls call =
        some (.exec ⟨job, worker, .createExecution snapshot policy⟩) := by
  unfold Action.startsFor at starts
  split at starts
  · split at starts <;> cases starts
    exact ⟨_, _, _, _, _, rfl, ‹_›⟩
  · cases starts

theorem marksDead_eq_some {worker : WorkerId}
    (marks : action.marksDead state = some worker) :
    ∃ call workers, action = .reap call .ok ∧
      state.reaping? call = some (.markDead worker workers) := by
  unfold Action.marksDead at marks
  split at marks
  · split at marks <;> cases marks
    exact ⟨_, _, rfl, ‹_›⟩
  · cases marks

private theorem hasInHand_step (taken : step env state action = some next)
    {call : CallId} {phase : ReapPhase} {execution : JobExecution}
    (reaping : state.reaping? call = some phase)
    (hand : phase.hasInHand execution.workerId execution.jobId)
    (unfinished : execution ∈ state.world.unfinished)
    (notClosed : action.closesOrphans state ≠ some execution.jobId)
    (keeps : DropsNone ⟨state, action, next⟩ call) :
    ∃ after, next.reaping? call = some after ∧
      after.hasInHand execution.workerId execution.jobId := by
  have notDropped := keeps execution unfinished
  by_cases own : action.actor = some call
  · obtain ⟨input, world, phase', rfl, case, _, now⟩ :=
      step_reap taken reaping own
    rw [now]
    rcases case.hasInHand hand with ⟨rfl, drops⟩ |
      ⟨rfl, workers, jobIds, queueId, rfl⟩ | none | goesOn
    · exact (notDropped ⟨phase, reaping, .inl ⟨rfl, drops⟩⟩).elim
    · exact (notClosed (by simp [Action.closesOrphans, reaping,
        ReapPhase.closing])).elim
    · obtain ⟨id, found, running⟩ := World.mem_unfinished.mp unfinished
      have some : state.world.hasRunningExecution execution.workerId
          execution.jobId = true := by
        apply List.any_eq_true.mpr
        exact ⟨(id, execution), Table.mem_rows_iff.mpr found, by simp [running]⟩
      rw [none] at some
      cases some
    · exact goesOn
  · refine ⟨phase, step_reaping_kept taken reaping own ?_, hand⟩
    intro worker exiting
    cases belongs : state.belongs worker call with
    | false => rfl
    | true =>
        exact (notDropped ⟨phase, reaping,
          .inr ⟨worker, exiting, belongs, hand⟩⟩).elim

/-- No step loses a running execution, if no cycle drops one. -/
theorem State.TracesAll.step (traces : state.TracesAll)
    (taken : Chronos.step env state action = some next)
    (keeps : ∀ call, DropsNone ⟨state, action, next⟩ call)
    (visible : StaysVisible ⟨state, action, next⟩) : next.TracesAll := by
  intro execution unfinished
  obtain ⟨id, found, running⟩ := World.mem_unfinished.mp unfinished
  have active : state.workerStatus? execution.workerId = some .active →
      action.shutsDown ≠ some execution.workerId →
      next.Traces execution := by
    intro wasActive noShutdown
    rcases step_active taken wasActive with isActive | marks | leaves
    · exact .inl isActive
    · obtain ⟨call, workers, rfl, reaping⟩ := marksDead_eq_some marks
      obtain ⟨_, _, _, same, case, _, now⟩ := step_reap taken reaping rfl
      cases same
      cases case with
      | markedDead => exact .inr ⟨call, _, now, rfl⟩
    · exact (noShutdown leaves).elim
  rcases running_origin taken found running with ⟨old, notClosed⟩ | starts
  · have before : execution ∈ state.world.unfinished :=
      World.mem_unfinished.mpr ⟨id, old, running⟩
    rcases traces execution before with wasActive | ⟨call, phase, reaping, hand⟩
    · apply active wasActive
      intro leaves
      exact visible.leaves _ leaves execution before rfl
    · obtain ⟨after, now, stillHand⟩ :=
        hasInHand_step taken reaping hand before notClosed (keeps call)
      exact .inr ⟨call, after, now, stillHand⟩
  · apply active (visible.starts _ starts)
    obtain ⟨_, _, _, _, _, rfl, _⟩ := Action.startsFor_eq_some starts
    simp [Action.shutsDown]

/-- The execution exists and is no longer running. -/
def State.ended (state : State) (id : ExecutionId) : Prop :=
  ∃ row, state.world.executions.get? id = some row ∧ row.status ≠ .running

end Steps

/-! ## A later cycle -/

/-- A reap cycle in a history, from its read of the stale workers to its end,
with no failing call. -/
structure CompleteCycle where
  call : CallId
  staleThreshold : Time
  past : List (Transition State Action)
  read : Transition State Action
  cycle : List (Transition State Action)
  finish : Transition State Action
  future : List (Transition State Action)
  begins : read.before.reaping? call = some (.findStale staleThreshold)
  reads : read.action.actor = some call
  goesOn : ∀ transition ∈ read :: cycle,
    (transition.after.reaping? call).isSome = true
  acts : finish.action.actor = some call
  ends : finish.after.calls call = none
  succeeds : ∀ transition ∈ read :: (cycle ++ [finish]),
    transition.action.actor = some call →
    transition.action.fails transition.before = false

namespace CompleteCycle

def steps (scenario : CompleteCycle) : List (Transition State Action) :=
  scenario.read :: (scenario.cycle ++ [scenario.finish])

def trace (scenario : CompleteCycle) : List (Transition State Action) :=
  scenario.past ++ (scenario.steps ++ scenario.future)

end CompleteCycle

/-- In this step the execution ends: its own transaction closes it, or a cycle
does that has requeued the job before. -/
structure EndsExecution (earlier : List (Transition State Action))
    (transition : Transition State Action) (id : ExecutionId) (job : JobId) :
    Prop where
  running : ¬transition.before.ended id
  ended : transition.after.ended id
  cause :
    (∃ call exec attempt closing, transition.action = .exec call .ok ∧
      transition.before.calls call = some (.exec exec) ∧
      exec.phase.closes = some (attempt, closing) ∧ attempt.execution = id) ∨
    ∃ call, transition.action.actor = some call ∧
      ∃ requeue ∈ earlier, requeue.action.actor = some call ∧
        requeue.action.requeuesOrphan requeue.before = some job

section Recovered

variable {env : Env} {start last state next : State} {action : Action}
  {trace : List (Transition State Action)}

/-- A cycle that is about to close the executions of a job has put the job
back before. -/
theorem closing_requeued (run : Run (step env) start trace last)
    (initial : Initial start) {call : CallId} {job : JobId}
    (closes : (last.reaping? call).bind ReapPhase.closing = some job) :
    ∃ requeue ∈ trace, requeue.action.actor = some call ∧
      requeue.action.requeuesOrphan requeue.before = some job := by
  induction run with
  | nil => simp [State.reaping?, initial.calls call] at closes
  | @snoc trace middle last action _ taken induction =>
      obtain ⟨phase', reaping, isClosing⟩ := Option.bind_eq_some_iff.mp closes
      rcases step_reaping taken reaping with
        same | ⟨_, _, rfl⟩ | ⟨phase, input, world, isOwn, before, case, _⟩
      · obtain ⟨requeue, member, own⟩ := induction (by rw [same]; exact isClosing)
        exact ⟨requeue, by simp [member], own⟩
      · cases isClosing
      · obtain ⟨rfl, worker, workers, jobIds, rfl⟩ := case.closing isClosing
        refine ⟨⟨middle, action, last⟩, by simp, by rw [isOwn]; rfl, ?_⟩
        unfold State.reaping? at before
        split at before <;> cases before
        rename_i owner called
        simp [isOwn, Action.requeuesOrphan, called]

/-- How far a cycle has come with a running execution of a stale worker. -/
inductive Closing (id : ExecutionId) (worker : WorkerId) (job : JobId)
    (state : State) : Option ReapPhase → Prop where
  | unread {phase : ReapPhase} :
      worker ∈ phase.unread → Closing id worker job state (some phase)
  | inHand {phase : ReapPhase} :
      phase.hasInHand worker job → Closing id worker job state (some phase)
  | ended {phase : Option ReapPhase} :
      state.ended id → Closing id worker job state phase

namespace Closing

variable {id : ExecutionId} {worker current : WorkerId} {job : JobId}
  {workers : List WorkerId} {jobIds : List JobId}

theorem nextWorker (later : worker ∈ workers) :
    Closing id worker job state (ReapPhase.nextWorker workers) := by
  cases workers with
  | nil => cases later
  | cons => exact .unread later

theorem nextJob (later : worker ∈ workers) :
    Closing id worker job state
      (ReapPhase.nextJob current workers jobIds) := by
  cases jobIds with
  | nil => exact nextWorker later
  | cons => exact .unread later

theorem own_step {phase : ReapPhase} {phase' : Option ReapPhase}
    {input : ReapInput} {world : World} {row : JobExecution}
    (closing : Closing id row.workerId row.jobId state (some phase))
    (case : ReapStep state.world phase input world phase')
    (succeeds : input ≠ .fail)
    (found : state.world.executions.get? id = some row)
    (keeps : state.ended id → next.ended id)
    (closes : input = .ok → phase.closing = some row.jobId → next.ended id) :
    Closing id row.workerId row.jobId next phase' := by
  have ended_or_found : next.ended id ∨
      state.world.hasRunningExecution row.workerId row.jobId = true := by
    by_cases running : row.status = .running
    · right
      apply List.any_eq_true.mpr
      exact ⟨(id, row), Table.mem_rows_iff.mpr found, by simp [running]⟩
    · exact .inl (keeps ⟨row, found, running⟩)
  cases closing with
  | ended ended => exact .ended (keeps ended)
  | inHand hand =>
      rcases case.hasInHand hand with ⟨rfl, _⟩ | ⟨rfl, _, _, _, rfl⟩ | none |
        ⟨after, rfl, stillHand⟩
      · exact (succeeds rfl).elim
      · exact .ended (closes rfl rfl)
      · rcases ended_or_found with ended | running
        · exact .ended ended
        · rw [none] at running
          cases running
      · exact .inHand stillHand
  | unread member =>
      cases case with
      | staleFound => cases member
      | markedDead => exact .unread member
      | noOrphans read none =>
          rcases List.mem_cons.mp member with rfl | later
          · rcases ended_or_found with ended | running
            · exact .ended ended
            · have listed := Recovering.mem_orphans read running
              rw [none] at listed
              cases listed
          · exact nextWorker later
      | orphansFound read =>
          rcases List.mem_cons.mp member with rfl | later
          · rcases ended_or_found with ended | running
            · exact .ended ended
            · exact .inHand ⟨rfl, Recovering.mem_orphans read running⟩
          · exact .unread later
      | jobsFound => exact nextJob member
      | requeued => exact .unread member
      | closed => exact .unread member
      | published => exact nextJob member
      | skipped => exact (succeeds rfl).elim
      | ended => exact (succeeds rfl).elim

theorem step {call : CallId} {phase : ReapPhase} {row : JobExecution}
    (closing : Closing id row.workerId row.jobId state (some phase))
    (taken : Chronos.step env state action = some next)
    (reaping : state.reaping? call = some phase)
    (found : state.world.executions.get? id = some row)
    (succeeds : action.actor = some call → action.fails state = false)
    (goesOn : (next.reaping? call).isSome = true ∨
      action.actor = some call) :
    Closing id row.workerId row.jobId next (next.reaping? call) := by
  obtain ⟨row', found', sameJob, _, _, final⟩ := step_execution taken found
  have keeps : state.ended id → next.ended id := by
    rintro ⟨old, isOld, notRunning⟩
    cases found.symm.trans isOld
    exact ⟨row', found', final notRunning⟩
  by_cases own : action.actor = some call
  · obtain ⟨input, world, phase', rfl, case, _, now⟩ :=
      step_reap taken reaping own
    rw [now]
    refine closing.own_step case ?_ found keeps ?_
    · rintro rfl
      cases succeeds own
    · rintro rfl closes
      refine ⟨row', found', not_running_of_closed taken ?_ found' sameJob⟩
      simpa [Action.closesOrphans, reaping] using closes
  · obtain ⟨phase', now⟩ :=
      Option.isSome_iff_exists.mp (goesOn.resolve_right own)
    rw [now]
    rcases step_reaping taken now with
      same | ⟨absent, _⟩ | ⟨_, _, _, isOwn, _⟩
    · cases reaping.symm.trans same
      cases closing with
      | unread member => exact .unread member
      | inHand hand => exact .inHand hand
      | ended ended => exact .ended (keeps ended)
    · simp [State.reaping?, absent] at reaping
    · rw [isOwn] at own
      exact (own rfl).elim

end Closing

/-- The execution is there, and the cycle is on its way to it. -/
structure Approached (call : CallId) (id : ExecutionId) (worker : WorkerId)
    (job : JobId) (state : State) : Prop where
  row : ∃ row, state.world.executions.get? id = some row ∧
    row.workerId = worker ∧ row.jobId = job
  closing : Closing id worker job state (state.reaping? call)

theorem Approached.step {call : CallId} {id : ExecutionId} {worker : WorkerId}
    {job : JobId} (approached : Approached call id worker job state)
    (taken : Chronos.step env state action = some next)
    (reaping : (state.reaping? call).isSome = true)
    (succeeds : action.actor = some call → action.fails state = false)
    (goesOn : (next.reaping? call).isSome = true ∨
      action.actor = some call) :
    Approached call id worker job next := by
  obtain ⟨row, found, rfl, rfl⟩ := approached.row
  obtain ⟨row', found', sameJob, sameWorker, _⟩ := step_execution taken found
  obtain ⟨phase, isPhase⟩ := Option.isSome_iff_exists.mp reaping
  have closing := approached.closing
  rw [isPhase] at closing
  exact ⟨⟨row', found', sameWorker, sameJob⟩,
    closing.step taken isPhase found succeeds goesOn⟩

/-- The execution of a stale worker has ended when the cycle has. -/
theorem CompleteCycle.ended (scenario : CompleteCycle)
    (run : Run (step env) scenario.read.before scenario.steps
      scenario.finish.after)
    {id : ExecutionId} {row : JobExecution}
    (found : scenario.read.before.world.executions.get? id = some row)
    (stale : row.workerId ∈
      scenario.read.before.world.staleWorkers scenario.staleThreshold) :
    scenario.finish.after.ended id := by
  obtain ⟨_, reads, rest⟩ := run.of_cons
  obtain ⟨toFinish, finished, _⟩ := rest.around
  obtain ⟨row', found', sameJob, sameWorker, _⟩ := step_execution reads found
  -- The read puts the worker on the list of the cycle.
  have approached : Approached scenario.call id row.workerId row.jobId
      scenario.read.after := by
    refine ⟨⟨row', found', sameWorker, sameJob⟩, ?_⟩
    obtain ⟨input, world, phase', isRead, case, _, now⟩ :=
      step_reap reads scenario.begins scenario.reads
    rw [now]
    cases case with
    | staleFound read => exact Closing.nextWorker (read.mem_iff.mpr stale)
    | skipped current => cases current
    | ended =>
        have succeeds := scenario.succeeds _ (by simp) scenario.reads
        rw [isRead] at succeeds
        cases succeeds
  have atFinish := toFinish.invariant
    (fun state => Approached scenario.call id row.workerId row.jobId state ∧
      (state.reaping? scenario.call).isSome = true)
    (fun _ member => member)
    ⟨approached, scenario.goesOn _ (by simp)⟩
    (by
      rintro transition member taken ⟨approached, reaping⟩
      have goesOn := scenario.goesOn transition (by simp [member])
      refine ⟨approached.step taken reaping ?_ (.inl goesOn), goesOn⟩
      exact scenario.succeeds transition (by simp [member]))
  have final := atFinish.1.step finished atFinish.2
    (scenario.succeeds _ (by simp)) (.inr scenario.acts)
  have none : scenario.finish.after.reaping? scenario.call = none := by
    simp [State.reaping?, scenario.ends]
  have closing := final.closing
  rw [none] at closing
  cases closing with
  | ended ended => exact ended

theorem EndsExecution.of_step (run : Run (step env) start trace state)
    (initial : Initial start) (taken : step env state action = some next)
    {id : ExecutionId} {row : JobExecution}
    (found : state.world.executions.get? id = some row)
    (running : ¬state.ended id) (ended : next.ended id) :
    EndsExecution trace ⟨state, action, next⟩ id row.jobId := by
  refine ⟨running, ended, ?_⟩
  have isRunning : row.status = .running := by
    by_contra other
    exact running ⟨row, found, other⟩
  obtain ⟨row', found', notRunning⟩ := ended
  rcases step_executions taken with same | write
  · rw [same, found] at found'
    cases found'
    exact (notRunning isRunning).elim
  · generalize next.world.executions = executions at write found'
    cases write with
    | created _ _ inserted =>
        have fresh := (Table.insert?_eq_some_iff.mp inserted).1
        rw [Table.get?_insert? inserted] at found'
        split at found'
        · subst id
          rw [fresh] at found
          cases found
        · cases found.symm.trans found'
          exact (notRunning isRunning).elim
    | @closed call exec attempt status durationMs error called closes =>
        rw [Table.get?_modify, found] at found'
        split at found'
        · rename_i target
          exact .inl ⟨call, exec, attempt, _, rfl, called, closes, target.symm⟩
        · cases found'
          exact (notRunning isRunning).elim
    | @orphansClosed call owner worker workers job jobIds queueId called =>
        rw [World.closeExecutions, Table.get?_mapRows, found] at found'
        cases found'
        have target : row.jobId = job := by
          by_contra other
          simp [JobExecution.closeOrphan, other, isRunning] at notRunning
        have closes :
            (state.reaping? call).bind ReapPhase.closing = some job := by
          simp [State.reaping?, called, ReapPhase.closing]
        have requeued := closing_requeued run initial closes
        exact .inr ⟨call, rfl, target ▸ requeued⟩

end Recovered

end Chronos
