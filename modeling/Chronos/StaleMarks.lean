import Chronos.CrashRecovery
import Chronos.PartialReap
import Mathlib.Data.List.DropRight

/-!
# Who is declared dead

A reap cycle reads the stale workers once and marks them one after the other,
with the requeues of the earlier ones in between, and the update names the
worker by its id alone.  What the cycle saw is still true at the mark if and
only if nobody has written the row of the worker in the meantime, except for
heartbeats that are stale by then.
-/

namespace Chronos

namespace ReapPhase

/-- The workers that the cycle is still to mark. -/
def listed : ReapPhase → List WorkerId
  | .findStale _ => []
  | .markDead worker workers => worker :: workers
  | .findExecutions _ workers => workers
  | .findJobs _ workers _ => workers
  | .requeue _ workers _ _ => workers
  | .closeExecutions _ workers _ _ _ => workers
  | .publish _ workers _ _ _ => workers

end ReapPhase

namespace Action

/-- The worker whose heartbeat commits in this step. -/
def beats : Action → Option WorkerId
  | .heartbeat worker => some worker
  | _ => none

/-- The worker whose row leaves `active` in this step, if it is. -/
def leavesActive (state : State) (action : Action) : Option WorkerId :=
  (action.marksDead state).or action.shutsDown

end Action

/-- This cycle reads the stale workers. -/
def readsStaleWorkers (call : CallId) (transition : Transition State Action) :
    Bool :=
  decide (transition.action.actor = some call) &&
    (transition.before.reaping? call).any ReapPhase.readsStale

/-- What has happened since the cycle's last read of the stale workers. -/
def sinceRead (call : CallId) (trace : List (Transition State Action)) :
    List (Transition State Action) :=
  trace.rtakeWhile fun transition => !readsStaleWorkers call transition

/-- The step does not take the worker out of `active`, and if it commits a
heartbeat of the worker, then one from before this instant. -/
structure LeavesStale (worker : WorkerId) (bound : Time)
    (transition : Transition State Action) : Prop where
  status : transition.action.leavesActive transition.before ≠ some worker
  heartbeat : transition.action.beats = some worker →
    transition.before.world.now < bound

instance (worker : WorkerId) (bound : Time)
    (transition : Transition State Action) :
    Decidable (LeavesStale worker bound transition) :=
  decidable_of_iff
    (transition.action.leavesActive transition.before ≠ some worker ∧
      (transition.action.beats = some worker →
        transition.before.world.now < bound))
    ⟨fun both => ⟨both.1, both.2⟩, fun leaves => ⟨leaves.status, leaves.heartbeat⟩⟩

/-- The instant before which a heartbeat is older than the TTL now. -/
def State.staleThreshold (env : Env) (state : State) : Time :=
  state.world.now - env.heartbeatTtlSeconds * 1000

/-- What the row of a worker says about the steps since the read, of which the
threshold is this. -/
structure ReadSince (env : Env) (state : State) (worker : WorkerId)
    (between : List (Transition State Action)) (row : Worker)
    (threshold : Time) : Prop where
  found : state.world.workers.get? worker = some row
  past : threshold ≤ state.staleThreshold env
  active : row.status = .active ↔ ∀ transition ∈ between,
    transition.action.leavesActive transition.before ≠ some worker
  heartbeat : ∀ {bound : Time}, threshold ≤ bound →
    (row.lastHeartbeatAt < bound ↔ ∀ transition ∈ between,
      transition.action.beats = some worker →
      transition.before.world.now < bound)

section Steps

variable {env : Env} {start last state next : State} {action : Action}
  {call : CallId} {worker : WorkerId}
  {trace : List (Transition State Action)}

theorem sinceRead_snoc (trace : List (Transition State Action))
    (transition : Transition State Action) :
    sinceRead call (trace ++ [transition]) =
      if readsStaleWorkers call transition then []
      else sinceRead call trace ++ [transition] := by
  unfold sinceRead
  rw [List.rtakeWhile_concat]
  cases readsStaleWorkers call transition <;> rfl

theorem step_heartbeat (taken : step env state action = some next)
    {row row' : Worker}
    (found : state.world.workers.get? worker = some row)
    (found' : next.world.workers.get? worker = some row') :
    row'.lastHeartbeatAt =
      if action.beats = some worker then state.world.now
      else row.lastHeartbeatAt := by
  split
  · rename_i beats
    cases step_cases taken with
    | heartbeat =>
        cases beats
        rw [World.recordHeartbeat, Table.get?_modify_self, found] at found'
        cases found'
        rfl
    | started starts => cases starts <;> cases beats
    | _ => cases beats
  · rename_i silent
    obtain ⟨row'', found'', change⟩ := step_worker taken found
    cases found'.symm.trans found''
    rcases change with rfl | write
    · rfl
    · cases write with
      | heartbeat => exact (silent rfl).elim
      | leave => rfl

theorem leavesActive_eq_some_iff :
    action.leavesActive state = some worker ↔
      action.marksDead state = some worker ∨
        action.shutsDown = some worker := by
  cases action with
  | drain => simp [Action.leavesActive, Action.marksDead]
  | retire => simp [Action.leavesActive, Action.marksDead]
  | _ => simp [Action.leavesActive, Action.shutsDown]

theorem workerStatus?_setWorkerStatus {status : WorkerStatus} {row : Worker}
    (found : state.world.workers.get? worker = some row)
    (world : next.world = state.world.setWorkerStatus worker status) :
    next.workerStatus? worker = some status := by
  rw [State.workerStatus?, world, World.setWorkerStatus, Table.get?_modify_self,
    found]
  rfl

theorem left_of_leavesActive (taken : step env state action = some next)
    {row : Worker}
    (found : state.world.workers.get? worker = some row)
    (leaves : action.leavesActive state = some worker) :
    next.workerStatus? worker ≠ some .active := by
  have left : ∀ {status : WorkerStatus}, status ≠ .active →
      next.world = state.world.setWorkerStatus worker status →
      next.workerStatus? worker ≠ some .active := by
    intro status inactive world
    rw [workerStatus?_setWorkerStatus found world]
    exact fun same => inactive (Option.some.inj same)
  rcases leavesActive_eq_some_iff.mp leaves with marks | shutsDown
  · obtain ⟨cycle, workers, rfl, reaping⟩ := marksDead_eq_some marks
    obtain ⟨input, world, phase', same, case, sameWorld, _⟩ :=
      step_reap taken reaping rfl
    cases same
    cases case with
    | markedDead => exact left (by decide) sameWorld
  · cases action with
    | drain =>
        cases shutsDown
        cases step_cases taken with
        | drained => exact left (by decide) rfl
        | started starts => cases starts
    | retire =>
        cases shutsDown
        cases step_cases taken with
        | retired => exact left (by decide) rfl
        | started starts => cases starts
    | _ => cases shutsDown

theorem step_leavesActive (taken : step env state action = some next)
    {row row' : Worker}
    (found : state.world.workers.get? worker = some row)
    (found' : next.world.workers.get? worker = some row') :
    row'.status = .active ↔
      row.status = .active ∧ action.leavesActive state ≠ some worker := by
  have known : state.workerStatus? worker = some row.status := by
    rw [State.workerStatus?, found]
    rfl
  have known' : next.workerStatus? worker = some row'.status := by
    rw [State.workerStatus?, found']
    rfl
  constructor
  · intro active
    refine ⟨?_, ?_⟩
    · by_contra left
      obtain ⟨status, after, still⟩ := step_workerStatus taken known left
      rw [known', active] at after
      exact still (Option.some.inj after).symm
    · intro leaves
      exact left_of_leavesActive taken found leaves (known'.trans (by rw [active]))
  · rintro ⟨active, stays⟩
    rw [active] at known
    rcases step_active taken known with same | marks | shutsDown
    · exact Option.some.inj (known'.symm.trans same)
    · exact (stays (leavesActive_eq_some_iff.mpr (.inl marks))).elim
    · exact (stays (leavesActive_eq_some_iff.mpr (.inr shutsDown))).elim

theorem ReadSince.read {threshold : Time}
    (stale : worker ∈ state.world.staleWorkers threshold)
    (past : threshold ≤ state.staleThreshold env) :
    ∃ row, ReadSince env state worker [] row threshold := by
  obtain ⟨row, found, holds⟩ := Table.mem_keysWhere.mp stale
  simp only [Bool.and_eq_true, decide_eq_true_eq] at holds
  refine ⟨row, found, past, ?_, ?_⟩
  · exact ⟨fun _ => List.forall_mem_nil _, fun _ => holds.1⟩
  · intro bound le
    exact ⟨fun _ => List.forall_mem_nil _, fun _ => lt_of_lt_of_le holds.2 le⟩

theorem ReadSince.step {between : List (Transition State Action)}
    {row : Worker} {threshold : Time}
    (since : ReadSince env state worker between row threshold)
    (past : ∀ transition ∈ between,
      transition.before.world.now ≤ state.world.now)
    (taken : Chronos.step env state action = some next) :
    ∃ row', ReadSince env next worker (between ++ [⟨state, action, next⟩]) row'
      threshold := by
  obtain ⟨row', found', _⟩ := step_worker taken since.found
  have now := step_now taken
  refine ⟨row', found', ?_, ?_, ?_⟩
  · have same := since.past
    unfold State.staleThreshold at same ⊢
    exact same.trans (Int.sub_le_sub_right now _)
  · rw [step_leavesActive taken since.found found', since.active,
      List.forall_mem_append, List.forall_mem_singleton]
  · intro bound le
    rw [step_heartbeat taken since.found found', List.forall_mem_append,
      List.forall_mem_singleton]
    split
    · rename_i beats
      constructor
      · intro fresh
        refine ⟨?_, fun _ => fresh⟩
        intro transition member _
        exact lt_of_le_of_lt (past transition member) fresh
      · exact fun ⟨_, fresh⟩ => fresh beats
    · rename_i silent
      rw [since.heartbeat le]
      exact ⟨fun all => ⟨all, fun beats => (silent beats).elim⟩, And.left⟩

theorem listed_nextWorker {workers : List WorkerId} {phase : ReapPhase}
    (isNext : ReapPhase.nextWorker workers = some phase) :
    phase.listed = workers := by
  cases workers with
  | nil => cases isNext
  | cons => cases isNext; rfl

theorem listed_nextJob {workers : List WorkerId} {jobIds : List JobId}
    {phase : ReapPhase}
    (isNext : ReapPhase.nextJob worker workers jobIds = some phase) :
    phase.listed = workers := by
  cases jobIds with
  | nil => exact listed_nextWorker isNext
  | cons => cases isNext; rfl

/-- A cycle marks only workers that it has read. -/
theorem ReapStep.listed {world next : World} {phase phase' : ReapPhase}
    {input : ReapInput} (case : ReapStep world phase input next (some phase'))
    (member : worker ∈ phase'.listed) :
    (worker ∈ phase.listed ∧ phase.readsStale = false) ∨
      ∃ threshold, phase = .findStale threshold ∧ next = world ∧
        worker ∈ world.staleWorkers threshold := by
  generalize isNext : some phase' = result at case
  cases case with
  | @staleFound threshold order read =>
      rw [listed_nextWorker isNext.symm] at member
      exact .inr ⟨threshold, rfl, rfl, read.mem_iff.mp member⟩
  | markedDead =>
      cases isNext
      exact .inl ⟨List.mem_cons_of_mem _ member, rfl⟩
  | noOrphans =>
      rw [listed_nextWorker isNext.symm] at member
      exact .inl ⟨member, rfl⟩
  | orphansFound => cases isNext; exact .inl ⟨member, rfl⟩
  | jobsFound =>
      rw [listed_nextJob isNext.symm] at member
      exact .inl ⟨member, rfl⟩
  | requeued => cases isNext; exact .inl ⟨member, rfl⟩
  | closed => cases isNext; exact .inl ⟨member, rfl⟩
  | published =>
      rw [listed_nextJob isNext.symm] at member
      exact .inl ⟨member, rfl⟩
  | skipped current =>
      rw [listed_nextJob isNext.symm] at member
      left
      cases phase with
      | requeue => cases current; exact ⟨member, rfl⟩
      | closeExecutions => cases current; exact ⟨member, rfl⟩
      | publish => cases current; exact ⟨member, rfl⟩
      | findStale => cases current
      | markDead => cases current
      | findExecutions => cases current
      | findJobs => cases current
  | ended => cases isNext

theorem ReapStep.not_findStale {world next : World} {phase : ReapPhase}
    {input : ReapInput} {threshold : Time} :
    ¬ReapStep world phase input next (some (.findStale threshold)) := by
  intro case
  have notNextWorker : ∀ {workers : List WorkerId},
      ReapPhase.nextWorker workers ≠ some (.findStale threshold) := by
    intro workers
    cases workers <;> exact nofun
  have notNextJob : ∀ {worker : WorkerId} {workers : List WorkerId}
      {jobIds : List JobId},
      ReapPhase.nextJob worker workers jobIds ≠ some (.findStale threshold) := by
    intro worker workers jobIds
    cases jobIds with
    | nil => exact notNextWorker
    | cons => exact nofun
  generalize isNext : some (ReapPhase.findStale threshold) = result at case
  cases case with
  | staleFound => exact notNextWorker isNext.symm
  | noOrphans => exact notNextWorker isNext.symm
  | jobsFound => exact notNextJob isNext.symm
  | published => exact notNextJob isNext.symm
  | skipped => exact notNextJob isNext.symm
  | _ => cases isNext

/-- A cycle takes its threshold when it begins. -/
theorem step_findStale (taken : step env state action = some next)
    {threshold : Time}
    (reaping : next.reaping? call = some (.findStale threshold)) :
    state.reaping? call = some (.findStale threshold) ∨
      threshold = state.staleThreshold env := by
  unfold State.reaping? at reaping
  split at reaping <;> cases reaping
  rename_i owner present
  generalize same : Call.reap ⟨owner, .findStale threshold⟩ = value at present
  cases step_call taken present with
  | kept called =>
      left
      simp [State.reaping?, called, ← same]
  | started starts =>
      cases starts with
      | reap =>
          cases same
          exact .inr rfl
      | request =>
          rename_i request
          cases request <;> cases same
      | _ => cases same
  | reap _ case =>
      cases same
      exact case.not_findStale.elim
  | api _ case =>
      subst same
      cases case.requests.2
  | _ => cases same

/-- How a cycle has come to the workers that it is to mark. -/
structure ListsStale (env : Env) (call : CallId)
    (trace : List (Transition State Action)) (state : State) : Prop where
  reads : ∀ {threshold : Time},
    state.reaping? call = some (.findStale threshold) →
    threshold ≤ state.staleThreshold env
  listed : ∀ {phase : ReapPhase} {worker : WorkerId},
    state.reaping? call = some phase → worker ∈ phase.listed →
    ∃ row threshold,
      ReadSince env state worker (sinceRead call trace) row threshold
  past : ∀ transition ∈ trace, transition.before.world.now ≤ state.world.now

theorem listsStale_of_run (run : Run (step env) start trace last)
    (initial : Initial start) : ListsStale env call trace last := by
  induction run with
  | nil =>
      constructor
      · intro threshold reaping
        simp [State.reaping?, initial.calls] at reaping
      · intro phase worker reaping
        simp [State.reaping?, initial.calls] at reaping
      · exact List.forall_mem_nil _
  | @snoc trace state next action run taken inv =>
      have now := step_now taken
      have past : ∀ call, ∀ transition ∈ sinceRead call trace,
          transition.before.world.now ≤ state.world.now :=
        fun _ transition member =>
          inv.past transition ((List.rtakeWhile_suffix _ _).subset member)
      constructor
      · intro threshold reaping
        rcases step_findStale taken reaping with kept | rfl
        · exact (inv.reads kept).trans (Int.sub_le_sub_right now _)
        · exact Int.sub_le_sub_right now _
      · intro phase' worker reaping member
        rw [sinceRead_snoc]
        rcases step_reaping taken reaping with
          kept | ⟨_, _, rfl⟩ | ⟨phase, input, world, rfl, was, case, same⟩
        · have notRead : phase'.readsStale = false := by
            cases phase' with
            | findStale => cases member
            | _ => rfl
          have other : readsStaleWorkers call ⟨state, action, next⟩ = false := by
            simp [readsStaleWorkers, kept, notRead]
          obtain ⟨row, threshold, since⟩ := inv.listed kept member
          obtain ⟨row', since'⟩ := since.step (past call) taken
          rw [if_neg (by simp [other])]
          exact ⟨row', threshold, since'⟩
        · cases member
        · rcases case.listed member with
            ⟨before, notRead⟩ | ⟨threshold, rfl, rfl, stale⟩
          · have other : readsStaleWorkers call
                ⟨state, .reap call input, next⟩ = false := by
              simp [readsStaleWorkers, was, notRead]
            obtain ⟨row, threshold, since⟩ := inv.listed was before
            obtain ⟨row', since'⟩ := since.step (past call) taken
            rw [if_neg (by simp [other])]
            exact ⟨row', threshold, since'⟩
          · have reads : readsStaleWorkers call
                ⟨state, .reap call input, next⟩ = true := by
              simp [readsStaleWorkers, was, ReapPhase.readsStale, Action.actor]
            rw [if_pos reads]
            rw [← same] at stale
            have passed := inv.reads was
            rw [State.staleThreshold, ← same] at passed
            obtain ⟨row, since⟩ := ReadSince.read stale passed
            exact ⟨row, threshold, since⟩
      · exact List.forall_mem_snoc
          (fun transition member => (inv.past transition member).trans now) now

/-- A cycle declares only a stale worker dead, one that is still `active` and
whose last heartbeat is older than the TTL, if and only if since its read
nobody has taken the worker out of `active`, and no heartbeat of it has
committed that is younger. -/
theorem marked_stale_iff (run : Run (step env) start trace last)
    (initial : Initial start)
    {earlier later : List (Transition State Action)}
    {mark : Transition State Action} (shape : trace = earlier ++ mark :: later)
    (acting : mark.action.actor = some call)
    (marks : mark.action.marksDead mark.before = some worker) :
    worker ∈ mark.before.world.staleWorkers (mark.before.staleThreshold env) ↔
      ∀ transition ∈ sinceRead call earlier,
        LeavesStale worker (mark.before.staleThreshold env) transition := by
  subst shape
  obtain ⟨before, _, _⟩ := run.around
  obtain ⟨cycle, workers, isReap, reaping⟩ := marksDead_eq_some marks
  rw [isReap] at acting
  cases acting
  obtain ⟨row, threshold, since⟩ :=
    (listsStale_of_run before initial).listed reaping List.mem_cons_self
  have sees : worker ∈ mark.before.world.staleWorkers
      (mark.before.staleThreshold env) ↔ row.status = .active ∧
        row.lastHeartbeatAt < mark.before.staleThreshold env := by
    rw [World.staleWorkers, Table.mem_keysWhere]
    simp [since.found]
  rw [sees, since.active, since.heartbeat since.past]
  constructor
  · rintro ⟨active, heartbeats⟩ transition member
    exact ⟨active transition member, heartbeats transition member⟩
  · intro leaves
    exact ⟨fun transition member => (leaves transition member).status,
      fun transition member => (leaves transition member).heartbeat⟩

/-- A heartbeat of worker 1 commits after the read, and is itself too old when
the cycle marks the worker. -/
theorem marked_stale_late :
    ∃ earlier mark later last,
      Run (Chronos.step .sample) (World.sample 1 .empty).idle
        (earlier ++ mark :: later) last ∧
      mark.action.marksDead mark.before = some 1 ∧
      (sinceRead 3 earlier).length = 2 ∧
      1 ∈ mark.before.world.staleWorkers
        (mark.before.staleThreshold .sample) := by
  obtain ⟨trace, last, run, mark, isMark, acting, marks, beats, leaves⟩ :=
    exists_run_of_check (Chronos.step .sample) (World.sample 1 .empty).idle
      [.advance 20000, .heartbeat 2, .startReap 3 2, .reap 3 (.rows [1]),
        .heartbeat 1, .advance 40000, .reap 3 .ok]
      (fun trace _ => ∃ mark ∈ (trace.drop 6).head?,
        mark.action.actor = some 3 ∧
        mark.action.marksDead mark.before = some 1 ∧
        (sinceRead 3 (trace.take 6)).length = 2 ∧
        ∀ transition ∈ sinceRead 3 (trace.take 6),
          LeavesStale 1 (mark.before.staleThreshold .sample) transition)
      (by decide)
  have shape := List.eq_take_append_cons isMark
  exact ⟨_, mark, _, last, shape ▸ run, marks, beats,
    (marked_stale_iff run (World.idle_initial fun _ => rfl) shape acting
      marks).mpr leaves⟩

/-- A heartbeat of worker 1 commits between the read and the mark. -/
theorem live_worker_marked :
    ¬∀ (env : Env) (start last : State) (worker : WorkerId)
      (earlier later : List (Transition State Action))
      (mark : Transition State Action),
      Run (Chronos.step env) start (earlier ++ mark :: later) last →
      Initial start → mark.action.marksDead mark.before = some worker →
      worker ∈ mark.before.world.staleWorkers
        (mark.before.staleThreshold env) := by
  intro stale
  obtain ⟨trace, last, run, mark, isMark, marks, fresh⟩ :=
    exists_run_of_check (Chronos.step .sample) (World.sample 1 .empty).idle
      [.advance 20000, .heartbeat 2, .startReap 3 2, .reap 3 (.rows [1]),
        .heartbeat 1, .reap 3 .ok]
      (fun trace _ => ∃ mark ∈ (trace.drop 5).head?,
        mark.action.marksDead mark.before = some 1 ∧
        1 ∉ mark.before.world.staleWorkers
          (mark.before.staleThreshold .sample))
      (by decide)
  have shape := List.eq_take_append_cons isMark
  exact fresh (stale .sample _ last 1 _ _ mark (shape ▸ run)
    (World.idle_initial fun _ => rfl) marks)

end Steps

end Chronos
