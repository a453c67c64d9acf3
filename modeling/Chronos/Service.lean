import Chronos.Locks
import Chronos.Ownership

/-!
# Serving claimed jobs

What the worker program can do while nothing fails: a call that has a job in
flight in hand can be stepped until the attempt is over.  Nothing else changes
that other jobs depend on, and what other calls have in hand stays in hand.
-/

namespace Chronos

/-- The steps of the worker program. -/
def Action.works : Action → Bool
  | .startPoll _ _ => true
  | .poll _ _ => true
  | .launch _ _ => true
  | .exec _ _ => true
  | .startReap _ _ => true
  | .reap _ _ => true
  | .startTick _ _ => true
  | .tick _ _ => true
  | _ => false

/-- Worker steps lead from one state to the other. -/
abbrev Works (env : Env) : State → State → Prop :=
  Reaches (step env) fun transition => transition.action.works = true

/-- What holds of every state of every run: row locks belong to open claims,
and there are finitely many calls. -/
structure Regular (state : State) : Prop where
  locks : LockInv state
  calls : ∃ bound, ∀ call, bound ≤ call → state.calls call = none

namespace Regular

variable {env : Env} {start last state next : State} {action : Action}
  {trace : List (Transition State Action)}

theorem initial (initial : Initial start) : Regular start :=
  ⟨.initial initial, 0, fun call _ => initial.calls call⟩

theorem step (regular : Regular state)
    (taken : Chronos.step env state action = some next) : Regular next := by
  obtain ⟨bound, none⟩ := regular.calls
  refine ⟨regular.locks.step taken, ?_⟩
  cases begun : action.begins with
  | none =>
      refine ⟨bound, fun call large => ?_⟩
      exact step_calls_none taken (none call large) (by simp [begun])
  | some new =>
      refine ⟨max bound (new + 1), fun call large => ?_⟩
      have old : bound ≤ call := (le_max_left ..).trans large
      have apart : new < call :=
        (Nat.lt_succ_self new).trans_le ((le_max_right ..).trans large)
      exact step_calls_none taken (none call old) (by simp [begun, apart.ne])

theorem run (run : Run (Chronos.step env) start trace last)
    (initial : Initial start) : Regular last := by
  have always : ∀ transition ∈ trace, True := fun _ _ => trivial
  exact run.invariant Regular always (.initial initial)
    fun _ _ taken regular => regular.step taken

theorem works (regular : Regular state) (works : Works env state last) :
    Regular last :=
  works.invariant Regular regular fun _ _ taken before => before.step taken

theorem fresh (regular : Regular state) :
    ∃ call, state.calls call = none := by
  obtain ⟨bound, none⟩ := regular.calls
  exact ⟨bound, none bound le_rfl⟩

/-- Only queued rows are locked, so a job in flight can be written. -/
theorem writable (regular : Regular state) {job : JobId} {row : Job}
    (found : state.world.jobs.get? job = some row)
    (inFlight : row.status.inFlight = true) :
    state.world.writable job = true := by
  cases lock : state.world.locks job with
  | none => simp [World.writable, found, lock]
  | some call =>
      obtain ⟨tx, isOpen, member⟩ := (regular.locks.locks_iff job call).mp lock
      obtain ⟨row', found', queued, _⟩ :=
        (regular.locks.sound call tx isOpen).rows job member
      cases found.symm.trans found'
      rw [queued] at inFlight
      cases inFlight

end Regular

/-- What one job's attempt changes: nothing outside of the job. -/
structure Spares (job : JobId) (world next : World) : Prop where
  now : next.now = world.now
  queues : next.queues = world.queues
  process : next.process = world.process
  locks : next.locks = world.locks
  jobs : ∀ {other}, other ≠ job → next.jobs.get? other = world.jobs.get? other
  deadLetters : ∀ {other}, other ≠ job →
    next.deadLetters.get? other = world.deadLetters.get? other

namespace Spares

variable {job : JobId} {world middle next : World}

theorem refl (job : JobId) (world : World) : Spares job world world :=
  ⟨rfl, rfl, rfl, rfl, fun _ => rfl, fun _ => rfl⟩

theorem trans (left : Spares job world middle)
    (right : Spares job middle next) : Spares job world next where
  now := right.now.trans left.now
  queues := right.queues.trans left.queues
  process := right.process.trans left.process
  locks := right.locks.trans left.locks
  jobs different := (right.jobs different).trans (left.jobs different)
  deadLetters different :=
    (right.deadLetters different).trans (left.deadLetters different)

theorem updateJob (job : JobId) (world : World) (update : Job → Job) :
    Spares job world (world.updateJob job update) := by
  refine ⟨rfl, rfl, rfl, rfl, ?_, fun _ => rfl⟩
  intro other different
  simp [World.get?_updateJob, different]

end Spares

/-- The call can be stepped, with nothing else taking part, until the status
of the job satisfies a condition. -/
def Finishes (env : Env) (call : CallId) (job : JobId)
    (ended : JobStatus → Prop) (state : State) : Prop :=
  ∃ last, Works env state last ∧ Spares job state.world last.world ∧
    (∀ other, other ≠ call → last.calls other = state.calls other) ∧
    ∃ row, last.world.jobs.get? job = some row ∧ ended row.status

namespace Finishes

variable {env : Env} {state : State} {call : CallId} {job : JobId}
  {worker : WorkerId} {ended : JobStatus → Prop}

theorem mono {weaker : JobStatus → Prop}
    (finishes : Finishes env call job ended state)
    (implies : ∀ status, ended status → weaker status) :
    Finishes env call job weaker state := by
  obtain ⟨last, works, spares, calls, row, found, isEnded⟩ := finishes
  exact ⟨last, works, spares, calls, row, found, implies _ isEnded⟩

theorem step {exec : ExecCall} {input : ExecInput} {world : World}
    {exec' : Option ExecCall}
    (called : state.calls call = some (.exec exec))
    (result : executeJob state.world exec input = some (world, exec'))
    (spares : Spares job state.world world)
    (rest : Finishes env call job ended
      ⟨world, Function.update state.calls call (exec'.map .exec)⟩) :
    Finishes env call job ended state := by
  obtain ⟨last, works, restSpares, calls, ending⟩ := rest
  have taken : Chronos.step env state (.exec call input) =
      some ⟨world, Function.update state.calls call (exec'.map .exec)⟩ := by
    simp [Chronos.step, called, State.resume, result]
  have first : Works env state _ := Reaches.single taken rfl
  refine ⟨last, first.trans works, spares.trans restSpares, ?_, ending⟩
  intro other different
  rw [calls other different]
  exact Function.update_of_ne different ..

theorem last {exec : ExecCall} {world : World} {exec' : Option ExecCall}
    {update : Job → Job} (called : state.calls call = some (.exec exec))
    (writable : state.world.writable job = true)
    (result : executeJob state.world exec .ok = some (world, exec'))
    (spares : Spares job state.world world)
    (jobs : world.jobs = (state.world.updateJob job update).jobs)
    (isEnded : ∀ row, ended (update row).status) :
    Finishes env call job ended state := by
  refine .step called result spares
    ⟨_, .refl _, .refl _ _, fun _ _ => rfl, ?_⟩
  simp only [World.writable, Bool.and_eq_true, Option.isSome_iff_exists]
    at writable
  obtain ⟨⟨row, found⟩, _⟩ := writable
  refine ⟨update row, ?_, isEnded row⟩
  change world.jobs.get? job = _
  rw [jobs, World.get?_updateJob, found]
  simp

theorem of_complete {attempt : Attempt} {durationMs : Int}
    (called : state.calls call =
      some (.exec ⟨job, worker, .complete attempt durationMs⟩))
    (writable : state.world.writable job = true) :
    Finishes env call job (· = .completed) state := by
  have result : executeJob state.world
      ⟨job, worker, .complete attempt durationMs⟩ .ok =
        some (state.world.commitCompleted job attempt durationMs,
          some ⟨job, worker, .publish attempt.job "completed"⟩) :=
    if_pos writable
  have spares := Spares.updateJob job state.world
    (Job.complete state.world.now)
  exact .last called writable result ⟨rfl, rfl, rfl, rfl, spares.jobs,
    fun _ => rfl⟩ rfl fun _ => rfl

theorem of_handler {attempt : Attempt}
    (called : state.calls call = some (.exec ⟨job, worker, .handler attempt⟩))
    (writable : state.world.writable job = true) :
    Finishes env call job (· = .completed) state := by
  have result : executeJob state.world ⟨job, worker, .handler attempt⟩
      .resolved = some (state.world, some ⟨job, worker,
        .complete attempt (state.world.now - attempt.startedAt)⟩) := rfl
  exact .step called result (.refl _ _)
    (of_complete (Function.update_self ..) writable)

theorem of_createExecution {snapshot : Job} {policy : RetryPolicy}
    (called : state.calls call =
      some (.exec ⟨job, worker, .createExecution snapshot policy⟩))
    (writable : state.world.writable job = true) :
    Finishes env call job (· = .completed) state := by
  obtain ⟨id, fresh⟩ := state.world.executions.exists_fresh
  obtain ⟨executions, inserted⟩ := Table.exists_insert?
    { jobId := job, workerId := worker
      attemptNumber := snapshot.attemptCount + 1
      startedAt := state.world.now, finishedAt := none, status := .running
      errorMessage := none, durationMs := none : JobExecution } fresh
  have result : executeJob state.world
      ⟨job, worker, .createExecution snapshot policy⟩ (.created id) =
        some ({ state.world with executions := executions },
          some ⟨job, worker,
            .handler ⟨snapshot, policy, id, state.world.now, []⟩⟩) :=
    Option.map_eq_some_iff.mpr ⟨executions, inserted, rfl⟩
  exact .step called result ⟨rfl, rfl, rfl, rfl, fun _ => rfl, fun _ => rfl⟩
    (of_handler (Function.update_self ..) writable)

theorem of_publishRunning {snapshot : Job} {policy : RetryPolicy}
    (called : state.calls call =
      some (.exec ⟨job, worker, .publishRunning snapshot policy⟩))
    (writable : state.world.writable job = true) :
    Finishes env call job (· = .completed) state := by
  have result : executeJob state.world
      ⟨job, worker, .publishRunning snapshot policy⟩ .ok =
        some (state.world.publishTransition job snapshot.queueId "running",
          some ⟨job, worker, .createExecution snapshot policy⟩) := rfl
  exact .step called result ⟨rfl, rfl, rfl, rfl, fun _ => rfl, fun _ => rfl⟩
    (of_createExecution (Function.update_self ..) writable)

theorem of_markRunning {snapshot : Job} {policy : RetryPolicy}
    (called : state.calls call =
      some (.exec ⟨job, worker, .markRunning snapshot policy⟩))
    (writable : state.world.writable job = true) :
    Finishes env call job (· = .completed) state := by
  have result : executeJob state.world
      ⟨job, worker, .markRunning snapshot policy⟩ .ok =
        some (state.world.updateJob job (Job.markRunning state.world.now),
          some ⟨job, worker, .publishRunning snapshot policy⟩) :=
    if_pos writable
  refine .step called result (.updateJob job state.world _)
    (of_publishRunning (Function.update_self ..) ?_)
  have same := World.get?_updateJob state.world job job
    (Job.markRunning state.world.now)
  simp only [World.writable, same, Option.isSome_map]
  exact writable

theorem of_findJob
    (called : state.calls call = some (.exec ⟨job, worker, .findJob⟩))
    (writable : state.world.writable job = true) :
    Finishes env call job (· = .completed) state := by
  have present := writable
  simp only [World.writable, Bool.and_eq_true, Option.isSome_iff_exists]
    at present
  obtain ⟨⟨row, found⟩, _⟩ := present
  have result : executeJob state.world ⟨job, worker, .findJob⟩ .ok =
      some (state.world, some ⟨job, worker,
        .markRunning row (state.world.retryPolicyOf row)⟩) := by
    unfold executeJob
    dsimp only
    rw [found]
  exact .step called result (.refl _ _)
    (of_markRunning (Function.update_self ..) writable)

theorem of_retry {attempt : Attempt} {failure : Failure} {delayMs : Int}
    {runAt : Time}
    (called : state.calls call =
      some (.exec ⟨job, worker, .retry attempt failure delayMs runAt⟩))
    (writable : state.world.writable job = true) :
    Finishes env call job (· = .queued) state := by
  have result : executeJob state.world
      ⟨job, worker, .retry attempt failure delayMs runAt⟩ .ok =
        some (state.world.commitRetry job attempt failure delayMs runAt,
          some ⟨job, worker, .publish attempt.job "failed_retrying"⟩) :=
    if_pos writable
  have spares := Spares.updateJob job state.world
    (Job.requeueForRetry attempt.number runAt state.world.now)
  exact .last called writable result ⟨rfl, rfl, rfl, rfl, spares.jobs,
    fun _ => rfl⟩ rfl fun _ => rfl

theorem of_deadLetter {attempt : Attempt} {failure : Failure}
    (called : state.calls call =
      some (.exec ⟨job, worker, .deadLetter attempt failure⟩))
    (writable : state.world.writable job = true)
    (noDeadLetter : state.world.deadLetters.get? job = none) :
    Finishes env call job (· = .deadLetter) state := by
  obtain ⟨next, success⟩ :=
    World.exists_commitDeadLetter noDeadLetter attempt failure
  have result : executeJob state.world
      ⟨job, worker, .deadLetter attempt failure⟩ .ok =
        some (next, some ⟨job, worker, .publish attempt.job "dead_letter"⟩) :=
    (if_pos writable).trans
      (Option.map_eq_some_iff.mpr ⟨next, success, rfl⟩)
  obtain ⟨letters, logs, isInserted, rfl⟩ :=
    World.commitDeadLetter_spec success
  have spares := Spares.updateJob job state.world
    (Job.moveToDeadLetter attempt.number state.world.now)
  refine .last called writable result ⟨rfl, rfl, rfl, rfl, spares.jobs, ?_⟩ rfl
    fun _ => rfl
  intro other different
  exact (Table.get?_insert? isInserted).trans (if_neg different)

end Finishes

/-! ## Jobs in hand -/

/-- The attempt has failed for good. -/
def ExecPhase.buries : ExecPhase → Bool
  | .deadLetter _ _ => true
  | _ => false

/-- The call has the job in hand and can bring its attempt to an end. -/
def Call.carries (world : World) (job : JobId) : Call → Prop
  | .poll cycle =>
      job ∈ cycle.phase.claimedIds ∧ world.stopping cycle.workerId = false
  | .exec running =>
      running.jobId = job ∧ running.phase.owns = true ∧
        (running.phase.buries = true → world.deadLetters.get? job = none)
  | _ => False

/-- Some call has the job in hand and can bring its attempt to an end. -/
def State.carries (state : State) (job : JobId) : Prop :=
  ∃ call value, state.calls call = some value ∧ value.carries state.world job

theorem Call.carries_congr {world next : World} {job : JobId} {value : Call}
    (process : next.process = world.process)
    (deadLetters : next.deadLetters.get? job = world.deadLetters.get? job)
    (carries : value.carries world job) : value.carries next job := by
  cases value with
  | poll cycle =>
      refine ⟨carries.1, ?_⟩
      have running := carries.2
      simpa [World.stopping, process] using running
  | exec running =>
      refine ⟨carries.1, carries.2.1, ?_⟩
      rw [deadLetters]
      exact carries.2.2
  | _ => cases carries

section Serving

variable {env : Env} {state : State} {job : JobId} {row : Job}

/-- Serving the job has ended its attempt, and nobody else has lost a job. -/
def Served (job : JobId) (state last : State) : Prop :=
  Spares job state.world last.world ∧
    (∀ other, other ≠ job → state.carries other → last.carries other) ∧
    ∃ row, last.world.jobs.get? job = some row ∧ row.status.inFlight = false

private theorem finishes_exec {call : CallId} {exec : ExecCall}
    (called : state.calls call = some (.exec exec))
    (carries : (Call.exec exec).carries state.world job)
    (writable : state.world.writable job = true) :
    Finishes env call job (fun status => status.inFlight = false) state := by
  obtain ⟨target, worker, phase⟩ := exec
  obtain ⟨rfl, owns, noDeadLetter⟩ := carries
  have completed : Finishes env call target (· = .completed) state →
      Finishes env call target (fun status => status.inFlight = false) state :=
    fun finishes => finishes.mono (by rintro status rfl; rfl)
  cases phase with
  | findJob => exact completed (.of_findJob called writable)
  | markRunning => exact completed (.of_markRunning called writable)
  | publishRunning => exact completed (.of_publishRunning called writable)
  | createExecution => exact completed (.of_createExecution called writable)
  | handler => exact completed (.of_handler called writable)
  | complete => exact completed (.of_complete called writable)
  | retry =>
      exact (Finishes.of_retry called writable).mono (by rintro status rfl; rfl)
  | deadLetter =>
      exact (Finishes.of_deadLetter called writable (noDeadLetter rfl)).mono
        (by rintro status rfl; rfl)
  | publish => cases owns

private theorem serve_exec {call : CallId} {exec : ExecCall}
    (called : state.calls call = some (.exec exec))
    (carries : (Call.exec exec).carries state.world job)
    (writable : state.world.writable job = true) :
    ∃ last, Works env state last ∧ Served job state last := by
  obtain ⟨last, works, spares, calls, ending⟩ :=
    finishes_exec called carries writable
  refine ⟨last, works, spares, ?_, ending⟩
  rintro other different ⟨holder, value, found, held⟩
  refine ⟨holder, value, ?_, Call.carries_congr spares.process
    (spares.deadLetters different) held⟩
  rw [calls, found]
  rintro rfl
  cases called.symm.trans found
  exact different (held.1.symm.trans carries.1)

theorem step_launch (env : Env) {cycle exec : CallId} {worker : WorkerId}
    {rest : List QueueRef} {next : JobId} {ids : List JobId}
    (called : state.calls cycle =
      some (.poll ⟨worker, .launching rest (next :: ids)⟩))
    (running : state.world.stopping worker = false)
    (fresh : state.calls exec = none) :
    ∃ after, step env state (.launch cycle exec) = some after ∧
      after.world = state.world ∧
      after.calls cycle = some (.poll ⟨worker, .launching rest ids⟩) ∧
      after.calls exec = some (.exec ⟨next, worker, .findJob⟩) ∧
      ∀ other, other ≠ cycle → other ≠ exec →
        after.calls other = state.calls other := by
  have different : cycle ≠ exec := by
    rintro rfl
    rw [called] at fresh
    cases fresh
  refine ⟨(state.set cycle
      (some (.poll ⟨worker, .launching rest ids⟩))).set exec
      (some (.exec ⟨next, worker, .findJob⟩)), ?_, rfl, ?_, ?_, ?_⟩
  · simp [step, launch, called, running, State.start, State.set,
      Ne.symm different, fresh]
  · simp [State.set, different]
  · simp [State.set]
  · intro other notCycle notExec
    simp [State.set, notCycle, notExec]

/-- A job that a poll cycle has claimed is launched after those before it. -/
private theorem serve_poll {cycle : CallId} {worker : WorkerId}
    {rest : List QueueRef} {ids : List JobId} (regular : Regular state)
    (called : state.calls cycle = some (.poll ⟨worker, .launching rest ids⟩))
    (running : state.world.stopping worker = false) (member : job ∈ ids)
    (writable : state.world.writable job = true) :
    ∃ last, Works env state last ∧ Served job state last := by
  induction ids generalizing state with
  | nil => cases member
  | cons next ids induction =>
      obtain ⟨exec, fresh⟩ := regular.fresh
      obtain ⟨after, taken, world, isCycle, isExec, others⟩ :=
        step_launch env called running fresh
      have carried : ∀ other, state.carries other → after.carries other := by
        rintro other ⟨holder, value, found, held⟩
        rw [State.carries, world]
        by_cases sameCycle : holder = cycle
        · subst holder
          cases called.symm.trans found
          rcases List.mem_cons.mp held.1 with rfl | later
          · refine ⟨exec, _, isExec, rfl, rfl, ?_⟩
            intro buries
            cases buries
          · exact ⟨cycle, _, isCycle, later, running⟩
        · refine ⟨holder, value, ?_, held⟩
          rw [others holder sameCycle, found]
          rintro rfl
          rw [fresh] at found
          cases found
      have begin : Works env state after := Reaches.single taken rfl
      have ending : ∃ last, Works env after last ∧ Served job after last := by
        rcases List.mem_cons.mp member with rfl | later
        · refine serve_exec isExec ⟨rfl, rfl, ?_⟩ (by rwa [world])
          intro buries
          cases buries
        · exact induction (regular.step taken) isCycle (by rwa [world]) later
            (by rwa [world])
      obtain ⟨last, works, spares, kept, ended⟩ := ending
      refine ⟨last, begin.trans works, by rwa [world] at spares, ?_, ended⟩
      intro other different held
      exact kept other different (carried other held)

/-- A job in flight that is in hand can be served. -/
theorem serve (env : Env) (regular : Regular state)
    (found : state.world.jobs.get? job = some row)
    (inFlight : row.status.inFlight = true) (carries : state.carries job) :
    ∃ last, Works env state last ∧ Served job state last := by
  have writable := regular.writable found inFlight
  obtain ⟨call, value, called, held⟩ := carries
  cases value with
  | poll cycle =>
      obtain ⟨worker, phase⟩ := cycle
      cases phase with
      | launching => exact serve_poll regular called held.2 held.1 writable
      | _ => cases held.1
  | exec => exact serve_exec called held writable
  | _ => cases held

end Serving

end Chronos
