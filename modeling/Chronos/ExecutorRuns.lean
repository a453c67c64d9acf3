import Chronos.Attempts
import Chronos.Messages

/-!
# Runs of one `executeJob` call

The history of one call inside a run of the system: its own steps, what goes
on meanwhile, and the end of its process, which may come at any await.  From
it follows what the failing calls of `executeJob` do to the job row: the poller
logs a rejection (`worker/src/poller.ts`) and writes nothing.
-/

namespace Chronos

/-- How far a call of `executeJob` has come. -/
inductive Standing where
  | awaiting (phase : ExecPhase)
  | settled
  | stopped

namespace Standing

def call? (job : JobId) (worker : WorkerId) : Standing → Option Call
  | .awaiting phase => some (.exec ⟨job, worker, phase⟩)
  | _ => none

/-- Where a step of `executeJob` leaves its call. -/
def ofCall : Option ExecCall → Standing
  | some exec => .awaiting exec.phase
  | none => .settled

end Standing

/-- The run of one `executeJob` call, from its launch on. -/
inductive ExecRun (env : Env) (call : CallId) (job : JobId) (worker : WorkerId)
    (start : State) :
    List (Transition State Action) → State → Standing → Prop where
  | launched :
      start.calls call = some (.exec ⟨job, worker, .findJob⟩) →
      ExecRun env call job worker start [] start (.awaiting .findJob)
  | own {trace : List (Transition State Action)} {state next : State}
      {phase : ExecPhase} {input : ExecInput} {exec' : Option ExecCall} :
      ExecRun env call job worker start trace state (.awaiting phase) →
      step env state (.exec call input) = some next →
      ExecStep state.world ⟨job, worker, phase⟩ input next.world exec' →
      next.calls call = exec'.map .exec →
      ExecRun env call job worker start
        (trace ++ [⟨state, .exec call input, next⟩]) next (.ofCall exec')
  | meanwhile {trace : List (Transition State Action)} {state next : State}
      {standing : Standing} {action : Action} :
      ExecRun env call job worker start trace state standing →
      step env state action = some next →
      action.actor ≠ some call →
      next.calls call = state.calls call →
      ExecRun env call job worker start
        (trace ++ [⟨state, action, next⟩]) next standing
  | stopped {trace : List (Transition State Action)} {state next : State}
      {phase : ExecPhase} :
      ExecRun env call job worker start trace state (.awaiting phase) →
      step env state (.exit worker) = some next →
      next.calls call = none →
      ExecRun env call job worker start
        (trace ++ [⟨state, .exit worker, next⟩]) next .stopped

section Histories

variable {env : Env} {start last : State} {call : CallId} {job : JobId}
  {worker : WorkerId} {trace : List (Transition State Action)}
  {standing : Standing}

theorem ExecRun.run
    (history : ExecRun env call job worker start trace last standing) :
    Run (step env) start trace last := by
  induction history with
  | launched => exact .nil
  | own _ taken _ _ induction => exact .snoc induction taken
  | meanwhile _ taken _ _ induction => exact .snoc induction taken
  | stopped _ taken _ induction => exact .snoc induction taken

theorem ExecStep.same_call {world next : World} {exec : ExecCall}
    {input : ExecInput} {exec' : Option ExecCall}
    (case : ExecStep world exec input next exec') :
    exec'.map Call.exec =
      (Standing.ofCall exec').call? exec.jobId exec.workerId := by
  cases case <;> rfl

theorem ExecRun.calls
    (history : ExecRun env call job worker start trace last standing) :
    last.calls call = standing.call? job worker := by
  induction history with
  | launched called => exact called
  | own _ _ case called _ => exact called.trans case.same_call
  | meanwhile _ _ _ same induction => exact same.trans induction
  | stopped _ _ gone _ => exact gone

theorem step_actor_called {state next : State} {action : Action}
    (taken : step env state action = some next)
    (acting : action.actor = some call) :
    ∃ value, state.calls call = some value := by
  cases step_cases taken with
  | started starts => cases starts <;> cases acting
  | poll called =>
      cases acting
      exact ⟨_, called⟩
  | launched called =>
      cases acting
      exact ⟨_, called⟩
  | exec called =>
      cases acting
      exact ⟨_, called⟩
  | reap called =>
      cases acting
      exact ⟨_, called⟩
  | tick called =>
      cases acting
      exact ⟨_, called⟩
  | api called =>
      cases acting
      exact ⟨_, called⟩
  | _ => cases acting

theorem step_exit_calls {state next : State} {exiting : WorkerId}
    (taken : step env state (.exit exiting) = some next) {value : Call}
    (found : state.calls call = some value) :
    next.calls call =
      if value.worker = some exiting then none else some value := by
  cases step_cases taken with
  | exited =>
      simp only [State.exitWorker, State.belongs, found, Option.any_some,
        decide_eq_true_eq]
  | started starts => cases starts

/-- Every run in which the call is launched once is a run of that call. -/
theorem execRun_of_run (run : Run (step env) start trace last)
    (launched : start.calls call = some (.exec ⟨job, worker, .findJob⟩))
    (once : ∀ transition ∈ trace, transition.action.begins ≠ some call) :
    ∃ standing, ExecRun env call job worker start trace last standing := by
  induction run with
  | nil => exact ⟨_, .launched launched⟩
  | @snoc trace state next action _ taken induction =>
      rw [List.forall_mem_append, List.forall_mem_singleton] at once
      obtain ⟨standing, history⟩ := induction once.1
      have called := history.calls
      cases standing with
      | awaiting phase =>
          by_cases acting : action.actor = some call
          · cases step_acting taken acting called with
            | exec executes calls =>
                exact ⟨_, .own history taken (executeJob_cases executes) calls⟩
            | api handled =>
                cases handle_cases handled
          · cases exiting : action.exiting with
            | none =>
                have stays : action.exits = false := by
                  cases action <;> first | rfl | cases exiting
                exact ⟨_, .meanwhile history taken acting
                  ((step_keeps taken stays called acting).trans called.symm)⟩
            | some other =>
                cases Action.exiting_eq_some exiting
                have calls := step_exit_calls taken called
                by_cases same : worker = other
                · subst other
                  exact ⟨_, .stopped history taken (calls.trans (if_pos rfl))⟩
                · have kept : next.calls call = state.calls call := by
                    refine calls.trans ((if_neg ?_).trans called.symm)
                    intro isWorker
                    exact same (Option.some.inj isWorker)
                  exact ⟨_, .meanwhile history taken acting kept⟩
      | _ =>
          have idle : action.actor ≠ some call := by
            intro acting
            obtain ⟨value, found⟩ := step_actor_called taken acting
            exact absurd (called.symm.trans found) nofun
          exact ⟨_, .meanwhile history taken idle
            ((step_calls_none taken called once.2).trans called.symm)⟩

theorem ExecRun.stopped_exit
    (history : ExecRun env call job worker start trace last .stopped) :
    ∃ transition ∈ trace, transition.action.exiting = some worker := by
  generalize same : Standing.stopped = standing at history
  induction history with
  | launched => cases same
  | @own _ _ _ _ _ exec' => cases exec' <;> cases same
  | meanwhile _ _ _ _ induction =>
      exact List.exists_mem_snoc.mpr (.inl (induction same))
  | stopped => exact List.exists_mem_snoc.mpr (.inr rfl)

theorem settled_execRun_of_run (run : Run (step env) start trace last)
    (launched : start.calls call = some (.exec ⟨job, worker, .findJob⟩))
    (once : ∀ transition ∈ trace, transition.action.begins ≠ some call ∧
      transition.action.exiting ≠ some worker)
    (gone : last.calls call = none) :
    ExecRun env call job worker start trace last .settled := by
  obtain ⟨standing, history⟩ :=
    execRun_of_run run launched fun transition member => (once transition member).1
  cases standing with
  | awaiting => exact absurd (history.calls.symm.trans gone) nofun
  | settled => exact history
  | stopped =>
      obtain ⟨transition, member, exits⟩ := history.stopped_exit
      exact absurd exits (once transition member).2

end Histories

/-- The execution of this job by this worker has just been launched. -/
def State.justLaunched (state : State) (call : CallId) (job : JobId)
    (worker : WorkerId) : Bool :=
  match state.calls call with
  | some (.exec ⟨launched, owner, .findJob⟩) =>
      launched = job && owner = worker
  | _ => false

theorem State.justLaunched_iff {state : State} {call : CallId} {job : JobId}
    {worker : WorkerId} :
    state.justLaunched call job worker = true ↔
      state.calls call = some (.exec ⟨job, worker, .findJob⟩) := by
  unfold justLaunched
  split
  · rename_i launched owner called
    simp [called]
  · rename_i different
    constructor
    · intro impossible
      cases impossible
    · intro called
      exact (different _ _ called).elim

/-- The part of a run that begins after a launch is a run of that call. -/
theorem execRun_of_launch {env : Env} {first last : State} {call : CallId}
    {job : JobId} {worker : WorkerId} {trace : List (Transition State Action)}
    {position : Nat} {launch : Transition State Action}
    (run : Run (step env) first trace last)
    (isLaunch : launch ∈ (trace.drop position).head?)
    (launched : launch.after.justLaunched call job worker = true)
    (once : ∀ transition ∈ trace.drop (position + 1),
      transition.action.begins ≠ some call) :
    ∃ standing,
      Run (step env) first (trace.take position ++ [launch]) launch.after ∧
      ExecRun env call job worker launch.after (trace.drop (position + 1)) last
        standing := by
  rw [List.eq_take_append_cons isLaunch] at run
  obtain ⟨before, taken, later⟩ := run.around
  obtain ⟨standing, history⟩ :=
    execRun_of_run later (State.justLaunched_iff.mp launched) once
  exact ⟨standing, .snoc before taken, history⟩

/-! ## Where the job row is left -/

/-- What an attempt is to leave: the job is queued again or terminal. -/
def JobStatus.concluded (status : JobStatus) : Bool :=
  status = .queued || status = .completed || status = .deadLetter

/-- The status of the job at each await of its `executeJob` call. -/
def ExecPhase.Shows (status : JobStatus) : ExecPhase → Prop
  | .findJob => status = .claimed
  | .markRunning _ _ => status = .claimed
  | .publish _ _ => status.concluded = true
  | _ => status = .running

/-- The failure of this step is thrown outside of the `try` block, so that
`executeJob` rejects. -/
def Escapes (call : CallId) (transition : Transition State Action) : Prop :=
  ∃ exec error random,
    transition.before.calls call = some (.exec exec) ∧
    exec.phase.failureEscapes = true ∧
    transition.action = .exec call (.failed error random)

theorem Escapes.own {call : CallId} {transition : Transition State Action}
    (escapes : Escapes call transition) :
    transition.action.actor = some call := by
  obtain ⟨_, _, _, _, _, action⟩ := escapes
  rw [action]
  rfl

theorem Escapes.fails {call : CallId} {transition : Transition State Action}
    (escapes : Escapes call transition) :
    transition.action.fails transition.before = true := by
  obtain ⟨⟨_, _, phase⟩, _, _, called, escapes, action⟩ := escapes
  rw [action, Action.fails, called]
  cases phase <;> first | rfl | cases escapes

/-- The status of the job, as far as the call has come. -/
def Standing.Shows (escaped : Prop) (status : JobStatus) : Standing → Prop
  | .awaiting phase => ¬escaped ∧ phase.Shows status
  | .settled =>
      (escaped ∧ status.inFlight = true) ∨
        (¬escaped ∧ status.concluded = true)
  | .stopped => True

section Steps

variable {world next : World} {exec exec' : ExecCall} {input : ExecInput}
  {row : Job}

theorem ExecStep.row_continues
    (case : ExecStep world exec input next (some exec'))
    (found : world.jobs.get? exec.jobId = some row)
    (shows : exec.phase.Shows row.status) :
    ∃ row', next.jobs.get? exec.jobId = some row' ∧
      exec'.phase.Shows row'.status := by
  have written : ∀ {jobs : Table JobId Job} {update : Job → Job},
      jobs = world.jobs.modify exec.jobId update →
      jobs.get? exec.jobId = some (update row) := by
    rintro jobs update rfl
    rw [Table.get?_modify_self, found]
    rfl
  cases case with
  | marked => exact ⟨_, written rfl, rfl⟩
  | announced phase rows =>
      rw [phase] at shows
      exact ⟨row, by rw [rows.jobs, found], shows⟩
  | rejected phase =>
      have running : row.status = .running := by
        rcases phase with phase | ⟨_, phase⟩ <;> rwa [phase] at shows
      refine ⟨row, found, ?_⟩
      unfold handleFailure
      dsimp only
      split <;> exact running
  | completed => exact ⟨_, written rfl, rfl⟩
  | retried => exact ⟨_, written rfl, rfl⟩
  | deadLettered _ _ success =>
      obtain ⟨_, _, _, rfl⟩ := World.commitDeadLetter_spec success
      exact ⟨_, written rfl, rfl⟩
  | found phase =>
      rw [phase] at shows
      exact ⟨row, found, shows⟩
  | created phase =>
      rw [phase] at shows
      exact ⟨row, found, shows⟩
  | logged phase =>
      rw [phase] at shows
      exact ⟨row, found, shows⟩
  | resolved phase =>
      rw [phase] at shows
      exact ⟨row, found, shows⟩

/-- A failure that escapes leaves the job in flight; every other end of the
call comes after an outcome. -/
theorem ExecStep.row_ends (case : ExecStep world exec input next none)
    (found : world.jobs.get? exec.jobId = some row)
    (shows : exec.phase.Shows row.status) :
    next.jobs.get? exec.jobId = some row ∧
      ((exec.phase.failureEscapes = true ∧
          (∃ error random, input = .failed error random) ∧
          row.status.inFlight = true) ∨
        (exec.phase.failureEscapes = false ∧ row.status.concluded = true)) := by
  cases case with
  | jobMissing _ absent => exact absurd (absent.symm.trans found) nofun
  | published phase rows =>
      rw [phase] at shows ⊢
      exact ⟨by rw [rows.jobs, found], .inr ⟨rfl, shows⟩⟩
  | abandoned escapes =>
      refine ⟨found, .inl ⟨escapes, ⟨_, _, rfl⟩, ?_⟩⟩
      have either : row.status = .claimed ∨ row.status = .running := by
        cases shape : exec.phase <;> rw [shape] at shows escapes <;>
          first | exact .inl shows | exact .inr shows | cases escapes
      rcases either with claimed | running
      · rw [claimed]
        rfl
      · rw [running]
        rfl

theorem ExecStep.caught (case : ExecStep world exec input next (some exec'))
    (failed : ∃ error random, input = .failed error random) :
    exec.phase.failureEscapes = false := by
  obtain ⟨error, random, rfl⟩ := failed
  cases case with
  | announced phase => rw [phase]; rfl
  | rejected phase => rcases phase with phase | ⟨_, phase⟩ <;> rw [phase] <;> rfl

end Steps

section Histories

variable {env : Env} {start last : State} {call : CallId} {job : JobId}
  {worker : WorkerId} {trace : List (Transition State Action)}
  {standing : Standing} {row : Job}

/-- While nobody else writes the row of the job, its status follows the awaits
of the call. -/
theorem ExecRun.row_shows
    (history : ExecRun env call job worker start trace last standing)
    (found : start.world.jobs.get? job = some row)
    (claimed : row.status = .claimed)
    (alone : ∀ transition ∈ trace, transition.action.actor ≠ some call →
      transition.after.world.jobs.get? job =
        transition.before.world.jobs.get? job) :
    ∃ row', last.world.jobs.get? job = some row' ∧
      standing.Shows (∃ transition ∈ trace, Escapes call transition)
        row'.status := by
  induction history with
  | launched =>
      refine ⟨row, found, ?_, claimed⟩
      rintro ⟨_, member, _⟩
      cases member
  | @own trace state next phase input exec' history taken case _ induction =>
      rw [List.forall_mem_append, List.forall_mem_singleton] at alone
      obtain ⟨row', found', caught, shows⟩ := induction alone.1
      have called : state.calls call = some (.exec ⟨job, worker, phase⟩) :=
        history.calls
      cases exec' with
      | some exec' =>
          obtain ⟨row'', found'', shows'⟩ := case.row_continues found' shows
          refine ⟨row'', found'', ?_, shows'⟩
          rw [List.exists_mem_snoc]
          rintro (earlier | ⟨exec, error, random, isExec, escapes, same⟩)
          · exact caught earlier
          · cases called.symm.trans isExec
            cases same
            exact absurd (case.caught ⟨_, _, rfl⟩) (by simp [escapes])
      | none =>
          obtain ⟨found'', ended⟩ := case.row_ends found' shows
          refine ⟨row', found'', ?_⟩
          rw [List.exists_mem_snoc]
          rcases ended with ⟨escapes, ⟨error, random, rfl⟩, inFlight⟩ |
            ⟨inside, concluded⟩
          · exact .inl ⟨.inr ⟨_, _, _, called, escapes, rfl⟩, inFlight⟩
          · refine .inr ⟨?_, concluded⟩
            rintro (earlier | ⟨exec, error, random, isExec, escapes, _⟩)
            · exact caught earlier
            · cases called.symm.trans isExec
              exact absurd inside (by simp [escapes])
  | meanwhile history taken other _ induction =>
      rw [List.forall_mem_append, List.forall_mem_singleton] at alone
      obtain ⟨row', found', shows⟩ := induction alone.1
      refine ⟨row', (alone.2 other).trans found', ?_⟩
      rw [List.exists_mem_snoc]
      rwa [or_iff_left (fun escapes => other escapes.own)]
  | stopped history taken _ induction =>
      rw [List.forall_mem_append, List.forall_mem_singleton] at alone
      obtain ⟨row', found', shows⟩ := induction alone.1
      exact ⟨row', (alone.2 nofun).trans found', trivial⟩

/-- Once `executeJob` has settled, the job is queued again or terminal exactly
if no failure escaped its `try` block. -/
theorem settled_job_concluded_iff
    (history : ExecRun env call job worker start trace last .settled)
    (found : start.world.jobs.get? job = some row)
    (claimed : row.status = .claimed)
    (alone : ∀ transition ∈ trace, transition.action.actor ≠ some call →
      transition.after.world.jobs.get? job =
        transition.before.world.jobs.get? job) :
    (∃ row', last.world.jobs.get? job = some row' ∧
        row'.status.inFlight = false ∧ row'.status.concluded = true) ↔
      ¬∃ transition ∈ trace, Escapes call transition := by
  obtain ⟨row', found', shows⟩ := history.row_shows found claimed alone
  constructor
  · rintro ⟨row'', found'', landed, _⟩ escaped
    cases found'.symm.trans found''
    rcases shows with ⟨_, inFlight⟩ | ⟨caught, _⟩
    · rw [landed] at inFlight
      cases inFlight
    · exact caught escaped
  · intro caught
    rcases shows with ⟨escaped, _⟩ | ⟨_, concluded⟩
    · exact (caught escaped).elim
    · refine ⟨row', found', ?_, concluded⟩
      cases status : row'.status <;> rw [status] at concluded <;>
        first | rfl | cases concluded

end Histories

/-- Worker 1 has claimed job 7 and launched its execution as call 2. -/
def State.launched : State where
  world := World.sample 1 ⟨[(7, Job.sample .claimed)], by simp⟩
  calls := fun call =>
    if call = 2 then some (.exec ⟨7, 1, .findJob⟩) else none

/-- The first attempt fails and the job is queued again. -/
theorem settled_job_concluded_retried :
    ∃ trace last,
      ExecRun .sample 2 7 1 State.launched trace last .settled ∧
      ∃ row, last.world.jobs.get? 7 = some row ∧
        row.status.inFlight = false ∧ row.status.concluded = true := by
  obtain ⟨trace, last, run, once, own, gone, inside⟩ :=
    exists_run_of_check (step .sample) State.launched
      [.exec 2 .ok, .exec 2 .ok, .exec 2 .ok, .exec 2 (.created 0),
        .exec 2 (.failed "refused" .zero), .exec 2 .ok, .exec 2 .ok]
      (fun trace last =>
        (∀ transition ∈ trace, transition.action.begins ≠ some 2 ∧
          transition.action.exiting ≠ some 1) ∧
        (∀ transition ∈ trace, transition.action.actor = some 2) ∧
        (last.calls 2).isNone = true ∧
        ∀ transition ∈ trace,
          transition.action.fails transition.before = false)
      (by decide)
  have history := settled_execRun_of_run run rfl once
    (Option.isNone_iff_eq_none.mp gone)
  refine ⟨trace, last, history, (settled_job_concluded_iff history rfl rfl
    fun transition member other => absurd (own transition member) other).mpr ?_⟩
  rintro ⟨transition, member, escapes⟩
  exact absurd escapes.fails (by simp [inside transition member])

/-- The transaction that schedules the retry fails: the worker runs on, and the
job stays `running`. -/
theorem failed_retry_wedges_job :
    ∃ trace last row,
      ExecRun .sample 2 7 1 State.launched trace last .settled ∧
      (∀ transition ∈ trace, transition.action.actor = some 2) ∧
      last.world.process 1 = some .running ∧
      last.world.jobs.get? 7 = some row ∧ row.status = .running := by
  obtain ⟨trace, last, run, once, own, gone, alive, running⟩ :=
    exists_run_of_check (step .sample) State.launched
      [.exec 2 .ok, .exec 2 .ok, .exec 2 .ok, .exec 2 (.created 0),
        .exec 2 (.failed "refused" .zero), .exec 2 (.failed "timeout" .zero)]
      (fun trace last =>
        (∀ transition ∈ trace, transition.action.begins ≠ some 2 ∧
          transition.action.exiting ≠ some 1) ∧
        (∀ transition ∈ trace, transition.action.actor = some 2) ∧
        (last.calls 2).isNone = true ∧
        last.world.process 1 = some .running ∧
        last.status? 7 = some .running)
      (by decide)
  have history := settled_execRun_of_run run rfl once
    (Option.isNone_iff_eq_none.mp gone)
  obtain ⟨row, found, isRunning⟩ := Option.map_eq_some_iff.mp running
  exact ⟨trace, last, row, history, own, alive, found, isRunning⟩

end Chronos
