import Chronos.Attempts
import Chronos.Lib.Simulation

/-!
# The history of an execution row

Who writes a row of `job_executions` in a run of the whole system: the
`executeJob` call that creates it, a reap cycle that may close it, and that
call once more, which may close it over what the reap cycle wrote.  What the
columns say at any time is what this history makes of them.
-/

namespace Chronos

/-- A write of an execution row. -/
inductive ExecutionEvent where
  | created
  | reaped
  | closed (status : ExecutionStatus)
  deriving DecidableEq

/-- How far an execution has got, as its row tells.  A completed execution is
late if a reap cycle had closed it before. -/
inductive ExecutionStage where
  | absent
  | running
  | reaped
  | completed (late : Bool)
  | failed
  deriving DecidableEq

/-- The writes there may be, and where they lead. -/
inductive StageStep : ExecutionStage → ExecutionEvent → ExecutionStage → Prop where
  | created : StageStep .absent .created .running
  | reaped : StageStep .running .reaped .reaped
  | completed : StageStep .running (.closed .completed) (.completed false)
  | completedLate : StageStep .reaped (.closed .completed) (.completed true)
  | failed : StageStep .running (.closed .failed) .failed
  | failedLate : StageStep .reaped (.closed .failed) .failed

namespace ExecutionStage

/-- The histories that lead to a stage. -/
def histories : ExecutionStage → List (List ExecutionEvent)
  | absent => [[]]
  | running => [[.created]]
  | reaped => [[.created, .reaped]]
  | completed false => [[.created, .closed .completed]]
  | completed true => [[.created, .reaped, .closed .completed]]
  | failed =>
      [[.created, .closed .failed], [.created, .reaped, .closed .failed]]

theorem mem_histories {events : List ExecutionEvent} {stage : ExecutionStage}
    (path : LabelledPath StageStep absent events stage) :
    events ∈ stage.histories := by
  induction path with
  | nil => exact List.mem_singleton_self _
  | snoc _ taken ih =>
      cases taken <;>
        simp only [histories, List.mem_cons, List.not_mem_nil, or_false] at ih ⊢
          <;> subst ih <;> simp

end ExecutionStage

namespace JobExecution

def stage (row : JobExecution) : ExecutionStage :=
  match row.status, row.durationMs with
  | .running, _ => .running
  | .completed, _ => .completed row.errorMessage.isSome
  | .failed, none => .reaped
  | .failed, some _ => .failed

/-- The error text of a reap cycle. -/
def diedMessage (worker : WorkerId) : String :=
  s!"Worker {worker} died (stale heartbeat)"

/-- The columns of the row fit each other and the clock. -/
structure Sound (now : Time) (row : JobExecution) : Prop where
  started : row.startedAt ≤ now
  finished : row.finishedAt.isNone ↔ row.status = .running
  inOrder : ∀ instant ∈ row.finishedAt,
    row.startedAt ≤ instant ∧ instant ≤ now
  measured : ∀ durationMs ∈ row.durationMs, 0 ≤ durationMs ∧
    ∃ instant ∈ row.finishedAt, row.startedAt + durationMs ≤ instant
  running : row.status = .running →
    row.durationMs = none ∧ row.errorMessage = none
  completed : row.status = .completed → row.durationMs.isSome ∧
    ∀ text ∈ row.errorMessage, ∃ worker, text = diedMessage worker
  failed : row.status = .failed → row.errorMessage.isSome
  reaped : row.status = .failed → row.durationMs = none →
    ∃ worker, row.errorMessage = some (diedMessage worker)

/-- What never changes of a row. -/
def identity (row : JobExecution) : JobId × WorkerId × Nat × Time :=
  (row.jobId, row.workerId, row.attemptNumber, row.startedAt)

end JobExecution

def State.executionStage (state : State) (id : ExecutionId) : ExecutionStage :=
  match state.world.executions.get? id with
  | none => .absent
  | some row => row.stage

/-- The write of this execution row by a step of `executeJob`. -/
def ExecCall.executionEvent (exec : ExecCall) (id : ExecutionId) :
    ExecInput → Option ExecutionEvent
  | .created other =>
      if exec.phase matches .createExecution _ _ ∧ other = id then
        some .created
      else none
  | .ok =>
      exec.phase.closes.bind fun closing =>
        if closing.1.execution = id then some (.closed closing.2.1) else none
  | _ => none

/-- The write of this execution row by a step of `reap`. -/
def ReapPhase.executionEvent (world : World) (id : ExecutionId) :
    ReapPhase → ReapInput → Option ExecutionEvent
  | .closeExecutions _ _ job _ _, .ok =>
      (world.executions.get? id).bind fun row =>
        if row.jobId = job ∧ row.status = .running then some .reaped else none
  | _, _ => none

/-- The write of this execution row by an action. -/
def Action.executionEvent (state : State) (id : ExecutionId)
    (action : Action) : Option ExecutionEvent :=
  match action with
  | .exec call input =>
      (match state.calls call with
      | some (.exec value) => value.executionEvent id input
      | _ => none)
  | .reap call input =>
      (match state.calls call with
      | some (.reap cycle) => cycle.phase.executionEvent state.world id input
      | _ => none)
  | _ => none

/-- The writes of an execution row in a run, from first to last. -/
def executionEvents (id : ExecutionId)
    (trace : List (Transition State Action)) : List ExecutionEvent :=
  trace.filterMap fun transition =>
    transition.action.executionEvent transition.before id

/-! ## One step -/

/-- The row of an execution after a step. -/
inductive RowWrite (state : State) (id : ExecutionId) :
    Action → Option ExecutionEvent → Option JobExecution → Prop where
  | kept {action : Action} :
      RowWrite state id action none (state.world.executions.get? id)
  | created {call : CallId} {exec : ExecCall} {snapshot : Job}
      {policy : RetryPolicy} :
      state.calls call = some (.exec exec) →
      exec.phase = .createExecution snapshot policy →
      state.world.executions.get? id = none →
      RowWrite state id (.exec call (.created id)) (some .created)
        (some
          { jobId := exec.jobId, workerId := exec.workerId
            attemptNumber := snapshot.attemptCount + 1
            startedAt := state.world.now, finishedAt := none
            status := .running, errorMessage := none
            durationMs := none })
  | closed {call : CallId} {exec : ExecCall} {attempt : Attempt}
      {status : ExecutionStatus} {durationMs : Int} {error : Option String} :
      state.calls call = some (.exec exec) →
      exec.phase.closes = some (attempt, status, durationMs, error) →
      attempt.execution = id →
      RowWrite state id (.exec call .ok) (some (.closed status))
        ((state.world.executions.get? id).map
          (JobExecution.finish status state.world.now durationMs error))
  | reaped {call : CallId} {worker : WorkerId} {row : JobExecution} :
      state.world.executions.get? id = some row →
      row.status = .running →
      RowWrite state id (.reap call .ok) (some .reaped)
        (some
          { row with
            status := .failed, finishedAt := some state.world.now
            errorMessage := some (JobExecution.diedMessage worker) })

section Steps

variable {env : Env} {start state next last : State} {action : Action}
  {trace : List (Transition State Action)}

theorem ExecStep.rowWrite {call : CallId} {exec : ExecCall}
    {input : ExecInput} {world : World} {exec' : Option ExecCall}
    (called : state.calls call = some (.exec exec))
    (case : ExecStep state.world exec input world exec') (id : ExecutionId) :
    RowWrite state id (.exec call input) (exec.executionEvent id input)
      (world.executions.get? id) := by
  have closes : ∀ {attempt status durationMs error},
      exec.phase.closes = some (attempt, status, durationMs, error) →
      world.executions = state.world.executions.modify attempt.execution
        (JobExecution.finish status state.world.now durationMs error) →
      RowWrite state id (.exec call .ok) (exec.executionEvent id .ok)
        (world.executions.get? id) := by
    intro attempt status durationMs error closes written
    rw [written, Table.get?_modify]
    simp only [ExecCall.executionEvent, closes, Option.bind_some]
    by_cases own : attempt.execution = id
    · rw [if_pos own]
      simp only [own, if_true]
      exact .closed called closes own
    · rw [if_neg own]
      simp only [Ne.symm own, if_false, Option.map_id']
      exact .kept
  have keeps : world.executions = state.world.executions →
      (∀ snapshot policy, exec.phase ≠ .createExecution snapshot policy) →
      exec.phase.closes = none →
      RowWrite state id (.exec call input) (exec.executionEvent id input)
        (world.executions.get? id) := by
    intro same notCreating notClosing
    have silent : exec.executionEvent id input = none := by
      cases input with
      | created other =>
          dsimp only [ExecCall.executionEvent]
          rw [if_neg]
          rintro ⟨creating, _⟩
          split at creating
          · exact notCreating _ _ ‹_›
          · cases creating
      | ok => simp only [ExecCall.executionEvent, notClosing, Option.bind_none]
      | _ => rfl
    rw [same, silent]
    exact .kept
  cases case with
  | @created snapshot policy other executions phase inserted =>
      dsimp only [ExecCall.executionEvent]
      rw [Table.get?_insert? inserted]
      by_cases own : other = id
      · subst other
        rw [if_pos rfl, if_pos ⟨by rw [phase], rfl⟩]
        exact .created called phase (Table.insert?_eq_some_iff.mp inserted).1
      · rw [if_neg (Ne.symm own), if_neg fun both => own both.2]
        exact .kept
  | completed phase => exact closes (by rw [phase]; rfl) rfl
  | retried phase => exact closes (by rw [phase]; rfl) rfl
  | deadLettered phase _ success =>
      obtain ⟨_, _, _, rfl⟩ := World.commitDeadLetter_spec success
      exact closes (by rw [phase]; rfl) rfl
  | announced phase rows =>
      exact keeps rows.executions (by simp [phase]) (by rw [phase]; rfl)
  | published phase rows =>
      exact keeps rows.executions (by simp [phase]) (by rw [phase]; rfl)
  | jobMissing phase => exact keeps rfl (by simp [phase]) (by rw [phase]; rfl)
  | found phase => exact keeps rfl (by simp [phase]) (by rw [phase]; rfl)
  | marked phase => exact keeps rfl (by simp [phase]) (by rw [phase]; rfl)
  | _ => exact .kept

theorem ReapStep.rowWrite {call : CallId} {phase : ReapPhase}
    {input : ReapInput} {world : World} {phase' : Option ReapPhase}
    (case : ReapStep state.world phase input world phase')
    (id : ExecutionId) :
    RowWrite state id (.reap call input)
      (phase.executionEvent state.world id input)
      (world.executions.get? id) := by
  cases case with
  | @closed worker workers job jobIds queueId =>
      have kept := @RowWrite.kept state id (.reap call .ok)
      simp only [ReapPhase.executionEvent, World.closeExecutions,
        Table.get?_mapRows]
      cases found : state.world.executions.get? id with
      | none =>
          rw [found] at kept
          exact kept
      | some row =>
          simp only [Option.bind_some, Option.map_some,
            JobExecution.closeOrphan]
          by_cases orphan : row.jobId = job ∧ row.status = .running
          · rw [if_pos orphan, if_pos orphan]
            exact .reaped found orphan.2
          · rw [if_neg orphan, if_neg orphan, ← found]
            exact kept
  | published rows =>
      rw [rows.executions]
      exact .kept
  | @skipped phase =>
      cases phase <;> exact .kept
  | @ended phase =>
      cases phase <;> exact .kept
  | _ => exact .kept

theorem step_rowWrite (taken : step env state action = some next)
    (id : ExecutionId) :
    RowWrite state id action (action.executionEvent state id)
      (next.world.executions.get? id) := by
  cases step_cases taken with
  | registered success =>
      obtain ⟨workers, _, rfl⟩ := World.registerWorker_eq_some success
      exact .kept
  | started starts => cases starts <;> exact .kept
  | poll _ case =>
      rw [case.frame]
      exact .kept
  | exec called case =>
      simp only [Action.executionEvent, called]
      exact case.rowWrite called id
  | reap called case =>
      simp only [Action.executionEvent, called]
      exact case.rowWrite id
  | tick _ case =>
      rw [case.frame]
      exact .kept
  | api _ case =>
      rw [case.frame]
      exact .kept
  | _ => exact .kept

theorem ExecStep.attempt_started {world world' : World} {exec exec' : ExecCall}
    {input : ExecInput} {attempt : Attempt}
    (case : ExecStep world exec input world' (some exec'))
    (current : exec'.phase.attempt? = some attempt) :
    (∃ before, exec.phase.attempt? = some before ∧
      before.execution = attempt.execution ∧
      before.startedAt = attempt.startedAt) ∨
    (world.executions.get? attempt.execution = none ∧
      ∃ row, world'.executions.get? attempt.execution = some row ∧
        row.durationMs = none ∧ row.startedAt = attempt.startedAt) := by
  cases case with
  | created phase inserted =>
      cases current
      have absent := (Table.insert?_eq_some_iff.mp inserted).1
      have found := (Table.get?_insert? inserted).trans (if_pos rfl)
      exact .inr ⟨absent, _, found, rfl, rfl⟩
  | @logged before _ _ phase =>
      cases current
      exact .inl ⟨before, by rw [phase]; rfl, rfl, rfl⟩
  | resolved phase =>
      cases current
      exact .inl ⟨attempt, by rw [phase]; rfl, rfl, rfl⟩
  | @rejected before error random phase =>
      have same : before.execution = attempt.execution ∧
          before.startedAt = attempt.startedAt := by
        simp only [handleFailure] at current
        split at current <;> cases current <;> exact ⟨rfl, rfl⟩
      rcases phase with phase | ⟨_, phase⟩ <;>
        exact .inl ⟨before, by rw [phase]; rfl, same⟩
  | _ => cases current

/-- The transaction that closes the row is the last thing a call does with
it. -/
theorem ExecStep.attempt_closed {world world' : World} {exec exec' : ExecCall}
    {closing : Attempt × ExecutionStatus × Int × Option String}
    (case : ExecStep world exec .ok world' (some exec'))
    (closes : exec.phase.closes = some closing) :
    exec'.phase.attempt? = none := by
  cases case with
  | completed => rfl
  | retried => rfl
  | deadLettered => rfl
  | found phase =>
      rw [phase] at closes
      cases closes
  | marked phase =>
      rw [phase] at closes
      cases closes
  | announced => rfl

theorem ExecStep.measures {world world' : World} {exec exec' : ExecCall}
    {input : ExecInput} {attempt : Attempt} {status : ExecutionStatus}
    {durationMs : Int} {error : Option String}
    (case : ExecStep world exec input world' (some exec'))
    (closes : exec'.phase.closes = some (attempt, status, durationMs, error)) :
    ∃ before, exec.phase.attempt? = some before ∧
      before.startedAt = attempt.startedAt ∧
      durationMs = world.now - attempt.startedAt := by
  cases case with
  | resolved phase =>
      cases closes
      exact ⟨attempt, by rw [phase]; rfl, rfl, rfl⟩
  | @rejected before error' random phase =>
      have same : before = attempt ∧
          durationMs = world.now - before.startedAt := by
        simp only [handleFailure] at closes
        split at closes <;> cases closes <;> exact ⟨rfl, rfl⟩
      obtain ⟨rfl, measured⟩ := same
      rcases phase with phase | ⟨_, phase⟩ <;>
        exact ⟨before, by rw [phase]; rfl, rfl, measured⟩
  | _ => cases closes

theorem step_attempt (taken : step env state action = some next)
    {call : CallId} {exec' : ExecCall} {attempt : Attempt}
    (found : next.calls call = some (.exec exec'))
    (current : exec'.phase.attempt? = some attempt) :
    (∃ exec before, state.calls call = some (.exec exec) ∧
      exec.phase.attempt? = some before ∧
      before.execution = attempt.execution ∧
      before.startedAt = attempt.startedAt) ∨
    ((∃ input, action = .exec call input) ∧
      state.world.executions.get? attempt.execution = none ∧
      ∃ row, next.world.executions.get? attempt.execution = some row ∧
        row.durationMs = none ∧ row.startedAt = attempt.startedAt) := by
  generalize same : Call.exec exec' = value at found
  cases step_call taken found with
  | kept old =>
      subst same
      exact .inl ⟨exec', attempt, old, current, rfl, rfl⟩
  | started starts =>
      cases starts with
      | request =>
          rename_i request
          cases request <;> cases same
      | _ => cases same
  | launched =>
      cases same
      cases current
  | exec old case world =>
      cases same
      subst world
      rcases case.attempt_started current with
        ⟨before, earlier, sameRow⟩ | created
      · exact .inl ⟨_, before, old, earlier, sameRow⟩
      · exact .inr ⟨⟨_, rfl⟩, created⟩
  | api old case =>
      subst same
      cases case.requests.2
  | _ => cases same

end Steps

/-! ## The columns of a row -/

namespace JobExecution

variable {row : JobExecution} {now later : Time}

theorem Sound.mono (sound : row.Sound now) (le : now ≤ later) :
    row.Sound later where
  started := sound.started.trans le
  finished := sound.finished
  inOrder instant finished :=
    ⟨(sound.inOrder instant finished).1,
      (sound.inOrder instant finished).2.trans le⟩
  measured := sound.measured
  running := sound.running
  completed := sound.completed
  failed := sound.failed
  reaped := sound.reaped

theorem Sound.status_of_open (sound : row.Sound now)
    (unmeasured : row.durationMs = none) :
    row.status = .running ∧ row.stage = .running ∧ row.errorMessage = none ∨
      row.status = .failed ∧ row.stage = .reaped ∧
        ∃ worker, row.errorMessage = some (diedMessage worker) := by
  cases status : row.status with
  | running =>
      exact .inl ⟨rfl, by rw [stage, status], (sound.running status).2⟩
  | completed =>
      have measured := (sound.completed status).1
      rw [unmeasured] at measured
      cases measured
  | failed =>
      exact .inr ⟨rfl, by rw [stage, status, unmeasured],
        sound.reaped status unmeasured⟩

theorem Sound.reap (sound : row.Sound now) (running : row.status = .running)
    (worker : WorkerId) :
    ({ row with
      status := .failed, finishedAt := some now
      errorMessage := some (diedMessage worker) } : JobExecution).Sound now := by
  have unmeasured := (sound.running running).1
  refine ⟨sound.started, by simp, ?_, ?_, by simp, by simp, by simp, ?_⟩
  · intro instant finished
    cases finished
    exact ⟨sound.started, le_refl _⟩
  · intro durationMs measured
    rw [show durationMs ∈ row.durationMs ↔ row.durationMs = some durationMs
      from Iff.rfl, unmeasured] at measured
    cases measured
  · intro _ _
    exact ⟨worker, rfl⟩

theorem Sound.finish {status : ExecutionStatus} {durationMs : Int}
    {error : Option String} (sound : row.Sound now)
    (unmeasured : row.durationMs = none) (notNegative : 0 ≤ durationMs)
    (passed : row.startedAt + durationMs ≤ now)
    (outcome : status = .completed ∧ error = none ∨
      status = .failed ∧ error.isSome = true) :
    (row.finish status now durationMs error).Sound now := by
  refine ⟨sound.started, ?_, ?_, ?_, ?_, ?_, ?_, ?_⟩
  · rcases outcome with ⟨rfl, _⟩ | ⟨rfl, _⟩ <;> simp [JobExecution.finish]
  · intro instant finished
    cases finished
    exact ⟨sound.started, le_refl _⟩
  · intro other measured
    cases measured
    exact ⟨notNegative, now, rfl, passed⟩
  · rcases outcome with ⟨rfl, _⟩ | ⟨rfl, _⟩ <;> simp [JobExecution.finish]
  · intro completed
    refine ⟨rfl, ?_⟩
    rcases outcome with ⟨rfl, rfl⟩ | ⟨rfl, _⟩
    · rcases sound.status_of_open unmeasured with
        ⟨_, _, noError⟩ | ⟨_, _, worker, died⟩
      · simp [JobExecution.finish, noError]
      · simp [JobExecution.finish, died]
    · cases completed
  · intro failed
    rcases outcome with ⟨rfl, _⟩ | ⟨rfl, isError⟩
    · cases failed
    · obtain ⟨text, rfl⟩ := Option.isSome_iff_exists.mp isError
      rfl
  · intro _ measured
    cases measured

end JobExecution

theorem ExecPhase.outcome_of_closes {phase : ExecPhase} {attempt : Attempt}
    {status : ExecutionStatus} {durationMs : Int} {error : Option String}
    (closes : phase.closes = some (attempt, status, durationMs, error)) :
    phase.attempt? = some attempt ∧
      (status = .completed ∧ error = none ∨
        status = .failed ∧ error.isSome = true) := by
  cases phase <;> cases closes
  · exact ⟨rfl, .inl ⟨rfl, rfl⟩⟩
  · exact ⟨rfl, .inr ⟨rfl, rfl⟩⟩
  · exact ⟨rfl, .inr ⟨rfl, rfl⟩⟩

/-! ## The invariant -/

/-- Every row is sound, and every call that has an attempt in progress has a
row of its own, which it has not closed yet. -/
structure HistoryInv (state : State) : Prop where
  sound : ∀ {id row}, state.world.executions.get? id = some row →
    row.Sound state.world.now
  row : ∀ {call exec attempt}, state.calls call = some (.exec exec) →
    exec.phase.attempt? = some attempt →
    ∃ row, state.world.executions.get? attempt.execution = some row ∧
      row.durationMs = none ∧ row.startedAt = attempt.startedAt
  distinct : ∀ {call other exec exec' attempt attempt'},
    state.calls call = some (.exec exec) →
    exec.phase.attempt? = some attempt →
    state.calls other = some (.exec exec') →
    exec'.phase.attempt? = some attempt' →
    attempt.execution = attempt'.execution → call = other
  measured : ∀ {call exec attempt status durationMs error},
    state.calls call = some (.exec exec) →
    exec.phase.closes = some (attempt, status, durationMs, error) →
    0 ≤ durationMs ∧ attempt.startedAt + durationMs ≤ state.world.now

namespace HistoryInv

variable {env : Env} {start state next last : State} {action : Action}
  {trace : List (Transition State Action)}

theorem initial (initial : Initial start)
    (sound : ∀ id row, start.world.executions.get? id = some row →
      row.Sound start.world.now) : HistoryInv start where
  sound := sound _ _
  row called := by
    rw [initial.calls] at called
    cases called
  distinct called := by
    rw [initial.calls] at called
    cases called
  measured called := by
    rw [initial.calls] at called
    cases called

/-- The transaction of a call meets its own row, still open. -/
theorem closing (inv : HistoryInv state) {call : CallId} {exec : ExecCall}
    {attempt : Attempt} {status : ExecutionStatus} {durationMs : Int}
    {error : Option String} (called : state.calls call = some (.exec exec))
    (closes : exec.phase.closes = some (attempt, status, durationMs, error)) :
    ∃ row, state.world.executions.get? attempt.execution = some row ∧
      row.durationMs = none ∧
      (row.finish status state.world.now durationMs error).Sound
        state.world.now := by
  obtain ⟨current, outcome⟩ := ExecPhase.outcome_of_closes closes
  obtain ⟨row, found, unmeasured, started⟩ := inv.row called current
  obtain ⟨notNegative, passed⟩ := inv.measured called closes
  refine ⟨row, found, unmeasured, ?_⟩
  apply (inv.sound found).finish unmeasured notNegative _ outcome
  rw [started]
  exact passed

theorem step_sound (inv : HistoryInv state)
    (taken : Chronos.step env state action = some next) {id : ExecutionId}
    {row : JobExecution} (found : next.world.executions.get? id = some row) :
    row.Sound next.world.now := by
  have later := step_now taken
  have write := step_rowWrite taken id
  rw [found] at write
  generalize action.executionEvent state id = event at write
  generalize after : some row = result at write
  cases write with
  | kept => exact (inv.sound after.symm).mono later
  | created =>
      cases after
      refine .mono ⟨le_refl _, by simp, ?_, ?_, by simp, by simp, by simp,
        by simp⟩ later
      · intro _ finished
        cases finished
      · intro _ measured
        cases measured
  | @closed call exec attempt status durationMs error called closes own =>
      subst own
      obtain ⟨before, stored, _, sound⟩ := inv.closing called closes
      rw [stored] at after
      cases after
      exact sound.mono later
  | reaped stored running =>
      cases after
      exact ((inv.sound stored).reap running _).mono later

theorem step_open (inv : HistoryInv state)
    (taken : Chronos.step env state action = some next) {call : CallId}
    {exec exec' : ExecCall} {before attempt : Attempt} {row : JobExecution}
    (called : state.calls call = some (.exec exec))
    (earlier : exec.phase.attempt? = some before)
    (called' : next.calls call = some (.exec exec'))
    (current : exec'.phase.attempt? = some attempt)
    (found : state.world.executions.get? before.execution = some row)
    (unmeasured : row.durationMs = none) :
    ∃ row', next.world.executions.get? before.execution = some row' ∧
      row'.durationMs = none ∧ row'.startedAt = row.startedAt := by
  have write := step_rowWrite taken before.execution
  generalize action.executionEvent state before.execution = event at write
  generalize after :
    next.world.executions.get? before.execution = result at write
  cases write with
  | kept => exact ⟨row, found, unmeasured, rfl⟩
  | created _ _ absent =>
      rw [absent] at found
      cases found
  | @closed other exec₂ closed status durationMs error called₂ closes own =>
      -- no other call has this row, and this one would be done with it
      have mine : call = other :=
        inv.distinct called earlier called₂
          (ExecPhase.outcome_of_closes closes).1 own.symm
      subst other
      cases called.symm.trans called₂
      exfalso
      cases step_cases taken with
      | started starts => cases starts
      | exec called₃ case =>
          cases called.symm.trans called₃
          dsimp only at called'
          rw [Function.update_self] at called'
          obtain ⟨exec₃, rfl, same⟩ := Option.map_eq_some_iff.mp called'
          cases same
          rw [case.attempt_closed closes] at current
          cases current
  | reaped stored =>
      cases found.symm.trans stored
      exact ⟨_, rfl, unmeasured, rfl⟩

theorem step (inv : HistoryInv state)
    (taken : Chronos.step env state action = some next) : HistoryInv next where
  sound := inv.step_sound taken
  row := by
    intro call exec' attempt called' current
    rcases step_attempt taken called' current with
      ⟨exec, before, called, earlier, sameId, sameStart⟩ | ⟨_, _, created⟩
    · obtain ⟨row, found, unmeasured, started⟩ := inv.row called earlier
      obtain ⟨row', found', unmeasured', started'⟩ :=
        inv.step_open taken called earlier called' current found unmeasured
      rw [sameId] at found'
      refine ⟨row', found', unmeasured', ?_⟩
      rw [started', started, sameStart]
    · exact created
  distinct := by
    intro call other exec exec' attempt attempt' called current called'
      current' same
    rcases step_attempt taken called current with
      ⟨_, before, old, earlier, sameId, _⟩ | ⟨acts, absent, _⟩
    · obtain ⟨row, found, _⟩ := inv.row old earlier
      rcases step_attempt taken called' current' with
        ⟨_, before', old', earlier', sameId', _⟩ | ⟨_, absent', _⟩
      · apply inv.distinct old earlier old' earlier'
        rw [sameId, same, sameId']
      · rw [sameId, same, absent'] at found
        cases found
    · rcases step_attempt taken called' current' with
        ⟨_, before', old', earlier', sameId', _⟩ | ⟨acts', _, _⟩
      · obtain ⟨row, found, _⟩ := inv.row old' earlier'
        rw [sameId', ← same, absent] at found
        cases found
      · obtain ⟨_, rfl⟩ := acts
        obtain ⟨_, isAction⟩ := acts'
        cases isAction
        rfl
  measured := by
    intro call exec' attempt status durationMs error called' closes
    have later := step_now taken
    generalize same : Call.exec exec' = value at called'
    cases step_call taken called' with
    | kept old =>
        subst same
        obtain ⟨notNegative, passed⟩ := inv.measured old closes
        exact ⟨notNegative, passed.trans later⟩
    | started starts =>
        cases starts with
        | request =>
            rename_i request
            cases request <;> cases same
        | _ => cases same
    | launched =>
        cases same
        cases closes
    | exec old case world =>
        cases same
        obtain ⟨before, earlier, started, rfl⟩ := case.measures closes
        obtain ⟨row, found, _, rowStarted⟩ := inv.row old earlier
        have begun := (inv.sound found).started
        rw [rowStarted, started] at begun
        constructor
        · exact Int.sub_nonneg.mpr begun
        · rw [add_sub_cancel]
          exact later
    | api old case =>
        subst same
        cases case.requests.2
    | _ => cases same

theorem run (inv : HistoryInv start)
    (run : Run (Chronos.step env) start trace last) : HistoryInv last := by
  induction run with
  | nil => exact inv
  | snoc _ taken ih => exact ih.step taken

end HistoryInv

/-! ## Histories -/

section History

variable {env : Env} {start state next last : State} {action : Action}
  {trace : List (Transition State Action)} {id : ExecutionId}

theorem step_stage_silent (taken : step env state action = some next)
    (silent : action.executionEvent state id = none) :
    next.executionStage id = state.executionStage id := by
  have write := step_rowWrite taken id
  rw [silent] at write
  generalize after : next.world.executions.get? id = result at write
  cases write with
  | kept => rw [State.executionStage, after, State.executionStage]

theorem HistoryInv.stageStep (inv : HistoryInv state)
    (taken : Chronos.step env state action = some next)
    {event : ExecutionEvent}
    (writes : action.executionEvent state id = some event) :
    StageStep (state.executionStage id) event (next.executionStage id) := by
  have write := step_rowWrite taken id
  rw [writes] at write
  generalize after : next.world.executions.get? id = result at write
  rw [State.executionStage, State.executionStage, after]
  cases write with
  | created _ _ absent =>
      rw [absent]
      exact .created
  | closed called closes own =>
      subst own
      obtain ⟨row, found, unmeasured, _⟩ := inv.closing called closes
      rw [found]
      obtain ⟨_, outcome⟩ := ExecPhase.outcome_of_closes closes
      dsimp only [Option.map_some]
      rcases (inv.sound found).status_of_open unmeasured with
        ⟨_, isRunning, noError⟩ | ⟨_, isReaped, worker, died⟩
      · rw [isRunning]
        rcases outcome with ⟨rfl, rfl⟩ | ⟨rfl, _⟩
        · simp only [JobExecution.stage, JobExecution.finish, noError]
          exact .completed
        · exact .failed
      · rw [isReaped]
        rcases outcome with ⟨rfl, rfl⟩ | ⟨rfl, _⟩
        · simp only [JobExecution.stage, JobExecution.finish, died]
          exact .completedLate
        · exact .failedLate
  | reaped found running =>
      rw [found]
      have unmeasured := ((inv.sound found).running running).1
      simp only [JobExecution.stage, running, unmeasured]
      exact .reaped

/-- No step deletes a row or changes what it is about. -/
theorem step_identity (taken : step env state action = some next)
    {row : JobExecution}
    (found : state.world.executions.get? id = some row) :
    ∃ row', next.world.executions.get? id = some row' ∧
      row'.identity = row.identity := by
  have write := step_rowWrite taken id
  generalize action.executionEvent state id = event at write
  generalize after : next.world.executions.get? id = result at write
  cases write with
  | kept => exact ⟨row, found, rfl⟩
  | created _ _ absent =>
      rw [absent] at found
      cases found
  | closed =>
      rw [found]
      exact ⟨_, rfl, rfl⟩
  | reaped stored =>
      cases found.symm.trans stored
      exact ⟨_, rfl, rfl⟩

theorem run_identity (run : Run (step env) start trace last)
    {row : JobExecution}
    (found : start.world.executions.get? id = some row) :
    ∃ row', last.world.executions.get? id = some row' ∧
      row'.identity = row.identity := by
  induction run with
  | nil => exact ⟨row, found, rfl⟩
  | snoc _ taken ih =>
      obtain ⟨middle, found', same⟩ := ih
      obtain ⟨row', found'', same'⟩ := step_identity taken found'
      exact ⟨row', found'', same'.trans same⟩

/-- In every run of the whole system the writes of an execution row lead from
stage to stage; a row that the run creates is reaped at most once and then
closed by its call at most once, and its stage tells which of these happened.
At any time the columns of a row fit each other and the clock, and what the row
is about never changes. -/
theorem execution_history (run : Run (step env) start trace last)
    (initial : Initial start)
    (sound : ∀ id row, start.world.executions.get? id = some row →
      row.Sound start.world.now) (id : ExecutionId) :
    LabelledPath StageStep (start.executionStage id)
      (executionEvents id trace) (last.executionStage id) ∧
    (start.world.executions.get? id = none →
      executionEvents id trace ∈ (last.executionStage id).histories) ∧
    (∀ row, last.world.executions.get? id = some row →
      row.Sound last.world.now) ∧
    ∀ transition ∈ trace, ∀ row,
      transition.before.world.executions.get? id = some row →
      ∃ row', last.world.executions.get? id = some row' ∧
        row'.identity = row.identity := by
  have inv := HistoryInv.initial initial sound
  have path : LabelledPath StageStep (start.executionStage id)
      (executionEvents id trace) (last.executionStage id) := by
    apply run.path (State.executionStage · id) _ (fun _ _ => trivial) inv
    · intro transition _ taken inv
      exact inv.step taken
    · intro transition taken _ silent
      exact step_stage_silent taken silent
    · intro transition _ taken inv event writes
      exact inv.stageStep taken writes
  refine ⟨path, ?_, ?_, ?_⟩
  · intro absent
    apply ExecutionStage.mem_histories
    have isAbsent : start.executionStage id = .absent := by
      rw [State.executionStage, absent]
    rw [← isAbsent]
    exact path
  · intro row found
    exact (inv.run run).sound found
  · intro transition member row found
    obtain ⟨earlier, later, rfl⟩ := List.append_of_mem member
    obtain ⟨_, taken, after⟩ := run.around
    exact run_identity (after.cons taken) found

/-- Worker 1 stalls in its attempt and is reaped; then its handler resolves. -/
theorem execution_history_late :
    ∃ trace last,
      Run (step .sample)
        (World.sample 2 ⟨[(7, .sample .queued)], by simp⟩).idle trace last ∧
      last.executionStage 0 = .completed true ∧
      executionEvents 0 trace =
        [.created, .reaped, .closed .completed] ∧
      executionEvents 0 trace ∈ (last.executionStage 0).histories := by
  obtain ⟨trace, last, run, late, events⟩ :=
    exists_run_of_check (step .sample)
      (World.sample 2 ⟨[(7, .sample .queued)], by simp⟩).idle
      (claimActions 1 1 [7] ++ executeActions 1 2 0 ++
        ([.advance 20000, .heartbeat 2, .startReap 3 2] : List Action) ++
        reapActions 3 1 0 7 ++
        ([.exec 2 .resolved, .exec 2 .ok] : List Action))
      (fun trace last =>
        last.executionStage 0 = .completed true ∧
        executionEvents 0 trace = [.created, .reaped, .closed .completed])
      (by decide)
  refine ⟨trace, last, run, late, events, ?_⟩
  have initial : Initial
      (World.sample 2 ⟨[(7, .sample .queued)], by simp⟩).idle :=
    World.idle_initial fun _ => rfl
  exact (execution_history run initial (by
    intro id row found
    cases found) 0).2.1 rfl

end History

end Chronos
