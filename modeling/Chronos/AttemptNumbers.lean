import Chronos.Ownership
import Chronos.Records

/-!
# The numbers of a job's attempts

An execution is numbered from the `attemptCount` that its call read before the
handler ran, and a failure writes that number back.  The reaper increments the
column in place.  This file shows when these writes agree: no count is lost,
and the executions of a job are numbered upwards.
-/

namespace Chronos

namespace ExecPhase

/-- The attempt has not begun: its execution row is still to be created. -/
def starting : ExecPhase → Bool
  | .findJob => true
  | .markRunning _ _ => true
  | .publishRunning _ _ => true
  | .createExecution _ _ => true
  | _ => false

/-- The row that the call has read, up to the beginning of its attempt. -/
def snapshot : ExecPhase → Option Job
  | .markRunning job _ => some job
  | .publishRunning job _ => some job
  | .createExecution job _ => some job
  | _ => none

theorem starting_of_snapshot {phase : ExecPhase} {job : Job}
    (read : phase.snapshot = some job) : phase.starting = true := by
  cases phase <;> first | rfl | cases read

theorem starting_entered : ExecPhase.Entered starting := by
  intro world next exec exec' input case inPhase
  cases case with
  | found phase => rw [phase]; rfl
  | marked phase => rw [phase]; rfl
  | announced phase => rw [phase]; rfl
  | rejected phase =>
      simp only [handleFailure] at inPhase
      split at inPhase <;> cases inPhase
  | _ => cases inPhase

end ExecPhase

/-- The call has claimed the job and not begun its attempt. -/
abbrev State.isStarting (state : State) (call : CallId) (job : JobId) : Prop :=
  state.holdsIn ExecPhase.starting call job

namespace Action

/-- The job and the attempt whose failure this step of `executeJob` counts. -/
def countsFailure (state : State) : Action → Option (JobId × Attempt)
  | .exec call .ok =>
      match state.calls call with
      | some (.exec ⟨job, _, .retry attempt _ _ _⟩) => some (job, attempt)
      | some (.exec ⟨job, _, .deadLetter attempt _⟩) => some (job, attempt)
      | _ => none
  | _ => none

/-- The job whose `attemptCount` this step writes. -/
def writesCount (state : State) (action : Action) : Option JobId :=
  ((action.countsFailure state).map Prod.fst).or
    ((action.requeuesOrphan state).or (action.commitsRetry state))

end Action

/-- The step counts no failure that has been counted: the row has the count
that the call read.  Or a reap cycle has counted it, and the job still waits.
-/
def CountsOnce (transition : Transition State Action) : Prop :=
  ∀ failure ∈ transition.action.countsFailure transition.before,
    ∀ row ∈ transition.before.world.jobs.get? failure.1,
      row.attemptCount = failure.2.job.attemptCount ∨
        (row.attemptCount = failure.2.number ∧ row.status = .queued)

instance (transition : Transition State Action) :
    Decidable (CountsOnce transition) :=
  inferInstanceAs (Decidable (∀ failure ∈ _, ∀ row ∈ _, _ ∨ _))

/-- The call is not about to begin an attempt of the job whose `attemptCount`
this step writes. -/
def CountsUnstarted (transition : Transition State Action) (call : CallId) :
    Prop :=
  ∀ job ∈ transition.action.writesCount transition.before,
    ¬transition.before.isStarting call job

instance (transition : Transition State Action) (call : CallId) :
    Decidable (CountsUnstarted transition call) :=
  inferInstanceAs (Decidable (∀ job ∈ _, ¬_))

/-- No reap cycle begins while `call` is one. -/
def ReapsInTurn (transition : Transition State Action) (call : CallId) :
    Prop :=
  transition.action.startsReap.isSome = true →
    (transition.before.calls call).all fun value =>
      match value with
      | .reap _ => false
      | _ => true

instance (transition : Transition State Action) (call : CallId) :
    Decidable (ReapsInTurn transition call) :=
  inferInstanceAs (Decidable (_ → _))

/-- In this step an execution of the job is created under this id. -/
def Creates (transition : Transition State Action) (id : ExecutionId)
    (job : JobId) : Prop :=
  transition.before.world.executions.get? id = none ∧
    ∃ row ∈ transition.after.world.executions.get? id, row.jobId = job

instance (transition : Transition State Action) (id : ExecutionId)
    (job : JobId) : Decidable (Creates transition id job) :=
  inferInstanceAs (Decidable (_ = _ ∧ ∃ row ∈ _, _ = _))

/-- The attempts of a job in a history and its last state.  Only a manual
retry lowers the count, and in between two manual retries each execution has a
higher number than the ones before it. -/
structure NumbersAttempts (job : JobId)
    (trace : List (Transition State Action)) (last : State) : Prop where
  counted : ∀ {transition row}, transition ∈ trace →
    transition.action.commitsRetry transition.before ≠ some job →
    transition.before.world.jobs.get? job = some row →
    ∃ row', transition.after.world.jobs.get? job = some row' ∧
      row.attemptCount ≤ row'.attemptCount
  numbered : ∀ {earlier first between second later id other},
    trace = earlier ++ first :: (between ++ second :: later) →
    Creates first id job → Creates second other job →
    (∀ transition ∈ between,
      transition.action.commitsRetry transition.before ≠ some job) →
    ∃ row row', last.world.executions.get? id = some row ∧
      last.world.executions.get? other = some row' ∧
      row.attemptNumber < row'.attemptNumber

/-! ## How a step changes the count -/

section Steps

variable {env : Env} {start last state next : State} {action : Action}
  {trace : List (Transition State Action)} {job : JobId}

/-- What a step makes of the count of an existing job. -/
inductive CountChange (state : State) (job : JobId) (action : Action)
    (row row' : Job) : Prop where
  | kept :
      row'.attemptCount = row.attemptCount →
      (row'.status = .queued → row.status = .queued) →
      CountChange state job action row row'
  | failed {attempt : Attempt} :
      action.countsFailure state = some (job, attempt) →
      row'.attemptCount = attempt.number →
      CountChange state job action row row'
  | requeued :
      action.requeuesOrphan state = some job →
      row'.attemptCount = row.attemptCount + 1 →
      CountChange state job action row row'
  | reset :
      action.commitsRetry state = some job →
      CountChange state job action row row'

theorem JobWrite.count {row row' : Job}
    (write : JobWrite state job action row row') :
    CountChange state job action row row' := by
  cases write with
  | claim => exact .kept rfl (by rintro ⟨⟩)
  | markRunning => exact .kept rfl (by rintro ⟨⟩)
  | complete => exact .kept rfl (by rintro ⟨⟩)
  | cancel => exact .kept rfl (by rintro ⟨⟩)
  | @retry call exec attempt _ _ _ _ called target phase =>
      obtain ⟨target', worker, phase'⟩ := exec
      subst target phase
      have counts : (Action.exec call .ok).countsFailure state =
          some (target', attempt) := by
        simp only [Action.countsFailure, called]
      exact .failed counts rfl
  | @deadLetter call exec attempt _ _ called target phase =>
      obtain ⟨target', worker, phase'⟩ := exec
      subst target phase
      have counts : (Action.exec call .ok).countsFailure state =
          some (target', attempt) := by
        simp only [Action.countsFailure, called]
      exact .failed counts rfl
  | requeueOrphan called =>
      apply CountChange.requeued _ rfl
      simp only [Action.requeuesOrphan, called]
  | @resetForRetry call request _ _ _ _ called target phase =>
      obtain ⟨target', phase'⟩ := request
      subst target phase
      apply CountChange.reset
      simp only [Action.commitsRetry, called]

theorem step_count (taken : step env state action = some next) {row : Job}
    (found : state.world.jobs.get? job = some row) :
    ∃ row', next.world.jobs.get? job = some row' ∧
      CountChange state job action row row' := by
  obtain ⟨row', found', same | write⟩ := step_job taken found
  · exact ⟨row', found', .kept (by rw [same]) (by rw [same]; exact id)⟩
  · exact ⟨row', found', write.count⟩

namespace CountChange

variable {row row' : Job}

/-- Any other change of the count is one that the condition speaks of. -/
theorem kept_or_writes (change : CountChange state job action row row') :
    (row'.attemptCount = row.attemptCount ∧
      (row'.status = .queued → row.status = .queued)) ∨
    action.writesCount state = some job := by
  cases change with
  | kept same queued => exact .inl ⟨same, queued⟩
  | failed counts => exact .inr (by simp [Action.writesCount, counts])
  | requeued requeues =>
      right
      cases counts : action.countsFailure state with
      | none => simp [Action.writesCount, counts, requeues]
      | some failure =>
          obtain ⟨_, _, _, _, _, rfl, _⟩ :=
            Action.requeuesOrphan_eq_some requeues
          cases counts
  | reset commits =>
      right
      cases action with
      | api => simp [Action.writesCount, Action.countsFailure,
          Action.requeuesOrphan, commits]
      | _ => cases commits

end CountChange

theorem creates_cases (taken : step env state action = some next)
    {id : ExecutionId} (creates : Creates ⟨state, action, next⟩ id job) :
    ∃ call worker snapshot policy row, action = .exec call (.created id) ∧
      state.calls call =
        some (.exec ⟨job, worker, .createExecution snapshot policy⟩) ∧
      next.world.executions.get? id = some row ∧
      row.attemptNumber = snapshot.attemptCount + 1 := by
  obtain ⟨absent, row, found, sameJob⟩ := creates
  simp only [Option.mem_def] at absent found
  rcases step_executions taken with same | write
  · rw [same, absent] at found
    cases found
  · generalize written : next.world.executions = executions at write
    rw [written] at found
    cases write with
    | @created call exec snapshot policy other _ called phase inserted =>
        obtain ⟨target, worker, phase'⟩ := exec
        subst phase
        rw [Table.get?_insert? inserted] at found
        split at found
        · rename_i isNew
          cases found
          subst isNew sameJob
          exact ⟨call, worker, snapshot, policy, _, rfl, called, by
            rw [Table.get?_insert? inserted, if_pos rfl], rfl⟩
        · rw [absent] at found
          cases found
    | closed =>
        rw [Table.get?_modify, absent] at found
        cases found
    | orphansClosed =>
        rw [World.closeExecutions, Table.get?_mapRows, absent] at found
        cases found

theorem not_gains_of_writesCount {call : CallId} {other : JobId}
    (writes : action.writesCount state = some job) :
    ¬Gains state action call other := by
  intro gains
  cases gains <;> cases writes

/-! ## The calls that are about to begin an attempt -/

/-- At most one call is about to begin an attempt of a job, none while the job
is queued, and it knows the current count. -/
structure StartInv (state : State) : Prop where
  exclusive : Exclusive (state.idle fun status => status = .queued)
    state.isStarting
  nodup : ∀ {call poll}, state.calls call = some (.poll poll) →
    poll.phase.claimedIds.Nodup
  current : ∀ {call exec snapshot row},
    state.calls call = some (.exec exec) →
    exec.phase.snapshot = some snapshot →
    state.world.jobs.get? exec.jobId = some row →
    snapshot.attemptCount = row.attemptCount

namespace StartInv

theorem initial (initial : Initial state) : StartInv state := by
  have unstarted : ∀ call job, ¬state.isStarting call job := by
    rintro call job ⟨value, found, _⟩
    rw [initial.calls call] at found
    cases found
  constructor
  · constructor
    · intro job first second starting
      exact (unstarted first job starting).elim
    · intro job holder starting
      exact (unstarted holder job starting).elim
  · intro call poll found
    rw [initial.calls call] at found
    cases found
  · intro call exec snapshot row found
    rw [initial.calls call] at found
    cases found

theorem row (inv : StartInv state) {call : CallId}
    (starting : state.isStarting call job) :
    ∃ row, state.world.jobs.get? job = some row ∧ row.status ≠ .queued := by
  have busy := inv.exclusive.busy starting
  simp only [State.idle, not_forall] at busy
  obtain ⟨status, known, notQueued⟩ := busy
  obtain ⟨row, found, rfl⟩ := State.status?_eq_some_iff.mp known
  exact ⟨row, found, by simpa using notQueued⟩

private theorem freed (taken : step env state action = some next)
    (unstarted : ∀ call, CountsUnstarted ⟨state, action, next⟩ call)
    (nowIdle : next.idle (fun status => status = .queued) job) :
    state.idle (fun status => status = .queued) job ∨
      ∀ call, ¬next.isStarting call job := by
  cases before : state.world.jobs.get? job with
  | none =>
      left
      intro status known
      simp [State.status?, before] at known
  | some row =>
      obtain ⟨row', found, change⟩ := step_count taken before
      have queued : row'.status = .queued := by
        simpa using nowIdle row'.status
          (State.status?_eq_some_iff.mpr ⟨row', found, rfl⟩)
      rcases change.kept_or_writes with ⟨_, same⟩ | writes
      · left
        intro status known
        obtain ⟨_, found', rfl⟩ := State.status?_eq_some_iff.mp known
        cases before.symm.trans found'
        simp [same queued]
      · right
        intro call starting
        rcases step_holdsIn ExecPhase.starting_entered taken starting with
          old | gains
        · exact unstarted call job writes old
        · exact not_gains_of_writesCount writes gains

/-- No step writes the count that a call is about to number by. -/
private theorem kept_current (inv : StartInv state)
    (taken : step env state action = some next)
    (unstarted : ∀ call, CountsUnstarted ⟨state, action, next⟩ call)
    {call : CallId} {exec : ExecCall} {snapshot row' : Job}
    (called : state.calls call = some (.exec exec))
    (read : exec.phase.snapshot = some snapshot)
    (found' : next.world.jobs.get? exec.jobId = some row') :
    snapshot.attemptCount = row'.attemptCount := by
  have starting : state.isStarting call exec.jobId :=
    ⟨_, called, rfl, ExecPhase.starting_of_snapshot read⟩
  obtain ⟨row, found, _⟩ := inv.row starting
  obtain ⟨_, found'', change⟩ := step_count taken found
  cases found'.symm.trans found''
  rcases change.kept_or_writes with ⟨same, _⟩ | writes
  · rw [same]
    exact inv.current called read found
  · exact (unstarted call exec.jobId writes starting).elim

theorem step (inv : StartInv state) (locks : LockInv state)
    (taken : Chronos.step env state action = some next)
    (unstarted : ∀ call, CountsUnstarted ⟨state, action, next⟩ call) :
    StartInv next := by
  constructor
  · exact step_exclusive ExecPhase.starting_entered queued_idle inv.exclusive
      inv.nodup locks taken (freed taken unstarted)
  · exact step_claimedIds_nodup locks taken inv.nodup
  · intro call exec snapshot row found read present
    generalize isExec : Call.exec exec = value at found
    cases step_call taken found with
    | kept called =>
        subst isExec
        exact inv.kept_current taken unstarted called read present
    | started starts =>
        cases starts with
        | request =>
            rename_i request
            cases request <;> cases isExec
        | _ => cases isExec
    | launched =>
        cases isExec
        cases read
    | exec called case world =>
        cases isExec
        rw [case.same_job] at present
        cases case with
        | found phase lookup =>
            cases read
            rw [world] at present
            cases lookup.symm.trans present
            rfl
        | marked phase =>
            cases read
            exact inv.kept_current taken unstarted called (by rw [phase]; rfl)
              present
        | announced phase =>
            cases read
            exact inv.kept_current taken unstarted called (by rw [phase]; rfl)
              present
        | rejected =>
            simp only [handleFailure] at read
            split at read <;> cases read
        | _ => cases read
    | api _ case =>
        subst isExec
        cases case.requests.2
    | _ => cases isExec

theorem run (run : Run (Chronos.step env) start trace last)
    (initial : Initial start)
    (unstarted : ∀ transition ∈ trace, ∀ call,
      CountsUnstarted transition call) : StartInv last := by
  have both : LockInv last ∧ StartInv last := by
    refine run.invariant (fun state => LockInv state ∧ StartInv state)
      unstarted ⟨.initial initial, .initial initial⟩ ?_
    intro transition unstarted taken inv
    exact ⟨inv.1.step taken, inv.2.step inv.1 taken unstarted⟩
  exact both.2

end StartInv

/-! ## A number is given once -/

/-- No attempt that is still to begin will have this number. -/
def NumberUsed (job : JobId) (number : Nat) (state : State) : Prop :=
  ∃ row, state.world.jobs.get? job = some row ∧
    number ≤ row.attemptCount + 1 ∧
    (row.status = .queued ∨ (∃ call, state.isStarting call job) →
      number ≤ row.attemptCount)

namespace NumberUsed

variable {number : Nat}

theorem of_created (inv : StartInv state) {call : CallId} {worker : WorkerId}
    {snapshot : Job} {policy : RetryPolicy} {id : ExecutionId}
    (taken : step env state (.exec call (.created id)) = some next)
    (called : state.calls call =
      some (.exec ⟨job, worker, .createExecution snapshot policy⟩)) :
    NumberUsed job (snapshot.attemptCount + 1) next := by
  have starting : state.isStarting call job := ⟨_, called, rfl, rfl⟩
  obtain ⟨row, found, notQueued⟩ := inv.row starting
  have current := inv.current called rfl found
  cases step_cases taken with
  | started starts => cases starts
  | exec called' case =>
      cases called.symm.trans called'
      cases case with
      | announced phase => cases phase
      | published phase => cases phase
      | created =>
          refine ⟨row, found, by omega, ?_⟩
          rintro (queued | ⟨other, value, holding, holds⟩)
          · exact (notQueued queued).elim
          · by_cases same : other = call
            · subst other
              simp only [Function.update_self] at holding
              cases holding
              cases holds.2
            · simp only [Option.mem_def, Function.update_of_ne same]
                at holding
              have also : state.isStarting other job :=
                ⟨value, holding, holds⟩
              exact (same (inv.exclusive.unique also starting)).elim

theorem step (used : NumberUsed job number state) (locks : LockInv state)
    (taken : Chronos.step env state action = some next)
    (once : CountsOnce ⟨state, action, next⟩)
    (unstarted : ∀ call, CountsUnstarted ⟨state, action, next⟩ call)
    (noRetry : action.commitsRetry state ≠ some job) :
    NumberUsed job number next := by
  obtain ⟨row, found, bounded, settled⟩ := used
  obtain ⟨row', found', change⟩ := step_count taken found
  refine ⟨row', found', ?_⟩
  cases change with
  | kept same queued =>
      rw [same]
      refine ⟨bounded, ?_⟩
      rintro (isQueued | ⟨call, starting⟩)
      · exact settled (.inl (queued isQueued))
      · rcases step_holdsIn ExecPhase.starting_entered taken starting with
          old | gains
        · exact settled (.inr ⟨call, old⟩)
        · cases gains with
          | claimed called phase member =>
              have returns := ClaimReturns.of_commit taken called phase
              obtain ⟨_, same, queued⟩ := State.status?_eq_some_iff.mp
                (returns.status_before taken locks member)
              cases found.symm.trans same
              exact settled (.inl queued)
          | launched called phase =>
              exact settled (.inr ⟨_, _, called,
                Call.holdsIn_of_launching phase List.mem_cons_self⟩)
  | @failed attempt counts written =>
      rw [written]
      have number_eq : attempt.number = attempt.job.attemptCount + 1 := rfl
      rcases once _ counts row found with read | ⟨counted, queued⟩
      · dsimp only at read
        omega
      · dsimp only at counted
        have small := settled (.inl queued)
        omega
  | requeued _ written =>
      rw [written]
      omega
  | reset commits => exact (noRetry commits).elim

theorem lt_of_creates (used : NumberUsed job number state)
    (inv : StartInv state) {call : CallId} {worker : WorkerId}
    {snapshot : Job} {policy : RetryPolicy}
    (called : state.calls call =
      some (.exec ⟨job, worker, .createExecution snapshot policy⟩)) :
    number < snapshot.attemptCount + 1 := by
  obtain ⟨row, found, _, settled⟩ := used
  have current := inv.current called rfl found
  have small := settled (.inr ⟨call, _, called, rfl, rfl⟩)
  omega

end NumberUsed

/-! ## Runs -/

private theorem number_kept (run : Run (step env) start trace last)
    {id : ExecutionId} {row : JobExecution}
    (found : start.world.executions.get? id = some row) :
    ∃ row', last.world.executions.get? id = some row' ∧
      row'.attemptNumber = row.attemptNumber := by
  induction run with
  | nil => exact ⟨row, found, rfl⟩
  | snoc _ taken induction =>
      obtain ⟨middle, present, same⟩ := induction
      obtain ⟨row', found', _, _, number, _⟩ := step_execution taken present
      exact ⟨row', found', number.trans same⟩

/-- The count goes down only by a manual retry. -/
private theorem count_le (taken : step env state action = some next)
    (once : CountsOnce ⟨state, action, next⟩)
    (noRetry : action.commitsRetry state ≠ some job) {row : Job}
    (found : state.world.jobs.get? job = some row) :
    ∃ row', next.world.jobs.get? job = some row' ∧
      row.attemptCount ≤ row'.attemptCount := by
  obtain ⟨row', found', change⟩ := step_count taken found
  refine ⟨row', found', ?_⟩
  cases change with
  | kept same => exact same.ge
  | @failed attempt counts written =>
      rw [written, Attempt.number]
      rcases once _ counts row found with read | ⟨counted, _⟩
      · dsimp only at read
        omega
      · exact counted.le
  | requeued _ written => omega
  | reset commits => exact (noRetry commits).elim

/-- Without a manual retry in between, an execution has a higher number than
one that was created before. -/
theorem number_lt_of_creates
    {earlier between later : List (Transition State Action)}
    {first second : Transition State Action} {id other : ExecutionId}
    (run : Run (step env) start
      (earlier ++ first :: (between ++ second :: later)) last)
    (initial : Initial start)
    (once : ∀ transition ∈ earlier ++ first :: (between ++ second :: later),
      CountsOnce transition)
    (unstarted : ∀ transition ∈
      earlier ++ first :: (between ++ second :: later),
      ∀ call, CountsUnstarted transition call)
    (creates : Creates first id job) (again : Creates second other job)
    (noRetry : ∀ transition ∈ between,
      transition.action.commitsRetry transition.before ≠ some job) :
    ∃ row row', last.world.executions.get? id = some row ∧
      last.world.executions.get? other = some row' ∧
      row.attemptNumber < row'.attemptNumber := by
  obtain ⟨toFirst, taken, afterFirst⟩ := run.around
  obtain ⟨toSecond, takenAgain, afterSecond⟩ := afterFirst.around
  simp only [List.forall_mem_append, List.forall_mem_cons] at once unstarted
  obtain ⟨call, worker, snapshot, policy, row, action, called, found,
    number⟩ := creates_cases taken creates
  obtain ⟨call', worker', snapshot', policy', row', action', called',
    found', number'⟩ := creates_cases takenAgain again
  have inv := StartInv.run toFirst initial unstarted.1
  have locks := LockInv.run toFirst initial
  rw [action] at taken
  have used : NumberUsed job (snapshot.attemptCount + 1) first.after :=
    .of_created inv taken called
  have steps : ∀ transition ∈ between, CountsOnce transition ∧
      (∀ call, CountsUnstarted transition call) ∧
      transition.action.commitsRetry transition.before ≠ some job :=
    fun transition member => ⟨once.2.2.1 transition member,
      unstarted.2.2.1 transition member, noRetry transition member⟩
  have after : LockInv second.before ∧ StartInv second.before ∧
      NumberUsed job (snapshot.attemptCount + 1) second.before := by
    refine toSecond.invariant (fun state => LockInv state ∧ StartInv state ∧
      NumberUsed job (snapshot.attemptCount + 1) state) steps
      ⟨locks.step taken, inv.step locks taken (action ▸ unstarted.2.1),
        used⟩ ?_
    rintro transition ⟨once, unstarted, noRetry⟩ taken ⟨locks, inv, used⟩
    exact ⟨locks.step taken, inv.step locks taken unstarted,
      used.step locks taken once unstarted noRetry⟩
  obtain ⟨_, inv', used'⟩ := after
  have less := used'.lt_of_creates inv' called'
  obtain ⟨kept, keptFound, keptNumber⟩ := number_kept afterFirst found
  obtain ⟨kept', keptFound', keptNumber'⟩ := number_kept afterSecond found'
  exact ⟨kept, kept', keptFound, keptFound', by omega⟩

/-- No count is lost and no number given twice in every run in which each
failure is counted once, and no count is written while a call is about to
begin an attempt of the job. -/
theorem attempts_numbered (run : Run (step env) start trace last)
    (initial : Initial start)
    (once : ∀ transition ∈ trace, CountsOnce transition)
    (unstarted : ∀ transition ∈ trace, ∀ call,
      CountsUnstarted transition call) :
    NumbersAttempts job trace last := by
  constructor
  · intro transition row member noRetry found
    obtain ⟨earlier, later, rfl⟩ := List.append_of_mem member
    obtain ⟨_, taken, _⟩ := run.around
    exact count_le taken (once transition member) noRetry found
  · rintro earlier first between second later id other rfl creates again
      noRetry
    exact number_lt_of_creates run initial once unstarted creates again
      noRetry

/-- Worker 1 stalls in the handler of job 7 and is reaped, fails while the job
waits, and worker 2 executes the job again. -/
theorem attempts_numbered_reaped :
    ∃ trace last,
      Run (step .sample)
        (World.sample 1 ⟨[(7, .sample .queued)], by simp⟩).idle trace last ∧
      (∃ transition ∈ trace,
        transition.action.requeuesOrphan transition.before = some 7) ∧
      (∃ transition ∈ trace, Creates transition 1 7) ∧
      NumbersAttempts 7 trace last := by
  obtain ⟨trace, last, run, requeued, created, once, checked⟩ :=
    exists_run_of_check (step .sample)
      (World.sample 1 ⟨[(7, .sample .queued)], by simp⟩).idle
      (claimActions 1 1 [7] ++ executeActions 1 2 0 ++
        ([.advance 20000, .heartbeat 2, .startReap 3 2] : List Action) ++
        reapActions 3 1 0 7 ++
        ([.exec 2 (.failed "timeout" .zero), .exec 2 .ok, .advance 30000] :
          List Action) ++
        claimActions 4 2 [7] ++ executeActions 4 5 1)
      (fun trace _ =>
        (∃ transition ∈ trace,
          transition.action.requeuesOrphan transition.before = some 7) ∧
        (∃ transition ∈ trace, Creates transition 1 7) ∧
        (∀ transition ∈ trace, CountsOnce transition) ∧
        ChecksCalls 6 CountsUnstarted trace)
      (by decide)
  have initial : Initial
      (World.sample 1 ⟨[(7, .sample .queued)], by simp⟩).idle :=
    World.idle_initial fun _ => rfl
  have unstarted := checked.forall_calls run initial (by
    intro transition call absent
    simp [CountsUnstarted, State.holdsIn, absent])
  exact ⟨trace, last, run, requeued, created,
    attempts_numbered run initial once unstarted⟩

/-- The first attempt resumes after the second one has failed: its own failure
takes the count back to 1, and the third attempt is numbered 2 again. -/
theorem attempt_number_repeated :
    ∃ trace last,
      Run (step .sample)
        (World.sample 1 ⟨[(7, .sample .queued)], by simp⟩).idle trace last ∧
      Initial (World.sample 1 ⟨[(7, .sample .queued)], by simp⟩).idle ∧
      (∀ transition ∈ trace, ∀ call, ReapsInTurn transition call) ∧
      (∀ transition ∈ trace,
        transition.action.commitsRetry transition.before = none) ∧
      (∃ transition ∈ trace,
        ∃ row ∈ transition.before.world.jobs.get? 7,
        ∃ row' ∈ transition.after.world.jobs.get? 7,
          row'.attemptCount < row.attemptCount) ∧
      (∃ row ∈ last.world.executions.get? 1,
        ∃ row' ∈ last.world.executions.get? 2,
          row.attemptNumber = row'.attemptNumber) ∧
      ¬NumbersAttempts 7 trace last := by
  obtain ⟨trace, last, run, checked, noRetry, lost, repeated⟩ :=
    exists_run_of_check (step .sample)
      (World.sample 1 ⟨[(7, .sample .queued)], by simp⟩).idle
      (claimActions 1 1 [7] ++ executeActions 1 2 0 ++
        ([.advance 20000, .heartbeat 2, .startReap 3 2] : List Action) ++
        reapActions 3 1 0 7 ++ claimActions 4 2 [7] ++
        executeActions 4 5 1 ++
        ([.exec 5 (.failed "timeout" .zero), .exec 5 .ok,
          .exec 2 (.failed "timeout" .zero), .exec 2 .ok,
          .advance 30000] : List Action) ++
        claimActions 6 2 [7] ++ executeActions 6 7 2)
      (fun trace last =>
        ChecksCalls 8 ReapsInTurn trace ∧
        (∀ transition ∈ trace,
          transition.action.commitsRetry transition.before = none) ∧
        (∃ transition ∈ trace,
          ∃ row ∈ transition.before.world.jobs.get? 7,
          ∃ row' ∈ transition.after.world.jobs.get? 7,
            row'.attemptCount < row.attemptCount) ∧
        ∃ row ∈ last.world.executions.get? 1,
          ∃ row' ∈ last.world.executions.get? 2,
            row.attemptNumber = row'.attemptNumber)
      (by decide)
  have initial : Initial
      (World.sample 1 ⟨[(7, .sample .queued)], by simp⟩).idle :=
    World.idle_initial fun _ => rfl
  have inTurn := checked.forall_calls run initial (by
    intro transition call absent
    simp [ReapsInTurn, absent])
  refine ⟨trace, last, run, initial, inTurn, noRetry, lost, repeated, ?_⟩
  intro numbers
  obtain ⟨transition, member, row, found, row', found', less⟩ := lost
  obtain ⟨row'', found'', later⟩ := numbers.counted member
    (by simp [noRetry transition member]) found
  cases Option.mem_unique found' found''
  omega

end Steps

end Chronos
