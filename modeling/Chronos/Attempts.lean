import Chronos.Ownership
import Chronos.Records
import Chronos.Submission

/-!
# The attempts of a job

What claims and executions make of one job while the reaper, cancels and
manual retries stay away.  The abstract life of a job knows only the stage and
the number of failed attempts.  Every state of a run represents a stage of the
life: job row, execution rows, dead letter and the variables of the one call
that holds the job agree on it.
-/

namespace Chronos

/-! ## Attempts in order -/

namespace JobExecution

/-- This execution has finished before the other one started. -/
def Before (earlier later : JobExecution) : Prop :=
  ∃ instant, earlier.finishedAt = some instant ∧ instant ≤ later.startedAt

end JobExecution

/-- Attempts are numbered from 1, and each ends before the next begins. -/
structure InOrder (attempts : List JobExecution) : Prop where
  numbered : attempts.map (·.attemptNumber) = List.range' 1 attempts.length
  apart : attempts.Pairwise JobExecution.Before

namespace InOrder

theorem nil : InOrder [] := ⟨rfl, .nil⟩

theorem snoc {attempts : List JobExecution} {attempt : JobExecution}
    (inOrder : InOrder attempts)
    (number : attempt.attemptNumber = attempts.length + 1)
    (finished : ∀ earlier ∈ attempts, earlier.Before attempt) :
    InOrder (attempts ++ [attempt]) := by
  constructor
  · rw [List.map_append, inOrder.numbered, List.length_append,
      List.length_singleton, List.range'_1_concat]
    simp [number, Nat.add_comm]
  · apply List.pairwise_append.mpr
    refine ⟨inOrder.apart, List.pairwise_singleton _ _, ?_⟩
    intro earlier member last isLast
    cases List.mem_singleton.mp isLast
    exact finished earlier member

theorem replace_last {attempts : List JobExecution}
    {attempt attempt' : JobExecution} (inOrder : InOrder (attempts ++ [attempt]))
    (number : attempt'.attemptNumber = attempt.attemptNumber)
    (started : attempt'.startedAt = attempt.startedAt) :
    InOrder (attempts ++ [attempt']) := by
  constructor
  · have numbered := inOrder.numbered
    simpa [number] using numbered
  · have apart := List.pairwise_append.mp inOrder.apart
    apply List.pairwise_append.mpr
    refine ⟨apart.1, List.pairwise_singleton _ _, ?_⟩
    intro earlier member last isLast
    cases List.mem_singleton.mp isLast
    have before := apart.2.2 earlier member attempt (by simp)
    simpa [JobExecution.Before, started] using before

end InOrder

/-! ## The life of a job -/

/-- The stage of a job, with the number of its failed attempts. -/
inductive Life where
  | waiting (failures : Nat)
  | claimed (failures : Nat)
  | executing (failures : Nat) (execution : ExecutionId)
  | completed (failures : Nat)
  | deadLettered (failures : Nat)

/-- The attempts so far have all failed and another one is allowed. -/
structure Failures (world : World) (job : JobId) (row : Job)
    (failed : List JobExecution) : Prop where
  inOrder : InOrder failed
  closed : ∀ attempt ∈ failed, attempt.status = .failed ∧
    ∃ instant ≤ world.now, attempt.finishedAt = some instant
  counted : row.attemptCount = failed.length
  allowed : failed = [] ∨
    (failed.length : Int) < (world.retryPolicyOf row).maxAttempts
  noDeadLetter : world.deadLetters.get? job = none
  payload : row.payload ≠ .null

/-- The dead letter of a job carries its queue, payload and attempt count. -/
structure CarriedBy (row : Job) (letter : DeadLetterJob) : Prop where
  queueId : letter.queueId = row.queueId
  payload : letter.payload = row.payload
  attemptCount : letter.attemptCount = row.attemptCount

/-- The tables show this stage of the job's life. -/
inductive LifeOf (world : World) (job : JobId) (row : Job) : Life → Prop where
  | waiting {failed : List JobExecution} :
      row.status = .queued ∨ row.status = .scheduled →
      Failures world job row failed →
      (world.executionsOf job).map Prod.snd = failed →
      LifeOf world job row (.waiting failed.length)
  | claimed {failed : List JobExecution} :
      row.status.inFlight = true →
      Failures world job row failed →
      (world.executionsOf job).map Prod.snd = failed →
      LifeOf world job row (.claimed failed.length)
  | executing {failed : List JobExecution}
      {earlier : List (ExecutionId × JobExecution)} {id : ExecutionId}
      {attempt : JobExecution} :
      row.status.inFlight = true →
      Failures world job row failed →
      world.executionsOf job = earlier ++ [(id, attempt)] →
      earlier.map Prod.snd = failed →
      InOrder (failed ++ [attempt]) →
      attempt.status = .running →
      LifeOf world job row (.executing failed.length id)
  | completed {failed : List JobExecution} {attempt : JobExecution} :
      row.status = .completed →
      Failures world job row failed →
      (world.executionsOf job).map Prod.snd = failed ++ [attempt] →
      InOrder (failed ++ [attempt]) →
      attempt.status = .completed →
      LifeOf world job row (.completed failed.length)
  | deadLettered {failed : List JobExecution} {letter : DeadLetterJob} :
      row.status = .deadLetter →
      (world.executionsOf job).map Prod.snd = failed →
      InOrder failed →
      (∀ attempt ∈ failed, attempt.status = .failed) →
      row.attemptCount = failed.length →
      (failed.length : Int) ≤ max 1 (world.retryPolicyOf row).maxAttempts →
      world.deadLetters.get? job = some letter →
      CarriedBy row letter →
      LifeOf world job row (.deadLettered failed.length)

/-! ## The variables of the holder -/

/-- The row that an attempt read at its start still agrees with the job. -/
structure SameAttempt (row snapshot : Job) : Prop where
  attemptCount : snapshot.attemptCount = row.attemptCount
  queueId : snapshot.queueId = row.queueId
  payload : snapshot.payload = row.payload

/-- The variables of an attempt are those of the job and of its latest
execution. -/
structure Attempt.Agrees (attempt : Attempt) (row : Job)
    (policy : RetryPolicy) (execution : ExecutionId) : Prop where
  snapshot : SameAttempt row attempt.job
  policy : attempt.policy = policy
  execution : attempt.execution = execution

namespace ExecPhase

/-- The phases of `executeJob` that are possible at a stage of the job. -/
def Agrees (row : Job) (policy : RetryPolicy) : Life → ExecPhase → Prop
  | .claimed _, .findJob => True
  | .claimed _, .markRunning snapshot read =>
      SameAttempt row snapshot ∧ read = policy
  | .claimed _, .publishRunning snapshot read =>
      SameAttempt row snapshot ∧ read = policy
  | .claimed _, .createExecution snapshot read =>
      SameAttempt row snapshot ∧ read = policy
  | .executing _ id, .handler attempt => attempt.Agrees row policy id
  | .executing _ id, .complete attempt _ => attempt.Agrees row policy id
  | .executing _ id, .retry attempt _ _ _ =>
      attempt.Agrees row policy id ∧
        (attempt.number : Int) < policy.maxAttempts
  | .executing _ id, .deadLetter attempt _ =>
      attempt.Agrees row policy id ∧
        ¬(attempt.number : Int) < policy.maxAttempts
  | _, _ => False

end ExecPhase

/-- A call that holds the job is at its stage. -/
def Call.Agrees (row : Job) (policy : RetryPolicy) (life : Life) :
    Call → Prop
  | .poll _ => ∃ failures, life = .claimed failures
  | .exec running => running.phase.Agrees row policy life
  | _ => True

theorem Call.Agrees.continued {row : Job} {policy : RetryPolicy} {life : Life}
    {old value : Call} (agrees : old.Agrees row policy life)
    (continues : old.Continues value) : value.Agrees row policy life := by
  cases continues with
  | same => exact agrees
  | handedOver => exact agrees
  | launched =>
      obtain ⟨failures, rfl⟩ := agrees
      trivial

/-- The state represents a stage of the job's life, or the job is not there
yet. -/
structure Lifecycle (job : JobId) (state : State) : Prop where
  absent : state.world.jobs.get? job = none →
    state.world.executionsOf job = [] ∧
    state.world.deadLetters.get? job = none
  present : ∀ row, state.world.jobs.get? job = some row →
    ∃ life, LifeOf state.world job row life ∧
      ∀ call value, state.calls call = some value → value.holds job →
        value.Agrees row (state.world.retryPolicyOf row) life

/-! ## What other calls leave alone -/

/-- What a step leaves of the job, apart from its status. -/
structure SameRecord (world next : World) (job : JobId) (row row' : Job) :
    Prop where
  later : world.now ≤ next.now
  attemptCount : row'.attemptCount = row.attemptCount
  queueId : row'.queueId = row.queueId
  payload : row'.payload = row.payload
  policy : next.retryPolicyOf row' = world.retryPolicyOf row
  executions : next.executionsOf job = world.executionsOf job
  deadLetter : next.deadLetters.get? job = world.deadLetters.get? job

namespace SameRecord

variable {world next : World} {job : JobId} {row row' : Job}

theorem failures (same : SameRecord world next job row row')
    {failed : List JobExecution} (failures : Failures world job row failed) :
    Failures next job row' failed where
  inOrder := failures.inOrder
  closed := by
    intro attempt member
    obtain ⟨status, instant, past, finished⟩ := failures.closed attempt member
    exact ⟨status, instant, past.trans same.later, finished⟩
  counted := same.attemptCount.trans failures.counted
  allowed := by
    rw [same.policy]
    exact failures.allowed
  noDeadLetter := same.deadLetter.trans failures.noDeadLetter
  payload := by
    rw [same.payload]
    exact failures.payload

theorem lifeOf (same : SameRecord world next job row row') {life : Life}
    (lifeOf : LifeOf world job row life)
    (status : row'.status = row.status ∨
      (row.status.inFlight = true ∧ row'.status.inFlight = true)) :
    LifeOf next job row' life := by
  have settled : ∀ {which : JobStatus}, row.status = which →
      which.inFlight = false → row'.status = which := by
    intro which is notInFlight
    rcases status with equal | ⟨inFlight, _⟩
    · rw [equal, is]
    · rw [is, notInFlight] at inFlight
      cases inFlight
  have flying : row.status.inFlight = true → row'.status.inFlight = true := by
    intro inFlight
    rcases status with equal | ⟨_, inFlight'⟩
    · rw [equal, inFlight]
    · exact inFlight'
  cases lifeOf with
  | waiting isWaiting failures attempts =>
      refine .waiting ?_ (same.failures failures) (same.executions ▸ attempts)
      rcases isWaiting with queued | scheduled
      · exact .inl (settled queued rfl)
      · exact .inr (settled scheduled rfl)
  | claimed inFlight failures attempts =>
      exact .claimed (flying inFlight) (same.failures failures)
        (same.executions ▸ attempts)
  | executing inFlight failures attempts earlier inOrder running =>
      exact .executing (flying inFlight) (same.failures failures)
        (same.executions ▸ attempts) earlier inOrder running
  | completed isCompleted failures attempts inOrder completed =>
      exact .completed (settled isCompleted rfl) (same.failures failures)
        (same.executions ▸ attempts) inOrder completed
  | deadLettered isDead attempts inOrder failed counted bounded letter
      carried =>
      refine .deadLettered (settled isDead rfl) (same.executions ▸ attempts)
        inOrder failed (same.attemptCount.trans counted) ?_
        (same.deadLetter.trans letter) ?_
      · rw [same.policy]
        exact bounded
      · exact ⟨carried.queueId.trans same.queueId.symm,
          carried.payload.trans same.payload.symm,
          carried.attemptCount.trans same.attemptCount.symm⟩

theorem sameAttempt (same : SameRecord world next job row row')
    {snapshot : Job} (agrees : SameAttempt row snapshot) :
    SameAttempt row' snapshot :=
  ⟨agrees.attemptCount.trans same.attemptCount.symm,
    agrees.queueId.trans same.queueId.symm,
    agrees.payload.trans same.payload.symm⟩

theorem phase_agrees (same : SameRecord world next job row row')
    {life : Life} {phase : ExecPhase}
    (agrees : phase.Agrees row (world.retryPolicyOf row) life) :
    phase.Agrees row' (next.retryPolicyOf row') life := by
  have attempt : ∀ {attempt : Attempt} {id : ExecutionId},
      attempt.Agrees row (world.retryPolicyOf row) id →
      attempt.Agrees row' (next.retryPolicyOf row') id := by
    intro attempt id agrees
    exact ⟨same.sameAttempt agrees.snapshot,
      agrees.policy.trans same.policy.symm, agrees.execution⟩
  have read : ∀ {snapshot : Job} {policy : RetryPolicy},
      SameAttempt row snapshot ∧ policy = world.retryPolicyOf row →
      SameAttempt row' snapshot ∧ policy = next.retryPolicyOf row' := by
    rintro snapshot policy ⟨snapshotAgrees, policyAgrees⟩
    exact ⟨same.sameAttempt snapshotAgrees,
      policyAgrees.trans same.policy.symm⟩
  cases life with
  | claimed =>
      cases phase with
      | findJob => trivial
      | markRunning => exact read agrees
      | publishRunning => exact read agrees
      | createExecution => exact read agrees
      | _ => cases agrees
  | executing =>
      cases phase with
      | handler => exact attempt agrees
      | complete => exact attempt agrees
      | retry => exact ⟨attempt agrees.1, same.policy ▸ agrees.2⟩
      | deadLetter => exact ⟨attempt agrees.1, same.policy ▸ agrees.2⟩
      | _ => cases agrees
  | _ => cases agrees

theorem call_agrees (same : SameRecord world next job row row')
    {life : Life} {value : Call}
    (agrees : value.Agrees row (world.retryPolicyOf row) life) :
    value.Agrees row' (next.retryPolicyOf row') life := by
  cases value with
  | poll => exact agrees
  | exec => exact same.phase_agrees agrees
  | _ => trivial

end SameRecord

/-! ## Claims and executions among themselves -/

/-- A call of the reaper, a manual retry or a cancel. -/
def Call.outsider : Call → Bool
  | .reap _ => true
  | .retry _ => true
  | .cancel _ => true
  | _ => false

/-- A reap cycle, a manual retry or a cancel begins. -/
def Action.intrudes : Action → Bool
  | .startReap _ _ => true
  | .request _ (.retry _) => true
  | .request _ (.cancel _) => true
  | _ => false

def Confined (state : State) : Prop :=
  ∀ {call value}, state.calls call = some value → value.outsider = false

def ExecPhase.attempt? : ExecPhase → Option Attempt
  | .handler attempt => some attempt
  | .complete attempt _ => some attempt
  | .retry attempt _ _ _ => some attempt
  | .deadLetter attempt _ => some attempt
  | _ => none

/-- The execution of an attempt in progress is one of its job. -/
def AttemptRows (state : State) : Prop :=
  ∀ {call exec attempt}, state.calls call = some (.exec exec) →
    exec.phase.attempt? = some attempt →
    ∃ row, state.world.executions.get? attempt.execution = some row ∧
      row.jobId = exec.jobId

section Steps

variable {env : Env} {start last state next : State} {action : Action}
  {trace : List (Transition State Action)} {job : JobId}

private theorem handle_outsider {world world' : World} {value value' : Call}
    {input : ApiInput}
    (handled : handle world value input = some (world', value')) :
    value'.outsider = value.outsider := by
  cases handle_cases handled <;> rfl

theorem Confined.step (confined : Confined state)
    (taken : Chronos.step env state action = some next)
    (stays : action.intrudes = false) : Confined next := by
  intro call value found
  cases step_call taken found with
  | kept old => exact confined old
  | started starts =>
      cases starts with
      | reap => cases stays
      | request =>
          rename_i request
          cases request with
          | submit => rfl
          | batch => rfl
          | retry => cases stays
          | cancel => cases stays
      | _ => rfl
  | reap old => cases confined old
  | api old _ _ handled => exact (handle_outsider handled).trans (confined old)
  | _ => rfl

theorem Confined.outsideWrite (confined : Confined state) :
    action.outsideWrite state = none := by
  cases write : action.outsideWrite state with
  | none => rfl
  | some target =>
      obtain ⟨job, status⟩ := target
      rcases Action.outsideWrite_cases write with
        ⟨requeues, _⟩ | ⟨retries, _⟩ | ⟨cancels, _⟩
      · unfold Action.requeuesOrphan at requeues
        split at requeues
        · split at requeues
          · cases confined ‹_›
          · cases requeues
        · cases requeues
      · unfold Action.commitsRetry at retries
        split at retries
        · split at retries
          · cases confined ‹_›
          · cases retries
        · cases retries
      · unfold Action.commitsCancel at cancels
        split at cancels
        · split at cancels
          · cases confined ‹_›
          · cases cancels
        · cases cancels

/-- The execution of an attempt is that of the phase before, or it has just
been created. -/
theorem ExecStep.attempt_origin {world next : World}
    {exec exec' : ExecCall} {input : ExecInput} {attempt : Attempt}
    (case : ExecStep world exec input next (some exec'))
    (current : exec'.phase.attempt? = some attempt) :
    (∃ before, exec.phase.attempt? = some before ∧
      before.execution = attempt.execution) ∨
    (world.executions.get? attempt.execution = none ∧
      ∃ row, next.executions.get? attempt.execution = some row ∧
        row.jobId = exec.jobId) := by
  cases case with
  | created phase inserted =>
      cases current
      have absent := (Table.insert?_eq_some_iff.mp inserted).1
      have found := (Table.get?_insert? inserted).trans (if_pos rfl)
      exact .inr ⟨absent, _, found, rfl⟩
  | @logged before _ _ phase =>
      cases current
      exact .inl ⟨before, by rw [phase]; rfl, rfl⟩
  | resolved phase =>
      cases current
      exact .inl ⟨attempt, by rw [phase]; rfl, rfl⟩
  | @rejected before error random phase =>
      have same : before.execution = attempt.execution := by
        simp only [handleFailure] at current
        split at current <;> cases current <;> rfl
      rcases phase with phase | ⟨_, phase⟩ <;>
        exact .inl ⟨before, by rw [phase]; rfl, same⟩
  | _ => cases current

theorem AttemptRows.step (rows : AttemptRows state)
    (taken : Chronos.step env state action = some next) :
    AttemptRows next := by
  have kept : ∀ {id : ExecutionId} {target : JobId},
      (∃ row, state.world.executions.get? id = some row ∧
        row.jobId = target) →
      ∃ row, next.world.executions.get? id = some row ∧
        row.jobId = target := by
    rintro id target ⟨row, found, same⟩
    obtain ⟨row', found', same', _⟩ := step_execution taken found
    exact ⟨row', found', same'.trans same⟩
  intro call exec attempt found current
  generalize same : Call.exec exec = value at found
  cases step_call taken found with
  | kept old =>
      subst same
      exact kept (rows old current)
  | started starts =>
      cases starts with
      | request =>
          rename_i request
          cases request <;> cases same
      | _ => cases same
  | launched =>
      cases same
      cases current
  | exec old case world =>
      cases same
      subst world
      rcases case.attempt_origin current with
        ⟨before, earlier, sameId⟩ | ⟨_, inserted⟩
      · rw [← sameId, case.same_job]
        exact kept (rows old earlier)
      · rw [case.same_job]
        exact inserted
  | api old case =>
      subst same
      cases case.requests.2
  | _ => cases same

/-- What holds of every state of a run of claims and executions. -/
structure AttemptInv (job : JobId) (state : State) : Prop where
  locks : LockInv state
  ownership : Ownership (fun status => !status.inFlight) state
  rows : RowsInv (fun _ _ => True) state
  confined : Confined state
  attempts : AttemptRows state
  lifecycle : Lifecycle job state

/-- The step belongs to no execution of the job. -/
def NoAttempt (job : JobId) (state : State) (action : Action) : Prop :=
  ∀ {call input exec}, action = .exec call input →
    state.calls call = some (.exec exec) → exec.phase.owns = true →
    exec.jobId ≠ job

private theorem ExecPhase.of_closes {phase : ExecPhase} {attempt : Attempt}
    {status : ExecutionStatus} {durationMs : Int} {error : Option String}
    (closes : phase.closes = some (attempt, status, durationMs, error)) :
    phase.attempt? = some attempt ∧ phase.owns = true := by
  cases phase <;> cases closes <;> exact ⟨rfl, rfl⟩

private theorem same_executions (attempts : AttemptRows state)
    (confined : Confined state)
    (taken : step env state action = some next)
    (none : NoAttempt job state action) :
    next.world.executionsOf job = state.world.executionsOf job := by
  unfold World.executionsOf
  rcases step_executions taken with same | write
  · rw [same]
  · generalize next.world.executions = executions at write
    cases write with
    | @created _ exec _ _ _ _ called phase inserted =>
        have other := none rfl called (by rw [phase]; rfl)
        rw [Table.rowsWhere_insert? _ inserted]
        simp [other]
    | closed called closes =>
        obtain ⟨current, owns⟩ := ExecPhase.of_closes closes
        obtain ⟨row, found, same⟩ := attempts called current
        have other := none rfl called owns
        refine Table.rowsWhere_modify_of_not ?_ found (by simp [same, other])
        intro execution
        rfl
    | orphansClosed called => cases confined called

private theorem same_deadLetter (confined : Confined state)
    (taken : step env state action = some next)
    (none : NoAttempt job state action) :
    next.world.deadLetters.get? job = state.world.deadLetters.get? job := by
  rcases step_deadLetter taken job with same | write
  · exact same
  · generalize next.world.deadLetters.get? job = letter at write
    cases write with
    | inserted called target phase =>
        exact (none rfl called (by rw [phase]; rfl) target).elim
    | erased called => cases confined called

private theorem same_row (confined : Confined state)
    (taken : step env state action = some next)
    (none : NoAttempt job state action)
    (unclaimed : Unclaimed job ⟨state, action, next⟩) {row : Job}
    (found : state.world.jobs.get? job = some row) :
    next.world.jobs.get? job = some row := by
  obtain ⟨row', found', same | write⟩ := step_job taken found
  · rw [found', same]
  · cases write with
    | claim called phase member =>
        exact (unclaimed.notMem called phase member).elim
    | markRunning called target phase =>
        exact (none rfl called (by rw [phase]; rfl) target).elim
    | complete called target phase =>
        exact (none rfl called (by rw [phase]; rfl) target).elim
    | retry called target phase =>
        exact (none rfl called (by rw [phase]; rfl) target).elim
    | deadLetter called target phase =>
        exact (none rfl called (by rw [phase]; rfl) target).elim
    | requeueOrphan called => cases confined called
    | resetForRetry called => cases confined called
    | cancel called => cases confined called

private theorem AttemptInv.held (inv : AttemptInv job state) {call : CallId}
    (held : state.holds call job) :
    ∃ row, state.world.jobs.get? job = some row ∧
      row.status.inFlight = true := by
  obtain ⟨row, found, inFlight⟩ := inv.ownership.row held
  exact ⟨row, found, by simpa using inFlight⟩

theorem LifeOf.new {world : World} {row : Job} (new : row.New)
    (executions : world.executionsOf job = [])
    (noDeadLetter : world.deadLetters.get? job = none) :
    LifeOf world job row (.waiting ([] : List JobExecution).length) := by
  refine .waiting new.status ⟨.nil, by simp, new.attemptCount, .inl rfl,
    noDeadLetter, new.payload⟩ ?_
  rw [executions]
  rfl

/-- A step of something else keeps the stage of the job. -/
private theorem lifecycle_foreign (inv : AttemptInv job state)
    (taken : step env state action = some next)
    (none : NoAttempt job state action)
    (unclaimed : Unclaimed job ⟨state, action, next⟩) :
    Lifecycle job next := by
  have executions := same_executions inv.attempts inv.confined taken none
  have deadLetter := same_deadLetter inv.confined taken none
  -- A call that holds the job after the step held it before.
  have old : ∀ {call value}, next.calls call = some value →
      value.holds job → ∃ before old, state.calls before = some old ∧
        old.holds job ∧ old.Continues value := by
    intro call value found holds
    rcases step_holder taken found holds with
      kept | ⟨worker, _, _, _, ids, _, rfl, called, member, _⟩ |
        ⟨exec, _, _, rfl, called, case, _, target⟩
    · exact kept
    · exact (unclaimed.notMem called rfl member).elim
    · exact (none rfl called case.owns target).elim
  cases before : state.world.jobs.get? job with
  | none =>
      obtain ⟨noExecutions, noDeadLetter⟩ := inv.lifecycle.absent before
      constructor
      · intro _
        exact ⟨executions.trans noExecutions, deadLetter.trans noDeadLetter⟩
      · intro row found
        have new := (step_created taken before found).new inv.rows
        refine ⟨_, LifeOf.new new (executions.trans noExecutions)
          (deadLetter.trans noDeadLetter), ?_⟩
        intro call value called holds
        obtain ⟨_, held, heldCall, heldJob, _⟩ := old called holds
        obtain ⟨_, present, _⟩ := inv.held ⟨held, heldCall, heldJob⟩
        rw [before] at present
        cases present
  | some row =>
      have after := same_row inv.confined taken none unclaimed before
      constructor
      · intro absent
        rw [after] at absent
        cases absent
      · intro row' found
        cases after.symm.trans found
        obtain ⟨life, lifeOf, agrees⟩ := inv.lifecycle.present row before
        have same : SameRecord state.world next.world job row row :=
          ⟨step_now taken, rfl, rfl, rfl, step_retryPolicyOf taken rfl rfl,
            executions, deadLetter⟩
        refine ⟨life, same.lifeOf lifeOf (.inl rfl), ?_⟩
        intro call value called holds
        obtain ⟨holder, held, heldCall, heldJob, continues⟩ := old called holds
        have before := agrees holder held heldCall heldJob
        exact same.call_agrees (before.continued continues)

private theorem lifecycle_claim (inv : AttemptInv job state) {call : CallId}
    {worker : WorkerId} {queue : QueueRef} {rest : List QueueRef}
    {txNow : Time} {ids : List JobId}
    (taken : step env state (.poll call (.claim .ok)) = some next)
    (called : state.calls call = some (.poll
      ⟨worker, .claiming queue rest (.commit txNow ids)⟩))
    (member : job ∈ ids) : Lifecycle job next := by
  have noAttempt : NoAttempt job state (.poll call (.claim .ok)) := by
    intro _ _ _ same
    cases same
  have executions := same_executions inv.attempts inv.confined taken noAttempt
  have deadLetter := same_deadLetter inv.confined taken noAttempt
  have returns := ClaimReturns.of_commit taken called rfl
  have queued := returns.status_before taken inv.locks member
  obtain ⟨row, before, isQueued⟩ := State.status?_eq_some_iff.mp queued
  have claimed := returns.status_after taken inv.locks member
  obtain ⟨row', found', isClaimed⟩ := State.status?_eq_some_iff.mp claimed
  obtain ⟨_, after, change⟩ := step_job taken before
  cases found'.symm.trans after
  have same : SameRecord state.world next.world job row row' := by
    rcases change with rfl | write
    · rw [isQueued] at isClaimed
      cases isClaimed
    · cases write
      exact ⟨step_now taken, rfl, rfl, rfl, step_retryPolicyOf taken rfl rfl,
        executions, deadLetter⟩
  constructor
  · intro absent
    rw [after] at absent
    cases absent
  · intro row'' found
    cases after.symm.trans found
    obtain ⟨life, lifeOf, _⟩ := inv.lifecycle.present row before
    cases lifeOf with
    | @waiting failed _ failures attempts =>
        refine ⟨.claimed failed.length, ?_, ?_⟩
        · exact .claimed (by rw [isClaimed]; rfl) (same.failures failures)
            (executions ▸ attempts)
        · intro holder value heldCall holds
          rcases step_holder taken heldCall holds with
            ⟨other, old, oldCall, oldHolds, _⟩ |
              ⟨_, _, _, _, _, _, _, _, _, rfl⟩ | ⟨_, _, _, action, _⟩
          · obtain ⟨_, present, inFlight⟩ := inv.held ⟨old, oldCall, oldHolds⟩
            cases before.symm.trans present
            rw [isQueued] at inFlight
            cases inFlight
          · exact ⟨_, rfl⟩
          · cases action
    | claimed inFlight => rw [isQueued] at inFlight; cases inFlight
    | executing inFlight => rw [isQueued] at inFlight; cases inFlight
    | completed status => rw [isQueued] at status; cases status
    | deadLettered status => rw [isQueued] at status; cases status

/-- The stage after a step of the job's own execution. -/
private def AttemptTo (job : JobId) (next : World) (exec' : Option ExecCall) :
    Prop :=
  ∃ row life, next.jobs.get? job = some row ∧ LifeOf next job row life ∧
    ∀ running ∈ exec', running.phase.owns = true →
      running.phase.Agrees row (next.retryPolicyOf row) life

private theorem attempt_silent {world : World} {row : Job} {life : Life}
    {exec' : Option ExecCall}
    (found : state.world.jobs.get? job = some row)
    (lifeOf : LifeOf state.world job row life)
    (same : SameRows state.world world)
    (agrees : ∀ running ∈ exec', running.phase.owns = true →
      running.phase.Agrees row (state.world.retryPolicyOf row) life) :
    AttemptTo job world exec' := by
  have record : SameRecord state.world world job row row :=
    ⟨same.now.ge, rfl, rfl, rfl,
      by simp [World.retryPolicyOf, same.queues, same.retryPolicies],
      by simp [World.executionsOf, same.executions],
      by rw [same.deadLetters]⟩
  refine ⟨row, life, by rw [same.jobs, found],
    record.lifeOf lifeOf (.inl rfl), ?_⟩
  intro running member owns
  exact record.phase_agrees (agrees running member owns)

private theorem attempt_created {world : World} {row : Job} {life : Life}
    {exec : ExecCall} {snapshot : Job} {policy : RetryPolicy}
    {id : ExecutionId} {executions : Table ExecutionId JobExecution}
    (found : world.jobs.get? exec.jobId = some row)
    (lifeOf : LifeOf world exec.jobId row life)
    (agrees : (ExecPhase.createExecution snapshot policy).Agrees row
      (world.retryPolicyOf row) life)
    (inserted : world.executions.insert? id
        { jobId := exec.jobId, workerId := exec.workerId
          attemptNumber := snapshot.attemptCount + 1, startedAt := world.now
          finishedAt := none, status := .running
          errorMessage := none, durationMs := none } = some executions) :
    AttemptTo exec.jobId { world with executions := executions }
      (some { exec with
        phase := .handler ⟨snapshot, policy, id, world.now, []⟩ }) := by
  cases lifeOf with
  | @claimed failed inFlight failures attempts =>
      obtain ⟨sameAttempt, samePolicy⟩ := agrees
      refine ⟨row, .executing failed.length id, found, ?_, ?_⟩
      · have rows := Table.rowsWhere_insert?
          (fun execution => decide (execution.jobId = exec.jobId)) inserted
        simp only [decide_true, if_true] at rows
        refine .executing inFlight ?_ rows attempts ?_ rfl
        · exact ⟨failures.inOrder, failures.closed, failures.counted,
            failures.allowed, failures.noDeadLetter, failures.payload⟩
        · refine failures.inOrder.snoc ?_ ?_
          · rw [← failures.counted, ← sameAttempt.attemptCount]
          · intro earlier member
            obtain ⟨_, instant, past, finished⟩ :=
              failures.closed earlier member
            exact ⟨instant, finished, past⟩
      · intro running member _
        cases member
        exact ⟨sameAttempt, samePolicy, rfl⟩
  | _ => cases agrees

/-- The rows of the job after the transaction that closes its execution. -/
private theorem executions_closed {world next : World} {row : Job}
    {failures : Nat} {id : ExecutionId} {status : ExecutionStatus}
    {durationMs : Int} {error : Option String}
    (lifeOf : LifeOf world job row (.executing failures id))
    (executions : next.executions = world.executions.modify id
      (JobExecution.finish status world.now durationMs error)) :
    ∃ failed attempt, failures = failed.length ∧
      Failures world job row failed ∧
      (next.executionsOf job).map Prod.snd = failed ++ [attempt] ∧
      InOrder (failed ++ [attempt]) ∧ attempt.status = status ∧
      attempt.finishedAt = some world.now := by
  cases lifeOf with
  | @executing failed earlier _ attempt _ counted attempts isEarlier inOrder _ =>
      let closed := attempt.finish status world.now durationMs error
      have rows : next.executionsOf job = earlier ++ [(id, closed)] := by
        unfold World.executionsOf at attempts ⊢
        rw [executions]
        exact Table.rowsWhere_modify_last (fun _ => rfl) attempts
      refine ⟨failed, closed, rfl, counted, ?_, ?_, rfl, rfl⟩
      · rw [rows, List.map_append, isEarlier]
        rfl
      · exact inOrder.replace_last rfl rfl

theorem Attempt.Agrees.number {world : World} {row : Job}
    {failed : List JobExecution} {attempt : Attempt} {policy : RetryPolicy}
    {id : ExecutionId} (agrees : attempt.Agrees row policy id)
    (failures : Failures world job row failed) :
    attempt.number = failed.length + 1 := by
  rw [Attempt.number, agrees.snapshot.attemptCount, failures.counted]

private theorem attempt_completed {world : World} {row : Job} {life : Life}
    {exec : ExecCall} {attempt : Attempt} {durationMs : Int}
    (found : world.jobs.get? exec.jobId = some row)
    (lifeOf : LifeOf world exec.jobId row life)
    (agrees : (ExecPhase.complete attempt durationMs).Agrees row
      (world.retryPolicyOf row) life) :
    AttemptTo exec.jobId (world.commitCompleted exec.jobId attempt durationMs)
      (some { exec with phase := .publish attempt.job "completed" }) := by
  cases life with
  | executing failures id =>
      obtain ⟨_, _, rfl⟩ := agrees
      have executions :
          (world.commitCompleted exec.jobId attempt durationMs).executions =
            world.executions.modify attempt.execution
              (JobExecution.finish .completed world.now durationMs none) := rfl
      obtain ⟨failed, closed, rfl, counted, attempts, inOrder, status, _⟩ :=
        executions_closed lifeOf executions
      refine ⟨row.complete world.now, .completed failed.length, ?_, ?_, ?_⟩
      · change (world.updateJob exec.jobId _).jobs.get? exec.jobId = _
        simp [World.get?_updateJob, found]
      · refine .completed rfl ?_ attempts inOrder status
        exact ⟨counted.inOrder, counted.closed, counted.counted,
          counted.allowed, counted.noDeadLetter, counted.payload⟩
      · intro running member owns
        cases member
        cases owns
  | _ => cases agrees

private theorem attempt_retried {world : World} {row : Job} {life : Life}
    {exec : ExecCall} {attempt : Attempt} {failure : Failure} {delayMs : Int}
    {runAt : Time} (found : world.jobs.get? exec.jobId = some row)
    (lifeOf : LifeOf world exec.jobId row life)
    (agrees : (ExecPhase.retry attempt failure delayMs runAt).Agrees row
      (world.retryPolicyOf row) life) :
    AttemptTo exec.jobId
      (world.commitRetry exec.jobId attempt failure delayMs runAt)
      (some { exec with
        phase := .publish attempt.job "failed_retrying" }) := by
  cases life with
  | executing failures id =>
      obtain ⟨⟨snapshot, policy, rfl⟩, another⟩ := agrees
      have executions : (world.commitRetry exec.jobId attempt failure delayMs
          runAt).executions = world.executions.modify attempt.execution
            (JobExecution.finish .failed world.now failure.durationMs
              failure.errorMessage) := rfl
      obtain ⟨failed, closed, rfl, counted, attempts, inOrder, status,
        finished⟩ := executions_closed lifeOf executions
      have number : attempt.number = failed.length + 1 :=
        Attempt.Agrees.number ⟨snapshot, policy, rfl⟩ counted
      have length : (failed ++ [closed]).length = attempt.number := by
        rw [number, List.length_append, List.length_singleton]
      refine ⟨row.requeueForRetry attempt.number runAt world.now,
        .waiting (failed ++ [closed]).length, ?_, ?_, ?_⟩
      · change (world.updateJob exec.jobId _).jobs.get? exec.jobId = _
        simp [World.get?_updateJob, found]
      · refine .waiting (.inl rfl) ⟨inOrder, ?_, length.symm, .inr ?_,
          counted.noDeadLetter, counted.payload⟩ attempts
        · exact List.forall_mem_snoc counted.closed
            ⟨status, world.now, le_rfl, finished⟩
        · rw [length]
          exact another
      · intro running member owns
        cases member
        cases owns
  | _ => cases agrees

private theorem attempt_deadLettered {world next : World} {row : Job}
    {life : Life} {exec : ExecCall} {attempt : Attempt} {failure : Failure}
    (found : world.jobs.get? exec.jobId = some row)
    (lifeOf : LifeOf world exec.jobId row life)
    (agrees : (ExecPhase.deadLetter attempt failure).Agrees row
      (world.retryPolicyOf row) life)
    (success : world.commitDeadLetter exec.jobId attempt failure =
      some next) :
    AttemptTo exec.jobId next
      (some { exec with phase := .publish attempt.job "dead_letter" }) := by
  obtain ⟨deadLetters, logs, inserted, same⟩ :=
    World.commitDeadLetter_spec success
  cases life with
  | executing failures id =>
      obtain ⟨⟨snapshot, policy, rfl⟩, _⟩ := agrees
      have executions : next.executions =
          world.executions.modify attempt.execution
            (JobExecution.finish .failed world.now failure.durationMs
              failure.errorMessage) := by
        rw [same]
        rfl
      obtain ⟨failed, closed, rfl, counted, attempts, inOrder, status, _⟩ :=
        executions_closed lifeOf executions
      subst same
      have number : attempt.number = failed.length + 1 :=
        Attempt.Agrees.number ⟨snapshot, policy, rfl⟩ counted
      have length : (failed ++ [closed]).length = attempt.number := by
        rw [number, List.length_append, List.length_singleton]
      refine ⟨row.moveToDeadLetter attempt.number world.now,
        .deadLettered (failed ++ [closed]).length, ?_, ?_, ?_⟩
      · change (world.updateJob exec.jobId _).jobs.get? exec.jobId = _
        simp [World.get?_updateJob, found]
      · refine .deadLettered rfl attempts inOrder ?_ length.symm ?_
          ((Table.get?_insert? inserted).trans (if_pos rfl)) ⟨?_, ?_, rfl⟩
        · exact List.forall_mem_snoc
            (fun other old => (counted.closed other old).1) status
        · have allowed := counted.allowed
          change ((failed ++ [closed]).length : Int) ≤
            max 1 (world.retryPolicyOf row).maxAttempts
          rw [List.length_append, List.length_singleton]
          rcases allowed with rfl | less
          · simp
          · omega
        · exact snapshot.queueId
        · have notNull := counted.payload
          rw [← snapshot.payload] at notNull
          have kept : Json.orElse (some attempt.job.payload) (.obj []) =
              attempt.job.payload := by
            cases payload : attempt.job.payload with
            | null => exact (notNull payload).elim
            | _ => rfl
          exact kept.trans snapshot.payload
      · intro running member owns
        cases member
        cases owns
  | _ => cases agrees

private theorem attempt_marked {world : World} {row : Job} {life : Life}
    {exec : ExecCall} {snapshot : Job} {policy : RetryPolicy}
    (found : world.jobs.get? exec.jobId = some row)
    (lifeOf : LifeOf world exec.jobId row life)
    (agrees : (ExecPhase.markRunning snapshot policy).Agrees row
      (world.retryPolicyOf row) life) :
    AttemptTo exec.jobId
      (world.updateJob exec.jobId (Job.markRunning world.now))
      (some { exec with phase := .publishRunning snapshot policy }) := by
  have record : SameRecord world
      (world.updateJob exec.jobId (Job.markRunning world.now)) exec.jobId row
      (row.markRunning world.now) :=
    ⟨le_rfl, rfl, rfl, rfl, rfl, rfl, rfl⟩
  cases lifeOf with
  | @claimed failed inFlight failures attempts =>
      refine ⟨row.markRunning world.now, .claimed failed.length, ?_, ?_, ?_⟩
      · simp [World.get?_updateJob, found]
      · exact record.lifeOf (.claimed inFlight failures attempts)
          (.inr ⟨inFlight, rfl⟩)
      · intro running member _
        cases member
        have published : (ExecPhase.publishRunning snapshot policy).Agrees row
            (world.retryPolicyOf row) (.claimed failed.length) := agrees
        exact record.phase_agrees published
  | _ => cases agrees

/-- What a step of its own execution makes of the job. -/
private theorem attempt_step {world : World} {exec : ExecCall}
    {input : ExecInput} {exec' : Option ExecCall} {row : Job} {life : Life}
    (case : ExecStep state.world exec input world exec')
    (owns : exec.phase.owns = true)
    (found : state.world.jobs.get? exec.jobId = some row)
    (lifeOf : LifeOf state.world exec.jobId row life)
    (agrees : exec.phase.Agrees row (state.world.retryPolicyOf row) life) :
    AttemptTo exec.jobId world exec' := by
  have silent : ∀ {world : World} {phase : ExecPhase},
      SameRows state.world world →
      phase.Agrees row (state.world.retryPolicyOf row) life →
      AttemptTo exec.jobId world (some { exec with phase := phase }) := by
    intro world phase same agrees
    refine attempt_silent found lifeOf same ?_
    intro running member _
    cases member
    exact agrees
  cases case with
  | jobMissing _ absent =>
      rw [absent] at found
      cases found
  | found phase read =>
      cases found.symm.trans read
      rw [phase] at agrees
      apply silent (.refl _)
      cases life with
      | claimed => exact ⟨⟨rfl, rfl, rfl⟩, rfl⟩
      | _ => cases agrees
  | marked phase _ =>
      rw [phase] at agrees
      exact attempt_marked found lifeOf agrees
  | announced phase same =>
      rw [phase] at agrees
      apply silent same
      cases life with
      | claimed => exact agrees
      | _ => cases agrees
  | created phase inserted =>
      rw [phase] at agrees
      exact attempt_created found lifeOf agrees inserted
  | logged phase =>
      rw [phase] at agrees
      apply silent (.refl _)
      cases life with
      | executing => exact ⟨agrees.snapshot, agrees.policy, agrees.execution⟩
      | _ => cases agrees
  | resolved phase =>
      rw [phase] at agrees
      apply silent (.refl _)
      cases life with
      | executing => exact agrees
      | _ => cases agrees
  | @rejected attempt error random phase =>
      have attemptAgrees : ∃ failures id, life = .executing failures id ∧
          attempt.Agrees row (state.world.retryPolicyOf row) id := by
        rcases phase with phase | ⟨_, phase⟩ <;> rw [phase] at agrees <;>
          cases life with
          | executing => exact ⟨_, _, rfl, agrees⟩
          | _ => cases agrees
      obtain ⟨failures, id, rfl, attemptAgrees⟩ := attemptAgrees
      apply silent (.refl _)
      unfold handleFailure
      dsimp only
      split
      · rename_i another
        exact ⟨attemptAgrees, attemptAgrees.policy ▸ another⟩
      · rename_i exhausted
        exact ⟨attemptAgrees, attemptAgrees.policy ▸ exhausted⟩
  | completed phase _ =>
      rw [phase] at agrees
      exact attempt_completed found lifeOf agrees
  | retried phase _ =>
      rw [phase] at agrees
      exact attempt_retried found lifeOf agrees
  | deadLettered phase _ success =>
      rw [phase] at agrees
      exact attempt_deadLettered found lifeOf agrees success
  | published phase =>
      rw [phase] at owns
      cases owns
  | abandoned =>
      refine attempt_silent found lifeOf (.refl _) ?_
      intro running member
      cases member

private theorem lifecycle_attempt (inv : AttemptInv job state) {call : CallId}
    {input : ExecInput} {exec : ExecCall}
    (taken : step env state (.exec call input) = some next)
    (called : state.calls call = some (.exec exec))
    (owns : exec.phase.owns = true) (target : exec.jobId = job) :
    Lifecycle job next := by
  subst target
  have held : state.holds call exec.jobId := ⟨_, called, rfl, owns⟩
  obtain ⟨row, found, _⟩ := inv.held held
  obtain ⟨life, lifeOf, agrees⟩ := inv.lifecycle.present row found
  cases step_cases taken with
  | started starts => cases starts
  | exec called' case =>
      cases called.symm.trans called'
      obtain ⟨row', life', found', lifeOf', agrees'⟩ :=
        attempt_step case owns found lifeOf (agrees _ _ called ⟨rfl, owns⟩)
      constructor
      · intro absent
        cases found'.symm.trans absent
      · intro row'' present
        cases found'.symm.trans present
        refine ⟨life', lifeOf', ?_⟩
        intro holder value heldCall holds
        by_cases same : holder = call
        · subst holder
          simp only [Function.update_self, Option.map_eq_some_iff] at heldCall
          obtain ⟨running, member, rfl⟩ := heldCall
          exact agrees' running member holds.2
        · simp only [Function.update_of_ne same] at heldCall
          exact (same
            (inv.ownership.exclusive.unique ⟨_, heldCall, holds⟩ held)).elim

theorem AttemptInv.step (inv : AttemptInv job state)
    (taken : Chronos.step env state action = some next)
    (stays : action.intrudes = false) : AttemptInv job next where
  locks := inv.locks.step taken
  ownership := by
    refine inv.ownership.step notInFlight_idle inv.locks taken ?_
    intro call write writes
    rw [Confined.outsideWrite inv.confined] at writes
    cases writes
  rows := inv.rows.step taken id fun _ => trivial
  confined := Confined.step inv.confined taken stays
  attempts := AttemptRows.step inv.attempts taken
  lifecycle := by
    by_cases attempt : ∃ call input exec, action = .exec call input ∧
        state.calls call = some (.exec exec) ∧ exec.phase.owns = true ∧
        exec.jobId = job
    · obtain ⟨call, input, exec, rfl, called, owns, target⟩ := attempt
      exact lifecycle_attempt inv taken called owns target
    · by_cases claimed : Unclaimed job ⟨state, action, next⟩
      · refine lifecycle_foreign inv taken ?_ claimed
        intro call input exec same called owns target
        exact attempt ⟨call, input, exec, same, called, owns, target⟩
      · unfold Unclaimed at claimed
        simp only [not_forall, not_not] at claimed
        obtain ⟨claim, claims, member⟩ := claimed
        obtain ⟨call, queue, rest, txNow, rfl, called⟩ :=
          Action.claims_eq_some claims
        exact lifecycle_claim inv taken called member

end Steps

end Chronos
