import Chronos.DeadLetters
import Chronos.Requeue

/-!
# The attempt limit

Two programs count the attempts of a job: `executeJob` compares with the
policy's limit and moves an exhausted job to the dead letter queue, a reap
cycle only counts and puts the job back to `queued`.  This file counts the
executions of a job in every run in which the reaper's requeues stay within the
limit; `LastAttempt` draws the conclusions.
-/

namespace Chronos

namespace Action

/-- The job for which this step creates an execution. -/
def startsAttempt (state : State) : Action → Option JobId
  | .exec call (.created _) =>
      match state.calls call with
      | some (.exec ⟨job, _, .createExecution _ _⟩) => some job
      | _ => none
  | _ => none

theorem startsAttempt_eq_some {state : State} {action : Action} {job : JobId}
    (starts : action.startsAttempt state = some job) :
    ∃ call id worker snapshot policy, action = .exec call (.created id) ∧
      state.calls call =
        some (.exec ⟨job, worker, .createExecution snapshot policy⟩) := by
  unfold startsAttempt at starts
  split at starts
  · split at starts <;> cases starts
    exact ⟨_, _, _, _, _, rfl, ‹_›⟩
  · cases starts

end Action

/-- The number of attempts after this step. -/
def countAttempt (job : JobId) (attempts : Nat)
    (transition : Transition State Action) : Nat :=
  if transition.action.commitsRetry transition.before = some job then 0
  else if transition.action.startsAttempt transition.before = some job then
    attempts + 1
  else attempts

/-- The executions of the job that this history has created since the job was
submitted or last retried by hand. -/
def attemptsOf (job : JobId) (trace : List (Transition State Action)) : Nat :=
  trace.foldl (countAttempt job) 0

theorem attemptsOf_snoc (job : JobId)
    (trace : List (Transition State Action))
    (transition : Transition State Action) :
    attemptsOf job (trace ++ [transition]) =
      countAttempt job (attemptsOf job trace) transition := by
  simp [attemptsOf]

namespace World

/-- `max(1, maxAttempts)` under the policy that applies to the job. -/
def attemptLimit (world : World) (row : Job) : Int :=
  max 1 (world.retryPolicyOf row).maxAttempts

end World

/-- The job has had no more attempts than allowed, and is not waiting for one
more than that. -/
structure WithinLimit (job : JobId) (attempts : Nat) (state : State) :
    Prop where
  bounded : ∀ row ∈ state.world.jobs.get? job,
    (attempts : Int) ≤ state.world.attemptLimit row
  exhausted : ∀ row ∈ state.world.jobs.get? job, row.status = .queued →
    (attempts : Int) < state.world.attemptLimit row

/-- A reap cycle that requeues a job leaves it an attempt. -/
def LeavesAttempt (transition : Transition State Action) : Prop :=
  ∀ job ∈ transition.action.requeuesOrphan transition.before,
    ∀ row ∈ transition.before.world.jobs.get? job,
      (row.attemptCount : Int) + 1 <
        (transition.before.world.retryPolicyOf row).maxAttempts

instance (transition : Transition State Action) :
    Decidable (LeavesAttempt transition) :=
  inferInstanceAs (Decidable (∀ job ∈ _, ∀ row ∈ _, _ < _))

/-- The step puts no job back to `queued` that this call holds, other than the
call itself. -/
abbrev QueuesUnheld (transition : Transition State Action) (call : CallId) :
    Prop :=
  Undisturbed (fun status => status = .queued) transition call

/-! ## Counting attempts -/

namespace Job

/-- One more attempt is within the limit. -/
def MayStart (row : Job) (policy : RetryPolicy) (attempts : Nat) : Prop :=
  attempts ≤ row.attemptCount ∧
    (row.attemptCount = 0 ∨ (row.attemptCount : Int) < policy.maxAttempts)

/-- The attempts so far are within the limit, and at most one of them has not
been counted yet. -/
def HasStarted (row : Job) (policy : RetryPolicy) (attempts : Nat) : Prop :=
  attempts ≤ row.attemptCount + 1 ∧ (attempts : Int) ≤ max 1 policy.maxAttempts

variable {row row' : Job} {policy : RetryPolicy} {attempts fewer : Nat}

theorem MayStart.lt (may : row.MayStart policy attempts) :
    (attempts : Int) < max 1 policy.maxAttempts := by
  unfold MayStart at may
  omega

theorem MayStart.started (may : row.MayStart policy attempts) :
    row.HasStarted policy (attempts + 1) := by
  unfold MayStart at may
  unfold HasStarted
  omega

theorem MayStart.mono (may : row.MayStart policy attempts)
    (le : fewer ≤ attempts) (same : row'.attemptCount = row.attemptCount) :
    row'.MayStart policy fewer := by
  unfold MayStart at *
  omega

theorem HasStarted.mono (started : row.HasStarted policy attempts)
    (le : fewer ≤ attempts) (later : row.attemptCount ≤ row'.attemptCount) :
    row'.HasStarted policy fewer := by
  unfold HasStarted at *
  omega

theorem HasStarted.counted (started : row.HasStarted policy attempts)
    (count : row'.attemptCount = row.attemptCount + 1)
    (left : (row'.attemptCount : Int) < policy.maxAttempts) :
    row'.MayStart policy attempts := by
  unfold HasStarted at started
  unfold MayStart
  omega

end Job

namespace ExecPhase

/-- What the variables of an execution say about the attempts of its job. -/
def Counts (row : Job) (policy : RetryPolicy) (attempts : Nat) :
    ExecPhase → Prop
  | .findJob => row.MayStart policy attempts
  | .markRunning snapshot read =>
      row.MayStart policy attempts ∧
        snapshot.attemptCount = row.attemptCount ∧ read = policy
  | .publishRunning snapshot read =>
      row.MayStart policy attempts ∧
        snapshot.attemptCount = row.attemptCount ∧ read = policy
  | .createExecution snapshot read =>
      row.MayStart policy attempts ∧
        snapshot.attemptCount = row.attemptCount ∧ read = policy
  | .handler attempt =>
      attempt.job.attemptCount = row.attemptCount ∧ attempt.policy = policy
  | .complete attempt _ =>
      attempt.job.attemptCount = row.attemptCount ∧ attempt.policy = policy
  | .retry attempt _ _ _ =>
      attempt.job.attemptCount = row.attemptCount ∧
        (attempt.number : Int) < policy.maxAttempts
  | .deadLetter attempt _ => attempt.job.attemptCount = row.attemptCount
  | .publish _ _ => True

end ExecPhase

/-- What a holder of the job says about its attempts. -/
def Call.Counts (row : Job) (policy : RetryPolicy) (attempts : Nat) :
    Call → Prop
  | .poll _ => row.MayStart policy attempts
  | .exec running => running.phase.Counts row policy attempts
  | _ => True

namespace Call

variable {row row' : Job} {policy : RetryPolicy} {attempts fewer : Nat}

theorem Counts.continued {old value : Call}
    (counts : old.Counts row policy attempts)
    (continues : old.Continues value) : value.Counts row policy attempts := by
  cases continues with
  | same => exact counts
  | handedOver => exact counts
  | launched => exact counts

theorem Counts.mono {value : Call} (counts : value.Counts row policy attempts)
    (le : fewer ≤ attempts) (same : row'.attemptCount = row.attemptCount) :
    value.Counts row' policy fewer := by
  cases value with
  | poll => exact Job.MayStart.mono counts le same
  | exec running =>
      obtain ⟨target, worker, phase⟩ := running
      cases phase with
      | findJob => exact Job.MayStart.mono counts le same
      | markRunning => exact ⟨counts.1.mono le same, same ▸ counts.2⟩
      | publishRunning => exact ⟨counts.1.mono le same, same ▸ counts.2⟩
      | createExecution => exact ⟨counts.1.mono le same, same ▸ counts.2⟩
      | handler => exact ⟨counts.1.trans same.symm, counts.2⟩
      | complete => exact ⟨counts.1.trans same.symm, counts.2⟩
      | retry => exact ⟨counts.1.trans same.symm, counts.2⟩
      | deadLetter => exact Eq.trans counts same.symm
      | publish => trivial
  | _ => trivial

end Call

private theorem counts_step {world next : World} {exec exec' : ExecCall}
    {input : ExecInput} {row : Job} {attempts : Nat}
    (case : ExecStep world exec input next (some exec'))
    (found : world.jobs.get? exec.jobId = some row)
    (counts : exec.phase.Counts row (world.retryPolicyOf row) attempts)
    (noStart : ∀ {snapshot policy id},
      exec.phase = .createExecution snapshot policy → input ≠ .created id) :
    exec'.phase.Counts row (world.retryPolicyOf row) attempts := by
  cases case with
  | found phase read =>
      rw [phase] at counts
      cases found.symm.trans read
      exact ⟨counts, rfl, rfl⟩
  | created phase => exact (noStart phase rfl).elim
  | @rejected attempt error random phase =>
      have agrees : attempt.job.attemptCount = row.attemptCount ∧
          attempt.policy = world.retryPolicyOf row := by
        rcases phase with phase | ⟨_, phase⟩ <;> rw [phase] at counts <;>
          exact counts
      simp only [handleFailure]
      split
      · rename_i left
        exact ⟨agrees.1, agrees.2 ▸ left⟩
      · exact agrees.1
  | marked phase => rw [phase] at counts; exact counts
  | announced phase => rw [phase] at counts; exact counts
  | logged phase => rw [phase] at counts; exact counts
  | resolved phase => rw [phase] at counts; exact counts
  | completed => trivial
  | retried => trivial
  | deadLettered => trivial

/-- The executions of a job are counted: by its row, and while an execution is
in progress by the variables of the one call that holds the job. -/
structure AttemptsCounted (job : JobId) (attempts : Nat) (state : State) :
    Prop where
  absent : state.world.jobs.get? job = none → attempts = 0
  started : ∀ row, state.world.jobs.get? job = some row →
    row.HasStarted (state.world.retryPolicyOf row) attempts
  queued : ∀ row, state.world.jobs.get? job = some row →
    row.status = .queued →
    row.MayStart (state.world.retryPolicyOf row) attempts
  held : ∀ row call value, state.world.jobs.get? job = some row →
    state.calls call = some value → value.holds job →
    value.Counts row (state.world.retryPolicyOf row) attempts

namespace AttemptsCounted

variable {env : Env} {state next : State} {action : Action} {job : JobId}
  {attempts : Nat}

theorem withinLimit (counted : AttemptsCounted job attempts state) :
    WithinLimit job attempts state :=
  ⟨fun row found => (counted.started row found).2,
    fun row found queued => (counted.queued row found queued).lt⟩

/-- What the holders say after a step that does not start an attempt and
leaves the job its `attemptCount`. -/
private theorem held_after (counted : AttemptsCounted job attempts state)
    (locks : LockInv state) (taken : step env state action = some next)
    {row row' : Job} (found : state.world.jobs.get? job = some row)
    (same : row'.attemptCount = row.attemptCount)
    (policy : next.world.retryPolicyOf row' = state.world.retryPolicyOf row)
    (noStart : action.startsAttempt state ≠ some job) {fewer : Nat}
    (le : fewer ≤ attempts) {call : CallId} {value : Call}
    (called : next.calls call = some value) (holds : value.holds job) :
    value.Counts row' (next.world.retryPolicyOf row') fewer := by
  rw [policy]
  rcases step_holder taken called holds with
    ⟨before, old, oldCall, oldHolds, continues⟩ |
      ⟨worker, queue, rest, txNow, ids, cycle, rfl, claiming, member, rfl⟩ |
      ⟨exec, exec', input, rfl, executing, case, rfl, target⟩
  · have counts := counted.held row before old found oldCall oldHolds
    exact (counts.continued continues).mono le same
  · have returns := ClaimReturns.of_commit taken claiming rfl
    obtain ⟨row'', found', queued⟩ := State.status?_eq_some_iff.mp
      (returns.status_before taken locks member)
    cases found.symm.trans found'
    exact (counted.queued row found queued).mono le same
  · have counts := counted.held row call _ found executing
      ⟨target, case.owns⟩
    have after : (Call.exec exec').Counts row _ attempts :=
      counts_step case (target ▸ found) counts (by
        rintro snapshot policy id phase rfl
        obtain ⟨_, worker, _⟩ := exec
        subst phase target
        exact noStart (by simp [Action.startsAttempt, executing]))
    exact after.mono le same

private theorem of_row {row : Job}
    (found : state.world.jobs.get? job = some row)
    (started : row.HasStarted (state.world.retryPolicyOf row) attempts)
    (queued : row.status = .queued →
      row.MayStart (state.world.retryPolicyOf row) attempts)
    (held : ∀ {call value}, state.calls call = some value → value.holds job →
      value.Counts row (state.world.retryPolicyOf row) attempts) :
    AttemptsCounted job attempts state := by
  constructor
  · intro absent
    rw [found] at absent
    cases absent
  · intro row' found'
    cases found.symm.trans found'
    exact started
  · intro row' found'
    cases found.symm.trans found'
    exact queued
  · intro row' call value found'
    cases found.symm.trans found'
    exact held

/-- The step that creates an execution uses up what was allowed. -/
private theorem start_step (counted : AttemptsCounted job attempts state)
    (ownership : Ownership (fun status => status = .queued) state)
    (taken : step env state action = some next)
    (starts : action.startsAttempt state = some job) :
    AttemptsCounted job (attempts + 1) next := by
  obtain ⟨call, id, worker, snapshot, policy, rfl, called⟩ :=
    Action.startsAttempt_eq_some starts
  have mine : state.holds call job := ⟨_, called, rfl, rfl⟩
  obtain ⟨row, found, busy⟩ := ownership.row mine
  obtain ⟨may, sameCount, samePolicy⟩ :=
    counted.held row call _ found called ⟨rfl, rfl⟩
  cases step_cases taken with
  | started starts => cases starts
  | exec called' case =>
      cases called.symm.trans called'
      cases case with
      | announced phase => cases phase
      | published phase => cases phase
      | created phase inserted =>
          cases phase
          refine of_row found may.started ?_ ?_
          · intro queued
            simp [queued] at busy
          · intro holder value holding holds
            by_cases same : holder = call
            · subst holder
              simp only [Function.update_self] at holding
              cases holding
              exact ⟨sameCount, samePolicy⟩
            · simp only [Function.update_of_ne same] at holding
              have other : state.holds holder job := ⟨value, holding, holds⟩
              exact (same (ownership.exclusive.unique other mine)).elim

/-- After a step by which the job comes from nobody's hands into nobody's. -/
private theorem unheld_after (unheld : ∀ call, ¬state.holds call job)
    (taken : step env state action = some next)
    (notClaimed : ∀ call, ¬Gains state action call job) {call : CallId}
    {value : Call} (called : next.calls call = some value) :
    ¬value.holds job := by
  intro holds
  rcases step_holds taken ⟨value, called, holds⟩ with old | gains
  · exact unheld call old
  · exact notClaimed call gains

private theorem released_after
    (ownership : Ownership (fun status => status = .queued) state)
    {call : CallId} {exec : ExecCall} {status : JobStatus}
    (taken : step env state (.exec call .ok) = some next)
    (called : state.calls call = some (.exec exec))
    (target : exec.jobId = job) (phase : exec.phase.releases = some status)
    {holder : CallId} {value : Call}
    (holding : next.calls holder = some value) : ¬value.holds job := by
  intro holds
  have held : next.holds holder job := ⟨value, holding, holds⟩
  rcases step_holds taken held with old | gains
  · have mine : state.holds call job :=
      ⟨_, called, target, ExecPhase.owns_of_releases phase⟩
    have same := ownership.exclusive.unique old mine
    exact release_gives taken called phase job (same ▸ held)
  · cases gains

private theorem of_released
    (ownership : Ownership (fun status => status = .queued) state)
    {call : CallId} {exec : ExecCall} {status : JobStatus} {row : Job}
    (taken : step env state (.exec call .ok) = some next)
    (called : state.calls call = some (.exec exec))
    (target : exec.jobId = job) (phase : exec.phase.releases = some status)
    (found : next.world.jobs.get? job = some row)
    (started : row.HasStarted (next.world.retryPolicyOf row) attempts)
    (queued : row.status = .queued →
      row.MayStart (next.world.retryPolicyOf row) attempts) :
    AttemptsCounted job attempts next := by
  apply of_row found started queued
  intro holder value holding holds
  exact (released_after ownership taken called target phase holding holds).elim

private theorem of_unheld (unheld : ∀ call, ¬state.holds call job)
    (taken : step env state action = some next)
    (notClaimed : ∀ call, ¬Gains state action call job) {row : Job}
    (found : next.world.jobs.get? job = some row)
    (started : row.HasStarted (next.world.retryPolicyOf row) attempts)
    (queued : row.status = .queued →
      row.MayStart (next.world.retryPolicyOf row) attempts) :
    AttemptsCounted job attempts next := by
  apply of_row found started queued
  intro holder value holding holds
  exact (unheld_after unheld taken notClaimed holding holds).elim

private theorem absent_step {reads : CallId → Time → Prop}
    (ownership : Ownership (fun status => status = .queued) state)
    (rows : RowsInv reads state)
    (taken : step env state action = some next)
    (absent : state.world.jobs.get? job = none) :
    AttemptsCounted job 0 next := by
  have unheld : ∀ call, ¬state.holds call job := by
    intro call held
    obtain ⟨status, known, _⟩ := ownership.status held
    simp [State.status?, absent] at known
  constructor
  · intro _
    rfl
  · intro row found
    exact ⟨Nat.zero_le _, by omega⟩
  · intro row found _
    have new := (step_created taken absent found).new rows
    exact ⟨Nat.zero_le _, .inl new.attemptCount⟩
  · intro row call value found called holds
    have created := step_created taken absent found
    refine (unheld_after unheld taken ?_ called holds).elim
    intro call gains
    cases gains <;> cases created

private theorem started_after (counted : AttemptsCounted job attempts state)
    (taken : step env state action = some next) {row row' : Job}
    (before : state.world.jobs.get? job = some row)
    (found : next.world.jobs.get? job = some row') {fewer : Nat}
    (le : fewer ≤ attempts) (later : row.attemptCount ≤ row'.attemptCount) :
    row'.HasStarted (next.world.retryPolicyOf row') fewer := by
  rw [step_policy taken before found]
  exact (counted.started row before).mono le later

private theorem uncounted_step (counted : AttemptsCounted job attempts state)
    (locks : LockInv state) (taken : step env state action = some next)
    {row row' : Job} (before : state.world.jobs.get? job = some row)
    (found : next.world.jobs.get? job = some row')
    (same : row'.attemptCount = row.attemptCount)
    (queued : row'.status = .queued → row.status = .queued)
    (noStart : action.startsAttempt state ≠ some job) {fewer : Nat}
    (le : fewer ≤ attempts) : AttemptsCounted job fewer next := by
  have policy := step_policy taken before found
  apply of_row found (counted.started_after taken before found le same.ge)
  · intro isQueued
    rw [policy]
    exact (counted.queued row before (queued isQueued)).mono le same
  · intro call value called holds
    exact counted.held_after locks taken before same policy noStart le called
      holds

private theorem write_step (counted : AttemptsCounted job attempts state)
    (locks : LockInv state)
    (ownership : Ownership (fun status => status = .queued) state)
    (taken : step env state action = some next)
    (leaves : LeavesAttempt ⟨state, action, next⟩)
    (unheld : ∀ call, QueuesUnheld ⟨state, action, next⟩ call)
    (noStart : action.startsAttempt state ≠ some job) {fewer : Nat}
    (counting : countAttempt job attempts ⟨state, action, next⟩ = fewer)
    (le : fewer ≤ attempts) {row row' : Job}
    (before : state.world.jobs.get? job = some row)
    (found : next.world.jobs.get? job = some row')
    (write : JobWrite state job action row row') :
    AttemptsCounted job fewer next := by
  have policy := step_policy taken before found
  have started := (counted.started row before).mono le le_rfl
  have startedAfter : row.attemptCount ≤ row'.attemptCount →
      row'.HasStarted (next.world.retryPolicyOf row') fewer :=
    counted.started_after taken before found le
  have uncounted : row'.attemptCount = row.attemptCount →
      row'.status ≠ .queued → AttemptsCounted job fewer next :=
    fun same notQueued => counted.uncounted_step locks taken before found same
      (fun queued => (notQueued queued).elim) noStart le
  cases write with
  | claim => exact uncounted rfl (by rintro ⟨⟩)
  | markRunning => exact uncounted rfl (by rintro ⟨⟩)
  | complete => exact uncounted rfl (by rintro ⟨⟩)
  | cancel => exact uncounted rfl (by rintro ⟨⟩)
  | @retry call exec attempt failure delayMs runAt _ called target phase =>
      have counts := counted.held row call _ before called
        ⟨target, by rw [phase]; rfl⟩
      simp only [Call.Counts, phase, ExecPhase.Counts] at counts
      have number : attempt.number = row.attemptCount + 1 := by
        rw [Attempt.number, counts.1]
      refine of_released ownership taken called target (by rw [phase]; rfl)
        found (startedAfter ?_) ?_
      · simp only [Job.requeueForRetry, number]
        omega
      · intro _
        rw [policy]
        exact started.counted number counts.2
  | @deadLetter call exec attempt failure _ called target phase =>
      have counts := counted.held row call _ before called
        ⟨target, by rw [phase]; rfl⟩
      simp only [Call.Counts, phase, ExecPhase.Counts] at counts
      refine of_released ownership taken called target (by rw [phase]; rfl)
        found (startedAfter ?_) ?_
      · simp only [Job.moveToDeadLetter, Attempt.number, counts]
        omega
      · intro queued
        cases queued
  | @requeueOrphan call _ _ _ _ _ called =>
      have requeues : (Action.reap call .ok).requeuesOrphan state =
          some job := by
        simp only [Action.requeuesOrphan, called]
      have left := leaves job requeues row before
      refine of_unheld ?_ taken ?_ found (startedAfter (Nat.le_succ _)) ?_
      · intro call
        exact unheld call (job, .queued)
          (by simp [Action.outsideWrite, requeues]) rfl
      · intro call gains
        cases gains
      · intro _
        rw [policy]
        exact started.counted rfl left
  | @resetForRetry call request queueId project deadLetter _ called target
      phase =>
      obtain ⟨target', phase'⟩ := request
      subst target phase
      have commits : (Action.api call .ok).commitsRetry state =
          some target' := by
        simp only [Action.commitsRetry, called]
      -- The retry begins the count anew.
      have zero : fewer = 0 := by
        rw [← counting]
        simp only [countAttempt, commits, if_true]
      subst zero
      refine of_unheld ?_ taken ?_ found ⟨Nat.zero_le _, by omega⟩
        (fun _ => ⟨le_rfl, .inl rfl⟩)
      · intro call
        exact unheld call (target', .queued)
          (by simp [Action.outsideWrite, Action.requeuesOrphan, commits]) rfl
      · intro call gains
        cases gains

theorem step {reads : CallId → Time → Prop}
    (counted : AttemptsCounted job attempts state) (locks : LockInv state)
    (ownership : Ownership (fun status => status = .queued) state)
    (rows : RowsInv reads state)
    (taken : Chronos.step env state action = some next)
    (leaves : LeavesAttempt ⟨state, action, next⟩)
    (unheld : ∀ call, QueuesUnheld ⟨state, action, next⟩ call) :
    AttemptsCounted job (countAttempt job attempts ⟨state, action, next⟩)
      next := by
  by_cases starts : action.startsAttempt state = some job
  · have notRetry : action.commitsRetry state ≠ some job := by
      intro commits
      obtain ⟨_, _, _, _, _, rfl, _⟩ := Action.startsAttempt_eq_some starts
      cases commits
    simp only [countAttempt, notRetry, starts, if_true, if_false]
    exact counted.start_step ownership taken starts
  generalize counting :
    countAttempt job attempts ⟨state, action, next⟩ = fewer
  have le : fewer ≤ attempts := by
    rw [← counting]
    simp only [countAttempt, starts, if_false]
    split
    · exact Nat.zero_le _
    · exact le_rfl
  cases before : state.world.jobs.get? job with
  | none =>
      have zero := counted.absent before
      obtain rfl : fewer = 0 := by omega
      exact absent_step ownership rows taken before
  | some row =>
      obtain ⟨row', found, same | write⟩ := step_job taken before
      · subst same
        exact counted.uncounted_step locks taken before found rfl id starts le
      · exact counted.write_step locks ownership taken leaves unheld starts
          counting le before found write

end AttemptsCounted

section Runs

variable {env : Env} {start last : State}
  {trace : List (Transition State Action)} {job : JobId}

/-- The executions of a job that was not attempted before are counted in every
run in which the reaper leaves an attempt to the jobs that it requeues, and
neither it nor a manual retry requeues a job that a call holds. -/
theorem AttemptsCounted.run (run : Run (Chronos.step env) start trace last)
    (initial : Initial start)
    (unattempted : ∀ row ∈ start.world.jobs.get? job, row.attemptCount = 0)
    (leaves : ∀ transition ∈ trace, LeavesAttempt transition)
    (unheld : ∀ transition ∈ trace, ∀ call, QueuesUnheld transition call) :
    AttemptsCounted job (attemptsOf job trace) last := by
  induction run with
  | nil =>
      constructor
      · intro _
        rfl
      · intro row found
        exact ⟨Nat.zero_le _, by simp [attemptsOf]⟩
      · intro row found _
        exact ⟨Nat.zero_le _, .inl (unattempted row found)⟩
      · intro row call value _ called
        simp [initial.calls call] at called
  | @snoc trace middle last action run taken induction =>
      simp only [List.forall_mem_append, List.forall_mem_singleton]
        at leaves unheld
      have counted := induction leaves.1 unheld.1
      have ownership := Ownership.run run initial queued_idle unheld.1
      rw [attemptsOf_snoc]
      exact counted.step (LockInv.run run initial) ownership
        (RowsInv.run run initial) taken leaves.2 unheld.2

end Runs

/-- One queue whose jobs are attempted twice at most. -/
def World.twoAttempts (jobs : Table JobId Job) : World :=
  { World.sample 1 jobs with
    retryPolicies := ⟨[("steady", ⟨.fixed, 1000, 30000, 2⟩)], by simp⟩ }

end Chronos
