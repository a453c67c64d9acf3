import Chronos.Attempts

/-!
# The history of a job's attempts

What the stages of a job's life say about its rows, and when its next attempt
can be claimed.  A failed attempt leaves the job to its holder, then to the
row, and neither lets a claim see the job before the delay is over.
-/

namespace Chronos

/-- The job neither waits nor is in flight. -/
def JobStatus.settled (status : JobStatus) : Bool :=
  !status.cancellable && !status.inFlight

/-- The job has had no attempt: its row, if there is one, is a new one. -/
structure Unattempted (job : JobId) (world : World) : Prop where
  new : ∀ {row}, world.jobs.get? job = some row → row.New
  executions : world.executionsOf job = []
  deadLetter : world.deadLetters.get? job = none

/-- What the tables say of the attempts of a job. -/
structure AttemptsRecorded (world : World) (job : JobId) (row : Job)
    (attempts : List JobExecution) : Prop where
  inOrder : InOrder attempts
  bounded : (attempts.length : Int) ≤
    max 1 (world.retryPolicyOf row).maxAttempts
  settled : row.status.settled = true →
    (row.status = .completed ∧
      ∃ earlier latest, attempts = earlier ++ [latest] ∧
        (∀ attempt ∈ earlier, attempt.status = .failed) ∧
        latest.status = .completed ∧ row.attemptCount = earlier.length) ∨
    (row.status = .deadLetter ∧
      (∀ attempt ∈ attempts, attempt.status = .failed) ∧
      row.attemptCount = attempts.length ∧
      ∃ letter, world.deadLetters.get? job = some letter ∧
        CarriedBy row letter)

/-- In this step the executor handles the failure of an attempt of the job,
with this draw for the jitter. -/
def HandlesFailure (job : JobId) (random : Draw)
    (transition : Transition State Action) : Prop :=
  ∃ call exec error attempt,
    transition.action = .exec call (.failed error random) ∧
    transition.before.calls call = some (.exec exec) ∧ exec.jobId = job ∧
    (exec.phase = .handler attempt ∨
      ∃ durationMs, exec.phase = .complete attempt durationMs)

/-- In this step a claim locks the row of the job or returns its id. -/
def ClaimsJob (job : JobId) (transition : Transition State Action) : Prop :=
  (∃ call, LocksRow transition call job) ∨
    ∃ call ids, ClaimReturns transition call ids ∧ job ∈ ids

/-- The history of a job's attempts up to the last state of a run. -/
structure AttemptHistory (job : JobId)
    (trace : List (Transition State Action)) (last : State) : Prop where
  holder : ∀ {first second},
    last.holds first job → last.holds second job → first = second
  recorded : ∀ {row}, last.world.jobs.get? job = some row →
    AttemptsRecorded last.world job row
      ((last.world.executionsOf job).map Prod.snd)
  delayed : ∀ {earlier failure between claim later random row},
    trace = earlier ++ failure :: (between ++ claim :: later) →
    HandlesFailure job random failure →
    failure.before.world.jobs.get? job = some row →
    ClaimsJob job claim →
    failure.before.world.now +
        (failure.before.world.retryPolicyOf row).delay
          (failure.before.world.executionsOf job).length random ≤
      claim.before.world.now

/-! ## What a stage says about the tables -/

namespace Failures

variable {world : World} {job : JobId} {row : Job}
  {attempts : List JobExecution}

theorem bounded (failures : Failures world job row attempts) :
    (attempts.length : Int) + 1 ≤
      max 1 (world.retryPolicyOf row).maxAttempts := by
  rcases failures.allowed with rfl | less
  · simp
  · omega

theorem failed (failures : Failures world job row attempts) :
    ∀ attempt ∈ attempts, attempt.status = .failed :=
  fun attempt member => (failures.closed attempt member).1

end Failures

theorem LifeOf.recorded {world : World} {job : JobId} {row : Job}
    {life : Life} (lifeOf : LifeOf world job row life) :
    AttemptsRecorded world job row
      ((world.executionsOf job).map Prod.snd) := by
  have unsettled : ∀ {result : Prop},
      (row.status.cancellable || row.status.inFlight) = true →
      row.status.settled = true → result := by
    intro result pending settled
    simp [JobStatus.settled, ← Bool.not_or, pending] at settled
  cases lifeOf with
  | waiting isWaiting failures attempts =>
      have bounded := failures.bounded
      rw [attempts]
      refine ⟨failures.inOrder, by omega, unsettled ?_⟩
      rcases isWaiting with status | status <;> rw [status] <;> rfl
  | claimed inFlight failures attempts =>
      have bounded := failures.bounded
      rw [attempts]
      exact ⟨failures.inOrder, by omega, unsettled (by simp [inFlight])⟩
  | executing inFlight failures attempts earlier inOrder =>
      have bounded := failures.bounded
      rw [attempts, List.map_append, earlier]
      exact ⟨inOrder, by simpa using bounded, unsettled (by simp [inFlight])⟩
  | completed status failures attempts inOrder completed =>
      have bounded := failures.bounded
      rw [attempts]
      refine ⟨inOrder, by simpa using bounded, fun _ => .inl ⟨status, ?_⟩⟩
      exact ⟨_, _, rfl, failures.failed, completed, failures.counted⟩
  | deadLettered status attempts inOrder failed counted bounded letter
      carried =>
      rw [attempts]
      refine ⟨inOrder, bounded, fun _ => .inr ⟨status, failed, counted, ?_⟩⟩
      exact ⟨_, letter, carried⟩

/-! ## The delay -/

/-- A call whose hold ends in no claimable row before this instant. -/
def Call.defers (instant : Time) : Call → Prop
  | .exec ⟨_, _, .retry _ _ _ runAt⟩ => instant ≤ runAt
  | .exec ⟨_, _, .deadLetter _ _⟩ => True
  | _ => False

/-- No claim can see the job before this instant. -/
structure Deferred (job : JobId) (instant : Time) (state : State) : Prop where
  holders : ∀ {call value}, state.calls call = some value →
    value.holds job → value.defers instant
  row : ∃ row, state.world.jobs.get? job = some row ∧
    (row.status = .queued → instant ≤ row.runAt)

section Delay

variable {env : Env} {start last state next : State} {action : Action}
  {trace : List (Transition State Action)} {job : JobId} {instant : Time}

/-- The steps of a call that defers end its hold. -/
private theorem not_owns_of_defers {world next : World}
    {exec exec' : ExecCall} {input : ExecInput}
    (case : ExecStep world exec input next (some exec'))
    (defers : (Call.exec exec).defers instant) :
    exec'.phase.owns = false := by
  obtain ⟨target, worker, phase⟩ := exec
  cases case with
  | retried => rfl
  | deadLettered => rfl
  | rejected isPhase =>
      rcases isPhase with isPhase | ⟨_, isPhase⟩ <;> cases isPhase <;>
        cases defers
  | found isPhase => cases isPhase; cases defers
  | marked isPhase => cases isPhase; cases defers
  | announced isPhase => cases isPhase; cases defers
  | created isPhase => cases isPhase; cases defers
  | logged isPhase => cases isPhase; cases defers
  | resolved isPhase => cases isPhase; cases defers
  | completed isPhase => cases isPhase; cases defers

private theorem Deferred.due (deferred : Deferred job instant state)
    {row : Job} (found : state.world.jobs.get? job = some row)
    (queued : row.status = .queued) (due : row.runAt ≤ state.world.now) :
    instant ≤ state.world.now := by
  obtain ⟨row', found', later⟩ := deferred.row
  cases found.symm.trans found'
  exact (later queued).trans due

theorem Deferred.le_of_claims (deferred : Deferred job instant state)
    (locks : LockInv state) (taken : step env state action = some next)
    (claims : ClaimsJob job ⟨state, action, next⟩) :
    instant ≤ state.world.now := by
  rcases claims with ⟨call, locksRow⟩ | ⟨call, ids, returns, member⟩
  · obtain ⟨row, found, queued, due⟩ := locksRow.row
    exact deferred.due found queued due
  · have locked := returns.locked taken locks member
    obtain ⟨tx, isOpen, mine⟩ := (locks.locks_iff job call).mp locked
    have sound := locks.sound call tx isOpen
    obtain ⟨row, found, queued, _, due⟩ := sound.rows job mine
    exact deferred.due found queued (due.trans sound.txNow)

private theorem claimsJob_of_not_unclaimed
    (taken : step env state action = some next)
    (claimed : ¬Unclaimed job ⟨state, action, next⟩) :
    ClaimsJob job ⟨state, action, next⟩ := by
  simp only [Unclaimed, not_forall, not_not] at claimed
  obtain ⟨claim, claims, member⟩ := claimed
  obtain ⟨call, queue, rest, txNow, rfl, called⟩ :=
    Action.claims_eq_some claims
  exact .inr ⟨call, claim.2, .of_commit taken called rfl, member⟩

/-- Until the delay is over no step lets a claim see the job. -/
theorem Deferred.step (deferred : Deferred job instant state)
    (inv : AttemptInv job state)
    (taken : Chronos.step env state action = some next) :
    instant ≤ next.world.now ∨ Deferred job instant next := by
  by_cases unclaimed : Unclaimed job ⟨state, action, next⟩
  · right
    constructor
    · intro call value found holds
      rcases step_holder taken found holds with
        ⟨before, old, called, held, continues⟩ |
          ⟨worker, _, _, _, ids, _, rfl, called, member, _⟩ |
          ⟨exec, exec', _, _, called, case, rfl, target⟩
      · have defers := deferred.holders called held
        cases continues with
        | same => exact defers
        | handedOver => cases defers
        | launched => cases defers
      · exact (unclaimed.notMem called rfl member).elim
      · have defers := deferred.holders called ⟨target, case.owns⟩
        have owns := holds.2
        rw [not_owns_of_defers case defers] at owns
        cases owns
    · obtain ⟨row, found, later⟩ := deferred.row
      obtain ⟨row', found', same | write⟩ := step_job taken found
      · exact ⟨row', found', same ▸ later⟩
      · refine ⟨row', found', ?_⟩
        intro queued
        cases write with
        | claim => cases queued
        | markRunning => cases queued
        | complete => cases queued
        | deadLetter => cases queued
        | @retry call exec _ _ _ _ _ called target phase =>
            have defers := deferred.holders called
              ⟨target, by rw [phase]; rfl⟩
            obtain ⟨_, _, phase'⟩ := exec
            cases phase
            exact defers
        | requeueOrphan called => cases inv.confined called
        | resetForRetry called => cases inv.confined called
        | cancel => cases queued
  · left
    have claims := claimsJob_of_not_unclaimed taken unclaimed
    have due := deferred.le_of_claims inv.locks taken claims
    exact due.trans (step_now taken)

/-- Handling a failure defers the next attempt by the delay of the policy. -/
private theorem deferred_of_failure (inv : AttemptInv job state)
    (inv' : AttemptInv job next)
    (taken : Chronos.step env state action = some next) {random : Draw}
    (handles : HandlesFailure job random ⟨state, action, next⟩) {row : Job}
    (found : state.world.jobs.get? job = some row) :
    Deferred job
      (state.world.now + (state.world.retryPolicyOf row).delay
        (state.world.executionsOf job).length random) next := by
  obtain ⟨call, exec, error, attempt, rfl, called, rfl, phase⟩ := handles
  dsimp only at called taken
  have owns : exec.phase.owns = true := by
    rcases phase with phase | ⟨_, phase⟩ <;> rw [phase] <;> rfl
  obtain ⟨life, lifeOf, agrees⟩ := inv.lifecycle.present row found
  have phaseAgrees : exec.phase.Agrees row
      (state.world.retryPolicyOf row) life := agrees call _ called ⟨rfl, owns⟩
  obtain ⟨inFlight, policy, number⟩ : row.status.inFlight = true ∧
      attempt.policy = state.world.retryPolicyOf row ∧
      attempt.number = (state.world.executionsOf exec.jobId).length := by
    have executing : ∃ failures id, life = .executing failures id ∧
        attempt.Agrees row (state.world.retryPolicyOf row) id := by
      rcases phase with phase | ⟨_, phase⟩ <;> rw [phase] at phaseAgrees <;>
        cases life with
        | executing => exact ⟨_, _, rfl, phaseAgrees⟩
        | _ => cases phaseAgrees
    obtain ⟨failures, id, rfl, attemptAgrees⟩ := executing
    cases lifeOf with
    | executing inFlight counted attempts earlier =>
        refine ⟨inFlight, attemptAgrees.policy, ?_⟩
        rw [attemptAgrees.number counted, attempts, ← earlier]
        simp
  -- The only holder afterwards is this call, about to retry or to give up.
  have after : next = ⟨state.world, Function.update state.calls call
      (some (.exec { exec with
        phase := handleFailure state.world attempt error random }))⟩ := by
    rcases phase with phase | ⟨_, phase⟩ <;>
      simp only [step, called, executeJob, phase, State.resume] at taken <;>
      cases taken <;> rfl
  subst after
  have stillOwns := handleFailure_owns state.world attempt error random
  constructor
  · intro holder value foundValue holds
    have same : holder = call := inv'.ownership.exclusive.unique
      ⟨_, foundValue, holds⟩ ⟨_, Function.update_self .., rfl, stillOwns⟩
    subst same
    simp only [Function.update_self, Option.some.injEq] at foundValue
    subst foundValue
    unfold handleFailure
    dsimp only
    split
    · rw [policy, number]
      exact le_rfl
    · trivial
  · refine ⟨row, found, ?_⟩
    intro queued
    rw [queued] at inFlight
    cases inFlight

end Delay

/-! ## Runs -/

section Runs

variable {env : Env} {start last : State}
  {trace : List (Transition State Action)} {job : JobId}

theorem AttemptInv.initial (initial : Initial start)
    (unattempted : Unattempted job start.world) : AttemptInv job start where
  locks := .initial initial
  ownership := .initial initial
  rows := .initial initial
  confined := by
    intro call value found
    rw [initial.calls call] at found
    cases found
  attempts := by
    intro call exec attempt found
    rw [initial.calls call] at found
    cases found
  lifecycle := by
    refine ⟨fun _ => ⟨unattempted.executions, unattempted.deadLetter⟩, ?_⟩
    intro row found
    refine ⟨_, .new (unattempted.new found) unattempted.executions
      unattempted.deadLetter, ?_⟩
    intro call value called
    rw [initial.calls call] at called
    cases called

theorem AttemptInv.run (run : Run (Chronos.step env) start trace last)
    (inv : AttemptInv job start)
    (confined : ∀ transition ∈ trace, transition.action.intrudes = false) :
    AttemptInv job last :=
  run.invariant (AttemptInv job) confined inv
    fun _ stays taken inv => inv.step taken stays

/-- A deferred job stays so until the delay is over. -/
private theorem deferred_run (run : Run (step env) start trace last)
    {instant : Time} (inv : AttemptInv job start)
    (deferred : Deferred job instant start)
    (confined : ∀ transition ∈ trace, transition.action.intrudes = false) :
    instant ≤ last.world.now ∨ Deferred job instant last := by
  have both : AttemptInv job last ∧
      (instant ≤ last.world.now ∨ Deferred job instant last) := by
    refine run.invariant (fun state => AttemptInv job state ∧
      (instant ≤ state.world.now ∨ Deferred job instant state)) confined
      ⟨inv, .inr deferred⟩ ?_
    rintro transition stays taken ⟨inv, elapsed | deferred⟩
    · exact ⟨inv.step taken stays, .inl (elapsed.trans (step_now taken))⟩
    · exact ⟨inv.step taken stays, deferred.step inv taken⟩
  exact both.2

/-- While only claims and executions work on it, every job has an orderly
history of attempts. -/
theorem attempts_lifecycle (run : Run (step env) start trace last)
    (initial : Initial start) (unattempted : Unattempted job start.world)
    (confined : ∀ transition ∈ trace, transition.action.intrudes = false) :
    AttemptHistory job trace last := by
  have begins : AttemptInv job start := .initial initial unattempted
  have inv := AttemptInv.run run begins confined
  constructor
  · intro first second firstHolds secondHolds
    exact inv.ownership.exclusive.unique firstHolds secondHolds
  · intro row found
    obtain ⟨life, lifeOf, _⟩ := inv.lifecycle.present row found
    exact lifeOf.recorded
  · intro earlier failure between claim later random row whole handles found
      claims
    subst whole
    obtain ⟨toFailure, failed, afterFailure⟩ := run.around
    obtain ⟨toClaim, claimed, _⟩ := afterFailure.around
    have before := AttemptInv.run toFailure begins
      fun transition member => confined transition (by simp [member])
    have after := before.step failed (confined failure (by simp))
    have deferred := deferred_of_failure before after failed handles found
    have waits : ∀ transition ∈ between,
        transition.action.intrudes = false :=
      fun transition member => confined transition (by simp [member])
    rcases deferred_run toClaim after deferred waits with elapsed | deferred
    · exact elapsed
    · have locks := (AttemptInv.run toClaim after waits).locks
      exact deferred.le_of_claims locks claimed claims

/-- A job that fails once, is claimed again after the delay and completes. -/
theorem attempts_lifecycle_retried :
    ∃ trace last,
      Run (step .sample) (World.sample 2
        ⟨[(7, { Job.sample .queued with payload := .obj [] })],
          by simp⟩).idle trace last ∧
      last.status? 7 = some .completed ∧
      (last.world.executionsOf 7).length = 2 ∧
      AttemptHistory 7 trace last := by
  obtain ⟨trace, last, run, confined, completed, twice⟩ :=
    exists_run_of_check (step .sample)
      (World.sample 2
        ⟨[(7, { Job.sample .queued with payload := .obj [] })],
          by simp⟩).idle
      (claimActions 1 1 [7] ++ executeActions 1 2 0 ++
        ([.exec 2 (.failed "refused" .zero), .exec 2 .ok, .advance 1000] :
          List Action) ++
        claimActions 3 2 [7] ++ executeActions 3 4 1 ++
        ([.exec 4 .resolved, .exec 4 .ok] : List Action))
      (fun trace last =>
        (∀ transition ∈ trace, transition.action.intrudes = false) ∧
        last.status? 7 = some .completed ∧
        (last.world.executionsOf 7).length = 2)
      (by decide)
  refine ⟨trace, last, run, completed, twice,
    attempts_lifecycle run (World.idle_initial fun _ => rfl) ?_ confined⟩
  refine ⟨?_, rfl, rfl⟩
  intro row found
  cases found
  exact ⟨.inl rfl, rfl, by simp⟩

end Runs

end Chronos
