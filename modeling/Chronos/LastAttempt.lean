import Chronos.ApiRaces
import Chronos.AttemptLimit

/-!
# How a job that kills its worker ends

`executeJob` moves a job to the dead letter queue when the handler of its last
attempt fails; it has to live for that.  A reap cycle never does so.  This file
shows that a job whose attempts all end with their worker is in no state a dead
letter, and that a job which has had all its attempts is over if the last one
of them does not take its worker along.
-/

namespace Chronos

namespace Action

/-- The job whose handler returns or throws in this step. -/
def leavesHandler (state : State) : Action → Option JobId
  | .exec call .resolved =>
      match state.calls call with
      | some (.exec ⟨job, _, .handler _⟩) => some job
      | _ => none
  | .exec call (.failed _ _) =>
      match state.calls call with
      | some (.exec ⟨job, _, .handler _⟩) => some job
      | _ => none
  | _ => none

/-- The call whose dead-letter transaction fails in this step. -/
def losesDeadLetter (state : State) : Action → Option CallId
  | .exec call (.failed _ _) =>
      match state.calls call with
      | some (.exec ⟨_, _, .deadLetter _ _⟩) => some call
      | _ => none
  | _ => none

end Action

namespace ExecPhase

/-- The handler has returned or thrown, and the outcome is not committed. -/
def decided : ExecPhase → Bool
  | .complete _ _ => true
  | .retry _ _ _ _ => true
  | .deadLetter _ _ => true
  | _ => false

/-- The handler runs, or an outcome that ends the job is to be committed. -/
def concluding : ExecPhase → Bool
  | .handler _ => true
  | .complete _ _ => true
  | .deadLetter _ _ => true
  | _ => false

theorem decided_of_releases {phase : ExecPhase} {status : JobStatus}
    (releases : phase.releases = some status) : phase.decided = true := by
  cases phase <;> first | rfl | cases releases

end ExecPhase

/-- If the call is at an attempt that leaves the job no further one, then its
process does not end in this step, and its dead-letter transaction does not
fail. -/
def FinishesLast (job : JobId) (transition : Transition State Action)
    (call : CallId) : Prop :=
  transition.before.holds call job →
  ∀ row ∈ transition.before.world.jobs.get? job,
    (transition.before.world.retryPolicyOf row).maxAttempts ≤
      (row.attemptCount : Int) + 1 →
    (∀ worker ∈ transition.action.exiting,
      transition.before.belongs worker call = false) ∧
    transition.action.losesDeadLetter transition.before ≠ some call

instance (job : JobId) (transition : Transition State Action) (call : CallId) :
    Decidable (FinishesLast job transition call) :=
  inferInstanceAs (Decidable (_ → ∀ row ∈ _, _ ≤ _ →
    (∀ worker ∈ _, _ = _) ∧ _ ≠ _))

/-- A job that has had all its attempts and is in nobody's hands is a dead
letter, unless its last attempt completed it or it was cancelled. -/
def EndsExhausted (job : JobId) (attempts : Nat) (state : State) : Prop :=
  ∀ row ∈ state.world.jobs.get? job,
    (attempts : Int) = state.world.attemptLimit row →
    (∀ call, ¬state.holds call job) →
    row.status = .deadLetter ∨ row.status = .completed ∨
      row.status = .cancelled

/-- No handler of the job has returned or thrown, and the job is not a dead
letter. -/
structure Undecided (job : JobId) (state : State) : Prop where
  alive : state.status? job ≠ some .deadLetter
  calls : ∀ call exec, state.calls call = some (.exec exec) →
    exec.jobId = job → exec.phase.decided = false

section Steps

variable {env : Env} {start last state next : State} {action : Action}
  {trace : List (Transition State Action)} {job : JobId} {call : CallId}
  {attempts : Nat}

/-! ## Jobs that kill their worker -/

theorem ExecStep.decided {world next : World} {exec exec' : ExecCall}
    {input : ExecInput}
    (case : ExecStep world exec input next (some exec'))
    (decides : exec'.phase.decided = true) :
    exec.phase.decided = true ∨ (∃ attempt, exec.phase = .handler attempt) ∧
      (input = .resolved ∨ ∃ error random, input = .failed error random) := by
  cases case with
  | resolved phase => exact .inr ⟨⟨_, phase⟩, .inl rfl⟩
  | rejected phase =>
      rcases phase with phase | ⟨_, phase⟩
      · exact .inr ⟨⟨_, phase⟩, .inr ⟨_, _, rfl⟩⟩
      · exact .inl (by rw [phase]; rfl)
  | _ => cases decides

theorem Undecided.step (undecided : Undecided job state)
    {reads : CallId → Time → Prop} (rows : RowsInv reads state)
    (taken : Chronos.step env state action = some next)
    (stays : action.leavesHandler state ≠ some job) : Undecided job next := by
  constructor
  · intro dead
    rcases step_status_cases taken dead with same | absent | write
    · exact undecided.alive same
    · obtain ⟨row, found, isDead⟩ := State.status?_eq_some_iff.mp dead
      have missing : state.world.jobs.get? job = none := by
        simpa [State.status?] using absent
      have new := ((step_created taken missing found).new rows).status
      rw [isDead] at new
      rcases new with queued | scheduled
      · cases queued
      · cases scheduled
    · generalize status : JobStatus.deadLetter = written at write
      cases write with
      | claim => cases status
      | markRunning => cases status
      | release called target releases =>
          have decided := undecided.calls _ _ called target
          rw [ExecPhase.decided_of_releases releases] at decided
          cases decided
      | outside write =>
          rcases Action.outsideWrite_cases write with ⟨-, rfl⟩ |
            ⟨-, rfl⟩ | ⟨-, rfl⟩ <;> cases status
  · intro call exec called target
    rcases step_exec_call taken called with old | fresh |
      ⟨before, input, world, old, case, rfl⟩
    · exact undecided.calls call exec old target
    · rw [fresh]
      rfl
    · by_contra decides
      have target' : before.jobId = job := case.same_job.symm.trans target
      rcases case.decided (by simpa using decides) with
        decided | ⟨⟨attempt, phase⟩, input⟩
      · rw [undecided.calls call before old target'] at decided
        cases decided
      · obtain ⟨_, worker, _⟩ := before
        subst phase target'
        rcases input with rfl | ⟨error, random, rfl⟩
        · exact stays (by simp [Action.leavesHandler, old])
        · exact stays (by simp [Action.leavesHandler, old])

/-- A job is not dead-lettered as long as none of its handlers returns or
throws, however often it is claimed, executed and requeued. -/
theorem Undecided.run (run : Run (Chronos.step env) start trace last)
    (initial : Initial start) (alive : start.status? job ≠ some .deadLetter)
    (kills : ∀ transition ∈ trace,
      transition.action.leavesHandler transition.before ≠ some job) :
    Undecided job last := by
  induction run with
  | nil =>
      refine ⟨alive, ?_⟩
      intro call exec called
      simp [initial.calls call] at called
  | @snoc trace middle last action run taken induction =>
      simp only [List.forall_mem_append, List.forall_mem_singleton] at kills
      exact (induction kills.1).step (RowsInv.run run initial) taken kills.2

/-! ## Jobs that have had all their attempts -/

theorem release_writes {exec : ExecCall} {status : JobStatus}
    (taken : step env state (.exec call .ok) = some next)
    (called : state.calls call = some (.exec exec))
    (releases : exec.phase.releases = some status) {row : Job}
    (found : state.world.jobs.get? exec.jobId = some row) :
    next.status? exec.jobId = some status := by
  obtain ⟨exec', case, -⟩ := step_exec taken called
  obtain ⟨world, calls⟩ := next
  have written : ∀ {update : Job → Job},
      world.jobs = (state.world.updateJob exec.jobId update).jobs →
      (State.mk world calls).status? exec.jobId =
        some (update row).status := by
    intro update same
    simp [State.status?, same, World.get?_updateJob, found]
  cases case with
  | completed phase =>
      rw [phase] at releases
      cases releases
      exact written rfl
  | retried phase =>
      rw [phase] at releases
      cases releases
      exact written rfl
  | deadLettered phase _ success =>
      rw [phase] at releases
      cases releases
      obtain ⟨_, _, _, rfl⟩ := World.commitDeadLetter_spec success
      exact written rfl
  | jobMissing phase => rw [phase] at releases; cases releases
  | found phase => rw [phase] at releases; cases releases
  | marked phase => rw [phase] at releases; cases releases
  | announced phase => rw [phase] at releases; cases releases
  | published phase => rw [phase] at releases; cases releases

/-- A job at its last attempt is in its handler, or its outcome is about to be
committed. -/
theorem Call.Counts.concluding {value : Call} {row : Job} {policy : RetryPolicy}
    (counts : value.Counts row policy attempts)
    (started : row.HasStarted policy attempts) (holds : value.holds job)
    (full : (attempts : Int) = max 1 policy.maxAttempts) :
    ∃ exec, value = .exec exec ∧ exec.phase.concluding = true := by
  have mayNot : ¬row.MayStart policy attempts := by
    intro may
    have less := may.lt
    omega
  cases value with
  | poll => exact (mayNot counts).elim
  | exec exec =>
      obtain ⟨target, worker, phase⟩ := exec
      refine ⟨_, rfl, ?_⟩
      cases phase with
      | findJob => exact (mayNot counts).elim
      | markRunning => exact (mayNot counts.1).elim
      | publishRunning => exact (mayNot counts.1).elim
      | createExecution => exact (mayNot counts.1).elim
      | handler => rfl
      | complete => rfl
      | retry attempt failure delayMs runAt =>
          -- A further attempt is left.
          obtain ⟨same, left⟩ := counts
          rw [Attempt.number, same] at left
          unfold Job.HasStarted at started
          omega
      | deadLetter => rfl
      | publish => cases holds.2
  | _ => cases holds

/-- A call at a last attempt keeps the job, commits how it ends, or fails to
write the dead letter. -/
theorem ExecStep.concluding {world next : World} {exec : ExecCall}
    {input : ExecInput} {after : Option ExecCall}
    (case : ExecStep world exec input next after)
    (concludes : exec.phase.concluding = true) :
    (∃ exec', after = some exec' ∧ exec'.jobId = exec.jobId ∧
        exec'.phase.owns = true) ∨
      (input = .ok ∧ (exec.phase.releases = some .completed ∨
        exec.phase.releases = some .deadLetter)) ∨
      (∃ error random, input = .failed error random) ∧
        ∃ attempt failure, exec.phase = .deadLetter attempt failure := by
  cases case with
  | logged => exact .inl ⟨_, rfl, rfl, rfl⟩
  | resolved => exact .inl ⟨_, rfl, rfl, rfl⟩
  | rejected => exact .inl ⟨_, rfl, rfl, handleFailure_owns ..⟩
  | completed phase => exact .inr (.inl ⟨rfl, .inl (by rw [phase]; rfl)⟩)
  | deadLettered phase => exact .inr (.inl ⟨rfl, .inr (by rw [phase]; rfl)⟩)
  | abandoned escapes =>
      refine .inr (.inr ⟨⟨_, _, rfl⟩, ?_⟩)
      generalize exec.phase = phase at escapes concludes
      cases phase with
      | deadLetter attempt failure => exact ⟨attempt, failure, rfl⟩
      | handler => cases escapes
      | complete => cases escapes
      | _ => cases concludes
  | jobMissing phase => rw [phase] at concludes; cases concludes
  | found phase => rw [phase] at concludes; cases concludes
  | marked phase => rw [phase] at concludes; cases concludes
  | announced phase => rw [phase] at concludes; cases concludes
  | created phase => rw [phase] at concludes; cases concludes
  | retried phase => rw [phase] at concludes; cases concludes
  | published phase => rw [phase] at concludes; cases concludes

theorem exec_of_actor {exec : ExecCall}
    (taken : step env state action = some next)
    (called : state.calls call = some (.exec exec))
    (acts : action.actor = some call) :
    ∃ input exec', action = .exec call input ∧
      ExecStep state.world exec input next.world exec' ∧
      next.calls call = exec'.map .exec := by
  obtain ⟨input, rfl⟩ : ∃ input, action = .exec call input := by
    cases step_cases taken with
    | started starts => cases starts <;> cases acts
    | poll other => cases acts; cases called.symm.trans other
    | launched other => cases acts; cases called.symm.trans other
    | exec => cases acts; exact ⟨_, rfl⟩
    | reap other => cases acts; cases called.symm.trans other
    | tick other => cases acts; cases called.symm.trans other
    | api other case =>
        cases acts
        cases called.symm.trans other
        cases case.requests.1
    | _ => cases acts
  obtain ⟨exec', case, after⟩ := step_exec taken called
  exact ⟨input, exec', rfl, case, after⟩

/-- A call outlives a step that neither is its own nor ends its process. -/
theorem step_keeps_exec {exec : ExecCall}
    (taken : step env state action = some next)
    (called : state.calls call = some (.exec exec))
    (other : action.actor ≠ some call)
    (stays : ∀ worker ∈ action.exiting, state.belongs worker call = false) :
    next.calls call = some (.exec exec) := by
  by_cases exits : action.exits = true
  · cases action with
    | exit worker =>
        have apart : state.belongs worker call = false := stays worker rfl
        cases step_cases taken with
        | started starts => cases starts
        | exited => simp [State.exitWorker, apart, called]
    | _ => cases exits
  · exact step_keeps taken (by simpa using exits) called other

/-- A call that lets go of a job at its last attempt commits the outcome. -/
private theorem step_last (counted : AttemptsCounted job attempts state)
    (taken : step env state action = some next)
    (finishes : FinishesLast job ⟨state, action, next⟩ call)
    {row : Job} (found : state.world.jobs.get? job = some row)
    (full : (attempts : Int) = state.world.attemptLimit row)
    (held : state.holds call job) (unheld : ¬next.holds call job) :
    next.status? job = some .deadLetter ∨ next.status? job = some .completed := by
  obtain ⟨value, called, holds⟩ := held
  rw [Option.mem_def] at called
  have started := counted.started row found
  obtain ⟨exec, rfl, concludes⟩ :=
    (counted.held row call value found called holds).concluding started holds
      full
  have last : (state.world.retryPolicyOf row).maxAttempts ≤
      (row.attemptCount : Int) + 1 := by
    unfold Job.HasStarted at started
    unfold World.attemptLimit at full
    omega
  obtain ⟨stays, commits⟩ := finishes ⟨_, called, holds⟩ row found last
  obtain ⟨rfl, owns⟩ := holds
  by_cases acts : action.actor = some call
  · obtain ⟨input, after, rfl, case, remains⟩ := exec_of_actor taken called acts
    rcases case.concluding concludes with
      ⟨exec', rfl, same, owns'⟩ | ⟨rfl, completed | dead⟩ |
      ⟨⟨error, random, rfl⟩, attempt, failure, phase⟩
    · exact (unheld ⟨_, remains, same, owns'⟩).elim
    · exact .inr (release_writes taken called completed found)
    · exact .inl (release_writes taken called dead found)
    · obtain ⟨_, worker, _⟩ := exec
      subst phase
      exact (commits (by simp [Action.losesDeadLetter, called])).elim
  · exact (unheld ⟨_, step_keeps_exec taken called acts stays, rfl, owns⟩).elim

private theorem started_holds (taken : step env state action = some next)
    (starts : action.startsAttempt state = some job) :
    ∃ call, next.holds call job := by
  obtain ⟨call, id, worker, snapshot, policy, rfl, called⟩ :=
    Action.startsAttempt_eq_some starts
  obtain ⟨exec', case, after⟩ := step_exec taken called
  refine ⟨call, ?_⟩
  generalize next.world = world at case
  cases case with
  | created => exact ⟨_, after, rfl, rfl⟩
  | announced phase => cases phase
  | published phase => cases phase

theorem countAttempt_eq_or (attempts : Nat)
    (transition : Transition State Action)
    (stays : transition.action.startsAttempt transition.before ≠ some job) :
    countAttempt job attempts transition = 0 ∨
      countAttempt job attempts transition = attempts ∧
        transition.action.commitsRetry transition.before ≠ some job := by
  unfold countAttempt
  by_cases retried : transition.action.commitsRetry transition.before = some job
  · exact .inl (if_pos retried)
  · exact .inr ⟨by rw [if_neg retried, if_neg stays], retried⟩

/-- Who writes the status of an ended job that no call holds cancels it, unless
it is queued again. -/
private theorem ended_write {row : Job} {status : JobStatus}
    (ended : row.status = .deadLetter ∨ row.status = .completed ∨
      row.status = .cancelled)
    (locks : LockInv state) (found : state.world.jobs.get? job = some row)
    (free : ∀ call, ¬state.holds call job)
    (notRetried : action.commitsRetry state ≠ some job)
    (notQueued : status ≠ .queued)
    (write : StatusWrite state job action status) : status = .cancelled := by
  cases write with
  | claim isOpen member =>
      have queued := locks.status_of_tx isOpen member
      rw [State.status?, found, Option.map_some, Option.some.injEq] at queued
      simp [queued] at ended
  | markRunning called target phase =>
      refine (free _ ⟨_, called, target, ?_⟩).elim
      rw [phase]
      rfl
  | release called target releases =>
      exact (free _ ⟨_, called, target,
        ExecPhase.owns_of_releases releases⟩).elim
  | outside outside =>
      rcases Action.outsideWrite_cases outside with ⟨-, rfl⟩ | ⟨retries, -⟩ |
        ⟨-, rfl⟩
      · exact (notQueued rfl).elim
      · exact (notRetried retries).elim
      · rfl

theorem EndsExhausted.step (ends : EndsExhausted job attempts state)
    (counted : AttemptsCounted job attempts state)
    (after : AttemptsCounted job
      (countAttempt job attempts ⟨state, action, next⟩) next)
    (locks : LockInv state)
    (taken : Chronos.step env state action = some next)
    (finishes : ∀ call, FinishesLast job ⟨state, action, next⟩ call) :
    EndsExhausted job (countAttempt job attempts ⟨state, action, next⟩)
      next := by
  intro row' found' full unheld
  have one : 1 ≤ next.world.attemptLimit row' := le_max_left _ _
  have notStarted : action.startsAttempt state ≠ some job := by
    intro starts
    obtain ⟨call, held⟩ := started_holds taken starts
    exact unheld call held
  rcases countAttempt_eq_or attempts ⟨state, action, next⟩ notStarted with
    zero | ⟨same, notRetried⟩
  · rw [zero] at full
    omega
  rw [same] at full after
  obtain ⟨row, found⟩ : ∃ row, state.world.jobs.get? job = some row := by
    cases before : state.world.jobs.get? job with
    | none =>
        have none := counted.absent before
        omega
    | some row => exact ⟨row, rfl⟩
  have fullBefore : (attempts : Int) = state.world.attemptLimit row := by
    rw [full, World.attemptLimit, World.attemptLimit,
      step_policy taken found found']
  have known : next.status? job = some row'.status :=
    State.status?_eq_some_iff.mpr ⟨row', found', rfl⟩
  by_cases held : ∃ call, state.holds call job
  · obtain ⟨call, held⟩ := held
    rcases step_last counted taken (finishes call) found fullBefore held
      (unheld call) with dead | completed
    · exact .inl (Option.some.inj (known.symm.trans dead))
    · exact .inr (.inl (Option.some.inj (known.symm.trans completed)))
  · have free : ∀ call, ¬state.holds call job := fun call holds =>
      held ⟨call, holds⟩
    have ended := ends row found fullBefore free
    obtain ⟨row'', present, unchanged | write⟩ := step_job taken found
    · cases found'.symm.trans present
      rwa [unchanged]
    · cases found'.symm.trans present
      have notQueued : row'.status ≠ .queued := by
        -- A queued job has an attempt left.
        intro queued
        have less := (after.queued row' found' queued).lt
        rw [full, World.attemptLimit] at less
        omega
      exact .inr (.inr (ended_write ended locks found free notRetried notQueued
        write.status))

theorem EndsExhausted.run (run : Run (Chronos.step env) start trace last)
    (initial : Initial start)
    (unattempted : ∀ row ∈ start.world.jobs.get? job, row.attemptCount = 0)
    (leaves : ∀ transition ∈ trace, LeavesAttempt transition)
    (unheld : ∀ transition ∈ trace, ∀ call, QueuesUnheld transition call)
    (finishes : ∀ transition ∈ trace, ∀ call,
      FinishesLast job transition call) :
    EndsExhausted job (attemptsOf job trace) last := by
  induction run with
  | nil =>
      intro row _ full
      have one : 1 ≤ start.world.attemptLimit row := le_max_left _ _
      simp only [attemptsOf, List.foldl_nil] at full
      omega
  | @snoc trace middle last action run taken induction =>
      have after := AttemptsCounted.run (run.snoc taken) initial unattempted
        leaves unheld
      rw [attemptsOf_snoc] at after ⊢
      simp only [List.forall_mem_append, List.forall_mem_singleton]
        at leaves unheld finishes
      exact (induction leaves.1 unheld.1 finishes.1).step
        (.run run initial unattempted leaves.1 unheld.1) after
        (LockInv.run run initial) taken finishes.2

/-- In every run in which the reaper leaves an attempt to the jobs that it
requeues, and neither it nor a manual retry requeues a job that a call holds,
the executions of a job that was not attempted before stay within the limit,
and an exhausted job is not queued; it ends as a dead letter unless its last
attempt completes it, it is cancelled, or the last attempt is lost.  In no run
is a job a dead letter all of whose attempts end before their handler does. -/
theorem attempts_within_limit (run : Run (step env) start trace last)
    (initial : Initial start)
    (unattempted : ∀ row ∈ start.world.jobs.get? job, row.attemptCount = 0) :
    ((∀ transition ∈ trace, LeavesAttempt transition) →
      (∀ transition ∈ trace, ∀ call, QueuesUnheld transition call) →
      WithinLimit job (attemptsOf job trace) last ∧
        ((∀ transition ∈ trace, ∀ call, FinishesLast job transition call) →
          EndsExhausted job (attemptsOf job trace) last)) ∧
    ((∀ transition ∈ trace,
        transition.action.leavesHandler transition.before ≠ some job) →
      start.status? job ≠ some .deadLetter →
      last.status? job ≠ some .deadLetter) := by
  refine ⟨?_, ?_⟩
  · intro leaves unheld
    have counted := AttemptsCounted.run run initial unattempted leaves unheld
    refine ⟨counted.withinLimit, ?_⟩
    intro finishes
    exact .run run initial unattempted leaves unheld finishes
  · intro kills alive
    exact (Undecided.run run initial alive kills).alive

end Steps

/-- A job that may be attempted twice kills its worker once; then it fails on
the other worker.  Until that handler throws it is not a dead letter. -/
theorem attempts_within_limit_crashed :
    (∃ trace last,
      Run (step .sample)
        (World.twoAttempts ⟨[(7, .sample .queued)], by simp⟩).idle trace last ∧
      attemptsOf 7 trace = 2 ∧
      (∃ transition ∈ trace,
        transition.action.requeuesOrphan transition.before = some 7) ∧
      WithinLimit 7 (attemptsOf 7 trace) last ∧
      EndsExhausted 7 (attemptsOf 7 trace) last ∧
      last.status? 7 = some .deadLetter) ∧
    ∃ trace last,
      Run (step .sample)
        (World.twoAttempts ⟨[(7, .sample .queued)], by simp⟩).idle trace last ∧
      attemptsOf 7 trace = 2 ∧ last.status? 7 ≠ some .deadLetter := by
  have initial : Initial
      (World.twoAttempts ⟨[(7, .sample .queued)], by simp⟩).idle :=
    World.idle_initial fun _ => rfl
  have unattempted : ∀ row ∈ (World.twoAttempts
      ⟨[(7, .sample .queued)], by simp⟩).idle.world.jobs.get? 7,
      row.attemptCount = 0 := by
    intro row found
    cases found
    rfl
  refine ⟨?_, ?_⟩
  · obtain ⟨trace, last, run, two, requeued, dead, leaves, checked⟩ :=
      exists_run_of_check (step .sample)
        (World.twoAttempts ⟨[(7, .sample .queued)], by simp⟩).idle
        (claimActions 1 1 [7] ++ executeActions 1 2 0 ++
          crashActions 1 20000 3 2 ++ reapActions 3 1 0 7 ++
          claimActions 4 2 [7] ++ executeActions 4 5 1 ++
          ([.exec 5 (.failed "refused" .zero), .exec 5 .ok] : List Action))
        (fun trace last =>
          attemptsOf 7 trace = 2 ∧
          (∃ transition ∈ trace,
            transition.action.requeuesOrphan transition.before = some 7) ∧
          last.status? 7 = some .deadLetter ∧
          (∀ transition ∈ trace, LeavesAttempt transition) ∧
          ChecksCalls 6 (fun transition call =>
            QueuesUnheld transition call ∧
              FinishesLast 7 transition call) trace)
        (by decide)
    have calls := checked.forall_calls run initial (by
      intro transition call absent
      simp [Undisturbed, FinishesLast, State.holdsIn, absent])
    obtain ⟨within, ends⟩ :=
      (attempts_within_limit run initial unattempted).1 leaves
        fun transition member call => (calls transition member call).1
    exact ⟨trace, last, run, two, requeued, within,
      ends fun transition member call => (calls transition member call).2,
      dead⟩
  · obtain ⟨trace, last, run, two, kills⟩ :=
      exists_run_of_check (step .sample)
        (World.twoAttempts ⟨[(7, .sample .queued)], by simp⟩).idle
        (claimActions 1 1 [7] ++ executeActions 1 2 0 ++
          crashActions 1 20000 3 2 ++ reapActions 3 1 0 7 ++
          claimActions 4 2 [7] ++ executeActions 4 5 1 ++
          ([.exit 2] : List Action))
        (fun trace _ =>
          attemptsOf 7 trace = 2 ∧
          ∀ transition ∈ trace,
            transition.action.leavesHandler transition.before ≠ some 7)
        (by decide)
    exact ⟨trace, last, run, two,
      (attempts_within_limit run initial unattempted).2 kills (by decide)⟩

/-- A job that may be attempted once kills two workers, one after the other,
and each time a cycle puts it back to `queued`. -/
theorem attempts_unlimited :
    ∃ trace last,
      Run (step .sample)
        (World.singleAttempt ⟨[(7, .sample .queued)], by simp⟩).idle
        trace last ∧
      Initial (World.singleAttempt ⟨[(7, .sample .queued)], by simp⟩).idle ∧
      (∀ transition ∈ trace,
        ∀ worker ∈ transition.action.marksDead transition.before,
        transition.before.world.process worker = some .exited) ∧
      attemptsOf 7 trace = 2 ∧ last.status? 7 = some .queued ∧
      (∀ row ∈ last.world.jobs.get? 7, last.world.attemptLimit row = 1) ∧
      ¬WithinLimit 7 (attemptsOf 7 trace) last := by
  obtain ⟨trace, last, run, crashed, two, queued, ⟨row, found, one⟩⟩ :=
    exists_run_of_check (step .sample)
      (World.singleAttempt ⟨[(7, .sample .queued)], by simp⟩).idle
      (claimActions 1 1 [7] ++ executeActions 1 2 0 ++
        crashActions 1 20000 3 2 ++ reapActions 3 1 0 7 ++
        claimActions 4 2 [7] ++ executeActions 4 5 1 ++
        ([.register 3] : List Action) ++ crashActions 2 40000 6 3 ++
        reapActions 6 2 1 7)
      (fun trace last =>
        (∀ transition ∈ trace,
          ∀ worker ∈ transition.action.marksDead transition.before,
          transition.before.world.process worker = some .exited) ∧
        attemptsOf 7 trace = 2 ∧ last.status? 7 = some .queued ∧
        ∃ row ∈ last.world.jobs.get? 7, last.world.attemptLimit row = 1)
      (by decide)
  refine ⟨trace, last, run, World.idle_initial fun _ => rfl, crashed, two,
    queued, ?_, ?_⟩
  · intro row' found'
    cases Option.mem_unique found found'
    exact one
  · intro within
    have bounded := within.bounded row found
    rw [one, two] at bounded
    omega

end Chronos
