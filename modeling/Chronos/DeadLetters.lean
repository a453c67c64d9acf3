import Chronos.Ownership
import Chronos.Records
import Chronos.Submission

/-!
# Dead letters and statuses

A dead letter is inserted by one transaction of `executeJob` and deleted by
the manual retry that has read it.  All other writers change the status and
leave `dead_letter_jobs` alone.  This file shows that table and status agree
exactly as long as these writers find their jobs alive.
-/

namespace Chronos

namespace State

/-- Some row of `dead_letter_jobs` has this job as its original. -/
def hasDeadLetter (state : State) (job : JobId) : Bool :=
  (state.world.deadLetters.get? job).isSome

/-- Exactly the jobs in the status `dead_letter` have a dead letter. -/
def DeadLettersAgree (state : State) : Prop :=
  ∀ job, state.hasDeadLetter job = true ↔
    state.status? job = some .deadLetter

end State

namespace Action

/-- The job whose row this step of `executeJob` writes, other than by its
dead-letter transaction. -/
def writesAttempt (state : State) : Action → Option JobId
  | .exec call .ok =>
      match state.calls call with
      | some (.exec ⟨job, _, .markRunning _ _⟩) => some job
      | some (.exec ⟨job, _, .complete _ _⟩) => some job
      | some (.exec ⟨job, _, .retry _ _ _ _⟩) => some job
      | _ => none
  | _ => none

/-- The job and the variables of the dead-letter transaction that runs in this
step, whether it commits or fails. -/
def buries (state : State) : Action → Option (JobId × Attempt × Failure)
  | .exec call _ =>
      match state.calls call with
      | some (.exec ⟨job, _, .deadLetter attempt failure⟩) =>
          some (job, attempt, failure)
      | _ => none
  | _ => none

/-- The job whose manual retry commits, having read no dead letter. -/
def commitsBareRetry (state : State) : Action → Option JobId
  | .api call .ok =>
      match state.calls call with
      | some (.retry ⟨job, .transaction _ _ false⟩) => some job
      | _ => none
  | _ => none

/-- The job that this step takes to be alive: it writes the status and leaves
dead letters alone, or tries to insert one. -/
def takesAlive (state : State) (action : Action) : Option JobId :=
  (action.writesAttempt state).or
    (((action.buries state).map Prod.fst).or
      ((action.requeuesOrphan state).or
        ((action.commitsCancel state).or (action.commitsBareRetry state))))

end Action

/-- A job that the step takes to be alive is not `dead_letter`. -/
def FindsAlive (transition : Transition State Action) : Prop :=
  ∀ job ∈ transition.action.takesAlive transition.before,
    transition.before.status? job ≠ some .deadLetter

instance (transition : Transition State Action) :
    Decidable (FindsAlive transition) :=
  inferInstanceAs (Decidable (∀ job ∈ _, _ ≠ _))

/-- In this step an `executeJob` call runs its dead-letter transaction, and
the unique index on `original_job_id` does not let it through. -/
def RefusedByIndex (transition : Transition State Action) : Prop :=
  ∃ burial ∈ transition.action.buries transition.before,
    (transition.before.world.commitDeadLetter burial.1 burial.2.1
      burial.2.2).isNone = true

instance (transition : Transition State Action) :
    Decidable (RefusedByIndex transition) :=
  inferInstanceAs (Decidable (∃ burial ∈ _, _ = _))

namespace Action

theorem writesAttempt_eq_some {state : State} {action : Action} {job : JobId}
    (writes : action.writesAttempt state = some job) :
    ∃ call worker phase, action = .exec call .ok ∧
      state.calls call = some (.exec ⟨job, worker, phase⟩) ∧
      ((∃ snapshot policy, phase = .markRunning snapshot policy) ∨
        (∃ attempt durationMs, phase = .complete attempt durationMs) ∨
        ∃ attempt failure delayMs runAt,
          phase = .retry attempt failure delayMs runAt) := by
  unfold writesAttempt at writes
  split at writes
  · split at writes <;> cases writes
    · exact ⟨_, _, _, rfl, ‹_›, .inl ⟨_, _, rfl⟩⟩
    · exact ⟨_, _, _, rfl, ‹_›, .inr (.inl ⟨_, _, rfl⟩)⟩
    · exact ⟨_, _, _, rfl, ‹_›, .inr (.inr ⟨_, _, _, _, rfl⟩)⟩
  · cases writes

theorem commitsBareRetry_eq_some {state : State} {action : Action}
    {job : JobId} (commits : action.commitsBareRetry state = some job) :
    ∃ call queueId project, action = .api call .ok ∧
      state.calls call =
        some (.retry ⟨job, .transaction queueId project false⟩) := by
  unfold commitsBareRetry at commits
  split at commits
  · split at commits <;> cases commits
    exact ⟨_, _, _, rfl, ‹_›⟩
  · cases commits

theorem takesAlive_of_buries {state : State} {action : Action} {job : JobId}
    {attempt : Attempt} {failure : Failure}
    (buries : action.buries state = some (job, attempt, failure)) :
    action.takesAlive state = some job := by
  have untouched : action.writesAttempt state = none := by
    cases writes : action.writesAttempt state with
    | none => rfl
    | some other =>
        obtain ⟨call, worker, phase, rfl, called, phases⟩ :=
          writesAttempt_eq_some writes
        rcases phases with ⟨_, _, rfl⟩ | ⟨_, _, rfl⟩ | ⟨_, _, _, _, rfl⟩ <;>
          simp [Action.buries, called] at buries
  simp [takesAlive, untouched, buries]

end Action

/-! ## What a step does to the dead letter of a job -/

/-- How the dead letter and the status of a job change together. -/
inductive LetterChange (state next : State) (action : Action) (job : JobId) :
    Prop where
  | kept :
      next.hasDeadLetter job = state.hasDeadLetter job →
      next.status? job = state.status? job →
      LetterChange state next action job
  | alive {status : JobStatus} :
      state.status? job ≠ some .deadLetter →
      next.hasDeadLetter job = state.hasDeadLetter job →
      next.status? job = some status → status ≠ .deadLetter →
      LetterChange state next action job
  | overwritten {status : JobStatus} :
      action.takesAlive state = some job →
      next.hasDeadLetter job = state.hasDeadLetter job →
      next.status? job = some status → status ≠ .deadLetter →
      LetterChange state next action job
  | buried :
      next.hasDeadLetter job = true →
      next.status? job = some .deadLetter →
      LetterChange state next action job
  | revived :
      next.hasDeadLetter job = false →
      next.status? job = some .queued →
      LetterChange state next action job

namespace LetterChange

variable {env : Env} {state next : State} {action : Action} {job : JobId}

private theorem frame (jobs : next.world.jobs = state.world.jobs)
    (deadLetters : next.world.deadLetters = state.world.deadLetters) :
    LetterChange state next action job := by
  apply kept
  · rw [State.hasDeadLetter, State.hasDeadLetter, deadLetters]
  · rw [State.status?, State.status?, jobs]

private theorem status_written {written : JobId} {update : Job → Job}
    {status : JobStatus}
    (jobs : next.world.jobs = (state.world.updateJob written update).jobs)
    (writable : state.world.writable written = true)
    (sets : ∀ row, (update row).status = status) :
    next.status? written = some status := by
  simp only [World.writable, Bool.and_eq_true] at writable
  obtain ⟨row, found⟩ := Option.isSome_iff_exists.mp writable.1
  simp [State.status?, jobs, World.get?_updateJob, found, sets row]

private theorem status_other {written : JobId} {update : Job → Job}
    (jobs : next.world.jobs = (state.world.updateJob written update).jobs)
    (different : job ≠ written) : next.status? job = state.status? job := by
  simp [State.status?, jobs, World.get?_updateJob, different]

private theorem updated {written : JobId} {update : Job → Job}
    {status : JobStatus}
    (jobs : next.world.jobs = (state.world.updateJob written update).jobs)
    (deadLetters : next.world.deadLetters = state.world.deadLetters)
    (writable : state.world.writable written = true)
    (target : action.takesAlive state = some written)
    (sets : ∀ row, (update row).status = status)
    (notDead : status ≠ .deadLetter) :
    LetterChange state next action job := by
  have letters : next.hasDeadLetter job = state.hasDeadLetter job := by
    rw [State.hasDeadLetter, State.hasDeadLetter, deadLetters]
  by_cases same : job = written
  · subst written
    exact overwritten target letters (status_written jobs writable sets) notDead
  · exact kept letters (status_other jobs same)

private theorem interred {written : JobId} {update : Job → Job}
    {letter : DeadLetterJob}
    (jobs : next.world.jobs = (state.world.updateJob written update).jobs)
    (inserted : state.world.deadLetters.insert? written letter =
      some next.world.deadLetters)
    (writable : state.world.writable written = true)
    (sets : ∀ row, (update row).status = .deadLetter) :
    LetterChange state next action job := by
  by_cases same : job = written
  · subst written
    refine buried ?_ (status_written jobs writable sets)
    simp [State.hasDeadLetter, Table.get?_insert? inserted]
  · refine kept ?_ (status_other jobs same)
    simp [State.hasDeadLetter, Table.get?_insert? inserted, same]

private theorem erased {written : JobId} {update : Job → Job}
    (jobs : next.world.jobs = (state.world.updateJob written update).jobs)
    (deadLetters : next.world.deadLetters =
      state.world.deadLetters.erase written)
    (writable : state.world.writable written = true)
    (sets : ∀ row, (update row).status = .queued) :
    LetterChange state next action job := by
  by_cases same : job = written
  · subst written
    refine revived ?_ (status_written jobs writable sets)
    simp [State.hasDeadLetter, deadLetters]
  · refine kept ?_ (status_other jobs same)
    simp [State.hasDeadLetter, deadLetters, same]

private theorem inserted {reads : CallId → Time → Prop}
    (rows : RowsInv reads state)
    (taken : step env state action = some next)
    (deadLetters : next.world.deadLetters = state.world.deadLetters)
    (noWrite : ∀ row row', ¬JobWrite state job action row row') :
    LetterChange state next action job := by
  have letters : next.hasDeadLetter job = state.hasDeadLetter job := by
    rw [State.hasDeadLetter, State.hasDeadLetter, deadLetters]
  cases before : state.world.jobs.get? job with
  | some row =>
      obtain ⟨row', found, rfl | write⟩ := step_job taken before
      · exact kept letters (by simp [State.status?, before, found])
      · exact (noWrite row row' write).elim
  | none =>
      cases found : next.world.jobs.get? job with
      | none => exact kept letters (by simp [State.status?, before, found])
      | some row =>
          have new := (step_created taken before found).new rows
          have after : next.status? job = some row.status := by
            simp [State.status?, found]
          refine alive (by simp [State.status?, before]) letters after ?_
          rcases new.status with queued | scheduled
          · simp [queued]
          · simp [scheduled]

theorem of_step {reads : CallId → Time → Prop} (locks : LockInv state)
    (rows : RowsInv reads state)
    (taken : step env state action = some next) :
    LetterChange state next action job := by
  cases step_cases taken with
  | registered success =>
      obtain ⟨workers, _, rfl⟩ := World.registerWorker_eq_some success
      exact frame rfl rfl
  | @poll call poll _ _ _ called case =>
      cases case with
      | @committed queue rest txNow ids phase =>
          have returns := ClaimReturns.of_commit taken called phase
          by_cases member : job ∈ ids
          · have before := returns.status_before taken locks member
            have after := returns.status_after taken locks member
            exact alive (by simp [before]) rfl after (by decide)
          · refine kept rfl ?_
            simp [State.status?, World.unlock, World.get?_markClaimed, member]
      | _ => exact frame rfl rfl
  | @exec call exec _ _ _ called case =>
      obtain ⟨target, worker, before⟩ := exec
      cases case with
      | marked phase writable =>
          subst phase
          refine updated rfl rfl writable ?_ (fun _ => rfl) (by decide)
          simp [Action.takesAlive, Action.writesAttempt, called]
      | completed phase writable =>
          subst phase
          refine updated rfl rfl writable ?_ (fun _ => rfl) (by decide)
          simp [Action.takesAlive, Action.writesAttempt, called]
      | retried phase writable =>
          subst phase
          refine updated rfl rfl writable ?_ (fun _ => rfl) (by decide)
          simp [Action.takesAlive, Action.writesAttempt, called]
      | deadLettered phase writable success =>
          obtain ⟨deadLetters, logs, inserted, rfl⟩ :=
            World.commitDeadLetter_spec success
          exact interred rfl inserted writable fun _ => rfl
      | announced _ same => exact frame same.jobs same.deadLetters
      | published _ same => exact frame same.jobs same.deadLetters
      | _ => exact frame rfl rfl
  | reap called case =>
      cases case with
      | requeued _ writable =>
          refine updated rfl rfl writable ?_ (fun _ => rfl) (by decide)
          simp [Action.takesAlive, Action.writesAttempt, Action.buries,
            Action.requeuesOrphan, called]
      | published same => exact frame same.jobs same.deadLetters
      | _ => exact frame rfl rfl
  | tick called case =>
      cases case with
      | created success =>
          refine inserted rows taken ?_ (fun _ _ write => by cases write)
          rw [(World.createJob_spec success).1]
      | published same => exact frame same.jobs same.deadLetters
      | _ => exact frame rfl rfl
  | api called case =>
      cases case with
      | silent same => exact frame same.jobs same.deadLetters
      | submitted _ success =>
          refine inserted rows taken ?_ (fun _ _ write => by cases write)
          rw [(World.createJob_spec success).1]
      | batchSubmitted _ _ success =>
          refine inserted rows taken ?_ (fun _ _ write => by cases write)
          rw [(World.createJobs_spec success).1]
      | @retried request queueId project deadLetter phase writable =>
          obtain ⟨target, before⟩ := request
          subst phase
          cases deadLetter with
          | false =>
              refine updated rfl rfl writable ?_ (fun _ => rfl) (by decide)
              simp [Action.takesAlive, Action.writesAttempt, Action.buries,
                Action.requeuesOrphan, Action.commitsCancel,
                Action.commitsBareRetry, called]
          | true => exact erased rfl rfl writable fun _ => rfl
      | @cancelled request queueId project phase writable =>
          refine updated rfl rfl writable ?_ (fun _ => rfl) (by decide)
          obtain ⟨target, before⟩ := request
          subst phase
          simp [Action.takesAlive, Action.writesAttempt, Action.buries,
            Action.requeuesOrphan, Action.commitsCancel, called]
  | _ => exact frame rfl rfl

end LetterChange

section Runs

variable {env : Env} {start last state next : State} {action : Action}
  {trace : List (Transition State Action)} {job : JobId}

/-- Under agreement the transaction is refused just for a `dead_letter` job. -/
private theorem refused_iff (agree : state.DeadLettersAgree)
    {attempt : Attempt} {failure : Failure}
    (buries : action.buries state = some (job, attempt, failure)) :
    RefusedByIndex ⟨state, action, next⟩ ↔
      state.status? job = some .deadLetter := by
  rw [← agree job]
  simp only [RefusedByIndex, buries, Option.mem_some_iff, exists_eq_left',
    World.commitDeadLetter, Option.isNone_map, State.hasDeadLetter]
  cases letter : state.world.deadLetters.get? job with
  | none =>
      obtain ⟨inserted, success⟩ := Table.exists_insert?
        { queueId := attempt.job.queueId
          payload := Json.orElse (some attempt.job.payload) (.obj [])
          failureReason := failure.errorMessage
          attemptCount := attempt.number
          movedAt := state.world.now } letter
      simp [success]
  | some present =>
      cases success : state.world.deadLetters.insert? job _ with
      | none => simp
      | some inserted =>
          have free := (Table.insert?_eq_some_iff.mp success).1
          simp [letter] at free

private theorem takesAlive_cases
    (taken : step env state action = some next)
    (target : action.takesAlive state = some job) :
    (∃ status, next.status? job = some status ∧ status ≠ .deadLetter ∧
      next.hasDeadLetter job = state.hasDeadLetter job) ∨
    ∃ attempt failure, action.buries state = some (job, attempt, failure) := by
  have writes : ∀ {update : Job → Job} {status : JobStatus},
      next.world.jobs = (state.world.updateJob job update).jobs →
      state.world.writable job = true →
      (∀ row, (update row).status = status) → status ≠ .deadLetter →
      next.world.deadLetters = state.world.deadLetters →
      ∃ status, next.status? job = some status ∧ status ≠ .deadLetter ∧
        next.hasDeadLetter job = state.hasDeadLetter job := by
    intro update status jobs writable sets notDead letters
    refine ⟨status, LetterChange.status_written jobs writable sets, notDead, ?_⟩
    rw [State.hasDeadLetter, State.hasDeadLetter, letters]
  simp only [Action.takesAlive, Option.or_eq_some_iff,
    Option.map_eq_some_iff] at target
  rcases target with writesRow | ⟨_, ⟨burial, buries, rfl⟩ | ⟨_, requeues |
    ⟨_, cancels | ⟨_, retries⟩⟩⟩⟩
  · left
    obtain ⟨call, worker, phase, rfl, called, phases⟩ :=
      Action.writesAttempt_eq_some writesRow
    cases step_cases taken with
    | started starts => cases starts
    | exec called' case =>
        cases called.symm.trans called'
        rcases phases with ⟨_, _, rfl⟩ | ⟨_, _, rfl⟩ | ⟨_, _, _, _, rfl⟩
        · cases case with
          | marked _ writable =>
              exact writes rfl writable (fun _ => rfl) (by decide) rfl
          | _ phase => cases phase
        · cases case with
          | completed _ writable =>
              exact writes rfl writable (fun _ => rfl) (by decide) rfl
          | _ phase => cases phase
        · cases case with
          | retried _ writable =>
              exact writes rfl writable (fun _ => rfl) (by decide) rfl
          | _ phase => cases phase
  · exact .inr ⟨_, _, buries⟩
  · left
    obtain ⟨call, _, _, _, _, rfl, called⟩ :=
      Action.requeuesOrphan_eq_some requeues
    cases step_cases taken with
    | started starts => cases starts
    | reap called' case =>
        cases called.symm.trans called'
        cases case with
        | requeued _ writable =>
            exact writes rfl writable (fun _ => rfl) (by decide) rfl
  · left
    obtain ⟨call, _, _, rfl, called⟩ := Action.commitsCancel_eq_some cancels
    cases step_cases taken with
    | started starts => cases starts
    | api called' _ handled =>
        cases called.symm.trans called'
        cases handle_cases handled with
        | cancel success =>
            obtain ⟨phase', rfl, case⟩ := cancelJob_cases success
            cases case with
            | committed writable =>
                exact writes rfl writable (fun _ => rfl) (by decide) rfl
  · left
    obtain ⟨call, _, _, rfl, called⟩ :=
      Action.commitsBareRetry_eq_some retries
    cases step_cases taken with
    | started starts => cases starts
    | api called' _ handled =>
        cases called.symm.trans called'
        cases handle_cases handled with
        | retry success =>
            obtain ⟨phase', rfl, case⟩ := retryJob_cases success
            cases case with
            | committed writable =>
                exact writes rfl writable (fun _ => rfl) (by decide) rfl

/-- From a state where they agree, a step keeps dead letters and statuses in
agreement exactly if it finds alive what it takes to be alive. -/
private theorem agree_step_iff {reads : CallId → Time → Prop}
    (agree : state.DeadLettersAgree) (locks : LockInv state)
    (rows : RowsInv reads state)
    (taken : step env state action = some next) :
    FindsAlive ⟨state, action, next⟩ ↔
      next.DeadLettersAgree ∧ ¬RefusedByIndex ⟨state, action, next⟩ := by
  constructor
  · intro alive
    constructor
    · intro job
      have before := agree job
      have change : LetterChange state next action job :=
        .of_step locks rows taken
      cases change with
      | kept letter status => rw [letter, status, before]
      | alive notDead letter status other =>
          rw [letter, before, status]
          simp [notDead, other]
      | overwritten target letter status other =>
          rw [letter, before, status]
          have notDead := alive job target
          simp [notDead, other]
      | buried letter status => simp [letter, status]
      | revived letter status => simp [letter, status]
    · intro refused
      obtain ⟨⟨job, attempt, failure⟩, buries, _⟩ := id refused
      apply alive job (Action.takesAlive_of_buries buries)
      exact (refused_iff agree buries).mp refused
  · rintro ⟨after, notRefused⟩ job target dead
    rcases takesAlive_cases taken target with
      ⟨status, now, notDead, letter⟩ | ⟨attempt, failure, buries⟩
    · have stays := (after job).mp (letter.trans ((agree job).mpr dead))
      cases now.symm.trans stays
      exact notDead rfl
    · exact notRefused ((refused_iff agree buries).mpr dead)

/-- In every run from a state where they agree, dead letters and statuses
agree throughout and the unique index refuses nothing, exactly if every step
finds alive what it takes to be alive. -/
theorem dead_letters_agree (run : Run (step env) start trace last)
    (initial : Initial start) (agree : start.DeadLettersAgree) :
    (∀ transition ∈ trace, FindsAlive transition) ↔
      ∀ transition ∈ trace, transition.after.DeadLettersAgree ∧
        ¬RefusedByIndex transition := by
  induction run with
  | nil => simp
  | @snoc trace middle last action run taken induction =>
      have locks := LockInv.run run initial
      have rows := RowsInv.run run initial
      have agreeing : (∀ transition ∈ trace,
          transition.after.DeadLettersAgree ∧ ¬RefusedByIndex transition) →
          middle.DeadLettersAgree := by
        intro before
        cases run with
        | nil => exact agree
        | snoc =>
            have final := before _
              (List.mem_append_right _ (List.mem_singleton_self _))
            exact final.1
      simp only [List.forall_mem_append, List.forall_mem_singleton]
      constructor
      · rintro ⟨before, alive⟩
        have earlier := induction.mp before
        exact ⟨earlier,
          (agree_step_iff (agreeing earlier) locks rows taken).mp alive⟩
      · rintro ⟨earlier, now⟩
        exact ⟨induction.mpr earlier,
          (agree_step_iff (agreeing earlier) locks rows taken).mpr now⟩

/-- One queue whose jobs are attempted once only. -/
def World.singleAttempt (jobs : Table JobId Job) : World :=
  { World.sample 1 jobs with
    retryPolicies := ⟨[("steady", ⟨.fixed, 1000, 30000, 1⟩)], by simp⟩ }

private theorem singleAttempt_agrees {job : JobId} {status : JobStatus}
    (notDead : status ≠ .deadLetter) :
    (World.singleAttempt
      ⟨[(job, .sample status)], by simp⟩).idle.DeadLettersAgree := by
  intro other
  have noLetter : (World.singleAttempt
      ⟨[(job, .sample status)], by simp⟩).idle.hasDeadLetter other = false :=
    rfl
  rw [noLetter]
  constructor
  · intro letter
    cases letter
  · intro dead
    obtain ⟨row, found, isDead⟩ := State.status?_eq_some_iff.mp dead
    have member := Table.mem_rows_iff.mpr found
    obtain ⟨rfl, rfl⟩ : other = job ∧ row = .sample status := by
      simpa [World.idle, World.singleAttempt, World.sample] using member
    exact (notDead isDead).elim

/-- A job fails for good, is retried by hand and fails for good once more. -/
theorem dead_letters_agree_revived :
    ∃ trace last,
      Run (step .sample)
        (World.singleAttempt ⟨[(7, .sample .queued)], by simp⟩).idle
        trace last ∧
      (∃ transition ∈ trace, transition.before.status? 7 = some .deadLetter ∧
        transition.after.status? 7 = some .queued) ∧
      last.status? 7 = some .deadLetter ∧
      ((∀ transition ∈ trace, FindsAlive transition) ↔
        ∀ transition ∈ trace, transition.after.DeadLettersAgree ∧
          ¬RefusedByIndex transition) := by
  obtain ⟨trace, last, run, revived, dead⟩ :=
    exists_run_of_check (step .sample)
      (World.singleAttempt ⟨[(7, .sample .queued)], by simp⟩).idle
      (claimActions 1 1 [7] ++ executeActions 1 2 0 ++
        ([.exec 2 (.failed "refused" .zero), .exec 2 .ok, .exec 2 .ok,
          .request 3 (.retry 7), .api 3 .ok, .api 3 .ok] : List Action) ++
        claimActions 4 1 [7] ++ executeActions 4 5 1 ++
        ([.exec 5 (.failed "refused" .zero), .exec 5 .ok] : List Action))
      (fun trace last =>
        (∃ transition ∈ trace,
          transition.before.status? 7 = some .deadLetter ∧
          transition.after.status? 7 = some .queued) ∧
        last.status? 7 = some .deadLetter)
      (by decide)
  exact ⟨trace, last, run, revived, dead,
    dead_letters_agree run (World.idle_initial fun _ => rfl)
      (singleAttempt_agrees (by decide))⟩

/-- Two manual retries read the same cancelled job; the second one resets it
after it has failed for good.  The dead letter stays, and the next dead-letter
transaction of the job is refused. -/
theorem dead_letter_left_behind :
    ∃ trace last,
      Run (step .sample)
        (World.singleAttempt ⟨[(7, .sample .cancelled)], by simp⟩).idle
        trace last ∧
      Initial (World.singleAttempt ⟨[(7, .sample .cancelled)], by simp⟩).idle ∧
      (World.singleAttempt
        ⟨[(7, .sample .cancelled)], by simp⟩).idle.DeadLettersAgree ∧
      (∃ transition ∈ trace, ¬transition.after.DeadLettersAgree) ∧
      (∃ transition ∈ trace, RefusedByIndex transition) ∧
      last.status? 7 = some .running := by
  obtain ⟨trace, last, run, ⟨broken, member, queued, letter⟩, refused,
      running⟩ :=
    exists_run_of_check (step .sample)
      (World.singleAttempt ⟨[(7, .sample .cancelled)], by simp⟩).idle
      (([.request 1 (.retry 7), .request 2 (.retry 7), .api 1 .ok, .api 2 .ok,
          .api 1 .ok] : List Action) ++
        claimActions 3 1 [7] ++ executeActions 3 4 0 ++
        ([.exec 4 (.failed "refused" .zero), .exec 4 .ok, .api 2 .ok] :
          List Action) ++
        claimActions 5 1 [7] ++ executeActions 5 6 1 ++
        ([.exec 6 (.failed "refused" .zero),
          .exec 6 (.failed "unique index" .zero)] : List Action))
      (fun trace last =>
        (∃ transition ∈ trace, transition.after.status? 7 = some .queued ∧
          transition.after.hasDeadLetter 7 = true) ∧
        (∃ transition ∈ trace, RefusedByIndex transition) ∧
        last.status? 7 = some .running)
      (by decide)
  refine ⟨trace, last, run, World.idle_initial fun _ => rfl,
    singleAttempt_agrees (by decide), ⟨broken, member, ?_⟩, refused, running⟩
  intro agree
  have dead := (agree 7).mp letter
  cases queued.symm.trans dead

end Runs

end Chronos
