import Chronos.Exclusivity
import Chronos.Lib.Exclusive

/-!
# Who holds a claimed job

A job that `claimJobs` has returned lives in the worker's memory: in the list
of ids still to be launched, then in an `executeJob` call.  This file shows
when at most one call holds a job, and that a held job is not idle.  Claims
and executions keep this by themselves.  The three writers outside of them
(reaper, manual retry, cancel) keep it when they make a job idle only while
nobody holds it.
-/

namespace Chronos

namespace PollPhase

/-- The ids that are claimed and not launched yet. -/
def claimedIds : PollPhase → List JobId
  | .launching _ ids => ids
  | _ => []

end PollPhase

namespace ExecPhase

/-- The call may still write the job row. -/
def owns : ExecPhase → Bool
  | .publish _ _ => false
  | _ => true

/-- The status that the call writes when its next step ends its hold. -/
def releases : ExecPhase → Option JobStatus
  | .complete _ _ => some .completed
  | .retry _ _ _ _ => some .queued
  | .deadLetter _ _ => some .deadLetter
  | _ => none

theorem owns_of_releases {phase : ExecPhase} {status : JobStatus}
    (releases : phase.releases = some status) : phase.owns = true := by
  cases phase <;> first | rfl | cases releases

end ExecPhase

theorem handleFailure_owns (world : World) (attempt : Attempt)
    (error : String) (random : Draw) :
    (handleFailure world attempt error random).owns = true := by
  unfold handleFailure
  dsimp only
  split <;> rfl

namespace Call

/-- The call has the claimed job in its memory, and if it is an `executeJob`
call it is in one of the given phases. -/
def holdsIn (phases : ExecPhase → Bool) : Call → JobId → Prop
  | .poll cycle, job => job ∈ cycle.phase.claimedIds
  | .exec running, job => running.jobId = job ∧ phases running.phase = true
  | _, _ => False

abbrev holds : Call → JobId → Prop := holdsIn ExecPhase.owns

theorem holdsIn_of_launching {phases : ExecPhase → Bool} {poll : PollCall}
    {rest : List QueueRef} {job : JobId} {ids : List JobId}
    (phase : poll.phase = .launching rest ids) (member : job ∈ ids) :
    (Call.poll poll).holdsIn phases job := by
  change job ∈ poll.phase.claimedIds
  rw [phase]
  exact member

def executes : Call → JobId → Prop
  | .exec running, job => running.jobId = job
  | _, _ => False

instance (phases : ExecPhase → Bool) (value : Call) (job : JobId) :
    Decidable (value.holdsIn phases job) :=
  match value with
  | .poll cycle => inferInstanceAs (Decidable (job ∈ cycle.phase.claimedIds))
  | .exec running =>
      inferInstanceAs
        (Decidable (running.jobId = job ∧ phases running.phase = true))
  | .reap _ | .tick _ | .submit _ | .batch _ | .retry _ | .cancel _ =>
      inferInstanceAs (Decidable False)

instance (value : Call) (job : JobId) : Decidable (value.executes job) :=
  match value with
  | .exec running => inferInstanceAs (Decidable (running.jobId = job))
  | .poll _ | .reap _ | .tick _ | .submit _ | .batch _ | .retry _
  | .cancel _ => inferInstanceAs (Decidable False)

end Call

namespace State

def holdsIn (phases : ExecPhase → Bool) (state : State) (call : CallId)
    (job : JobId) : Prop :=
  ∃ value ∈ state.calls call, value.holdsIn phases job

abbrev holds (state : State) (call : CallId) (job : JobId) : Prop :=
  state.holdsIn ExecPhase.owns call job

/-- An `executeJob` call of this job is in progress, its closing publish
included. -/
def executes (state : State) (call : CallId) (job : JobId) : Prop :=
  ∃ value ∈ state.calls call, value.executes job

instance (phases : ExecPhase → Bool) (state : State) (call : CallId)
    (job : JobId) : Decidable (state.holdsIn phases call job) :=
  inferInstanceAs
    (Decidable (∃ value ∈ state.calls call, value.holdsIn phases job))

instance (state : State) (call : CallId) (job : JobId) :
    Decidable (state.executes call job) :=
  inferInstanceAs (Decidable (∃ value ∈ state.calls call, value.executes job))

/-- The job is in one of the given statuses, or does not exist. -/
def idle (among : JobStatus → Bool) (state : State) (job : JobId) : Prop :=
  ∀ status, state.status? job = some status → among status = true

end State

namespace Action

/-- The job that this step of a reap cycle puts back to `queued`. -/
def requeuesOrphan (state : State) : Action → Option JobId
  | .reap call .ok =>
      match state.calls call with
      | some (.reap ⟨_, .requeue _ _ job _⟩) => some job
      | _ => none
  | _ => none

/-- The job whose manual retry commits. -/
def commitsRetry (state : State) : Action → Option JobId
  | .api call .ok =>
      match state.calls call with
      | some (.retry ⟨job, .transaction _ _ _⟩) => some job
      | _ => none
  | _ => none

/-- The job whose cancel commits. -/
def commitsCancel (state : State) : Action → Option JobId
  | .api call .ok =>
      match state.calls call with
      | some (.cancel ⟨job, .update _ _⟩) => some job
      | _ => none
  | _ => none

/-- The job and its new status if this action is a write of the reaper, of a
manual retry or of a cancel. -/
def outsideWrite (state : State) (action : Action) :
    Option (JobId × JobStatus) :=
  ((action.requeuesOrphan state).map fun job => (job, .queued)).or
    (((action.commitsRetry state).map fun job => (job, .queued)).or
      ((action.commitsCancel state).map fun job => (job, .cancelled)))

theorem outsideWrite_cases {state : State} {action : Action} {job : JobId}
    {status : JobStatus}
    (write : action.outsideWrite state = some (job, status)) :
    (action.requeuesOrphan state = some job ∧ status = .queued) ∨
      (action.commitsRetry state = some job ∧ status = .queued) ∨
      (action.commitsCancel state = some job ∧ status = .cancelled) := by
  simp only [outsideWrite, Option.or_eq_some_iff, Option.map_eq_some_iff,
    Prod.mk.injEq] at write
  rcases write with ⟨_, found, rfl, rfl⟩ | ⟨_, ⟨_, found, rfl, rfl⟩ |
    ⟨_, _, found, rfl, rfl⟩⟩
  · exact .inl ⟨found, rfl⟩
  · exact .inr (.inl ⟨found, rfl⟩)
  · exact .inr (.inr ⟨found, rfl⟩)

theorem commitsCancel_eq_some {state : State} {action : Action} {job : JobId}
    (commits : action.commitsCancel state = some job) :
    ∃ call queueId project, action = .api call .ok ∧
      state.calls call = some (.cancel ⟨job, .update queueId project⟩) := by
  unfold commitsCancel at commits
  split at commits
  · split at commits <;> cases commits
    exact ⟨_, _, _, rfl, ‹_›⟩
  · cases commits

theorem requeuesOrphan_eq_some {state : State} {action : Action} {job : JobId}
    (requeues : action.requeuesOrphan state = some job) :
    ∃ call owner worker workers jobIds, action = .reap call .ok ∧
      state.calls call =
        some (.reap ⟨owner, .requeue worker workers job jobIds⟩) := by
  unfold requeuesOrphan at requeues
  split at requeues
  · split at requeues <;> cases requeues
    exact ⟨_, _, _, _, _, rfl, ‹_›⟩
  · cases requeues

/-- The call that may come to hold a job by this action. -/
def gainer : Action → CallId
  | .poll call _ => call
  | .launch _ started => started
  | _ => 0

end Action

/-- A call comes to hold a job: its claim commits, or it is launched. -/
inductive Gains (state : State) : Action → CallId → JobId → Prop where
  | claimed {call : CallId} {poll : PollCall} {queue : QueueRef}
      {rest : List QueueRef} {txNow : Time} {ids : List JobId} {job : JobId} :
      state.calls call = some (.poll poll) →
      poll.phase = .claiming queue rest (.commit txNow ids) →
      job ∈ ids →
      Gains state (.poll call (.claim .ok)) call job
  | launched {call exec : CallId} {poll : PollCall} {rest : List QueueRef}
      {job : JobId} {ids : List JobId} :
      state.calls call = some (.poll poll) →
      poll.phase = .launching rest (job :: ids) →
      Gains state (.launch call exec) exec job

theorem Gains.gainer {state : State} {action : Action} {call : CallId}
    {job : JobId} (gains : Gains state action call job) :
    call = action.gainer := by
  cases gains <;> rfl

theorem Call.not_holdsIn_of_isRequest {phases : ExecPhase → Bool}
    {value : Call} {job : JobId} (isRequest : value.isRequest = true) :
    ¬value.holdsIn phases job := by
  intro holds
  cases value with
  | poll => cases isRequest
  | exec => cases isRequest
  | _ => exact holds

namespace ExecStep

variable {world next : World} {exec exec' : ExecCall} {input : ExecInput}

theorem owns (case : ExecStep world exec input next (some exec')) :
    exec.phase.owns = true := by
  cases case with
  | rejected phase =>
      rcases phase with phase | ⟨_, phase⟩ <;> rw [phase] <;> rfl
  | found phase => rw [phase]; rfl
  | marked phase => rw [phase]; rfl
  | announced phase => rw [phase]; rfl
  | created phase => rw [phase]; rfl
  | logged phase => rw [phase]; rfl
  | resolved phase => rw [phase]; rfl
  | completed phase => rw [phase]; rfl
  | retried phase => rw [phase]; rfl
  | deadLettered phase => rw [phase]; rfl

theorem same_job (case : ExecStep world exec input next (some exec')) :
    exec'.jobId = exec.jobId := by
  cases case <;> rfl

end ExecStep

section Steps

variable {env : Env} {state next : State} {action : Action}

/-- The phases cannot be entered from outside, other than by a launch. -/
def ExecPhase.Entered (phases : ExecPhase → Bool) : Prop :=
  ∀ {world next : World} {exec exec' : ExecCall} {input : ExecInput},
    ExecStep world exec input next (some exec') →
    phases exec'.phase = true → phases exec.phase = true

theorem ExecPhase.owns_entered : ExecPhase.Entered ExecPhase.owns :=
  fun case _ => case.owns

/-- A call holds a job after a step only if it held it before or gains it. -/
theorem step_holdsIn {phases : ExecPhase → Bool}
    (entered : ExecPhase.Entered phases)
    (taken : step env state action = some next) {holder : CallId}
    {job : JobId} (held : next.holdsIn phases holder job) :
    state.holdsIn phases holder job ∨ Gains state action holder job := by
  obtain ⟨value, found, holds⟩ := held
  cases step_call taken found with
  | kept called => exact .inl ⟨value, called, holds⟩
  | started starts =>
      cases starts with
      | poll => cases holds
      | request =>
          rename_i request
          cases request <;> cases holds
      | _ => cases holds
  | handedOver called phase =>
      exact .inl ⟨_, called, Call.holdsIn_of_launching phase
        (List.mem_cons_of_mem _ holds)⟩
  | launched called phase =>
      obtain ⟨rfl, _⟩ := holds
      exact .inr (.launched called phase)
  | poll called case =>
      cases case with
      | committed phase => exact .inr (.claimed called phase holds)
      | _ => cases holds
  | exec called case =>
      obtain ⟨target, inPhase⟩ := holds
      exact .inl ⟨_, called, case.same_job.symm.trans target,
        entered case inPhase⟩
  | reap => cases holds
  | tick => cases holds
  | api called case =>
      exact (Call.not_holdsIn_of_isRequest case.requests.2 holds).elim

theorem step_holds (taken : step env state action = some next)
    {holder : CallId} {job : JobId} (held : next.holds holder job) :
    state.holds holder job ∨ Gains state action holder job :=
  step_holdsIn ExecPhase.owns_entered taken held

/-- A holder of a job goes on, or is the next one to hold it before the
execution has read it. -/
inductive Call.Continues : Call → Call → Prop where
  | same {value : Call} : Continues value value
  | handedOver {poll poll' : PollCall} : Continues (.poll poll) (.poll poll')
  | launched {poll : PollCall} {job : JobId} {worker : WorkerId} :
      Continues (.poll poll) (.exec ⟨job, worker, .findJob⟩)

theorem step_holder (taken : step env state action = some next) {job : JobId}
    {call : CallId} {value : Call} (found : next.calls call = some value)
    (holds : value.holds job) :
    (∃ before old, state.calls before = some old ∧ old.holds job ∧
      old.Continues value) ∨
    (∃ worker queue rest txNow ids cycle, action = .poll call (.claim .ok) ∧
      state.calls call = some (.poll
        ⟨worker, .claiming queue rest (.commit txNow ids)⟩) ∧ job ∈ ids ∧
      value = .poll cycle) ∨
    ∃ exec exec' input, action = .exec call input ∧
      state.calls call = some (.exec exec) ∧
      ExecStep state.world exec input next.world (some exec') ∧
      value = .exec exec' ∧ exec.jobId = job := by
  cases step_call taken found with
  | kept old => exact .inl ⟨call, value, old, holds, .same⟩
  | started starts =>
      cases starts with
      | poll => cases holds
      | request =>
          rename_i request
          cases request <;> cases holds
      | _ => cases holds
  | @handedOver _ poll _ _ _ old phase =>
      exact .inl ⟨call, .poll poll, old, Call.holdsIn_of_launching phase
        (List.mem_cons_of_mem _ holds), .handedOver⟩
  | @launched cycle poll _ launched _ old phase =>
      obtain ⟨rfl, _⟩ := holds
      exact .inl ⟨cycle, .poll poll, old,
        Call.holdsIn_of_launching phase List.mem_cons_self, .launched⟩
  | @poll poll _ _ _ old case =>
      cases case with
      | @committed queue rest txNow ids phase =>
          obtain ⟨worker, phase'⟩ := poll
          cases phase
          exact .inr (.inl ⟨worker, queue, rest, txNow, ids, _, rfl, old, holds,
            rfl⟩)
      | _ => cases holds
  | exec old case world =>
      subst world
      exact .inr (.inr ⟨_, _, _, rfl, old, case, rfl,
        case.same_job.symm.trans holds.1⟩)
  | api old case =>
      exact (Call.not_holdsIn_of_isRequest case.requests.2 holds).elim
  | _ => cases holds

theorem launch_gives {phases : ExecPhase → Bool} {call started : CallId}
    {poll : PollCall} {rest : List QueueRef} {job : JobId} {ids : List JobId}
    (taken : step env state (.launch call started) = some next)
    (called : state.calls call = some (.poll poll))
    (phase : poll.phase = .launching rest (job :: ids))
    (nodup : poll.phase.claimedIds.Nodup) :
    ¬next.holdsIn phases call job := by
  rw [phase] at nodup
  cases step_cases taken with
  | started starts _ => cases starts
  | launched called' phase' _ different _ =>
      cases called.symm.trans called'
      cases phase.symm.trans phase'
      rintro ⟨value, found, holds⟩
      simp only [State.set, Function.update_of_ne (Ne.symm different),
        Function.update_self] at found
      cases found
      exact (List.nodup_cons.mp nodup).1 holds

theorem release_gives {call : CallId} {exec : ExecCall} {status : JobStatus}
    (taken : step env state (.exec call .ok) = some next)
    (called : state.calls call = some (.exec exec))
    (phase : exec.phase.releases = some status) (job : JobId) :
    ¬next.holds call job := by
  cases step_cases taken with
  | started starts _ => cases starts
  | exec called' case =>
      cases called.symm.trans called'
      rintro ⟨value, found, holds⟩
      simp only [Function.update_self] at found
      cases case with
      | completed => cases found; cases holds.2
      | retried => cases found; cases holds.2
      | deadLettered => cases found; cases holds.2
      | jobMissing => cases found
      | published => cases found
      | found before => rw [before] at phase; cases phase
      | marked before => rw [before] at phase; cases phase
      | announced before => rw [before] at phase; cases phase

/-- How the status of a job changes in one step, by writer. -/
inductive StatusWrite (state : State) (job : JobId) :
    Action → JobStatus → Prop where
  | claim {call : CallId} {tx : ClaimTx} :
      state.tx call = some tx → job ∈ tx.ids →
      StatusWrite state job (.poll call (.claim .ok)) .claimed
  | markRunning {call : CallId} {exec : ExecCall} {snapshot : Job}
      {policy : RetryPolicy} :
      state.calls call = some (.exec exec) → exec.jobId = job →
      exec.phase = .markRunning snapshot policy →
      StatusWrite state job (.exec call .ok) .running
  | release {call : CallId} {exec : ExecCall} {status : JobStatus} :
      state.calls call = some (.exec exec) → exec.jobId = job →
      exec.phase.releases = some status →
      StatusWrite state job (.exec call .ok) status
  | outside {action : Action} {status : JobStatus} :
      action.outsideWrite state = some (job, status) →
      StatusWrite state job action status

theorem JobWrite.status {job : JobId} {row row' : Job}
    (write : JobWrite state job action row row') :
    StatusWrite state job action row'.status := by
  cases write with
  | @claim call poll queue rest txNow ids _ called phase member =>
      have isOpen : state.tx call = some ⟨queue, txNow, ids⟩ := by
        simp [State.tx, called, Call.tx, phase, PollPhase.tx]
      exact .claim isOpen member
  | markRunning called target phase _ => exact .markRunning called target phase
  | complete called target phase _ =>
      exact .release called target (by rw [phase]; rfl)
  | retry called target phase _ =>
      exact .release called target (by rw [phase]; rfl)
  | deadLetter called target phase _ =>
      exact .release called target (by rw [phase]; rfl)
  | requeueOrphan called _ =>
      exact .outside
        (by simp [Action.outsideWrite, Action.requeuesOrphan, called,
          Job.requeueOrphan])
  | @resetForRetry _ request _ _ _ _ called target phase _ =>
      obtain ⟨target', phase'⟩ := request
      subst target phase
      exact .outside
        (by simp [Action.outsideWrite, Action.requeuesOrphan,
          Action.commitsRetry, called, Job.resetForRetry])
  | @cancel _ request _ _ _ called target phase _ =>
      obtain ⟨target', phase'⟩ := request
      subst target phase
      exact .outside
        (by simp [Action.outsideWrite, Action.requeuesOrphan,
          Action.commitsRetry, Action.commitsCancel, called, Job.cancel])

/-- After a step a job has its old status, or the status was written, or the
job is new. -/
theorem step_status_cases (taken : step env state action = some next)
    {job : JobId} {status : JobStatus}
    (found : next.status? job = some status) :
    state.status? job = some status ∨ state.status? job = none ∨
      StatusWrite state job action status := by
  obtain ⟨row', found', rfl⟩ := State.status?_eq_some_iff.mp found
  cases before : state.world.jobs.get? job with
  | none => exact .inr (.inl (by simp [State.status?, before]))
  | some row =>
      obtain ⟨row'', found'', same | write⟩ := step_job taken before
      · cases found'.symm.trans found''
        exact .inl (by simp [State.status?, before, same])
      · cases found'.symm.trans found''
        exact .inr (.inr write.status)

end Steps

/-! ## One holder at most -/

/-- Statuses in which nobody may hold a job. -/
structure IdleStatuses (among : JobStatus → Bool) : Prop where
  queued : among .queued = true
  claimed : among .claimed = false
  running : among .running = false

theorem notInFlight_idle :
    IdleStatuses (fun status => !status.inFlight) :=
  ⟨by decide, by decide, by decide⟩

theorem queued_idle : IdleStatuses (fun status => status = .queued) :=
  ⟨by decide, by decide, by decide⟩

section Steps

variable {env : Env} {state next : State} {action : Action}

theorem step_claimedIds_nodup (locks : LockInv state)
    (taken : step env state action = some next)
    (nodup : ∀ {call poll}, state.calls call = some (.poll poll) →
      poll.phase.claimedIds.Nodup)
    {call : CallId} {poll : PollCall}
    (found : next.calls call = some (.poll poll)) :
    poll.phase.claimedIds.Nodup := by
  cases step_call taken found with
  | kept called => exact nodup called
  | started starts =>
      generalize same : Call.poll poll = value at starts
      cases starts with
      | poll => cases same; exact List.nodup_nil
      | request =>
          rename_i request
          cases request <;> cases same
      | _ => cases same
  | handedOver called phase =>
      have before := nodup called
      rw [phase] at before
      exact (List.nodup_cons.mp before).2
  | poll called case =>
      cases case with
      | @committed queue rest txNow ids phase =>
          have isOpen : state.tx call = some ⟨queue, txNow, ids⟩ := by
            simp [State.tx, called, Call.tx, phase, PollPhase.tx]
          exact (locks.sound call _ isOpen).nodup
      | _ => exact List.nodup_nil
  | api called case =>
      cases case.requests.2

/-- The rule by which holding a job in some of the phases stays exclusive: it
begins with a claim, and a job becomes idle only when nobody holds it so any
more. -/
theorem step_exclusive {phases : ExecPhase → Bool} {among : JobStatus → Bool}
    (entered : ExecPhase.Entered phases) (idle : IdleStatuses among)
    (exclusive : Exclusive (state.idle among) (state.holdsIn phases))
    (nodup : ∀ {call poll}, state.calls call = some (.poll poll) →
      poll.phase.claimedIds.Nodup)
    (locks : LockInv state) (taken : step env state action = some next)
    (freed : ∀ {job}, next.idle among job → state.idle among job ∨
      ∀ holder, ¬next.holdsIn phases holder job) :
    Exclusive (next.idle among) (next.holdsIn phases) := by
  refine exclusive.step action.gainer ?_ ?_ freed
  · intro job holder held different
    rcases step_holdsIn entered taken held with old | gains
    · exact old
    · exact (different gains.gainer).elim
  · intro job held
    rcases step_holdsIn entered taken held with old | gains
    · exact .inl old
    · right
      cases gains with
      | @launched call _ poll rest _ ids called phase =>
          have gave : state.holdsIn phases call job :=
            ⟨_, called, Call.holdsIn_of_launching phase List.mem_cons_self⟩
          exact .inr ⟨call, gave,
            launch_gives taken called phase (nodup called)⟩
      | claimed called phase member =>
          have returns := ClaimReturns.of_commit taken called phase
          have before := returns.status_before taken locks member
          have after := returns.status_after taken locks member
          refine .inl ⟨?_, ?_⟩
          · intro status found
            cases before.symm.trans found
            exact idle.queued
          · intro nowIdle
            simpa [idle.claimed] using nowIdle _ after

end Steps

/-- At most one call holds a job, no idle job is held, and the claimed ids of
a poll cycle are distinct. -/
structure Ownership (among : JobStatus → Bool) (state : State) : Prop where
  exclusive : Exclusive (state.idle among) state.holds
  nodup : ∀ {call poll}, state.calls call = some (.poll poll) →
    poll.phase.claimedIds.Nodup

/-- The call does not hold a job that a writer outside of claims and
executions makes idle in this step. -/
def Undisturbed (among : JobStatus → Bool)
    (transition : Transition State Action) (call : CallId) : Prop :=
  ∀ write ∈ transition.action.outsideWrite transition.before,
    among write.2 = true → ¬transition.before.holds call write.1

instance (among : JobStatus → Bool) (transition : Transition State Action)
    (call : CallId) : Decidable (Undisturbed among transition call) :=
  inferInstanceAs (Decidable (∀ write ∈ _, _ → ¬_))

namespace Ownership

variable {among : JobStatus → Bool}

theorem initial {state : State} (initial : Initial state) :
    Ownership among state := by
  have unheld : ∀ call job, ¬state.holds call job := by
    rintro call job ⟨value, found, _⟩
    rw [initial.calls call] at found
    cases found
  constructor
  · constructor
    · intro job first second holds
      exact (unheld first job holds).elim
    · intro job holder holds
      exact (unheld holder job holds).elim
  · intro call poll found
    rw [initial.calls call] at found
    cases found

theorem status {state : State} (ownership : Ownership among state)
    {call : CallId} {job : JobId} (held : state.holds call job) :
    ∃ status, state.status? job = some status ∧ among status = false := by
  have busy := ownership.exclusive.busy held
  simp only [State.idle, not_forall] at busy
  obtain ⟨status, found, notIdle⟩ := busy
  exact ⟨status, found, by simpa using notIdle⟩

theorem row {state : State} (ownership : Ownership among state)
    {call : CallId} {job : JobId} (held : state.holds call job) :
    ∃ row, state.world.jobs.get? job = some row ∧
      among row.status = false := by
  obtain ⟨_, known, busy⟩ := ownership.status held
  obtain ⟨row, found, rfl⟩ := State.status?_eq_some_iff.mp known
  exact ⟨row, found, busy⟩

variable {env : Env} {state next : State} {action : Action}

private theorem freed (ownership : Ownership among state)
    (idle : IdleStatuses among)
    (taken : step env state action = some next)
    (undisturbed : ∀ call, Undisturbed among ⟨state, action, next⟩ call)
    {job : JobId}
    (nowIdle : next.idle among job) :
    state.idle among job ∨ ∀ holder, ¬next.holds holder job := by
  cases before : state.status? job with
  | none =>
      left
      intro status found
      rw [before] at found
      cases found
  | some old =>
      obtain ⟨new, after⟩ := step_status taken before
      have isIdle := nowIdle new after
      rcases step_status_cases taken after with same | absent | write
      · left
        intro status found
        rw [found] at same
        cases same
        exact isIdle
      · rw [before] at absent
        cases absent
      · cases write with
        | claim => simp [idle.claimed] at isIdle
        | markRunning => simp [idle.running] at isIdle
        | @release call exec _ called target phase =>
            right
            intro holder held
            rcases step_holds taken held with old | gains
            · have mine : state.holds call job := by
                refine ⟨_, called, target, ?_⟩
                cases shape : exec.phase <;> rw [shape] at phase <;>
                  first | rfl | cases phase
              have same := ownership.exclusive.unique old mine
              exact release_gives taken called phase job (same ▸ held)
            · cases gains
        | outside write =>
            right
            intro holder held
            rcases step_holds taken held with old | gains
            · exact undisturbed holder (job, new) write isIdle old
            · cases gains <;> cases write

/-- Claims and executions keep ownership exclusive, whatever else runs, if no
other writer makes a held job idle. -/
theorem step (ownership : Ownership among state) (idle : IdleStatuses among)
    (locks : LockInv state) (taken : step env state action = some next)
    (undisturbed : ∀ call, Undisturbed among ⟨state, action, next⟩ call) :
    Ownership among next := by
  constructor
  · exact step_exclusive ExecPhase.owns_entered idle ownership.exclusive
      ownership.nodup locks taken (ownership.freed idle taken undisturbed)
  · exact step_claimedIds_nodup locks taken ownership.nodup

/-- Ownership is exclusive in every state of an undisturbed run. -/
theorem run {start last : State} {trace : List (Transition State Action)}
    (run : Run (Chronos.step env) start trace last) (initial : Initial start)
    (idle : IdleStatuses among)
    (steps : ∀ transition ∈ trace, ∀ call, Undisturbed among transition call) :
    Ownership among last := by
  have both : LockInv last ∧ Ownership among last := by
    refine run.invariant
      (fun state => LockInv state ∧ Ownership among state) steps
      ⟨.initial initial, .initial initial⟩ ?_
    intro transition undisturbed taken inv
    exact ⟨inv.1.step taken, inv.2.step idle inv.1 taken undisturbed⟩
  exact both.2

end Ownership

end Chronos
