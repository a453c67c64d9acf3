import Chronos.Ownership

/-!
# API requests against running workers

Cancel and retry check a status and later write by id, and a reap cycle
requeues by id.  This file says what goes wrong when such a write comes late:
two executions of one job at a time, a terminal status that changes, and a
cancelled job that runs.  For each it proves under which condition on these
writes every run is free of it.
-/

namespace Chronos

namespace JobStatus

/-- No worker writes a job in one of these statuses again. -/
def terminal (status : JobStatus) : Bool :=
  status = .completed || status = .deadLetter || status = .cancelled

end JobStatus

namespace State

/-- The job that an `executeJob` call has given up and whose closing publish
it still awaits. -/
def closing (state : State) (call : CallId) : Option JobId :=
  match state.calls call with
  | some (.exec exec) => if exec.phase.owns then none else some exec.jobId
  | _ => none

theorem closing_eq_some_iff {state : State} {call : CallId} {job : JobId} :
    state.closing call = some job ↔
      state.executes call job ∧ ¬state.holds call job := by
  unfold closing executes holds holdsIn
  cases state.calls call with
  | none => simp
  | some value =>
      cases value with
      | exec exec =>
          by_cases owns : exec.phase.owns = true
          · simp [Call.executes, Call.holdsIn, owns]
          · simp [Call.executes, Call.holdsIn, owns]
      | _ => simp [Call.executes]

end State

namespace Action

/-- The queue and the transaction's `now()`, if the locking select of a claim
runs in this step. -/
def selects (state : State) : Action → Option (QueueId × Time)
  | .poll call (.claim (.rows _ _)) =>
      match state.calls call with
      | some (.poll ⟨_, .claiming ref _ (.select _ txNow)⟩) =>
          some (ref.id, txNow)
      | _ => none
  | _ => none

end Action

/-! ## One execution at a time -/

/-- A locking select that runs during the closing publish of this call does not
find the call's job due: if the job is queued again in the queue of the select,
its `run_at` is still to come. -/
def DueAfterClosing (transition : Transition State Action) (call : CallId) :
    Prop :=
  ∀ job ∈ transition.before.closing call,
    ∀ row ∈ transition.before.world.jobs.get? job,
      ∀ select ∈ transition.action.selects transition.before,
        row.status = .queued → row.queueId = select.1 → select.2 < row.runAt

instance (transition : Transition State Action) (call : CallId) :
    Decidable (DueAfterClosing transition call) :=
  inferInstanceAs (Decidable
    (∀ job ∈ _, ∀ row ∈ _, ∀ select ∈ _, _ → _ → _ < _))

/-- At most one `executeJob` call of each job is in progress. -/
def OneExecution (state : State) : Prop :=
  ∀ job first second, state.executes first job →
    state.executes second job → first = second

/-- While the closing publish of a job's execution is out, no call holds the
job, no claim has locked it, and no other execution of it is closing. -/
structure ClosingAlone (state : State) : Prop where
  unheld : ∀ {job call holder}, state.closing call = some job →
    ¬state.holds holder job
  unlocked : ∀ {job call}, state.closing call = some job →
    state.world.locks job = none
  unique : ∀ {job first second}, state.closing first = some job →
    state.closing second = some job → first = second

section Executions

variable {env : Env} {start last state next : State} {action : Action}
  {trace : List (Transition State Action)}

theorem step_closing (taken : step env state action = some next)
    {call : CallId} {job : JobId} (closing : next.closing call = some job) :
    state.closing call = some job ∨
      ∃ input, action = .exec call input ∧ state.holds call job := by
  obtain ⟨⟨value, found, executes⟩, givenUp⟩ :=
    State.closing_eq_some_iff.mp closing
  cases step_call taken found with
  | kept called =>
      simp only [State.closing, Option.mem_def.mp found, called] at closing ⊢
      exact .inl closing
  | started starts =>
      cases starts with
      | request =>
          rename_i request
          cases request <;> cases executes
      | _ => cases executes
  | launched => exact (givenUp ⟨_, found, executes, rfl⟩).elim
  | exec called case =>
      exact .inr ⟨_, rfl, _, called, case.same_job.symm.trans executes,
        case.owns⟩
  | api called case =>
      have isRequest := case.requests.2
      cases value with
      | exec => cases isRequest
      | _ => exact executes.elim
  | _ => cases executes

private theorem not_gains_of_exec {call holder : CallId} {input : ExecInput}
    {job : JobId} : ¬Gains state (.exec call input) holder job := by
  intro gains
  cases gains

/-- A select leaves the job of a closing publish alone: its row is not due. -/
private theorem not_selected {call cycle : CallId} {poll : PollCall}
    {ref : QueueRef} {rest : List QueueRef} {available : Nat} {txNow : Time}
    {order skip : List JobId} {job : JobId}
    (due : DueAfterClosing
      ⟨state, .poll cycle (.claim (.rows order skip)), next⟩ call)
    (closing : state.closing call = some job)
    (called : state.calls cycle = some (.poll poll))
    (phase : poll.phase = .claiming ref rest (.select available txNow))
    (valid : state.world.ClaimOrder ref.id txNow skip order) :
    job ∉ order.take available := by
  intro member
  obtain ⟨worker, _⟩ := poll
  subst phase
  obtain ⟨row, found, claimable⟩ := Table.mem_keysWhere.mp
    (valid.1.mem_iff.mp (List.mem_of_mem_take member))
  simp only [Bool.and_eq_true, decide_eq_true_eq] at claimable
  obtain ⟨⟨⟨⟨inQueue, queued⟩, isDue⟩, -⟩, -⟩ := claimable
  have later : txNow < row.runAt :=
    due job closing row found (ref.id, txNow) (by simp [Action.selects, called])
      queued inQueue
  exact absurd isDue (not_le_of_gt later)

namespace ClosingAlone

theorem initial (initial : Initial start) : ClosingAlone start := by
  have open' : ∀ call, start.closing call = none := by
    intro call
    simp [State.closing, initial.calls call]
  constructor
  · intro job call _ closing
    simp [open' call] at closing
  · intro job call closing
    simp [open' call] at closing
  · intro job first _ closing
    simp [open' first] at closing

variable {call : CallId} {job : JobId}

/-- What holds of a job whose closing publish goes on in this step. -/
private theorem keep (alone : ClosingAlone state) (locks : LockInv state)
    (taken : Chronos.step env state action = some next)
    (due : DueAfterClosing ⟨state, action, next⟩ call)
    (closing : state.closing call = some job) :
    (∀ holder, ¬next.holds holder job) ∧ next.world.locks job = none := by
  have unlocked := alone.unlocked closing
  constructor
  · intro holder held
    rcases step_holds taken held with old | gains
    · exact alone.unheld closing old
    · cases gains with
      | @claimed _ poll queue rest txNow ids _ called phase member =>
          have isOpen : state.tx holder = some ⟨queue, txNow, ids⟩ := by
            simp [State.tx, called, Call.tx, phase, PollPhase.tx]
          have locked := (locks.locks_iff job holder).mpr ⟨_, isOpen, member⟩
          rw [unlocked] at locked
          cases locked
      | launched called phase =>
          exact alone.unheld closing
            ⟨_, called, Call.holdsIn_of_launching phase List.mem_cons_self⟩
  · apply Option.eq_none_iff_forall_not_mem.mpr
    intro claim locked
    rcases step_locks taken locked with old | ⟨poll, ref, rest, available,
      txNow, order, skip, rfl, called, phase, valid, member, _⟩
    · rw [unlocked] at old
      cases old
    · exact not_selected due closing called phase valid member

/-- What holds of a job that its execution gives up in this step: the call was
its only holder, and a held job is not queued, so that no claim has locked
it. -/
private theorem enter (locks : LockInv state)
    (ownership : Ownership (fun status => status = .queued) state)
    {input : ExecInput}
    (taken : Chronos.step env state (.exec call input) = some next)
    (held : state.holds call job) (givenUp : ¬next.holds call job) :
    (∀ holder, ¬next.holds holder job) ∧ next.world.locks job = none := by
  constructor
  · intro holder holds
    rcases step_holds taken holds with old | gains
    · have same : holder = call := ownership.exclusive.unique old held
      exact givenUp (same ▸ holds)
    · exact not_gains_of_exec gains
  · apply Option.eq_none_iff_forall_not_mem.mpr
    intro claim locked
    rcases step_locks taken locked with old | ⟨_, _, _, _, _, _, _, acts, _⟩
    · obtain ⟨tx, isOpen, member⟩ := (locks.locks_iff job claim).mp old
      obtain ⟨status, known, busy⟩ := ownership.status held
      cases known.symm.trans (locks.status_of_tx isOpen member)
      cases busy
    · cases acts

theorem step (alone : ClosingAlone state) (locks : LockInv state)
    (ownership : Ownership (fun status => status = .queued) state)
    (taken : Chronos.step env state action = some next)
    (due : ∀ call, DueAfterClosing ⟨state, action, next⟩ call) :
    ClosingAlone next := by
  have each : ∀ {job call}, next.closing call = some job →
      (∀ holder, ¬next.holds holder job) ∧ next.world.locks job = none := by
    intro job call closing
    rcases step_closing taken closing with old | ⟨input, rfl, held⟩
    · exact alone.keep locks taken (due call) old
    · exact enter locks ownership taken held
        (State.closing_eq_some_iff.mp closing).2
  refine ⟨fun closing => (each closing).1 _, fun closing => (each closing).2,
    ?_⟩
  intro job first second closes closes'
  rcases step_closing taken closes with old | ⟨input, rfl, held⟩
  · rcases step_closing taken closes' with old' | ⟨input, rfl, held'⟩
    · exact alone.unique old old'
    · exact (alone.unheld old held').elim
  · rcases step_closing taken closes' with old' | ⟨_, same, _⟩
    · exact (alone.unheld old' held).elim
    · cases same
      rfl

/-- Two executions of a job would both hold it, or one of them would be in its
closing publish. -/
theorem oneExecution (alone : ClosingAlone state)
    (ownership : Ownership (fun status => status = .queued) state) :
    OneExecution state := by
  intro job first second executes executes'
  by_cases held : state.holds first job
  · by_cases held' : state.holds second job
    · exact ownership.exclusive.unique held held'
    · exact (alone.unheld
        (State.closing_eq_some_iff.mpr ⟨executes', held'⟩) held).elim
  · have closing := State.closing_eq_some_iff.mpr ⟨executes, held⟩
    by_cases held' : state.holds second job
    · exact (alone.unheld closing held').elim
    · exact alone.unique closing
        (State.closing_eq_some_iff.mpr ⟨executes', held'⟩)

end ClosingAlone

/-- No job ever has two `executeJob` calls in progress, in every run in which
a job is put back to `queued` from outside only while no call holds it, and no
select finds a job due whose execution is still in its closing publish. -/
theorem executeJob_exclusive (run : Run (step env) start trace last)
    (initial : Initial start)
    (undisturbed : ∀ transition ∈ trace, ∀ call,
      Undisturbed (fun status => status = .queued) transition call)
    (due : ∀ transition ∈ trace, ∀ call, DueAfterClosing transition call) :
    OneExecution last := by
  have all : LockInv last ∧
      Ownership (fun status => status = .queued) last ∧ ClosingAlone last := by
    refine run.invariant
      (fun state => LockInv state ∧
        Ownership (fun status => status = .queued) state ∧ ClosingAlone state)
      (fun transition member =>
        And.intro (undisturbed transition member) (due transition member))
      ⟨.initial initial, .initial initial, .initial initial⟩ ?_
    rintro transition ⟨calm, due⟩ taken ⟨locks, ownership, alone⟩
    exact ⟨locks.step taken, ownership.step queued_idle locks taken calm,
      alone.step locks ownership taken due⟩
  exact all.2.2.oneExecution all.2.1

/-- A job is cancelled and retried before anyone claims it, then runs and
fails; the other worker looks for jobs during the closing publish and claims
the job when it is due again. -/
theorem executeJob_exclusive_retried :
    ∃ trace last,
      Run (step .sample)
        (World.sample 2 ⟨[(7, .sample .queued)], by simp⟩).idle trace last ∧
      last.executes 4 7 ∧ OneExecution last := by
  obtain ⟨trace, last, run, checked, executing⟩ :=
    exists_run_of_check (step .sample)
      (World.sample 2 ⟨[(7, .sample .queued)], by simp⟩).idle
      (cancelActions 5 7 ++ retryActions 6 7 ++
        claimActions 1 1 [7] ++ executeActions 1 2 0 ++
        ([.exec 2 (.failed "refused" .zero), .exec 2 .ok] : List Action) ++
        (claimActions 7 2 []).dropLast ++
        ([.exec 2 .ok, .advance 1000] : List Action) ++
        claimActions 3 2 [7] ++ ([.launch 3 4] : List Action))
      (fun trace last =>
        ChecksCalls 8 (fun transition call =>
          Undisturbed (fun status => status = .queued) transition call ∧
          DueAfterClosing transition call) trace ∧
        last.executes 4 7) (by decide)
  have initial : Initial
      (World.sample 2 ⟨[(7, .sample .queued)], by simp⟩).idle :=
    World.idle_initial fun _ => rfl
  have conditions := checked.forall_calls run initial (by
    intro transition call absent
    simp [Undisturbed, DueAfterClosing, State.closing, State.holdsIn, absent])
  exact ⟨trace, last, run, executing, executeJob_exclusive run initial
    (fun transition member call => (conditions transition member call).1)
    (fun transition member call => (conditions transition member call).2)⟩

/-- Without the condition it fails, even if nothing else goes wrong: a cancel
acts on an old read, and a retry puts the running job back. -/
theorem executeJob_twice :
    ¬∀ (env : Env) (start last : State)
      (trace : List (Transition State Action)),
      Run (step env) start trace last → Initial start →
      (∀ transition ∈ trace,
        transition.action.steady transition.before = true) →
      OneExecution last := by
  intro exclusive
  obtain ⟨trace, last, run, steady, first, second⟩ :=
    exists_run_of_check (step .sample)
      (World.sample 2 ⟨[(7, .sample .queued)], by simp⟩).idle
      (([.request 5 (.cancel 7), .api 5 .ok] : List Action) ++
        claimActions 1 1 [7] ++ executeActions 1 2 0 ++
        ([.api 5 .ok, .api 5 .ok] : List Action) ++ retryActions 6 7 ++
        claimActions 3 2 [7] ++ ([.launch 3 4] : List Action))
      (fun trace last =>
        (∀ transition ∈ trace,
          transition.action.steady transition.before = true) ∧
        last.executes 2 7 ∧ last.executes 4 7) (by decide)
  have same := exclusive _ _ last trace run
    (World.idle_initial fun _ => rfl) steady 7 2 4 first second
  exact absurd same (by decide)

end Executions

/-! ## Terminal statuses -/

namespace Action

/-- The status that the writer checked when it read the job passes the same
check at its write. -/
def recheck (state : State) (action : Action) : Bool :=
  ((action.requeuesOrphan state).all fun job =>
    (state.status? job).any JobStatus.inFlight) &&
  ((action.commitsRetry state).all fun job =>
    (state.status? job).any JobStatus.retryable) &&
  ((action.commitsCancel state).all fun job =>
    (state.status? job).any JobStatus.cancellable)

end Action

/-- The reaper does not take a job from this call. -/
def LeavesHeld (transition : Transition State Action) (call : CallId) : Prop :=
  ∀ job ∈ transition.action.requeuesOrphan transition.before,
    ¬transition.before.holds call job

instance (transition : Transition State Action) (call : CallId) :
    Decidable (LeavesHeld transition call) :=
  inferInstanceAs (Decidable (∀ job ∈ _, ¬_))

/-- If the reaper or the API writes a job row in this step, the write does not
come late. -/
structure Timely (transition : Transition State Action) : Prop where
  recheck : transition.action.recheck transition.before = true
  unheld : ∀ call, LeavesHeld transition call

/-- Terminal statuses are final in this history. -/
structure TerminalFinal (trace : List (Transition State Action)) : Prop where
  completed : ∀ {earlier first later other job},
    trace = earlier ++ first :: later →
    first.after.status? job = some .completed →
    other ∈ later → other.after.status? job = some .completed
  settled : ∀ {transition job status}, transition ∈ trace →
    status = .deadLetter ∨ status = .cancelled →
    transition.before.status? job = some status →
    transition.after.status? job = some status ∨
      transition.action.commitsRetry transition.before = some job

section Terminal

variable {env : Env} {start last state next : State} {action : Action}
  {trace : List (Transition State Action)}

private theorem of_recheck {found : Option JobId} {check : JobStatus → Bool}
    (passed : found.all (fun job => (state.status? job).any check) = true)
    {job : JobId} (written : found = some job) :
    ∃ status, state.status? job = some status ∧ check status = true := by
  subst written
  exact Option.any_eq_true _ _ |>.mp passed

private theorem Timely.undisturbed
    (timely : Timely ⟨state, action, next⟩)
    (ownership : Ownership (fun status => !status.inFlight) state)
    (call : CallId) :
    Undisturbed (fun status => !status.inFlight) ⟨state, action, next⟩ call := by
  rintro ⟨job, status⟩ write idle held
  obtain ⟨recheck, unheld⟩ := timely
  simp only [Action.recheck, Bool.and_eq_true] at recheck
  obtain ⟨old, found, busy⟩ := ownership.status held
  have oldInFlight : old.inFlight = true := by simpa using busy
  rcases Action.outsideWrite_cases write with
    ⟨orphan, _⟩ | ⟨retry, _⟩ | ⟨cancel, _⟩
  · exact unheld call job orphan held
  · obtain ⟨status, same, retryable⟩ := of_recheck recheck.1.2 retry
    cases found.symm.trans same
    cases old <;> simp_all [JobStatus.inFlight, JobStatus.retryable]
  · obtain ⟨status, same, cancellable⟩ := of_recheck recheck.2 cancel
    cases found.symm.trans same
    cases old <;> simp_all [JobStatus.inFlight, JobStatus.cancellable]

private theorem terminal_step (locks : LockInv state)
    (ownership : Ownership (fun status => !status.inFlight) state)
    (timely : Timely ⟨state, action, next⟩)
    (taken : step env state action = some next) {job : JobId}
    {status : JobStatus} (terminal : status.terminal = true)
    (before : state.status? job = some status) :
    next.status? job = some status ∨
      (action.commitsRetry state = some job ∧ status ≠ .completed) := by
  have notHeld : ∀ call, ¬state.holds call job := by
    intro call held
    obtain ⟨old, found, busy⟩ := ownership.status held
    cases before.symm.trans found
    cases status <;> simp_all [JobStatus.terminal, JobStatus.inFlight]
  obtain ⟨new, after⟩ := step_status taken before
  rcases step_status_cases taken after with same | absent | write
  · cases before.symm.trans same
    exact .inl after
  · rw [before] at absent
    cases absent
  · have recheck := timely.recheck
    simp only [Action.recheck, Bool.and_eq_true] at recheck
    cases write with
    | @claim call tx isOpen member =>
        cases before.symm.trans (locks.status_of_tx isOpen member)
        cases terminal
    | markRunning called target phase =>
        refine (notHeld _ ⟨_, called, target, ?_⟩).elim
        rw [phase]
        rfl
    | release called target phase =>
        exact (notHeld _
          ⟨_, called, target, ExecPhase.owns_of_releases phase⟩).elim
    | outside write =>
        rcases Action.outsideWrite_cases write with
          ⟨orphan, _⟩ | ⟨retry, _⟩ | ⟨cancel, _⟩
        · obtain ⟨old, found, inFlight⟩ := of_recheck recheck.1.1 orphan
          cases before.symm.trans found
          cases status <;> simp_all [JobStatus.terminal, JobStatus.inFlight]
        · obtain ⟨old, found, retryable⟩ := of_recheck recheck.1.2 retry
          cases before.symm.trans found
          refine .inr ⟨retry, ?_⟩
          rintro rfl
          cases retryable
        · obtain ⟨old, found, cancellable⟩ := of_recheck recheck.2 cancel
          cases before.symm.trans found
          cases status <;> simp_all [JobStatus.terminal, JobStatus.cancellable]

/-- Terminal statuses are final in every run in which no write of the reaper
or the API comes late. -/
theorem terminal_final (run : Run (step env) start trace last)
    (initial : Initial start)
    (timely : ∀ transition ∈ trace, Timely transition) :
    TerminalFinal trace := by
  have steps : ∀ transition ∈ trace, ∀ job status,
      status.terminal = true → transition.before.status? job = some status →
      transition.after.status? job = some status ∨
        (transition.action.commitsRetry transition.before = some job ∧
          status ≠ .completed) := by
    intro transition member job status terminal before
    obtain ⟨⟨locks, ownership⟩, taken⟩ := run.invariant_before
      (fun state => LockInv state ∧
        Ownership (fun status => !status.inFlight) state) timely
      ⟨.initial initial, .initial initial⟩
      (fun transition timely taken inv => ⟨inv.1.step taken,
        inv.2.step notInFlight_idle inv.1 taken
          (Timely.undisturbed timely inv.2)⟩) member
    exact terminal_step locks ownership (timely transition member) taken
      terminal before
  constructor
  · rintro earlier first later other job rfl completed member
    obtain ⟨between, rest, rfl⟩ := List.append_of_mem member
    obtain ⟨_, _, rest'⟩ := run.around
    obtain ⟨toOther, _, _⟩ := rest'.around
    have never : ∀ transition ∈ between ++ other :: rest,
        transition.before.status? job = some .completed →
        transition.after.status? job = some .completed := by
      intro transition member before
      rcases steps transition (by simp_all) job .completed rfl before with
        same | ⟨_, impossible⟩
      · exact same
      · exact (impossible rfl).elim
    apply never other (by simp)
    exact toOther.invariant
      (fun state => state.status? job = some .completed)
      (fun transition member => never transition (by simp [member]))
      completed (fun transition keeps _ before => keeps before)
  · intro transition job status member settled before
    have terminal : status.terminal = true := by
      rcases settled with rfl | rfl <;> rfl
    rcases steps transition member job status terminal before with
      same | ⟨retry, _⟩
    · exact .inl same
    · exact .inr retry

/-- A worker dies, the reaper requeues its job, and the other worker completes
it. -/
theorem terminal_final_completed :
    ∃ trace last,
      Run (step .sample)
        (World.sample 2 ⟨[(7, .sample .queued)], by simp⟩).idle trace last ∧
      last.status? 7 = some .completed ∧ TerminalFinal trace := by
  obtain ⟨trace, last, run, checked, recheck, completed⟩ :=
    exists_run_of_check (step .sample)
      (World.sample 2 ⟨[(7, .sample .queued)], by simp⟩).idle
      (claimActions 1 1 [7] ++ executeActions 1 2 0 ++
        crashActions 1 20000 3 2 ++ reapActions 3 1 0 7 ++
        claimActions 4 2 [7] ++ executeActions 4 5 1 ++
        ([.exec 5 .resolved, .exec 5 .ok, .exec 5 .ok] : List Action))
      (fun trace last =>
        ChecksCalls 6 LeavesHeld trace ∧
        (∀ transition ∈ trace,
          transition.action.recheck transition.before = true) ∧
        last.status? 7 = some .completed)
      (by decide)
  have initial : Initial
      (World.sample 2 ⟨[(7, .sample .queued)], by simp⟩).idle :=
    World.idle_initial fun _ => rfl
  have unheld := checked.forall_calls run initial (by
    intro transition call absent
    simp [LeavesHeld, State.holdsIn, absent])
  exact ⟨trace, last, run, completed, terminal_final run initial
    fun transition member =>
      ⟨recheck transition member, unheld transition member⟩⟩

/-- Without the condition it fails: a cancel that read `queued` overwrites
`completed`. -/
theorem completed_overwritten :
    ¬∀ (env : Env) (start last : State)
      (trace : List (Transition State Action)),
      Run (step env) start trace last → Initial start →
      TerminalFinal trace := by
  intro final
  obtain ⟨trace, last, run, ⟨first, isFirst, completed⟩, other, member,
      cancelled⟩ :=
    exists_run_of_check (step .sample)
      (World.sample 2 ⟨[(7, .sample .queued)], by simp⟩).idle
      (([.request 3 (.cancel 7), .api 3 .ok] : List Action) ++
        claimActions 1 1 [7] ++ executeActions 1 2 0 ++
        ([.exec 2 .resolved, .exec 2 .ok, .api 3 .ok] : List Action))
      (fun trace _ =>
        (∃ first ∈ (trace.drop 16).head?,
          first.after.status? 7 = some .completed) ∧
        ∃ other ∈ (trace.drop 16).tail,
          other.after.status? 7 = some .cancelled)
      (by decide)
  have whole : trace = trace.take 16 ++ first :: (trace.drop 16).tail := by
    rw [← List.eq_cons_of_mem_head? isFirst, List.take_append_drop]
  have kept := (final _ _ last trace run
    (World.idle_initial fun _ => rfl)).completed whole completed member
  rw [cancelled] at kept
  cases kept

end Terminal

/-! ## Cancellation -/

namespace ExecPhase

/-- From this phase the call may still run the handler, or requeue the job. -/
def pursues : ExecPhase → Bool
  | .deadLetter _ _ => false
  | .publish _ _ => false
  | _ => true

def inHandler : ExecPhase → Bool
  | .handler _ => true
  | _ => false

theorem pursues_of_inHandler {phase : ExecPhase}
    (inHandler : phase.inHandler = true) : phase.pursues = true := by
  cases phase <;> first | rfl | cases inHandler

theorem pursues_entered : Entered pursues := by
  intro world next exec exec' input case inPhase
  cases case with
  | rejected phase =>
      rcases phase with phase | ⟨_, phase⟩ <;> rw [phase] <;> rfl
  | found phase => rw [phase]; rfl
  | marked phase => rw [phase]; rfl
  | announced phase => rw [phase]; rfl
  | created phase => rw [phase]; rfl
  | logged phase => rw [phase]; rfl
  | resolved phase => rw [phase]; rfl
  | completed => cases inPhase
  | retried => cases inPhase
  | deadLettered => cases inPhase

end ExecPhase

namespace Call

def handles : Call → JobId → Prop
  | .exec running, job =>
      running.jobId = job ∧ running.phase.inHandler = true
  | _, _ => False

instance (value : Call) (job : JobId) : Decidable (value.handles job) :=
  match value with
  | .exec running =>
      inferInstanceAs
        (Decidable (running.jobId = job ∧ running.phase.inHandler = true))
  | .poll _ | .reap _ | .tick _ | .submit _ | .batch _ | .retry _
  | .cancel _ => inferInstanceAs (Decidable False)

def answer? : Call → Option Nat
  | .submit ⟨_, _, .answered httpStatus⟩ => some httpStatus
  | .batch ⟨_, _, .answered httpStatus⟩ => some httpStatus
  | .retry ⟨_, .answered httpStatus⟩ => some httpStatus
  | .cancel ⟨_, .answered httpStatus⟩ => some httpStatus
  | _ => none

end Call

namespace State

/-- A call has the job in hand and may still run its handler or requeue it. -/
abbrev pursues (state : State) (call : CallId) (job : JobId) : Prop :=
  state.holdsIn ExecPhase.pursues call job

/-- The handler of the job is running in this call. -/
def handling (state : State) (call : CallId) (job : JobId) : Prop :=
  ∃ value ∈ state.calls call, value.handles job

instance (state : State) (call : CallId) (job : JobId) :
    Decidable (state.handling call job) :=
  inferInstanceAs (Decidable (∃ value ∈ state.calls call, value.handles job))

theorem handling.pursues {state : State} {call : CallId} {job : JobId}
    (handling : state.handling call job) : state.pursues call job := by
  obtain ⟨value, found, handles⟩ := handling
  cases value with
  | exec =>
      obtain ⟨target, inHandler⟩ := handles
      exact ⟨_, found, target, ExecPhase.pursues_of_inHandler inHandler⟩
  | _ => cases handles

/-- The HTTP status with which a request has been answered. -/
def answer? (state : State) (call : CallId) : Option Nat :=
  (state.calls call).bind Call.answer?

end State

/-- The request that takes this step. -/
def Action.request? : Action → Option CallId
  | .api call _ => some call
  | _ => none

/-- A handler invocation of the job begins. -/
def HandlerBegins (transition : Transition State Action) (job : JobId) : Prop :=
  ∃ call, ¬transition.before.handling call job ∧
    transition.after.handling call job

/-- Cancels prevent the run in this history: if the request answers 200, no
handler of the job runs when its update commits, and none begins afterwards
until a manual retry commits. -/
def CancelPrevents (trace : List (Transition State Action)) : Prop :=
  ∀ {earlier commit later call job},
    trace = earlier ++ commit :: later →
    commit.action.request? = some call →
    commit.action.commitsCancel commit.before = some job →
    (∃ answer ∈ later, answer.after.answer? call = some 200) →
    (∀ other, ¬commit.before.handling other job) ∧
      ∀ {between begins rest}, later = between ++ begins :: rest →
        (∀ transition ∈ between,
          transition.action.commitsRetry transition.before ≠ some job) →
        ¬HandlerBegins begins job

/-- The call does not pursue a job whose cancel commits in this step. -/
def CancelsUnpursued (transition : Transition State Action) (call : CallId) :
    Prop :=
  ∀ job ∈ transition.action.commitsCancel transition.before,
    ¬transition.before.pursues call job

instance (transition : Transition State Action) (call : CallId) :
    Decidable (CancelsUnpursued transition call) :=
  inferInstanceAs (Decidable (∀ job ∈ _, ¬_))

section Cancellation

variable {env : Env} {start last state next : State} {action : Action}
  {trace : List (Transition State Action)} {job : JobId}

/-- Nobody pursues the job, and it exists but is not `queued`. -/
structure Withdrawn (state : State) (job : JobId) : Prop where
  unpursued : ∀ call, ¬state.pursues call job
  status : ∃ status, state.status? job = some status ∧ status ≠ .queued

private theorem commitsCancel_status
    (taken : step env state action = some next)
    (commits : action.commitsCancel state = some job) :
    next.status? job = some .cancelled := by
  unfold Action.commitsCancel at commits
  split at commits
  · rename_i call
    split at commits <;> cases commits
    rename_i queueId project called
    simp only [step, called, handle, cancelJob] at taken
    split at taken
    · rename_i writable
      cases taken
      simp only [World.writable, Bool.and_eq_true, Option.isSome_iff_exists]
        at writable
      obtain ⟨⟨row, found⟩, _⟩ := writable
      simp [State.status?, World.get?_updateJob, found, Job.cancel]
    · cases taken
  · cases commits

private theorem withdrawn_of_cancel
    (taken : step env state action = some next)
    (commits : action.commitsCancel state = some job)
    (unpursued : ∀ call, ¬state.pursues call job) : Withdrawn next job := by
  refine ⟨?_, .cancelled, commitsCancel_status taken commits, by simp⟩
  intro call pursues
  rcases step_holdsIn ExecPhase.pursues_entered taken pursues with old | gains
  · exact unpursued call old
  · cases gains <;> cases commits

private theorem Withdrawn.unpursued_step (withdrawn : Withdrawn state job)
    (locks : LockInv state) (taken : step env state action = some next)
    (call : CallId) : ¬next.pursues call job := by
  obtain ⟨unpursued, status, found, notQueued⟩ := withdrawn
  intro pursues
  rcases step_holdsIn ExecPhase.pursues_entered taken pursues with old | gains
  · exact unpursued call old
  · cases gains with
    | launched called phase =>
        refine unpursued _ ⟨_, called, ?_⟩
        simp [Call.holdsIn, phase, PollPhase.claimedIds]
    | claimed called phase member =>
        have returns := ClaimReturns.of_commit taken called phase
        have queued := returns.status_before taken locks member
        rw [found] at queued
        exact notQueued (Option.some.inj queued)

/-- Without the reaper only a manual retry ends the withdrawal. -/
private theorem Withdrawn.step (withdrawn : Withdrawn state job)
    (locks : LockInv state)
    (taken : Chronos.step env state action = some next)
    (noReaper : action.reaps = false)
    (noRetry : action.commitsRetry state ≠ some job) :
    Withdrawn next job := by
  refine ⟨withdrawn.unpursued_step locks taken, ?_⟩
  obtain ⟨unpursued, status, found, notQueued⟩ := withdrawn
  obtain ⟨new, after⟩ := step_status taken found
  refine ⟨new, after, ?_⟩
  rintro rfl
  rcases step_status_cases taken after with same | absent | write
  · rw [found] at same
    exact notQueued (Option.some.inj same)
  · rw [found] at absent
    cases absent
  · cases write with
    | @release call exec _ called target phase =>
        refine unpursued call ⟨_, called, target, ?_⟩
        cases shape : exec.phase <;> rw [shape] at phase <;>
          first | rfl | cases phase
    | outside write =>
        rcases Action.outsideWrite_cases write with
          ⟨orphan, _⟩ | ⟨retry, _⟩ | ⟨_, impossible⟩
        · unfold Action.requeuesOrphan at orphan
          split at orphan
          · cases noReaper
          · cases orphan
        · exact noRetry retry
        · cases impossible

/-- A cancel whose update commits while no worker has the job in hand prevents
the run. -/
theorem cancel_prevents (run : Run (step env) start trace last)
    (initial : Initial start)
    (noReaper : ∀ transition ∈ trace, transition.action.reaps = false)
    (unpursued : ∀ transition ∈ trace, ∀ call,
      CancelsUnpursued transition call) : CancelPrevents trace := by
  rintro earlier commit later call job rfl _ commits _
  have free : ∀ other, ¬commit.before.pursues other job := fun other =>
    unpursued commit (by simp) other job commits
  refine ⟨fun other handling => free other handling.pursues, ?_⟩
  rintro between begins rest rfl noRetry ⟨other, before, after⟩
  obtain ⟨toCommit, cancelled, afterCommit⟩ := run.around
  obtain ⟨toBegins, begun, _⟩ := afterCommit.around
  have locks := (LockInv.run toCommit initial).step cancelled
  obtain ⟨locks, withdrawn⟩ := toBegins.invariant
    (fun state => LockInv state ∧ Withdrawn state job)
    (fun transition member =>
      And.intro (noReaper transition (by simp [member]))
        (noRetry transition member))
    ⟨locks, withdrawn_of_cancel cancelled commits free⟩
    (fun transition allowed taken inv =>
      ⟨inv.1.step taken,
        inv.2.step inv.1 taken allowed.1 allowed.2⟩)
  exact withdrawn.unpursued_step locks begun other after.pursues

/-- A cancel before the claim, a manual retry, and then the run. -/
theorem cancel_prevents_retried :
    ∃ trace last,
      Run (step .sample)
        (World.sample 2 ⟨[(7, .sample .queued)], by simp⟩).idle trace last ∧
      last.answer? 3 = some 200 ∧ last.handling 2 7 ∧
      CancelPrevents trace := by
  obtain ⟨trace, last, run, checked, noReaper, answered, handling⟩ :=
    exists_run_of_check (step .sample)
      (World.sample 2 ⟨[(7, .sample .queued)], by simp⟩).idle
      (cancelActions 3 7 ++ retryActions 4 7 ++
        claimActions 1 1 [7] ++ executeActions 1 2 0)
      (fun trace last =>
        ChecksCalls 5 CancelsUnpursued trace ∧
        (∀ transition ∈ trace, transition.action.reaps = false) ∧
        last.answer? 3 = some 200 ∧ last.handling 2 7)
      (by decide)
  have initial : Initial
      (World.sample 2 ⟨[(7, .sample .queued)], by simp⟩).idle :=
    World.idle_initial fun _ => rfl
  have unpursued := checked.forall_calls run initial (by
    intro transition call absent
    simp [CancelsUnpursued, State.holdsIn, absent])
  exact ⟨trace, last, run, answered, handling,
    cancel_prevents run initial noReaper unpursued⟩

/-- Without the condition it fails: the cancel read `queued`, and its update
commits while the handler runs. -/
theorem cancel_during_handler :
    ¬∀ (env : Env) (start last : State)
      (trace : List (Transition State Action)),
      Run (step env) start trace last → Initial start →
      (∀ transition ∈ trace,
        transition.action.steady transition.before = true) →
      CancelPrevents trace := by
  intro prevents
  obtain ⟨trace, last, run, steady, ⟨commit, isCommit, request, commits,
      handling⟩, answered⟩ :=
    exists_run_of_check (step .sample)
      (World.sample 2 ⟨[(7, .sample .queued)], by simp⟩).idle
      (([.request 3 (.cancel 7), .api 3 .ok] : List Action) ++
        claimActions 1 1 [7] ++ executeActions 1 2 0 ++
        ([.api 3 .ok, .api 3 .ok] : List Action))
      (fun trace _ =>
        (∀ transition ∈ trace,
          transition.action.steady transition.before = true) ∧
        (∃ commit ∈ (trace.drop 15).head?,
          commit.action.request? = some 3 ∧
          commit.action.commitsCancel commit.before = some 7 ∧
          commit.before.handling 2 7) ∧
        ∃ answer ∈ (trace.drop 15).tail, answer.after.answer? 3 = some 200)
      (by decide)
  have whole : trace = trace.take 15 ++ commit :: (trace.drop 15).tail := by
    rw [← List.eq_cons_of_mem_head? isCommit, List.take_append_drop]
  have calm := prevents _ _ last trace run (World.idle_initial fun _ => rfl)
    steady whole request commits answered
  exact calm.1 2 handling

end Cancellation

end Chronos
