import Chronos.AttemptLimit
import Chronos.AttemptNumbers
import Chronos.FanOut
import Chronos.Isolation

/-!
# The latest execution

`GET /jobs/:id` sends the execution with the highest number as
`latestExecution`, and `GET /jobs/:id/executions` lists the executions by
number, highest first.  The number is the `attemptCount` that `executeJob` has
read, plus one; failures and reap cycles count on and a manual retry starts
again from 0.  This file shows when the highest number is the latest one.
-/

namespace Chronos

/-- The execution of the job that this step creates. -/
def createdBy (job : JobId) (transition : Transition State Action) :
    Option ExecutionId :=
  match transition.action with
  | .exec _ (.created id) =>
      if transition.action.startsAttempt transition.before = some job then
        some id
      else none
  | _ => none

/-- The executions of the job that this history has created, in order. -/
def createdOf (job : JobId) (trace : List (Transition State Action)) :
    List ExecutionId :=
  trace.filterMap (createdBy job)

/-- A reap cycle or a manual retry puts a job back to `queued` only when no
call holds it: claims, executions, reaps and retries of a job follow one
another. -/
def Sequential (trace : List (Transition State Action)) : Prop :=
  ∀ transition ∈ trace, ∀ call, QueuesUnheld transition call

/-- A manual retry of the job commits only before its first execution or after
its last one. -/
def RetriedApart (job : JobId) (trace : List (Transition State Action)) :
    Prop :=
  ∀ position < trace.length, ∀ retry ∈ (trace.drop position).head?,
    retry.action.commitsRetry retry.before = some job →
    createdOf job (trace.take position) = [] ∨
      createdOf job (trace.drop (position + 1)) = []

instance (job : JobId) (trace : List (Transition State Action)) :
    Decidable (RetriedApart job trace) :=
  inferInstanceAs (Decidable (∀ position < _, ∀ retry ∈ _, _ → _ ∨ _))

/-- Both endpoints show these executions of the job, the last one first. -/
structure ShowsLatestFirst (job : JobId) (created : List ExecutionId)
    (db : Database) : Prop where
  latest : ∀ {prisma user detail},
    db.Answers prisma user (.job job) (.ok (.job detail)) →
    detail.latestExecution.map ExecutionRow.id = created.getLast? ∧
      ∀ latest ∈ detail.latestExecution,
        db.executions.get? latest.id = some latest.row
  listed : ∀ {prisma user page limit data pagination},
    db.Answers prisma user (.executions job page limit)
      (.ok (.executions data pagination)) →
    data.map ExecutionItem.id =
        (created.reverse.drop (parsePagination page limit).skip).take
          (parsePagination page limit).limit ∧
      pagination.total = created.length

/-! ## What the endpoints show -/

namespace Database

theorem answers_of_latestExecution {db : Database} (prisma : Prisma)
    {user : UserId} {job : JobId} {found : FoundJob} {orders : Orders}
    {latest : Option ExecutionRow} (isFound : db.findJob job = some found)
    (isMember : db.isMember user found.orgId = true)
    (shown : db.latestExecution job orders = some latest) :
    ∃ detail, db.Answers prisma user (.job job) (.ok (.job detail)) ∧
      detail.latestExecution = latest := by
  refine ⟨found.detail job (db.policyOf found.row) latest
    (db.deadLetters.row? job), ⟨orders, ?_⟩, rfl⟩
  simp only [read, getJob, isFound, isMember, shown, if_true, Option.map_some]

/-- The executions of the job are these, and each one has a higher number than
the ones before it. -/
structure NumbersUpwards (db : Database) (job : JobId)
    (created : List ExecutionId) : Prop where
  complete : created.Perm (db.executions.keysWhere fun _ row => row.jobId = job)
  upwards : created.Pairwise fun first second =>
    ∀ row ∈ db.executions.get? first, ∀ row' ∈ db.executions.get? second,
      row.attemptNumber < row'.attemptNumber

namespace NumbersUpwards

variable {db : Database} {job : JobId} {created : List ExecutionId}

theorem order_eq (numbers : db.NumbersUpwards job created)
    {order : List ExecutionId}
    (possible : db.executions.orders (fun _ row => row.jobId = job)
      attemptBefore order = true) : order = created.reverse := by
  apply Table.eq_of_orders possible
  · exact (List.reverse_perm created).trans numbers.complete
  · rw [List.pairwise_reverse]
    refine numbers.upwards.imp ?_
    intro first second less row' found' row found
    have higher := less row found row' found'
    simp only [attemptBefore, decide_eq_false_iff_not]
    omega

theorem keys_of_findMany (numbers : db.NumbersUpwards job created)
    {skip take : Nat} {order : List ExecutionId}
    {answer : List (ExecutionId × JobExecution)}
    (answered : db.executions.findMany (fun _ row => row.jobId = job)
      attemptBefore skip take order = some answer) :
    answer.map Prod.fst = (created.reverse.drop skip).take take := by
  have possible := (Table.findMany_eq_some_iff.mp answered).1
  rw [Table.map_fst_of_findMany answered, numbers.order_eq possible]

theorem latestExecution (numbers : db.NumbersUpwards job created)
    {orders : Orders} {latest : Option ExecutionRow}
    (shown : db.latestExecution job orders = some latest) :
    latest.map ExecutionRow.id = created.getLast? ∧
      ∀ execution ∈ latest,
        db.executions.get? execution.id = some execution.row := by
  obtain ⟨answer, answered, chosen⟩ := Option.bind_eq_some_iff.mp shown
  have keys := numbers.keys_of_findMany answered
  have first : (answer.map Prod.fst).head? = created.getLast? := by
    rw [keys, List.drop_zero, List.head?_take, if_neg Nat.one_ne_zero,
      List.head?_reverse]
  cases answer with
  | nil =>
      cases chosen
      exact ⟨first, by simp⟩
  | cons execution rest =>
      obtain ⟨logs, -, rfl⟩ := Option.map_eq_some_iff.mp chosen
      refine ⟨first, ?_⟩
      intro execution' isLatest
      cases isLatest
      exact (Table.mem_findMany answered List.mem_cons_self).1

theorem showsLatestFirst (numbers : db.NumbersUpwards job created) :
    ShowsLatestFirst job created db := by
  constructor
  · rintro prisma user detail ⟨orders, sent⟩
    simp only [read, getJob] at sent
    split at sent
    · cases sent
    · split at sent
      · obtain ⟨latest, shown, isReply⟩ := Option.map_eq_some_iff.mp sent
        cases isReply
        exact numbers.latestExecution shown
      · cases sent
  · rintro prisma user page limit data pagination ⟨orders, sent⟩
    simp only [read, getJobExecutions] at sent
    split at sent
    · cases sent
    · split at sent
      · simp only [executionsPage] at sent
        split at sent
        · obtain ⟨executions, answered, rest⟩ :=
            Option.bind_eq_some_iff.mp sent
          obtain ⟨items, collected, isReply⟩ :=
            Option.map_eq_some_iff.mp rest
          cases isReply
          have ids : data.map ExecutionItem.id = executions.map Prod.fst := by
            apply List.map_of_mapM_option collected
            intro execution item shown
            obtain ⟨logs, -, rfl⟩ := Option.map_eq_some_iff.mp shown
            rfl
          exact ⟨ids.trans (numbers.keys_of_findMany answered),
            numbers.complete.length_eq.symm⟩
        · cases sent
      · cases sent

end NumbersUpwards

end Database

/-! ## The counts of a sequential history -/

theorem ExecPhase.owns_of_starting {phase : ExecPhase}
    (isStarting : phase.starting = true) : phase.owns = true := by
  cases phase <;> first | rfl | cases isStarting

theorem State.holds_of_isStarting {state : State} {call : CallId} {job : JobId}
    (isStarting : state.isStarting call job) : state.holds call job := by
  obtain ⟨value, called, holds⟩ := isStarting
  refine ⟨value, called, ?_⟩
  cases value with
  | exec => exact ⟨holds.1, ExecPhase.owns_of_starting holds.2⟩
  | poll => exact holds
  | _ => cases holds

/-- Every call that holds its job and has read it knows the current count. -/
def CountKnown (state : State) : Prop :=
  ∀ call exec job row, state.calls call = some (.exec exec) →
    exec.phase.owns = true → exec.phase.job? = some job →
    state.world.jobs.get? exec.jobId = some row →
    job.attemptCount = row.attemptCount

section Counts

variable {env : Env} {start last state next : State} {action : Action}
  {trace : List (Transition State Action)} {job : JobId}

namespace Action

theorem countsFailure_eq_some {attempt : Attempt}
    (counts : action.countsFailure state = some (job, attempt)) :
    ∃ call worker phase status, action = .exec call .ok ∧
      state.calls call = some (.exec ⟨job, worker, phase⟩) ∧
      phase.job? = some attempt.job ∧ phase.releases = some status ∧
      phase.starting = false := by
  unfold countsFailure at counts
  split at counts
  · split at counts <;> cases counts
    · exact ⟨_, _, _, _, rfl, ‹_›, rfl, rfl, rfl⟩
    · exact ⟨_, _, _, _, rfl, ‹_›, rfl, rfl, rfl⟩
  · cases counts

/-- A count is written by the failure of an attempt, or by a reap cycle or a
manual retry, which put the job back to `queued`. -/
theorem writesCount_cases (writes : action.writesCount state = some job) :
    (∃ attempt, action.countsFailure state = some (job, attempt)) ∨
      action.outsideWrite state = some (job, .queued) := by
  simp only [writesCount, Option.or_eq_some_iff, Option.map_eq_some_iff]
    at writes
  rcases writes with ⟨⟨_, attempt⟩, counts, rfl⟩ |
    ⟨_, requeues | ⟨noOrphan, commits⟩⟩
  · exact .inl ⟨attempt, counts⟩
  · exact .inr (by simp [outsideWrite, requeues])
  · exact .inr (by simp [outsideWrite, noOrphan, commits])

end Action

private theorem released_of_writesCount
    (ownership : Ownership (fun status => status = .queued) state)
    (taken : step env state action = some next)
    (unheld : ∀ call, QueuesUnheld ⟨state, action, next⟩ call)
    (writes : action.writesCount state = some job) (call : CallId) :
    ¬next.holds call job := by
  intro held
  rcases step_holds taken held with old | gains
  · rcases Action.writesCount_cases writes with ⟨attempt, counts⟩ | outside
    · obtain ⟨actor, _, phase, status, rfl, called, _, releases, _⟩ :=
        Action.countsFailure_eq_some counts
      have mine : state.holds actor job :=
        ⟨_, called, rfl, ExecPhase.owns_of_releases releases⟩
      have same := ownership.exclusive.unique old mine
      exact release_gives taken called releases job (same ▸ held)
    · exact unheld call (job, .queued) outside rfl old
  · exact not_gains_of_writesCount writes gains

private theorem count_of_held
    (ownership : Ownership (fun status => status = .queued) state)
    (taken : step env state action = some next)
    (unheld : ∀ call, QueuesUnheld ⟨state, action, next⟩ call)
    {call : CallId} (held : next.holds call job) {row row' : Job}
    (found : state.world.jobs.get? job = some row)
    (found' : next.world.jobs.get? job = some row') :
    row.attemptCount = row'.attemptCount := by
  obtain ⟨_, found'', change⟩ := step_count taken found
  cases found'.symm.trans found''
  rcases change.kept_or_writes with ⟨same, _⟩ | writes
  · exact same.symm
  · exact (released_of_writesCount ownership taken unheld writes call held).elim

theorem CountKnown.step (known : CountKnown state)
    (ownership : Ownership (fun status => status = .queued) state)
    (taken : Chronos.step env state action = some next)
    (unheld : ∀ call, QueuesUnheld ⟨state, action, next⟩ call) :
    CountKnown next := by
  intro call exec read row' called owns isRead found'
  have holds : (Call.exec exec).holds exec.jobId := ⟨rfl, owns⟩
  have kept : ∀ {row}, state.world.jobs.get? exec.jobId = some row →
      row.attemptCount = row'.attemptCount :=
    fun found => count_of_held ownership taken unheld ⟨_, called, holds⟩ found
      found'
  rcases step_holder taken called holds with
    ⟨before, old, oldCall, oldHolds, continues⟩ |
      ⟨_, _, _, _, _, _, _, _, _, isPoll⟩ |
      ⟨old, exec', input, _, oldCall, case, same, target⟩
  · cases continues with
    | launched => cases isRead
    | same =>
        obtain ⟨row, found, _⟩ := ownership.row ⟨_, oldCall, oldHolds⟩
        have current := known before exec read row oldCall owns isRead found
        exact current.trans (kept found)
  · cases isPoll
  · cases same
    rcases case.job? isRead with oldRead | found
    · have oldHolds : state.holds call exec.jobId :=
        ⟨_, oldCall, target, case.owns⟩
      obtain ⟨row, found, _⟩ := ownership.row oldHolds
      have current := known call old read row oldCall case.owns oldRead
        (target ▸ found)
      exact current.trans (kept found)
    · exact kept (target ▸ found)

/-- In a sequential history each failure is counted once, and no count is
written while a call is about to begin an attempt. -/
theorem Sequential.counts (run : Run (step env) start trace last)
    (initial : Initial start) (sequential : Sequential trace) :
    ∀ transition ∈ trace, CountsOnce transition ∧
      ∀ call, CountsUnstarted transition call := by
  intro transition member
  have inv : (LockInv transition.before ∧
      Ownership (fun status => status = .queued) transition.before ∧
      CountKnown transition.before) ∧
      step env transition.before transition.action =
        some transition.after := by
    refine run.invariant_before (fun state => LockInv state ∧
      Ownership (fun status => status = .queued) state ∧ CountKnown state)
      sequential ⟨.initial initial, .initial initial, ?_⟩ ?_ member
    · intro call exec job row called
      rw [initial.calls call] at called
      cases called
    · rintro transition unheld taken ⟨locks, ownership, known⟩
      exact ⟨locks.step taken, ownership.step queued_idle locks taken unheld,
        known.step ownership taken unheld⟩
  obtain ⟨⟨_, ownership, known⟩, taken⟩ := inv
  constructor
  · rintro ⟨job, attempt⟩ counts row found
    obtain ⟨call, worker, phase, status, _, called, read, releases, _⟩ :=
      Action.countsFailure_eq_some counts
    exact .inl (known call _ _ row called
      (ExecPhase.owns_of_releases releases) read found).symm
  · intro call job writes starting
    have held := State.holds_of_isStarting starting
    rcases Action.writesCount_cases writes with ⟨attempt, counts⟩ | outside
    · obtain ⟨actor, _, phase, status, _, called, _, releases, begun⟩ :=
        Action.countsFailure_eq_some counts
      have mine : transition.before.holds actor job :=
        ⟨_, called, rfl, ExecPhase.owns_of_releases releases⟩
      cases ownership.exclusive.unique held mine
      obtain ⟨_, called', holds⟩ := starting
      cases called.symm.trans called'
      have isStarting := holds.2
      rw [begun] at isStarting
      cases isStarting
    · exact sequential transition member call (job, .queued) outside rfl held

end Counts

/-! ## The executions of a history -/

section Runs

variable {env : Env} {start last state next : State} {action : Action}
  {trace : List (Transition State Action)} {job : JobId}

theorem createdBy_eq_some_iff (taken : step env state action = some next)
    {id : ExecutionId} :
    createdBy job ⟨state, action, next⟩ = some id ↔
      Creates ⟨state, action, next⟩ id job := by
  constructor
  · intro creates
    simp only [createdBy] at creates
    split at creates
    · split at creates <;> cases creates
      rename_i call _ starts
      obtain ⟨_, _, worker, snapshot, policy, same, called⟩ :=
        Action.startsAttempt_eq_some starts
      cases same
      cases step_cases taken with
      | started starts => cases starts
      | exec called' case =>
          cases called.symm.trans called'
          cases case with
          | announced phase => cases phase
          | published phase => cases phase
          | @created _ _ _ executions _ inserted =>
              have isNew := (Table.insert?_eq_some_iff.mp inserted).1
              have found : executions.get? id = some _ :=
                (Table.get?_insert? inserted).trans (if_pos rfl)
              exact ⟨isNew, _, found, rfl⟩
    · cases creates
  · intro creates
    obtain ⟨call, worker, snapshot, policy, row, rfl, called, _⟩ :=
      creates_cases taken creates
    simp only [createdBy, Action.startsAttempt, called, if_true]

theorem createdOf_append (job : JobId)
    (first second : List (Transition State Action)) :
    createdOf job (first ++ second) =
      createdOf job first ++ createdOf job second :=
  List.filterMap_append

theorem mem_createdOf_iff (run : Run (step env) start trace last)
    (unattempted : ∀ id row, start.world.executions.get? id = some row →
      row.jobId ≠ job) {id : ExecutionId} :
    id ∈ createdOf job trace ↔
      ∃ row, last.world.executions.get? id = some row ∧ row.jobId = job := by
  induction run with
  | nil =>
      constructor
      · intro member
        cases member
      · rintro ⟨row, found, isJob⟩
        exact (unattempted id row found isJob).elim
  | @snoc trace middle last action run taken induction =>
      have snoc : id ∈ createdOf job (trace ++ [⟨middle, action, last⟩]) ↔
          id ∈ createdOf job trace ∨ Creates ⟨middle, action, last⟩ id job := by
        rw [createdOf_append, List.mem_append, ← createdBy_eq_some_iff taken,
          createdOf, createdOf, List.mem_filterMap (l := [_])]
        simp
      rw [snoc, induction]
      cases before : middle.world.executions.get? id with
      | none =>
          constructor
          · rintro (⟨_, found, _⟩ | ⟨_, row, found, isJob⟩)
            · cases found
            · exact ⟨row, found, isJob⟩
          · rintro ⟨row, found, isJob⟩
            exact .inr ⟨before, row, found, isJob⟩
      | some row =>
          obtain ⟨row', found', sameJob, _⟩ := step_execution taken before
          constructor
          · rintro (⟨_, found, isJob⟩ | ⟨absent, _⟩)
            · cases found
              exact ⟨row', found', sameJob.trans isJob⟩
            · rw [before] at absent
              cases absent
          · rintro ⟨_, found, isJob⟩
            cases found'.symm.trans found
            exact .inl ⟨row, rfl, sameJob.symm.trans isJob⟩

theorem RetriedApart.around {earlier later : List (Transition State Action)}
    {retry : Transition State Action}
    (apart : RetriedApart job (earlier ++ retry :: later))
    (commits : retry.action.commitsRetry retry.before = some job) :
    createdOf job earlier = [] ∨ createdOf job later = [] := by
  have parts := apart earlier.length (by simp) retry (by simp) commits
  simpa using parts

theorem RetriedApart.not_between
    {earlier between later : List (Transition State Action)}
    {first second : Transition State Action}
    (apart : RetriedApart job
      (earlier ++ first :: (between ++ second :: later)))
    {id other : ExecutionId} (created : createdBy job first = some id)
    (again : createdBy job second = some other) :
    ∀ transition ∈ between,
      transition.action.commitsRetry transition.before ≠ some job := by
  intro retry member commits
  obtain ⟨before, after, rfl⟩ := List.append_of_mem member
  have whole : earlier ++ first :: (before ++ retry :: after ++
      second :: later) =
      (earlier ++ first :: before) ++ retry :: (after ++ second :: later) := by
    simp
  rw [whole] at apart
  rcases apart.around commits with none | none
  · rw [createdOf, List.filterMap_eq_nil_iff] at none
    rw [none first (by simp)] at created
    cases created
  · rw [createdOf, List.filterMap_eq_nil_iff] at none
    rw [none second (by simp)] at again
    cases again

/-- In a sequential history with its manual retries apart, the executions of
the job are numbered in the order of their creation. -/
theorem numbersUpwards_of_run (run : Run (step env) start trace last)
    (initial : Initial start)
    (unattempted : ∀ id row, start.world.executions.get? id = some row →
      row.jobId ≠ job)
    (sequential : Sequential trace) (apart : RetriedApart job trace)
    (columns : ApiColumns) :
    (last.world.database columns).NumbersUpwards job (createdOf job trace) := by
  have upwards : (createdOf job trace).Pairwise fun first second =>
      ∃ row row', last.world.executions.get? first = some row ∧
        last.world.executions.get? second = some row' ∧
        row.attemptNumber < row'.attemptNumber := by
    rw [createdOf, List.pairwise_filterMap, List.pairwise_iff_forall_sublist]
    intro first second sublist id created other again
    obtain ⟨front, back, rfl, inFront, inBack⟩ :=
      List.cons_sublist_iff.mp sublist
    obtain ⟨earlier, middle, rfl⟩ := List.append_of_mem inFront
    obtain ⟨middle', later, rfl⟩ :=
      List.append_of_mem (List.singleton_sublist.mp inBack)
    have whole : earlier ++ first :: middle ++ (middle' ++ second :: later) =
        earlier ++ first :: (middle ++ middle' ++ second :: later) := by
      simp
    rw [whole] at run sequential apart
    have counts := sequential.counts run initial
    obtain ⟨_, taken, afterFirst⟩ := run.around
    obtain ⟨_, takenAgain, _⟩ := afterFirst.around
    exact number_lt_of_creates run initial
      (fun transition member => (counts transition member).1)
      (fun transition member => (counts transition member).2)
      ((createdBy_eq_some_iff taken).mp created)
      ((createdBy_eq_some_iff takenAgain).mp again)
      (apart.not_between created again)
  constructor
  · apply (List.perm_ext_iff_of_nodup ?_ (Table.nodup_keysWhere _ _)).mpr
    · intro id
      rw [mem_createdOf_iff run unattempted, Table.mem_keysWhere]
      simp [World.database]
    · apply upwards.imp
      rintro first _ ⟨row, row', found, found', less⟩ rfl
      cases found.symm.trans found'
      omega
  · apply upwards.imp
    rintro first second ⟨row, row', found, found', less⟩ _ isRow _ isRow'
    cases Option.mem_unique isRow found
    cases Option.mem_unique isRow' found'
    exact less

/-- The latest execution is the one created last, and the list begins with it,
in every sequential history in which no manual retry of the job commits between
two of its executions. -/
theorem latest_execution_last (run : Run (step env) start trace last)
    (initial : Initial start)
    (unattempted : ∀ id row, start.world.executions.get? id = some row →
      row.jobId ≠ job)
    (sequential : Sequential trace) (apart : RetriedApart job trace)
    (columns : ApiColumns) :
    ShowsLatestFirst job (createdOf job trace)
      (last.world.database columns) :=
  (numbersUpwards_of_run run initial unattempted sequential apart
    columns).showsLatestFirst

/-- Job 7 is cancelled and retried by hand before its first attempt, which
fails; the second one loses its worker, and the third one is under way. -/
theorem latest_execution_last_reaped :
    ∃ trace last,
      Run (step .sample)
        (World.sample 1 ⟨[(7, .sample .queued)], by simp⟩).idle trace last ∧
      (∃ transition ∈ trace,
        transition.action.commitsRetry transition.before = some 7) ∧
      (∃ transition ∈ trace,
        transition.action.requeuesOrphan transition.before = some 7) ∧
      createdOf 7 trace = [0, 1, 2] ∧
      ShowsLatestFirst 7 (createdOf 7 trace)
        (last.world.database .twoOrgs) := by
  obtain ⟨trace, last, run, retried, requeued, created, apart, checked⟩ :=
    exists_run_of_check (step .sample)
      (World.sample 1 ⟨[(7, .sample .queued)], by simp⟩).idle
      (cancelActions 1 7 ++ retryActions 2 7 ++ claimActions 3 1 [7] ++
        executeActions 3 4 0 ++
        ([.exec 4 (.failed "timeout" .zero), .exec 4 .ok, .advance 1000] :
          List Action) ++
        claimActions 5 1 [7] ++ executeActions 5 6 1 ++
        crashActions 1 20000 7 2 ++ reapActions 7 1 1 7 ++
        claimActions 8 2 [7] ++ executeActions 8 9 2)
      (fun trace _ =>
        (∃ transition ∈ trace,
          transition.action.commitsRetry transition.before = some 7) ∧
        (∃ transition ∈ trace,
          transition.action.requeuesOrphan transition.before = some 7) ∧
        createdOf 7 trace = [0, 1, 2] ∧ RetriedApart 7 trace ∧
        ChecksCalls 10 QueuesUnheld trace)
      (by decide)
  have initial : Initial
      (World.sample 1 ⟨[(7, .sample .queued)], by simp⟩).idle :=
    World.idle_initial fun _ => rfl
  have sequential := checked.forall_calls run initial (by
    intro transition call absent
    simp [Undisturbed, State.holdsIn, absent])
  refine ⟨trace, last, run, retried, requeued, created,
    latest_execution_last run initial ?_ sequential apart .twoOrgs⟩
  intro id row found
  cases found

/-- Two attempts fail, and the job is dead-lettered, retried by hand and
executed once more: that execution is numbered 1, and `GET /jobs/7` sends the
second one. -/
theorem latest_execution_stale :
    ∃ trace last,
      Run (step .sample)
        (World.twoAttempts ⟨[(7, .sample .queued)], by simp⟩).idle
        trace last ∧
      Initial (World.twoAttempts ⟨[(7, .sample .queued)], by simp⟩).idle ∧
      Sequential trace ∧ createdOf 7 trace = [0, 1, 2] ∧
      ¬ShowsLatestFirst 7 (createdOf 7 trace)
        (last.world.database .twoOrgs) := by
  obtain ⟨trace, last, run, created, checked, found, shown⟩ :=
    exists_run_of_check (step .sample)
      (World.twoAttempts ⟨[(7, .sample .queued)], by simp⟩).idle
      (claimActions 1 1 [7] ++ executeActions 1 2 0 ++
        ([.exec 2 (.failed "timeout" .zero), .exec 2 .ok, .exec 2 .ok,
          .advance 1000] : List Action) ++
        claimActions 3 1 [7] ++ executeActions 3 4 1 ++
        ([.exec 4 (.failed "timeout" .zero), .exec 4 .ok, .exec 4 .ok] :
          List Action) ++
        retryActions 5 7 ++ claimActions 6 1 [7] ++ executeActions 6 7 2)
      (fun trace last =>
        createdOf 7 trace = [0, 1, 2] ∧ ChecksCalls 8 QueuesUnheld trace ∧
        ((last.world.database .twoOrgs).findJob 7).any (fun found =>
          (last.world.database .twoOrgs).isMember 1 found.orgId) = true ∧
        ((last.world.database .twoOrgs).latestExecution 7
          ⟨[], [1, 0, 2], [], fun execution => [execution]⟩).map
            (Option.map ExecutionRow.id) = some (some 1))
      (by decide)
  have initial : Initial
      (World.twoAttempts ⟨[(7, .sample .queued)], by simp⟩).idle :=
    World.idle_initial fun _ => rfl
  have sequential := checked.forall_calls run initial (by
    intro transition call absent
    simp [Undisturbed, State.holdsIn, absent])
  refine ⟨trace, last, run, initial, sequential, created, ?_⟩
  intro shows
  obtain ⟨job, isFound, isMember⟩ := (Option.any_eq_true _ _).mp found
  obtain ⟨latest, answered, isSecond⟩ := Option.map_eq_some_iff.mp shown
  obtain ⟨detail, answers, rfl⟩ :=
    Database.answers_of_latestExecution ⟨fun _ => true⟩ isFound isMember
      answered
  have isLast := (shows.latest answers).1
  rw [isSecond, created] at isLast
  exact absurd isLast (by decide)

end Runs

end Chronos
