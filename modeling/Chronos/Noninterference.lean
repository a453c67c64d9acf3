import Chronos.DirectoryIsolation
import Chronos.LogOrder
import Chronos.TenantWrites

/-!
# Nobody interferes

A user's reads give the same answers as before after any run in which nobody
takes a step for that user: registrations and requests of other users, the
clock, and what the workers do for the jobs of other users leave every row
alone that the user may see.  Rows of workers, which show up in the reads of
every tenant, are supposed to stay the same.
-/

namespace Chronos

/-! ## Databases that differ elsewhere -/

/-- Where the databases hold different rows, the user sees neither. -/
structure Elsewhere (user : UserId) (left right : Database) : Prop where
  memberships : ∀ org,
    left.memberships.get? (org, user) = right.memberships.get? (org, user)
  projects : ∀ id, left.projects.get? id ≠ right.projects.get? id →
    left.sees user (left.orgOfProject id) = false ∧
      right.sees user (right.orgOfProject id) = false
  retryPolicies : left.retryPolicies = right.retryPolicies
  queues : ∀ id, left.queues.get? id ≠ right.queues.get? id →
    left.sees user (left.orgOfQueue id) = false ∧
      right.sees user (right.orgOfQueue id) = false
  jobs : ∀ id, left.jobs.get? id ≠ right.jobs.get? id →
    left.sees user (left.orgOfJob id) = false ∧
      right.sees user (right.orgOfJob id) = false
  executions : ∀ id, left.executions.get? id ≠ right.executions.get? id →
    left.sees user (left.orgOfExecution id) = false ∧
      right.sees user (right.orgOfExecution id) = false
  logs : ∀ id, left.logs.get? id ≠ right.logs.get? id →
    (left.logs.get? id).any (left.ownLog user id) = false ∧
      (right.logs.get? id).any (right.ownLog user id) = false
  deadLetters : ∀ job, left.deadLetters.get? job ≠ right.deadLetters.get? job →
    left.sees user (left.orgOfJob job) = false ∧
      right.sees user (right.orgOfJob job) = false
  workers : ∀ worker, left.workers.get? worker = right.workers.get? worker

private theorem sameWhere_of_unseen {κ ρ : Type} [DecidableEq κ]
    {left right : Table κ ρ} {leftCondition rightCondition : κ → ρ → Bool}
    (alike : ∀ key row, leftCondition key row = rightCondition key row)
    (unseen : ∀ key, left.get? key ≠ right.get? key →
      (left.get? key).any (leftCondition key) = false ∧
        (right.get? key).any (rightCondition key) = false) :
    left.SameWhere right leftCondition rightCondition := by
  apply Table.SameWhere.of_keys
  intro key
  by_cases same : left.get? key = right.get? key
  · exact .inl ⟨same, fun row _ => alike key row⟩
  · obtain ⟨outside, outside'⟩ := unseen key same
    refine .inr ⟨?_, ?_⟩
    · intro row found
      simpa [found] using outside
    · intro row found
      simpa [found] using outside'

theorem Elsewhere.agree {user : UserId} {left right : Database}
    (elsewhere : Elsewhere user left right) : Agree user left right := by
  have member : ∀ org, left.isMember user org = right.isMember user org := by
    intro org
    rw [Database.isMember, Database.isMember, elsewhere.memberships]
  apply Agree.of_rows elsewhere.memberships
  · refine sameWhere_of_unseen (fun _ row => member row.orgId) ?_
    intro id differs
    rw [← Database.sees_orgOfProject, ← Database.sees_orgOfProject]
    exact elsewhere.projects id differs
  · intro seesProject
    refine sameWhere_of_unseen (fun _ row => seesProject row.projectId) ?_
    intro id differs
    rw [elsewhere.retryPolicies] at differs
    exact absurd rfl differs
  · intro seesProject
    refine sameWhere_of_unseen (fun _ row => seesProject row.projectId) ?_
    intro id differs
    rw [← Database.sees_orgOfQueue, ← Database.sees_orgOfQueue]
    exact elsewhere.queues id differs
  · intro seesQueue
    refine sameWhere_of_unseen (fun _ row => seesQueue row.queueId) ?_
    intro id differs
    rw [← Database.sees_orgOfJob, ← Database.sees_orgOfJob]
    exact elsewhere.jobs id differs
  · intro seesJob
    refine sameWhere_of_unseen (fun _ row => seesJob row.jobId) ?_
    intro id differs
    rw [← Database.sees_orgOfExecution, ← Database.sees_orgOfExecution]
    exact elsewhere.executions id differs
  · intro seesExecution
    exact sameWhere_of_unseen (fun _ log => seesExecution log.executionId)
      elsewhere.logs
  · intro seesJob
    refine sameWhere_of_unseen (fun job _ => seesJob job) ?_
    intro job differs
    obtain ⟨unseen, unseen'⟩ := elsewhere.deadLetters job differs
    constructor
    · cases left.deadLetters.get? job with
      | none => rfl
      | some row => exact unseen
    · cases right.deadLetters.get? job with
      | none => rfl
      | some row => exact unseen'
  · exact elsewhere.workers

theorem Agree.refl (user : UserId) (db : Database) : Agree user db db :=
  ⟨fun _ => rfl, .refl _ _, .refl _ _, .refl _ _, .refl _ _, .refl _ _,
    .refl _ _, .refl _ _, fun _ => rfl⟩

theorem Agree.trans {user : UserId} {left middle right : Database}
    (first : Agree user left middle) (second : Agree user middle right) :
    Agree user left right where
  memberships org := (first.memberships org).trans (second.memberships org)
  projects := first.projects.trans second.projects
  retryPolicies := first.retryPolicies.trans second.retryPolicies
  queues := first.queues.trans second.queues
  jobs := first.jobs.trans second.jobs
  executions := first.executions.trans second.executions
  logs := first.logs.trans second.logs
  deadLetters := first.deadLetters.trans second.deadLetters
  workers worker := (first.workers worker).trans (second.workers worker)

theorem Agree.sees_queue {user : UserId} {left right : Database}
    (agree : Agree user left right) (queue : QueueId) :
    left.sees user (left.orgOfQueue queue) =
      right.sees user (right.orgOfQueue queue) := by
  rw [Database.sees_orgOfQueue, Database.sees_orgOfQueue]
  exact agree.queues.any_eq queue

theorem Directory.Agree.trans {user : UserId} {left middle right : Directory}
    (first : Directory.Agree user left middle)
    (second : Directory.Agree user middle right) :
    Directory.Agree user left right where
  rows := first.rows.trans second.rows
  projectColumns project seen := by
    rw [first.projectColumns project seen]
    apply second.projectColumns
    rw [← first.seesProject]
    exact seen
  queueColumns queue seen := by
    rw [first.queueColumns queue seen]
    apply second.queueColumns
    rw [← first.rows.sees_queue]
    exact seen

/-! ## What the workers write -/

theorem step_retryPolicies {env : Env} {state next : State} {action : Action}
    (taken : step env state action = some next) :
    next.world.retryPolicies = state.world.retryPolicies := by
  cases step_cases taken with
  | registered success =>
      obtain ⟨_, _, rfl⟩ := World.registerWorker_eq_some success
      rfl
  | poll _ case => rw [case.frame]
  | exec _ case => rw [case.frame]
  | reap _ case => rw [case.frame]
  | tick _ case => rw [case.frame]
  | api _ case => rw [case.frame]
  | _ => rfl

/-- The step writes the rows of this job. -/
inductive Touches (state : State) : Action → JobId → Prop where
  | claim {call : CallId} {poll : PollCall} {queue : QueueRef}
      {rest : List QueueRef} {txNow : Time} {ids : List JobId}
      {input : PollInput} {job : JobId} :
      state.calls call = some (.poll poll) →
      poll.phase = .claiming queue rest (.commit txNow ids) →
      job ∈ ids →
      Touches state (.poll call input) job
  | execute {call : CallId} {exec : ExecCall} {input : ExecInput} :
      state.calls call = some (.exec exec) →
      Touches state (.exec call input) exec.jobId
  | requeue {call : CallId} {owner worker : WorkerId}
      {workers : List WorkerId} {job : JobId} {jobIds : List JobId}
      {input : ReapInput} :
      state.calls call =
        some (.reap ⟨owner, .requeue worker workers job jobIds⟩) →
      Touches state (.reap call input) job
  | close {call : CallId} {owner worker : WorkerId}
      {workers : List WorkerId} {job : JobId} {jobIds : List JobId}
      {queueId : QueueId} {input : ReapInput} :
      state.calls call = some (.reap
        ⟨owner, .closeExecutions worker workers job jobIds queueId⟩) →
      Touches state (.reap call input) job
  | materialize {call : CallId} {job : JobId} :
      Touches state (.tick call (.created job)) job

namespace Touches

variable {env : Env} {state next : State} {action : Action}

theorem job (taken : step env state action = some next)
    (internal : ∀ call input, action ≠ .api call input) {id : JobId}
    (differs : state.world.jobs.get? id ≠ next.world.jobs.get? id) :
    Touches state action id := by
  cases found : state.world.jobs.get? id with
  | none =>
      cases found' : next.world.jobs.get? id with
      | none =>
          rw [found, found'] at differs
          exact absurd rfl differs
      | some row =>
          cases step_created taken found found' with
          | submitted => exact absurd rfl (internal _ _)
          | batch => exact absurd rfl (internal _ _)
          | materialized => exact .materialize
  | some row =>
      obtain ⟨row', found', same | write⟩ := step_job taken found
      · rw [found, found', same] at differs
        exact absurd rfl differs
      · cases write with
        | claim called phase member => exact .claim called phase member
        | markRunning called of => exact of ▸ .execute called
        | complete called of => exact of ▸ .execute called
        | retry called of => exact of ▸ .execute called
        | deadLetter called of => exact of ▸ .execute called
        | requeueOrphan called => exact .requeue called
        | resetForRetry => exact absurd rfl (internal _ _)
        | cancel => exact absurd rfl (internal _ _)

theorem execution (rows : AttemptRows state)
    (taken : step env state action = some next) {id : ExecutionId}
    (differs : state.world.executions.get? id ≠
      next.world.executions.get? id) :
    ∃ row, next.world.executions.get? id = some row ∧
      Touches state action row.jobId := by
  have kept : ∀ row, state.world.executions.get? id = some row →
      ∃ row', next.world.executions.get? id = some row' ∧
        row'.jobId = row.jobId := by
    intro row found
    obtain ⟨row', found', sameJob, _⟩ := step_execution taken found
    exact ⟨row', found', sameJob⟩
  rcases step_executions taken with same | write
  · rw [same] at differs
    exact absurd rfl differs
  · generalize next.world.executions = executions at *
    cases write with
    | created called phase inserted =>
        rw [Table.get?_insert? inserted] at differs ⊢
        split at differs
        · exact ⟨_, if_pos ‹_›, .execute called⟩
        · exact absurd rfl differs
    | @closed call exec attempt _ _ _ called closes =>
        obtain ⟨current, _⟩ := ExecPhase.attempt?_of_closes closes
        obtain ⟨row, found, ofJob⟩ := rows called current
        rw [Table.get?_modify] at differs
        by_cases same : id = attempt.execution
        · subst same
          obtain ⟨row', found', sameJob⟩ := kept row found
          refine ⟨row', found', ?_⟩
          rw [sameJob, ofJob]
          exact .execute called
        · simp only [if_neg same] at differs
          exact absurd Option.map_id'.symm differs
    | @orphansClosed call owner worker workers job jobIds queueId called =>
        cases found : state.world.executions.get? id with
        | none =>
            rw [World.closeExecutions, Table.get?_mapRows, found] at differs
            exact absurd rfl differs
        | some row =>
            obtain ⟨row', found', sameJob⟩ := kept row found
            refine ⟨row', found', ?_⟩
            rw [World.closeExecutions, Table.get?_mapRows, found] at differs
            rw [sameJob]
            by_cases ofJob : row.jobId = job
            · rw [ofJob]
              exact .close called
            · simp [JobExecution.closeOrphan, ofJob] at differs

end Touches

/-! ## Steps apart from the user -/

namespace Platform

variable {env : Env} {platform before after : Platform} {user other : UserId}

theorem Sound.sees_iff (sound : platform.Sound) {kind : ResourceKind}
    {id : Nat} :
    platform.database.sees user (platform.database.ownerOf kind id) = true ↔
      platform.Holds user kind id := by
  have member : ∀ org, platform.database.isMember user org = true ↔
      platform.auth.Owns user org := by
    intro org
    rw [Database.isMember, Option.isSome_iff_exists]
    constructor
    · intro found
      obtain ⟨role, found⟩ := found
      exact ((sound.accounts.members org user role).mp found).2
    · intro owns
      exact ⟨.owner, (sound.accounts.members org user .owner).mpr ⟨rfl, owns⟩⟩
  unfold Database.sees Holds
  rw [Option.any_eq_true]
  exact exists_congr fun org => and_congr_right fun _ => member org

theorem Sound.unseen (sound : platform.Sound) {kind : ResourceKind} {id : Nat}
    (apart : ¬platform.Holds user kind id) :
    platform.database.sees user (platform.database.ownerOf kind id) =
      false := by
  rw [Bool.eq_false_iff]
  exact fun seen => apart (sound.sees_iff.mp seen)

/-- What differs belongs to others, and the rows that refer to nobody's
resource are the same. -/
structure Apart (user : UserId) (before after : Platform) : Prop where
  memberships : ∀ org, before.auth.memberships.get? (org, user) =
    after.auth.memberships.get? (org, user)
  projects : ∀ id, after.projects.get? id ≠ before.projects.get? id ∨
      after.projectColumns id ≠ before.projectColumns id →
    ¬after.Holds user .project id
  queues : ∀ id,
    after.system.world.queues.get? id ≠ before.system.world.queues.get? id ∨
      after.queueName id ≠ before.queueName id ∨
      after.queueColumns id ≠ before.queueColumns id →
    ¬after.Holds user .queue id
  jobs : ∀ id,
    after.system.world.jobs.get? id ≠ before.system.world.jobs.get? id →
    ¬after.Holds user .job id
  executions : ∀ id, after.system.world.executions.get? id ≠
      before.system.world.executions.get? id →
    ∃ row, after.system.world.executions.get? id = some row ∧
      ¬after.Holds user .job row.jobId ∧
      ∀ row', before.system.world.executions.get? id = some row' →
        row'.jobId = row.jobId
  logs : ∃ added, after.system.world.logs = before.system.world.logs ++ added ∧
    ∀ log ∈ added, ∃ row,
      after.system.world.executions.get? log.executionId = some row ∧
      ¬after.Holds user .job row.jobId
  deadLetters : ∀ id, after.system.world.deadLetters.get? id ≠
      before.system.world.deadLetters.get? id →
    ¬after.Holds user .job id
  retryPolicies :
    after.system.world.retryPolicies = before.system.world.retryPolicies
  workers : ∀ worker, after.system.world.workers.get? worker =
    before.system.world.workers.get? worker
  fixed : after.fixed = before.fixed

namespace Apart

private theorem ownLog (sound' : after.Sound) (id : LogId) {log : JobLog}
    {row : JobExecution}
    (found : after.system.world.executions.get? log.executionId = some row)
    (foreign : ¬after.Holds user .job row.jobId) :
    after.database.ownLog user id log = false := by
  have isRow : after.database.executions.get? log.executionId = some row :=
    found
  rw [Database.ownLog, Database.orgOfExecution, isRow]
  exact sound'.unseen foreign

private theorem unseen (sound : before.Sound) (sound' : after.Sound)
    (grows : Grows before after) {kind : ResourceKind} {id : Nat}
    (foreign : ¬after.Holds user kind id) :
    before.database.sees user (before.database.ownerOf kind id) = false ∧
      after.database.sees user (after.database.ownerOf kind id) = false :=
  ⟨sound.unseen fun holds => foreign (grows.holds holds),
    sound'.unseen foreign⟩

theorem elsewhere (apart : Apart user before after) (sound : before.Sound)
    (sound' : after.Sound) (grows : Grows before after) :
    Elsewhere user before.database after.database where
  memberships := apart.memberships
  projects id differs :=
    unseen sound sound' grows
      (apart.projects id (.inl differs.symm))
  retryPolicies := by
    simp only [database, World.database, columns, apart.retryPolicies,
      apart.fixed]
  queues id differs := by
    refine unseen sound sound' grows (?_ : ¬after.Holds user .queue id)
    apply apart.queues id
    by_contra same
    simp only [not_or, not_not] at same
    apply differs
    simp only [database, World.database, columns, Table.get?_mapValues,
      same.1, same.2.1]
  jobs id differs := by
    refine unseen sound sound' grows (?_ : ¬after.Holds user .job id)
    apply apart.jobs id
    intro same
    apply differs
    simp only [database, World.database, Table.get?_mapValues, same]
  executions id differs := by
    obtain ⟨row, found, foreign, sameJob⟩ :=
      apart.executions id fun same => differs same.symm
    obtain ⟨unseen, unseen'⟩ := unseen sound sound' grows foreign
    constructor
    · rw [Database.orgOfExecution]
      cases found' : before.database.executions.get? id with
      | none => rfl
      | some row' =>
          rw [Option.bind_some, sameJob row' found']
          exact unseen
    · have isRow : after.database.executions.get? id = some row := found
      rw [Database.orgOfExecution, isRow]
      exact unseen'
  logs id differs := by
    obtain ⟨added, extended, foreign⟩ := apart.logs
    simp only [database, World.database, columns, extended, apart.fixed]
      at differs ⊢
    obtain same | ⟨absent, log, member, found⟩ :=
      Table.get?_ofList_append before.fixed.logId before.system.world.logs
        added id
    · exact absurd same.symm differs
    · obtain ⟨row, isRow, apartRow⟩ := foreign log member
      rw [absent, found]
      exact ⟨rfl, ownLog sound' id isRow apartRow⟩
  deadLetters job differs := by
    refine unseen sound sound' grows (?_ : ¬after.Holds user .job job)
    apply apart.deadLetters job
    intro same
    apply differs
    simp only [database, World.database, columns, Table.get?_mapValues, same,
      apart.fixed]
  workers worker := by
    simp only [database, World.database, columns, Table.get?_mapValues,
      apart.workers, apart.fixed]

theorem agree (apart : Apart user before after) (sound : before.Sound)
    (sound' : after.Sound) (grows : Grows before after) :
    Directory.Agree user before.directory after.directory where
  rows := (apart.elsewhere sound sound' grows).agree
  projectColumns project seen := by
    by_contra differs
    have holds : before.Holds user .project project := sound.sees_iff.mp seen
    exact apart.projects project (.inr fun same => differs same.symm)
      (grows.holds holds)
  queueColumns queue seen := by
    by_contra differs
    have holds : before.Holds user .queue queue := sound.sees_iff.mp seen
    exact apart.queues queue (.inr (.inr fun same => differs same.symm))
      (grows.holds holds)

theorem of_writesOwn (different : other ≠ user)
    (writes : WritesOwn other before after) : Apart user before after := by
  have foreign : ∀ kind id, after.Holds other kind id →
      ¬after.Holds user kind id := by
    intro kind id holds holds'
    exact different (holds.unique holds')
  constructor
  · intro org
    rw [writes.rest]
  · intro id differs
    exact foreign .project id (writes.projects id differs)
  · intro id differs
    exact foreign .queue id (writes.queues id differs)
  · intro id differs
    exact foreign .job id (writes.jobs id differs)
  · intro id differs
    rw [writes.rest] at differs
    exact absurd rfl differs
  · refine ⟨[], ?_, fun _ member => absurd member List.not_mem_nil⟩
    rw [writes.rest, List.append_nil]
  · intro id differs
    exact foreign .job id (writes.deadLetters id differs)
  · rw [writes.rest]
  · intro worker
    rw [writes.rest]
  · rw [writes.rest]

theorem of_auth {action : Auth.Action} {auth : Auth.State}
    (registered : (before.auth.users.get? user).isSome = true)
    (taken : Auth.step before.auth action = some auth) :
    Apart user before { before with auth := auth } := by
  constructor
  · intro org
    cases Auth.AccountStep.of_step taken with
    | same _ _ memberships =>
        change _ = auth.memberships.get? (org, user)
        rw [memberships]
    | registered created _ _ memberships =>
        obtain ⟨row, organization, inserted⟩ :=
          Auth.State.createUser_spec created
        change _ = auth.memberships.get? (org, user)
        rw [memberships, inserted.memberships, if_neg]
        intro same
        cases same
        rw [inserted.newUser] at registered
        cases registered
  · intro id differs
    rcases differs with differs | differs <;> exact absurd rfl differs
  · intro id differs
    rcases differs with differs | differs | differs <;>
      exact absurd rfl differs
  · exact fun _ differs => absurd rfl differs
  · exact fun _ differs => absurd rfl differs
  · exact ⟨[], (List.append_nil _).symm,
      fun _ member => absurd member List.not_mem_nil⟩
  · exact fun _ differs => absurd rfl differs
  · rfl
  · exact fun _ => rfl
  · rfl

/-- A step for jobs of others that writes no row of a worker. -/
theorem of_system {action : Action} {system : State}
    (taken : Chronos.step env before.system action = some system)
    (internal : action.internal = true)
    (unasked : ∀ call input, action ≠ .api call input)
    (rows : AttemptRows before.system)
    (workers : ∀ worker, system.world.workers.get? worker =
      before.system.world.workers.get? worker)
    (foreign : ∀ job, Touches before.system action job →
      ¬{ before with system := system }.Holds user .job job) :
    Apart user before { before with system := system } := by
  constructor
  · exact fun _ => rfl
  · intro id differs
    rcases differs with differs | differs <;> exact absurd rfl differs
  · intro id differs
    rw [queues_of_internal taken internal] at differs
    rcases differs with differs | differs | differs <;>
      exact absurd rfl differs
  · intro id differs
    exact foreign id (Touches.job taken unasked fun same => differs same.symm)
  · intro id differs
    obtain ⟨row, found, touches⟩ :=
      Touches.execution rows taken fun same => differs same.symm
    refine ⟨row, found, foreign row.jobId touches, ?_⟩
    intro row' found'
    obtain ⟨row'', found'', sameJob, _⟩ := step_execution taken found'
    cases found.symm.trans found''
    exact sameJob.symm
  · obtain ⟨added, extended, writers⟩ := step_newLogs taken
    refine ⟨added, extended, ?_⟩
    intro log member
    obtain ⟨call, exec, attempt, outcome, rfl, called, closes, same⟩ :=
      writers log member
    obtain ⟨row, found, ofJob⟩ :=
      rows called (ExecPhase.attempt?_of_closes closes).1
    obtain ⟨row', found', sameJob, _⟩ := step_execution taken found
    rw [same] at found'
    refine ⟨row', found', ?_⟩
    rw [sameJob, ofJob]
    exact foreign exec.jobId (.execute called)
  · intro id differs
    rcases step_deadLetter taken id with same | write
    · exact absurd same differs
    · generalize system.world.deadLetters.get? id = row at write
      cases write with
      | inserted called of => exact foreign id (of ▸ .execute called)
      | erased => exact absurd rfl (unasked _ _)
  · exact step_retryPolicies taken
  · exact workers
  · rfl

end Apart

/-- The step is not taken for the user: no request of the user takes it, it
writes no row of a job of the user, and no row of a worker. -/
structure Foreign (user : UserId)
    (transition : Transition Platform PlatformAction) : Prop where
  author : transition.before.author transition.action ≠ some user
  jobs : ∀ action job, transition.action = .system action →
    Touches transition.before.system action job →
    ¬transition.after.Holds user .job job
  workers : ∀ worker,
    transition.after.system.world.workers.get? worker =
      transition.before.system.world.workers.get? worker

theorem foreign_of_author (sound : before.Sound) {action : PlatformAction}
    (taken : before.step env action = some after)
    (author : before.author action = some other) (different : other ≠ user) :
    Foreign user ⟨before, action, after⟩ where
  author same := different (Option.some.inj (author.symm.trans same))
  jobs systemAction job isSystem touches := by
    have isSystem : action = .system systemAction := isSystem
    subst isSystem
    cases touches <;> cases author
  workers worker := by
    change after.system.world.workers.get? worker = _
    rw [(sound.writesOwn taken author).rest]

theorem apart_of_foreign (sound : before.Sound)
    (rows : AttemptRows before.system)
    (registered : (before.auth.users.get? user).isSome = true)
    {action : PlatformAction} (foreign : Foreign user ⟨before, action, after⟩)
    (taken : before.step env action = some after) :
    Apart user before after := by
  cases author : before.author action with
  | some other =>
      refine .of_writesOwn ?_ (sound.writesOwn taken author)
      rintro rfl
      exact foreign.author author
  | none =>
      cases step_cases taken with
      | auth success => exact .of_auth registered success
      | began => cases author
      | moved called => simp [Platform.author, called] at author
      | forwarded called => simp [Platform.author, called] at author
      | projectCreated called => simp [Platform.author, called] at author
      | queueCreated called => simp [Platform.author, called] at author
      | queueUpdated called => simp [Platform.author, called] at author
      | system internal _ success _ =>
          refine .of_system success internal ?_ rows foreign.workers
            fun job touches => foreign.jobs _ job rfl touches
          rintro call input rfl
          cases Chronos.step_cases success with
          | started starts => cases starts
          | api present case _ =>
              obtain ⟨other, request, forwarded, _⟩ :=
                sound.serves call _ present case.requests.1
              simp [Platform.author, forwarded] at author

theorem step_attemptRows {action : PlatformAction}
    (rows : AttemptRows before.system)
    (taken : before.step env action = some after) :
    AttemptRows after.system := by
  cases step_cases taken with
  | auth => exact rows
  | began => exact rows
  | moved => exact rows
  | @forwarded call value request _ _ _ absent =>
      apply AttemptRows.step rows
      change Chronos.step env before.system (.request call request) = _
      simp only [Chronos.step, State.start, absent, Option.isNone_none,
        if_true]
      rfl
  | projectCreated _ _ _ created =>
      obtain ⟨_, _, _, _, rfl⟩ := createProject_spec created
      exact rows
  | queueCreated _ _ _ created =>
      obtain ⟨_, _, _, _, rfl⟩ := createQueue_spec created
      exact rows
  | queueUpdated => exact rows
  | system _ _ success _ => exact AttemptRows.step rows success

theorem step_registered {action : PlatformAction}
    (registered : (before.auth.users.get? user).isSome = true)
    (taken : before.step env action = some after) :
    (after.auth.users.get? user).isSome = true := by
  cases step_cases taken with
  | auth success =>
      cases Auth.AccountStep.of_step success with
      | same users _ _ =>
          rw [users]
          exact registered
      | registered created users _ _ =>
          obtain ⟨_, _, inserted⟩ := Auth.State.createUser_spec created
          rw [users, inserted.users]
          split
          · rfl
          · exact registered
  | began => exact registered
  | moved => exact registered
  | forwarded => exact registered
  | projectCreated _ _ _ created =>
      obtain ⟨_, _, _, _, rfl⟩ := createProject_spec created
      exact registered
  | queueCreated _ _ _ created =>
      obtain ⟨_, _, _, _, rfl⟩ := createQueue_spec created
      exact registered
  | queueUpdated => exact registered
  | system => exact registered

section Runs

variable {first start last : Platform}
  {past trace : List (Transition Platform PlatformAction)}

theorem attemptRows_of_run (rows : AttemptRows start.system)
    (run : Run (Platform.step env) start trace last) :
    AttemptRows last.system := by
  induction run with
  | nil => exact rows
  | snoc _ taken induction => exact step_attemptRows induction taken

theorem registered_of_run
    (registered : (start.auth.users.get? user).isSome = true)
    (run : Run (Platform.step env) start trace last) :
    (last.auth.users.get? user).isSome = true := by
  induction run with
  | nil => exact registered
  | snoc _ taken induction => exact step_registered induction taken

theorem Fresh.attemptRows (fresh : first.Fresh) :
    AttemptRows first.system := by
  intro call exec attempt called
  rw [fresh.system] at called
  cases called

/-- What the user may see is what it was, and so are all retry policies. -/
theorem agree_of_foreign (sound : start.Sound)
    (rows : AttemptRows start.system)
    (registered : (start.auth.users.get? user).isSome = true)
    (run : Run (Platform.step env) start trace last)
    (foreign : ∀ transition ∈ trace, Foreign user transition) :
    Directory.Agree user start.directory last.directory ∧
      start.database.retryPolicies = last.database.retryPolicies := by
  induction run with
  | nil =>
      exact ⟨⟨.refl user _, fun _ _ => rfl, fun _ _ => rfl⟩, rfl⟩
  | @snoc trace middle last action run taken induction =>
      obtain ⟨foreign, step⟩ := List.forall_mem_append.mp foreign
      have step := List.forall_mem_singleton.mp step
      obtain ⟨agree, policies⟩ := induction foreign
      have middleSound := sound.run run
      have apart := apart_of_foreign middleSound
        (attemptRows_of_run rows run) (registered_of_run registered run) step
        taken
      have lastSound := middleSound.step taken
      have grows := step_grows taken
      have elsewhere := apart.elsewhere middleSound lastSound grows
      exact ⟨agree.trans (apart.agree middleSound lastSound grows),
        policies.trans elsewhere.retryPolicies⟩

/-- Whatever others do, and whatever the workers do for them, every read of
the user has the answers it had before, unless it asks for a resource that
has been created since. -/
theorem nobody_interferes (fresh : first.Fresh)
    (before : Run (Platform.step env) first past start)
    (registered : (start.auth.users.get? user).isSome = true)
    (run : Run (Platform.step env) start trace last)
    (foreign : ∀ transition ∈ trace, Foreign user transition)
    (prisma : Prisma) :
    SameReplies prisma user start.database last.database ∧
    ∀ clock request,
      ((last.directory.guarded request).isSome →
        (start.directory.guarded request).isSome) →
      ∀ reply, start.directory.Answers prisma user clock request reply ↔
        last.directory.Answers prisma user clock request reply := by
  have sound := fresh.sound.run before
  obtain ⟨agree, policies⟩ := agree_of_foreign sound
    (attemptRows_of_run fresh.attemptRows before) registered run foreign
  constructor
  · apply (sameReplies_iff prisma agree.rows).mpr
    rintro ⟨_, _, policy, _, _, _, _, differs⟩
    exact differs (congrArg (Table.get? · policy) policies)
  · intro clock request named reply
    apply exists_congr
    intro orders
    have grows := run_grows run
    have kept : (start.directory.guarded request).isSome →
        (last.directory.guarded request).isSome := by
      intro found
      obtain ⟨org, found⟩ := Option.isSome_iff_exists.mp found
      apply Option.isSome_iff_exists.mpr
      cases request with
      | queues projectId page limit => exact ⟨org, grows.orgOfProject found⟩
      | stats id => exact ⟨org, grows.orgOfJob found⟩
      | _ => cases found
    rw [agree.read_eq sound.distinct (sound.run run).distinct prisma clock
      (Bool.eq_iff_iff.mpr ⟨kept, named⟩) orders]

/-- A user asks the API to store a job. -/
private def submitActions (call : CallId) (user queue job : Nat) :
    List PlatformAction :=
  forwardActions call user
      (.submit queue ⟨"echo", [], none, none, none, none, none⟩) ++
    [.system (.api call .ok), .system (.api call (.created [job]))]

set_option maxRecDepth 8000 in
/-- User 3, who has job 10 in a queue of its own, reads as before after user 1
has submitted job 7. -/
theorem nobody_interferes_submission :
    ∃ past start trace last,
      Run (Platform.step .sample) deployed past start ∧
      Run (Platform.step .sample) start trace last ∧
      start.database.sees 3 (start.database.orgOfJob 10) = true ∧
      start.system.world.jobs.get? 7 = none ∧
      (last.system.world.jobs.get? 7).isSome = true ∧
      SameReplies ⟨fun _ => true⟩ 3 start.database last.database := by
  obtain ⟨trace, last, run, later,
      ⟨transition, isFirst, known, own, absent⟩, present⟩ :=
    exists_run_of_check (Platform.step .sample) deployed
      (twoTeamActions ++ createProjectActions 5 3 4 8 ++
        createQueueActions 6 3 8 9 ++ submitActions 7 3 9 10 ++
        submitActions 8 1 6 7)
      (fun trace last =>
        (∀ transition ∈ trace.drop 32,
          transition.before.author transition.action = some 1) ∧
        (∃ transition ∈ (trace.drop 32).head?,
          (transition.before.auth.users.get? 3).isSome = true ∧
          transition.before.database.sees 3
            (transition.before.database.orgOfJob 10) = true ∧
          transition.before.system.world.jobs.get? 7 = none) ∧
        (last.system.world.jobs.get? 7).isSome = true)
      (by decide)
  have around := List.eq_take_append_cons isFirst
  have whole := run
  rw [around] at whole
  obtain ⟨past, taken, rest⟩ := whole.around
  refine ⟨_, _, _, last, past, .cons taken rest, own, absent, present, ?_⟩
  refine (nobody_interferes deployed_fresh past known (.cons taken rest) ?_
    ⟨fun _ => true⟩).1
  intro other member
  have isLater : other ∈ trace.drop 32 := by
    rw [List.eq_cons_of_mem_head? isFirst, List.tail_drop]
    exact member
  obtain ⟨sound, step⟩ := deployed_fresh.sound.run_before run
    (List.mem_of_mem_drop isLater)
  exact foreign_of_author sound step (later other isLater) (by decide)

end Runs

end Platform

end Chronos
