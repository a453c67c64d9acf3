import Chronos.Platform
import Chronos.Submission

/-!
# Who passes the guard

In every run of the platform each organization has one member, its owner.
What the guard establishes for a request stays true while the request is in
progress, since rows never move from one organization to another; and since
the guard of the endpoint that changes a queue looks for a job, no queue
changes at all.
-/

namespace Chronos

/-! ## Rows stay where they are -/

namespace Platform

/-- Memberships and the places of projects, queues and jobs are kept. -/
structure Grows (before after : Platform) : Prop where
  memberships : ∀ key role, before.auth.memberships.get? key = some role →
    after.auth.memberships.get? key = some role
  organizations : ∀ org row, before.auth.organizations.get? org = some row →
    after.auth.organizations.get? org = some row
  projects : ∀ id row, before.projects.get? id = some row →
    after.projects.get? id = some row
  queues : ∀ id row, before.system.world.queues.get? id = some row →
    ∃ row', after.system.world.queues.get? id = some row' ∧
      row'.projectId = row.projectId
  jobs : ∀ id row, before.system.world.jobs.get? id = some row →
    ∃ row', after.system.world.jobs.get? id = some row' ∧
      row'.queueId = row.queueId

theorem orgOfProject_eq (platform : Platform) (id : ProjectId) :
    platform.database.orgOfProject id =
      (platform.projects.get? id).map (·.orgId) := rfl

theorem orgOfQueue_eq (platform : Platform) (id : QueueId) :
    platform.database.orgOfQueue id =
      (platform.system.world.queues.get? id).bind fun row =>
        platform.database.orgOfProject row.projectId := by
  simp only [Database.orgOfQueue, database, World.database,
    Table.get?_mapValues, Option.bind_map]
  rfl

theorem orgOfJob_eq (platform : Platform) (id : JobId) :
    platform.database.orgOfJob id =
      (platform.system.world.jobs.get? id).bind fun row =>
        platform.database.orgOfQueue row.queueId := by
  simp only [Database.orgOfJob, database, World.database,
    Table.get?_mapValues, Option.bind_map]
  rfl

namespace Grows

variable {before middle after : Platform}

theorem refl (platform : Platform) : Grows platform platform where
  memberships _ _ found := found
  organizations _ _ found := found
  projects _ _ found := found
  queues _ row found := ⟨row, found, rfl⟩
  jobs _ row found := ⟨row, found, rfl⟩

theorem trans (first : Grows before middle) (second : Grows middle after) :
    Grows before after where
  memberships key role found :=
    second.memberships key role (first.memberships key role found)
  organizations org row found :=
    second.organizations org row (first.organizations org row found)
  projects id row found := second.projects id row (first.projects id row found)
  queues id row found := by
    obtain ⟨row', found', same⟩ := first.queues id row found
    obtain ⟨row'', found'', same'⟩ := second.queues id row' found'
    exact ⟨row'', found'', same'.trans same⟩
  jobs id row found := by
    obtain ⟨row', found', same⟩ := first.jobs id row found
    obtain ⟨row'', found'', same'⟩ := second.jobs id row' found'
    exact ⟨row'', found'', same'.trans same⟩

theorem orgOfProject (grows : Grows before after) {id : ProjectId}
    {org : OrgId} (owned : before.database.orgOfProject id = some org) :
    after.database.orgOfProject id = some org := by
  rw [orgOfProject_eq] at owned ⊢
  obtain ⟨row, found, rfl⟩ := Option.map_eq_some_iff.mp owned
  rw [grows.projects id row found]
  rfl

theorem orgOfQueue (grows : Grows before after) {id : QueueId} {org : OrgId}
    (owned : before.database.orgOfQueue id = some org) :
    after.database.orgOfQueue id = some org := by
  rw [orgOfQueue_eq] at owned ⊢
  obtain ⟨row, found, owned⟩ := Option.bind_eq_some_iff.mp owned
  obtain ⟨row', found', same⟩ := grows.queues id row found
  rw [found', Option.bind_some, same]
  exact grows.orgOfProject owned

theorem orgOfJob (grows : Grows before after) {id : JobId} {org : OrgId}
    (owned : before.database.orgOfJob id = some org) :
    after.database.orgOfJob id = some org := by
  rw [orgOfJob_eq] at owned ⊢
  obtain ⟨row, found, owned⟩ := Option.bind_eq_some_iff.mp owned
  obtain ⟨row', found', same⟩ := grows.jobs id row found
  rw [found', Option.bind_some, same]
  exact grows.orgOfQueue owned

theorem ownerOf (grows : Grows before after) {kind : ResourceKind} {id : Nat}
    {org : OrgId} (owned : before.database.ownerOf kind id = some org) :
    after.database.ownerOf kind id = some org := by
  cases kind with
  | project => exact grows.orgOfProject owned
  | queue => exact grows.orgOfQueue owned
  | job => exact grows.orgOfJob owned

theorem resolveOrgId (grows : Grows before after) {route : Route}
    {resource : Nat} {org : OrgId}
    (resolved : Chronos.resolveOrgId before.database (route.params resource) =
      .ok (some org)) :
    Chronos.resolveOrgId after.database (route.params resource) =
      .ok (some org) := by
  cases route with
  | createQueue | listQueues =>
      simp only [Route.params, Chronos.resolveOrgId] at resolved ⊢
      split at resolved <;> cases resolved
      rw [grows.orgOfProject ‹_›]
  | submitJob | submitBatch =>
      simp only [Route.params, Chronos.resolveOrgId] at resolved ⊢
      split at resolved <;> cases resolved
      rw [grows.orgOfQueue ‹_›]
  | updateQueue | queueStats | retryJob | cancelJob =>
      simp only [Route.params, Chronos.resolveOrgId, Option.bind_some]
        at resolved ⊢
      rw [grows.orgOfJob (Except.ok.inj resolved)]

theorem entitled (grows : Grows before after) {user : UserId}
    {minRole : OrgMemberRole} {org : OrgId}
    (entitled : before.database.Entitled user minRole org) :
    after.database.Entitled user minRole org := by
  obtain ⟨role, found, high⟩ := entitled
  exact ⟨role, grows.memberships _ _ found, high⟩

theorem isMember (grows : Grows before after) {user : UserId} {org : OrgId}
    (member : before.database.isMember user org = true) :
    after.database.isMember user org = true := by
  obtain ⟨role, found⟩ := Option.isSome_iff_exists.mp member
  exact Option.isSome_iff_exists.mpr ⟨role, grows.memberships _ _ found⟩

end Grows

/-! ## Every step keeps the places -/

theorem grows_of_auth {auth : Auth.State} {action : Auth.Action}
    (platform : Platform)
    (taken : Auth.step platform.auth action = some auth) :
    Grows platform { platform with auth := auth } where
  memberships key role found := by
    cases Auth.AccountStep.of_step taken with
    | same _ _ memberships =>
        rw [memberships]
        exact found
    | registered created _ _ memberships =>
        obtain ⟨row, organization, registered⟩ :=
          Auth.State.createUser_spec created
        rw [memberships, registered.memberships, if_neg, found]
        rintro rfl
        rw [registered.newMember] at found
        cases found
  organizations org row found := by
    cases Auth.AccountStep.of_step taken with
    | same _ organizations _ =>
        rw [organizations]
        exact found
    | registered created _ organizations _ =>
        obtain ⟨_, organization, registered⟩ :=
          Auth.State.createUser_spec created
        rw [organizations, registered.organizations, if_neg, found]
        rintro rfl
        rw [registered.newOrg] at found
        cases found
  projects _ _ found := found
  queues _ row found := ⟨row, found, rfl⟩
  jobs _ row found := ⟨row, found, rfl⟩

theorem createProject_spec {platform next : Platform}
    {body : CreateProjectBody} {id : ProjectId} {apiKey : String}
    (created : platform.createProject body id apiKey = some next) :
    platform.unused id = true ∧
      (platform.auth.organizations.get? body.orgId).isSome = true ∧
      ∃ projects, platform.projects.insert? id ⟨body.orgId⟩ = some projects ∧
        next = { platform with
          projects := projects
          projectColumns := Function.update platform.projectColumns id
            ⟨body.name, apiKey, platform.system.world.now⟩ } := by
  unfold createProject at created
  split at created
  · rename_i possible
    obtain ⟨projects, inserted, rfl⟩ := Option.map_eq_some_iff.mp created
    obtain ⟨isUnused, organization⟩ := Bool.and_eq_true_iff.mp possible
    exact ⟨isUnused, organization, projects, inserted, rfl⟩
  · cases created

theorem createQueue_spec {platform next : Platform} {projectId : ProjectId}
    {body : CreateQueueBody} {id : QueueId}
    (created : platform.createQueue projectId body id = some next) :
    platform.unused id = true ∧
      (platform.projects.get? projectId).isSome = true ∧
      ∃ queues, platform.system.world.queues.insert? id
          ⟨projectId, body.limit, false, body.defaultRetryPolicyId⟩ =
          some queues ∧
        next = { platform with
          system := { platform.system with
            world := { platform.system.world with queues := queues } }
          queueName := Function.update platform.queueName id body.name
          queueColumns := Function.update platform.queueColumns id
            ⟨(body.priority.getD 0).num, platform.system.world.now⟩ } := by
  unfold createQueue at created
  split at created
  · rename_i possible
    obtain ⟨queues, inserted, rfl⟩ := Option.map_eq_some_iff.mp created
    simp only [Bool.and_eq_true] at possible
    exact ⟨possible.1.1.1, possible.1.1.2, queues, inserted, rfl⟩
  · cases created

theorem Grows.setCall {before after : Platform} (grows : Grows before after)
    (call : CallId) (value : PlatformCall) :
    Grows before (after.setCall call value) :=
  ⟨grows.memberships, grows.organizations, grows.projects, grows.queues,
    grows.jobs⟩

private theorem grows_of_createProject {platform next : Platform}
    {body : CreateProjectBody} {id : ProjectId} {apiKey : String}
    (created : platform.createProject body id apiKey = some next) :
    Grows platform next := by
  obtain ⟨_, _, projects, inserted, rfl⟩ := createProject_spec created
  refine ⟨fun _ _ found => found, fun _ _ found => found, ?_,
    fun _ row found => ⟨row, found, rfl⟩, fun _ row found => ⟨row, found, rfl⟩⟩
  intro other row found
  change projects.get? other = some row
  rw [Table.get?_insert? inserted, if_neg, found]
  rintro rfl
  rw [(Table.insert?_eq_some_iff.mp inserted).1] at found
  cases found

private theorem grows_of_createQueue {platform next : Platform}
    {projectId : ProjectId} {body : CreateQueueBody} {id : QueueId}
    (created : platform.createQueue projectId body id = some next) :
    Grows platform next := by
  obtain ⟨_, _, queues, inserted, rfl⟩ := createQueue_spec created
  refine ⟨fun _ _ found => found, fun _ _ found => found,
    fun _ _ found => found, ?_, fun _ row found => ⟨row, found, rfl⟩⟩
  intro other row found
  refine ⟨row, ?_, rfl⟩
  change queues.get? other = some row
  rw [Table.get?_insert? inserted, if_neg, found]
  rintro rfl
  rw [(Table.insert?_eq_some_iff.mp inserted).1] at found
  cases found

private theorem grows_of_updateQueue (platform : Platform) (id : QueueId)
    (body : UpdateQueueBody) :
    Grows platform (platform.updateQueue id body) where
  memberships _ _ found := found
  organizations _ _ found := found
  projects _ _ found := found
  queues other row found := by
    refine ⟨if other = id then row.patch body.patch else row, ?_, ?_⟩
    · simp only [updateQueue, World.updateQueue, Table.get?_modify, found,
        Option.map_some]
    · split <;> rfl
  jobs _ row found := ⟨row, found, rfl⟩

/-- The steps that no endpoint stands behind leave the queues alone. -/
theorem queues_of_internal {env : Env} {state next : State} {action : Action}
    (taken : Chronos.step env state action = some next)
    (internal : action.internal = true) :
    next.world.queues = state.world.queues := by
  cases Chronos.step_cases taken with
  | registered success =>
      obtain ⟨_, _, rfl⟩ := World.registerWorker_eq_some success
      rfl
  | queueUpdated => cases internal
  | poll _ case => rw [case.frame]
  | exec _ case => rw [case.frame]
  | reap _ case => rw [case.frame]
  | tick _ case => rw [case.frame]
  | api _ case => rw [case.frame]
  | _ => rfl

private theorem grows_of_system {env : Env} {platform : Platform}
    {action : Action} {system : State}
    (taken : Chronos.step env platform.system action = some system)
    (internal : action.internal = true) :
    Grows platform { platform with system := system } where
  memberships _ _ found := found
  organizations _ _ found := found
  projects _ _ found := found
  queues id row found := by
    refine ⟨row, ?_, rfl⟩
    change system.world.queues.get? id = some row
    rw [queues_of_internal taken internal, found]
  jobs id row found := by
    obtain ⟨row', found', _⟩ := step_job taken found
    exact ⟨row', found', (step_columns taken found found').queueId⟩

theorem step_grows {env : Env} {platform next : Platform}
    {action : PlatformAction}
    (taken : platform.step env action = some next) : Grows platform next := by
  cases step_cases taken with
  | auth success => exact grows_of_auth platform success
  | began => exact (Grows.refl platform).setCall _ _
  | moved => exact (Grows.refl platform).setCall _ _
  | forwarded =>
      exact ⟨fun _ _ found => found, fun _ _ found => found,
        fun _ _ found => found, fun _ row found => ⟨row, found, rfl⟩,
        fun _ row found => ⟨row, found, rfl⟩⟩
  | projectCreated _ _ _ created =>
      exact (grows_of_createProject created).setCall _ _
  | queueCreated _ _ _ created =>
      exact (grows_of_createQueue created).setCall _ _
  | queueUpdated => exact (grows_of_updateQueue platform _ _).setCall _ _
  | system internal _ success _ => exact grows_of_system success internal

theorem run_grows {env : Env} {start last : Platform}
    {trace : List (Transition Platform PlatformAction)}
    (run : Run (Platform.step env) start trace last) : Grows start last := by
  induction run with
  | nil => exact .refl _
  | snoc _ taken induction => exact induction.trans (step_grows taken)

end Platform

/-! ## What a request has passed -/

/-- The handler works on what the request names. -/
def Call.Serves : Request → Call → Prop
  | .submit queueId _, .submit call =>
      call.queueId = queueId ∧
        (∀ queue row, call.phase = .createJob queue row →
          row.queueId = queueId) ∧
        ∀ queue row, call.phase = .createScheduled queue row →
          row.queueId = queueId
  | .batch queueId _, .batch call =>
      call.queueId = queueId ∧ ∀ queue batchId rows,
        call.phase = .createJobs queue batchId rows →
        ∀ row ∈ rows, row.queueId = queueId
  | .retry jobId, .retry call => call.jobId = jobId
  | .cancel jobId, .cancel call => call.jobId = jobId
  | _, _ => False

theorem Request.serves_begin (request : Request) :
    request.begin.Serves request := by
  cases request with
  | submit queueId body =>
      exact ⟨rfl, fun _ _ phase => (by cases phase),
        fun _ _ phase => by cases phase⟩
  | batch queueId jobs => exact ⟨rfl, fun _ _ _ phase => by cases phase⟩
  | retry jobId => rfl
  | cancel jobId => rfl

private theorem submitJob_schedules {world next : World}
    {call call' : SubmitCall} {input : ApiInput} {queue : Queue}
    {row : ScheduledJob}
    (taken : submitJob world call input = some (next, call'))
    (phase : call'.phase = .createScheduled queue row) :
    row.queueId = call.queueId := by
  obtain ⟨queueId, body, before⟩ := call
  obtain ⟨phase', rfl, case⟩ := submitJob_cases taken
  cases phase
  cases case with
  | keyAbsent _ _ checked =>
      cases checked
      rfl
  | keyFree _ checked =>
      cases checked
      rfl

theorem Call.Serves.handle {world next : World} {request : Request}
    {call call' : Call} {input : ApiInput} (serves : call.Serves request)
    (handled : Chronos.handle world call input = some (next, call')) :
    call'.Serves request := by
  cases handle_cases handled with
  | submit taken =>
      cases request with
      | submit queueId body =>
          obtain ⟨same, _⟩ := serves
          obtain ⟨phase', isNext, _⟩ := submitJob_cases taken
          refine ⟨by rw [isNext]; exact same, ?_, ?_⟩
          · intro queue row phase
            obtain ⟨_, _, rfl⟩ := submitJob_computes taken phase
            exact same
          · intro queue row phase
            rw [submitJob_schedules taken phase]
            exact same
      | _ => cases serves
  | batch taken =>
      cases request with
      | batch queueId jobs =>
          obtain ⟨same, _⟩ := serves
          obtain ⟨phase', rfl, _⟩ := submitBatch_cases taken
          refine ⟨same, ?_⟩
          intro queue batchId rows phase row member
          obtain ⟨_, _, reading, rfl, _⟩ := submitBatch_computes taken phase
          obtain ⟨body, _, rfl⟩ := List.mem_map.mp member
          exact same
      | _ => cases serves
  | retry taken =>
      cases request with
      | retry jobId =>
          obtain ⟨phase', rfl, _⟩ := retryJob_cases taken
          exact serves
      | _ => cases serves
  | cancel taken =>
      cases request with
      | cancel jobId =>
          obtain ⟨phase', rfl, _⟩ := cancelJob_cases taken
          exact serves
      | _ => cases serves

/-- The guard has let the request through. -/
def PlatformPhase.admitted : PlatformPhase → Bool
  | .handle => true
  | .write => true
  | .forwarded => true
  | _ => false

/-- What the checks so far have established still holds. -/
structure PlatformCall.Checked (value : PlatformCall) (platform : Platform) :
    Prop where
  found : ∀ org route resource, value.phase = .role org →
    value.request.guard = some (route, resource) →
    resolveOrgId platform.database (route.params resource) = .ok (some org)
  entitled : ∀ route resource, value.phase.admitted = true →
    value.request.guard = some (route, resource) →
    ∃ org, resolveOrgId platform.database (route.params resource) =
        .ok (some org) ∧
      platform.database.Entitled value.user route.minRole org
  project : ∀ body, value.phase = .write →
    value.request = .createProject body →
    platform.database.isMember value.user body.orgId = true
  queue : ∀ projectId body, value.phase = .write →
    value.request = .createQueue projectId body → body.accepted = true
  update : ∀ id body, value.phase = .write →
    value.request ≠ .updateQueue id body

namespace PlatformCall.Checked

variable {platform next : Platform} {value : PlatformCall}

theorem grow (checked : value.Checked platform)
    (grows : Platform.Grows platform next) : value.Checked next where
  found org route resource phase isGuard :=
    grows.resolveOrgId (checked.found org route resource phase isGuard)
  entitled route resource admitted isGuard := by
    obtain ⟨org, resolved, entitled⟩ :=
      checked.entitled route resource admitted isGuard
    exact ⟨org, grows.resolveOrgId resolved, grows.entitled entitled⟩
  project body phase isRequest :=
    grows.isMember (checked.project body phase isRequest)
  queue := checked.queue
  update := checked.update

private theorem of_unchecked {user : UserId} {request : PlatformRequest}
    {phase : PlatformPhase} (noRole : ∀ org, phase ≠ .role org)
    (notAdmitted : phase.admitted = false) :
    Checked ⟨user, request, phase⟩ platform where
  found org _ _ isRole := absurd isRole (noRole org)
  entitled route resource admitted := by
    rw [notAdmitted] at admitted
    cases admitted
  project body writing := by
    have writing : phase = .write := writing
    rw [writing] at notAdmitted
    cases notAdmitted
  queue projectId body writing := by
    have writing : phase = .write := writing
    rw [writing] at notAdmitted
    cases notAdmitted
  update id body writing := by
    have writing : phase = .write := writing
    rw [writing] at notAdmitted
    cases notAdmitted

theorem begin (user : UserId) (request : PlatformRequest) :
    Checked ⟨user, request, request.begin⟩ platform := by
  cases request with
  | createProject body =>
      constructor
      · intro org route resource phase
        cases phase
      · intro route resource _ isGuard
        cases isGuard
      · intro body phase
        cases phase
      · intro projectId body phase
        cases phase
      · intro id body phase
        cases phase
  | _ => exact of_unchecked (fun _ phase => by cases phase) rfl

/-- A check that is passed establishes what it looked for. -/
theorem move (checked : value.Checked platform)
    (distinct : platform.database.DistinctIds) {phase : PlatformPhase}
    (moved : PhaseStep platform value.user value.request value.phase phase) :
    Checked { value with phase := phase } platform := by
  obtain ⟨user, request, before⟩ := value
  cases moved with
  | refused => exact of_unchecked (fun _ phase => by cases phase) rfl
  | resolved isGuard resolved =>
      constructor
      · intro org route resource phase isGuard'
        cases phase
        cases isGuard.symm.trans isGuard'
        exact resolved
      · intro route resource admitted
        cases admitted
      · intro body phase
        cases phase
      · intro projectId body phase
        cases phase
      · intro id body phase
        cases phase
  | admitted isGuard entitled =>
      have resolved := checked.found _ _ _ rfl isGuard
      constructor
      · intro org route resource phase
        cases phase
      · intro route resource _ isGuard'
        cases isGuard.symm.trans isGuard'
        exact ⟨_, resolved, entitled⟩
      · intro body phase
        cases phase
      · intro projectId body phase
        cases phase
      · intro id body phase
        cases phase
  | projectChecked isRequest member =>
      have isRequest : request = _ := isRequest
      subst isRequest
      constructor
      · intro org route resource phase
        cases phase
      · intro route resource _ isGuard
        cases isGuard
      · intro body _ same
        cases same
        exact member
      · intro projectId body _ same
        cases same
      · intro id body _ same
        cases same
  | queueChecked isRequest accepted =>
      have isRequest : request = _ := isRequest
      subst isRequest
      constructor
      · intro org route resource phase
        cases phase
      · intro route resource _ isGuard
        exact checked.entitled route resource rfl isGuard
      · intro body _ same
        cases same
      · intro projectId body _ same
        cases same
        exact accepted
      · intro id body _ same
        cases same
  | updateChecked isRequest found =>
      -- The guard has found a job of this identifier, so no queue has it.
      rename_i id body queue
      have isRequest : request = _ := isRequest
      subst isRequest
      obtain ⟨org, resolved, _⟩ := checked.entitled .updateQueue id rfl rfl
      have owned : platform.database.orgOfJob id = some org :=
        Except.ok.inj resolved
      have isQueue : (platform.database.queues.get? id).isSome = true := by
        simp only [Platform.database, World.database, Table.get?_mapValues,
          found]
        rfl
      rw [Database.orgOfJob, distinct.queueJob isQueue] at owned
      cases owned

end PlatformCall.Checked

/-! ## The invariant of the platform -/

/-- Queues keep the limit and the flag that they are created with. -/
structure Queue.AsCreated (queue : Queue) : Prop where
  unpaused : queue.isPaused = false
  limit_pos : 1 ≤ queue.concurrencyLimit
  limit_le : queue.concurrencyLimit ≤ 1000

theorem CreateQueueBody.limit_bounds {body : CreateQueueBody}
    (valid : body.accepted = true) : 1 ≤ body.limit ∧ body.limit ≤ 1000 := by
  simp only [accepted, Bool.and_eq_true] at valid
  have between := valid.2
  unfold limit
  cases given : body.concurrencyLimit with
  | none => decide
  | some limit =>
      simp only [given, isIntBetween, Option.all_some, Bool.and_eq_true,
        decide_eq_true_eq] at between
      simp only [Option.getD_some]
      omega

/-- The calls of the system that answer requests are those the guard has let
through, and rows refer to rows that exist. -/
structure Platform.Sound (platform : Platform) : Prop where
  accounts : Auth.Accounts platform.auth
  projects : ∀ id row, platform.projects.get? id = some row →
    (platform.auth.organizations.get? row.orgId).isSome
  queues : ∀ id row, platform.system.world.queues.get? id = some row →
    row.AsCreated
  distinct : platform.database.DistinctIds
  checked : ∀ call value, platform.calls call = some value →
    value.Checked platform
  serves : ∀ call value, platform.system.calls call = some value →
    value.isRequest = true → ∃ user request,
      platform.calls call = some ⟨user, .job request, .forwarded⟩ ∧
        value.Serves request

/-- Nobody has registered and no request has been made. -/
structure Platform.Fresh (platform : Platform) : Prop where
  users : platform.auth.users = .empty
  organizations : platform.auth.organizations = .empty
  memberships : platform.auth.memberships = .empty
  projects : platform.projects = .empty
  queues : platform.system.world.queues = .empty
  jobs : platform.system.world.jobs = .empty
  calls : ∀ call, platform.calls call = none
  system : ∀ call, platform.system.calls call = none

namespace Platform

variable {env : Env} {platform next : Platform}

theorem Fresh.sound (fresh : platform.Fresh) : platform.Sound where
  accounts := .initial fresh.users fresh.organizations fresh.memberships
  projects id row found := by
    rw [fresh.projects] at found
    cases found
  queues id row found := by
    rw [fresh.queues] at found
    cases found
  distinct := by
    have noProjects : ∀ id, platform.database.projects.get? id = none := by
      intro id
      simp only [database, World.database, columns, fresh.projects,
        Table.get?_empty]
    have noQueues : ∀ id, platform.database.queues.get? id = none := by
      intro id
      simp only [database, World.database, Table.get?_mapValues, fresh.queues,
        Table.get?_empty, Option.map_none]
    constructor
    · intro id present
      exact noQueues id
    · intro id present
      rw [noProjects] at present
      cases present
    · intro id present
      rw [noQueues] at present
      cases present
  checked call value found := by
    rw [fresh.calls] at found
    cases found
  serves call value found := by
    rw [fresh.system] at found
    cases found

theorem distinct_iff : platform.database.DistinctIds ↔
    ∀ id, ((platform.projects.get? id).isSome →
        platform.system.world.queues.get? id = none ∧
          platform.system.world.jobs.get? id = none) ∧
      ((platform.system.world.queues.get? id).isSome →
        platform.system.world.jobs.get? id = none) := by
  have queues : ∀ id, platform.database.queues.get? id = none ↔
      platform.system.world.queues.get? id = none := by
    intro id
    simp only [database, World.database, Table.get?_mapValues,
      Option.map_eq_none_iff]
  have jobs : ∀ id, platform.database.jobs.get? id = none ↔
      platform.system.world.jobs.get? id = none := by
    intro id
    simp only [database, World.database, Table.get?_mapValues,
      Option.map_eq_none_iff]
  constructor
  · intro distinct id
    refine ⟨fun present => ⟨(queues id).mp (distinct.projectQueue present),
      (jobs id).mp (distinct.projectJob present)⟩, ?_⟩
    intro present
    apply (jobs id).mp
    apply distinct.queueJob
    simpa [Option.isSome_iff_ne_none, queues id] using present
  · intro distinct
    constructor
    · intro id present
      exact (queues id).mpr ((distinct id).1 present).1
    · intro id present
      exact (jobs id).mpr ((distinct id).1 present).2
    · intro id present
      apply (jobs id).mpr
      apply (distinct id).2
      simpa [Option.isSome_iff_ne_none, queues id] using present

private theorem unused_iff {id : Nat} : platform.unused id = true ↔
    platform.projects.get? id = none ∧
      platform.system.world.queues.get? id = none ∧
      platform.system.world.jobs.get? id = none := by
  simp only [unused, Bool.and_eq_true, Option.isNone_iff_eq_none, and_assoc]

private theorem distinct_of_createProject {body : CreateProjectBody}
    {id : ProjectId} {apiKey : String}
    (distinct : platform.database.DistinctIds)
    (created : platform.createProject body id apiKey = some next) :
    next.database.DistinctIds := by
  obtain ⟨isUnused, _, projects, inserted, rfl⟩ := createProject_spec created
  obtain ⟨_, noQueue, noJob⟩ := unused_iff.mp isUnused
  rw [distinct_iff] at distinct ⊢
  intro other
  refine ⟨?_, (distinct other).2⟩
  intro present
  change (projects.get? other).isSome = true at present
  rw [Table.get?_insert? inserted] at present
  split at present
  · subst other
    exact ⟨noQueue, noJob⟩
  · exact (distinct other).1 present

private theorem distinct_of_createQueue {projectId : ProjectId}
    {body : CreateQueueBody} {id : QueueId}
    (distinct : platform.database.DistinctIds)
    (created : platform.createQueue projectId body id = some next) :
    next.database.DistinctIds := by
  obtain ⟨isUnused, _, queues, inserted, rfl⟩ := createQueue_spec created
  obtain ⟨noProject, _, noJob⟩ := unused_iff.mp isUnused
  rw [distinct_iff] at distinct ⊢
  intro other
  have before := distinct other
  change ((platform.projects.get? other).isSome →
      queues.get? other = none ∧ _) ∧ ((queues.get? other).isSome → _)
  rw [Table.get?_insert? inserted]
  split
  · subst other
    refine ⟨fun present => ?_, fun _ => noJob⟩
    rw [noProject] at present
    cases present
  · exact before

private theorem distinct_of_system {system : State}
    (distinct : platform.database.DistinctIds)
    (queues : system.world.queues = platform.system.world.queues)
    (kept : { platform with system := system }.idsDistinct = true) :
    { platform with system := system }.database.DistinctIds := by
  have noJob : ∀ id job, system.world.jobs.get? id = some job →
      platform.projects.get? id = none ∧
        system.world.queues.get? id = none := by
    intro id job found
    have checked := List.all_eq_true.mp kept (id, job)
      (Table.mem_rows_iff.mpr found)
    simpa only [Bool.and_eq_true, Option.isNone_iff_eq_none] using checked
  rw [distinct_iff] at distinct ⊢
  intro id
  cases isJob : system.world.jobs.get? id with
  | some job =>
      obtain ⟨noProject, noQueue⟩ := noJob id job isJob
      simp only [noProject, noQueue]
      simp
  | none =>
      refine ⟨fun present => ⟨?_, rfl⟩, fun _ => rfl⟩
      change system.world.queues.get? id = none
      rw [queues]
      exact ((distinct id).1 present).1

namespace Sound

variable (sound : platform.Sound)
include sound

private theorem of_grows (grows : Grows platform next)
    (accounts : Auth.Accounts next.auth)
    (projects : ∀ id row, next.projects.get? id = some row →
      (next.auth.organizations.get? row.orgId).isSome)
    (queues : ∀ id row, next.system.world.queues.get? id = some row →
      row.AsCreated)
    (distinct : next.database.DistinctIds)
    (calls : next.calls = platform.calls)
    (systemCalls : next.system.calls = platform.system.calls) :
    next.Sound where
  accounts := accounts
  projects := projects
  queues := queues
  distinct := distinct
  checked call value found := by
    rw [calls] at found
    exact (sound.checked call value found).grow grows
  serves call value found isRequest := by
    rw [systemCalls] at found
    rw [calls]
    exact sound.serves call value found isRequest

private theorem setCall {call : CallId} {value : PlatformCall}
    (unforwarded : ∀ user request,
      platform.calls call ≠ some ⟨user, .job request, .forwarded⟩)
    (checked : value.Checked platform) :
    (platform.setCall call value).Sound where
  accounts := sound.accounts
  projects := sound.projects
  queues := sound.queues
  distinct := sound.distinct
  checked other otherValue found := by
    refine PlatformCall.Checked.grow ?_ ((Grows.refl platform).setCall _ _)
    by_cases same : other = call
    · rw [calls_setCall, if_pos same] at found
      cases found
      exact checked
    · rw [calls_setCall, if_neg same] at found
      exact sound.checked other otherValue found
  serves other otherValue found isRequest := by
    obtain ⟨user, request, forwarded, serves⟩ :=
      sound.serves other otherValue found isRequest
    refine ⟨user, request, ?_, serves⟩
    have different : other ≠ call := by
      rintro rfl
      exact unforwarded user request forwarded
    rw [calls_setCall, if_neg different]
    exact forwarded

private theorem forwarded {call : CallId} {value : PlatformCall}
    {request : Request} (called : platform.calls call = some value)
    (handling : value.phase = .handle) (isJob : value.request = .job request) :
    ({ platform with
        system := platform.system.set call (some request.begin)
      }.setCall call { value with phase := .forwarded }).Sound where
  accounts := sound.accounts
  projects := sound.projects
  queues := sound.queues
  distinct := sound.distinct
  checked other otherValue found := by
    have grows : Grows platform
        ({ platform with
            system := platform.system.set call (some request.begin)
          }.setCall call { value with phase := .forwarded }) :=
      ⟨fun _ _ found => found, fun _ _ found => found, fun _ _ found => found,
        fun _ row found => ⟨row, found, rfl⟩,
        fun _ row found => ⟨row, found, rfl⟩⟩
    by_cases same : other = call
    · rw [calls_setCall, if_pos same] at found
      cases found
      have checked := sound.checked call value called
      refine PlatformCall.Checked.grow ?_ grows
      constructor
      · intro org route resource phase
        cases phase
      · intro route resource _ isGuard
        apply checked.entitled route resource _ isGuard
        rw [handling]
        rfl
      · intro body phase
        cases phase
      · intro projectId body phase
        cases phase
      · intro id body phase
        cases phase
    · rw [calls_setCall, if_neg same] at found
      exact (sound.checked other otherValue found).grow grows
  serves other otherValue found isRequest := by
    change (Function.update platform.system.calls call
      (some request.begin)) other = some otherValue at found
    by_cases same : other = call
    · subst same
      rw [Function.update_self] at found
      cases found
      refine ⟨value.user, request, ?_, request.serves_begin⟩
      rw [calls_setCall, if_pos rfl, isJob]
    · rw [Function.update_of_ne same] at found
      rw [calls_setCall, if_neg same]
      exact sound.serves other otherValue found isRequest

private theorem system {action : Action} {system : State}
    (taken : Chronos.step env platform.system action = some system)
    (internal : action.internal = true)
    (kept : { platform with system := system }.idsDistinct = true) :
    { platform with system := system }.Sound where
  accounts := sound.accounts
  projects := sound.projects
  queues id row found := by
    change system.world.queues.get? id = some row at found
    rw [queues_of_internal taken internal] at found
    exact sound.queues id row found
  distinct := distinct_of_system sound.distinct
    (queues_of_internal taken internal) kept
  checked call value found :=
    (sound.checked call value found).grow (grows_of_system taken internal)
  serves call value found isRequest := by
    cases step_call taken found with
    | kept present => exact sound.serves call value present isRequest
    | started starts =>
        -- A request is answered only after the guard has let it through.
        cases starts with
        | request => cases internal
        | _ => cases isRequest
    | handedOver => cases isRequest
    | launched => cases isRequest
    | poll => cases isRequest
    | exec => cases isRequest
    | reap => cases isRequest
    | tick => cases isRequest
    | api present case _ handled =>
        obtain ⟨user, request, forwarded, serves⟩ :=
          sound.serves call _ present case.requests.1
        exact ⟨user, request, forwarded, serves.handle handled⟩

end Sound

theorem Sound.step {action : PlatformAction} (sound : platform.Sound)
    (taken : platform.step env action = some next) : next.Sound := by
  have grows := step_grows taken
  cases step_cases taken with
  | auth success =>
      have distinct := distinct_iff.mp sound.distinct
      refine sound.of_grows grows (sound.accounts.step success) ?_
        sound.queues (distinct_iff.mpr distinct) rfl rfl
      intro id row found
      obtain ⟨organization, present⟩ := Option.isSome_iff_exists.mp
        (sound.projects id row found)
      exact Option.isSome_iff_exists.mpr
        ⟨organization, grows.organizations _ _ present⟩
  | began absent _ =>
      apply sound.setCall _ (.begin _ _)
      intro user request forwarded
      rw [absent] at forwarded
      cases forwarded
  | moved called moved =>
      apply sound.setCall
      · intro user request forwarded
        cases called.symm.trans forwarded
        cases moved with
        | refused different => exact different rfl
      · exact (sound.checked _ _ called).move sound.distinct moved
  | forwarded called handling isJob =>
      exact sound.forwarded called handling isJob
  | projectCreated called writing isRequest created =>
      rename_i call value body id apiKey created' reply
      have distinct := distinct_of_createProject sound.distinct created
      have grows := grows_of_createProject created
      obtain ⟨_, organization, projects, inserted, rfl⟩ :=
        createProject_spec created
      apply Sound.setCall
      · refine sound.of_grows grows sound.accounts ?_ sound.queues distinct rfl
          rfl
        intro other row found
        change projects.get? other = some row at found
        rw [Table.get?_insert? inserted] at found
        split at found
        · cases found
          exact organization
        · exact sound.projects other row found
      · intro user request forwarded
        cases called.symm.trans forwarded
        cases writing
      · exact .of_unchecked (fun _ phase => by cases phase) rfl
  | queueCreated called writing isRequest created =>
      have distinct := distinct_of_createQueue sound.distinct created
      have grows := grows_of_createQueue created
      obtain ⟨_, _, queues, inserted, rfl⟩ := createQueue_spec created
      apply Sound.setCall
      · refine sound.of_grows grows sound.accounts sound.projects ?_ distinct
          rfl rfl
        intro other row found
        change queues.get? other = some row at found
        rw [Table.get?_insert? inserted] at found
        split at found
        · cases found
          have bounds := CreateQueueBody.limit_bounds
            ((sound.checked _ _ called).queue _ _ writing isRequest)
          exact ⟨rfl, bounds.1, bounds.2⟩
        · exact sound.queues other row found
      · intro user request forwarded
        cases called.symm.trans forwarded
        cases writing
      · exact .of_unchecked (fun _ phase => by cases phase) rfl
  | queueUpdated called writing isRequest =>
      exact absurd isRequest ((sound.checked _ _ called).update _ _ writing)
  | system internal _ success kept => exact sound.system success internal kept

theorem Sound.run {start last : Platform}
    {trace : List (Transition Platform PlatformAction)} (sound : start.Sound)
    (run : Run (Platform.step env) start trace last) : last.Sound :=
  run.invariant Platform.Sound (fun _ _ => trivial) sound
    fun _ _ taken before => before.step taken

theorem Sound.run_before {start last : Platform}
    {trace : List (Transition Platform PlatformAction)} (sound : start.Sound)
    (run : Run (Platform.step env) start trace last)
    {transition : Transition Platform PlatformAction}
    (member : transition ∈ trace) :
    transition.before.Sound ∧
      transition.before.step env transition.action = some transition.after :=
  run.invariant_before Platform.Sound (fun _ _ => trivial) sound
    (fun _ _ taken before => before.step taken) member

end Platform

/-! ## The guard -/

/-- The guard of a route that does not name a queue by `id` finds the
organization of the resource and no other. -/
theorem resolveOrgId_eq_iff {db : Database} {route : Route}
    {resource : Nat} {org : OrgId} (named : route.queueById = false) :
    resolveOrgId db (route.params resource) = .ok (some org) ↔
      db.ownerOf route.kind resource = some org := by
  refine ⟨?_, resolveOrgId_params named⟩
  intro resolved
  cases route with
  | updateQueue | queueStats => cases named
  | createQueue | listQueues =>
      simp only [Route.params, resolveOrgId] at resolved
      split at resolved <;> cases resolved
      assumption
  | submitJob | submitBatch =>
      simp only [Route.params, resolveOrgId] at resolved
      split at resolved <;> cases resolved
      assumption
  | retryJob | cancelJob => exact Except.ok.inj resolved

namespace Platform

variable {env : Env} {platform : Platform}

/-- The resource belongs to an organization that the user owns. -/
def Holds (platform : Platform) (user : UserId) (kind : ResourceKind)
    (id : Nat) : Prop :=
  ∃ org, platform.database.ownerOf kind id = some org ∧
    platform.auth.Owns user org

theorem Holds.unique {user other : UserId} {kind : ResourceKind} {id : Nat}
    (holds : platform.Holds user kind id)
    (holds' : platform.Holds other kind id) : user = other := by
  obtain ⟨org, owned, row, found, owner⟩ := holds
  obtain ⟨org', owned', row', found', owner'⟩ := holds'
  cases owned.symm.trans owned'
  cases found.symm.trans found'
  exact owner.symm.trans owner'

/-- Whoever has a role in an organization owns it, and has every role. -/
theorem Sound.entitled_iff (sound : platform.Sound) {user : UserId}
    {minRole : OrgMemberRole} {org : OrgId} :
    platform.database.Entitled user minRole org ↔
      platform.auth.Owns user org := by
  constructor
  · intro entitled
    obtain ⟨role, found, _⟩ := entitled
    exact ((sound.accounts.members org user role).mp found).2
  · intro owns
    refine ⟨.owner, (sound.accounts.members org user .owner).mpr ⟨rfl, owns⟩, ?_⟩
    apply OrgMemberRole.roleHierarchy_le_iff.mp
    cases minRole <;> decide

theorem Sound.guard_iff (sound : platform.Sound) {user : UserId}
    {minRole : OrgMemberRole} {route : Route} {resource : Nat}
    (named : route.queueById = false) :
    requireOrgMember minRole platform.database (some user)
        (route.params resource) = .ok () ↔
      platform.Holds user route.kind resource := by
  constructor
  · intro passed
    simp only [requireOrgMember] at passed
    split at passed
    · cases passed
    · cases passed
    · rename_i org resolved
      exact ⟨org, (resolveOrgId_eq_iff named).mp resolved,
        sound.entitled_iff.mp (requireRole_eq_ok_iff.mp passed)⟩
  · intro holds
    obtain ⟨org, owned, owns⟩ := holds
    rw [requireOrgMember_of_resolved (resolveOrgId_params named owned)]
    exact requireRole_eq_ok_iff.mpr (sound.entitled_iff.mpr owns)

theorem Sound.queues_kept {next : Platform} {action : PlatformAction}
    (sound : platform.Sound) (taken : platform.step env action = some next)
    {id : QueueId} {row : Queue}
    (found : platform.system.world.queues.get? id = some row) :
    next.system.world.queues.get? id = some row := by
  cases step_cases taken with
  | auth => exact found
  | began => exact found
  | moved => exact found
  | forwarded => exact found
  | projectCreated _ _ _ created =>
      obtain ⟨_, _, projects, _, rfl⟩ := createProject_spec created
      exact found
  | queueCreated _ _ _ created =>
      obtain ⟨_, _, queues, inserted, rfl⟩ := createQueue_spec created
      change queues.get? id = some row
      rw [Table.get?_insert? inserted, if_neg, found]
      rintro rfl
      rw [(Table.insert?_eq_some_iff.mp inserted).1] at found
      cases found
  | queueUpdated called writing isRequest =>
      exact absurd isRequest ((sound.checked _ _ called).update _ _ writing)
  | system internal _ success _ =>
      rw [queues_of_internal success internal, found]

/-- Once the platform is deployed, the guard of every route that does not
name a queue by `id` lets through the owner of the resource and nobody else,
whatever role it asks for; and no queue is ever paused or given another
limit, although there is an endpoint for it. -/
theorem owners_pass {start last : Platform}
    {trace : List (Transition Platform PlatformAction)} (fresh : start.Fresh)
    (run : Run (Platform.step env) start trace last) :
    (∀ (minRole : OrgMemberRole) (route : Route) (resource : Nat)
        (user : UserId), route.queueById = false →
      (requireOrgMember minRole last.database (some user)
          (route.params resource) = .ok () ↔
        last.Holds user route.kind resource)) ∧
    (∀ (user other : UserId) (kind : ResourceKind) (resource : Nat),
      last.Holds user kind resource → last.Holds other kind resource →
      user = other) ∧
    (∀ id row, last.system.world.queues.get? id = some row →
      row.AsCreated) ∧
    ∀ transition ∈ trace, ∀ id row,
      transition.before.system.world.queues.get? id = some row →
      transition.after.system.world.queues.get? id = some row := by
  have sound := fresh.sound.run run
  refine ⟨?_, ?_, sound.queues, ?_⟩
  · intro minRole route resource user named
    exact sound.guard_iff named
  · intro user other kind resource holds holds'
    exact holds.unique holds'
  · intro transition member id row found
    obtain ⟨before, taken⟩ := fresh.sound.run_before run member
    exact before.queues_kept taken found

/-- Two users register, and the first creates project 5 and queue 6. -/
def twoTeamActions : List PlatformAction :=
  registerActions 1 1 2 "anna@chronos.dev" ++
    registerActions 2 3 4 "bert@chronos.dev" ++
    createProjectActions 3 1 2 5 ++ createQueueActions 4 1 5 6

theorem deployed_fresh : deployed.Fresh :=
  ⟨rfl, rfl, rfl, rfl, rfl, rfl, fun _ => rfl, fun _ => rfl⟩

set_option maxRecDepth 4000 in
theorem owners_pass_two_teams :
    ∃ trace last, Run (Platform.step .sample) deployed trace last ∧
      requireOrgMember .owner last.database (some 1)
        (Route.submitJob.params 6) = .ok () ∧
      requireOrgMember .member last.database (some 3)
        (Route.submitJob.params 6) ≠ .ok () := by
  obtain ⟨trace, last, run, owned, owner⟩ :=
    exists_run_of_check (Platform.step .sample) deployed twoTeamActions
      (fun _ last => last.database.orgOfQueue 6 = some 2 ∧
        (last.auth.organizations.get? 2).map (·.ownerId) = some 1)
      (by decide)
  obtain ⟨pass, unique, _⟩ := owners_pass deployed_fresh run
  obtain ⟨row, found, isOwner⟩ := Option.map_eq_some_iff.mp owner
  have holds : last.Holds 1 .queue 6 := ⟨2, owned, row, found, isOwner⟩
  refine ⟨trace, last, run, (pass .owner .submitJob 6 1 rfl).mpr holds, ?_⟩
  intro passed
  have other := (pass .member .submitJob 6 3 rfl).mp passed
  exact absurd (unique 1 3 .queue 6 holds other) (by decide)

end Platform

end Chronos
