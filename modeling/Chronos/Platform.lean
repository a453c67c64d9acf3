import Chronos.Accounts
import Chronos.Directory
import Chronos.Writers

/-!
# The platform

The whole API over the whole system: registrations and logins, the endpoints
that create projects and queues and change queues, and the job endpoints, each
behind its guard, in any interleaving with each other and with the workers.
Every await of a request is a step of its own.  Primary keys are globally
unique, so an identifier that a table hands out is in use nowhere else.
-/

namespace Chronos

/-- The columns that no modelled step chooses. -/
structure FixedColumns where
  policyProject : RetryPolicyId → ProjectId
  policyName : RetryPolicyId → String
  policyCreatedAt : RetryPolicyId → Time
  logId : Nat ↪ LogId
  deadLetterId : JobId → DeadLetterId
  workerHostname : WorkerId → String
  workerPid : WorkerId → Int

/-! ## Bodies -/

structure CreateProjectBody where
  orgId : OrgId
  name : String

structure CreateQueueBody where
  name : String
  priority : Option Rat
  concurrencyLimit : Option Rat
  defaultRetryPolicyId : Option RetryPolicyId

structure UpdateQueueBody where
  priority : Option Rat
  concurrencyLimit : Option Rat
  isPaused : Option Bool

/-- The `length` of a string: it counts UTF-16 units. -/
def jsLength (text : String) : Nat :=
  (text.toList.map fun char => if char.toNat < 0x10000 then 1 else 2).sum

/-- `z.number().int().min(low).max(high).optional()`. -/
def isIntBetween (low high : Int) (value : Option Rat) : Bool :=
  value.all fun number =>
    number.den = 1 && low ≤ number.num && number.num ≤ high

/-- `/^[a-z0-9_-]+$/i`, for one character. -/
def isQueueNameChar (char : Char) : Bool :=
  char.isAlphanum || char = '_' || char = '-'

namespace CreateProjectBody

/-- `createProjectSchema`. -/
def accepted (body : CreateProjectBody) : Bool :=
  1 ≤ jsLength body.name && jsLength body.name ≤ 128

end CreateProjectBody

namespace CreateQueueBody

/-- `createQueueSchema`. -/
def accepted (body : CreateQueueBody) : Bool :=
  1 ≤ jsLength body.name && jsLength body.name ≤ 128 &&
    body.name.toList.all isQueueNameChar &&
    isIntBetween 0 100 body.priority &&
    isIntBetween 1 1000 body.concurrencyLimit

/-- `parsed.data.concurrencyLimit ?? 10`. -/
def limit (body : CreateQueueBody) : Nat :=
  (body.concurrencyLimit.getD 10).num.toNat

end CreateQueueBody

namespace UpdateQueueBody

/-- `updateQueueSchema`. -/
def accepted (body : UpdateQueueBody) : Bool :=
  isIntBetween 0 100 body.priority &&
    isIntBetween 1 1000 body.concurrencyLimit

def patch (body : UpdateQueueBody) : QueuePatch where
  concurrencyLimit := body.concurrencyLimit.map fun limit => limit.num.toNat
  isPaused := body.isPaused

end UpdateQueueBody

/-- The handler's answer to a body that its schema does not accept. -/
def bodyInvalid : ChronosError :=
  ⟨"VALIDATION_ERROR", "Invalid request body", 400⟩

/-! ## Requests -/

inductive PlatformRequest where
  /-- `POST /projects` -/
  | createProject (body : CreateProjectBody)
  /-- `POST /projects/:projectId/queues` -/
  | createQueue (projectId : ProjectId) (body : CreateQueueBody)
  /-- `PATCH /queues/:id` -/
  | updateQueue (id : QueueId) (body : UpdateQueueBody)
  /-- The job endpoints that write. -/
  | job (request : Request)

def Request.route : Request → Route × Nat
  | .submit queueId _ => (.submitJob, queueId)
  | .batch queueId _ => (.submitBatch, queueId)
  | .retry jobId => (.retryJob, jobId)
  | .cancel jobId => (.cancelJob, jobId)

/-- The route under `requireOrgMember` and the resource in its URL. -/
def PlatformRequest.guard : PlatformRequest → Option (Route × Nat)
  | .createProject _ => none
  | .createQueue projectId _ => some (.createQueue, projectId)
  | .updateQueue id _ => some (.updateQueue, id)
  | .job request => some request.route

inductive PlatformBody where
  | projectCreated (id : ProjectId)
  | queueCreated (id : QueueId)
  | queueUpdated (id : QueueId)

abbrev PlatformReply := Except ChronosError PlatformBody

/-- What a request awaits: the two lookups of the guard, the lookup of the
handler, its write, or, for the job endpoints, the calls of the handler in the
system. -/
inductive PlatformPhase where
  | resolve
  | role (org : OrgId)
  | handle
  | write
  | forwarded
  | answered (reply : PlatformReply)

structure PlatformCall where
  user : UserId
  request : PlatformRequest
  phase : PlatformPhase

def PlatformRequest.begin : PlatformRequest → PlatformPhase
  | .createProject _ => .handle
  | _ => .resolve

inductive PlatformInput where
  | ok
  | created (id : Nat) (apiKey : String)
  | fail (error : DbError)

inductive PlatformAction where
  | auth (action : Auth.Action)
  | request (call : CallId) (user : UserId) (request : PlatformRequest)
  | proceed (call : CallId) (input : PlatformInput)
  | system (action : Action)

/-! ## The state -/

structure Platform where
  auth : Auth.State
  projects : Table ProjectId Project
  projectColumns : ProjectId → ProjectColumns
  queueName : QueueId → String
  queueColumns : QueueId → QueueColumns
  fixed : FixedColumns
  system : State
  calls : CallId → Option PlatformCall

namespace Platform

variable (platform : Platform)

def columns : ApiColumns where
  memberships := platform.auth.memberships
  projects := platform.projects
  policyProject := platform.fixed.policyProject
  policyName := platform.fixed.policyName
  policyCreatedAt := platform.fixed.policyCreatedAt
  queueName := platform.queueName
  logId := platform.fixed.logId
  deadLetterId := platform.fixed.deadLetterId
  workerHostname := platform.fixed.workerHostname
  workerPid := platform.fixed.workerPid

def database : Database := platform.system.world.database platform.columns

def directory : Directory :=
  { platform.database with
    projectColumns := platform.projectColumns
    queueColumns := platform.queueColumns }

def setCall (call : CallId) (value : PlatformCall) : Platform :=
  { platform with calls := Function.update platform.calls call (some value) }

theorem calls_setCall (call other : CallId) (value : PlatformCall) :
    (platform.setCall call value).calls other =
      if other = call then some value else platform.calls other :=
  Function.update_apply _ _ _ _

/-- No project, queue or job has this identifier. -/
def unused (id : Nat) : Bool :=
  (platform.projects.get? id).isNone &&
    (platform.system.world.queues.get? id).isNone &&
    (platform.system.world.jobs.get? id).isNone

/-- The unique index on `(project_id, name)` of `queues`. -/
def nameTaken (projectId : ProjectId) (name : String) : Bool :=
  platform.system.world.queues.rows.any fun row =>
    row.2.projectId = projectId && platform.queueName row.1 = name

/-- `prisma.project.create`. -/
def createProject (body : CreateProjectBody) (id : ProjectId)
    (apiKey : String) : Option Platform :=
  if platform.unused id &&
      (platform.auth.organizations.get? body.orgId).isSome then
    (platform.projects.insert? id ⟨body.orgId⟩).map fun projects =>
      { platform with
        projects := projects
        projectColumns := Function.update platform.projectColumns id
          ⟨body.name, apiKey, platform.system.world.now⟩ }
  else none

/-- `prisma.queue.create`; a policy that is named exists. -/
def createQueue (projectId : ProjectId) (body : CreateQueueBody)
    (id : QueueId) : Option Platform :=
  if platform.unused id && (platform.projects.get? projectId).isSome &&
      !platform.nameTaken projectId body.name &&
      body.defaultRetryPolicyId.all fun policy =>
        (platform.system.world.retryPolicies.get? policy).isSome then
    (platform.system.world.queues.insert? id
        ⟨projectId, body.limit, false, body.defaultRetryPolicyId⟩).map
      fun queues =>
        { platform with
          system :=
            { platform.system with
              world := { platform.system.world with queues := queues } }
          queueName := Function.update platform.queueName id body.name
          queueColumns := Function.update platform.queueColumns id
            ⟨(body.priority.getD 0).num, platform.system.world.now⟩ }
  else none

/-- `prisma.queue.update`. -/
def updateQueue (id : QueueId) (body : UpdateQueueBody) : Platform :=
  { platform with
    system :=
      { platform.system with
        world := platform.system.world.updateQueue id body.patch }
    queueColumns := Function.update platform.queueColumns id
      { platform.queueColumns id with
        priority := (body.priority.map (·.num)).getD
          (platform.queueColumns id).priority } }

/-- The organization of a request was found: is the user's role enough? -/
def checkRole (user : UserId) (request : PlatformRequest) (org : OrgId) :
    Option PlatformPhase :=
  match request.guard with
  | none => none
  | some (route, _) =>
      match requireRole route.minRole platform.database user org with
      | .error error => some (.answered (.error error))
      | .ok () => some .handle

/-- The lookup of the guard. -/
def resolve (request : PlatformRequest) : Option PlatformPhase :=
  match request.guard with
  | none => none
  | some (route, resource) =>
      match resolveOrgId platform.database (route.params resource) with
      | .error error => some (.answered (.error error))
      | .ok none =>
          some (.answered (.error (forbiddenError
            "Cannot determine organization for this resource")))
      | .ok (some org) => some (.role org)

/-- The handler up to its write: the body schema and one lookup. -/
def lookup (user : UserId) : PlatformRequest → Option PlatformPhase
  | .createProject body =>
      if body.accepted then
        if platform.database.isMember user body.orgId then some .write
        else some (.answered (.error (notFoundError
          "Organization not found or you are not a member")))
      else some (.answered (.error bodyInvalid))
  | .createQueue projectId body =>
      if body.accepted then
        match platform.projects.get? projectId with
        | none => some (.answered (.error (notFoundError "Project not found")))
        | some _ => some .write
      else some (.answered (.error bodyInvalid))
  | .updateQueue id body =>
      if body.accepted then
        match platform.system.world.queues.get? id with
        | none => some (.answered (.error (notFoundError "Queue not found")))
        | some _ => some .write
      else some (.answered (.error bodyInvalid))
  | .job _ => none

/-- The write of a handler, with its answer. -/
def write : PlatformRequest → PlatformInput →
    Option (Platform × PlatformReply)
  | .createProject body, .created id apiKey =>
      (platform.createProject body id apiKey).map fun next =>
        (next, .ok (.projectCreated id))
  | .createQueue projectId body, .created id _ =>
      (platform.createQueue projectId body id).map fun next =>
        (next, .ok (.queueCreated id))
  | .createQueue projectId body, .fail .uniqueViolation =>
      if platform.nameTaken projectId body.name then
        some (platform, .error (Auth.dbError .uniqueViolation))
      else none
  | .updateQueue id body, .ok =>
      some (platform.updateQueue id body, .ok (.queueUpdated id))
  | _, .fail .other => some (platform, .error (Auth.dbError .other))
  | _, _ => none

/-- One step of a request. -/
def proceed (env : Env) (call : CallId) (value : PlatformCall)
    (input : PlatformInput) : Option Platform :=
  let goto (phase : PlatformPhase) : Platform :=
    platform.setCall call { value with phase := phase }
  match value.phase, input with
  | .resolve, .ok => (platform.resolve value.request).map goto
  | .role org, .ok =>
      (platform.checkRole value.user value.request org).map goto
  | .handle, .ok =>
      match value.request with
      | .job request =>
          (step env platform.system (.request call request)).map fun system =>
            { platform with system := system }.setCall call
              { value with phase := .forwarded }
      | request => (platform.lookup value.user request).map goto
  | .write, input =>
      (platform.write value.request input).map fun next =>
        next.1.setCall call { value with phase := .answered next.2 }
  | .forwarded, _ => none
  | .answered _, _ => none
  | _, .fail .other => some (goto (.answered (.error internalError)))
  | _, _ => none

end Platform

namespace Action

/-- Steps that no endpoint stands behind. -/
def internal : Action → Bool
  | .request _ _ => false
  | .updateQueue _ _ => false
  | _ => true

end Action

namespace Platform

/-- No job has the identifier of a project or a queue. -/
def idsDistinct (platform : Platform) : Bool :=
  platform.system.world.jobs.rows.all fun row =>
    (platform.projects.get? row.1).isNone &&
      (platform.system.world.queues.get? row.1).isNone

def step (env : Env) (platform : Platform) :
    PlatformAction → Option Platform
  | .auth action =>
      (Auth.step platform.auth action).map fun auth =>
        { platform with auth := auth }
  | .request call user request =>
      if (platform.calls call).isNone && (platform.system.calls call).isNone
      then some (platform.setCall call ⟨user, request, request.begin⟩)
      else none
  | .proceed call input =>
      match platform.calls call with
      | none => none
      | some value => platform.proceed env call value input
  | .system action =>
      if action.internal &&
          action.begins.all fun call => (platform.calls call).isNone then
        (Chronos.step env platform.system action).bind fun system =>
          let next := { platform with system := system }
          if next.idsDistinct then some next else none
      else none

/-- The user on whose behalf the step is taken. -/
def author (platform : Platform) : PlatformAction → Option UserId
  | .request _ user _ => some user
  | .proceed call _ => (platform.calls call).map (·.user)
  | .system (.api call _) => (platform.calls call).map (·.user)
  | _ => none

end Platform

/-! ## The steps -/

/-- What the guard and the lookup of a handler establish. -/
inductive PhaseStep (platform : Platform) (user : UserId)
    (request : PlatformRequest) : PlatformPhase → PlatformPhase → Prop where
  | refused {phase : PlatformPhase} {reply : PlatformReply} :
      phase ≠ .forwarded →
      PhaseStep platform user request phase (.answered reply)
  | resolved {route : Route} {resource : Nat} {org : OrgId} :
      request.guard = some (route, resource) →
      resolveOrgId platform.database (route.params resource) =
        .ok (some org) →
      PhaseStep platform user request .resolve (.role org)
  | admitted {route : Route} {resource : Nat} {org : OrgId} :
      request.guard = some (route, resource) →
      platform.database.Entitled user route.minRole org →
      PhaseStep platform user request (.role org) .handle
  | projectChecked {body : CreateProjectBody} :
      request = .createProject body →
      platform.database.isMember user body.orgId = true →
      PhaseStep platform user request .handle .write
  | queueChecked {projectId : ProjectId} {body : CreateQueueBody} :
      request = .createQueue projectId body →
      body.accepted = true →
      PhaseStep platform user request .handle .write
  | updateChecked {id : QueueId} {body : UpdateQueueBody} {queue : Queue} :
      request = .updateQueue id body →
      platform.system.world.queues.get? id = some queue →
      PhaseStep platform user request .handle .write

inductive PlatformStep (env : Env) (platform : Platform) :
    PlatformAction → Platform → Prop where
  | auth {action : Auth.Action} {auth : Auth.State} :
      Auth.step platform.auth action = some auth →
      PlatformStep env platform (.auth action) { platform with auth := auth }
  | began {call : CallId} {user : UserId} {request : PlatformRequest} :
      platform.calls call = none →
      platform.system.calls call = none →
      PlatformStep env platform (.request call user request)
        (platform.setCall call ⟨user, request, request.begin⟩)
  | moved {call : CallId} {value : PlatformCall} {phase : PlatformPhase}
      {input : PlatformInput} :
      platform.calls call = some value →
      PhaseStep platform value.user value.request value.phase phase →
      PlatformStep env platform (.proceed call input)
        (platform.setCall call { value with phase := phase })
  | forwarded {call : CallId} {value : PlatformCall} {request : Request} :
      platform.calls call = some value →
      value.phase = .handle →
      value.request = .job request →
      platform.system.calls call = none →
      PlatformStep env platform (.proceed call .ok)
        ({ platform with
            system := platform.system.set call (some request.begin)
          }.setCall call { value with phase := .forwarded })
  | projectCreated {call : CallId} {value : PlatformCall}
      {body : CreateProjectBody} {id : ProjectId} {apiKey : String}
      {next : Platform} {reply : PlatformReply} :
      platform.calls call = some value →
      value.phase = .write →
      value.request = .createProject body →
      platform.createProject body id apiKey = some next →
      PlatformStep env platform (.proceed call (.created id apiKey))
        (next.setCall call { value with phase := .answered reply })
  | queueCreated {call : CallId} {value : PlatformCall}
      {projectId : ProjectId} {body : CreateQueueBody} {id : QueueId}
      {apiKey : String} {next : Platform} {reply : PlatformReply} :
      platform.calls call = some value →
      value.phase = .write →
      value.request = .createQueue projectId body →
      platform.createQueue projectId body id = some next →
      PlatformStep env platform (.proceed call (.created id apiKey))
        (next.setCall call { value with phase := .answered reply })
  | queueUpdated {call : CallId} {value : PlatformCall} {id : QueueId}
      {body : UpdateQueueBody} {reply : PlatformReply} :
      platform.calls call = some value →
      value.phase = .write →
      value.request = .updateQueue id body →
      PlatformStep env platform (.proceed call .ok)
        ((platform.updateQueue id body).setCall call
          { value with phase := .answered reply })
  | system {action : Action} {system : State} :
      action.internal = true →
      (∀ call ∈ action.begins, platform.calls call = none) →
      Chronos.step env platform.system action = some system →
      { platform with system := system }.idsDistinct = true →
      PlatformStep env platform (.system action)
        { platform with system := system }

namespace Platform

variable {env : Env} {platform next : Platform} {call : CallId}
  {value : PlatformCall} {input : PlatformInput} {phase : PlatformPhase}

theorem phaseStep_of_resolve {user : UserId} {request : PlatformRequest}
    (resolved : platform.resolve request = some phase) :
    PhaseStep platform user request .resolve phase := by
  unfold Platform.resolve at resolved
  split at resolved
  · cases resolved
  · rename_i isGuard
    split at resolved <;> cases resolved
    · exact .refused nofun
    · exact .refused nofun
    · exact .resolved isGuard ‹_›

theorem phaseStep_of_checkRole {user : UserId} {request : PlatformRequest}
    {org : OrgId} (checked : platform.checkRole user request org = some phase) :
    PhaseStep platform user request (.role org) phase := by
  unfold Platform.checkRole at checked
  split at checked
  · cases checked
  · rename_i isGuard
    split at checked <;> cases checked
    · exact .refused nofun
    · exact .admitted isGuard (requireRole_eq_ok_iff.mp ‹_›)

theorem phaseStep_of_lookup {user : UserId} {request : PlatformRequest}
    (looked : platform.lookup user request = some phase) :
    PhaseStep platform user request .handle phase := by
  unfold Platform.lookup at looked
  split at looked
  · split at looked
    · split at looked <;> cases looked
      · exact .projectChecked rfl ‹_›
      · exact .refused nofun
    · cases looked
      exact .refused nofun
  · split at looked
    · split at looked <;> cases looked
      · exact .refused nofun
      · exact .queueChecked rfl ‹_›
    · cases looked
      exact .refused nofun
  · split at looked
    · split at looked <;> cases looked
      · exact .refused nofun
      · exact .updateChecked rfl ‹_›
    · cases looked
      exact .refused nofun
  · cases looked

private theorem platformStep_of_handle
    (called : platform.calls call = some value)
    (handling : value.phase = .handle)
    (taken : platform.proceed env call value .ok = some next) :
    PlatformStep env platform (.proceed call .ok) next := by
  unfold proceed at taken
  rw [handling] at taken
  dsimp only at taken
  split at taken
  · rename_i request isJob
    obtain ⟨system, opened, rfl⟩ := Option.map_eq_some_iff.mp taken
    cases Chronos.step_cases opened with
    | started starts absent =>
        cases starts
        exact .forwarded called handling isJob absent
  · obtain ⟨phase, looked, rfl⟩ := Option.map_eq_some_iff.mp taken
    exact .moved called (handling ▸ phaseStep_of_lookup looked)

private theorem platformStep_of_write
    (called : platform.calls call = some value)
    (writing : value.phase = .write)
    (taken : platform.proceed env call value input = some next) :
    PlatformStep env platform (.proceed call input) next := by
  replace taken : (platform.write value.request input).map (fun next =>
      next.1.setCall call { value with phase := .answered next.2 }) =
      some next := by
    unfold proceed at taken
    rw [writing] at taken
    exact taken
  obtain ⟨⟨written, reply⟩, success, rfl⟩ := Option.map_eq_some_iff.mp taken
  unfold Platform.write at success
  split at success
  · rename_i isRequest
    obtain ⟨created, stored, same⟩ := Option.map_eq_some_iff.mp success
    cases same
    exact .projectCreated called writing isRequest stored
  · rename_i isRequest
    obtain ⟨created, stored, same⟩ := Option.map_eq_some_iff.mp success
    cases same
    exact .queueCreated called writing isRequest stored
  · split at success <;> cases success
    exact .moved called (.refused (by rw [writing]; nofun))
  · rename_i isRequest
    cases success
    exact .queueUpdated called writing isRequest
  · cases success
    exact .moved called (.refused (by rw [writing]; nofun))
  · cases success

private theorem platformStep_of_proceed
    (called : platform.calls call = some value)
    (taken : platform.proceed env call value input = some next) :
    PlatformStep env platform (.proceed call input) next := by
  cases isPhase : value.phase with
  | write => exact platformStep_of_write called isPhase taken
  | forwarded =>
      unfold proceed at taken
      rw [isPhase] at taken
      cases taken
  | answered reply =>
      unfold proceed at taken
      rw [isPhase] at taken
      cases taken
  | resolve =>
      cases input with
      | ok =>
          unfold proceed at taken
          rw [isPhase] at taken
          obtain ⟨phase, resolved, rfl⟩ := Option.map_eq_some_iff.mp taken
          exact .moved called (isPhase ▸ phaseStep_of_resolve resolved)
      | created id apiKey =>
          unfold proceed at taken
          rw [isPhase] at taken
          cases taken
      | fail error =>
          unfold proceed at taken
          rw [isPhase] at taken
          cases error <;> cases taken
          exact .moved called (.refused (by rw [isPhase]; nofun))
  | role org =>
      cases input with
      | ok =>
          unfold proceed at taken
          rw [isPhase] at taken
          obtain ⟨phase, checked, rfl⟩ := Option.map_eq_some_iff.mp taken
          exact .moved called (isPhase ▸ phaseStep_of_checkRole checked)
      | created id apiKey =>
          unfold proceed at taken
          rw [isPhase] at taken
          cases taken
      | fail error =>
          unfold proceed at taken
          rw [isPhase] at taken
          cases error <;> cases taken
          exact .moved called (.refused (by rw [isPhase]; nofun))
  | handle =>
      cases input with
      | ok => exact platformStep_of_handle called isPhase taken
      | created id apiKey =>
          unfold proceed at taken
          rw [isPhase] at taken
          cases taken
      | fail error =>
          unfold proceed at taken
          rw [isPhase] at taken
          cases error <;> cases taken
          exact .moved called (.refused (by rw [isPhase]; nofun))

theorem step_cases {action : PlatformAction}
    (taken : platform.step env action = some next) :
    PlatformStep env platform action next := by
  cases action with
  | auth action =>
      obtain ⟨auth, success, rfl⟩ := Option.map_eq_some_iff.mp taken
      exact .auth success
  | request call user request =>
      simp only [Platform.step, Bool.and_eq_true, Option.isNone_iff_eq_none]
        at taken
      split at taken <;> cases taken
      rename_i absent
      exact .began absent.1 absent.2
  | proceed call input =>
      simp only [Platform.step] at taken
      split at taken
      · cases taken
      · exact platformStep_of_proceed ‹_› taken
  | system action =>
      simp only [Platform.step, Bool.and_eq_true] at taken
      split at taken
      · rename_i permitted
        obtain ⟨system, success, taken⟩ := Option.bind_eq_some_iff.mp taken
        split at taken <;> cases taken
        refine .system permitted.1 ?_ success ‹_›
        intro call begins
        have absent := permitted.2
        rw [begins] at absent
        exact Option.isNone_iff_eq_none.mp absent
      · cases taken

/-- A new deployment without users. -/
def deployed : Platform where
  auth := ⟨.empty, .empty, .empty, fun _ => false, [], fun _ => none⟩
  projects := .empty
  projectColumns := fun _ => ⟨"", "", 0⟩
  queueName := fun _ => ""
  queueColumns := fun _ => ⟨0, 0⟩
  fixed :=
    { policyProject := fun _ => 0
      policyName := fun _ => ""
      policyCreatedAt := fun _ => 0
      logId := ⟨id, Function.injective_id⟩
      deadLetterId := id
      workerHostname := fun _ => ""
      workerPid := fun _ => 0 }
  system := { World.sample 1 .empty with queues := .empty }.idle
  calls := fun _ => none

/-- A user registers: identifiers of the call, the user and the organization. -/
def registerActions (call : CallId) (user org : Nat) (email : String) :
    List PlatformAction :=
  [.auth (.register call ⟨email, "secret-password", some "team"⟩),
    .auth (.proceed call .ok), .auth (.proceed call (.hashed "hash")),
    .auth (.proceed call (.created user org call)),
    .auth (.proceed call .ok)]

def createProjectActions (call : CallId) (user org project : Nat) :
    List PlatformAction :=
  [.request call user (.createProject ⟨org, "shop"⟩), .proceed call .ok,
    .proceed call (.created project "key")]

def createQueueActions (call : CallId) (user project queue : Nat) :
    List PlatformAction :=
  [.request call user
      (.createQueue project ⟨"emails", none, some 2, none⟩),
    .proceed call .ok, .proceed call .ok, .proceed call .ok,
    .proceed call (.created queue "")]

/-- The guard lets the request through and its handler begins. -/
def forwardActions (call : CallId) (user : UserId) (request : Request) :
    List PlatformAction :=
  [.request call user (.job request), .proceed call .ok, .proceed call .ok,
    .proceed call .ok]

end Platform

end Chronos
