import Chronos.World

/-!
# The scheduler tick

`tick` of `worker/src/scheduler.ts`: every due definition is materialized by
creating a job and then advancing `next_run_at`, as two separate statements.
The cron parser and the database client's check of a template's priority are
third-party code and enter as parameters.
-/

namespace Chronos

/-- What the scheduler uses of `croner`: `new Cron(expression)` throws
(`none`), or `nextRun()` is an instant strictly after now, or `null`. -/
structure CronLibrary where
  nextRun : String → Time → Option (Option Time)
  later : ∀ {expression now next},
    nextRun expression now = some (some next) → now < next

/-- What it uses of the database client as well: the integer that
`prisma.job.create` stores for a number given as `priority`, or `none` where it
refuses the number.  An integer of the column's 32 bits is stored as it is. -/
structure SchedulerLibrary extends CronLibrary where
  priority : Rat → Option Int
  int32 : ∀ {value : Int}, -2147483648 ≤ value → value < 2147483648 →
    priority value = some value

/-- The template of a job, once `isJobTemplate` has accepted it. -/
structure JobTemplate where
  type : String
  payload : Option Json
  priority : Option Json
  retryPolicyId : Option Json

def isJobTemplate (value : Json) : Option JobTemplate :=
  match value.field? "type" with
  | some (.str type) =>
      some ⟨type, value.field? "payload", value.field? "priority",
        value.field? "retryPolicyId"⟩
  | _ => none

namespace JobTemplate

/-- `template.priority ?? 0`, refused unless it is a number that the client
stores. -/
def priorityColumn (library : SchedulerLibrary) (template : JobTemplate) :
    Option Int :=
  match Json.orElse template.priority (.num 0) with
  | .num value => library.priority value
  | _ => none

/-- `template.retryPolicyId ?? null`, refused unless it is text or null. -/
def retryPolicyColumn (template : JobTemplate) :
    Option (Option RetryPolicyId) :=
  match Json.orElse template.retryPolicyId .null with
  | .null => some none
  | .str policy => some (some policy)
  | _ => none

/-- The row that `prisma.job.create` inserts, if it accepts its arguments. -/
def job (library : SchedulerLibrary) (template : JobTemplate)
    (queueId : QueueId) (now : Time) : Option Job :=
  match template.priorityColumn library, template.retryPolicyColumn with
  | some priority, some retryPolicyId =>
      some
        { queueId := queueId, type := template.type
          payload := Json.orElse template.payload (.obj [])
          status := .queued, priority := priority, runAt := now
          batchId := none, attemptCount := 0, retryPolicyId := retryPolicyId
          idempotencyKey := none, createdAt := now, updatedAt := now }
  | _, _ => none

end JobTemplate

/-- A definition as the tick read it. -/
structure DueJob where
  id : ScheduledJobId
  row : ScheduledJob

/-- What a tick awaits; `defs` are the definitions still to come. -/
inductive TickPhase where
  | findDue (now : Time)
  | evaluate (defs : List DueJob)
  | deactivate (due : DueJob) (defs : List DueJob)
  | createJob (due : DueJob) (job : Job) (nextRun : Time) (defs : List DueJob)
  | advance (due : DueJob) (newJob : JobId) (nextRun : Time)
      (defs : List DueJob)
  | publish (due : DueJob) (newJob : JobId) (defs : List DueJob)

structure TickCall where
  workerId : WorkerId
  phase : TickPhase

inductive TickInput where
  | ok
  | rows (order : List ScheduledJobId)
  | created (id : JobId)
  | fail

namespace World

/-- `{ isActive: true, nextRunAt: { lte: now } }`. -/
def dueJobs (world : World) (now : Time) : List ScheduledJobId :=
  world.scheduledJobs.keysWhere fun _ row =>
    row.isActive && row.nextRunAt.any fun next => decide (next ≤ now)

def dueJob (world : World) (id : ScheduledJobId) : Option DueJob :=
  (world.scheduledJobs.get? id).map fun row => ⟨id, row⟩

def deactivate (world : World) (id : ScheduledJobId) : World :=
  { world with
    scheduledJobs := world.scheduledJobs.modify id fun row =>
      { row with isActive := false } }

def advance (world : World) (id : ScheduledJobId) (nextRun : Time) : World :=
  { world with
    scheduledJobs := world.scheduledJobs.modify id fun row =>
      { row with lastRunAt := some world.now, nextRunAt := some nextRun } }

def publishMaterialized (world : World) (due : DueJob) (newJob : JobId) :
    World :=
  world.publish
    { event := "job:created", jobId := some newJob, status := none,
      queueId := due.row.queueId, projectId := none, batchId := none,
      scheduledJobId := some due.id, timestamp := world.now }

end World

/-- The synchronous head of the loop body: check the template, parse the
expression and compute the next run before anything is written. -/
def evaluateDefinition (library : SchedulerLibrary) (world : World) (due : DueJob)
    (defs : List DueJob) : TickPhase :=
  match isJobTemplate due.row.jobTemplate with
  | none => .evaluate defs
  | some template =>
      match library.nextRun due.row.cronExpression world.now with
      | none => .evaluate defs
      | some none => .deactivate due defs
      | some (some nextRun) =>
          match template.job library due.row.queueId world.now with
          | none => .evaluate defs
          | some job => .createJob due job nextRun defs

/-- One step of `tick`.  A failure in the body of the loop is caught there. -/
def tick (library : SchedulerLibrary) (world : World) (call : TickCall) :
    TickInput → Option (World × Option TickCall)
  | input =>
      let goto (phase : TickPhase) : Option TickCall :=
        some { call with phase := phase }
      match call.phase, input with
      | .findDue now, .rows order =>
          if order.Perm (world.dueJobs now) then
            some (world, goto (.evaluate (order.filterMap world.dueJob)))
          else none
      | .findDue _, .fail => some (world, none)
      | .evaluate [], .ok => some (world, none)
      | .evaluate (due :: defs), .ok =>
          some (world, goto (evaluateDefinition library world due defs))
      | .deactivate due defs, .ok =>
          some (world.deactivate due.id, goto (.evaluate defs))
      | .createJob due job nextRun defs, .created id =>
          (world.createJob id job).map fun next =>
            (next, goto (.advance due id nextRun defs))
      | .advance due newJob nextRun defs, .ok =>
          some (world.advance due.id nextRun,
            goto (.publish due newJob defs))
      | .publish due newJob defs, .ok =>
          some (world.publishMaterialized due newJob, goto (.evaluate defs))
      | .deactivate _ defs, .fail => some (world, goto (.evaluate defs))
      | .createJob _ _ _ defs, .fail => some (world, goto (.evaluate defs))
      | .advance _ _ _ defs, .fail => some (world, goto (.evaluate defs))
      | .publish _ _ defs, .fail => some (world, goto (.evaluate defs))
      | _, _ => none

end Chronos
