import Chronos.Schema
import Chronos.Lib.Table

/-!
# Organizations and the rows they own

The API reads whole rows: besides the columns that the job life cycle uses
(`Chronos.Schema`), those that only its own endpoints look at.  Every project
belongs to an organization, and queues, retry policies, jobs, executions,
logs and dead letters belong to the organization of their project.
-/

namespace Chronos

abbrev UserId := Nat
abbrev OrgId := Nat
abbrev LogId := Nat
abbrev DeadLetterId := Nat

inductive OrgMemberRole where
  | owner
  | admin
  | member
  deriving DecidableEq, Repr

namespace OrgMemberRole

/-- The enumeration's text in the database and in messages. -/
def text : OrgMemberRole → String
  | .owner => "owner"
  | .admin => "admin"
  | .member => "member"

/-- `ROLE_HIERARCHY`. -/
def roleHierarchy : OrgMemberRole → Nat
  | .owner => 3
  | .admin => 2
  | .member => 1

end OrgMemberRole

structure Project where
  orgId : OrgId
  deriving DecidableEq

structure RetryPolicyRow extends RetryPolicy where
  projectId : ProjectId
  name : String
  createdAt : Time
  deriving DecidableEq

structure QueueRow extends Queue where
  name : String

structure JobRow extends Job where
  cronExpression : Option String

structure DeadLetterRow extends DeadLetterJob where
  id : DeadLetterId

structure WorkerRow extends Worker where
  hostname : String
  pid : Int

/-- The committed rows as the API sees them.  A membership is keyed by its
unique pair of organization and user, a dead letter by its job. -/
structure Database where
  memberships : Table (OrgId × UserId) OrgMemberRole
  projects : Table ProjectId Project
  retryPolicies : Table RetryPolicyId RetryPolicyRow
  queues : Table QueueId QueueRow
  jobs : Table JobId JobRow
  executions : Table ExecutionId JobExecution
  logs : Table LogId JobLog
  deadLetters : Table JobId DeadLetterRow
  workers : Table WorkerId WorkerRow

namespace Database

def isMember (db : Database) (user : UserId) (org : OrgId) : Bool :=
  (db.memberships.get? (org, user)).isSome

def orgOfProject (db : Database) (project : ProjectId) : Option OrgId :=
  (db.projects.get? project).map (·.orgId)

/-- `queue.project.orgId`. -/
def orgOfQueue (db : Database) (queue : QueueId) : Option OrgId :=
  (db.queues.get? queue).bind fun row => db.orgOfProject row.projectId

/-- `job.queue.project.orgId`. -/
def orgOfJob (db : Database) (job : JobId) : Option OrgId :=
  (db.jobs.get? job).bind fun row => db.orgOfQueue row.queueId

def orgOfExecution (db : Database) (execution : ExecutionId) : Option OrgId :=
  (db.executions.get? execution).bind fun row => db.orgOfJob row.jobId

/-- Primary keys are globally unique texts; no project, queue or job has the
identifier of a row of another kind. -/
structure DistinctIds (db : Database) : Prop where
  projectQueue : ∀ {id : Nat}, (db.projects.get? id).isSome →
    db.queues.get? id = none
  projectJob : ∀ {id : Nat}, (db.projects.get? id).isSome →
    db.jobs.get? id = none
  queueJob : ∀ {id : Nat}, (db.queues.get? id).isSome → db.jobs.get? id = none

end Database

/-! ## Errors of the API -/

/-- The errors of `lib/errors.ts`, as the global error handler answers
them. -/
structure ChronosError where
  code : String
  message : String
  statusCode : Nat
  deriving DecidableEq

def notFoundError (message : String) : ChronosError :=
  ⟨"NOT_FOUND", message, 404⟩

def unauthorizedError (message : String) : ChronosError :=
  ⟨"UNAUTHORIZED", message, 401⟩

def forbiddenError (message : String) : ChronosError :=
  ⟨"FORBIDDEN", message, 403⟩

/-- The answer to any other error. -/
def internalError : ChronosError :=
  ⟨"INTERNAL_ERROR", "An unexpected error occurred in Chronos", 500⟩

end Chronos
