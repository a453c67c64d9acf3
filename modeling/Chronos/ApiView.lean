import Chronos.System
import Chronos.Tenancy

/-!
# The database behind a world

The world of the job life cycle leaves out the columns that only the API's
own endpoints read.  No step writes them after their row has been created, so
they are given beside the world, and the API sees both together.
-/

namespace Chronos

/-- The tables and columns that the world leaves out. -/
structure ApiColumns where
  memberships : Table (OrgId × UserId) OrgMemberRole
  projects : Table ProjectId Project
  policyProject : RetryPolicyId → ProjectId
  policyName : RetryPolicyId → String
  policyCreatedAt : RetryPolicyId → Time
  queueName : QueueId → String
  logId : Nat ↪ LogId
  deadLetterId : JobId → DeadLetterId
  workerHostname : WorkerId → String
  workerPid : WorkerId → Int

/-- What the API reads in this world.  No code writes the column
`jobs.cron_expression`. -/
def World.database (world : World) (columns : ApiColumns) : Database where
  memberships := columns.memberships
  projects := columns.projects
  retryPolicies := world.retryPolicies.mapValues fun id policy =>
    ⟨policy, columns.policyProject id, columns.policyName id,
      columns.policyCreatedAt id⟩
  queues := world.queues.mapValues fun id queue => ⟨queue, columns.queueName id⟩
  jobs := world.jobs.mapValues fun _ job => ⟨job, none⟩
  executions := world.executions
  logs := .ofList columns.logId world.logs
  deadLetters := world.deadLetters.mapValues fun job deadLetter =>
    ⟨deadLetter, columns.deadLetterId job⟩
  workers := world.workers.mapValues fun id worker =>
    ⟨worker, columns.workerHostname id, columns.workerPid id⟩

end Chronos
