import Chronos.JobReads

/-!
# What the job reads send

Fastify writes the value that a handler passes to `reply.send` with a
serializer which it compiles from the response schema that the route declares
for status 200; for an error no schema is declared.  Of the serializer it is
used that it writes the properties that the schema declares and no others, so
that `{ type: 'object' }` leaves an empty object.
-/

namespace Chronos

/-- The part of JSON Schema in the response schemas of the job reads. -/
inductive ResponseSchema where
  | object (properties : List (String × ResponseSchema))
  | array (items : ResponseSchema)

namespace ResponseSchema

mutual

/-- The part of a value that the schema declares. -/
def declared : ResponseSchema → Json → Json
  | .object properties, .obj fields =>
      .obj (declaredFields properties (.obj fields))
  | .array items, .arr values => .arr (values.map (declared items))
  | _, value => value

def declaredFields : List (String × ResponseSchema) → Json →
    List (String × Json)
  | [], _ => []
  | (name, schema) :: rest, value =>
      match value.field? name with
      | some field => (name, schema.declared field) :: declaredFields rest value
      | none => declaredFields rest value

end

end ResponseSchema

/-- The compiled serializers: what they write depends on the declared part of
the value only. -/
structure Serializer where
  serialize : ResponseSchema → Json → String
  onlyDeclared : ∀ {schema left right},
    schema.declared left = schema.declared right →
    serialize schema left = serialize schema right

/-- Ids and dates as the texts that stand in JSON. -/
structure JsonTexts where
  id : Nat → String
  toISOString : Time → String

/-! ## The bodies as JSON -/

namespace RetryStrategy

def text : RetryStrategy → String
  | .fixed => "fixed"
  | .linear => "linear"
  | .exponential => "exponential"

end RetryStrategy

namespace ExecutionStatus

def text : ExecutionStatus → String
  | .running => "running"
  | .completed => "completed"
  | .failed => "failed"

end ExecutionStatus

namespace Json

def ofInt (value : Int) : Json := .num value

def ofOption {α : Type} (encode : α → Json) : Option α → Json
  | none => .null
  | some value => encode value

end Json

section Bodies

variable (texts : JsonTexts)

def PaginationMeta.toJson (pagination : PaginationMeta) : Json :=
  .obj [("page", .ofInt pagination.page), ("limit", .ofInt pagination.limit),
    ("total", .ofInt pagination.total),
    ("totalPages", .ofInt pagination.totalPages)]

def JobSummary.toJson (job : JobSummary) : Json :=
  .obj [("id", .str (texts.id job.id)),
    ("queueId", .str (texts.id job.queueId)),
    ("queueName", .str job.queueName),
    ("projectId", .str (texts.id job.projectId)),
    ("type", .str job.type),
    ("status", .str job.status.text),
    ("priority", .ofInt job.priority),
    ("runAt", .str (texts.toISOString job.runAt)),
    ("batchId", .ofOption .str job.batchId),
    ("attemptCount", .ofInt job.attemptCount),
    ("idempotencyKey", .ofOption .str job.idempotencyKey),
    ("createdAt", .str (texts.toISOString job.createdAt)),
    ("updatedAt", .str (texts.toISOString job.updatedAt)),
    ("executionCount", .ofInt job.executionCount)]

/-- A row of `retry_policies`. -/
def RetryPolicyRow.toJson (id : RetryPolicyId) (row : RetryPolicyRow) : Json :=
  .obj [("id", .str id),
    ("projectId", .str (texts.id row.projectId)),
    ("name", .str row.name),
    ("strategy", .str row.strategy.text),
    ("baseDelayMs", .ofInt row.baseDelayMs),
    ("maxDelayMs", .ofInt row.maxDelayMs),
    ("maxAttempts", .ofInt row.maxAttempts),
    ("createdAt", .str (texts.toISOString row.createdAt))]

/-- A row of `job_logs`. -/
def JobLog.toJson (id : LogId) (log : JobLog) : Json :=
  .obj [("id", .str (texts.id id)),
    ("executionId", .str (texts.id log.executionId)),
    ("timestamp", .str (texts.toISOString log.timestamp)),
    ("level", .str log.level),
    ("message", .str log.message)]

/-- A row of `job_executions` with its logs. -/
def ExecutionRow.toJson (execution : ExecutionRow) : Json :=
  .obj [("id", .str (texts.id execution.id)),
    ("jobId", .str (texts.id execution.row.jobId)),
    ("workerId", .str (texts.id execution.row.workerId)),
    ("attemptNumber", .ofInt execution.row.attemptNumber),
    ("startedAt", .str (texts.toISOString execution.row.startedAt)),
    ("finishedAt", .ofOption (fun time => .str (texts.toISOString time))
      execution.row.finishedAt),
    ("status", .str execution.row.status.text),
    ("errorMessage", .ofOption .str execution.row.errorMessage),
    ("durationMs", .ofOption .ofInt execution.row.durationMs),
    ("logs", .arr (execution.logs.map fun log => log.2.toJson texts log.1))]

/-- A row of `dead_letter_jobs`. -/
def DeadLetterRow.toJson (job : JobId) (row : DeadLetterRow) : Json :=
  .obj [("id", .str (texts.id row.id)),
    ("originalJobId", .str (texts.id job)),
    ("queueId", .str (texts.id row.queueId)),
    ("payload", row.payload),
    ("failureReason", .str row.failureReason),
    ("attemptCount", .ofInt row.attemptCount),
    ("movedAt", .str (texts.toISOString row.movedAt))]

def JobDetail.toJson (job : JobDetail) : Json :=
  .obj [("id", .str (texts.id job.id)),
    ("queueId", .str (texts.id job.queueId)),
    ("queueName", .str job.queueName),
    ("projectId", .str (texts.id job.projectId)),
    ("type", .str job.type),
    ("payload", job.payload),
    ("status", .str job.status.text),
    ("priority", .ofInt job.priority),
    ("runAt", .str (texts.toISOString job.runAt)),
    ("cronExpression", .ofOption .str job.cronExpression),
    ("batchId", .ofOption .str job.batchId),
    ("attemptCount", .ofInt job.attemptCount),
    ("retryPolicyId", .ofOption .str job.retryPolicyId),
    ("retryPolicy", .ofOption (fun policy => policy.2.toJson texts policy.1)
      job.retryPolicy),
    ("idempotencyKey", .ofOption .str job.idempotencyKey),
    ("createdAt", .str (texts.toISOString job.createdAt)),
    ("updatedAt", .str (texts.toISOString job.updatedAt)),
    ("latestExecution", .ofOption (ExecutionRow.toJson texts)
      job.latestExecution),
    ("deadLetter", .ofOption (fun letter => letter.2.toJson texts letter.1)
      job.deadLetter)]

def WorkerRef.toJson (worker : WorkerRef) : Json :=
  .obj [("id", .str (texts.id worker.id)), ("hostname", .str worker.hostname),
    ("pid", .ofInt worker.pid)]

def LogLine.toJson (log : LogLine) : Json :=
  .obj [("id", .str (texts.id log.id)), ("level", .str log.level),
    ("message", .str log.message),
    ("timestamp", .str (texts.toISOString log.timestamp))]

def ExecutionItem.toJson (execution : ExecutionItem) : Json :=
  .obj [("id", .str (texts.id execution.id)),
    ("jobId", .str (texts.id execution.jobId)),
    ("attemptNumber", .ofInt execution.attemptNumber),
    ("status", .str execution.status.text),
    ("workerId", .str (texts.id execution.workerId)),
    ("worker", .ofOption (WorkerRef.toJson texts) execution.worker),
    ("startedAt", .str (texts.toISOString execution.startedAt)),
    ("finishedAt", .ofOption (fun time => .str (texts.toISOString time))
      execution.finishedAt),
    ("durationMs", .ofOption .ofInt execution.durationMs),
    ("errorMessage", .ofOption .str execution.errorMessage),
    ("logs", .arr (execution.logs.map (LogLine.toJson texts)))]

def LogItem.toJson (log : LogItem) : Json :=
  .obj [("id", .str (texts.id log.id)),
    ("executionId", .str (texts.id log.executionId)),
    ("attemptNumber", .ofInt log.attemptNumber),
    ("workerId", .str (texts.id log.workerId)),
    ("level", .str log.level),
    ("message", .str log.message),
    ("timestamp", .str (texts.toISOString log.timestamp))]

/-- The argument of `reply.send`. -/
def ReadBody.toJson : ReadBody → Json
  | .jobs data pagination =>
      .obj [("data", .arr (data.map (JobSummary.toJson texts))),
        ("meta", pagination.toJson)]
  | .job detail => detail.toJson texts
  | .executions data pagination =>
      .obj [("data", .arr (data.map (ExecutionItem.toJson texts))),
        ("meta", pagination.toJson)]
  | .logs data pagination =>
      .obj [("data", .arr (data.map (LogItem.toJson texts))),
        ("meta", pagination.toJson)]

end Bodies

/-! ## The routes -/

/-- `{ data: { type: 'array', items: { type: 'object' } },
meta: { type: 'object' } }`. -/
def ResponseSchema.page : ResponseSchema :=
  .object [("data", .array (.object [])), ("meta", .object [])]

/-- `response: { 200: … }` of the route. -/
def ReadRequest.responseSchema : ReadRequest → ResponseSchema
  | .jobs _ => .page
  | .job _ => .object []
  | .executions _ _ _ => .page
  | .logs _ _ _ => .page

/-- The body of a successful answer, or the error. -/
abbrev ReadResponse := Except ChronosError String

/-- The user can receive this response. -/
def Database.Responds (serializer : Serializer) (texts : JsonTexts)
    (prisma : Prisma) (db : Database) (user : UserId) (request : ReadRequest)
    (response : ReadResponse) : Prop :=
  ∃ reply, db.Answers prisma user request reply ∧
    response = reply.map fun body =>
      serializer.serialize request.responseSchema (body.toJson texts)

/-- Nothing of a job is declared, so that all of them are written alike. -/
theorem Serializer.serialize_job (serializer : Serializer) (texts : JsonTexts)
    (id : JobId) (first second : JobDetail) :
    serializer.serialize (ReadRequest.job id).responseSchema
        ((ReadBody.job first).toJson texts) =
      serializer.serialize (ReadRequest.job id).responseSchema
        ((ReadBody.job second).toJson texts) := by
  apply serializer.onlyDeclared
  simp only [ReadRequest.responseSchema, ReadBody.toJson, JobDetail.toJson,
    ResponseSchema.declared, ResponseSchema.declaredFields]

end Chronos
