import Chronos.Idempotency

/-!
# A batch of one

The two submission endpoints of `api/src/routes/jobs.ts` on the same job, each
request handled from its start to its answer without interruption and without
a failing call: the database refuses an insertion only for what its tables
hold.  The batch takes the retry policy of the queue in any case.
-/

namespace Chronos

/-- What `batchJobSchema` keeps of a body; keys that it does not declare are
stripped. -/
def CreateJobBody.inBatch (body : CreateJobBody) : BatchJobBody where
  type := body.type
  payload := body.payload
  runAt := body.runAt
  priority := body.priority
  idempotencyKey := body.idempotencyKey

/-- The answer of the database to the insertion of one job. -/
def World.insertionAnswer (world : World) (id : JobId) (row : Job) : ApiInput :=
  if (world.createJob id row).isSome then .created [id]
  else if world.keyTaken row.queueId row.idempotencyKey then
    .fail .uniqueViolation
  else .fail .other

/-- How the call that the request awaits turns out. -/
def SubmitPhase.outcome (world : World) (id : JobId) : SubmitPhase → ApiInput
  | .createScheduled _ _ => .created [id]
  | .createJob _ row => world.insertionAnswer id row
  | _ => .ok

def BatchPhase.outcome (world : World) (id : JobId) (batchId : String) :
    BatchPhase → ApiInput
  | .findQueue => .nonce batchId
  | .createJobs _ _ [row] => world.insertionAnswer id row
  | _ => .ok

def SubmitPhase.httpStatus : SubmitPhase → Option Nat
  | .answered status => some status
  | _ => none

def BatchPhase.httpStatus : BatchPhase → Option Nat
  | .answered status => some status
  | _ => none

/-- Handle a request to its answer, in at most this many steps. -/
def respond {κ : Type} (step : World → κ → Option (World × κ))
    (httpStatus : κ → Option Nat) : Nat → World → κ → Option (World × Nat)
  | 0, world, call => (httpStatus call).map fun status => (world, status)
  | steps + 1, world, call =>
      match httpStatus call with
      | some status => some (world, status)
      | none =>
          (step world call).bind fun next =>
            respond step httpStatus steps next.1 next.2

namespace World

/-- `POST /queues/:queueId/jobs` as a whole. -/
def submitAlone (world : World) (queueId : QueueId) (body : CreateJobBody)
    (id : JobId) : Option (World × Nat) :=
  respond (fun world call => submitJob world call (call.phase.outcome world id))
    (fun call => call.phase.httpStatus) 4 world ⟨queueId, body, .findQueue⟩

/-- `POST /queues/:queueId/jobs/batch` with one job as a whole. -/
def submitBatchOf (world : World) (queueId : QueueId) (body : BatchJobBody)
    (id : JobId) (batchId : String) : Option (World × Nat) :=
  respond (fun world call =>
      submitBatch world call (call.phase.outcome world id batchId))
    (fun call => call.phase.httpStatus) 4 world ⟨queueId, [body], .findQueue⟩

/-- The world and the HTTP status once the database has answered to the
insertion of a job: a message follows a success. -/
def inserted (world : World) (id : JobId) (row : Job) (message : World → World) :
    World × Nat :=
  match world.createJob id row with
  | some next => (message next, 201)
  | none => (world, if world.keyTaken row.queueId row.idempotencyKey then 409
      else 500)

end World

/-! ## Handling a request -/

section Serve

variable {κ : Type} {step : World → κ → Option (World × κ)}
  {httpStatus : κ → Option Nat} {world : World} {call : κ}

theorem respond_answered {status : Nat} (answered : httpStatus call = some status)
    {steps : Nat} :
    respond step httpStatus steps world call = some (world, status) := by
  cases steps with
  | zero => rw [respond, answered, Option.map_some]
  | succ steps => rw [respond, answered]

theorem respond_step {next : World} {call' : κ} {steps : Nat}
    {result : Option (World × Nat)} (pending : httpStatus call = none)
    (taken : step world call = some (next, call'))
    (rest : respond step httpStatus steps next call' = result) :
    respond step httpStatus (steps + 1) world call = result := by
  rw [respond, pending, taken, Option.bind_some]
  exact rest

end Serve

/-! ## The two requests -/

section Requests

variable {world : World} {queueId : QueueId} {queue : Queue} {id : JobId}

theorem createJob_of_keyTaken {row : Job}
    (taken : world.keyTaken row.queueId row.idempotencyKey = true) :
    world.createJob id row = none := by
  rw [World.createJob, if_pos taken]

theorem inserted_of_keyTaken {row : Job} (message : World → World)
    (taken : world.keyTaken row.queueId row.idempotencyKey = true) :
    world.inserted id row message = (world, 409) := by
  rw [World.inserted, createJob_of_keyTaken taken, if_pos taken]

theorem inserted_of_some {row : Job} {next : World} (message : World → World)
    (created : world.createJob id row = some next) :
    world.inserted id row message = (message next, 201) := by
  rw [World.inserted, created]

theorem insertionAnswer_of_none {row : Job}
    (refused : world.createJob id row = none) :
    world.insertionAnswer id row =
      if world.keyTaken row.queueId row.idempotencyKey then
        .fail .uniqueViolation
      else .fail .other := by
  rw [World.insertionAnswer, refused]
  rfl

theorem insertionAnswer_of_some {row : Job} {next : World}
    (created : world.createJob id row = some next) :
    world.insertionAnswer id row = .created [id] := by
  rw [World.insertionAnswer, created]
  rfl

theorem respond_createJob (body : CreateJobBody) {row : Job}
    (home : row.queueId = queueId) {steps : Nat} :
    respond (fun world call => submitJob world call (call.phase.outcome world id))
        (fun call : SubmitCall => call.phase.httpStatus) (steps + 2) world
        ⟨queueId, body, .createJob queue row⟩ =
      some (world.inserted id row fun next =>
        next.publishApi "" id (some row.status.text) queueId queue.projectId
          none none) := by
  subst home
  cases created : world.createJob id row with
  | some next =>
      rw [inserted_of_some _ created]
      have inserts : submitJob world ⟨row.queueId, body, .createJob queue row⟩
          (world.insertionAnswer id row) =
            some (next, ⟨row.queueId, body, .publishJob queue id row⟩) := by
        rw [insertionAnswer_of_some created]
        simp only [submitJob, created]
      apply respond_step rfl inserts
      apply respond_step rfl rfl
      apply respond_answered
      rfl
  | none =>
      have refuses : submitJob world ⟨row.queueId, body, .createJob queue row⟩
          (world.insertionAnswer id row) =
            some (world, ⟨row.queueId, body, .answered
              (if world.keyTaken row.queueId row.idempotencyKey then 409
                else 500)⟩) := by
        rw [insertionAnswer_of_none created]
        cases taken : world.keyTaken row.queueId row.idempotencyKey with
        | true => simp [submitJob, taken]
        | false => rfl
      rw [World.inserted, created]
      apply respond_step rfl refuses
      apply respond_answered
      rfl

theorem afterKeyCheck_of_noCron {body : CreateJobBody} {now : Time}
    (noCron : truthy body.cronExpression = false) :
    afterKeyCheck queueId body queue now =
      .createJob queue (body.job queueId queue now) := by
  have checked := afterKeyCheck_cases queueId body queue now
  generalize afterKeyCheck queueId body queue now = phase at checked
  cases checked with
  | oneShot => rfl
  | cron given notEmpty => simp [given, truthy, notEmpty] at noCron
  | malformed given notEmpty => simp [given, truthy, notEmpty] at noCron

/-- The endpoint for one job inserts the row, refuses a taken key, and reports
any other refusal as an internal error. -/
theorem submitAlone_eq (found : world.queues.get? queueId = some queue)
    {body : CreateJobBody} (noCron : truthy body.cronExpression = false) :
    world.submitAlone queueId body id =
      some (world.inserted id (body.job queueId queue world.now)
        fun next => next.publishApi "" id
          (some (body.job queueId queue world.now).status.text) queueId
          queue.projectId none none) := by
  have checked : afterKeyCheck queueId body queue world.now =
      .createJob queue (body.job queueId queue world.now) :=
    afterKeyCheck_of_noCron noCron
  have home : (body.job queueId queue world.now).queueId = queueId := rfl
  cases keyed : truthy body.idempotencyKey with
  | false =>
      have looked : submitJob world ⟨queueId, body, .findQueue⟩ .ok =
          some (world, ⟨queueId, body,
            .createJob queue (body.job queueId queue world.now)⟩) := by
        simp [submitJob, found, keyed, checked]
      apply respond_step rfl looked
      exact respond_createJob body home
  | true =>
      have looked : submitJob world ⟨queueId, body, .findQueue⟩ .ok =
          some (world, ⟨queueId, body, .findKey queue⟩) := by
        simp [submitJob, found, keyed]
      apply respond_step rfl looked
      cases taken : world.keyTaken queueId body.idempotencyKey with
      | true =>
          have conflicts : submitJob world ⟨queueId, body, .findKey queue⟩ .ok =
              some (world, ⟨queueId, body, .answered 409⟩) := by
            simp [submitJob, taken]
          rw [inserted_of_keyTaken _ taken]
          apply respond_step rfl conflicts
          apply respond_answered
          rfl
      | false =>
          have free : submitJob world ⟨queueId, body, .findKey queue⟩ .ok =
              some (world, ⟨queueId, body,
                .createJob queue (body.job queueId queue world.now)⟩) := by
            simp [submitJob, taken, checked]
          apply respond_step rfl free
          exact respond_createJob body home

theorem respond_createJobs (jobs : List BatchJobBody) (batchId : String)
    (row : Job) {steps : Nat} :
    respond (fun world call =>
          submitBatch world call (call.phase.outcome world id batchId))
        (fun call : BatchCall => call.phase.httpStatus) (steps + 2) world
        ⟨queueId, jobs, .createJobs queue batchId [row]⟩ =
      some (world.inserted id row fun next =>
        next.publishApi "batch:created" none none queueId queue.projectId
          (some batchId) none) := by
  cases created : world.createJob id row with
  | some next =>
      rw [inserted_of_some _ created]
      have inserts : submitBatch world
          ⟨queueId, jobs, .createJobs queue batchId [row]⟩
          (world.insertionAnswer id row) =
            some (next, ⟨queueId, jobs, .publish queue batchId⟩) := by
        rw [insertionAnswer_of_some created]
        simp [submitBatch, World.createJobs_single, created]
      apply respond_step rfl inserts
      apply respond_step rfl rfl
      apply respond_answered
      rfl
  | none =>
      have refuses : submitBatch world
          ⟨queueId, jobs, .createJobs queue batchId [row]⟩
          (world.insertionAnswer id row) =
            some (world, ⟨queueId, jobs, .answered
              (if world.keyTaken row.queueId row.idempotencyKey then 409
                else 500)⟩) := by
        rw [insertionAnswer_of_none created]
        cases world.keyTaken row.queueId row.idempotencyKey with
        | true => rfl
        | false => rfl
      rw [World.inserted, created]
      apply respond_step rfl refuses
      apply respond_answered
      rfl

/-- The endpoint for a batch treats a batch of one in the same way. -/
theorem submitBatchOf_eq (found : world.queues.get? queueId = some queue)
    (body : BatchJobBody) (batchId : String) :
    world.submitBatchOf queueId body id batchId =
      some (world.inserted id (body.job queueId queue batchId world.now)
        fun next => next.publishApi "batch:created" none none queueId
          queue.projectId (some batchId) none) := by
  cases keyed : truthy body.idempotencyKey with
  | false =>
      have looked : submitBatch world ⟨queueId, [body], .findQueue⟩
          (.nonce batchId) =
            some (world, ⟨queueId, [body], .createJobs queue batchId
              [body.job queueId queue batchId world.now]⟩) := by
        simp [submitBatch, found, BatchCall.keysInBatch, BatchCall.jobData,
          keyed]
      apply respond_step rfl looked
      exact respond_createJobs [body] batchId _
  | true =>
      have looked : submitBatch world ⟨queueId, [body], .findQueue⟩
          (.nonce batchId) =
            some (world, ⟨queueId, [body],
              .findKeys queue batchId world.now⟩) := by
        simp [submitBatch, found, BatchCall.keysInBatch, keyed]
      apply respond_step rfl looked
      cases taken : world.keyTaken queueId body.idempotencyKey with
      | true =>
          have conflicts : submitBatch world
              ⟨queueId, [body], .findKeys queue batchId world.now⟩ .ok =
                some (world, ⟨queueId, [body], .answered 409⟩) := by
            simp [submitBatch, BatchCall.keysInBatch, keyed, taken]
          rw [inserted_of_keyTaken _ taken]
          apply respond_step rfl conflicts
          apply respond_answered
          rfl
      | false =>
          have free : submitBatch world
              ⟨queueId, [body], .findKeys queue batchId world.now⟩ .ok =
                some (world, ⟨queueId, [body], .createJobs queue batchId
                  [body.job queueId queue batchId world.now]⟩) := by
            simp [submitBatch, BatchCall.keysInBatch, BatchCall.jobData, keyed,
              taken]
          apply respond_step rfl free
          exact respond_createJobs [body] batchId _

end Requests

/-! ## Agreement -/

/-- Both requests are refused as duplicates and store nothing. -/
structure BothConflict (world : World) (alone inBatch : World × Nat) :
    Prop where
  aloneStatus : alone.2 = 409
  batchStatus : inBatch.2 = 409
  aloneUnchanged : alone.1 = world
  batchUnchanged : inBatch.1 = world

/-- Both requests succeed and store one row each. -/
structure BothCreate (world : World) (alone inBatch : World × Nat)
    (id id' : JobId) (row row' : Job) : Prop where
  aloneStatus : alone.2 = 201
  batchStatus : inBatch.2 = 201
  aloneRow : world.jobs.insert? id row = some alone.1.jobs
  batchRow : world.jobs.insert? id' row' = some inBatch.1.jobs

/-- The body fares alike alone and as the only element of a batch: the rows
differ in the batch alone, and the same retry policy applies to them. -/
def FaresAlike (world : World) (queueId : QueueId) (body : CreateJobBody) :
    Prop :=
  ∀ id id' batchId, world.jobs.get? id = none → world.jobs.get? id' = none →
    ∃ alone inBatch, world.submitAlone queueId body id = some alone ∧
      world.submitBatchOf queueId body.inBatch id' batchId = some inBatch ∧
      (BothConflict world alone inBatch ∨
        ∃ row, BothCreate world alone inBatch id id' row
            { row with batchId := some batchId } ∧
          alone.1.retryPolicyOf row =
            inBatch.1.retryPolicyOf { row with batchId := some batchId })

/-- The policy that a column names, if it names one, exists. -/
def World.Knows (world : World) (policy : Option RetryPolicyId) : Prop :=
  ∀ id ∈ policy, (world.retryPolicies.get? id).isSome = true

section Agreement

variable {world : World} {queueId : QueueId} {queue : Queue}

theorem exists_createJob {id : JobId} {row : Job}
    (free : world.keyTaken row.queueId row.idempotencyKey = false)
    (found : world.queues.get? row.queueId = some queue)
    (known : world.Knows row.retryPolicyId)
    (fresh : world.jobs.get? id = none) :
    ∃ jobs, world.jobs.insert? id (row.stamped world.now) = some jobs ∧
      world.createJob id row = some { world with jobs := jobs } := by
  obtain ⟨jobs, inserted⟩ := Table.exists_insert? (row.stamped world.now) fresh
  refine ⟨jobs, inserted, ?_⟩
  have present : (row.retryPolicyId.any fun policy =>
      (world.retryPolicies.get? policy).isNone) = false := by
    rw [Option.any_eq_false]
    intro policy names
    simpa using known policy names
  have stamped : world.jobs.insert? id
      { row with createdAt := world.now, updatedAt := world.now } =
        some jobs := inserted
  simp [World.createJob, free, found, present, stamped]

/-- A job without a cron expression and with a known retry policy fares alike
alone and in a batch, except that the batch stores the policy of its queue. -/
theorem batch_of_one (found : world.queues.get? queueId = some queue)
    (default_known : world.Knows queue.defaultRetryPolicyId)
    (body : CreateJobBody) (noCron : truthy body.cronExpression = false)
    (known : world.Knows body.retryPolicyId) {id id' : JobId}
    (fresh : world.jobs.get? id = none) (fresh' : world.jobs.get? id' = none)
    (batchId : String) :
    ∃ alone inBatch, world.submitAlone queueId body id = some alone ∧
      world.submitBatchOf queueId body.inBatch id' batchId = some inBatch ∧
      (BothConflict world alone inBatch ∨
        ∃ row row', BothCreate world alone inBatch id id' row row' ∧
          row' =
            { row with
              batchId := some batchId
              retryPolicyId := queue.defaultRetryPolicyId } ∧
          row.retryPolicyId =
            body.retryPolicyId.or queue.defaultRetryPolicyId ∧
          (row.retryPolicyId = queue.defaultRetryPolicyId →
            alone.1.retryPolicyOf row = inBatch.1.retryPolicyOf row')) := by
  refine ⟨_, _, submitAlone_eq found noCron, submitBatchOf_eq found _ _, ?_⟩
  cases taken : world.keyTaken queueId body.idempotencyKey with
  | true =>
      left
      rw [inserted_of_keyTaken _ taken, inserted_of_keyTaken _ taken]
      exact ⟨rfl, rfl, rfl, rfl⟩
  | false =>
      right
      have knownRow :
          world.Knows (body.retryPolicyId.or queue.defaultRetryPolicyId) := by
        intro policy names
        rcases Option.or_eq_some_iff.mp names with own | ⟨_, ofQueue⟩
        · exact known policy own
        · exact default_known policy ofQueue
      obtain ⟨jobs, stored, created⟩ :
          ∃ jobs, world.jobs.insert? id
                ((body.job queueId queue world.now).stamped world.now) =
              some jobs ∧
            world.createJob id (body.job queueId queue world.now) =
              some { world with jobs := jobs } :=
        exists_createJob taken found knownRow fresh
      obtain ⟨jobs', stored', created'⟩ :
          ∃ jobs, world.jobs.insert? id'
                ((body.inBatch.job queueId queue batchId world.now).stamped
                  world.now) =
              some jobs ∧
            world.createJob id'
                (body.inBatch.job queueId queue batchId world.now) =
              some { world with jobs := jobs } :=
        exists_createJob taken found default_known fresh'
      rw [inserted_of_some _ created, inserted_of_some _ created']
      refine ⟨_, _, ⟨rfl, rfl, stored, stored'⟩, rfl, rfl, ?_⟩
      intro same
      unfold World.retryPolicyOf
      rw [same]
      rfl

end Agreement

/-- Queue 0 retries by the policy "steady"; there is another one. -/
def World.twoPolicies : World :=
  { World.sample 10 .empty with
    retryPolicies :=
      ⟨[("steady", ⟨.fixed, 1000, 30000, 3⟩),
        ("slow", ⟨.fixed, 60000, 60000, 5⟩)], by decide⟩ }

/-- A job that asks for the other policy. -/
def CreateJobBody.slow : CreateJobBody :=
  ⟨"echo", [], none, none, some "slow", none, none⟩

/-- Both requests for this job succeed, and it keeps its policy if it comes
alone. -/
theorem batch_of_one_slow :
    ∃ alone inBatch,
      World.twoPolicies.submitAlone 0 .slow 1 = some alone ∧
      World.twoPolicies.submitBatchOf 0 CreateJobBody.slow.inBatch 1 "batch" =
        some inBatch ∧
      ∃ row row',
        BothCreate World.twoPolicies alone inBatch 1 1 row row' ∧
        row.retryPolicyId = some "slow" ∧
        row'.retryPolicyId = some "steady" := by
  have steady : World.twoPolicies.Knows (some "steady") := by
    intro policy names
    cases names
    rfl
  have slow : World.twoPolicies.Knows (some "slow") := by
    intro policy names
    cases names
    rfl
  have found : World.twoPolicies.queues.get? 0 =
      some ⟨0, 10, false, some "steady"⟩ := rfl
  obtain ⟨alone, inBatch, isAlone, isBatch, fate⟩ :=
    batch_of_one found steady .slow rfl slow rfl rfl "batch"
  have success : (World.twoPolicies.submitAlone 0 .slow 1).map
      (fun result => result.2) = some 201 := rfl
  rw [isAlone, Option.map_some, Option.some.injEq] at success
  refine ⟨alone, inBatch, isAlone, isBatch, ?_⟩
  rcases fate with conflict | ⟨row, row', created, isRow', policy, _⟩
  · rw [conflict.aloneStatus] at success
    exact absurd success (by decide)
  · refine ⟨row, row', created, policy, ?_⟩
    rw [isRow']

/-- The job that asks for the other policy gets that of the queue in a
batch. -/
theorem slow_fares_differently : ¬FaresAlike World.twoPolicies 0 .slow := by
  intro alike
  obtain ⟨alone, inBatch, isAlone, isBatch, fate⟩ :=
    alike 1 1 "batch" rfl rfl
  have aloneRow : (World.twoPolicies.submitAlone 0 .slow 1).map
      (fun result => (result.2, (result.1.jobs.get? 1).map (·.retryPolicyId))) =
        some (201, some (some "slow")) := rfl
  have batchRow : (World.twoPolicies.submitBatchOf 0
      CreateJobBody.slow.inBatch 1 "batch").map
      (fun result => (result.1.jobs.get? 1).map (·.retryPolicyId)) =
        some (some (some "steady")) := rfl
  rw [isAlone, Option.map_some, Option.some.injEq, Prod.mk.injEq] at aloneRow
  rw [isBatch, Option.map_some, Option.some.injEq] at batchRow
  rcases fate with conflict | ⟨row, created, _⟩
  · rw [conflict.aloneStatus] at aloneRow
    exact absurd aloneRow.1 (by decide)
  · rw [Table.get?_insert? created.aloneRow, if_pos rfl] at aloneRow
    rw [Table.get?_insert? created.batchRow, if_pos rfl] at batchRow
    have slow : row.retryPolicyId = some "slow" := by simpa using aloneRow.2
    have steady : row.retryPolicyId = some "steady" := by simpa using batchRow
    rw [slow] at steady
    exact absurd steady (by decide)

end Chronos
