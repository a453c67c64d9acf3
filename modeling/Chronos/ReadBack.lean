import Chronos.ApiView
import Chronos.Isolation
import Chronos.Runnable

/-!
# Reading back what was submitted

Between the submission of a job and a `GET` of it, pollers, executors, reap
cycles and other requests may write its row any number of times.  What the
submitter asked for is in none of these writes, so every answer about the job
shows it unchanged.
-/

namespace Chronos

/-- What a submission asks for, apart from the time of the run. -/
structure Asked where
  queueId : QueueId
  type : String
  payload : Json
  priority : Int
  batchId : Option String
  retryPolicyId : Option RetryPolicyId
  idempotencyKey : Option String

def Job.asked (job : Job) : Asked where
  queueId := job.queueId
  type := job.type
  payload := job.payload
  priority := job.priority
  batchId := job.batchId
  retryPolicyId := job.retryPolicyId
  idempotencyKey := job.idempotencyKey

def JobDetail.asked (detail : JobDetail) : Asked where
  queueId := detail.queueId
  type := detail.type
  payload := detail.payload
  priority := detail.priority
  batchId := detail.batchId
  retryPolicyId := detail.retryPolicyId
  idempotencyKey := detail.idempotencyKey

/-- What one element of `GET /jobs` says of the same; the payload and the
retry policy are not in it. -/
def JobSummary.Shows (summary : JobSummary) (asked : Asked) : Prop :=
  summary.queueId = asked.queueId ∧ summary.type = asked.type ∧
    summary.priority = asked.priority ∧ summary.batchId = asked.batchId ∧
    summary.idempotencyKey = asked.idempotencyKey

/-- `POST /queues/:queueId/jobs` with this body, on the queue it has read. -/
def CreateJobBody.asked (body : CreateJobBody) (queueId : QueueId)
    (queue : Queue) : Asked where
  queueId := queueId
  type := body.type
  payload := .obj body.payload
  priority := body.priority.getD 0
  batchId := none
  retryPolicyId := body.retryPolicyId.or queue.defaultRetryPolicyId
  idempotencyKey := body.idempotencyKey

/-- One element of a batch. -/
def BatchJobBody.asked (body : BatchJobBody) (queueId : QueueId)
    (queue : Queue) (batchId : String) : Asked where
  queueId := queueId
  type := body.type
  payload := .obj body.payload
  priority := body.priority.getD 0
  batchId := some batchId
  retryPolicyId := queue.defaultRetryPolicyId
  idempotencyKey := body.idempotencyKey

/-- The jobs that the API inserts in this step, with what their requests ask
for. -/
def Action.asks (state : State) : Action → List (JobId × Asked)
  | .api call (.created ids) =>
      match state.calls call with
      | some (.submit ⟨queueId, body, .createJob queue _⟩) =>
          ids.map fun job => (job, body.asked queueId queue)
      | some (.batch ⟨queueId, jobs, .createJobs queue batchId _⟩) =>
          (ids.zip jobs).map fun entry =>
            (entry.1, entry.2.asked queueId queue batchId)
      | _ => []
  | _ => []

/-- The row is there, as it was asked for, since this time. -/
def Keeps (job : JobId) (values : Asked) (since : Time) (state : State) :
    Prop :=
  ∃ row, state.world.jobs.get? job = some row ∧ row.asked = values ∧
    row.createdAt = since

theorem JobWrite.asked {state : State} {job : JobId} {action : Action}
    {row row' : Job} (write : JobWrite state job action row row') :
    row'.asked = row.asked ∧ row'.createdAt = row.createdAt := by
  cases write <;> exact ⟨rfl, rfl⟩

section Steps

variable {env : Env} {start last state next : State} {action : Action}
  {trace : List (Transition State Action)} {job : JobId} {values : Asked}
  {since : Time}

theorem Keeps.step (keeps : Keeps job values since state)
    (taken : Chronos.step env state action = some next) :
    Keeps job values since next := by
  obtain ⟨row, found, rfl, rfl⟩ := keeps
  obtain ⟨row', found', same | write⟩ := step_job taken found
  · subst same
    exact ⟨row', found', rfl, rfl⟩
  · exact ⟨row', found', write.asked⟩

theorem Keeps.run (keeps : Keeps job values since start)
    (run : Run (Chronos.step env) start trace last) :
    Keeps job values since last := by
  refine run.invariant (Keeps job values since) (fun _ _ => trivial) keeps ?_
  intro transition _ taken keeps
  exact keeps.step taken

theorem Keeps.of_asks {reads : CallId → Time → Prop}
    (rows : RowsInv reads state)
    (taken : Chronos.step env state action = some next)
    (asks : (job, values) ∈ action.asks state) :
    Keeps job values state.world.now next := by
  unfold Action.asks at asks
  split at asks
  · rename_i call ids
    cases step_cases taken with
    | started starts => cases starts
    | api called' _ handled =>
        split at asks
        · rename_i queueId body queue row called
          cases called.symm.trans called'
          obtain ⟨target, member, same⟩ := List.mem_map.mp asks
          cases same
          obtain ⟨reading, _, computed⟩ := rows.submit called rfl
          cases handle_cases handled with
          | submit success =>
              obtain ⟨_, _, case⟩ := submitJob_cases success
              cases case with
              | jobCreated created =>
                  cases List.mem_singleton.mp member
                  obtain ⟨_, _, lookup⟩ := World.createJob_spec created
                  refine ⟨_, (lookup job).trans (if_pos rfl), ?_, rfl⟩
                  rw [computed]
                  rfl
        · rename_i queueId jobs queue batchId data called
          cases called.symm.trans called'
          obtain ⟨⟨target, body⟩, member, same⟩ := List.mem_map.mp asks
          cases same
          obtain ⟨reading, _, computed⟩ := rows.batch called rfl
          cases handle_cases handled with
          | batch success =>
              obtain ⟨_, _, case⟩ := submitBatch_cases success
              cases case with
              | created _ created =>
                  have inserted :
                      (target, body.job queueId queue batchId reading) ∈
                        ids.zip data := by
                    rw [computed, BatchCall.jobData, List.zip_map_right]
                    exact List.mem_map.mpr ⟨(target, body), member, rfl⟩
                  exact ⟨_, (createJobs_inserts created inserted).2, rfl, rfl⟩
        · cases asks
  · cases asks

end Steps

/-! ## What the endpoints say -/

/-- An answer that the handlers give about the job shows these values. -/
structure ShowsAsked (prisma : Prisma) (db : Database) (job : JobId)
    (values : Asked) (since : Time) : Prop where
  detail : ∀ {user orders reply},
    db.getJob user job orders = some reply →
    (db.sees user (db.orgOfJob job) = false ∧ reply = jobNotFound) ∨
    (db.sees user (db.orgOfJob job) = true ∧
      ∃ detail, reply = .ok (.job detail) ∧ detail.id = job ∧
        detail.asked = values ∧ detail.createdAt = since)
  summaries : ∀ {user query orders data pagination},
    db.getJobs prisma user query orders =
      some (.ok (.jobs data pagination)) →
    ∀ summary ∈ data, summary.id = job →
      summary.Shows values ∧ summary.createdAt = since

theorem Database.of_getJobs {prisma : Prisma} {db : Database} {user : UserId}
    {query : JobListQuery} {orders : Orders} {data : List JobSummary}
    {pagination : PaginationMeta}
    (answered : db.getJobs prisma user query orders =
      some (.ok (.jobs data pagination)))
    {summary : JobSummary} (member : summary ∈ data) :
    ∃ id row, db.jobs.get? id = some row ∧
      db.jobSummary id row = some summary := by
  unfold Database.getJobs at answered
  dsimp only at answered
  split at answered
  · cases answered
  · split at answered
    · obtain ⟨jobs, read, same⟩ := Option.map_eq_some_iff.mp answered
      cases same
      obtain ⟨⟨id, row⟩, listed, shown⟩ := List.mem_filterMap.mp member
      exact ⟨id, row, (Table.mem_findMany read listed).1, shown⟩
    · cases answered

theorem ShowsAsked.of_keeps {prisma : Prisma} {state : State} {job : JobId}
    {values : Asked} {since : Time} (keeps : Keeps job values since state)
    (columns : ApiColumns) :
    ShowsAsked prisma (state.world.database columns) job values since := by
  obtain ⟨row, found, rfl, rfl⟩ := keeps
  have stored : (state.world.database columns).jobs.get? job =
      some ⟨row, none⟩ := by
    simp [World.database, found]
  constructor
  · intro user orders reply answered
    cases seen : (state.world.database columns).sees user
        ((state.world.database columns).orgOfJob job) with
    | false =>
        rw [Database.getJob_of_not_sees seen] at answered
        cases answered
        exact .inl ⟨rfl, rfl⟩
    | true =>
        obtain ⟨foundJob, isFound⟩ := Database.exists_findJob seen
        rw [Database.getJob_of_found isFound seen] at answered
        obtain ⟨latest, _, rfl⟩ := Option.map_eq_some_iff.mp answered
        have same := (Database.get?_of_findJob isFound).symm.trans stored
        obtain ⟨row', queue, org⟩ := foundJob
        cases same
        exact .inr ⟨rfl, _, rfl, rfl, rfl, rfl⟩
  · intro user query orders data pagination answered summary member same
    obtain ⟨id, row', found', shown⟩ := Database.of_getJobs answered member
    obtain ⟨queue, _, rfl⟩ := Option.map_eq_some_iff.mp shown
    obtain rfl : id = job := same
    cases stored.symm.trans found'
    exact ⟨⟨rfl, rfl, rfl, rfl, rfl⟩, rfl⟩

section ReadBack

variable {env : Env} {start last : State}
  {trace : List (Transition State Action)} {job : JobId} {values : Asked}

/-- Whatever the API says about a job at any time after its submission shows
what the submission asked for and the time of its commit. -/
theorem submission_read_back (run : Run (step env) start trace last)
    (initial : Initial start) {insertion : Transition State Action}
    (member : insertion ∈ trace)
    (asks : (job, values) ∈ insertion.action.asks insertion.before)
    (prisma : Prisma) (columns : ApiColumns) :
    ShowsAsked prisma (last.world.database columns) job values
      insertion.before.world.now := by
  obtain ⟨earlier, later, rfl⟩ := List.append_of_mem member
  obtain ⟨before, taken, after⟩ := run.around
  have keeps := Keeps.of_asks (RowsInv.run before initial) taken asks
  exact .of_keeps (keeps.run after) columns

/-- Two jobs of a batch; one of them is claimed, fails and is put back. -/
theorem submission_read_back_batch :
    ∃ trace last values,
      Run (step .sample) (World.sample 1 .empty).idle trace last ∧
      last.status? 7 = some .queued ∧ values.type = "http_request" ∧
      values.batchId = some "b" ∧
      ∀ prisma columns,
        ShowsAsked prisma (last.world.database columns) 7 values 0 := by
  obtain ⟨trace, last, run, ⟨insertion, member, ⟨target, values⟩, asks, same,
      type, batch, clock⟩, queued⟩ :=
    exists_run_of_check (step .sample) (World.sample 1 .empty).idle
      (([.request 4 (.batch 0
          [⟨"http_request", [("url", .str "/")], none, some 3, none⟩,
            ⟨"echo", [], none, none, none⟩]),
          .api 4 (.nonce "b"), .api 4 (.created [7, 8]), .advance 5] :
          List Action) ++
        claimActions 1 1 [7, 8] ++ executeActions 1 2 0 ++
        ([.exec 2 (.failed "down" .zero), .exec 2 .ok] : List Action))
      (fun trace last =>
        (∃ insertion ∈ trace,
          ∃ entry ∈ insertion.action.asks insertion.before, entry.1 = 7 ∧
            entry.2.type = "http_request" ∧ entry.2.batchId = some "b" ∧
            insertion.before.world.now = 0) ∧
        last.status? 7 = some .queued)
      (by decide)
  obtain rfl : target = 7 := same
  refine ⟨trace, last, values, run, queued, type, batch, ?_⟩
  intro prisma columns
  rw [← clock]
  exact submission_read_back run (World.idle_initial fun _ => rfl) member asks
    prisma columns

end ReadBack

end Chronos
