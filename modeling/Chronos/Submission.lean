import Chronos.Writers

/-!
# New jobs

The rows that the submission endpoints and the scheduler insert.  They are
computed at one step of a call and inserted at a later one, so what is known
about them is an invariant of the calls in progress.
-/

namespace Chronos

theorem Json.orElse_ne_null {value : Option Json} {fallback : Json}
    (notNull : fallback ≠ .null) : Json.orElse value fallback ≠ .null := by
  cases value with
  | none => exact notNull
  | some value =>
      cases value with
      | null => exact notNull
      | _ => simp [Json.orElse]

namespace Job

/-- How every new row begins. -/
structure New (job : Job) : Prop where
  status : job.status = .queued ∨ job.status = .scheduled
  attemptCount : job.attemptCount = 0
  payload : job.payload ≠ .null

theorem New.stamped {job : Job} (new : job.New) (now : Time) :
    (job.stamped now).New :=
  ⟨new.status, new.attemptCount, new.payload⟩

end Job

theorem submittedStatus_cases (runAt now : Time) :
    submittedStatus runAt now = .queued ∨
      submittedStatus runAt now = .scheduled := by
  unfold submittedStatus
  split
  · exact .inr rfl
  · exact .inl rfl

theorem submittedStatus_eq_queued_iff {runAt now : Time} :
    submittedStatus runAt now = .queued ↔ runAt ≤ now := by
  unfold submittedStatus
  split
  · rename_i future
    simp [future]
  · rename_i due
    simpa using due

theorem CreateJobBody.job_new (body : CreateJobBody) (queueId : QueueId)
    (queue : Queue) (now : Time) : (body.job queueId queue now).New :=
  ⟨submittedStatus_cases _ _, rfl, by simp [CreateJobBody.job]⟩

theorem BatchJobBody.job_new (body : BatchJobBody) (queueId : QueueId)
    (queue : Queue) (batchId : String) (now : Time) :
    (body.job queueId queue batchId now).New :=
  ⟨submittedStatus_cases _ _, rfl, by simp [BatchJobBody.job]⟩

theorem JobTemplate.job_new {library : SchedulerLibrary}
    {template : JobTemplate} {queueId : QueueId} {now : Time} {row : Job}
    (made : template.job library queueId now = some row) :
    row.New := by
  unfold JobTemplate.job at made
  split at made <;> cases made
  exact ⟨.inl rfl, rfl, Json.orElse_ne_null (by simp)⟩

/-! ## What a step computes -/

private theorem KeyChecked.computes {queueId : QueueId} {body : CreateJobBody}
    {queue' queue : Queue} {now : Time} {row : Job}
    (checked : KeyChecked queueId body queue' now (.createJob queue row)) :
    row = body.job queueId queue now := by
  cases checked
  rfl

theorem submitJob_computes {world next : World} {call call' : SubmitCall}
    {input : ApiInput} {queue : Queue} {row : Job}
    (taken : submitJob world call input = some (next, call'))
    (phase : call'.phase = .createJob queue row) :
    call'.body = call.body ∧ call'.queueId = call.queueId ∧
      row = call.body.job call.queueId queue world.now := by
  obtain ⟨queueId, body, before⟩ := call
  obtain ⟨phase', rfl, case⟩ := submitJob_cases taken
  cases phase
  refine ⟨rfl, rfl, ?_⟩
  cases case with
  | keyAbsent _ _ checked => exact checked.computes
  | keyFree _ checked => exact checked.computes

theorem submitBatch_computes {world next : World} {call call' : BatchCall}
    {input : ApiInput} {queue : Queue} {batchId : String} {rows : List Job}
    (taken : submitBatch world call input = some (next, call'))
    (phase : call'.phase = .createJobs queue batchId rows) :
    call'.jobs = call.jobs ∧ call'.queueId = call.queueId ∧
      ∃ reading, rows = call.jobData queue batchId reading ∧
        (reading = world.now ∨
          call.phase = .findKeys queue batchId reading) := by
  obtain ⟨queueId, jobs, before⟩ := call
  obtain ⟨phase', rfl, case⟩ := submitBatch_cases taken
  cases phase
  refine ⟨rfl, rfl, ?_⟩
  cases case with
  | keysAbsent => exact ⟨_, rfl, .inl rfl⟩
  | keysFree => exact ⟨_, rfl, .inr rfl⟩

theorem submitBatch_reads {world next : World} {call call' : BatchCall}
    {input : ApiInput} {queue : Queue} {batchId : String} {reading : Time}
    (taken : submitBatch world call input = some (next, call'))
    (phase : call'.phase = .findKeys queue batchId reading) :
    reading = world.now := by
  obtain ⟨queueId, jobs, before⟩ := call
  obtain ⟨phase', rfl, case⟩ := submitBatch_cases taken
  cases phase
  cases case with
  | keysGiven => rfl

theorem TickStep.computes {library : SchedulerLibrary} {world next : World}
    {phase : TickPhase} {input : TickInput} {due : DueJob} {row : Job}
    {nextRun : Time} {defs : List DueJob}
    (case : TickStep library world phase input next
      (some (.createJob due row nextRun defs))) : row.New := by
  generalize after : TickPhase.createJob due row nextRun defs = phase' at case
  cases case with
  | @evaluated first rest =>
      have evaluated := evaluateDefinition_cases library world first rest
      rw [← after] at evaluated
      cases evaluated with
      | fires _ made => exact JobTemplate.job_new made
  | _ => cases after

/-! ## Rows in the memory of calls -/

/-- A call that is about to insert rows has computed them from its request, at
a reading of the clock that is known to be its own. -/
structure RowsInv (reads : CallId → Time → Prop) (state : State) : Prop where
  submit : ∀ {call request queue row},
    state.calls call = some (.submit request) →
    request.phase = .createJob queue row →
    ∃ reading, reads call reading ∧
      row = request.body.job request.queueId queue reading
  batch : ∀ {call request queue batchId rows},
    state.calls call = some (.batch request) →
    request.phase = .createJobs queue batchId rows →
    ∃ reading, reads call reading ∧
      rows = request.jobData queue batchId reading
  keys : ∀ {call request queue batchId reading},
    state.calls call = some (.batch request) →
    request.phase = .findKeys queue batchId reading → reads call reading
  tick : ∀ {call owner due row nextRun defs},
    state.calls call =
      some (.tick ⟨owner, .createJob due row nextRun defs⟩) → row.New

/-- The call has taken a step at this clock. -/
def ReadsClock (trace : List (Transition State Action)) (call : CallId)
    (reading : Time) : Prop :=
  ∃ transition ∈ trace, transition.action.actor = some call ∧
    transition.before.world.now = reading

namespace RowsInv

variable {env : Env} {start last state next : State} {action : Action}
  {trace : List (Transition State Action)} {reads reads' : CallId → Time → Prop}

theorem initial (initial : Initial start) : RowsInv reads start := by
  have none : ∀ {call value}, start.calls call ≠ some value := by
    intro call value found
    rw [initial.calls call] at found
    cases found
  constructor <;> intros <;> exact (none ‹_›).elim

private theorem submit_step (inv : RowsInv reads state)
    (taken : Chronos.step env state action = some next)
    (kept : ∀ {call reading}, reads call reading → reads' call reading)
    (now : ∀ {call}, action.actor = some call → reads' call state.world.now)
    {call : CallId} {request : SubmitCall} {queue : Queue} {row : Job}
    (found : next.calls call = some (.submit request))
    (phase : request.phase = .createJob queue row) :
    ∃ reading, reads' call reading ∧
      row = request.body.job request.queueId queue reading := by
  generalize same : Call.submit request = value at found
  cases step_call taken found with
  | kept old =>
      subst same
      obtain ⟨reading, read, computed⟩ := inv.submit old phase
      exact ⟨reading, kept read, computed⟩
  | started starts =>
      cases starts with
      | request =>
          rename_i body
          cases body <;> cases same
          cases phase
      | _ => cases same
  | api old case world handled =>
      subst same
      cases handle_cases handled with
      | submit success =>
          obtain ⟨body, queueId, computed⟩ := submitJob_computes success phase
          exact ⟨state.world.now, now rfl, by rw [body, queueId, computed]⟩
  | _ => cases same

private theorem batch_step (inv : RowsInv reads state)
    (taken : Chronos.step env state action = some next)
    (kept : ∀ {call reading}, reads call reading → reads' call reading)
    (now : ∀ {call}, action.actor = some call → reads' call state.world.now)
    {call : CallId} {request : BatchCall}
    (found : next.calls call = some (.batch request)) :
    (∀ {queue batchId rows}, request.phase = .createJobs queue batchId rows →
      ∃ reading, reads' call reading ∧
        rows = request.jobData queue batchId reading) ∧
    ∀ {queue batchId reading},
      request.phase = .findKeys queue batchId reading →
      reads' call reading := by
  generalize same : Call.batch request = value at found
  cases step_call taken found with
  | kept old =>
      subst same
      constructor
      · intro queue batchId rows phase
        obtain ⟨reading, read, computed⟩ := inv.batch old phase
        exact ⟨reading, kept read, computed⟩
      · intro queue batchId reading phase
        exact kept (inv.keys old phase)
  | started starts =>
      cases starts with
      | request =>
          rename_i body
          cases body <;> cases same
          constructor <;> intros <;> rename_i phase <;> cases phase
      | _ => cases same
  | api old case world handled =>
      subst same
      cases handle_cases handled with
      | batch success =>
          constructor
          · intro queue batchId rows phase
            obtain ⟨jobs, queueId, reading, computed, origin⟩ :=
              submitBatch_computes success phase
            refine ⟨reading, ?_, ?_⟩
            · rcases origin with rfl | earlier
              · exact now rfl
              · exact kept (inv.keys old earlier)
            · rw [computed, BatchCall.jobData, BatchCall.jobData, jobs, queueId]
          · intro queue batchId reading phase
            rw [submitBatch_reads success phase]
            exact now rfl
  | _ => cases same

theorem step (inv : RowsInv reads state)
    (taken : Chronos.step env state action = some next)
    (kept : ∀ {call reading}, reads call reading → reads' call reading)
    (now : ∀ {call}, action.actor = some call →
      reads' call state.world.now) : RowsInv reads' next := by
  constructor
  · intro call request queue row found phase
    exact inv.submit_step taken kept now found phase
  · intro call request queue batchId rows found phase
    exact (inv.batch_step taken kept now found).1 phase
  · intro call request queue batchId reading found phase
    exact (inv.batch_step taken kept now found).2 phase
  · intro call owner due row nextRun defs found
    generalize same :
      Call.tick ⟨owner, .createJob due row nextRun defs⟩ = value at found
    cases step_call taken found with
    | kept old =>
        subst same
        exact inv.tick old
    | started starts =>
        cases starts with
        | request =>
            rename_i body
            cases body <;> cases same
        | _ => cases same
    | tick old case =>
        cases same
        exact case.computes
    | api old case =>
        subst same
        cases case.requests.2
    | _ => cases same

/-- Every row in memory was computed at a step of its call. -/
theorem run (run : Run (Chronos.step env) start trace last)
    (initial : Initial start) : RowsInv (ReadsClock trace) last := by
  induction run with
  | nil => exact .initial initial
  | @snoc trace middle last action _ taken induction =>
      refine induction.step taken ?_ ?_
      · rintro call reading ⟨transition, member, own, clock⟩
        exact ⟨transition, List.mem_append_left _ member, own, clock⟩
      · intro call own
        exact ⟨⟨middle, action, last⟩, by simp, own, rfl⟩

end RowsInv

theorem JobCreated.new {state : State} {action : Action} {job : JobId}
    {row : Job} {reads : CallId → Time → Prop}
    (created : JobCreated state job action row)
    (inv : RowsInv reads state) : row.New := by
  cases created with
  | submitted called phase =>
      obtain ⟨reading, _, rfl⟩ := inv.submit called phase
      exact (CreateJobBody.job_new ..).stamped _
  | batch called phase member =>
      obtain ⟨reading, _, rfl⟩ := inv.batch called phase
      obtain ⟨body, _, rfl⟩ := List.mem_map.mp (List.of_mem_zip member).2
      exact (BatchJobBody.job_new ..).stamped _
  | materialized called =>
      exact (inv.tick called).stamped _

end Chronos
