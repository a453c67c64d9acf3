import Chronos.Records
import Chronos.Requests

/-!
# Idempotency keys

The check before a submission runs outside of any transaction, skips empty
keys, and does not see duplicates inside a batch.  The unique index alone keeps
the keys unique, and the transaction of a batch keeps it all or nothing.
-/

namespace Chronos

/-- At most one row for each queue and key. -/
def KeysUnique (jobs : Table JobId Job) : Prop :=
  ∀ first second row row',
    jobs.get? first = some row → jobs.get? second = some row' →
    row.queueId = row'.queueId →
    row.idempotencyKey = row'.idempotencyKey →
    row.idempotencyKey.isSome = true → first = second

/-- One step of the batch request inserts one row for each element, all of the
same batch, and no other changes the database. -/
inductive BatchCreatedOnce (call : CallId) (queueId : QueueId)
    (bodies : List BatchJobBody) : List (Transition State Action) → Prop where
  | intro {earlier later : List (Transition State Action)}
      {creation : Transition State Action} {ids : List JobId} {queue : Queue}
      {batchId : String} {reading : Time} :
      Untouched call earlier →
      creation.action = .api call (.created ids) →
      ids.length = bodies.length →
      creation.after.world.jobs.rows = creation.before.world.jobs.rows ++
        ids.zip (bodies.map fun body =>
          (body.job queueId queue batchId reading).stamped
            creation.before.world.now) →
      Untouched call later →
      BatchCreatedOnce call queueId bodies (earlier ++ creation :: later)

/-- A batch request that is answered 201 has created its jobs, and one that is
answered 409 has created none. -/
structure AllOrNothing (call : CallId)
    (trace : List (Transition State Action)) (last : State) : Prop where
  success : ∀ queueId bodies,
    last.calls call = some (.batch ⟨queueId, bodies, .answered 201⟩) →
    BatchCreatedOnce call queueId bodies trace
  conflict : ∀ queueId bodies,
    last.calls call = some (.batch ⟨queueId, bodies, .answered 409⟩) →
    Untouched call trace

/-! ## Unique keys -/

namespace World

theorem createJobs_single (world : World) (id : JobId) (job : Job) :
    world.createJobs [(id, job)] = world.createJob id job := by
  rw [createJobs]
  cases world.createJob id job <;> rfl

theorem keyTaken_eq_false {world : World} {queue : QueueId}
    {key : Option String} (free : world.keyTaken queue key = false)
    (present : key.isSome = true) {id : JobId} {row : Job}
    (found : world.jobs.get? id = some row) (same : row.queueId = queue) :
    row.idempotencyKey ≠ key := by
  intro taken
  have member := Table.mem_rows_iff.mpr found
  simp only [keyTaken, present, Bool.true_and, List.any_eq_false,
    Bool.and_eq_true, decide_eq_true_eq] at free
  exact free _ member ⟨same, taken⟩

theorem createJob_keysUnique {world next : World} {id : JobId} {job : Job}
    (created : world.createJob id job = some next)
    (unique : KeysUnique world.jobs) : KeysUnique next.jobs := by
  obtain ⟨_, _, lookup⟩ := createJob_spec created
  have free := (createJob_eq_some created).1
  intro first second row row' found found' sameQueue sameKey present
  rw [lookup] at found found'
  split at found
  · cases found
    split at found'
    · rename_i isFirst isSecond
      rw [isFirst, isSecond]
    · exact (keyTaken_eq_false free present found' sameQueue.symm
        sameKey.symm).elim
  · split at found'
    · cases found'
      have present' : job.idempotencyKey.isSome = true := by
        rw [sameKey] at present
        exact present
      exact (keyTaken_eq_false free present' found sameQueue sameKey).elim
    · exact unique first second row row' found found' sameQueue sameKey present

theorem createJobs_keysUnique {world next : World} {rows : List (JobId × Job)}
    (created : world.createJobs rows = some next)
    (unique : KeysUnique world.jobs) : KeysUnique next.jobs := by
  induction rows generalizing world with
  | nil =>
      cases created
      exact unique
  | cons head rows induction =>
      obtain ⟨id, job⟩ := head
      obtain ⟨middle, first, created⟩ := createJobs_cons_eq_some.mp created
      exact induction created (createJob_keysUnique first unique)

end World

section Steps

variable {env : Env} {start last state next : State} {action : Action}
  {trace : List (Transition State Action)}

/-- A step after which there is a new job has created its rows together. -/
theorem step_creates (taken : step env state action = some next) {job : JobId}
    {row : Job} (absent : state.world.jobs.get? job = none)
    (found : next.world.jobs.get? job = some row) :
    ∃ rows, state.world.createJobs rows = some next.world := by
  have unchanged : next.world.jobs ≠ state.world.jobs := by
    intro same
    rw [same, absent] at found
    cases found
  have byRequest : ∀ {call ids}, action = .api call (.created ids) →
      ∃ rows, state.world.createJobs rows = some next.world := by
    rintro call ids rfl
    cases step_cases taken with
    | started starts => cases starts
    | api _ case =>
        cases case with
        | silent rows => exact (unchanged rows.jobs).elim
        | submitted _ success =>
            exact ⟨_, (World.createJobs_single ..).trans success⟩
        | batchSubmitted _ _ success => exact ⟨_, success⟩
  cases step_created taken absent found with
  | submitted => exact byRequest rfl
  | batch => exact byRequest rfl
  | materialized =>
      cases step_cases taken with
      | started starts => cases starts
      | tick _ case =>
          cases case with
          | created success =>
              exact ⟨_, (World.createJobs_single ..).trans success⟩

theorem KeysUnique.step (unique : KeysUnique state.world.jobs)
    (taken : Chronos.step env state action = some next) :
    KeysUnique next.world.jobs := by
  by_cases creates : ∃ job row, state.world.jobs.get? job = none ∧
      next.world.jobs.get? job = some row
  · obtain ⟨job, row, absent, found⟩ := creates
    obtain ⟨rows, created⟩ := step_creates taken absent found
    exact World.createJobs_keysUnique created unique
  · -- Without new rows every row has its old queue and key.
    have origin : ∀ id row', next.world.jobs.get? id = some row' →
        ∃ row, state.world.jobs.get? id = some row ∧
          row.SameColumns row' := by
      intro id row' found
      cases before : state.world.jobs.get? id with
      | none => exact (creates ⟨id, row', before, found⟩).elim
      | some row => exact ⟨row, rfl, step_columns taken before found⟩
    intro first second row row' found found' sameQueue sameKey present
    obtain ⟨old, isOld, columns⟩ := origin first row found
    obtain ⟨old', isOld', columns'⟩ := origin second row' found'
    apply unique first second old old' isOld isOld'
    · rw [← columns.queueId, ← columns'.queueId, sameQueue]
    · rw [← columns.idempotencyKey, ← columns'.idempotencyKey, sameKey]
    · rw [← columns.idempotencyKey, present]

/-! ## Batches -/

theorem BatchCreatedOnce.of_commits {call : CallId} {queueId : QueueId}
    {bodies : List BatchJobBody} (run : Run (step env) start trace last)
    (initial : Initial start)
    (commits : CommitsOnce call (.batch queueId bodies) trace) :
    BatchCreatedOnce call queueId bodies trace := by
  cases commits with
  | @intro earlier later creation before commits after =>
      obtain ⟨input, value, value', action, called, request, commits⟩ := commits
      obtain ⟨toCreation, _, _⟩ := run.around
      have rowsInv := RowsInv.run toCreation initial
      generalize isAfter : creation.after.world = next at commits
      cases commits with
      | @batchSubmitted target elements queue batchId rows ids _ sameLength
          created =>
          cases request
          obtain ⟨reading, _, computed⟩ := rowsInv.batch called rfl
          rw [BatchCall.jobData] at computed
          have appended : creation.after.world.jobs.rows =
              creation.before.world.jobs.rows ++
                ids.zip (elements.map fun body =>
                  (body.job target queue batchId reading).stamped
                    creation.before.world.now) := by
            rw [isAfter, World.createJobs_rows created, computed]
            simp [List.zip_map_right, Function.comp_def]
          refine .intro before action ?_ appended after
          rw [sameLength, computed, List.length_map]
      | _ => cases request

/-- Idempotency keys stay unique in every run, and a batch creates all of its
jobs or, on a conflict, none. -/
theorem idempotency_keys (run : Run (step env) start trace last)
    (initial : Initial start) (unique : KeysUnique start.world.jobs) :
    KeysUnique last.world.jobs ∧
      ∀ call, AllOrNothing call trace last := by
  have always : ∀ transition ∈ trace, True := fun _ _ => trivial
  refine ⟨run.invariant (fun state => KeysUnique state.world.jobs) always unique
    (fun _ _ taken unique => unique.step taken), ?_⟩
  intro call
  have history := RequestHistory.run run initial call
  constructor
  · intro queueId bodies called
    have isRequest : last.request? call =
        some (.batch ⟨queueId, bodies, .answered 201⟩) :=
      State.request?_eq_some_iff.mpr ⟨called, rfl⟩
    rw [isRequest] at history
    cases history with
    | unwritten _ errors =>
        have large := errors 201 rfl
        omega
    | written _ publishes => cases publishes
    | answered request _ _ _ commits =>
        cases request
        exact BatchCreatedOnce.of_commits run initial commits
    | failed _ _ answer => cases answer
  · intro queueId bodies called
    have isRequest : last.request? call =
        some (.batch ⟨queueId, bodies, .answered 409⟩) :=
      State.request?_eq_some_iff.mpr ⟨called, rfl⟩
    rw [isRequest] at history
    cases history with
    | unwritten _ _ untouched => exact untouched
    | written _ publishes => cases publishes
    | answered _ _ answer small =>
        cases answer
        omega
    | failed _ _ answer => cases answer

/-- Two submissions with the empty key, then two batches with one key in
common: one of each pair is answered 201, the other 409. -/
theorem idempotency_keys_conflicts :
    ∃ trace last,
      Run (step .sample) (World.sample 1 .empty).idle trace last ∧
      (last.request? 1).bind Call.answer = some 201 ∧
      (last.request? 2).bind Call.answer = some 409 ∧
      (last.request? 3).bind Call.answer = some 201 ∧
      (last.request? 4).bind Call.answer = some 409 ∧
      KeysUnique last.world.jobs ∧
      ∀ call, AllOrNothing call trace last := by
  obtain ⟨trace, last, run, first, second, third, fourth⟩ :=
    exists_run_of_check (step .sample) (World.sample 1 .empty).idle
      [.request 1 (.submit 0 ⟨"echo", [], none, none, none, some "", none⟩),
        .request 2 (.submit 0 ⟨"echo", [], none, none, none, some "", none⟩),
        .api 1 .ok, .api 2 .ok, .api 1 (.created [7]),
        .api 2 (.fail .uniqueViolation), .api 1 .ok,
        .request 3 (.batch 0
          [⟨"echo", [], none, none, some "a"⟩, ⟨"echo", [], none, none, none⟩]),
        .request 4 (.batch 0 [⟨"echo", [], none, none, some "a"⟩]),
        .api 3 (.nonce "b"), .api 4 (.nonce "c"), .api 3 .ok,
        .api 3 (.created [8, 9]), .api 3 .ok, .api 4 .ok]
      (fun _ last =>
        (last.request? 1).bind Call.answer = some 201 ∧
        (last.request? 2).bind Call.answer = some 409 ∧
        (last.request? 3).bind Call.answer = some 201 ∧
        (last.request? 4).bind Call.answer = some 409)
      (by decide)
  refine ⟨trace, last, run, first, second, third, fourth,
    idempotency_keys run (World.idle_initial fun _ => rfl) ?_⟩
  intro first second row row' found
  cases found

end Steps

end Chronos
