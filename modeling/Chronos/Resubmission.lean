import Chronos.Lib.Trace
import Chronos.Requests

/-!
# Submitting again under the same key

Requests to submit a job under one idempotency key, each handled to its end
before the next begins.  The first one-shot job takes the key, and every later
request is refused before its body is looked at.  A definition of a cron job
does not take the key, so the request after it goes through as well.
-/

namespace Chronos

namespace CreateJobBody

/-- `if (cronExpression)`. -/
def isCron (body : CreateJobBody) : Bool := truthy body.cronExpression

/-- A cron expression that `isValidCron` refuses. -/
def malformed (body : CreateJobBody) : Bool :=
  body.isCron && !body.cronExpression.any isValidCron

end CreateJobBody

namespace World

/-- A row of `jobs` or of `scheduled_jobs` is new. -/
def Inserts (world next : World) : Prop :=
  (∃ id, world.jobs.get? id = none ∧ next.jobs.get? id ≠ none) ∨
    ∃ id, world.scheduledJobs.get? id = none ∧
      next.scheduledJobs.get? id ≠ none

theorem SameTables.not_inserts {world next : World}
    (same : world.SameTables next) : ¬world.Inserts next := by
  rintro (⟨id, absent, present⟩ | ⟨id, absent, present⟩)
  · rw [same.jobs] at present
    exact present absent
  · rw [same.scheduledJobs] at present
    exact present absent

theorem createJob_inserts {world next : World} {id : JobId} {job : Job}
    (created : world.createJob id job = some next) : world.Inserts next := by
  obtain ⟨_, fresh, lookup⟩ := createJob_spec created
  refine .inl ⟨id, fresh, ?_⟩
  rw [lookup, if_pos rfl]
  exact Option.some_ne_none _

theorem createScheduledJob_inserts {world next : World} {id : ScheduledJobId}
    {row : ScheduledJob}
    (created : world.createScheduledJob id row = some next) :
    world.Inserts next := by
  obtain ⟨scheduledJobs, inserted, rfl⟩ := createScheduledJob_spec created
  refine .inr ⟨id, (Table.insert?_eq_some_iff.mp inserted).1, ?_⟩
  rw [Table.get?_insert? inserted, if_pos rfl]
  exact Option.some_ne_none _

theorem createJob_keyTaken {world next : World} {id : JobId} {job : Job}
    {key : String} (created : world.createJob id job = some next)
    (keyed : job.idempotencyKey = some key) :
    next.keyTaken job.queueId (some key) = true := by
  rw [keyTaken, createJob_rows created]
  simp [Job.stamped, keyed]

end World

/-- What happens while a request is handled: a step of its handler, or
something else in the deployment. -/
inductive SubmissionEvent where
  | handle (input : ApiInput)
  | meanwhile (next : World)

/-- The rest of the deployment leaves the queue there and its key as it is. -/
def World.Leaves (queueId : QueueId) (key : String) (world next : World) :
    Prop :=
  (next.queues.get? queueId).isSome = (world.queues.get? queueId).isSome ∧
    next.keyTaken queueId (some key) = world.keyTaken queueId (some key)

instance (queueId : QueueId) (key : String) (world next : World) :
    Decidable (world.Leaves queueId key next) :=
  inferInstanceAs (Decidable (_ = _ ∧ _ = _))

def submissionStep (queueId : QueueId) (key : String) :
    World × SubmitCall → SubmissionEvent → Option (World × SubmitCall)
  | (world, call), .handle input => submitJob world call input
  | (world, call), .meanwhile next =>
      if world.Leaves queueId key next then some (next, call) else none

/-- A request with the steps in which it was handled and its answer. -/
structure Submission where
  body : CreateJobBody
  trace : List (Transition (World × SubmitCall) SubmissionEvent)
  httpStatus : Nat

/-- The requests are handled one after the other. -/
inductive Handled (queueId : QueueId) (key : String) :
    World → List Submission → World → Prop where
  | nil {world : World} : Handled queueId key world [] world
  | cons {world next last : World} {submission : Submission}
      {submissions : List Submission} :
      submission.body.idempotencyKey = some key →
      Run (submissionStep queueId key)
        (world, ⟨queueId, submission.body, .findQueue⟩) submission.trace
        (next, ⟨queueId, submission.body, .answered submission.httpStatus⟩) →
      Handled queueId key next submissions last →
      Handled queueId key world (submission :: submissions) last

/-- The call to the database that the handler awaits. -/
def SubmitPhase.awaitsDatabase : SubmitPhase → Bool
  | .findQueue => true
  | .findKey _ => true
  | .createScheduled _ _ => true
  | .createJob _ _ => true
  | _ => false

/-- A step of the handler itself. -/
def IsOwn (transition : Transition (World × SubmitCall) SubmissionEvent) :
    Prop :=
  ∃ input, transition.action = .handle input

namespace Submission

/-- The request creates a row of `jobs` or of `scheduled_jobs`. -/
def Creates (submission : Submission) : Prop :=
  ∃ transition ∈ submission.trace, IsOwn transition ∧
    transition.before.1.Inserts transition.after.1

/-- No step of the request writes to the database. -/
def ChangesNothing (submission : Submission) : Prop :=
  ∀ transition ∈ submission.trace, IsOwn transition →
    transition.before.1.SameTables transition.after.1

/-- A call to the database fails in the request. -/
def Fails (submission : Submission) : Prop :=
  ∃ transition ∈ submission.trace,
    transition.before.2.phase.awaitsDatabase = true ∧
      ∃ error, transition.action = .handle (.fail error)

end Submission

/-- At most one of the requests creates something; all others are answered
with a conflict and change nothing. -/
structure CreateOnce (submissions : List Submission) : Prop where
  once : submissions.Pairwise fun first second =>
    ¬(first.Creates ∧ second.Creates)
  others : ∀ submission ∈ submissions, ¬submission.Creates →
    submission.httpStatus = 409 ∧ submission.ChangesNothing

/-! ## One request -/

/-- Where a request stands: its phase, whether it has created something,
whether a call to the database has failed, and whether the key is taken. -/
inductive Progress (queueId : QueueId) (key : String) (body : CreateJobBody)
    (taken : Bool) : SubmitPhase → Bool → Bool → Bool → Prop where
  | findingQueue : Progress queueId key body taken .findQueue false false taken
  | findingKey {queue : Queue} :
      Progress queueId key body taken (.findKey queue) false false taken
  | creatingJob {queue : Queue} {row : Job} :
      taken = false → body.isCron = false → row.queueId = queueId →
      row.idempotencyKey = some key →
      Progress queueId key body taken (.createJob queue row) false false false
  | creatingScheduled {queue : Queue} {row : ScheduledJob} :
      taken = false → body.isCron = true → body.malformed = false →
      Progress queueId key body taken (.createScheduled queue row) false false
        false
  | created {phase : SubmitPhase} :
      taken = false → body.malformed = false →
      phase.awaitsDatabase = false →
      Progress queueId key body taken phase true false (!body.isCron)
  | refused :
      taken = true →
      Progress queueId key body taken (.answered 409) false false true
  | rejected :
      taken = false → body.malformed = true →
      Progress queueId key body taken (.answered 400) false false false
  | failed :
      Progress queueId key body taken (.answered 500) false true taken

namespace Progress

variable {queueId : QueueId} {key : String} {body : CreateJobBody}
  {taken created failed : Bool} {world next : World} {phase : SubmitPhase}

theorem of_checked {queue : Queue} {now : Time}
    (keyed : body.idempotencyKey = some key)
    (checked : KeyChecked queueId body queue now phase) :
    Progress queueId key body false phase false false false := by
  cases checked with
  | oneShot oneShot => exact .creatingJob rfl oneShot rfl keyed
  | cron given notEmpty valid =>
      apply creatingScheduled rfl
      · simp [CreateJobBody.isCron, given, truthy, notEmpty]
      · simp [CreateJobBody.malformed, given, valid]
  | malformed given notEmpty invalid =>
      apply rejected rfl
      simp [CreateJobBody.malformed, CreateJobBody.isCron, given, truthy,
        notEmpty, invalid]

/-- What a step of the handler does, with what it creates and whether the
database fails. -/
structure StepOf (queueId : QueueId) (key : String) (body : CreateJobBody)
    (taken created failed : Bool) (world : World) (phase : SubmitPhase)
    (input : ApiInput) (next : World) (call' : SubmitCall)
    (creates fails : Bool) : Prop where
  sameQueue : call'.queueId = queueId
  sameBody : call'.body = body
  progress : Progress queueId key body taken call'.phase (created || creates)
    (failed || fails) (next.keyTaken queueId (some key))
  inserts : creates = true → world.Inserts next
  same : creates = false → world.SameTables next
  queues : next.queues = world.queues
  fails : fails = true ↔ phase.awaitsDatabase = true ∧
    ∃ error, input = .fail error

private theorem step_failed {call' : SubmitCall} {error : DbError}
    (awaits : phase.awaitsDatabase = true)
    (now : world.keyTaken queueId (some key) = taken)
    (same : call' = ⟨queueId, body, .answered 500⟩) :
    ∃ creates fails, StepOf queueId key body taken false false world phase
      (.fail error) world call' creates fails := by
  subst same
  exact ⟨false, true, rfl, rfl, now ▸ .failed, nofun, fun _ => .refl world, rfl,
    by simp [awaits]⟩

private theorem step_quiet {call' : SubmitCall} {input : ApiInput}
    (succeeds : ∀ error, input ≠ .fail error)
    (sameQueue : call'.queueId = queueId) (sameBody : call'.body = body)
    (progress : Progress queueId key body taken call'.phase created failed
      (world.keyTaken queueId (some key))) :
    ∃ creates fails, StepOf queueId key body taken created failed world phase
      input world call' creates fails := by
  refine ⟨false, false, sameQueue, sameBody, ?_, nofun, fun _ => .refl world,
    rfl, ?_⟩
  · rw [Bool.or_false, Bool.or_false]
    exact progress
  · constructor
    · nofun
    · rintro ⟨_, error, same⟩
      exact (succeeds error same).elim

theorem step (progress : Progress queueId key body taken phase created failed
      (world.keyTaken queueId (some key)))
    (found : (world.queues.get? queueId).isSome = true)
    (keyed : body.idempotencyKey = some key) (notEmpty : key ≠ "")
    {input : ApiInput} {call' : SubmitCall}
    (success : submitJob world ⟨queueId, body, phase⟩ input =
      some (next, call')) :
    ∃ creates fails, StepOf queueId key body taken created failed world phase
      input next call' creates fails := by
  generalize now : world.keyTaken queueId (some key) = isTaken at progress
  obtain ⟨phase', rfl, case⟩ := submitJob_cases success
  cases progress with
  | findingQueue =>
      cases case with
      | queueMissing missing =>
          rw [missing] at found
          cases found
      | keyGiven => exact step_quiet (fun _ fails => by cases fails) rfl rfl (now ▸ .findingKey)
      | keyAbsent _ absent => simp [keyed, truthy, notEmpty] at absent
      | failed => exact step_failed rfl now rfl
  | findingKey =>
      cases case with
      | keyTaken isTaken =>
          rw [keyed, now] at isTaken
          refine step_quiet (fun _ fails => by cases fails) rfl rfl ?_
          rw [now, isTaken]
          exact .refused rfl
      | keyFree isFree checked =>
          rw [keyed, now] at isFree
          refine step_quiet (fun _ fails => by cases fails) rfl rfl ?_
          rw [now, isFree]
          exact of_checked keyed checked
      | failed => exact step_failed rfl now rfl
  | @creatingJob queue row isFree oneShot sameQueue rowKeyed =>
      subst isFree
      cases case with
      | @jobCreated _ _ id _ created =>
          have isTaken := World.createJob_keyTaken created rowKeyed
          rw [sameQueue] at isTaken
          have wellFormed : body.malformed = false := by
            simp [CreateJobBody.malformed, oneShot]
          have after : Progress queueId key body false
              (.publishJob queue id row) true false (!body.isCron) :=
            .created rfl wellFormed rfl
          rw [oneShot] at after
          exact ⟨true, false, rfl, rfl, by rw [isTaken]; exact after,
            fun _ => World.createJob_inserts created, by simp,
            by rw [(World.createJob_spec created).1], by simp⟩
      | keyClashed clash =>
          rw [rowKeyed, now] at clash
          cases clash
      | failed => exact step_failed rfl now rfl
  | @creatingScheduled queue row isFree isCron wellFormed =>
      subst isFree
      cases case with
      | @scheduledCreated _ _ id _ created =>
          have after : Progress queueId key body false
              (.publishScheduled queue id) true false (!body.isCron) :=
            .created rfl wellFormed rfl
          rw [isCron] at after
          have inserts := World.createScheduledJob_inserts created
          obtain ⟨scheduledJobs, _, rfl⟩ :=
            World.createScheduledJob_spec created
          have still : ({ world with
              scheduledJobs := scheduledJobs } : World).keyTaken
                queueId (some key) = false := now
          exact ⟨true, false, rfl, rfl, by rw [still]; exact after,
            fun _ => inserts, by simp, rfl, by simp⟩
      | failed => exact step_failed rfl now rfl
  | created isFree wellFormed answers =>
      subst isFree
      have after : ∀ {world : World} {phase : SubmitPhase},
          world.keyTaken queueId (some key) = !body.isCron →
          phase.awaitsDatabase = false →
          Progress queueId key body false phase (true || false) (false || false)
            (world.keyTaken queueId (some key)) := by
        intro world phase still answers
        rw [still]
        exact .created rfl wellFormed answers
      cases case with
      | scheduledPublished =>
          exact ⟨false, false, rfl, rfl, after now rfl, by simp,
            fun _ => .publish _ _, rfl, by simp⟩
      | jobPublished =>
          exact ⟨false, false, rfl, rfl, after now rfl, by simp,
            fun _ => .publish _ _, rfl, by simp⟩
      | failed =>
          exact ⟨false, false, rfl, rfl, after now rfl, by simp,
            fun _ => .refl world, rfl, by simp [answers]⟩
      | _ => cases answers
  | refused =>
      cases case with
      | failed unanswered => exact (unanswered _ rfl).elim
  | rejected =>
      cases case with
      | failed unanswered => exact (unanswered _ rfl).elim
  | failed =>
      cases case with
      | failed unanswered => exact (unanswered _ rfl).elim

end Progress

/-- The steps of a request so far, and where it stands. -/
structure Handling (queueId : QueueId) (key : String) (body : CreateJobBody)
    (taken created failed : Bool)
    (trace : List (Transition (World × SubmitCall) SubmissionEvent))
    (reached : World × SubmitCall) : Prop where
  found : (reached.1.queues.get? queueId).isSome = true
  call : ∃ phase, reached.2 = ⟨queueId, body, phase⟩
  progress : Progress queueId key body taken reached.2.phase created failed
    (reached.1.keyTaken queueId (some key))
  creates : created = true ↔ ∃ transition ∈ trace, IsOwn transition ∧
    transition.before.1.Inserts transition.after.1
  quiet : created = false → ∀ transition ∈ trace, IsOwn transition →
    transition.before.1.SameTables transition.after.1
  fails : failed = true ↔ ∃ transition ∈ trace,
    transition.before.2.phase.awaitsDatabase = true ∧
      ∃ error, transition.action = .handle (.fail error)

namespace Handling

variable {queueId : QueueId} {key : String} {body : CreateJobBody}
  {taken created failed : Bool}
  {trace : List (Transition (World × SubmitCall) SubmissionEvent)}
  {world : World} {reached next : World × SubmitCall}

theorem meanwhile {other : World}
    (handling : Handling queueId key body taken created failed trace reached)
    (leaves : reached.1.Leaves queueId key other) :
    Handling queueId key body taken created failed
      (trace ++ [⟨reached, .meanwhile other, (other, reached.2)⟩])
      (other, reached.2) := by
  have notOwn : ¬IsOwn ⟨reached, .meanwhile other, (other, reached.2)⟩ := by
    rintro ⟨input, same⟩
    cases same
  constructor
  · rw [leaves.1]
    exact handling.found
  · exact handling.call
  · rw [leaves.2]
    exact handling.progress
  · rw [handling.creates]
    simp [List.mem_append, or_and_right, exists_or, notOwn]
  · intro nothing
    exact List.forall_mem_snoc (handling.quiet nothing)
      (fun own => (notOwn own).elim)
  · rw [handling.fails]
    simp [List.mem_append, or_and_right, exists_or]

theorem handle {input : ApiInput}
    (handling : Handling queueId key body taken created failed trace reached)
    (keyed : body.idempotencyKey = some key) (notEmpty : key ≠ "")
    (success : submitJob reached.1 reached.2 input = some next) :
    ∃ created failed, Handling queueId key body taken created failed
      (trace ++ [⟨reached, .handle input, next⟩]) next := by
  obtain ⟨world, call⟩ := reached
  obtain ⟨next, call'⟩ := next
  obtain ⟨phase, rfl⟩ := handling.call
  obtain ⟨creates, fails, own⟩ :=
    handling.progress.step handling.found keyed notEmpty success
  have isOwn : IsOwn ⟨(world, ⟨queueId, body, phase⟩), .handle input,
    (next, call')⟩ := ⟨input, rfl⟩
  have inserts : creates = true ↔ world.Inserts next := by
    constructor
    · exact own.inserts
    · intro inserted
      cases nothing : creates with
      | true => rfl
      | false => exact ((own.same nothing).not_inserts inserted).elim
  refine ⟨created || creates, failed || fails, ?_, ?_, own.progress, ?_, ?_, ?_⟩
  · rw [own.queues]
    exact handling.found
  · exact ⟨call'.phase, by
      rw [← own.sameQueue, ← own.sameBody]⟩
  · rw [Bool.or_eq_true, handling.creates, inserts]
    simp [List.mem_append, or_and_right, exists_or, isOwn]
  · intro nothing
    simp only [Bool.or_eq_false_iff] at nothing
    exact List.forall_mem_snoc (handling.quiet nothing.1)
      (fun _ => own.same nothing.2)
  · rw [Bool.or_eq_true, handling.fails, own.fails]
    simp [List.mem_append, or_and_right, exists_or]

theorem run (found : (world.queues.get? queueId).isSome = true)
    (keyed : body.idempotencyKey = some key) (notEmpty : key ≠ "")
    (run : Run (submissionStep queueId key)
      (world, ⟨queueId, body, .findQueue⟩) trace reached) :
    ∃ created failed, Handling queueId key body
      (world.keyTaken queueId (some key)) created failed trace reached := by
  induction run with
  | nil =>
      exact ⟨false, false, found, ⟨_, rfl⟩, .findingQueue, by simp, by simp,
        by simp⟩
  | @snoc trace middle last action _ success induction =>
      obtain ⟨created, failed, handling⟩ := induction
      cases action with
      | handle input => exact handling.handle keyed notEmpty success
      | meanwhile other =>
          simp only [submissionStep] at success
          split at success <;> cases success
          exact ⟨created, failed, handling.meanwhile ‹_›⟩

end Handling

/-! ## The requests in turn -/

/-- How a request has ended: whether the key was taken before it, and whether
it is afterwards. -/
inductive Outcome (submission : Submission) (taken after : Bool) : Prop where
  | created :
      taken = false → after = !submission.body.isCron →
      submission.body.malformed = false →
      submission.Creates → ¬submission.Fails →
      Outcome submission taken after
  | refused :
      taken = true → after = true →
      ¬submission.Creates → ¬submission.Fails →
      submission.httpStatus = 409 → submission.ChangesNothing →
      Outcome submission taken after
  | rejected :
      taken = false → after = false →
      submission.body.malformed = true →
      ¬submission.Creates → ¬submission.Fails →
      submission.httpStatus = 400 →
      Outcome submission taken after
  | failed :
      after = taken →
      ¬submission.Creates → submission.Fails →
      submission.httpStatus = 500 →
      Outcome submission taken after

section Sequences

variable {queueId : QueueId} {key : String} {world next last : World}
  {submission : Submission} {submissions : List Submission}

theorem Outcome.of_run (found : (world.queues.get? queueId).isSome = true)
    (keyed : submission.body.idempotencyKey = some key) (notEmpty : key ≠ "")
    (run : Run (submissionStep queueId key)
      (world, ⟨queueId, submission.body, .findQueue⟩) submission.trace
      (next, ⟨queueId, submission.body, .answered submission.httpStatus⟩)) :
    (next.queues.get? queueId).isSome = true ∧
      Outcome submission (world.keyTaken queueId (some key))
        (next.keyTaken queueId (some key)) := by
  obtain ⟨created, failed, handling⟩ :=
    Handling.run found keyed notEmpty run
  refine ⟨handling.found, ?_⟩
  have creates : submission.Creates ↔ created = true := handling.creates.symm
  have fails : submission.Fails ↔ failed = true := handling.fails.symm
  have quiet := handling.quiet
  have progress := handling.progress
  generalize next.keyTaken queueId (some key) = after at progress ⊢
  generalize world.keyTaken queueId (some key) = taken at progress ⊢
  dsimp only at progress
  generalize phase : SubmitPhase.answered submission.httpStatus = answered
    at progress
  cases progress with
  | created isFree wellFormed =>
      exact .created isFree rfl wellFormed (by simp [creates]) (by simp [fails])
  | refused isTaken =>
      simp only [SubmitPhase.answered.injEq] at phase
      exact .refused isTaken rfl (by simp [creates]) (by simp [fails]) phase
        (quiet rfl)
  | rejected isFree malformed =>
      simp only [SubmitPhase.answered.injEq] at phase
      exact .rejected isFree rfl malformed (by simp [creates])
        (by simp [fails]) phase
  | failed =>
      simp only [SubmitPhase.answered.injEq] at phase
      exact .failed rfl (by simp [creates]) (by simp [fails]) phase
  | _ => cases phase

theorem createOnce_cons_iff :
    CreateOnce (submission :: submissions) ↔
      (submission.Creates → ∀ other ∈ submissions, ¬other.Creates) ∧
        (¬submission.Creates →
          submission.httpStatus = 409 ∧ submission.ChangesNothing) ∧
        CreateOnce submissions := by
  constructor
  · rintro ⟨once, others⟩
    rw [List.pairwise_cons] at once
    rw [List.forall_mem_cons] at others
    refine ⟨?_, others.1, once.2, others.2⟩
    intro creates other member also
    exact once.1 other member ⟨creates, also⟩
  · rintro ⟨alone, first, once, others⟩
    refine ⟨List.pairwise_cons.mpr ⟨?_, once⟩,
      List.forall_mem_cons.mpr ⟨first, others⟩⟩
    rintro other member ⟨creates, also⟩
    exact alone creates other member also

/-- Once the key is taken, every request is refused, unless the database
fails. -/
theorem handled_taken (handled : Handled queueId key world submissions last)
    (found : (world.queues.get? queueId).isSome = true) (notEmpty : key ≠ "")
    (isTaken : world.keyTaken queueId (some key) = true) :
    (∀ submission ∈ submissions, ¬submission.Creates) ∧
      (CreateOnce submissions ↔
        ∀ submission ∈ submissions, ¬submission.Fails) := by
  induction handled with
  | nil => exact ⟨by simp, by simp, fun _ => ⟨.nil, by simp⟩⟩
  | @cons world next last submission submissions keyed run _ induction =>
      obtain ⟨foundNext, outcome⟩ := Outcome.of_run found keyed notEmpty run
      rw [isTaken] at outcome
      have still : next.keyTaken queueId (some key) = true := by
        cases outcome with
        | created isFree => cases isFree
        | refused _ after => exact after
        | rejected isFree => cases isFree
        | failed after => exact after
      obtain ⟨nothing, rest⟩ := induction foundNext still
      rw [createOnce_cons_iff, rest]
      cases outcome with
      | created isFree => cases isFree
      | rejected isFree => cases isFree
      | refused _ _ creates fails status quiet =>
          refine ⟨List.forall_mem_cons.mpr ⟨creates, nothing⟩, ?_⟩
          simp [creates, fails, status, quiet]
      | failed _ creates fails status =>
          refine ⟨List.forall_mem_cons.mpr ⟨creates, nothing⟩, ?_⟩
          simp [creates, fails, status]

/-- While the key is free, the first request creates something or fails to be
a conflict. -/
theorem empty_of_free (handled : Handled queueId key world submissions last)
    (found : (world.queues.get? queueId).isSome = true) (notEmpty : key ≠ "")
    (isFree : world.keyTaken queueId (some key) = false)
    (once : CreateOnce submissions)
    (nothing : ∀ submission ∈ submissions, ¬submission.Creates) :
    submissions = [] := by
  cases handled with
  | nil => rfl
  | cons keyed run _ =>
      obtain ⟨_, outcome⟩ := Outcome.of_run found keyed notEmpty run
      rw [isFree] at outcome
      obtain ⟨status, _⟩ :=
        once.others _ List.mem_cons_self (nothing _ List.mem_cons_self)
      cases outcome with
      | created _ _ _ creates =>
          exact (nothing _ List.mem_cons_self creates).elim
      | refused isTaken => cases isTaken
      | rejected _ _ _ _ _ rejected =>
          rw [status] at rejected
          cases rejected
      | failed _ _ _ failed =>
          rw [status] at failed
          cases failed

/-- The key is taken, or will be by the first request, or no request follows
the first. -/
def TakesKey (taken : Bool) (submissions : List Submission) : Prop :=
  taken = true ∨ ∀ first ∈ submissions.head?,
    first.body.isCron = false ∨
      first.body.malformed = false ∧ submissions.tail = []

/-- The requests create one thing at most, and all others are refused as
conflicts, exactly when no call to the database fails and the key is taken
from the start, or the first request takes it, or it is the only one. -/
theorem create_once_iff (handled : Handled queueId key world submissions last)
    (found : (world.queues.get? queueId).isSome = true)
    (notEmpty : key ≠ "") :
    CreateOnce submissions ↔
      (∀ submission ∈ submissions, ¬submission.Fails) ∧
        TakesKey (world.keyTaken queueId (some key)) submissions := by
  cases taken : world.keyTaken queueId (some key) with
  | true =>
      rw [(handled_taken handled found notEmpty taken).2]
      simp [TakesKey]
  | false =>
      cases handled with
      | nil =>
          exact ⟨fun _ => ⟨by simp, .inr (by simp)⟩, fun _ => ⟨.nil, by simp⟩⟩
      | @cons _ next _ submission submissions keyed run handled =>
          obtain ⟨foundNext, outcome⟩ := Outcome.of_run found keyed notEmpty run
          rw [taken] at outcome
          rw [createOnce_cons_iff]
          cases outcome with
          | refused isTaken => cases isTaken
          | rejected _ _ malformed creates _ status =>
              have isCron : submission.body.isCron = true := by
                simp only [CreateJobBody.malformed, Bool.and_eq_true]
                  at malformed
                exact malformed.1
              simp [creates, status, TakesKey, isCron, malformed]
          | failed _ creates fails status =>
              simp [creates, fails, status]
          | created _ after wellFormed creates fails =>
              cases isCron : submission.body.isCron with
              | false =>
                  have isTaken : next.keyTaken queueId (some key) = true := by
                    rw [after, isCron]
                    rfl
                  obtain ⟨nothing, rest⟩ :=
                    handled_taken handled foundNext notEmpty isTaken
                  rw [rest]
                  simp [creates, fails, TakesKey, isCron]
                  exact fun _ => nothing
              | true =>
                  have isFree : next.keyTaken queueId (some key) = false := by
                    rw [after, isCron]
                    rfl
                  constructor
                  · rintro ⟨alone, _, once⟩
                    have none := empty_of_free handled foundNext notEmpty isFree
                      once (alone creates)
                    subst none
                    simp [fails, TakesKey, wellFormed]
                  · rintro ⟨_, takes⟩
                    have none : submissions = [] := by
                      simpa [TakesKey, isCron, wellFormed] using takes
                    subst none
                    exact ⟨by simp, fun creates' => (creates' creates).elim,
                      .nil, by simp⟩

theorem handled_answers (handled : Handled queueId key world submissions last)
    (found : (world.queues.get? queueId).isSome = true) (notEmpty : key ≠ "") :
    ∀ submission ∈ submissions,
      (submission.httpStatus = 201 → submission.Creates) ∧
        (submission.httpStatus ≠ 500 → ¬submission.Fails) := by
  induction handled with
  | nil => simp
  | cons keyed run _ induction =>
      obtain ⟨foundNext, outcome⟩ := Outcome.of_run found keyed notEmpty run
      refine List.forall_mem_cons.mpr ⟨?_, induction foundNext⟩
      cases outcome with
      | created _ _ _ creates fails =>
          exact ⟨fun _ => creates, fun _ => fails⟩
      | refused _ _ _ fails status => simp [status, fails]
      | rejected _ _ _ _ fails status => simp [status, fails]
      | failed _ _ _ status => simp [status]

end Sequences

/-! ## Two requests -/

/-- Handle the requests in turn, each with the given events. -/
def handleAll (queueId : QueueId) (key : String) :
    World → List (CreateJobBody × List SubmissionEvent) →
      Option (List Submission × World)
  | world, [] => some ([], world)
  | world, (body, events) :: requests =>
      match record (submissionStep queueId key)
          (world, ⟨queueId, body, .findQueue⟩) events with
      | some (trace, (next, ⟨_, _, .answered httpStatus⟩)) =>
          (handleAll queueId key next requests).map fun served =>
            (⟨body, trace, httpStatus⟩ :: served.1, served.2)
      | _ => none

theorem Handled.of_handleAll {queueId : QueueId} {key : String} {world last : World}
    {requests : List (CreateJobBody × List SubmissionEvent)}
    {submissions : List Submission}
    (found : (world.queues.get? queueId).isSome = true) (notEmpty : key ≠ "")
    (keyed : ∀ request ∈ requests, request.1.idempotencyKey = some key)
    (served : handleAll queueId key world requests = some (submissions, last)) :
    Handled queueId key world submissions last := by
  induction requests generalizing world submissions with
  | nil =>
      cases served
      exact .nil
  | cons request requests induction =>
      obtain ⟨body, events⟩ := request
      obtain ⟨keyedFirst, keyedRest⟩ := List.forall_mem_cons.mp keyed
      rw [handleAll] at served
      split at served
      · rename_i trace next sameQueue sameBody httpStatus recorded
        simp only [Option.map_eq_some_iff] at served
        obtain ⟨⟨rest, final⟩, served, same⟩ := served
        cases same
        have run := Run.of_record recorded
        obtain ⟨_, _, handling⟩ := Handling.run found keyedFirst notEmpty run
        obtain ⟨phase, same⟩ := handling.call
        cases same
        exact .cons keyedFirst run (induction handling.found keyedRest served)
      · cases served

theorem exists_handled_of_check (queueId : QueueId) (key : String)
    (world : World) (requests : List (CreateJobBody × List SubmissionEvent))
    (found : (world.queues.get? queueId).isSome = true) (notEmpty : key ≠ "")
    (keyed : ∀ request ∈ requests, request.1.idempotencyKey = some key)
    (check : List Submission → Prop) [DecidablePred check]
    (passed : (handleAll queueId key world requests).any
      (fun served => decide (check served.1)) = true) :
    ∃ submissions last, Handled queueId key world submissions last ∧
      check submissions := by
  cases served : handleAll queueId key world requests with
  | none => simp [served] at passed
  | some result =>
      obtain ⟨submissions, last⟩ := result
      exact ⟨submissions, last, .of_handleAll found notEmpty keyed served,
        by simpa [served] using passed⟩

def CreateJobBody.keyed (cronExpression : Option String) : CreateJobBody where
  type := "echo"
  payload := []
  runAt := none
  cronExpression := cronExpression
  retryPolicyId := none
  idempotencyKey := some "key"
  priority := none

/-- The events of a request that creates the row of this id. -/
def creatingEvents (id : Nat) : List SubmissionEvent :=
  [.handle .ok, .handle .ok, .handle (.created [id]), .handle .ok]

theorem create_once_one_shot :
    ∃ submissions last,
      Handled 0 "key" (World.sample 1 .empty) submissions last ∧
      submissions.map (·.httpStatus) = [201, 409] ∧
      CreateOnce submissions := by
  obtain ⟨submissions, last, handled, answers, kinds⟩ :=
    exists_handled_of_check 0 "key" (World.sample 1 .empty)
      [(.keyed none, creatingEvents 7),
        (.keyed (some "* * * * *"), [.handle .ok, .handle .ok])]
      rfl (by decide) (by decide)
      (fun submissions => submissions.map (·.httpStatus) = [201, 409] ∧
        submissions.map (·.body.isCron) = [false, true]) (by decide +kernel)
  refine ⟨submissions, last, handled, answers, ?_⟩
  apply (create_once_iff handled rfl (by decide)).mpr
  constructor
  · intro submission member
    apply (handled_answers handled rfl (by decide) submission member).2
    have answer : submission.httpStatus ∈ [201, 409] :=
      answers ▸ List.mem_map_of_mem member
    rintro isError
    rw [isError] at answer
    exact absurd answer (by decide)
  · right
    intro first isFirst
    left
    obtain ⟨rest, rfl⟩ : ∃ rest, submissions = first :: rest :=
      ⟨_, List.eq_cons_of_mem_head? isFirst⟩
    rw [List.map_cons] at kinds
    exact (List.cons.inj kinds).1

/-- Two cron submissions under one key are both accepted. -/
theorem cron_created_twice :
    ∃ submissions last,
      Handled 0 "key" (World.sample 1 .empty) submissions last ∧
      submissions.map (·.httpStatus) = [201, 201] ∧
      ¬CreateOnce submissions := by
  obtain ⟨submissions, last, handled, answers⟩ :=
    exists_handled_of_check 0 "key" (World.sample 1 .empty)
      [(.keyed (some "* * * * *"), creatingEvents 5),
        (.keyed (some "* * * * *"), creatingEvents 6)]
      rfl (by decide) (by decide)
      (fun submissions => submissions.map (·.httpStatus) = [201, 201])
      (by decide +kernel)
  refine ⟨submissions, last, handled, answers, ?_⟩
  intro createOnce
  have created := handled_answers handled rfl (by decide)
  match submissions with
  | [] => simp at answers
  | [_] => simp at answers
  | first :: second :: rest =>
      simp only [List.map_cons, List.cons.injEq] at answers
      apply (List.pairwise_cons.mp createOnce.once).1 second List.mem_cons_self
      exact ⟨(created first (by simp)).1 answers.1,
        (created second (by simp)).1 answers.2.1⟩

end Chronos
