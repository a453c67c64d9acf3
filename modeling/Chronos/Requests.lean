import Chronos.Submission

/-!
# What a request writes

Each mutating request reads, commits at most one write, publishes it, and
answers.  This file follows the steps of one request through a history and
finds the write in it.  From that: a request that ends with an error has left
the database alone, unless the error is that of the closing publish.
-/

namespace Chronos

namespace World

/-- All tables of the database are the same. -/
structure SameTables (world next : World) : Prop where
  jobs : next.jobs = world.jobs
  executions : next.executions = world.executions
  logs : next.logs = world.logs
  deadLetters : next.deadLetters = world.deadLetters
  workers : next.workers = world.workers
  queues : next.queues = world.queues
  retryPolicies : next.retryPolicies = world.retryPolicies
  scheduledJobs : next.scheduledJobs = world.scheduledJobs

theorem SameTables.refl (world : World) : SameTables world world := by
  constructor <;> rfl

theorem SameTables.publish (world : World) (message : Message) :
    SameTables world (world.publish message) := by
  constructor <;> rfl

end World

namespace Call

/-- The HTTP status with which the request has been answered. -/
def answer : Call → Option Nat
  | .submit ⟨_, _, .answered httpStatus⟩ => some httpStatus
  | .batch ⟨_, _, .answered httpStatus⟩ => some httpStatus
  | .retry ⟨_, .answered httpStatus⟩ => some httpStatus
  | .cancel ⟨_, .answered httpStatus⟩ => some httpStatus
  | _ => none

/-- The write is committed, and the request awaits its closing publish. -/
def publishing : Call → Bool
  | .submit ⟨_, _, .publishScheduled _ _⟩ => true
  | .submit ⟨_, _, .publishJob _ _ _⟩ => true
  | .batch ⟨_, _, .publish _ _⟩ => true
  | .retry ⟨_, .publish _ _⟩ => true
  | .cancel ⟨_, .publish _ _⟩ => true
  | _ => false

def request : Call → Option Request
  | .submit call => some (.submit call.queueId call.body)
  | .batch call => some (.batch call.queueId call.jobs)
  | .retry call => some (.retry call.jobId)
  | .cancel call => some (.cancel call.jobId)
  | _ => none

theorem isRequest_of_request {value : Call} {body : Request}
    (request : value.request = some body) : value.isRequest = true := by
  cases value <;> first | rfl | cases request

theorem exists_request {value : Call} (isRequest : value.isRequest = true) :
    ∃ body, value.request = some body := by
  cases value <;> first | exact ⟨_, rfl⟩ | cases isRequest

end Call

/-- The step in which a request commits its write. -/
inductive Commits (world : World) : Call → ApiInput → World → Call → Prop where
  | scheduled {queueId : QueueId} {body : CreateJobBody} {queue : Queue}
      {row : ScheduledJob} {id : ScheduledJobId} {next : World} :
      world.createScheduledJob id row = some next →
      Commits world (.submit ⟨queueId, body, .createScheduled queue row⟩)
        (.created [id]) next
        (.submit ⟨queueId, body, .publishScheduled queue id⟩)
  | submitted {queueId : QueueId} {body : CreateJobBody} {queue : Queue}
      {job : Job} {id : JobId} {next : World} :
      world.createJob id job = some next →
      Commits world (.submit ⟨queueId, body, .createJob queue job⟩)
        (.created [id]) next (.submit ⟨queueId, body, .publishJob queue id job⟩)
  | batchSubmitted {queueId : QueueId} {jobs : List BatchJobBody}
      {queue : Queue} {batchId : String} {rows : List Job} {ids : List JobId}
      {next : World} :
      ids.length = rows.length →
      world.createJobs (ids.zip rows) = some next →
      Commits world (.batch ⟨queueId, jobs, .createJobs queue batchId rows⟩)
        (.created ids) next (.batch ⟨queueId, jobs, .publish queue batchId⟩)
  | retried {job : JobId} {queueId : QueueId} {project : Option ProjectId}
      {deadLetter : Bool} :
      world.writable job = true →
      (deadLetter → (world.deadLetters.get? job).isSome) →
      Commits world (.retry ⟨job, .transaction queueId project deadLetter⟩) .ok
        (world.commitManualRetry job deadLetter)
        (.retry ⟨job, .publish queueId project⟩)
  | cancelled {job : JobId} {queueId : QueueId} {project : Option ProjectId} :
      world.writable job = true →
      Commits world (.cancel ⟨job, .update queueId project⟩) .ok
        (world.updateJob job (Job.cancel world.now))
        (.cancel ⟨job, .publish queueId project⟩)

/-- A step of a request: before its write, the write, or the publish. -/
inductive RequestStep (world : World) :
    Call → ApiInput → World → Call → Prop where
  | waited {call call' : Call} {input : ApiInput} :
      call.publishing = false →
      call.answer = none →
      call'.publishing = false →
      (∀ status ∈ call'.answer, 400 ≤ status) →
      RequestStep world call input world call'
  | committed {call call' : Call} {input : ApiInput} {next : World} :
      Commits world call input next call' →
      RequestStep world call input next call'
  | published {call call' : Call} {next : World} {status : Nat} :
      call.publishing = true →
      world.SameTables next →
      call'.publishing = false →
      call'.answer = some status →
      status < 400 →
      RequestStep world call .ok next call'
  | publishFailed {call call' : Call} :
      call.publishing = true →
      call'.publishing = false →
      call'.answer = some 500 →
      RequestStep world call (.fail .other) world call'

namespace RequestStep

variable {world next : World} {input : ApiInput}

private theorem failed {call call' : Call} (unanswered : call.answer = none)
    (quiet : call'.publishing = false) (answered : call'.answer = some 500) :
    RequestStep world call (.fail .other) world call' := by
  cases publishing : call.publishing with
  | true => exact .publishFailed publishing quiet answered
  | false =>
      apply waited publishing unanswered quiet
      intro status isAnswer
      rw [answered] at isAnswer
      cases isAnswer
      decide

private theorem of_submitJob {call call' : SubmitCall}
    (taken : submitJob world call input = some (next, call')) :
    RequestStep world (.submit call) input next (.submit call') ∧
      call'.queueId = call.queueId ∧ call'.body = call.body := by
  obtain ⟨queueId, body, phase⟩ := call
  obtain ⟨phase', rfl, case⟩ := submitJob_cases taken
  refine ⟨?_, rfl, rfl⟩
  cases case with
  | queueMissing => exact .waited rfl rfl rfl (by simp [Call.answer])
  | keyGiven => exact .waited rfl rfl rfl (by simp [Call.answer])
  | keyTaken => exact .waited rfl rfl rfl (by simp [Call.answer])
  | keyClashed => exact .waited rfl rfl rfl (by simp [Call.answer])
  | keyAbsent _ _ checked =>
      cases checked <;> exact .waited rfl rfl rfl (by simp [Call.answer])
  | keyFree _ checked =>
      cases checked <;> exact .waited rfl rfl rfl (by simp [Call.answer])
  | scheduledCreated created => exact .committed (.scheduled created)
  | jobCreated created => exact .committed (.submitted created)
  | scheduledPublished =>
      exact .published rfl (.publish _ _) rfl rfl (by decide)
  | jobPublished => exact .published rfl (.publish _ _) rfl rfl (by decide)
  | failed unanswered =>
      refine failed ?_ rfl rfl
      cases phase with
      | answered status => exact (unanswered status rfl).elim
      | _ => rfl

private theorem of_submitBatch {call call' : BatchCall}
    (taken : submitBatch world call input = some (next, call')) :
    RequestStep world (.batch call) input next (.batch call') ∧
      call'.queueId = call.queueId ∧ call'.jobs = call.jobs := by
  obtain ⟨queueId, jobs, phase⟩ := call
  obtain ⟨phase', rfl, case⟩ := submitBatch_cases taken
  refine ⟨?_, rfl, rfl⟩
  cases case with
  | created sameLength created =>
      exact .committed (.batchSubmitted sameLength created)
  | published => exact .published rfl (.publish _ _) rfl rfl (by decide)
  | failed unanswered =>
      refine failed ?_ rfl rfl
      cases phase with
      | answered status => exact (unanswered status rfl).elim
      | _ => rfl
  | _ => exact .waited rfl rfl rfl (by simp [Call.answer])

private theorem of_retryJob {call call' : RetryCall}
    (taken : retryJob world call input = some (next, call')) :
    RequestStep world (.retry call) input next (.retry call') ∧
      call'.jobId = call.jobId := by
  obtain ⟨job, phase⟩ := call
  obtain ⟨phase', rfl, case⟩ := retryJob_cases taken
  refine ⟨?_, rfl⟩
  cases case with
  | committed writable letter => exact .committed (.retried writable letter)
  | published => exact .published rfl (.publish _ _) rfl rfl (by decide)
  | failed unanswered =>
      refine failed ?_ rfl rfl
      cases phase with
      | answered status => exact (unanswered status rfl).elim
      | _ => rfl
  | _ => exact .waited rfl rfl rfl (by simp [Call.answer])

private theorem of_cancelJob {call call' : CancelCall}
    (taken : cancelJob world call input = some (next, call')) :
    RequestStep world (.cancel call) input next (.cancel call') ∧
      call'.jobId = call.jobId := by
  obtain ⟨job, phase⟩ := call
  obtain ⟨phase', rfl, case⟩ := cancelJob_cases taken
  refine ⟨?_, rfl⟩
  cases case with
  | committed writable => exact .committed (.cancelled writable)
  | published => exact .published rfl (.publish _ _) rfl rfl (by decide)
  | failed unanswered =>
      refine failed ?_ rfl rfl
      cases phase with
      | answered status => exact (unanswered status rfl).elim
      | _ => rfl
  | _ => exact .waited rfl rfl rfl (by simp [Call.answer])

theorem of_handle {call call' : Call}
    (taken : handle world call input = some (next, call')) :
    RequestStep world call input next call' ∧
      call'.request = call.request := by
  cases handle_cases taken with
  | submit success =>
      obtain ⟨case, queueId, body⟩ := of_submitJob success
      exact ⟨case, by simp [Call.request, queueId, body]⟩
  | batch success =>
      obtain ⟨case, queueId, jobs⟩ := of_submitBatch success
      exact ⟨case, by simp [Call.request, queueId, jobs]⟩
  | retry success =>
      obtain ⟨case, job⟩ := of_retryJob success
      exact ⟨case, by simp [Call.request, job]⟩
  | cancel success =>
      obtain ⟨case, job⟩ := of_cancelJob success
      exact ⟨case, by simp [Call.request, job]⟩

end RequestStep

/-! ## The steps of one request -/

namespace Action

/-- The request whose handler takes a step. -/
def handles : Action → Option CallId
  | .api call _ => some call
  | _ => none

/-- The request whose awaited call fails in this step. -/
def failsRequest : Action → Option CallId
  | .api call (.fail _) => some call
  | _ => none

end Action

namespace State

/-- The request with this identifier, with all that it has done. -/
def request? (state : State) (call : CallId) : Option Call :=
  (state.calls call).filter Call.isRequest

theorem request?_eq_some_iff {state : State} {call : CallId} {value : Call} :
    state.request? call = some value ↔
      state.calls call = some value ∧ value.isRequest = true := by
  simp [request?, Option.filter_eq_some_iff]

end State

/-- What a step does to one request: its handler moves on, it begins, or
nothing. -/
inductive RequestChange (state next : State) (call : CallId) :
    Action → Prop where
  | own {input : ApiInput} {value value' : Call} :
      state.request? call = some value →
      RequestStep state.world value input next.world value' →
      value'.request = value.request →
      next.request? call = some value' →
      RequestChange state next call (.api call input)
  | begun {body : Request} :
      state.request? call = none →
      next.request? call = some body.begin →
      RequestChange state next call (.request call body)
  | kept {action : Action} :
      action.handles ≠ some call →
      next.request? call = state.request? call →
      RequestChange state next call action

section Steps

variable {env : Env} {start last state next : State} {action : Action}
  {trace : List (Transition State Action)}

theorem step_request (taken : step env state action = some next)
    (call : CallId) : RequestChange state next call action := by
  have updated : ∀ {world : World} {changed : CallId} {result : Option Call},
      action.handles ≠ some call →
      (changed = call → state.request? call = none ∧
        result.filter Call.isRequest = none) →
      RequestChange state
        ⟨world, Function.update state.calls changed result⟩ call action := by
    intro world changed result other unseen
    refine .kept other ?_
    by_cases same : changed = call
    · obtain ⟨before, after⟩ := unseen same
      subst changed
      rw [before]
      simp [State.request?, Function.update_self, after]
    · simp only [State.request?, Function.update_of_ne (Ne.symm same)]
  have hidden : ∀ {value : Call}, state.calls call = some value →
      value.isRequest = false → state.request? call = none := by
    intro value called isRequest
    simp [State.request?, called, isRequest]
  have unused : state.calls call = none → state.request? call = none := by
    intro absent
    simp [State.request?, absent]
  cases step_cases taken with
  | @api acting value value' input world called _ handled =>
      by_cases same : acting = call
      · subst acting
        obtain ⟨case, request⟩ := RequestStep.of_handle handled
        have isRequest : ∃ body, value.request = some body := by
          cases value <;> first | exact ⟨_, rfl⟩ | cases handled
        obtain ⟨body, isBody⟩ := isRequest
        refine .own (State.request?_eq_some_iff.mpr
          ⟨called, Call.isRequest_of_request isBody⟩) case request ?_
        apply State.request?_eq_some_iff.mpr
        exact ⟨Function.update_self .., Call.isRequest_of_request
          (request.trans isBody)⟩
      · exact updated (by simpa [Action.handles] using same)
          (fun isSame => (same isSame).elim)
  | @started _ started value starts absent =>
      cases starts with
      | @request _ body =>
          by_cases same : started = call
          · subst started
            refine .begun (unused absent) ?_
            apply State.request?_eq_some_iff.mpr
            refine ⟨Function.update_self .., ?_⟩
            cases body <;> rfl
          · exact updated (by simp [Action.handles])
              (fun isSame => (same isSame).elim)
      | _ =>
          apply updated (by simp [Action.handles])
          rintro rfl
          exact ⟨unused absent, rfl⟩
  | @poll acting _ _ _ poll' called =>
      apply updated (by simp [Action.handles])
      rintro rfl
      exact ⟨hidden called rfl, by cases poll' <;> rfl⟩
  | @exec acting _ _ _ exec' called =>
      apply updated (by simp [Action.handles])
      rintro rfl
      exact ⟨hidden called rfl, by cases exec' <;> rfl⟩
  | @reap acting _ _ _ _ phase' called =>
      apply updated (by simp [Action.handles])
      rintro rfl
      exact ⟨hidden called rfl, by cases phase' <;> rfl⟩
  | @tick acting _ _ _ _ phase' called =>
      apply updated (by simp [Action.handles])
      rintro rfl
      exact ⟨hidden called rfl, by cases phase' <;> rfl⟩
  | @launched acting exec _ _ _ _ called _ _ different absent =>
      refine .kept (by simp [Action.handles]) ?_
      by_cases same : call = exec
      · subst call
        rw [unused absent]
        simp [State.request?, State.set, Call.isRequest]
      · by_cases isPoll : call = acting
        · subst call
          rw [hidden called rfl]
          simp [State.request?, State.set, same, Call.isRequest]
        · simp [State.request?, State.set, same, isPoll]
  | exited =>
      refine .kept (by simp [Action.handles]) ?_
      simp only [State.request?, State.exitWorker]
      split
      · rename_i worker _ belongs
        cases called : state.calls call with
        | none => rfl
        | some value =>
            simp only [State.belongs, called, Option.any_some,
              decide_eq_true_eq] at belongs
            cases value <;> first | rfl | cases belongs
      · rfl
  | _ => exact .kept (by simp [Action.handles]) rfl

end Steps

/-! ## The history of one request -/

section History

variable {env : Env} {start last : State} {call : CallId} {body : Request}
  {trace : List (Transition State Action)}
  {transition : Transition State Action}

/-- No step of this request has changed the database. -/
def Untouched (call : CallId) (trace : List (Transition State Action)) :
    Prop :=
  ∀ transition ∈ trace, transition.action.handles = some call →
    transition.before.world.SameTables transition.after.world

/-- The request commits its write in this step. -/
def CommitsIn (call : CallId) (body : Request)
    (transition : Transition State Action) : Prop :=
  ∃ input value value', transition.action = .api call input ∧
    transition.before.calls call = some value ∧ value.request = some body ∧
    Commits transition.before.world value input transition.after.world value'

/-- The closing publish of this request fails. -/
def PublishFails (call : CallId) (transition : Transition State Action) :
    Prop :=
  transition.action.failsRequest = some call ∧
    (transition.before.calls call).any Call.publishing = true

instance (call : CallId) (transition : Transition State Action) :
    Decidable (PublishFails call transition) :=
  inferInstanceAs (Decidable (_ ∧ _))

/-- One step of the request commits, and no other changes the database. -/
inductive CommitsOnce (call : CallId) (body : Request) :
    List (Transition State Action) → Prop where
  | intro {earlier later : List (Transition State Action)}
      {commit : Transition State Action} :
      Untouched call earlier →
      CommitsIn call body commit →
      Untouched call later →
      CommitsOnce call body (earlier ++ commit :: later)

theorem Untouched.snoc (untouched : Untouched call trace)
    (same : transition.action.handles = some call →
      transition.before.world.SameTables transition.after.world) :
    Untouched call (trace ++ [transition]) :=
  List.forall_mem_snoc untouched same

theorem CommitsOnce.snoc (commits : CommitsOnce call body trace)
    (same : transition.action.handles = some call →
      transition.before.world.SameTables transition.after.world) :
    CommitsOnce call body (trace ++ [transition]) := by
  cases commits with
  | intro before commit after =>
      rw [List.append_assoc, List.cons_append]
      exact .intro before commit (after.snoc same)

/-- What a request has done in a history, by where it stands. -/
inductive RequestHistory (call : CallId)
    (trace : List (Transition State Action)) : Option Call → Prop where
  | absent :
      (∀ transition ∈ trace, transition.action.handles ≠ some call) →
      RequestHistory call trace none
  | unwritten {value : Call} :
      value.publishing = false →
      (∀ status ∈ value.answer, 400 ≤ status) →
      Untouched call trace →
      (∀ transition ∈ trace, ¬PublishFails call transition) →
      RequestHistory call trace (some value)
  | written {value : Call} {body : Request} :
      value.request = some body →
      value.publishing = true →
      CommitsOnce call body trace →
      (∀ transition ∈ trace, ¬PublishFails call transition) →
      RequestHistory call trace (some value)
  | answered {value : Call} {body : Request} {status : Nat} :
      value.request = some body →
      value.publishing = false →
      value.answer = some status →
      status < 400 →
      CommitsOnce call body trace →
      (∀ transition ∈ trace, ¬PublishFails call transition) →
      RequestHistory call trace (some value)
  | failed {value : Call} {body : Request} :
      value.request = some body →
      value.publishing = false →
      value.answer = some 500 →
      CommitsOnce call body trace →
      (∃ transition ∈ trace, PublishFails call transition) →
      RequestHistory call trace (some value)

theorem PublishFails.handles (fails : PublishFails call transition) :
    transition.action.handles = some call := by
  obtain ⟨failed, _⟩ := fails
  unfold Action.failsRequest at failed
  split at failed <;> cases failed
  rename_i action
  rw [action]
  rfl

theorem Commits.unwritten {world next : World} {value value' : Call}
    {input : ApiInput} (commits : Commits world value input next value') :
    value.publishing = false ∧ value.answer = none ∧
      value'.publishing = true ∧ ∀ error, input ≠ .fail error := by
  cases commits <;> exact ⟨rfl, rfl, rfl, by intro error same; cases same⟩

namespace RequestHistory

theorem other {value : Option Call} (history : RequestHistory call trace value)
    (other : transition.action.handles ≠ some call) :
    RequestHistory call (trace ++ [transition]) value := by
  have same : transition.action.handles = some call →
      transition.before.world.SameTables transition.after.world :=
    fun own => (other own).elim
  have noFail : (∀ old ∈ trace, ¬PublishFails call old) →
      ∀ old ∈ trace ++ [transition], ¬PublishFails call old :=
    fun before => List.forall_mem_snoc before fun fails => other fails.handles
  cases history with
  | absent none => exact .absent (List.forall_mem_snoc none other)
  | unwritten waits errors untouched none =>
      exact .unwritten waits errors (untouched.snoc same) (noFail none)
  | written request publishes commits none =>
      exact .written request publishes (commits.snoc same) (noFail none)
  | answered request waits answer small commits none =>
      exact .answered request waits answer small (commits.snoc same)
        (noFail none)
  | failed request waits answer commits fails =>
      obtain ⟨old, member, failed⟩ := fails
      exact .failed request waits answer (commits.snoc same)
        ⟨old, List.mem_append_left _ member, failed⟩

private theorem own {state next : State} {input : ApiInput}
    {value value' : Call} {world : World}
    (history : RequestHistory call trace (some value))
    (found : state.request? call = some value)
    (case : RequestStep state.world value input world value')
    (sameWorld : next.world = world)
    (request : value'.request = value.request) :
    RequestHistory call (trace ++ [⟨state, .api call input, next⟩])
      (some value') := by
  have called := (State.request?_eq_some_iff.mp found).1
  have noFail : value.publishing = false ∨ (∀ error, input ≠ .fail error) →
      (∀ old ∈ trace, ¬PublishFails call old) →
      ∀ old ∈ trace ++ [⟨state, .api call input, next⟩],
        ¬PublishFails call old := by
    intro harmless before
    apply List.forall_mem_snoc before
    rintro ⟨fails, publishes⟩
    simp only [called, Option.any_some] at publishes
    rcases harmless with waits | succeeds
    · rw [waits] at publishes
      cases publishes
    · cases input with
      | fail error => exact succeeds error rfl
      | _ => cases fails
  cases case with
  | waited waits noAnswer waits' errors =>
      have unchanged : state.world.SameTables next.world := by
        rw [sameWorld]
        exact .refl _
      cases history with
      | unwritten _ _ untouched none =>
          exact .unwritten waits' errors (untouched.snoc fun _ => unchanged)
            (noFail (.inl waits) none)
      | written _ publishes => simp [waits] at publishes
      | answered _ _ answer => simp [noAnswer] at answer
      | failed _ _ answer => simp [noAnswer] at answer
  | committed commits =>
      obtain ⟨waits, noAnswer, publishes, succeeds⟩ := commits.unwritten
      cases history with
      | unwritten _ _ untouched none =>
          have isRequest := (State.request?_eq_some_iff.mp found).2
          obtain ⟨body, isBody⟩ := Call.exists_request isRequest
          refine .written (request.trans isBody) publishes ?_
            (noFail (.inl waits) none)
          refine .intro untouched ?_ (by simp [Untouched])
          refine ⟨input, value, value', rfl, called, isBody, ?_⟩
          rw [sameWorld]
          exact commits
      | written _ publishes => simp [waits] at publishes
      | answered _ _ answer => simp [noAnswer] at answer
      | failed _ _ answer => simp [noAnswer] at answer
  | published publishes same waits' answer small =>
      cases history with
      | unwritten waits => simp [waits] at publishes
      | written isBody _ commits none =>
          exact .answered (request.trans isBody) waits' answer small
            (commits.snoc fun _ => sameWorld ▸ same)
            (noFail (.inr (by intro error same; cases same)) none)
      | answered _ waits => simp [waits] at publishes
      | failed _ waits => simp [waits] at publishes
  | publishFailed publishes waits' answer =>
      have unchanged : state.world.SameTables next.world := by
        rw [sameWorld]
        exact .refl _
      cases history with
      | unwritten waits => simp [waits] at publishes
      | written isBody _ commits none =>
          refine .failed (request.trans isBody) waits' answer
            (commits.snoc fun _ => unchanged)
            ⟨_, List.mem_append_right _ (List.mem_singleton_self _), rfl, ?_⟩
          simpa [called] using publishes
      | answered _ waits => simp [waits] at publishes
      | failed _ waits => simp [waits] at publishes

theorem step {state next : State} {action : Action}
    (history : RequestHistory call trace (state.request? call))
    (taken : Chronos.step env state action = some next) :
    RequestHistory call (trace ++ [⟨state, action, next⟩])
      (next.request? call) := by
  cases step_request taken call with
  | own found case request after =>
      rw [found] at history
      rw [after]
      exact history.own found case rfl request
  | kept others same =>
      rw [same]
      exact history.other others
  | @begun body absent after =>
      rw [absent] at history
      rw [after]
      cases history with
      | absent none =>
          have noOwn : ∀ transition ∈
              trace ++ [⟨state, .request call body, next⟩],
              transition.action.handles ≠ some call :=
            List.forall_mem_snoc none (by simp [Action.handles])
          refine .unwritten ?_ ?_ ?_ ?_
          · cases body <;> rfl
          · cases body <;> simp [Request.begin, Call.answer]
          · exact fun transition member own => (noOwn transition member own).elim
          · exact fun transition member fails =>
              noOwn transition member fails.handles

/-- In every run, each request has committed its write once, or not at all. -/
theorem run (run : Run (Chronos.step env) start trace last)
    (initial : Initial start) (call : CallId) :
    RequestHistory call trace (last.request? call) := by
  induction run with
  | nil =>
      simp only [State.request?, initial.calls call, Option.filter_none]
      exact .absent (by simp)
  | snoc _ taken induction => exact induction.step taken

end RequestHistory

end History

/-! ## Errors leave no trace -/

namespace World

theorem createJob_rows {world next : World} {id : JobId} {job : Job}
    (created : world.createJob id job = some next) :
    next.jobs.rows = world.jobs.rows ++ [(id, job.stamped world.now)] := by
  obtain ⟨-, jobs, inserted, rfl⟩ := createJob_eq_some created
  exact (Table.insert?_eq_some_iff.mp inserted).2

theorem createJobs_rows {world next : World} {rows : List (JobId × Job)}
    (created : world.createJobs rows = some next) :
    next.jobs.rows = world.jobs.rows ++
      rows.map fun row => (row.1, row.2.stamped world.now) := by
  induction rows generalizing world with
  | nil =>
      cases created
      simp
  | cons head rows induction =>
      obtain ⟨id, job⟩ := head
      obtain ⟨middle, first, created⟩ := createJobs_cons_eq_some.mp created
      have sameNow : middle.now = world.now := by
        rw [(createJob_spec first).1]
      rw [induction created, createJob_rows first, sameNow]
      simp

end World

namespace Call

/-- The write that the request is about to commit finds everything as it
leaves it. -/
def repeats (world : World) : Call → Prop
  | .batch ⟨_, _, .createJobs _ _ rows⟩ => rows = []
  | .retry ⟨job, .transaction _ _ deadLetter⟩ =>
      deadLetter = false ∧
        ∀ row, world.jobs.get? job = some row →
          row.resetForRetry world.now = row
  | .cancel ⟨job, .update _ _⟩ =>
      ∀ row, world.jobs.get? job = some row → row.cancel world.now = row
  | _ => False

end Call

/-- A committed write changes the database unless it repeats what is there. -/
theorem Commits.sameTables_iff {world next : World} {value value' : Call}
    {input : ApiInput} (commits : Commits world value input next value') :
    world.SameTables next ↔ value.repeats world := by
  have frame : ∀ {next : World}, next = { world with jobs := next.jobs } →
      (world.SameTables next ↔ next.jobs.rows = world.jobs.rows) := by
    intro next same
    constructor
    · intro tables
      rw [tables.jobs]
    · intro rows
      have jobs : next.jobs = world.jobs := by
        cases table : next.jobs
        cases old : world.jobs
        rw [table, old] at rows
        subst rows
        rfl
      rw [same, jobs]
      exact .refl _
  cases commits with
  | scheduled created =>
      obtain ⟨scheduledJobs, inserted, rfl⟩ :=
        World.createScheduledJob_spec created
      have appended := (Table.insert?_eq_some_iff.mp inserted).2
      refine iff_of_false (fun tables => ?_) id
      have same : scheduledJobs = world.scheduledJobs := tables.scheduledJobs
      rw [same] at appended
      simp at appended
  | @submitted _ _ _ job id next created =>
      rw [frame (World.createJob_spec created).1, World.createJob_rows created]
      simp [Call.repeats]
  | @batchSubmitted _ _ _ _ rows ids _ sameLength created =>
      rw [frame (World.createJobs_spec created).1,
        World.createJobs_rows created]
      constructor
      · intro same
        have empty : ids.zip rows = [] := by simpa using same
        rcases List.zip_eq_nil_iff.mp empty with rfl | none
        · exact List.length_eq_zero_iff.mp sameLength.symm
        · exact none
      · intro none
        cases none
        simp
  | @retried job _ _ deadLetter _ found =>
      constructor
      · intro tables
        have unmarked : deadLetter = false := by
          cases deadLetter with
          | false => rfl
          | true =>
              obtain ⟨row, isRow⟩ := Option.isSome_iff_exists.mp (found rfl)
              have same := tables.deadLetters
              simp only [World.commitManualRetry, if_true] at same
              rw [← same, Table.get?_erase] at isRow
              simp at isRow
        exact ⟨unmarked, Table.modify_eq_self_iff.mp tables.jobs⟩
      · rintro ⟨unmarked, fixed⟩
        constructor <;> try rfl
        · exact Table.modify_eq_self_iff.mpr fixed
        · simp [World.commitManualRetry, unmarked]
  | cancelled =>
      constructor
      · intro tables
        exact Table.modify_eq_self_iff.mp tables.jobs
      · intro fixed
        constructor <;> try rfl
        exact Table.modify_eq_self_iff.mpr fixed

/-- In this step the request commits a write that changes something. -/
def WritesIn (call : CallId) (transition : Transition State Action) : Prop :=
  ∃ input value value', transition.action = .api call input ∧
    transition.before.calls call = some value ∧
    Commits transition.before.world value input transition.after.world value' ∧
    ¬value.repeats transition.before.world

/-- The request has written, and then its closing publish fails. -/
def LosesPublish (call : CallId) (trace : List (Transition State Action)) :
    Prop :=
  (∃ transition ∈ trace, PublishFails call transition) ∧
    ∃ transition ∈ trace, WritesIn call transition

/-- If the request is answered with an error, none of its steps has changed
the database. -/
def ErrorsLeaveNoTrace (call : CallId)
    (trace : List (Transition State Action)) (last : State) : Prop :=
  ∀ value status, last.request? call = some value →
    value.answer = some status → 400 ≤ status → Untouched call trace

section Errors

variable {env : Env} {start last : State} {call : CallId} {body : Request}
  {trace : List (Transition State Action)}

theorem Call.answer_of_publishing {value : Call}
    (publishes : value.publishing = true) : value.answer = none := by
  unfold Call.publishing at publishes
  split at publishes <;> first | rfl | cases publishes

/-- A request whose write is committed has changed the database in that step
or not at all. -/
theorem CommitsOnce.untouched_iff (commits : CommitsOnce call body trace) :
    Untouched call trace ↔
      ¬∃ transition ∈ trace, WritesIn call transition := by
  constructor
  · rintro untouched ⟨transition, member, input, value, value', action, _,
      commits, writes⟩
    apply writes
    apply commits.sameTables_iff.mp
    exact untouched transition member (by rw [action]; rfl)
  · intro noWrite
    cases commits with
    | @intro earlier later commit before commits after =>
        obtain ⟨input, value, value', action, called, _, commits⟩ := commits
        intro transition member own
        rcases List.mem_append.mp member with inEarlier | inRest
        · exact before transition inEarlier own
        · rcases List.mem_cons.mp inRest with rfl | inLater
          · apply commits.sameTables_iff.mpr
            by_contra writes
            exact noWrite ⟨_, member, input, value, value', action, called,
              commits, writes⟩
          · exact after transition inLater own

/-- A request that ends with an error has left the database as it was, unless
the error is that of its closing publish. -/
theorem errors_leave_no_trace (run : Run (step env) start trace last)
    (initial : Initial start) (call : CallId) :
    ErrorsLeaveNoTrace call trace last ↔ ¬LosesPublish call trace := by
  have history := RequestHistory.run run initial call
  have noLoss : (∀ transition ∈ trace, ¬PublishFails call transition) →
      ¬LosesPublish call trace := by
    rintro none ⟨⟨transition, member, fails⟩, _⟩
    exact none transition member fails
  generalize present : last.request? call = value at history
  cases history with
  | absent none =>
      refine iff_of_true ?_ (noLoss fun transition member fails =>
        none transition member fails.handles)
      intro value status found
      rw [present] at found
      cases found
  | unwritten _ _ untouched none =>
      exact iff_of_true (fun _ _ _ _ _ => untouched) (noLoss none)
  | written _ publishes _ none =>
      refine iff_of_true ?_ (noLoss none)
      intro value status found answer
      rw [present] at found
      cases found
      rw [Call.answer_of_publishing publishes] at answer
      cases answer
  | answered _ _ answer small _ none =>
      refine iff_of_true ?_ (noLoss none)
      intro value status found other large
      rw [present] at found
      cases found
      cases answer.symm.trans other
      exact (Nat.not_le.mpr small large).elim
  | failed _ _ answer commits fails =>
      rw [LosesPublish, not_and]
      constructor
      · intro noTrace _
        have untouched := noTrace _ _ present answer (by decide)
        exact commits.untouched_iff.mp untouched
      · intro noWrite value status _ _ _
        exact commits.untouched_iff.mpr (noWrite fails)

/-- A cancel of a job that is completed is refused. -/
theorem errors_leave_no_trace_refused :
    ∃ trace last value,
      Run (step .sample)
        (World.sample 1 ⟨[(7, .sample .completed)], by simp⟩).idle trace last ∧
      last.request? 1 = some value ∧ value.answer = some 400 ∧
      Untouched 1 trace := by
  obtain ⟨trace, last, run, answered, succeeds⟩ :=
    exists_run_of_check (step .sample)
      (World.sample 1 ⟨[(7, .sample .completed)], by simp⟩).idle
      [.request 1 (.cancel 7), .api 1 .ok]
      (fun trace last =>
        (∃ value ∈ last.request? 1, value.answer = some 400) ∧
        ∀ transition ∈ trace, ¬PublishFails 1 transition)
      (by decide)
  obtain ⟨value, found, answer⟩ := answered
  have noTrace := (errors_leave_no_trace run (World.idle_initial fun _ => rfl)
    1).mpr (fun loses => by
      obtain ⟨⟨transition, member, fails⟩, _⟩ := loses
      exact succeeds transition member fails)
  exact ⟨trace, last, value, run, found, answer,
    noTrace value 400 found answer (by decide)⟩

/-- Without the condition it fails: the publish after a submission fails, and
the request is answered 500 with its job in the queue. -/
theorem submission_kept_on_error :
    ¬∀ (env : Env) (start last : State)
      (trace : List (Transition State Action)) (call : CallId),
      Run (step env) start trace last → Initial start →
      ErrorsLeaveNoTrace call trace last := by
  intro noTrace
  obtain ⟨trace, last, run, ⟨value, found, answer⟩, transition, member, own,
      absent, created⟩ :=
    exists_run_of_check (step .sample) (World.sample 1 .empty).idle
      [.request 1 (.submit 0 ⟨"echo", [], none, none, none, none, none⟩),
        .api 1 .ok, .api 1 (.created [7]), .api 1 (.fail .other)]
      (fun trace last =>
        (∃ value ∈ last.request? 1, value.answer = some 500) ∧
        ∃ transition ∈ trace, transition.action.handles = some 1 ∧
          transition.before.status? 7 = none ∧
          transition.after.status? 7 = some .queued)
      (by decide)
  have untouched := noTrace _ _ last trace 1 run
    (World.idle_initial fun _ => rfl) value 500 found answer (by decide)
  have same := (untouched transition member own).jobs
  rw [State.status?, same] at created
  rw [State.status?, created] at absent
  cases absent

end Errors

end Chronos
