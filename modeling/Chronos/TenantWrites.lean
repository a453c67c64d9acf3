import Chronos.TenantOwners

/-!
# Who may write where

Whatever a request writes, in any interleaving with the requests of others
and with the workers, belongs to an organization of the user who made it: the
project and the queue that it creates, the jobs and the schedules that it
submits, the job that it retries or cancels and the dead letter that it
removes.  Everything else it leaves as it was.
-/

namespace Chronos

/-! ## What a handler writes -/

/-- The job is the one that the request names, or is in the queue that it
names. -/
def Request.Names (request : Request) (world : World) (job : JobId) : Prop :=
  match request with
  | .submit queueId _ | .batch queueId _ =>
      ∃ row, world.jobs.get? job = some row ∧ row.queueId = queueId
  | .retry jobId | .cancel jobId => job = jobId

/-- The rows that differ are of jobs that the request names, or schedules for
its queue. -/
structure Request.Writes (request : Request) (world next : World) :
    Prop where
  jobs : ∀ job, next.jobs.get? job ≠ world.jobs.get? job →
    request.Names next job
  deadLetters : ∀ job,
    next.deadLetters.get? job ≠ world.deadLetters.get? job →
    request.Names next job
  scheduledJobs : ∀ id,
    next.scheduledJobs.get? id ≠ world.scheduledJobs.get? id →
    ∃ row body, next.scheduledJobs.get? id = some row ∧
      request = .submit row.queueId body
  frame : next = { world with
    jobs := next.jobs, deadLetters := next.deadLetters,
    scheduledJobs := next.scheduledJobs, messages := next.messages }

namespace Request.Writes

variable {world next : World}

private theorem of_same {request : Request}
    (same : next = { world with messages := next.messages }) :
    request.Writes world next where
  jobs job differs := by
    rw [same] at differs
    exact absurd rfl differs
  deadLetters job differs := by
    rw [same] at differs
    exact absurd rfl differs
  scheduledJobs id differs := by
    rw [same] at differs
    exact absurd rfl differs
  frame := by rw [same]

private theorem of_created {request : Request}
    (frame : next = { world with jobs := next.jobs })
    (created : ∀ job, next.jobs.get? job ≠ world.jobs.get? job →
      request.Names next job) : request.Writes world next where
  jobs := created
  deadLetters job differs := by
    rw [frame] at differs
    exact absurd rfl differs
  scheduledJobs id differs := by
    rw [frame] at differs
    exact absurd rfl differs
  frame := by rw [frame]

private theorem of_submit {queueId : QueueId} {body : CreateJobBody}
    {call call' : SubmitCall} {input : ApiInput}
    (serves : Call.Serves (.submit queueId body) (.submit call))
    (taken : submitJob world call input = some (next, call')) :
    Writes (.submit queueId body) world next := by
  obtain ⟨sameQueue, jobQueue, scheduleQueue⟩ := serves
  obtain ⟨callQueue, callBody, phase⟩ := call
  obtain ⟨phase', rfl, case⟩ := submitJob_cases taken
  cases case with
  | scheduledCreated created =>
      rename_i queue row id
      obtain ⟨scheduledJobs, inserted, rfl⟩ :=
        World.createScheduledJob_spec created
      refine ⟨fun _ differs => absurd rfl differs,
        fun _ differs => absurd rfl differs, ?_, rfl⟩
      intro other differs
      change scheduledJobs.get? other ≠ _ at differs
      change ∃ row body, scheduledJobs.get? other = some row ∧ _
      rw [Table.get?_insert? inserted] at differs ⊢
      split at differs
      · refine ⟨row, body, if_pos ‹_›, ?_⟩
        rw [scheduleQueue queue row rfl]
      · exact absurd rfl differs
  | jobCreated created =>
      rename_i queue job id
      obtain ⟨frame, _, lookup⟩ := World.createJob_spec created
      apply of_created frame
      intro other differs
      rw [lookup] at differs
      split at differs
      · exact ⟨_, (lookup other).trans (if_pos ‹_›), jobQueue queue job rfl⟩
      · exact absurd rfl differs
  | _ => exact of_same rfl

private theorem of_batch {queueId : QueueId} {jobs : List BatchJobBody}
    {call call' : BatchCall} {input : ApiInput}
    (serves : Call.Serves (.batch queueId jobs) (.batch call))
    (taken : submitBatch world call input = some (next, call')) :
    Writes (.batch queueId jobs) world next := by
  obtain ⟨sameQueue, jobQueue⟩ := serves
  obtain ⟨callQueue, callJobs, phase⟩ := call
  obtain ⟨phase', rfl, case⟩ := submitBatch_cases taken
  cases case with
  | @created queue batchId rows ids _ _ created =>
      obtain ⟨frame, lookup⟩ := World.createJobs_spec created
      apply of_created frame
      intro other differs
      cases found : next.jobs.get? other with
      | none =>
          -- A row that was there is still there.
          cases old : world.jobs.get? other with
          | none =>
              rw [found, old] at differs
              exact absurd rfl differs
          | some row =>
              have kept := World.createJobs_preserves created old
              rw [found] at kept
              cases kept
      | some row =>
          refine ⟨row, found, ?_⟩
          rcases lookup other row found with old | ⟨_, job, member, rfl⟩
          · rw [found, old] at differs
            exact absurd rfl differs
          · exact jobQueue queue batchId rows rfl job
              (List.of_mem_zip member).2
  | _ => exact of_same rfl

private theorem of_update {job : JobId} {update : Job → Job}
    {request : Request}
    (only : ∀ other, request.Names next other ↔ other = job)
    (jobs : next.jobs = (world.updateJob job update).jobs)
    (deadLetters : ∀ other,
      next.deadLetters.get? other ≠ world.deadLetters.get? other →
        other = job)
    (frame : next = { world with
      jobs := next.jobs, deadLetters := next.deadLetters }) :
    request.Writes world next where
  jobs other differs := by
    apply (only other).mpr
    by_contra different
    rw [jobs, World.get?_updateJob] at differs
    simp only [if_neg different] at differs
    exact absurd Option.map_id' differs
  deadLetters other differs := (only other).mpr (deadLetters other differs)
  scheduledJobs id differs := by
    rw [frame] at differs
    exact absurd rfl differs
  frame := by rw [frame]

private theorem of_retry {jobId : JobId} {call call' : RetryCall}
    {input : ApiInput} (serves : Call.Serves (.retry jobId) (.retry call))
    (taken : retryJob world call input = some (next, call')) :
    Writes (.retry jobId) world next := by
  obtain ⟨callJob, phase⟩ := call
  have sameJob : callJob = jobId := serves
  subst sameJob
  obtain ⟨phase', rfl, case⟩ := retryJob_cases taken
  cases case with
  | committed =>
      refine of_update (fun _ => Iff.rfl) rfl ?_ rfl
      intro other differs
      by_contra different
      apply differs
      simp only [World.commitManualRetry]
      split
      · rw [Table.get?_erase, if_neg different]
      · rfl
  | _ => exact of_same rfl

private theorem of_cancel {jobId : JobId} {call call' : CancelCall}
    {input : ApiInput} (serves : Call.Serves (.cancel jobId) (.cancel call))
    (taken : cancelJob world call input = some (next, call')) :
    Writes (.cancel jobId) world next := by
  obtain ⟨callJob, phase⟩ := call
  have sameJob : callJob = jobId := serves
  subst sameJob
  obtain ⟨phase', rfl, case⟩ := cancelJob_cases taken
  cases case with
  | committed =>
      exact of_update (fun _ => Iff.rfl) rfl
        (fun other differs => absurd rfl differs) rfl
  | _ => exact of_same rfl

theorem of_handle {request : Request} {call call' : Call} {input : ApiInput}
    (serves : call.Serves request)
    (handled : handle world call input = some (next, call')) :
    request.Writes world next := by
  cases handle_cases handled with
  | submit taken =>
      cases request with
      | submit queueId body => exact of_submit serves taken
      | _ => cases serves
  | batch taken =>
      cases request with
      | batch queueId jobs => exact of_batch serves taken
      | _ => cases serves
  | retry taken =>
      cases request with
      | retry jobId => exact of_retry serves taken
      | _ => cases serves
  | cancel taken =>
      cases request with
      | cancel jobId => exact of_cancel serves taken
      | _ => cases serves

end Request.Writes

/-! ## Every step of a request -/

namespace Platform

variable {env : Env} {platform before after : Platform} {user : UserId}

theorem Grows.holds (grows : Grows before after) {kind : ResourceKind}
    {id : Nat} (holds : before.Holds user kind id) :
    after.Holds user kind id := by
  obtain ⟨org, owned, row, found, owner⟩ := holds
  exact ⟨org, grows.ownerOf owned, row, grows.organizations org row found,
    owner⟩

/-- A request that its handler works on is about what its user owns. -/
theorem Sound.holds_of_forwarded (sound : platform.Sound) {call : CallId}
    {request : Request}
    (called : platform.calls call = some ⟨user, .job request, .forwarded⟩) :
    platform.Holds user request.route.1.kind request.route.2 := by
  obtain ⟨org, resolved, entitled⟩ := (sound.checked call _ called).entitled
    request.route.1 request.route.2 rfl rfl
  have named : request.route.1.queueById = false := by cases request <;> rfl
  exact ⟨org, (resolveOrgId_eq_iff named).mp resolved,
    sound.entitled_iff.mp entitled⟩

theorem holds_of_names {request : Request}
    (holds : platform.Holds user request.route.1.kind request.route.2)
    {job : JobId} (names : request.Names platform.system.world job) :
    platform.Holds user .job job := by
  cases request with
  | submit queueId body | batch queueId jobs =>
      obtain ⟨row, found, rfl⟩ := names
      obtain ⟨org, owned, owns⟩ := holds
      refine ⟨org, ?_, owns⟩
      change platform.database.orgOfJob job = some org
      rw [orgOfJob_eq, found]
      exact owned
  | retry jobId | cancel jobId =>
      have same : job = jobId := names
      subst same
      exact holds

/-- What differs, but for the messages and the calls in progress, belongs to
the user. -/
structure WritesOwn (user : UserId) (before after : Platform) : Prop where
  projects : ∀ id, after.projects.get? id ≠ before.projects.get? id ∨
      after.projectColumns id ≠ before.projectColumns id →
    after.Holds user .project id
  queues : ∀ id,
    after.system.world.queues.get? id ≠ before.system.world.queues.get? id ∨
      after.queueName id ≠ before.queueName id ∨
      after.queueColumns id ≠ before.queueColumns id →
    after.Holds user .queue id
  jobs : ∀ id,
    after.system.world.jobs.get? id ≠ before.system.world.jobs.get? id →
    after.Holds user .job id
  deadLetters : ∀ id, after.system.world.deadLetters.get? id ≠
      before.system.world.deadLetters.get? id →
    after.Holds user .job id
  scheduledJobs : ∀ id, after.system.world.scheduledJobs.get? id ≠
      before.system.world.scheduledJobs.get? id →
    ∃ row, after.system.world.scheduledJobs.get? id = some row ∧
      after.Holds user .queue row.queueId
  rest : after = { before with
    projects := after.projects
    projectColumns := after.projectColumns
    queueName := after.queueName
    queueColumns := after.queueColumns
    system :=
      { world := { before.system.world with
          queues := after.system.world.queues
          jobs := after.system.world.jobs
          deadLetters := after.system.world.deadLetters
          scheduledJobs := after.system.world.scheduledJobs
          messages := after.system.world.messages }
        calls := after.system.calls }
    calls := after.calls }

namespace WritesOwn

private theorem of_calls {calls : CallId → Option PlatformCall}
    {systemCalls : CallId → Option Call} :
    WritesOwn user before { before with
      system := { before.system with calls := systemCalls }
      calls := calls } where
  projects _ differs := by
    rcases differs with differs | differs <;> exact absurd rfl differs
  queues _ differs := by
    rcases differs with differs | differs | differs <;>
      exact absurd rfl differs
  jobs _ differs := absurd rfl differs
  deadLetters _ differs := absurd rfl differs
  scheduledJobs _ differs := absurd rfl differs
  rest := rfl

private theorem of_createProject {body : CreateProjectBody} {id : ProjectId}
    {apiKey : String} {call : CallId} {value : PlatformCall}
    (owns : before.auth.Owns user body.orgId)
    (created : before.createProject body id apiKey = some after) :
    WritesOwn user before (after.setCall call value) := by
  obtain ⟨_, _, projects, inserted, rfl⟩ := createProject_spec created
  constructor
  · intro other differs
    have same : other = id := by
      by_contra different
      rcases differs with differs | differs
      · change projects.get? other ≠ _ at differs
        rw [Table.get?_insert? inserted, if_neg different] at differs
        exact absurd rfl differs
      · exact absurd (Function.update_of_ne different _ _) differs
    subst same
    refine ⟨body.orgId, ?_, owns⟩
    change (projects.get? other).map (·.orgId) = some body.orgId
    rw [Table.get?_insert? inserted, if_pos rfl]
    rfl
  · intro other differs
    rcases differs with differs | differs | differs <;>
      exact absurd rfl differs
  · exact fun _ differs => absurd rfl differs
  · exact fun _ differs => absurd rfl differs
  · exact fun _ differs => absurd rfl differs
  · rfl

private theorem of_createQueue {projectId : ProjectId}
    {body : CreateQueueBody} {id : QueueId} {call : CallId}
    {value : PlatformCall}
    (holds : before.Holds user .project projectId)
    (created : before.createQueue projectId body id = some after) :
    WritesOwn user before (after.setCall call value) := by
  obtain ⟨_, _, queues, inserted, rfl⟩ := createQueue_spec created
  constructor
  · intro other differs
    rcases differs with differs | differs <;> exact absurd rfl differs
  · intro other differs
    have same : other = id := by
      by_contra different
      rcases differs with differs | differs | differs
      · change queues.get? other ≠ _ at differs
        rw [Table.get?_insert? inserted, if_neg different] at differs
        exact absurd rfl differs
      · exact absurd (Function.update_of_ne different _ _) differs
      · exact absurd (Function.update_of_ne different _ _) differs
    subst same
    obtain ⟨org, owned, owns⟩ := holds
    refine ⟨org, ?_, owns⟩
    apply (orgOfQueue_eq _ _).trans
    change (queues.get? other).bind _ = some org
    rw [Table.get?_insert? inserted, if_pos rfl]
    exact owned
  · exact fun _ differs => absurd rfl differs
  · exact fun _ differs => absurd rfl differs
  · exact fun _ differs => absurd rfl differs
  · rfl

private theorem of_writes {request : Request} {next : World}
    {calls : CallId → Option Call}
    (writes : request.Writes before.system.world next)
    (holds : { before with system := ⟨next, calls⟩ }.Holds user
      request.route.1.kind request.route.2) :
    WritesOwn user before { before with system := ⟨next, calls⟩ } where
  projects _ differs := by
    rcases differs with differs | differs <;> exact absurd rfl differs
  queues id differs := by
    have same : next.queues = before.system.world.queues := by
      rw [writes.frame]
    rcases differs with differs | differs | differs
    · exact absurd (congrArg (Table.get? · id) same) differs
    · exact absurd rfl differs
    · exact absurd rfl differs
  jobs id differs := holds_of_names holds (writes.jobs id differs)
  deadLetters id differs := holds_of_names holds (writes.deadLetters id differs)
  scheduledJobs id differs := by
    obtain ⟨row, body, found, rfl⟩ := writes.scheduledJobs id differs
    exact ⟨row, found, holds⟩
  rest := by rw [writes.frame]

end WritesOwn

theorem Sound.writesOwn (sound : before.Sound) {action : PlatformAction}
    (taken : before.step env action = some after)
    (author : before.author action = some user) :
    WritesOwn user before after := by
  have grows := step_grows taken
  cases step_cases taken with
  | auth => cases author
  | began => exact .of_calls
  | moved => exact .of_calls
  | forwarded => exact .of_calls
  | projectCreated called writing isRequest created =>
      simp only [Platform.author, called, Option.map_some,
        Option.some.injEq] at author
      subst author
      have member := (sound.checked _ _ called).project _ writing isRequest
      obtain ⟨role, found⟩ := Option.isSome_iff_exists.mp member
      exact .of_createProject
        ((sound.accounts.members _ _ role).mp found).2 created
  | queueCreated called writing isRequest created =>
      simp only [Platform.author, called, Option.map_some,
        Option.some.injEq] at author
      subst author
      obtain ⟨org, resolved, entitled⟩ :=
        (sound.checked _ _ called).entitled .createQueue _
          (by rw [writing]; rfl) (by rw [isRequest]; rfl)
      refine .of_createQueue ⟨org, ?_, sound.entitled_iff.mp entitled⟩ created
      exact (resolveOrgId_eq_iff rfl).mp resolved
  | queueUpdated called writing isRequest =>
      exact absurd isRequest ((sound.checked _ _ called).update _ _ writing)
  | @system action system _ _ success _ =>
      cases action with
      | api call input =>
          cases Chronos.step_cases success with
          | started starts => cases starts
          | api present case handled =>
              obtain ⟨other, request, forwarded, serves⟩ :=
                sound.serves call _ present case.requests.1
              simp only [Platform.author, forwarded, Option.map_some,
                Option.some.injEq] at author
              subst author
              exact .of_writes (.of_handle serves handled)
                (grows.holds (sound.holds_of_forwarded forwarded))
      | _ => cases author

/-- Whatever a request writes in whatever run belongs to its user. -/
theorem requests_write_own {start last : Platform}
    {trace : List (Transition Platform PlatformAction)} (fresh : start.Fresh)
    (run : Run (Platform.step env) start trace last)
    {transition : Transition Platform PlatformAction}
    (member : transition ∈ trace)
    (author : transition.before.author transition.action = some user) :
    WritesOwn user transition.before transition.after := by
  obtain ⟨sound, taken⟩ := fresh.sound.run_before run member
  exact sound.writesOwn taken author

set_option maxRecDepth 8000 in
/-- The first team submits job 7 to its queue. -/
theorem requests_write_own_submission :
    ∃ trace last, Run (Platform.step .sample) deployed trace last ∧
      ∃ transition ∈ trace,
        transition.before.system.world.jobs.get? 7 = none ∧
        transition.after.Holds 1 .job 7 := by
  obtain ⟨trace, last, run, transition, member, author, absent, present⟩ :=
    exists_run_of_check (Platform.step .sample) deployed
      (twoTeamActions ++
        forwardActions 5 1
          (.submit 6 ⟨"echo", [], none, none, none, none, none⟩) ++
        [.system (.api 5 .ok), .system (.api 5 (.created [7]))])
      (fun trace _ => ∃ transition ∈ trace,
        transition.before.author transition.action = some 1 ∧
        transition.before.system.world.jobs.get? 7 = none ∧
        (transition.after.system.world.jobs.get? 7).isSome = true)
      (by decide)
  refine ⟨trace, last, run, transition, member, absent, ?_⟩
  apply (requests_write_own deployed_fresh run member author).jobs
  intro same
  rw [same, absent] at present
  cases present

end Platform

end Chronos
