import Chronos.Cron
import Chronos.Messages
import Chronos.Ownership
import Chronos.Socket

/-!
# The fan-out of job events

A message names the queue of its job as the publisher has read it, and only
the API also names the project.  So a message of the API goes to the rooms of
the queue and of the project, and reaches those who are in both twice; a
message of a worker goes to the room of the queue alone.
-/

namespace Chronos

namespace World

def queueOf (world : World) (job : JobId) : Option QueueId :=
  (world.jobs.get? job).map (·.queueId)

def definitionQueue (world : World) (id : ScheduledJobId) : Option QueueId :=
  (world.scheduledJobs.get? id).map (·.queueId)

/-- Jobs and definitions stay in their queue, and queues in their project. -/
structure SameHomes (world next : World) : Prop where
  queueOf : ∀ {job queue}, world.queueOf job = some queue →
    next.queueOf job = some queue
  definitionQueue : ∀ {id queue}, world.definitionQueue id = some queue →
    next.definitionQueue id = some queue
  projectOf : ∀ queue, next.projectOf queue = world.projectOf queue

end World

section Homes

variable {env : Env} {state next : State} {action : Action}

theorem step_queueOf (taken : step env state action = some next) {job : JobId}
    {queue : QueueId} (found : state.world.queueOf job = some queue) :
    next.world.queueOf job = some queue := by
  obtain ⟨row, present, rfl⟩ := Option.map_eq_some_iff.mp found
  obtain ⟨row', present', _⟩ := step_job taken present
  rw [World.queueOf, present', Option.map_some,
    (step_columns taken present present').queueId]

theorem step_definitionQueue (taken : step env state action = some next)
    {id : ScheduledJobId} {queue : QueueId}
    (found : state.world.definitionQueue id = some queue) :
    next.world.definitionQueue id = some queue := by
  obtain ⟨row, present, rfl⟩ := Option.map_eq_some_iff.mp found
  obtain ⟨row', present', same | write⟩ := step_definition taken present
  · rw [World.definitionQueue, present', Option.map_some, same]
  · rw [World.definitionQueue, present', Option.map_some]
    cases write with
    | deactivate => rfl
    | advance => rfl

theorem step_projectOf (taken : step env state action = some next)
    (queue : QueueId) :
    next.world.projectOf queue = state.world.projectOf queue := by
  cases step_cases taken with
  | registered success =>
      obtain ⟨workers, _, rfl⟩ := World.registerWorker_eq_some success
      rfl
  | @queueUpdated updated patch =>
      simp only [World.projectOf, World.updateQueue, Table.get?_modify,
        Option.map_map]
      apply Option.map_congr
      intro row _
      dsimp only [Function.comp_apply]
      split
      · rfl
      · rfl
  | poll _ case => rw [case.frame]; rfl
  | exec _ case => rw [case.frame]; rfl
  | reap _ case => rw [case.frame]; rfl
  | tick _ case => rw [case.frame]; rfl
  | api _ case => rw [case.frame]; rfl
  | _ => rfl

theorem step_homes (taken : step env state action = some next) :
    state.world.SameHomes next.world :=
  ⟨step_queueOf taken, step_definitionQueue taken, step_projectOf taken⟩

end Homes

/-! ## What a call knows of queues and projects -/

def TickPhase.Informed (world : World) : TickPhase → Prop
  | .createJob due job _ _ => job.queueId = due.row.queueId
  | .advance due newJob _ _ => world.queueOf newJob = some due.row.queueId
  | .publish due newJob _ => world.queueOf newJob = some due.row.queueId
  | _ => True

def SubmitPhase.Informed (world : World) (queueId : QueueId) :
    SubmitPhase → Prop
  | .findQueue => True
  | .findKey queue => world.projectOf queueId = some queue.projectId
  | .createScheduled queue row =>
      world.projectOf queueId = some queue.projectId ∧ row.queueId = queueId
  | .publishScheduled queue id =>
      world.projectOf queueId = some queue.projectId ∧
        world.definitionQueue id = some queueId
  | .createJob queue job =>
      world.projectOf queueId = some queue.projectId ∧ job.queueId = queueId
  | .publishJob queue id _ =>
      world.projectOf queueId = some queue.projectId ∧
        world.queueOf id = some queueId
  | .answered _ => True

def BatchPhase.Informed (world : World) (queueId : QueueId) :
    BatchPhase → Prop
  | .findKeys queue _ _ => world.projectOf queueId = some queue.projectId
  | .createJobs queue _ _ => world.projectOf queueId = some queue.projectId
  | .publish queue _ => world.projectOf queueId = some queue.projectId
  | _ => True

/-- The queue and the project that a retry or a cancel has read. -/
def InformedOf (world : World) (job : JobId) (queueId : QueueId)
    (project : Option ProjectId) : Prop :=
  world.queueOf job = some queueId ∧ project = world.projectOf queueId

def RetryPhase.Informed (world : World) (job : JobId) : RetryPhase → Prop
  | .transaction queueId project _ => InformedOf world job queueId project
  | .publish queueId project => InformedOf world job queueId project
  | _ => True

def CancelPhase.Informed (world : World) (job : JobId) : CancelPhase → Prop
  | .update queueId project => InformedOf world job queueId project
  | .publish queueId project => InformedOf world job queueId project
  | _ => True

/-- What the call has read of queues and projects is as the database has it. -/
def Call.Informed (world : World) : Call → Prop
  | .poll _ => True
  | .exec ⟨jobId, _, phase⟩ =>
      ∀ job, phase.job? = some job → world.queueOf jobId = some job.queueId
  | .reap ⟨_, phase⟩ =>
      ∀ job queueId, phase.requeued? = some (job, queueId) →
        world.queueOf job = some queueId
  | .tick ⟨_, phase⟩ => phase.Informed world
  | .submit ⟨queueId, _, phase⟩ => phase.Informed world queueId
  | .batch ⟨queueId, _, phase⟩ => phase.Informed world queueId
  | .retry ⟨job, phase⟩ => phase.Informed world job
  | .cancel ⟨job, phase⟩ => phase.Informed world job

/-- The queue of the job, the definition or the batch that the call is about,
as the database has it. -/
def Call.subject (world : World) : Call → Option QueueId
  | .exec ⟨job, _, _⟩ => world.queueOf job
  | .reap ⟨_, .publish _ _ job _ _⟩ => world.queueOf job
  | .tick ⟨_, .publish _ newJob _⟩ => world.queueOf newJob
  | .submit ⟨_, _, .publishScheduled _ id⟩ => world.definitionQueue id
  | .submit ⟨_, _, .publishJob _ id _⟩ => world.queueOf id
  | .batch ⟨queueId, _, _⟩ => some queueId
  | .retry ⟨job, _⟩ => world.queueOf job
  | .cancel ⟨job, _⟩ => world.queueOf job
  | _ => none

namespace World.SameHomes

variable {world next : World}

theorem informedOf (homes : world.SameHomes next) {job : JobId}
    {queueId : QueueId} {project : Option ProjectId}
    (informed : InformedOf world job queueId project) :
    InformedOf next job queueId project :=
  ⟨homes.queueOf informed.1, informed.2.trans (homes.projectOf _).symm⟩

theorem tick (homes : world.SameHomes next) {phase : TickPhase}
    (informed : phase.Informed world) : phase.Informed next := by
  cases phase with
  | advance => exact homes.queueOf informed
  | publish => exact homes.queueOf informed
  | _ => exact informed

theorem submit (homes : world.SameHomes next) {queueId : QueueId}
    {phase : SubmitPhase} (informed : phase.Informed world queueId) :
    phase.Informed next queueId := by
  have project := homes.projectOf queueId
  cases phase with
  | findQueue => trivial
  | findKey => exact project.trans informed
  | createScheduled => exact ⟨project.trans informed.1, informed.2⟩
  | publishScheduled =>
      exact ⟨project.trans informed.1, homes.definitionQueue informed.2⟩
  | createJob => exact ⟨project.trans informed.1, informed.2⟩
  | publishJob => exact ⟨project.trans informed.1, homes.queueOf informed.2⟩
  | answered => trivial

theorem informed (homes : world.SameHomes next) {value : Call}
    (informed : value.Informed world) : value.Informed next := by
  cases value with
  | poll => trivial
  | exec => exact fun job read => homes.queueOf (informed job read)
  | reap =>
      exact fun job queueId read => homes.queueOf (informed job queueId read)
  | tick => exact homes.tick informed
  | submit => exact homes.submit informed
  | batch call =>
      obtain ⟨queueId, jobs, phase⟩ := call
      cases phase with
      | findKeys => exact (homes.projectOf queueId).trans informed
      | createJobs => exact (homes.projectOf queueId).trans informed
      | publish => exact (homes.projectOf queueId).trans informed
      | _ => trivial
  | retry call =>
      obtain ⟨job, phase⟩ := call
      cases phase with
      | transaction => exact homes.informedOf informed
      | publish => exact homes.informedOf informed
      | _ => trivial
  | cancel call =>
      obtain ⟨job, phase⟩ := call
      cases phase with
      | update => exact homes.informedOf informed
      | publish => exact homes.informedOf informed
      | _ => trivial

end World.SameHomes

/-! ## What each step of a call learns -/

section Learning

variable {world next : World}

theorem ReapStep.requeued_queue {phase phase' : ReapPhase} {input : ReapInput}
    (case : ReapStep world phase input next (some phase')) {job : JobId}
    {queueId : QueueId} (requeued : phase'.requeued? = some (job, queueId)) :
    phase.requeued? = some (job, queueId) ∨
      world.queueOf job = some queueId := by
  rcases case.requeued? requeued with earlier | ⟨row, _, found, rfl, _⟩
  · exact .inl earlier
  · right
    rw [World.queueOf, found]
    rfl

theorem evaluateDefinition_informed (library : SchedulerLibrary) (due : DueJob)
    (defs : List DueJob) :
    (evaluateDefinition library world due defs).Informed world := by
  unfold evaluateDefinition
  split
  · trivial
  · split
    · trivial
    · trivial
    · split
      · trivial
      · rename_i template _ _ _ _ job made
        unfold JobTemplate.job at made
        split at made
        · cases made; rfl
        · cases made

theorem TickStep.informed {library : SchedulerLibrary} {phase phase' : TickPhase}
    {input : TickInput}
    (case : TickStep library world phase input next (some phase'))
    (homes : world.SameHomes next) (before : phase.Informed world) :
    phase'.Informed next := by
  generalize after : some phase' = result at case
  cases case with
  | evaluated =>
      cases after
      exact homes.tick (evaluateDefinition_informed library _ _)
  | @created due job _ _ id _ success =>
      cases after
      obtain ⟨_, _, lookup⟩ := World.createJob_spec success
      change next.queueOf id = some due.row.queueId
      rw [World.queueOf, lookup, if_pos rfl]
      exact congrArg some before
  | advanced =>
      cases after
      exact homes.queueOf before
  | _ => cases after <;> trivial

theorem KeyChecked.informed {queueId : QueueId} {body : CreateJobBody}
    {queue : Queue} {now : Time} {phase : SubmitPhase}
    (checked : KeyChecked queueId body queue now phase)
    (project : world.projectOf queueId = some queue.projectId) :
    phase.Informed world queueId := by
  cases checked with
  | oneShot => exact ⟨project, rfl⟩
  | cron => exact ⟨project, rfl⟩
  | malformed => trivial

theorem projectOf_of_found {queueId : QueueId} {queue : Queue}
    (found : world.queues.get? queueId = some queue) :
    world.projectOf queueId = some queue.projectId := by
  rw [World.projectOf, found]
  rfl

theorem submitJob_informed {call call' : SubmitCall} {input : ApiInput}
    (taken : submitJob world call input = some (next, call'))
    (homes : world.SameHomes next)
    (before : call.phase.Informed world call.queueId) :
    call'.phase.Informed next call'.queueId := by
  obtain ⟨queueId, body, phase⟩ := call
  obtain ⟨phase', rfl, case⟩ := submitJob_cases taken
  cases case with
  | keyGiven found => exact projectOf_of_found found
  | keyAbsent found _ checked =>
      exact checked.informed (projectOf_of_found found)
  | keyFree _ checked => exact checked.informed before
  | scheduledCreated created =>
      refine ⟨(homes.projectOf queueId).trans before.1, ?_⟩
      obtain ⟨scheduledJobs, inserted, rfl⟩ :=
        World.createScheduledJob_spec created
      rw [World.definitionQueue, Table.get?_insert? inserted, if_pos rfl]
      exact congrArg some before.2
  | jobCreated created =>
      refine ⟨(homes.projectOf queueId).trans before.1, ?_⟩
      obtain ⟨_, _, lookup⟩ := World.createJob_spec created
      rw [World.queueOf, lookup, if_pos rfl]
      exact congrArg some before.2
  | _ => trivial

theorem submitBatch_informed {call call' : BatchCall} {input : ApiInput}
    (taken : submitBatch world call input = some (next, call'))
    (homes : world.SameHomes next)
    (before : call.phase.Informed world call.queueId) :
    call'.phase.Informed next call'.queueId := by
  obtain ⟨queueId, jobs, phase⟩ := call
  obtain ⟨phase', rfl, case⟩ := submitBatch_cases taken
  cases case with
  | keysAbsent found => exact projectOf_of_found found
  | keysGiven found => exact projectOf_of_found found
  | keysFree => exact before
  | created => exact (homes.projectOf queueId).trans before
  | _ => trivial

theorem informedOf_found {job : JobId} {row : Job}
    (found : world.jobs.get? job = some row) :
    InformedOf world job row.queueId (world.projectOf row.queueId) :=
  ⟨by rw [World.queueOf, found]; rfl, rfl⟩

theorem retryJob_informed {call call' : RetryCall} {input : ApiInput}
    (taken : retryJob world call input = some (next, call'))
    (homes : world.SameHomes next)
    (before : call.phase.Informed world call.jobId) :
    call'.phase.Informed next call'.jobId := by
  obtain ⟨job, phase⟩ := call
  obtain ⟨phase', rfl, case⟩ := retryJob_cases taken
  cases case with
  | allowed found => exact informedOf_found found
  | committed => exact homes.informedOf before
  | _ => trivial

theorem cancelJob_informed {call call' : CancelCall} {input : ApiInput}
    (taken : cancelJob world call input = some (next, call'))
    (homes : world.SameHomes next)
    (before : call.phase.Informed world call.jobId) :
    call'.phase.Informed next call'.jobId := by
  obtain ⟨job, phase⟩ := call
  obtain ⟨phase', rfl, case⟩ := cancelJob_cases taken
  cases case with
  | allowed found => exact informedOf_found found
  | committed => exact homes.informedOf before
  | _ => trivial

theorem handle_informed {value value' : Call} {input : ApiInput}
    (handled : handle world value input = some (next, value'))
    (homes : world.SameHomes next) (before : value.Informed world) :
    value'.Informed next := by
  cases handle_cases handled with
  | submit success => exact submitJob_informed success homes before
  | batch success => exact submitBatch_informed success homes before
  | retry success => exact retryJob_informed success homes before
  | cancel success => exact cancelJob_informed success homes before

end Learning

/-! ## In every history -/

section Histories

variable {env : Env} {start last state next : State} {action : Action}
  {trace : List (Transition State Action)}

/-- All calls in progress are informed. -/
def Informed (state : State) : Prop :=
  ∀ call value, state.calls call = some value → value.Informed state.world

theorem Informed.step (informed : Informed state)
    (taken : Chronos.step env state action = some next) : Informed next := by
  have homes := step_homes taken
  intro call value found
  cases step_call taken found with
  | kept called => exact homes.informed (informed call value called)
  | started starts =>
      cases starts with
      | request =>
          rename_i body
          cases body <;> trivial
      | reap => intro job queueId read; cases read
      | _ => trivial
  | handedOver => trivial
  | launched => intro job read; cases read
  | poll => trivial
  | @exec exec exec' _ _ called case same =>
      subst same
      intro job read
      rw [case.same_job]
      apply homes.queueOf
      rcases case.job? read with earlier | found
      · exact informed call _ called job earlier
      · rw [World.queueOf, found]
        rfl
  | reap called case same =>
      subst same
      intro job queueId read
      apply homes.queueOf
      rcases case.requeued_queue read with earlier | found
      · exact informed call _ called job queueId earlier
      · exact found
  | tick called case same =>
      subst same
      exact case.informed homes (informed call _ called)
  | api called _ same handled =>
      subst same
      exact handle_informed handled homes (informed call _ called)

theorem Informed.run (run : Run (Chronos.step env) start trace last)
    (initial : Initial start) : Informed last := by
  have always : ∀ transition ∈ trace, True := fun _ _ => trivial
  refine run.invariant Informed always ?_ ?_
  · intro call value found
    rw [initial.calls call] at found
    cases found
  · intro transition _ taken informed
    exact informed.step taken

/-- A message names the queue that its call is about, and, if an API request
publishes it, the project of that queue. -/
theorem Call.Informed.announces {world : World} {value : Call} {now : Time}
    {message : Message} {queue : QueueId} (informed : value.Informed world)
    (announced : value.announces now = some message)
    (about : value.subject world = some queue) :
    message.queueId = queue ∧
      message.projectId =
        if value.isRequest then world.projectOf queue else none := by
  unfold Call.announces at announced
  split at announced
  · cases announced
    cases about.symm.trans (informed _ rfl)
    exact ⟨rfl, rfl⟩
  · cases announced
    cases about.symm.trans (informed _ rfl)
    exact ⟨rfl, rfl⟩
  · cases announced
    cases about.symm.trans (informed _ _ rfl)
    exact ⟨rfl, rfl⟩
  · cases announced
    cases about.symm.trans informed
    exact ⟨rfl, rfl⟩
  · cases announced
    cases about.symm.trans informed.2
    exact ⟨rfl, informed.1.symm⟩
  · cases announced
    cases about.symm.trans informed.2
    exact ⟨rfl, informed.1.symm⟩
  · cases announced
    cases about
    exact ⟨rfl, Eq.symm informed⟩
  · cases announced
    cases about.symm.trans informed.1
    exact ⟨rfl, informed.2⟩
  · cases announced
    cases about.symm.trans informed.1
    exact ⟨rfl, informed.2⟩
  · cases announced

/-- The event of the message arrives once at every socket that is subscribed
to the queue or to the project, and nowhere else. -/
def ArrivesOnce (texts : IdTexts) (log : SocketLog) (message : Message)
    (queue : QueueId) (project : ProjectId) : Prop :=
  ∀ socket, copies (roomsAfter log) (dispatch texts message) socket =
    if SubscribedToQueue texts log socket queue ∨
      SubscribedToProject texts log socket project then 1 else 0

/-- An event of the API arrives once everywhere exactly when nobody is
subscribed to both the queue and the project; an event of a worker, exactly
when the subscribers of the project are subscribed to the queue as well. -/
theorem arrives_once_iff (run : Run (step env) start trace last)
    (initial : Initial start) {transition : Transition State Action}
    (member : transition ∈ trace) {call : CallId} {value : Call}
    (acting : transition.action.actor = some call)
    (called : transition.before.calls call = some value) {message : Message}
    (published : transition.after.world.messages =
      transition.before.world.messages ++ [message])
    {queue : QueueId} {project : ProjectId}
    (about : value.subject transition.before.world = some queue)
    (within : transition.before.world.projectOf queue = some project)
    (texts : IdTexts) (log : SocketLog) :
    ArrivesOnce texts log message queue project ↔
      if value.isRequest then
        ∀ socket, ¬(SubscribedToQueue texts log socket queue ∧
          SubscribedToProject texts log socket project)
      else
        ∀ socket, SubscribedToProject texts log socket project →
          SubscribedToQueue texts log socket queue := by
  obtain ⟨earlier, later, rfl⟩ := List.append_of_mem member
  obtain ⟨before, taken, _⟩ := run.around
  have informed := Informed.run before initial call value called
  have announced := (step_posts taken acting called).announced_of_snoc published
  obtain ⟨queueId, projectId⟩ := informed.announces announced about
  simp only [ArrivesOnce, copies_dispatch, queueId, projectId]
  cases value.isRequest with
  | true =>
      simp only [if_true, within, Option.mem_some_iff, exists_eq_left']
      apply forall_congr'
      intro socket
      by_cases inQueue : SubscribedToQueue texts log socket queue
      · simp [inQueue]
      · simp [inQueue]
  | false =>
      simp only [Bool.false_eq_true, if_false, Option.mem_def, reduceCtorEq,
        false_and, exists_false, Nat.add_zero]
      apply forall_congr'
      intro socket
      by_cases inQueue : SubscribedToQueue texts log socket queue
      · simp [inQueue]
      · simp [inQueue]

end Histories

/-! ## One message of a worker and one of the API -/

deriving instance DecidableEq for Message

def Message.running : Message :=
  ⟨"job:transition", some 0, some "running", 0, none, none, none, 0⟩

def Message.cancelled : Message :=
  ⟨"job:cancelled", some 0, some "cancelled", 0, some 0, none, none, 0⟩

/-- One letter for each unit of the id, after a first one. -/
def IdTexts.sample : IdTexts where
  queue id := String.ofList (List.replicate (id + 1) 'q')
  project id := String.ofList (List.replicate (id + 1) 'p')
  queue_injective first second same := by
    have lengths := congrArg (fun text => text.toList.length) same
    simpa using lengths
  project_injective first second same := by
    have lengths := congrArg (fun text => text.toList.length) same
    simpa using lengths
  queue_ne_empty id same := by
    have lengths := congrArg (fun text => text.toList.length) same
    simp at lengths
  project_ne_empty id same := by
    have lengths := congrArg (fun text => text.toList.length) same
    simp at lengths

/-- The last transition publishes this message about queue 0 of project 0. -/
def PublishesLast (call : CallId) (isRequest : Bool) (message : Message)
    (trace : List (Transition State Action)) : Prop :=
  ∃ transition ∈ trace.getLast?, transition.action.actor = some call ∧
    (∃ value ∈ transition.before.calls call, value.isRequest = isRequest ∧
      value.subject transition.before.world = some 0) ∧
    transition.before.world.projectOf 0 = some 0 ∧
    transition.after.world.messages =
      transition.before.world.messages ++ [message]

instance (call : CallId) (isRequest : Bool) (message : Message)
    (trace : List (Transition State Action)) :
    Decidable (PublishesLast call isRequest message trace) :=
  inferInstanceAs (Decidable (∃ transition ∈ trace.getLast?, _ ∧ _ ∧ _ ∧ _))

theorem publishes_running :
    ∃ trace last, Run (step Env.sample)
        (World.sample 1 ⟨[(0, .sample .queued)], by simp⟩).idle trace last ∧
      PublishesLast 2 false .running trace :=
  exists_run_of_check _ _
    (claimActions 1 1 [0] ++
      ([.launch 1 2, .exec 2 .ok, .exec 2 .ok, .exec 2 .ok] : List Action))
    _ (by decide +kernel)

theorem publishes_cancelled :
    ∃ trace last, Run (step Env.sample)
        (World.sample 1 ⟨[(0, .sample .queued)], by simp⟩).idle trace last ∧
      PublishesLast 1 true .cancelled trace :=
  exists_run_of_check _ _ (cancelActions 1 0) _ (by decide +kernel)

/-- A client that looks at queue 0 and project 0. -/
def watchesBoth : SocketLog :=
  [("client", .subscribeProject (.text (IdTexts.sample.project 0))),
    ("client", .subscribeQueue (.text (IdTexts.sample.queue 0)))]

/-- A client that looks at project 0 only. -/
def watchesProject : SocketLog :=
  [("client", .subscribeProject (.text (IdTexts.sample.project 0)))]

theorem arrives_once_running :
    ∃ trace last, Run (step Env.sample)
        (World.sample 1 ⟨[(0, .sample .queued)], by simp⟩).idle trace last ∧
      PublishesLast 2 false .running trace ∧
      ArrivesOnce IdTexts.sample watchesBoth .running 0 0 := by
  obtain ⟨trace, last, run, publishes⟩ := publishes_running
  refine ⟨trace, last, run, publishes, ?_⟩
  obtain ⟨transition, isLast, acting, ⟨value, called, byWorker, about⟩, within,
    published⟩ := publishes
  have member := List.mem_of_getLast? isLast
  apply (arrives_once_iff run (World.idle_initial fun _ => rfl) member acting
    called published about within IdTexts.sample watchesBoth).mpr
  rw [byWorker, if_neg (by decide)]
  intro socket subscribed
  by_cases same : "client" = socket
  · simp [SubscribedToQueue, watchesBoth, latest, same, SocketEvent.asksQueue]
  · simp [SubscribedToProject, watchesBoth, latest, same] at subscribed

/-- A client of the project gets no event of a worker, and one that looks at
the queue as well gets each event of the API twice. -/
theorem arrives_never_or_twice :
    (∃ trace last, Run (step Env.sample)
        (World.sample 1 ⟨[(0, .sample .queued)], by simp⟩).idle trace last ∧
      PublishesLast 2 false .running trace ∧
      ¬ArrivesOnce IdTexts.sample watchesProject .running 0 0 ∧
      copies (roomsAfter watchesProject) (dispatch IdTexts.sample .running)
        "client" = 0) ∧
    ∃ trace last, Run (step Env.sample)
        (World.sample 1 ⟨[(0, .sample .queued)], by simp⟩).idle trace last ∧
      PublishesLast 1 true .cancelled trace ∧
      ¬ArrivesOnce IdTexts.sample watchesBoth .cancelled 0 0 ∧
      copies (roomsAfter watchesBoth) (dispatch IdTexts.sample .cancelled)
        "client" = 2 := by
  constructor
  · obtain ⟨trace, last, run, publishes⟩ := publishes_running
    have none : copies (roomsAfter watchesProject)
        (dispatch IdTexts.sample .running) "client" = 0 := by
      simp [copies_dispatch, SubscribedToQueue, watchesProject, latest,
        SocketEvent.asksQueue, Message.running]
    refine ⟨trace, last, run, publishes, ?_, none⟩
    intro once
    have received := (once "client").symm.trans none
    simp [SubscribedToProject, watchesProject, latest,
      SocketEvent.asksProject] at received
  · obtain ⟨trace, last, run, publishes⟩ := publishes_cancelled
    have twice : copies (roomsAfter watchesBoth)
        (dispatch IdTexts.sample .cancelled) "client" = 2 := by
      simp [copies_dispatch, SubscribedToQueue, SubscribedToProject,
        watchesBoth, latest, SocketEvent.asksQueue, SocketEvent.asksProject,
        Message.cancelled]
    refine ⟨trace, last, run, publishes, ?_, twice⟩
    intro once
    have received := (once "client").symm.trans twice
    simp [SubscribedToQueue, SubscribedToProject, watchesBoth, latest,
      SocketEvent.asksQueue, SocketEvent.asksProject] at received

end Chronos
