import Chronos.ExecutorRuns
import Chronos.Materialization
import Chronos.Outcomes

/-!
# One tick of a single ticker

What a tick makes of each definition, whatever the other definitions are: a
due one is skipped, deactivated or materialized, depending on its template and
on what `croner` says at the instant of its evaluation.
-/

namespace Chronos

/-! ## Templates -/

namespace JobTemplate

/-- `prisma.job.create` accepts the optional fields. -/
structure Accepted (library : SchedulerLibrary) (template : JobTemplate) :
    Prop where
  priority : template.priority = none ∨ template.priority = some .null ∨
    ∃ value stored, template.priority = some (.num value) ∧
      library.priority value = some stored
  retryPolicyId : template.retryPolicyId = none ∨
    template.retryPolicyId = some .null ∨
    ∃ policy, template.retryPolicyId = some (.str policy)

/-- The columns of the row that a tick creates. -/
structure Fills (library : SchedulerLibrary) (template : JobTemplate)
    (queueId : QueueId) (job : Job) : Prop where
  queueId : job.queueId = queueId
  type : job.type = template.type
  payload : job.payload = Json.orElse template.payload (.obj [])
  status : job.status = .queued
  priority : template.priorityColumn library = some job.priority
  retryPolicyId : template.retryPolicyColumn = some job.retryPolicyId
  attemptCount : job.attemptCount = 0

variable {library : SchedulerLibrary} {template : JobTemplate}

theorem fills_of_job {queueId : QueueId} {now : Time} {job : Job}
    (built : template.job library queueId now = some job) :
    template.Fills library queueId job := by
  unfold JobTemplate.job at built
  split at built
  · rename_i priority policy
    cases built
    exact ⟨rfl, rfl, rfl, rfl, priority, policy, rfl⟩
  · cases built

theorem Fills.priority_eq {queueId : QueueId} {job : Job} {value : Int}
    (fills : template.Fills library queueId job)
    (given : template.priority = some (.num value))
    (low : -2147483648 ≤ value) (high : value < 2147483648) :
    job.priority = value := by
  have column := fills.priority
  rw [priorityColumn, given] at column
  exact Option.some.inj (column.symm.trans (library.int32 low high))

theorem priorityColumn_isSome_iff :
    (template.priorityColumn library).isSome = true ↔
      template.priority = none ∨ template.priority = some .null ∨
        ∃ value stored, template.priority = some (.num value) ∧
          library.priority value = some stored := by
  have zero : library.priority ((0 : Int) : Rat) = some 0 :=
    library.int32 (by decide) (by decide)
  rw [Int.cast_zero] at zero
  unfold priorityColumn
  rcases template.priority with _ | value
  · simp [Json.orElse, zero]
  · cases value with
    | num value => simp [Json.orElse, Option.isSome_iff_exists]
    | null => simp [Json.orElse, zero]
    | _ => simp [Json.orElse]

theorem retryPolicyColumn_isSome_iff :
    template.retryPolicyColumn.isSome = true ↔
      template.retryPolicyId = none ∨ template.retryPolicyId = some .null ∨
        ∃ policy, template.retryPolicyId = some (.str policy) := by
  unfold retryPolicyColumn
  rcases template.retryPolicyId with _ | value
  · simp [Json.orElse]
  · cases value <;> simp [Json.orElse]

/-- The database client accepts the row exactly if it accepts the optional
fields. -/
theorem job_isSome_iff {queueId : QueueId} {now : Time} :
    (template.job library queueId now).isSome = true ↔
      template.Accepted library := by
  have both : (template.job library queueId now).isSome = true ↔
      (template.priorityColumn library).isSome = true ∧
        template.retryPolicyColumn.isSome = true := by
    unfold job
    cases template.priorityColumn library <;>
      cases template.retryPolicyColumn <;> simp
  rw [both, priorityColumn_isSome_iff, retryPolicyColumn_isSome_iff]
  exact ⟨fun ⟨priority, policy⟩ => ⟨priority, policy⟩,
    fun ⟨priority, policy⟩ => ⟨priority, policy⟩⟩

end JobTemplate

/-- The priority is one that `createJobSchema` accepts. -/
def CreateJobBody.PriorityValid (body : CreateJobBody) : Prop :=
  ∀ value ∈ body.priority, 0 ≤ value ∧ value ≤ 100

theorem CreateJobBody.jobTemplate_fills (library : SchedulerLibrary)
    (body : CreateJobBody) (valid : body.PriorityValid) (queueId : QueueId)
    (now : Time) :
    ∃ template job, isJobTemplate body.jobTemplate = some template ∧
      template.job library queueId now = some job ∧
      job.type = body.type ∧ job.payload = .obj body.payload ∧
      job.priority = body.priority.getD 0 ∧
      job.retryPolicyId = body.retryPolicyId := by
  have fits : -2147483648 ≤ body.priority.getD 0 ∧
      body.priority.getD 0 < 2147483648 := by
    cases given : body.priority with
    | none => decide
    | some value =>
        obtain ⟨low, high⟩ := valid value given
        simp only [Option.getD_some]
        omega
  let template : JobTemplate := ⟨body.type, some (.obj body.payload),
    some (.num (body.priority.getD 0 : Int)), body.retryPolicyId.map .str⟩
  have isTemplate : isJobTemplate body.jobTemplate = some template := by
    cases policy : body.retryPolicyId with
    | none => simp [isJobTemplate, jobTemplate, Json.field?, policy, template]
    | some id => simp [isJobTemplate, jobTemplate, Json.field?, policy, template]
  have column : template.retryPolicyColumn = some body.retryPolicyId := by
    unfold JobTemplate.retryPolicyColumn
    cases policy : body.retryPolicyId with
    | none => simp [template, policy, Json.orElse]
    | some id => simp [template, policy, Json.orElse]
  have accepted : template.Accepted library := by
    constructor
    · exact .inr (.inr ⟨_, _, rfl, library.int32 fits.1 fits.2⟩)
    · apply JobTemplate.retryPolicyColumn_isSome_iff.mp
      rw [column]
      rfl
  obtain ⟨job, built⟩ := Option.isSome_iff_exists.mp
    (JobTemplate.job_isSome_iff.mpr accepted : (template.job library queueId
      now).isSome = true)
  have fills := JobTemplate.fills_of_job built
  refine ⟨template, job, isTemplate, built, fills.type, fills.payload, ?_, ?_⟩
  · exact fills.priority_eq rfl fits.1 fits.2
  · exact Option.some.inj (fills.retryPolicyId.symm.trans column)

/-! ## What a tick makes of a definition -/

/-- `isActive: true, nextRunAt: { lte: threshold }`. -/
def ScheduledJob.DueAt (row : ScheduledJob) (threshold : Time) : Prop :=
  row.isActive = true ∧ ∃ value, row.nextRunAt = some value ∧ value ≤ threshold

/-- The steps that create a job for this definition. -/
def creationsOf (definition : ScheduledJobId)
    (trace : List (Transition State Action)) :
    List (Transition State Action) :=
  trace.filter fun transition =>
    (transition.action.materializes transition.before).any
      fun due => due.id = definition

/-- At this instant the tick creates no job for the definition and leaves its
row: the template or the expression is refused, or the row of the job. -/
inductive Unfit (library : SchedulerLibrary) (row : ScheduledJob) (instant : Time) :
    Prop where
  | template : isJobTemplate row.jobTemplate = none → Unfit library row instant
  | expression : library.nextRun row.cronExpression instant = none →
      Unfit library row instant
  | columns {template : JobTemplate} :
      isJobTemplate row.jobTemplate = some template →
      ¬template.Accepted library →
      Unfit library row instant

/-- The expression has no run after this instant. -/
structure Exhausted (library : SchedulerLibrary) (row : ScheduledJob) (instant : Time) :
    Prop where
  template : (isJobTemplate row.jobTemplate).isSome = true
  nextRun : library.nextRun row.cronExpression instant = some none

/-- The tick is to create this job, and the next run after that is this. -/
structure Fires (library : SchedulerLibrary) (row : ScheduledJob) (instant : Time)
    (job : Job) (nextRun : Time) : Prop where
  template : ∃ template, isJobTemplate row.jobTemplate = some template ∧
    template.Accepted library ∧ template.Fills library row.queueId job
  nextRun : library.nextRun row.cronExpression instant = some (some nextRun)

/-- This step inserts the job under a fresh id. -/
def Inserts (creation : Transition State Action) (job : Job) : Prop :=
  ∃ id, creation.before.world.jobs.get? id = none ∧
    creation.after.world.jobs.get? id = some { job with
      createdAt := creation.before.world.now
      updatedAt := creation.before.world.now }

/-- What has become of a definition: its row at the start of the tick, the
jobs created for it since and its row now. -/
inductive TickOutcome (library : SchedulerLibrary) (threshold : Time) (row : ScheduledJob)
    (creations : List (Transition State Action)) (now : Time)
    (row' : ScheduledJob) : Prop where
  | notDue :
      ¬row.DueAt threshold →
      creations = [] →
      row' = row →
      TickOutcome library threshold row creations now row'
  | skipped {instant : Time} :
      row.DueAt threshold →
      threshold ≤ instant → instant ≤ now →
      Unfit library row instant →
      creations = [] →
      row' = row →
      TickOutcome library threshold row creations now row'
  | deactivated {instant : Time} :
      row.DueAt threshold →
      threshold ≤ instant → instant ≤ now →
      Exhausted library row instant →
      creations = [] →
      row' = { row with isActive := false } →
      TickOutcome library threshold row creations now row'
  | materialized {instant advanced nextRun : Time} {job : Job}
      {creation : Transition State Action} :
      row.DueAt threshold →
      threshold ≤ instant → instant ≤ now →
      Fires library row instant job nextRun →
      instant < nextRun →
      creations = [creation] →
      Inserts creation job →
      row' = { row with lastRunAt := some advanced, nextRunAt := some nextRun } →
      TickOutcome library threshold row creations now row'

namespace TickPhase

/-- The definition whose evaluation is under way, before its last write. -/
def current? : TickPhase → Option DueJob
  | .deactivate due _ => some due
  | .createJob due _ _ _ => some due
  | .advance due _ _ _ => some due
  | _ => none

/-- The definitions still to be evaluated. -/
def rest : TickPhase → List DueJob
  | .findDue _ => []
  | .evaluate defs => defs
  | .deactivate _ defs => defs
  | .createJob _ _ _ defs => defs
  | .advance _ _ _ defs => defs
  | .publish _ _ defs => defs

/-- The definitions that this tick may still write. -/
def queue (phase : TickPhase) : List DueJob :=
  phase.current?.toList ++ phase.rest

theorem ne_of_distinct {phase : TickPhase} {current due : DueJob}
    (distinct : (phase.queue.map (·.id)).Nodup)
    (isCurrent : current ∈ phase.current?) (member : due ∈ phase.rest) :
    current.id ≠ due.id := by
  rw [queue, List.map_append, List.nodup_append] at distinct
  apply distinct.2.2
  · exact List.mem_map_of_mem (Option.mem_toList.mpr isCurrent)
  · exact List.mem_map_of_mem member

end TickPhase

/-- The definition for which a step from this phase creates a job. -/
def TickPhase.creates : TickPhase → TickInput → Option DueJob
  | .createJob due _ _ _, .created _ => some due
  | _, _ => none

/-- How far a tick has come with one definition. -/
inductive TickFate (library : SchedulerLibrary) (threshold : Time)
    (definition : ScheduledJobId) (row : ScheduledJob)
    (creations : List (Transition State Action)) (world : World) :
    Option TickPhase → Prop where
  | unread :
      creations = [] →
      world.scheduledJobs.get? definition = some row →
      TickFate library threshold definition row creations world
        (some (.findDue threshold))
  | waiting {phase : TickPhase} :
      row.DueAt threshold →
      ⟨definition, row⟩ ∈ phase.rest →
      creations = [] →
      world.scheduledJobs.get? definition = some row →
      TickFate library threshold definition row creations world (some phase)
  | deactivating {instant : Time} {defs : List DueJob} :
      row.DueAt threshold →
      threshold ≤ instant → instant ≤ world.now →
      Exhausted library row instant →
      creations = [] →
      world.scheduledJobs.get? definition = some row →
      TickFate library threshold definition row creations world
        (some (.deactivate ⟨definition, row⟩ defs))
  | creating {instant nextRun : Time} {job : Job} {defs : List DueJob} :
      row.DueAt threshold →
      threshold ≤ instant → instant ≤ world.now →
      Fires library row instant job nextRun →
      creations = [] →
      world.scheduledJobs.get? definition = some row →
      TickFate library threshold definition row creations world
        (some (.createJob ⟨definition, row⟩ job nextRun defs))
  | advancing {instant nextRun : Time} {job : Job} {newJob : JobId}
      {defs : List DueJob} {creation : Transition State Action} :
      row.DueAt threshold →
      threshold ≤ instant → instant ≤ world.now →
      Fires library row instant job nextRun →
      creations = [creation] →
      Inserts creation job →
      world.scheduledJobs.get? definition = some row →
      TickFate library threshold definition row creations world
        (some (.advance ⟨definition, row⟩ newJob nextRun defs))
  | done {phase : Option TickPhase} {row' : ScheduledJob} :
      (∀ start, phase ≠ some (.findDue start)) →
      (∀ due ∈ phase.elim [] TickPhase.queue, due.id ≠ definition) →
      world.scheduledJobs.get? definition = some row' →
      TickOutcome library threshold row creations world.now row' →
      TickFate library threshold definition row creations world phase

section Steps

variable {library : SchedulerLibrary} {world next : World} {phase : TickPhase}
  {phase' : Option TickPhase} {input : TickInput} {threshold : Time}
  {definition : ScheduledJobId} {row : ScheduledJob}
  {creations : List (Transition State Action)}

theorem evaluateDefinition_rest (library : SchedulerLibrary) (world : World)
    (due : DueJob) (defs : List DueJob) :
    (evaluateDefinition library world due defs).rest = defs ∧
      ∀ other ∈ (evaluateDefinition library world due defs).current?,
        other = due := by
  have evaluated := evaluateDefinition_cases library world due defs
  generalize evaluateDefinition library world due defs = reached at evaluated
  cases evaluated with
  | skipped => exact ⟨rfl, nofun⟩
  | exhausted => exact ⟨rfl, fun other same => (Option.some.inj same).symm⟩
  | fires => exact ⟨rfl, fun other same => (Option.some.inj same).symm⟩

theorem evaluateDefinition_fate {defs : List DueJob}
    (due : row.DueAt threshold) (later : threshold ≤ world.now)
    (different : ∀ other ∈ defs, other.id ≠ definition)
    (none : creations = [])
    (found : world.scheduledJobs.get? definition = some row) :
    TickFate library threshold definition row creations world
      (some (evaluateDefinition library world ⟨definition, row⟩ defs)) := by
  have skipped : Unfit library row world.now →
      TickFate library threshold definition row creations world
        (some (.evaluate defs)) := by
    intro unfit
    exact .done (fun _ => nofun) different found
      (.skipped due later le_rfl unfit none rfl)
  unfold evaluateDefinition
  split
  · exact skipped (.template ‹_›)
  · rename_i template accepted
    split
    · exact skipped (.expression ‹_›)
    · rename_i exhausted
      have isTemplate : (isJobTemplate row.jobTemplate).isSome = true := by
        rw [accepted]
        rfl
      exact .deactivating due later le_rfl ⟨isTemplate, exhausted⟩ none found
    · rename_i nextRun fires
      split
      · rename_i refused
        apply skipped
        refine .columns accepted fun columns => ?_
        rw [← JobTemplate.job_isSome_iff, refused] at columns
        cases columns
      · rename_i job built
        have columns : template.Accepted library := by
          rw [← JobTemplate.job_isSome_iff, built]
          rfl
        exact .creating due later le_rfl
          ⟨⟨template, accepted, columns, JobTemplate.fills_of_job built⟩, fires⟩
          none found

theorem TickStep.elsewhere (case : TickStep library world phase input next phase')
    (different : ∀ due ∈ phase.current?, due.id ≠ definition) :
    next.scheduledJobs.get? definition =
        world.scheduledJobs.get? definition ∧
      (phase.creates input).any (fun due => due.id = definition) = false := by
  cases case with
  | deactivated =>
      refine ⟨Table.get?_modify_of_ne _ _ ?_, rfl⟩
      exact (different _ rfl).symm
  | created success =>
      refine ⟨by rw [(World.createJob_spec success).1], ?_⟩
      simpa [TickPhase.creates] using different _ rfl
  | advanced =>
      refine ⟨Table.get?_modify_of_ne _ _ ?_, rfl⟩
      exact (different _ rfl).symm
  | published _ same => exact ⟨by rw [same], rfl⟩
  | caught => exact ⟨rfl, by unfold TickPhase.creates; split <;> simp_all⟩
  | _ => exact ⟨rfl, rfl⟩

theorem TickStep.queue_subset {after : TickPhase}
    (case : TickStep library world phase input next (some after))
    (read : ∀ start, phase ≠ .findDue start) :
    ∀ due ∈ after.queue, due ∈ phase.queue := by
  intro due member
  cases case with
  | dueFound => exact (read _ rfl).elim
  | @evaluated first defs =>
      obtain ⟨rest, current⟩ := evaluateDefinition_rest library world first defs
      rw [TickPhase.queue, rest] at member
      rcases List.mem_append.mp member with isCurrent | inRest
      · rw [current due (Option.mem_toList.mp isCurrent)]
        exact List.mem_cons_self
      · exact List.mem_cons_of_mem _ inRest
  | deactivated => exact List.mem_cons_of_mem _ member
  | created => exact member
  | advanced => exact List.mem_cons_of_mem _ member
  | published => exact member
  | caught same =>
      cases phase with
      | findDue => exact (read _ rfl).elim
      | evaluate => cases same
      | deactivate => cases same; exact List.mem_cons_of_mem _ member
      | createJob => cases same; exact List.mem_cons_of_mem _ member
      | advance => cases same; exact List.mem_cons_of_mem _ member
      | publish => cases same; exact member

theorem TickStep.not_findDue {after : TickPhase}
    (case : TickStep library world phase input next (some after)) (start : Time) :
    after ≠ .findDue start := by
  cases case with
  | @evaluated first defs =>
      have evaluated := evaluateDefinition_cases library world first defs
      intro same
      rw [same] at evaluated
      cases evaluated
  | _ => exact nofun

theorem TickStep.read_found {start : Time} {after : TickPhase} {due : DueJob}
    (case : TickStep library world (.findDue start) input next (some after))
    (member : due ∈ after.queue)
    (absent : world.scheduledJobs.get? definition = none) :
    due.id ≠ definition := by
  cases case with
  | dueFound =>
      obtain ⟨id, _, isDue⟩ := List.mem_filterMap.mp member
      obtain ⟨row, found, rfl⟩ := Option.map_eq_some_iff.mp isDue
      rintro rfl
      cases absent.symm.trans found
  | caught same => cases same

theorem TickStep.rest_waits {due : DueJob}
    (case : TickStep library world phase input next phase')
    (member : due ∈ phase.rest) :
    (∃ defs, phase = .evaluate (due :: defs) ∧
      phase' = some (evaluateDefinition library world due defs) ∧ next = world ∧
      phase.creates input = none) ∨
    ∃ after, phase' = some after ∧ due ∈ after.rest := by
  cases case with
  | dueFound => cases member
  | findFailed => cases member
  | finished => cases member
  | @evaluated first defs =>
      rcases List.mem_cons.mp member with rfl | later
      · exact .inl ⟨defs, rfl, rfl, rfl, rfl⟩
      · refine .inr ⟨_, rfl, ?_⟩
        rw [(evaluateDefinition_rest library world first defs).1]
        exact later
  | caught same =>
      cases phase with
      | findDue | evaluate => cases same
      | deactivate | createJob | advance | publish =>
          cases same
          exact .inr ⟨_, rfl, member⟩
  | _ => exact .inr ⟨_, rfl, member⟩

theorem fate_of_read {order : List ScheduledJobId}
    (read : order.Perm (world.dueJobs threshold)) (none : creations = [])
    (found : world.scheduledJobs.get? definition = some row) :
    TickFate library threshold definition row creations world
      (some (.evaluate (order.filterMap world.dueJob))) := by
  by_cases due : row.DueAt threshold
  · apply TickFate.waiting due _ none found
    apply List.mem_filterMap.mpr
    refine ⟨definition, read.mem_iff.mpr ?_, ?_⟩
    · obtain ⟨active, value, same, past⟩ := due
      exact Table.mem_keysWhere.mpr ⟨row, found, by simp [active, same, past]⟩
    · rw [World.dueJob, found]
      rfl
  · refine .done (by intro _ same; cases same) ?_ found (.notDue due none rfl)
    intro other member same
    obtain ⟨id, inOrder, isOther⟩ := List.mem_filterMap.mp member
    obtain ⟨row', found', holds⟩ :=
      Table.mem_keysWhere.mp (read.mem_iff.mp inOrder)
    rw [World.dueJob, found'] at isOther
    cases isOther
    dsimp only at same
    subst same
    cases found.symm.trans found'
    simp only [Bool.and_eq_true, Option.any_eq_true, decide_eq_true_eq] at holds
    exact due holds

theorem TickStep.fate_of_waiting
    (case : TickStep library world phase input next phase')
    (distinct : (phase.queue.map (·.id)).Nodup)
    (later : threshold ≤ world.now) (due : row.DueAt threshold)
    (member : ⟨definition, row⟩ ∈ phase.rest) (none : creations = [])
    (found : world.scheduledJobs.get? definition = some row) :
    (phase.creates input).any (fun due => due.id = definition) = false ∧
      TickFate library threshold definition row creations next phase' := by
  rcases case.rest_waits member with
    ⟨defs, rfl, rfl, same, silent⟩ | ⟨after, rfl, stays⟩
  · rw [silent, same]
    simp only [TickPhase.queue, TickPhase.current?, TickPhase.rest,
      Option.toList_none, List.nil_append, List.map_cons, List.nodup_cons,
      List.mem_map, not_exists, not_and] at distinct
    exact ⟨rfl, evaluateDefinition_fate due later distinct.1 none found⟩
  · have elsewhere : ∀ other ∈ phase.current?, other.id ≠ definition :=
      fun other isCurrent => TickPhase.ne_of_distinct distinct isCurrent member
    obtain ⟨kept, silent⟩ := case.elsewhere elsewhere
    exact ⟨silent, .waiting due stays none (kept.trans found)⟩

theorem TickStep.fate_of_done {row' : ScheduledJob}
    (case : TickStep library world phase input next phase')
    (read : ∀ start, phase ≠ .findDue start)
    (gone : ∀ due ∈ phase.queue, due.id ≠ definition)
    (found : world.scheduledJobs.get? definition = some row')
    (outcome : TickOutcome library threshold row creations world.now row') :
    (phase.creates input).any (fun due => due.id = definition) = false ∧
      TickFate library threshold definition row creations next phase' := by
  have elsewhere : ∀ other ∈ phase.current?, other.id ≠ definition :=
    fun other isCurrent => gone other
      (List.mem_append_left _ (Option.mem_toList.mpr isCurrent))
  have sameNow : next.now = world.now := by
    rw [case.frame]
  obtain ⟨kept, silent⟩ := case.elsewhere elsewhere
  rw [← sameNow] at outcome
  refine ⟨silent, ?_⟩
  cases phase' with
  | none => exact .done (fun _ => nofun) nofun (kept.trans found) outcome
  | some after =>
      refine .done ?_ ?_ (kept.trans found) outcome
      · intro start same
        exact case.not_findDue start (Option.some.inj same)
      · intro other member
        exact gone other (case.queue_subset read other member)

/-- A step of the tick takes each definition one step further. -/
theorem TickStep.fate {transition : Transition State Action}
    (case : TickStep library transition.before.world phase input
      transition.after.world phase')
    (fate : TickFate library threshold definition row creations
      transition.before.world (some phase))
    (distinct : (phase.queue.map (·.id)).Nodup)
    (later : threshold ≤ transition.before.world.now)
    (succeeds : input = .fail →
      ∃ due newJob defs, phase = .publish due newJob defs) :
    TickFate library threshold definition row
      (creations ++
        if (phase.creates input).any (fun due => due.id = definition)
        then [transition] else [])
      transition.after.world phase' := by
  have sameNow : transition.after.world.now = transition.before.world.now := by
    rw [case.frame]
  have silently :
      (phase.creates input).any (fun due => due.id = definition) = false ∧
        TickFate library threshold definition row creations
          transition.after.world phase' →
      TickFate library threshold definition row
        (creations ++
          if (phase.creates input).any (fun due => due.id = definition)
          then [transition] else [])
        transition.after.world phase' := by
    rintro ⟨silent, reached⟩
    rw [silent]
    exact (List.append_nil creations).symm ▸ reached
  have caught : ∀ {result : Prop}, input = .fail →
      (∀ due newJob defs, phase ≠ .publish due newJob defs) → result := by
    intro result fails notPublish
    obtain ⟨due, newJob, defs, isPublish⟩ := succeeds fails
    exact (notPublish due newJob defs isPublish).elim
  generalize isPhase : some phase = before at fate
  cases fate with
  | unread none found =>
      cases isPhase
      apply silently
      generalize transition.after.world = next at case
      cases case with
      | dueFound read => exact ⟨rfl, fate_of_read read none found⟩
      | findFailed => exact caught rfl (fun _ _ _ => nofun)
      | caught same => cases same
  | waiting due member none found =>
      cases isPhase
      exact silently (case.fate_of_waiting distinct later due member none found)
  | @deactivating instant defs due early past exhausted none found =>
      cases isPhase
      apply silently
      have gone : ∀ other ∈ defs, other.id ≠ definition :=
        fun other member => (TickPhase.ne_of_distinct distinct rfl member).symm
      generalize transition.after.world = next at case sameNow
      cases case with
      | deactivated =>
          have written : (transition.before.world.deactivate
              definition).scheduledJobs.get? definition =
                some { row with isActive := false } :=
            (Table.get?_modify_self ..).trans (by rw [found]; rfl)
          exact ⟨rfl, .done (fun _ => nofun) gone written
            (.deactivated due early past exhausted none rfl)⟩
      | caught => exact caught rfl (fun _ _ _ => nofun)
  | @creating instant nextRun job defs due early past fires none found =>
      cases isPhase
      generalize isAfter : transition.after.world = next at case sameNow ⊢
      cases case with
      | @created _ _ _ _ id _ success =>
          obtain ⟨frame, fresh, lookup⟩ := World.createJob_spec success
          have inserts : Inserts transition job := by
            refine ⟨id, fresh, ?_⟩
            rw [isAfter, lookup, if_pos rfl]
            rfl
          have one : creations ++ [transition] = [transition] := by
            rw [none]
            rfl
          have kept : next.scheduledJobs.get? definition = some row := by
            rw [frame]
            exact found
          have made : (if ((TickPhase.createJob ⟨definition, row⟩ job nextRun
              defs).creates (.created id)).any (fun due => due.id = definition)
              then [transition] else []) = [transition] :=
            if_pos (decide_eq_true rfl)
          rw [made]
          exact .advancing due early (sameNow ▸ past) fires one inserts kept
      | caught => exact caught rfl (fun _ _ _ => nofun)
  | @advancing instant nextRun job newJob defs creation due early past fires one
      inserts found =>
      cases isPhase
      apply silently
      have gone : ∀ other ∈ defs, other.id ≠ definition :=
        fun other member => (TickPhase.ne_of_distinct distinct rfl member).symm
      generalize transition.after.world = next at case sameNow
      cases case with
      | advanced =>
          have written : (transition.before.world.advance definition
              nextRun).scheduledJobs.get? definition =
                some { row with
                  lastRunAt := some transition.before.world.now
                  nextRunAt := some nextRun } :=
            (Table.get?_modify_self ..).trans (by rw [found]; rfl)
          exact ⟨rfl, .done (fun _ => nofun) gone written
            (.materialized due early past fires (library.later fires.nextRun) one
              inserts rfl)⟩
      | caught => exact caught rfl (fun _ _ _ => nofun)
  | done read gone found outcome =>
      cases isPhase
      exact silently (case.fate_of_done
        (fun start same => read start (by rw [same])) gone found outcome)

end Steps

theorem TickOutcome.mono {library : SchedulerLibrary} {threshold now later : Time}
    {row row' : ScheduledJob} {creations : List (Transition State Action)}
    (outcome : TickOutcome library threshold row creations now row')
    (le : now ≤ later) :
    TickOutcome library threshold row creations later row' := by
  cases outcome with
  | notDue notDue none same => exact .notDue notDue none same
  | skipped due early past unfit none same =>
      exact .skipped due early (past.trans le) unfit none same
  | deactivated due early past exhausted none same =>
      exact .deactivated due early (past.trans le) exhausted none same
  | materialized due early past fires future one inserts same =>
      exact .materialized due early (past.trans le) fires future one inserts
        same

/-- The fate of a definition does not depend on what goes on elsewhere. -/
theorem TickFate.mono {library : SchedulerLibrary} {threshold : Time}
    {definition : ScheduledJobId} {row : ScheduledJob}
    {creations : List (Transition State Action)} {world next : World}
    {phase : Option TickPhase}
    (fate : TickFate library threshold definition row creations world phase)
    (same : next.scheduledJobs.get? definition =
      world.scheduledJobs.get? definition)
    (le : world.now ≤ next.now) :
    TickFate library threshold definition row creations next phase := by
  have kept : ∀ {row' : ScheduledJob},
      world.scheduledJobs.get? definition = some row' →
      next.scheduledJobs.get? definition = some row' :=
    fun found => same.trans found
  cases fate with
  | unread none found => exact .unread none (kept found)
  | waiting due member none found => exact .waiting due member none (kept found)
  | deactivating due early past exhausted none found =>
      exact .deactivating due early (past.trans le) exhausted none (kept found)
  | creating due early past fires none found =>
      exact .creating due early (past.trans le) fires none (kept found)
  | advancing due early past fires one inserts found =>
      exact .advancing due early (past.trans le) fires one inserts (kept found)
  | done read gone found outcome =>
      exact .done read gone (kept found) (outcome.mono le)

/-! ## Runs of one tick -/

/-- The tick has created a job and advanced its definition, and publishes. -/
def State.publishing (state : State) (call : CallId) : Bool :=
  match state.calls call with
  | some (.tick ⟨_, .publish _ _ _⟩) => true
  | _ => false

/-- No other tick is in progress, and no call of the tick fails, publishes
apart; its process runs on. -/
structure LoneTick (call : CallId) (worker : WorkerId)
    (trace : List (Transition State Action)) : Prop where
  single : ∀ transition ∈ trace, ∀ other,
    transition.before.ticks other = true → other = call
  once : ∀ transition ∈ trace, transition.action.begins ≠ some call
  stays : ∀ transition ∈ trace, transition.action.exiting ≠ some worker
  succeeds : ∀ transition ∈ trace, transition.action.actor = some call →
    transition.action.fails transition.before = true →
    transition.before.publishing call = true

theorem LoneTick.of_subset {call : CallId} {worker : WorkerId}
    {part trace : List (Transition State Action)}
    (lone : LoneTick call worker trace)
    (subset : ∀ transition ∈ part, transition ∈ trace) :
    LoneTick call worker part where
  single := fun transition member => lone.single transition (subset _ member)
  once := fun transition member => lone.once transition (subset _ member)
  stays := fun transition member => lone.stays transition (subset _ member)
  succeeds := fun transition member => lone.succeeds transition (subset _ member)

/-- Nobody but the tick writes this definition. -/
def Unedited (definition : ScheduledJobId) (call : CallId)
    (trace : List (Transition State Action)) : Prop :=
  ∀ transition ∈ trace, transition.action.actor ≠ some call →
    transition.after.world.scheduledJobs.get? definition =
      transition.before.world.scheduledJobs.get? definition

section Runs

variable {env : Env} {start last state next : State} {action : Action}
  {call : CallId} {worker : WorkerId} {threshold : Time}
  {definition : ScheduledJobId} {row : ScheduledJob}
  {trace : List (Transition State Action)}

theorem TickStep.queue_nodup {library : SchedulerLibrary} {world next : World}
    {phase after : TickPhase} {input : TickInput}
    (case : TickStep library world phase input next (some after))
    (distinct : (phase.queue.map (·.id)).Nodup) :
    (after.queue.map (·.id)).Nodup := by
  have tail : ∀ {due : DueJob} {defs : List DueJob},
      ((due :: defs).map (·.id)).Nodup → (defs.map (·.id)).Nodup :=
    fun nodup => nodup.sublist (List.sublist_cons_self ..)
  cases case with
  | @dueFound start order read =>
      have found : TickStep library world (.findDue start) (.rows order) world
          (some (.evaluate (order.filterMap world.dueJob))) := .dueFound read
      rcases found.dues_sublist with sublist | nodup
      · have empty : order.filterMap world.dueJob = [] :=
          List.sublist_nil.mp sublist
        simp [TickPhase.queue, TickPhase.current?, TickPhase.rest, empty]
      · exact nodup
  | @evaluated first defs =>
      have evaluated := evaluateDefinition_cases library world first defs
      generalize evaluateDefinition library world first defs = reached
        at evaluated
      cases evaluated with
      | skipped => exact tail distinct
      | exhausted => exact distinct
      | fires => exact distinct
  | deactivated => exact tail distinct
  | created => exact distinct
  | advanced => exact tail distinct
  | published => exact distinct
  | caught same =>
      cases phase with
      | findDue | evaluate => cases same
      | deactivate | createJob | advance =>
          cases same
          exact tail distinct
      | publish =>
          cases same
          exact distinct

theorem creationsOf_snoc (trace : List (Transition State Action))
    (transition : Transition State Action) :
    creationsOf definition (trace ++ [transition]) =
      creationsOf definition trace ++
        if (transition.action.materializes transition.before).any
          (fun due => due.id = definition) then [transition] else [] := by
  unfold creationsOf
  rw [List.filter_append, List.filter_singleton, Bool.cond_eq_ite]

theorem materializes_tick {phase : TickPhase} {input : TickInput}
    (called : state.calls call = some (.tick ⟨worker, phase⟩)) :
    (Action.tick call input).materializes state = phase.creates input := by
  cases input with
  | created id =>
      simp only [Action.materializes, called]
      cases phase <;> rfl
  | _ => cases phase <;> rfl

theorem step_call_kept (taken : step env state action = some next)
    (other : action.actor ≠ some call) (once : action.begins ≠ some call)
    (stays : ∀ value, state.calls call = some value →
      value.worker = some worker)
    (running : action.exiting ≠ some worker) :
    next.calls call = state.calls call := by
  cases found : state.calls call with
  | none => exact step_calls_none taken found once
  | some value =>
      cases exits : action.exits with
      | false => exact step_keeps taken exits found other
      | true =>
          cases action with
          | exit exiting =>
              refine (step_exit_calls taken found).trans (if_neg ?_)
              rw [stays value found]
              intro same
              cases same
              exact running rfl
          | _ => cases exits

/-- What holds of a lone tick from the read on: its own steps preserve it, and
so do the steps of the others, which materialize nothing. -/
theorem loneTick_induction
    {motive : List (Transition State Action) → Option TickPhase → World → Prop}
    (run : Run (step env) start trace last)
    (begun : start.calls call = some (.tick ⟨worker, .findDue threshold⟩))
    (early : threshold ≤ start.world.now)
    (lone : LoneTick call worker trace)
    (read : motive [] (some (.findDue threshold)) start.world)
    (own : ∀ (earlier : List (Transition State Action))
      (transition : Transition State Action) (phase : TickPhase)
      (input : TickInput) (phase' : Option TickPhase),
      transition ∈ trace →
      TickStep env.library transition.before.world phase input
        transition.after.world phase' →
      (phase.queue.map (·.id)).Nodup →
      threshold ≤ transition.before.world.now →
      (input = .fail → ∃ due newJob defs, phase = .publish due newJob defs) →
      transition.action.materializes transition.before = phase.creates input →
      motive earlier (some phase) transition.before.world →
      motive (earlier ++ [transition]) phase' transition.after.world)
    (others : ∀ (earlier : List (Transition State Action))
      (transition : Transition State Action) (phase : Option TickPhase),
      transition ∈ trace → transition.action.actor ≠ some call →
      transition.action.materializes transition.before = none →
      transition.before.world.now ≤ transition.after.world.now →
      motive earlier phase transition.before.world →
      motive (earlier ++ [transition]) phase transition.after.world) :
    ∃ phase : Option TickPhase,
      last.calls call = phase.map (fun phase => .tick ⟨worker, phase⟩) ∧
      motive trace phase last.world ∧
      (∀ current ∈ phase, (current.queue.map (·.id)).Nodup) ∧
      threshold ≤ last.world.now := by
  induction run with
  | nil =>
      refine ⟨some (.findDue threshold), begun, read, ?_, early⟩
      intro current same
      cases same
      exact List.nodup_nil
  | @snoc trace state next action run taken induction =>
      have before : LoneTick call worker trace :=
        lone.of_subset fun _ => List.mem_append_left _
      obtain ⟨phase, called, holds, distinct, later⟩ := induction before
        (fun _ _ _ _ _ member => own _ _ _ _ _ (by simp [member]))
        (fun _ _ _ member => others _ _ _ (by simp [member]))
      have last : (⟨state, action, next⟩ : Transition State Action) ∈
          trace ++ [⟨state, action, next⟩] := by simp
      have now := step_now taken
      by_cases isOwn : action.actor = some call
      · cases phase with
        | none =>
            obtain ⟨value, isCalled⟩ := step_actor_called taken isOwn
            cases called.symm.trans isCalled
        | some phase =>
            obtain ⟨input, world, phase', rfl, case, rfl⟩ :=
              step_tick taken called isOwn
            refine ⟨phase', Function.update_self .., ?_, ?_, later.trans now⟩
            · refine own _ _ _ _ _ last case (distinct phase rfl) later ?_
                (materializes_tick called) holds
              rintro rfl
              have publishes := lone.succeeds _ last isOwn rfl
              simp only [State.publishing, called, Option.map_some] at publishes
              split at publishes
              · rename_i due newJob defs same
                cases same
                exact ⟨due, newJob, defs, rfl⟩
              · cases publishes
            · intro current same
              cases same
              exact case.queue_nodup (distinct phase rfl)
      · have silent : action.materializes state = none := by
          rw [Option.eq_none_iff_forall_ne_some]
          intro due creates
          obtain ⟨acting, _, _, _, _, _, rfl, called⟩ :=
            Action.materializes_eq_some creates
          exact isOwn (congrArg some
            (lone.single _ last acting (State.ticks_of_called called)))
        refine ⟨phase, ?_, others _ _ _ last isOwn silent now holds, distinct,
          later.trans now⟩
        rw [step_call_kept taken isOwn (lone.once _ last) ?_ (lone.stays _ last),
          called]
        intro value found
        obtain ⟨current, _, rfl⟩ := Option.map_eq_some_iff.mp
          (called.symm.trans found)
        rfl

theorem tickFate_of_run (run : Run (step env) start trace last)
    (begun : start.calls call = some (.tick ⟨worker, .findDue threshold⟩))
    (early : threshold ≤ start.world.now)
    (lone : LoneTick call worker trace)
    (unedited : Unedited definition call trace)
    (found : start.world.scheduledJobs.get? definition = some row) :
    ∃ phase : Option TickPhase,
      last.calls call = phase.map (fun phase => .tick ⟨worker, phase⟩) ∧
      TickFate env.library threshold definition row (creationsOf definition trace)
        last.world phase := by
  have reached := loneTick_induction
    (motive := fun trace phase world => TickFate env.library threshold definition
      row (creationsOf definition trace) world phase)
    run begun early lone (.unread rfl found) ?_ ?_
  · obtain ⟨phase, called, fate, _⟩ := reached
    exact ⟨phase, called, fate⟩
  · intro earlier transition phase input phase' _ case distinct later succeeds
      creates fate
    rw [creationsOf_snoc, creates]
    exact case.fate fate distinct later succeeds
  · intro earlier transition phase member other silent later fate
    have same : creationsOf definition (earlier ++ [transition]) =
        creationsOf definition earlier := by
      rw [creationsOf_snoc, silent]
      exact List.append_nil _
    rw [same]
    exact fate.mono (unedited transition member other) later

theorem absent_of_run (run : Run (step env) start trace last)
    (begun : start.calls call = some (.tick ⟨worker, .findDue threshold⟩))
    (early : threshold ≤ start.world.now)
    (lone : LoneTick call worker trace)
    (unedited : Unedited definition call trace)
    (absent : start.world.scheduledJobs.get? definition = none) :
    creationsOf definition trace = [] ∧
      last.world.scheduledJobs.get? definition = none := by
  have reached := loneTick_induction
    (motive := fun trace phase world => creationsOf definition trace = [] ∧
      world.scheduledJobs.get? definition = none ∧
      ∀ due ∈ phase.elim [] TickPhase.queue, due.id ≠ definition)
    run begun early lone ⟨rfl, absent, nofun⟩ ?_ ?_
  · obtain ⟨phase, _, ⟨none, absent, _⟩, _⟩ := reached
    exact ⟨none, absent⟩
  · rintro earlier transition phase input phase' _ case _ _ _ creates
      ⟨none, absent, gone⟩
    obtain ⟨kept, silent⟩ := case.elsewhere fun due isCurrent =>
      gone due (List.mem_append_left _ (Option.mem_toList.mpr isCurrent))
    refine ⟨?_, kept.trans absent, ?_⟩
    · rw [creationsOf_snoc, creates, silent, none]
      rfl
    · cases phase' with
      | none => exact nofun
      | some after =>
          intro due member
          by_cases read : ∃ start, phase = .findDue start
          · obtain ⟨start, rfl⟩ := read
            exact case.read_found member absent
          · exact gone due (case.queue_subset
              (fun start same => read ⟨start, same⟩) due member)
  · rintro earlier transition phase member other silent _ ⟨none, absent, gone⟩
    refine ⟨?_, (unedited transition member other).trans absent, gone⟩
    rw [creationsOf_snoc, silent, none]
    rfl

/-- The job has the fields that a cron submission asked for. -/
structure CreateJobBody.Asks (body : CreateJobBody) (queueId : QueueId)
    (job : Job) : Prop where
  queueId : job.queueId = queueId
  type : job.type = body.type
  payload : job.payload = .obj body.payload
  status : job.status = .queued
  priority : job.priority = body.priority.getD 0
  retryPolicyId : job.retryPolicyId = body.retryPolicyId

theorem CreateJobBody.asks_of_fires {library : SchedulerLibrary} {body : CreateJobBody}
    {row : ScheduledJob} {instant nextRun : Time} {job : Job}
    (fires : Fires library row instant job nextRun)
    (submitted : row.jobTemplate = body.jobTemplate)
    (valid : body.PriorityValid) : body.Asks row.queueId job := by
  obtain ⟨template, isTemplate, _, fills⟩ := fires.template
  obtain ⟨template', job', isTemplate', built, type, payload, priority,
    policy⟩ := body.jobTemplate_fills library valid row.queueId instant
  rw [submitted] at isTemplate
  cases isTemplate.symm.trans isTemplate'
  have fills' := JobTemplate.fills_of_job built
  constructor
  · exact fills.queueId
  · rw [fills.type, ← fills'.type, type]
  · rw [fills.payload, ← fills'.payload, payload]
  · exact fills.status
  · rw [← priority]
    exact Option.some.inj (fills.priority.symm.trans fills'.priority)
  · rw [← policy]
    exact Option.some.inj (fills.retryPolicyId.symm.trans fills'.retryPolicyId)

/-- A tick is done with a definition: none that it does not hold, and the
outcome of the row that it held. -/
structure Ticked (library : SchedulerLibrary) (threshold : Time)
    (definition : ScheduledJobId) (start last : World)
    (trace : List (Transition State Action)) : Prop where
  absent : start.scheduledJobs.get? definition = none →
    creationsOf definition trace = [] ∧
      last.scheduledJobs.get? definition = none
  present : ∀ {row : ScheduledJob},
    start.scheduledJobs.get? definition = some row →
    ∃ row', last.scheduledJobs.get? definition = some row' ∧
      TickOutcome library threshold row (creationsOf definition trace) last.now
        row'
  submitted : ∀ {row : ScheduledJob} {body : CreateJobBody},
    start.scheduledJobs.get? definition = some row →
    row.jobTemplate = body.jobTemplate → body.PriorityValid →
    ∀ creation ∈ creationsOf definition trace,
      ∃ job, Inserts creation job ∧ body.Asks row.queueId job

theorem ticked_of_run (run : Run (step env) start trace last)
    (begun : start.calls call = some (.tick ⟨worker, .findDue threshold⟩))
    (early : threshold ≤ start.world.now)
    (lone : LoneTick call worker trace)
    (ended : last.calls call = none)
    (unedited : Unedited definition call trace) :
    Ticked env.library threshold definition start.world last.world trace := by
  have present : ∀ {row : ScheduledJob},
      start.world.scheduledJobs.get? definition = some row →
      ∃ row', last.world.scheduledJobs.get? definition = some row' ∧
        TickOutcome env.library threshold row (creationsOf definition trace)
          last.world.now row' := by
    intro row found
    obtain ⟨phase, called, fate⟩ :=
      tickFate_of_run run begun early lone unedited found
    cases phase with
    | none =>
        cases fate with
        | done _ _ found outcome => exact ⟨_, found, outcome⟩
    | some phase => cases ended.symm.trans called
  refine ⟨absent_of_run run begun early lone unedited, present, ?_⟩
  intro row body found submitted valid creation member
  obtain ⟨row', _, outcome⟩ := present found
  cases outcome with
  | notDue _ none => rw [none] at member; cases member
  | skipped _ _ _ _ none => rw [none] at member; cases member
  | deactivated _ _ _ _ none => rw [none] at member; cases member
  | @materialized _ _ _ job _ _ _ _ fires _ one inserts =>
      rw [one] at member
      cases List.mem_singleton.mp member
      exact ⟨job, inserts, CreateJobBody.asks_of_fires fires submitted valid⟩

/-- What a step of a tick leaves alone: every table but these two, the jobs
that there are, and without a creation all jobs. -/
structure TickFrame (transition : Transition State Action) : Prop where
  world : transition.after.world = { transition.before.world with
    jobs := transition.after.world.jobs
    scheduledJobs := transition.after.world.scheduledJobs
    messages := transition.after.world.messages }
  jobs : ∀ {id : JobId} {job : Job},
    transition.before.world.jobs.get? id = some job →
    transition.after.world.jobs.get? id = some job
  silent : transition.action.materializes transition.before = none →
    transition.after.world.jobs = transition.before.world.jobs

theorem TickStep.jobs {library : SchedulerLibrary} {world next : World}
    {phase : TickPhase} {input : TickInput} {phase' : Option TickPhase}
    (case : TickStep library world phase input next phase') :
    (∀ {id : JobId} {job : Job}, world.jobs.get? id = some job →
        next.jobs.get? id = some job) ∧
      (phase.creates input = none → next.jobs = world.jobs) := by
  cases case with
  | created success =>
      obtain ⟨_, fresh, lookup⟩ := World.createJob_spec success
      refine ⟨?_, nofun⟩
      intro id job found
      rw [lookup, if_neg, found]
      rintro rfl
      cases fresh.symm.trans found
  | published rows =>
      exact ⟨fun found => rows.jobs ▸ found, fun _ => rows.jobs⟩
  | _ => exact ⟨id, fun _ => rfl⟩

theorem tickFrame_of_step {transition : Transition State Action}
    (taken : step env transition.before transition.action =
      some transition.after)
    {phase : TickPhase}
    (called : transition.before.calls call = some (.tick ⟨worker, phase⟩))
    (own : transition.action.actor = some call) : TickFrame transition := by
  obtain ⟨before, action, after⟩ := transition
  dsimp only at taken called own
  cases step_acting taken own called with
  | tick ticked =>
      obtain ⟨phase', case, _⟩ := tick_cases ticked
      obtain ⟨kept, silent⟩ := case.jobs
      refine ⟨?_, kept, ?_⟩
      · have frame := case.frame
        rw [tick_logs ticked] at frame
        exact frame
      · intro none
        exact silent ((materializes_tick called).symm.trans none)
  | api handled => cases handled

theorem tickFrame_of_run (run : Run (step env) start trace last)
    (begun : start.calls call = some (.tick ⟨worker, .findDue threshold⟩))
    (early : threshold ≤ start.world.now)
    (lone : LoneTick call worker trace)
    {transition : Transition State Action} (member : transition ∈ trace)
    (own : transition.action.actor = some call) : TickFrame transition := by
  obtain ⟨earlier, later, rfl⟩ := List.append_of_mem member
  obtain ⟨before, taken, _⟩ := run.around
  have reached := loneTick_induction (motive := fun _ _ _ => True) before begun
    early (lone.of_subset fun _ => List.mem_append_left _) trivial
    (fun _ _ _ _ _ _ _ _ _ _ _ _ => trivial)
    (fun _ _ _ _ _ _ _ _ => trivial)
  obtain ⟨phase, called, _⟩ := reached
  obtain ⟨value, found⟩ := step_actor_called taken own
  cases phase with
  | none => cases called.symm.trans found
  | some phase => exact tickFrame_of_step taken called own

/-- Until one of the instants that the first tick left in the future, nothing
fires. -/
theorem TickOutcome.quiet {library : SchedulerLibrary} {threshold threshold' now : Time}
    {row row' : ScheduledJob} {creations : List (Transition State Action)}
    (parses : ∀ expression earlier later,
      library.nextRun expression earlier = none →
      library.nextRun expression later = none)
    (outcome : TickOutcome library threshold row creations now row')
    (before : ∀ value, row'.isActive = true → row'.nextRunAt = some value →
      threshold < value → threshold' < value)
    {instant nextRun : Time} {job : Job} (due : row'.DueAt threshold') :
    ¬Fires library row' instant job nextRun := by
  obtain ⟨active, value, isValue, past⟩ := due
  intro fires
  cases outcome with
  | notDue notDue _ same =>
      subst same
      have later : threshold < value := by
        by_contra early
        exact notDue ⟨active, value, isValue, Int.not_lt.mp early⟩
      exact absurd past (Int.not_le.mpr (before value active isValue later))
  | skipped _ _ _ unfit _ same =>
      subst same
      obtain ⟨template, isTemplate, accepted, _⟩ := fires.template
      cases unfit with
      | template refused => cases refused.symm.trans isTemplate
      | expression refused =>
          cases (parses _ _ instant refused).symm.trans fires.nextRun
      | columns isTemplate' refused =>
          cases isTemplate.symm.trans isTemplate'
          exact refused accepted
  | deactivated _ _ _ _ _ same =>
      subst same
      cases active
  | materialized _ early _ _ future _ _ same =>
      subst same
      cases isValue
      have later := before _ active rfl (lt_of_le_of_lt early future)
      exact absurd past (Int.not_le.mpr later)

theorem creationsOf_of_quiet (run : Run (step env) start trace last)
    (begun : start.calls call = some (.tick ⟨worker, .findDue threshold⟩))
    (early : threshold ≤ start.world.now)
    (lone : LoneTick call worker trace)
    (unedited : Unedited definition call trace)
    (quiet : ∀ {row : ScheduledJob} {instant nextRun : Time} {job : Job},
      start.world.scheduledJobs.get? definition = some row →
      row.DueAt threshold → ¬Fires env.library row instant job nextRun) :
    creationsOf definition trace = [] := by
  cases found : start.world.scheduledJobs.get? definition with
  | none => exact (absent_of_run run begun early lone unedited found).1
  | some row =>
      obtain ⟨phase, _, fate⟩ :=
        tickFate_of_run run begun early lone unedited found
      cases fate with
      | unread none => exact none
      | waiting _ _ none => exact none
      | deactivating _ _ _ _ none => exact none
      | creating _ _ _ _ none => exact none
      | advancing due _ _ fires => exact (quiet found due fires).elim
      | done _ _ _ outcome =>
          cases outcome with
          | notDue _ none => exact none
          | skipped _ _ _ _ none => exact none
          | deactivated _ _ _ _ none => exact none
          | materialized due _ _ fires => exact (quiet found due fires).elim

/-- One tick deals with each definition by itself and leaves the rest of the
database alone, and a second tick creates nothing while the clock is before
the instants that the first one left in the future. -/
theorem single_tick_correct
    (run : Run (step env) start trace last)
    (begun : start.calls call = some (.tick ⟨worker, .findDue threshold⟩))
    (early : threshold ≤ start.world.now)
    (lone : LoneTick call worker trace) (ended : last.calls call = none) :
    (∀ definition, Unedited definition call trace →
      Ticked env.library threshold definition start.world last.world trace) ∧
    (∀ transition ∈ trace, transition.action.actor = some call →
      TickFrame transition) ∧
    ∀ {start' last' : State} {trace' : List (Transition State Action)}
      {call' : CallId} {worker' : WorkerId} {threshold' : Time},
      Run (step env) start' trace' last' →
      start'.calls call' = some (.tick ⟨worker', .findDue threshold'⟩) →
      threshold' ≤ start'.world.now →
      LoneTick call' worker' trace' →
      (∀ definition, Unedited definition call trace ∧
        start'.world.scheduledJobs.get? definition =
          last.world.scheduledJobs.get? definition ∧
        Unedited definition call' trace') →
      (∀ definition row value,
        last.world.scheduledJobs.get? definition = some row →
        row.isActive = true → row.nextRunAt = some value →
        threshold < value → threshold' < value) →
      (∀ expression earlier later,
        env.library.nextRun expression earlier = none →
        env.library.nextRun expression later = none) →
      ∀ transition ∈ trace',
        transition.action.materializes transition.before = none := by
  have ticked : ∀ definition, Unedited definition call trace →
      Ticked env.library threshold definition start.world last.world trace :=
    fun _ => ticked_of_run run begun early lone ended
  refine ⟨ticked, fun _ => tickFrame_of_run run begun early lone, ?_⟩
  intro start' last' trace' call' worker' threshold' run' begun' early' lone'
    fixed before parses transition member
  rw [Option.eq_none_iff_forall_ne_some]
  intro due creates
  obtain ⟨unedited, same, unedited'⟩ := fixed due.id
  have none : creationsOf due.id trace' = [] := by
    apply creationsOf_of_quiet run' begun' early' lone' unedited'
    intro row instant nextRun job found
    rw [same] at found
    cases held : start.world.scheduledJobs.get? due.id with
    | none => cases ((ticked _ unedited).absent held).2.symm.trans found
    | some old =>
        obtain ⟨row', found', outcome⟩ := (ticked _ unedited).present held
        cases found.symm.trans found'
        exact outcome.quiet parses fun value => before due.id row value found
  have counted : transition ∈ creationsOf due.id trace' :=
    List.mem_filter.mpr ⟨member, by simp [creates]⟩
  rw [none] at counted
  cases counted

/-- A definition with a template that has no type, and one that fires. -/
def World.mixedSample : World :=
  { World.sample 1 .empty with
    scheduledJobs :=
      ⟨[(5, { ScheduledJob.sample with jobTemplate := .obj [] }),
        (6, .sample)], by simp⟩ }

/-- A tick that has just begun. -/
def World.ticking (world : World) (call : CallId) (worker : WorkerId) : State where
  world := world
  calls := Function.update (fun _ => none) call
    (some (.tick ⟨worker, .findDue world.now⟩))

/-- One definition is skipped, the other fires, and its publish fails. -/
theorem single_tick_correct_mixed :
    ∃ trace last,
      Run (step .sample) (World.mixedSample.ticking 1 1) trace last ∧
      last.status? 7 = some .queued ∧
      (∀ definition, Ticked (.ofCron .everyMinute) 0 definition World.mixedSample
        last.world trace) ∧
      ∀ transition ∈ trace, TickFrame transition := by
  obtain ⟨trace, last, run, conditions, queued, ended⟩ :=
    exists_run_of_check (step .sample) (World.mixedSample.ticking 1 1)
      [.tick 1 (.rows [5, 6]), .tick 1 .ok, .tick 1 .ok, .tick 1 (.created 7),
        .tick 1 .ok, .tick 1 .fail, .tick 1 .ok]
      (fun trace last =>
        (∀ transition ∈ trace, transition.action.actor = some 1 ∧
          transition.action.begins = none ∧
          transition.action.exiting = none ∧
          (transition.action.fails transition.before = true →
            transition.before.publishing 1 = true)) ∧
        last.status? 7 = some .queued ∧ (last.calls 1).isNone = true)
      (by decide)
  have begun : (World.mixedSample.ticking 1 1).calls 1 =
      some (.tick ⟨1, .findDue 0⟩) := rfl
  have others : ∀ {other : CallId}, other ≠ 1 → ∀ transition ∈ trace,
      transition.before.calls other = none := by
    intro other different transition member
    obtain ⟨earlier, later, rfl⟩ := List.append_of_mem member
    obtain ⟨before, _, _⟩ := run.around
    have idle : (World.mixedSample.ticking 1 1).calls other = none := by
      simp [World.ticking, different]
    refine before.invariant (fun state => state.calls other = none)
      (fun transition member => (conditions transition (by simp [member])).2.1)
      idle ?_
    intro transition begins taken absent
    exact step_calls_none taken absent (by simp [begins])
  have lone : LoneTick 1 1 trace := by
    constructor
    · intro transition member other ticks
      by_contra different
      rw [State.ticks, others different transition member] at ticks
      cases ticks
    · intro transition member
      simp [(conditions transition member).2.1]
    · intro transition member
      simp [(conditions transition member).2.2.1]
    · exact fun transition member _ => (conditions transition member).2.2.2
  have unedited : ∀ definition, Unedited definition 1 trace :=
    fun _ transition member other =>
      (other (conditions transition member).1).elim
  obtain ⟨ticked, frame, _⟩ := single_tick_correct run begun
    (le_refl (0 : Time)) lone (Option.isNone_iff_eq_none.mp ended)
  exact ⟨trace, last, run, queued, fun definition => ticked definition
    (unedited definition), fun transition member =>
      frame transition member (conditions transition member).1⟩

/-- A template whose payload is no record, one whose priority does not fit into
the column, and a definition that is due later than the others. -/
def World.laterSample : World :=
  { World.sample 1 .empty with
    scheduledJobs :=
      ⟨[(4, { ScheduledJob.sample with
          jobTemplate := .obj [("type", .str "echo"), ("payload", .str "text")] }),
        (5, { ScheduledJob.sample with
          jobTemplate := .obj [("type", .str "echo"),
            ("priority", .num 3000000000)] }),
        (6, { ScheduledJob.sample with nextRunAt := some 5000 })], by simp⟩ }

/-- The first is materialized and the second is not, and a second tick, long
before the next run of the first, creates a job for the third. -/
theorem second_tick_creates :
    ∃ trace last,
      Run (step .sample) World.laterSample.idle trace last ∧
      SingleTicker trace ∧
      (∀ transition ∈ trace,
        transition.action.fails transition.before = false) ∧
      (creationsOf 4 trace).length = 1 ∧
      last.world.nextRunOf 4 = some 60000 ∧
      (creationsOf 5 trace).length = 0 ∧
      last.world.nextRunOf 5 = some 0 ∧
      ∃ creation ∈ creationsOf 6 trace,
        creation.before.world.now = 5000 ∧
        creation.before.world.nextRunOf 4 = some 60000 := by
  obtain ⟨trace, last, run, checked, rest⟩ :=
    exists_run_of_check (step .sample) World.laterSample.idle
      [.startTick 1 1, .tick 1 (.rows [4, 5]), .tick 1 .ok,
        .tick 1 (.created 7), .tick 1 .ok, .tick 1 .ok, .tick 1 .ok,
        .tick 1 .ok, .advance 5000, .startTick 2 1, .tick 2 (.rows [5, 6]),
        .tick 2 .ok, .tick 2 .ok, .tick 2 (.created 8), .tick 2 .ok,
        .tick 2 .ok, .tick 2 .ok]
      (fun trace last =>
        ChecksCalls 3 (fun transition call =>
          transition.action.startsTick = true →
            transition.before.ticks call = false) trace ∧
        (∀ transition ∈ trace,
          transition.action.fails transition.before = false) ∧
        (creationsOf 4 trace).length = 1 ∧
        last.world.nextRunOf 4 = some 60000 ∧
        (creationsOf 5 trace).length = 0 ∧
        last.world.nextRunOf 5 = some 0 ∧
        ∃ creation ∈ creationsOf 6 trace,
          creation.before.world.now = 5000 ∧
          creation.before.world.nextRunOf 4 = some 60000)
      (by decide)
  have initial : Initial World.laterSample.idle :=
    World.idle_initial fun _ => rfl
  have conditions := checked.forall_calls run initial (by
    intro transition call absent _
    rw [State.ticks, absent])
  exact ⟨trace, last, run, fun transition member starts call =>
    conditions transition member call starts, rest⟩

end Runs

end Chronos
