import Chronos.Cron
import Chronos.Messages
import Mathlib.Order.Bounds.Basic

/-!
# The times of a cron definition

A submission and a tick each have their own notion of a cron expression:
`isValidCron` counts fields and `computeNextRunAt` takes the next minute,
while the tick asks `croner`.  This file shows for which expressions and
instants the two agree, and that from then on the definition creates no job
before an instant that matches.
-/

namespace Chronos

/-- What `croner` documents: whether `new Cron` accepts an expression does not
depend on the clock, `nextRun` is the least later match, and an expression of
five fields, which has none for the seconds, matches whole minutes. -/
structure Croner (library : CronLibrary) where
  Accepts : String → Prop
  Matches : String → Time → Prop
  throws : ∀ {expression now},
    library.nextRun expression now = none ↔ ¬Accepts expression
  least : ∀ {expression now next},
    library.nextRun expression now = some (some next) →
    IsLeast {later | now < later ∧ Matches expression later} next
  exhausted : ∀ {expression now},
    library.nextRun expression now = some none →
    ∀ {later}, now < later → ¬Matches expression later
  wholeMinute : ∀ {expression instant}, isValidCron expression = true →
    Matches expression instant → 60000 ∣ instant

theorem isLeast_multiple {period : Int} (positive : 0 < period) (now : Int) :
    IsLeast {later | now < later ∧ period ∣ later}
      (now / period * period + period) := by
  have divided := Int.mul_ediv_add_emod now period
  have remainder := Int.emod_lt_of_pos now positive
  have commuted := Int.mul_comm period (now / period)
  constructor
  · constructor
    · omega
    · exact Int.dvd_add (Int.dvd_mul_left ..) (Int.dvd_refl period)
  · rintro later ⟨after, count, rfl⟩
    have step : now / period < count := Int.ediv_lt_of_lt_mul positive (by
      rw [Int.mul_comm]
      exact after)
    have steps : (now / period + 1) * period ≤ count * period :=
      Int.mul_le_mul_of_nonneg_right step (le_of_lt positive)
    rw [Int.add_mul, Int.one_mul] at steps
    rw [Int.mul_comm period count]
    exact steps

/-- `computeNextRunAt` is the next whole minute. -/
theorem computeNextRunAt_isLeast (expression : String) (instant : Time) :
    IsLeast {later | instant < later ∧ 60000 ∣ later}
      (computeNextRunAt expression instant) :=
  isLeast_multiple (by decide) instant

theorem computeNextRunAt_le (expression : String) (instant : Time) :
    computeNextRunAt expression instant ≤ instant + 60000 :=
  Int.add_le_add_right (Int.ediv_mul_le instant (by decide)) 60000

private theorem eq_of_whole_minutes {instant boundary matching : Int}
    (future : instant < boundary) (minute : 60000 ∣ boundary)
    (whole : 60000 ∣ matching) (le : boundary ≤ matching)
    (within : matching ≤ instant + 60000) : matching = boundary := by
  omega

/-! ## The definitions that a tick has in memory -/

namespace TickPhase

/-- The definitions, as they were read, of which the tick may still create a
job or has just created one. -/
def dues : TickPhase → List DueJob
  | .findDue _ => []
  | .evaluate defs => defs
  | .deactivate _ defs => defs
  | .createJob due _ _ defs => due :: defs
  | .advance due _ _ defs => due :: defs
  | .publish _ _ defs => defs

/-- The definition in hand with the next run that was computed for it. -/
def computed? : TickPhase → Option (DueJob × Time)
  | .createJob due _ nextRun _ => some (due, nextRun)
  | .advance due _ nextRun _ => some (due, nextRun)
  | _ => none

theorem mem_dues_of_computed? {phase : TickPhase} {due : DueJob} {nextRun : Time}
    (computed : phase.computed? = some (due, nextRun)) : due ∈ phase.dues := by
  cases phase with
  | createJob => cases computed; exact List.mem_cons_self
  | advance => cases computed; exact List.mem_cons_self
  | _ => cases computed

end TickPhase

namespace TickStep

variable {library : SchedulerLibrary} {world next : World} {phase phase' : TickPhase}
  {input : TickInput} {due : DueJob}

private theorem dues_evaluated {first : DueJob} {defs : List DueJob}
    (evaluated : Evaluated library world first defs phase)
    (member : due ∈ phase.dues) : due ∈ first :: defs := by
  cases evaluated with
  | skipped => exact List.mem_cons_of_mem _ member
  | exhausted => exact List.mem_cons_of_mem _ member
  | fires => exact member

theorem dues (case : TickStep library world phase input next (some phase'))
    (member : due ∈ phase'.dues) :
    due ∈ phase.dues ∨
      ∃ start, phase = .findDue start ∧ world.dueJob due.id = some due ∧
        due.Due start := by
  cases case with
  | @dueFound start order order' =>
      right
      obtain ⟨id, inOrder, read⟩ := List.mem_filterMap.mp member
      obtain ⟨row, found, holds⟩ :=
        Table.mem_keysWhere.mp (order'.mem_iff.mp inOrder)
      have same : due = ⟨id, row⟩ := by
        simp only [World.dueJob, found, Option.map_some, Option.some.injEq]
          at read
        exact read.symm
      subst same
      simp only [Bool.and_eq_true, Option.any_eq_true, decide_eq_true_eq]
        at holds
      exact ⟨start, rfl, read, holds.2⟩
  | evaluated =>
      exact .inl (dues_evaluated (evaluateDefinition_cases ..) member)
  | deactivated => exact .inl member
  | created => exact .inl member
  | advanced => exact .inl (List.mem_cons_of_mem _ member)
  | published => exact .inl member
  | caught same =>
      left
      cases phase with
      | findDue => cases same
      | evaluate => cases same
      | deactivate => cases same; exact member
      | createJob => cases same; exact List.mem_cons_of_mem _ member
      | advance => cases same; exact List.mem_cons_of_mem _ member
      | publish => cases same; exact member

/-- A next run in memory was there before, or the library has just computed
it for a definition in memory. -/
theorem computed? {nextRun : Time}
    (case : TickStep library world phase input next (some phase'))
    (computed : phase'.computed? = some (due, nextRun)) :
    phase.computed? = some (due, nextRun) ∨
      due ∈ phase.dues ∧
        library.nextRun due.row.cronExpression world.now = some (some nextRun) := by
  cases case with
  | dueFound => cases computed
  | @evaluated first defs =>
      have evaluated := evaluateDefinition_cases library world first defs
      generalize evaluateDefinition library world first defs = reached
        at computed evaluated
      cases evaluated with
      | skipped => cases computed
      | exhausted => cases computed
      | fires later =>
          cases computed
          exact .inr ⟨List.mem_cons_self, later⟩
  | deactivated => cases computed
  | created => exact .inl computed
  | advanced => cases computed
  | published => cases computed
  | caught => cases computed

end TickStep

namespace State

/-- Some tick has the definition in memory as it was read. -/
def Holds (state : State) (due : DueJob) : Prop :=
  ∃ call owner phase, state.calls call = some (.tick ⟨owner, phase⟩) ∧
    due ∈ phase.dues

/-- Some tick has computed this next run. -/
def Computed (state : State) (due : DueJob) (nextRun : Time) : Prop :=
  ∃ call owner phase, state.calls call = some (.tick ⟨owner, phase⟩) ∧
    phase.computed? = some (due, nextRun)

theorem Computed.holds {state : State} {due : DueJob} {nextRun : Time}
    (computed : state.Computed due nextRun) : state.Holds due := by
  obtain ⟨call, owner, phase, called, isComputed⟩ := computed
  exact ⟨call, owner, phase, called, TickPhase.mem_dues_of_computed? isComputed⟩

end State

namespace Action

/-- The definition that this step inserts, with its row. -/
def defines (state : State) : Action → Option (ScheduledJobId × ScheduledJob)
  | .api call (.created [id]) =>
      match state.calls call with
      | some (.submit ⟨_, _, .createScheduled _ row⟩) => some (id, row)
      | _ => none
  | _ => none

end Action

section Steps

variable {env : Env} {state next : State} {action : Action}

theorem step_held (taken : step env state action = some next) {due : DueJob}
    (holds : next.Holds due) :
    state.Holds due ∨
      ∃ call owner start,
        state.calls call = some (.tick ⟨owner, .findDue start⟩) ∧
        state.world.dueJob due.id = some due ∧ due.Due start := by
  obtain ⟨call, owner, phase', found, member⟩ := holds
  obtain called | started | ⟨phase, input, _, called, case⟩ :=
    step_ticks taken found
  · exact .inl ⟨call, owner, phase', called, member⟩
  · subst started
    cases member
  · obtain before | ⟨start, rfl, read, isDue⟩ := case.dues member
    · exact .inl ⟨call, owner, phase, called, before⟩
    · exact .inr ⟨call, owner, start, called, read, isDue⟩

theorem step_computed (taken : step env state action = some next)
    {due : DueJob} {nextRun : Time} (computed : next.Computed due nextRun) :
    state.Computed due nextRun ∨
      state.Holds due ∧
        env.library.nextRun due.row.cronExpression state.world.now =
          some (some nextRun) := by
  obtain ⟨call, owner, phase', found, isComputed⟩ := computed
  obtain called | started | ⟨phase, input, _, called, case⟩ :=
    step_ticks taken found
  · exact .inl ⟨call, owner, phase', called, isComputed⟩
  · subst started
    cases isComputed
  · obtain before | ⟨member, fires⟩ := case.computed? isComputed
    · exact .inl ⟨call, owner, phase, called, before⟩
    · exact .inr ⟨⟨call, owner, phase, called, member⟩, fires⟩

theorem step_defines (taken : step env state action = some next)
    {definition : ScheduledJobId} {row : ScheduledJob}
    (defines : action.defines state = some (definition, row)) :
    state.world.scheduledJobs.get? definition = none ∧
      next.world.scheduledJobs.get? definition = some row := by
  unfold Action.defines at defines
  split at defines
  · rename_i call id
    split at defines
    · rename_i called
      cases defines
      cases step_acting taken rfl called with
      | api handled =>
          cases handle_cases handled with
          | submit success =>
              obtain ⟨phase', rfl, case⟩ := submitJob_cases success
              cases case with
              | scheduledCreated created =>
                  obtain ⟨scheduledJobs, inserted, same⟩ :=
                    World.createScheduledJob_spec created
                  rw [same]
                  refine ⟨(Table.insert?_eq_some_iff.mp inserted).1, ?_⟩
                  rw [Table.get?_insert? inserted, if_pos rfl]
    · cases defines
  · cases defines

/-! ## Definitions of one submission -/

/-- The row that the handler builds at this instant for a submission of the
expression. -/
def SubmittedAt (expression : String) (instant : Time) (row : ScheduledJob) :
    Prop :=
  ∃ queueId body queue queue', body.cronExpression = some expression ∧
    afterKeyCheck queueId body queue instant = .createScheduled queue' row

theorem SubmittedAt.row {expression : String} {instant : Time}
    {row : ScheduledJob} (submitted : SubmittedAt expression instant row) :
    row.cronExpression = expression ∧
      row.nextRunAt = some (computeNextRunAt expression instant) := by
  obtain ⟨queueId, body, queue, queue', given, built⟩ := submitted
  have checked := afterKeyCheck_cases queueId body queue instant
  rw [built] at checked
  cases checked with
  | cron given' =>
      rw [given] at given'
      cases given'
      exact ⟨rfl, rfl⟩

theorem exists_submittedAt {expression : String} (instant : Time)
    (valid : isValidCron expression = true) :
    ∃ row, SubmittedAt expression instant row := by
  have notEmpty : expression ≠ "" := by
    rintro rfl
    simp [isValidCron, countFields] at valid
  let body : CreateJobBody :=
    ⟨"echo", [], none, some expression, none, none, none⟩
  have built : ∃ row, afterKeyCheck 0 body ⟨0, 1, false, none⟩ instant =
      .createScheduled ⟨0, 1, false, none⟩ row := by
    simp [afterKeyCheck, body, notEmpty, valid]
  obtain ⟨row, built⟩ := built
  exact ⟨row, 0, body, _, _, rfl, built⟩

theorem KeyChecked.submittedAt {queueId : QueueId} {body : CreateJobBody}
    {queue queue' : Queue} {instant : Time} {row : ScheduledJob}
    (checked : KeyChecked queueId body queue instant
      (.createScheduled queue' row)) :
    SubmittedAt row.cronExpression instant row := by
  cases checked with
  | cron given notEmpty valid =>
      refine ⟨queueId, body, queue, queue, given, ?_⟩
      simp only [afterKeyCheck, given, if_neg notEmpty, valid, if_true]

/-- Every definition that a run inserts is one of a submission: the row was
built by the handler at some earlier instant. -/
def RowsSubmitted (state : State) : Prop :=
  ∀ {call queueId body queue row},
    state.calls call = some (.submit ⟨queueId, body, .createScheduled queue row⟩) →
    ∃ instant ≤ state.world.now, SubmittedAt row.cronExpression instant row

private theorem submitJob_builds {world next : World} {call : SubmitCall}
    {input : ApiInput} {queueId : QueueId} {body : CreateJobBody}
    {queue : Queue} {row : ScheduledJob}
    (taken : submitJob world call input =
      some (next, ⟨queueId, body, .createScheduled queue row⟩)) :
    SubmittedAt row.cronExpression world.now row := by
  obtain ⟨queueId', body', phase⟩ := call
  obtain ⟨phase', same, case⟩ := submitJob_cases taken
  cases same
  cases case with
  | keyAbsent _ _ checked => exact checked.submittedAt
  | keyFree _ checked => exact checked.submittedAt

theorem RowsSubmitted.step (submitted : RowsSubmitted state)
    (taken : Chronos.step env state action = some next) :
    RowsSubmitted next := by
  intro call queueId body queue row found
  generalize same :
    Call.submit ⟨queueId, body, .createScheduled queue row⟩ = value at found
  cases step_call taken found with
  | kept called =>
      subst same
      obtain ⟨instant, earlier, built⟩ := submitted called
      exact ⟨instant, earlier.trans (step_now taken), built⟩
  | started starts =>
      cases starts with
      | request =>
          rename_i request
          cases request <;> cases same
      | _ => cases same
  | api called case world handled =>
      subst same
      refine ⟨state.world.now, step_now taken, ?_⟩
      generalize after :
        Call.submit ⟨queueId, body, .createScheduled queue row⟩ = value'
        at handled
      cases handle_cases handled with
      | submit success =>
          cases after
          exact submitJob_builds success
      | _ => cases after
  | _ => cases same

/-! ## What the ticks have read -/

/-- The ticks in memory are sound; the definitions they hold were due when they
were read, and are still there. -/
structure ReadInv (state : State) : Prop where
  sound : ∀ {call owner phase},
    state.calls call = some (.tick ⟨owner, phase⟩) →
    phase.Sound state.world.now
  due : ∀ {due}, state.Holds due → due.Due state.world.now
  known : ∀ {due}, state.Holds due →
    ∃ row, state.world.scheduledJobs.get? due.id = some row

theorem ReadInv.initial {start : State} (initial : Initial start) :
    ReadInv start := by
  have idle : ∀ {due}, ¬start.Holds due := by
    rintro due ⟨call, owner, phase, called, _⟩
    rw [initial.calls call] at called
    cases called
  constructor
  · intro call owner phase called
    rw [initial.calls call] at called
    cases called
  · intro due holds
    exact (idle holds).elim
  · intro due holds
    exact (idle holds).elim

theorem DueJob.Due.mono {due : DueJob} {earlier later : Time}
    (isDue : due.Due earlier) (le : earlier ≤ later) : due.Due later := by
  obtain ⟨value, read, past⟩ := isDue
  exact ⟨value, read, past.trans le⟩

theorem World.dueJob_eq_some {world : World} {due : DueJob}
    (read : world.dueJob due.id = some due) :
    world.scheduledJobs.get? due.id = some due.row := by
  obtain ⟨row, found, same⟩ := Option.map_eq_some_iff.mp read
  rw [found, ← same]

theorem ReadInv.step (inv : ReadInv state)
    (taken : Chronos.step env state action = some next) : ReadInv next := by
  have later := step_now taken
  have stays : ∀ {definition row},
      state.world.scheduledJobs.get? definition = some row →
      ∃ row', next.world.scheduledJobs.get? definition = some row' := by
    intro definition row found
    obtain ⟨row', found', _⟩ := step_definition taken found
    exact ⟨row', found'⟩
  constructor
  · intro call owner phase found
    exact step_sound taken inv.sound found
  · intro due holds
    obtain before | ⟨call, owner, start, called, _, isDue⟩ :=
      step_held taken holds
    · exact (inv.due before).mono later
    · have started : start ≤ state.world.now := inv.sound called
      exact isDue.mono (started.trans later)
  · intro due holds
    obtain before | ⟨_, _, _, _, read, _⟩ := step_held taken holds
    · obtain ⟨row, found⟩ := inv.known before
      exact stays found
    · exact stays (World.dueJob_eq_some read)

theorem ReadInv.run {start last : State}
    {trace : List (Transition State Action)}
    (run : Run (Chronos.step env) start trace last) (initial : Initial start) :
    ReadInv last :=
  run.invariant ReadInv (fun _ _ => trivial) (.initial initial)
    fun _ _ taken inv => inv.step taken

/-! ## The schedule of one definition -/

section Schedule

variable (croner : Croner env.library.toCronLibrary) (expression : String)
  (instant : Time)

/-- The row has this expression, and its `next_run_at` is a matching instant
after the submission. -/
def ScheduledJob.OnTime (row : ScheduledJob) : Prop :=
  row.cronExpression = expression ∧
    ∃ matching, row.nextRunAt = some matching ∧ instant < matching ∧
      croner.Matches expression matching

/-- A definition is on time, as stored and as the ticks have read it, and so is
the next run that a tick has computed. -/
structure OnSchedule (definition : ScheduledJobId) (state : State) : Prop where
  stored : ∃ row, state.world.scheduledJobs.get? definition = some row ∧
    row.OnTime croner expression instant
  held : ∀ {due}, state.Holds due → due.id = definition →
    due.row.OnTime croner expression instant
  computed : ∀ {due nextRun}, state.Computed due nextRun →
    due.id = definition →
    instant < nextRun ∧ croner.Matches expression nextRun

end Schedule

variable {croner : Croner env.library.toCronLibrary} {expression : String}
  {instant : Time}
  {definition : ScheduledJobId}

theorem OnSchedule.step (onSchedule : OnSchedule croner expression instant
      definition state)
    (inv : ReadInv state) (taken : Chronos.step env state action = some next) :
    OnSchedule croner expression instant definition next := by
  obtain ⟨row, found, onTime⟩ := onSchedule.stored
  constructor
  · obtain ⟨row', found', kept | write⟩ := step_definition taken found
    · exact ⟨row', found', kept ▸ onTime⟩
    · refine ⟨row', found', ?_⟩
      cases write with
      | deactivate => exact onTime
      | advance called target =>
          have computed := onSchedule.computed ⟨_, _, _, called, rfl⟩ target
          exact ⟨onTime.1, _, rfl, computed⟩
  · intro due holds target
    obtain before | ⟨_, _, _, _, read, _⟩ := step_held taken holds
    · exact onSchedule.held before target
    · have stored := World.dueJob_eq_some read
      rw [target, found] at stored
      cases stored
      exact onTime
  · intro due nextRun computed target
    obtain before | ⟨holds, fires⟩ := step_computed taken computed
    · exact onSchedule.computed before target
    · obtain ⟨same, matching, value, after, _⟩ := onSchedule.held holds target
      obtain ⟨value', same', past⟩ := inv.due holds
      rw [value] at same'
      cases same'
      obtain ⟨⟨future, matchesNext⟩, _⟩ := croner.least fires
      rw [same] at matchesNext
      exact ⟨after.trans (lt_of_le_of_lt past future), matchesNext⟩

/-- A definition that is inserted on time is on schedule: its id is new, so no
tick has it in memory. -/
theorem OnSchedule.of_defines {row : ScheduledJob} (inv : ReadInv state)
    (taken : Chronos.step env state action = some next)
    (defines : action.defines state = some (definition, row))
    (onTime : row.OnTime croner expression instant) :
    OnSchedule croner expression instant definition next := by
  obtain ⟨free, found⟩ := step_defines taken defines
  have unknown : ∀ {due}, next.Holds due → due.id ≠ definition := by
    rintro due holds rfl
    obtain before | ⟨_, _, _, _, read, _⟩ := step_held taken holds
    · obtain ⟨row, known⟩ := inv.known before
      rw [free] at known
      cases known
    · have stored := World.dueJob_eq_some read
      rw [free] at stored
      cases stored
  constructor
  · exact ⟨row, found, onTime⟩
  · intro due holds target
    exact (unknown holds target).elim
  · intro due nextRun computed target
    exact (unknown computed.holds target).elim

/-! ## The first run -/

theorem eq_computeNextRunAt_of_match (valid : isValidCron expression = true)
    {matching : Time} (after : instant < matching)
    (within : matching ≤ instant + 60000)
    (isMatch : croner.Matches expression matching) :
    matching = computeNextRunAt expression instant := by
  have whole := croner.wholeMinute valid isMatch
  obtain ⟨⟨future, minute⟩, least⟩ :=
    computeNextRunAt_isLeast expression instant
  have le := least ⟨after, whole⟩
  exact eq_of_whole_minutes future minute whole le within

/-- If the minute that follows the submission matches, `croner` returns it. -/
theorem nextRun_eq_computeNextRunAt (valid : isValidCron expression = true)
    (accepts : croner.Accepts expression)
    (isMatch : croner.Matches expression (computeNextRunAt expression instant)) :
    env.library.nextRun expression instant =
        some (some (computeNextRunAt expression instant)) ∧
      IsLeast {later | instant < later ∧ croner.Matches expression later}
        (computeNextRunAt expression instant) := by
  obtain ⟨⟨future, _⟩, leastMinute⟩ :=
    computeNextRunAt_isLeast expression instant
  have least : IsLeast {later | instant < later ∧ croner.Matches expression later}
      (computeNextRunAt expression instant) := by
    refine ⟨⟨future, isMatch⟩, ?_⟩
    rintro later ⟨after, matchesLater⟩
    exact leastMinute ⟨after, croner.wholeMinute valid matchesLater⟩
  refine ⟨?_, least⟩
  cases fires : env.library.nextRun expression instant with
  | none => exact (croner.throws.mp fires accepts).elim
  | some result =>
      cases result with
      | none => exact (croner.exhausted fires future isMatch).elim
      | some next => rw [(croner.least fires).unique least]

section Agrees

variable (croner : Croner env.library.toCronLibrary) (expression : String)
  (instant : Time)

/-- A submission of the expression at this instant and the ticks that follow
agree on its times: `new Cron` accepts it, the `next_run_at` that is stored is
the next run of `croner`, and no job of the definition is created before the
matching instant it stands for. -/
structure CronAgrees : Prop where
  parses : ∀ now, env.library.nextRun expression now ≠ none
  stored : ∀ {row}, SubmittedAt expression instant row →
    ∃ next, row.nextRunAt = some next ∧
      env.library.nextRun expression instant = some (some next) ∧
      IsLeast {later | instant < later ∧ croner.Matches expression later} next
  punctual : ∀ {start last earlier creation later definition row},
    Run (Chronos.step env) start (earlier ++ creation :: later) last →
    Initial start →
    creation.action.defines creation.before = some (definition, row) →
    SubmittedAt expression instant row →
    ∀ transition ∈ later,
    ∀ due ∈ transition.action.materializes transition.before,
      due.id = definition →
      ∃ matching, due.row.nextRunAt = some matching ∧ instant < matching ∧
        matching ≤ transition.before.world.now ∧
        croner.Matches expression matching

end Agrees

theorem holds_of_materializes {due : DueJob}
    (creates : action.materializes state = some due) : state.Holds due := by
  unfold Action.materializes at creates
  split at creates
  · split at creates
    · rename_i called
      cases creates
      exact ⟨_, _, _, called, List.mem_cons_self⟩
    · cases creates
  · cases creates

/-- A definition that is inserted on time creates its jobs on time. -/
theorem punctual_of_onTime {start last : State}
    {earlier later : List (Transition State Action)}
    {creation : Transition State Action} {row : ScheduledJob}
    (run : Run (Chronos.step env) start (earlier ++ creation :: later) last)
    (initial : Initial start)
    (defines : creation.action.defines creation.before = some (definition, row))
    (onTime : row.OnTime croner expression instant)
    {transition : Transition State Action} (member : transition ∈ later)
    {due : DueJob}
    (creates : transition.action.materializes transition.before = some due)
    (target : due.id = definition) :
    ∃ matching, due.row.nextRunAt = some matching ∧ instant < matching ∧
      matching ≤ transition.before.world.now ∧
      croner.Matches expression matching := by
  obtain ⟨before, taken, after⟩ := run.around
  have inv := ReadInv.run before initial
  obtain ⟨⟨inv, onSchedule⟩, _⟩ := after.invariant_before
    (fun state => ReadInv state ∧
      OnSchedule croner expression instant definition state)
    (fun _ _ => trivial)
    ⟨inv.step taken, .of_defines inv taken defines onTime⟩
    (fun _ _ taken both => ⟨both.1.step taken, both.2.step both.1 taken⟩)
    member
  have holds := holds_of_materializes creates
  obtain ⟨_, matching, value, later, isMatch⟩ := onSchedule.held holds target
  obtain ⟨value', same, past⟩ := inv.due holds
  rw [value] at same
  cases same
  exact ⟨matching, value, later, past, isMatch⟩

/-- For every expression that the API accepts and every instant, submission
and ticks agree if and only if `croner` accepts the expression and it has a
match in the minute that follows. -/
theorem cron_agrees_iff (croner : Croner env.library.toCronLibrary)
    {expression : String} {instant : Time}
    (valid : isValidCron expression = true) :
    CronAgrees croner expression instant ↔
      croner.Accepts expression ∧
        ∃ matching, instant < matching ∧ matching ≤ instant + 60000 ∧
          croner.Matches expression matching := by
  constructor
  · intro agrees
    constructor
    · by_contra refused
      exact agrees.parses instant (croner.throws.mpr refused)
    · obtain ⟨row, submitted⟩ := exists_submittedAt instant valid
      obtain ⟨next, value, _, ⟨⟨after, isMatch⟩, _⟩⟩ := agrees.stored submitted
      rw [submitted.row.2, Option.some.injEq] at value
      refine ⟨next, after, ?_, isMatch⟩
      rw [← value]
      exact computeNextRunAt_le expression instant
  · rintro ⟨accepts, matching, after, within, isMatch⟩
    have same := eq_computeNextRunAt_of_match valid after within isMatch
    rw [same] at after isMatch
    have first := nextRun_eq_computeNextRunAt valid accepts isMatch
    constructor
    · intro now throws
      exact croner.throws.mp throws accepts
    · intro row submitted
      exact ⟨_, submitted.row.2, first⟩
    · intro start last earlier creation later definition row run initial
        defines submitted transition member due creates target
      have onTime : row.OnTime croner expression instant :=
        ⟨submitted.row.1, _, submitted.row.2, after, isMatch⟩
      exact punctual_of_onTime run initial defines onTime member creates target

end Steps

/-! ## A deployment with a few expressions -/

/-- The period of the expressions for every minute, every hour and every
midnight. -/
def cronPeriod (expression : String) : Option Time :=
  if expression = "* * * * *" then some 60000
  else if expression = "0 * * * *" then some 3600000
  else if expression = "0 0 * * *" then some 86400000
  else none

theorem cronPeriod_spec {expression : String} {period : Time}
    (isPeriod : cronPeriod expression = some period) :
    0 < period ∧ 60000 ∣ period := by
  unfold cronPeriod at isPeriod
  split at isPeriod
  · cases isPeriod; decide
  · split at isPeriod
    · cases isPeriod; decide
    · split at isPeriod
      · cases isPeriod; decide
      · cases isPeriod

/-- The parser on these expressions; it throws on anything else. -/
def CronLibrary.periodic : CronLibrary where
  nextRun expression now :=
    (cronPeriod expression).map fun period =>
      some (now / period * period + period)
  later := by
    intro expression now next fires
    obtain ⟨period, isPeriod, same⟩ := Option.map_eq_some_iff.mp fires
    cases same
    exact (isLeast_multiple (cronPeriod_spec isPeriod).1 now).1.1

def Env.periodic : Env := ⟨15, .ofCron .periodic⟩

def Croner.periodic : Croner Env.periodic.library.toCronLibrary where
  Accepts expression := ∃ period, cronPeriod expression = some period
  Matches expression instant :=
    ∃ period, cronPeriod expression = some period ∧ period ∣ instant
  throws := by
    intro expression now
    simp [Env.periodic, SchedulerLibrary.ofCron, CronLibrary.periodic,
      Option.eq_none_iff_forall_ne_some]
  least := by
    intro expression now next fires
    obtain ⟨period, isPeriod, same⟩ := Option.map_eq_some_iff.mp fires
    cases same
    have least := isLeast_multiple (cronPeriod_spec isPeriod).1 now
    constructor
    · exact ⟨least.1.1, period, isPeriod, least.1.2⟩
    · rintro later ⟨after, period', isPeriod', divides⟩
      rw [isPeriod] at isPeriod'
      cases isPeriod'
      exact least.2 ⟨after, divides⟩
  exhausted := by
    intro expression now fires
    obtain ⟨period, _, same⟩ := Option.map_eq_some_iff.mp fires
    cases same
  wholeMinute := by
    rintro expression instant _ ⟨period, isPeriod, divides⟩
    exact (cronPeriod_spec isPeriod).2.trans divides

/-- Every minute: the submission and the ticks agree. -/
theorem cron_agrees_every_minute :
    CronAgrees Croner.periodic "* * * * *" 30000 :=
  (cron_agrees_iff Croner.periodic (by decide)).mpr
    ⟨⟨60000, rfl⟩, 60000, by decide, by decide, 60000, rfl, by decide⟩

/-- Every midnight: the first run is stored for the next minute, and a job is
created then.  An expression of five letters is accepted but never parsed. -/
theorem midnight_fires_early :
    isValidCron "a b c d e" = true ∧
    (∀ now, Env.periodic.library.nextRun "a b c d e" now = none) ∧
    isValidCron "0 0 * * *" = true ∧
    ¬CronAgrees Croner.periodic "0 0 * * *" 0 ∧
    ∃ trace last,
      Run (step .periodic) (World.sample 1 .empty).idle trace last ∧
      ∃ transition ∈ trace,
      ∃ due ∈ transition.action.materializes transition.before,
        due.row.cronExpression = "0 0 * * *" ∧
        ∀ matching, 0 < matching →
          Croner.periodic.Matches "0 0 * * *" matching →
          transition.before.world.now < matching := by
  have valid : isValidCron "0 0 * * *" = true := by decide
  have atMidnight : ∀ {matching : Time}, 0 < matching →
      Croner.periodic.Matches "0 0 * * *" matching → 86400000 ≤ matching := by
    rintro matching after ⟨period, isPeriod, divides⟩
    cases isPeriod
    exact Int.le_of_dvd after divides
  refine ⟨by decide, fun _ => rfl, valid, ?_, ?_⟩
  · intro agrees
    obtain ⟨row, submitted⟩ := exists_submittedAt 0 valid
    obtain ⟨next, value, _, ⟨⟨after, isMatch⟩, _⟩⟩ := agrees.stored submitted
    rw [submitted.row.2] at value
    cases value
    exact absurd (atMidnight after isMatch) (by decide)
  · have checked := exists_run_of_check (step .periodic)
      (World.sample 1 .empty).idle
      [.request 1 (.submit 0
          ⟨"echo", [], none, some "0 0 * * *", none, none, none⟩),
        .api 1 .ok, .api 1 (.created [5]), .advance 60000, .startTick 2 1,
        .tick 2 (.rows [5]), .tick 2 .ok, .tick 2 (.created 7)]
      (fun trace _ =>
        ∃ transition ∈ trace,
        ∃ due ∈ transition.action.materializes transition.before,
          due.row.cronExpression = "0 0 * * *" ∧
          transition.before.world.now = 60000)
      (by decide +kernel)
    obtain ⟨trace, last, run, transition, member, due, creates, same, now⟩ :=
      checked
    refine ⟨trace, last, run, transition, member, due, creates, same, ?_⟩
    intro matching after isMatch
    rw [now]
    exact lt_of_lt_of_le (by decide) (atMidnight after isMatch)

end Chronos
