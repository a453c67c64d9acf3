import Chronos.Writers

/-!
# Cron definitions

A tick reads the due definitions, and for each creates a job and then advances
`next_run_at`, in separate steps.  This file shows when every value of
`next_run_at` leads to at most one job.  The invariant is that a definition
between creation and advance belongs to one tick and still has the value that
this tick read.
-/

namespace Chronos

namespace World

/-- The current `next_run_at` of a definition. -/
def nextRunOf (world : World) (definition : ScheduledJobId) : Option Time :=
  (world.scheduledJobs.get? definition).bind (·.nextRunAt)

end World

namespace DueJob

/-- The value of `next_run_at` that the tick read lies before the instant. -/
def Before (due : DueJob) (instant : Time) : Prop :=
  ∃ value, due.row.nextRunAt = some value ∧ value < instant

def Due (due : DueJob) (instant : Time) : Prop :=
  ∃ value, due.row.nextRunAt = some value ∧ value ≤ instant

end DueJob

namespace TickPhase

/-- The definitions a tick has in memory were due when it read them, and the
next run that it has computed lies later. -/
def Sound (now : Time) : TickPhase → Prop
  | .findDue start => start ≤ now
  | .evaluate defs => ∀ due ∈ defs, due.Due now
  | .deactivate _ defs => ∀ due ∈ defs, due.Due now
  | .createJob due _ nextRun defs =>
      due.Before nextRun ∧ ∀ other ∈ defs, other.Due now
  | .advance due _ nextRun defs =>
      due.Before nextRun ∧ ∀ other ∈ defs, other.Due now
  | .publish _ _ defs => ∀ due ∈ defs, due.Due now

theorem Sound.mono {phase : TickPhase} {now later : Time}
    (sound : phase.Sound now) (le : now ≤ later) : phase.Sound later := by
  have still : ∀ {defs : List DueJob}, (∀ due ∈ defs, due.Due now) →
      ∀ due ∈ defs, due.Due later := by
    intro defs all due member
    obtain ⟨value, read, past⟩ := all due member
    exact ⟨value, read, past.trans le⟩
  cases phase with
  | findDue start => exact le_trans sound le
  | evaluate defs => exact still sound
  | deactivate due defs => exact still sound
  | createJob due job nextRun defs => exact ⟨sound.1, still sound.2⟩
  | advance due newJob nextRun defs => exact ⟨sound.1, still sound.2⟩
  | publish due newJob defs => exact still sound

end TickPhase

namespace TickStep

variable {library : SchedulerLibrary} {world next : World} {phase phase' : TickPhase}
  {input : TickInput}

private theorem sound_evaluated {due : DueJob} {defs : List DueJob}
    (evaluated : Evaluated library world due defs phase)
    (read : due.Due world.now) (rest : ∀ other ∈ defs, other.Due world.now) :
    phase.Sound world.now := by
  cases evaluated with
  | skipped => exact rest
  | exhausted => exact rest
  | fires later =>
      obtain ⟨value, same, past⟩ := read
      exact ⟨⟨value, same, lt_of_le_of_lt past (library.later later)⟩, rest⟩

theorem sound (case : TickStep library world phase input next (some phase'))
    (before : phase.Sound world.now) (later : world.now ≤ next.now) :
    phase'.Sound next.now := by
  cases case with
  | @dueFound start order order' =>
      intro due member
      obtain ⟨id, inOrder, read⟩ := List.mem_filterMap.mp member
      obtain ⟨row, found, holds⟩ :=
        Table.mem_keysWhere.mp (order'.mem_iff.mp inOrder)
      simp only [World.dueJob, found, Option.map_some, Option.some.injEq]
        at read
      subst read
      simp only [Bool.and_eq_true, Option.any_eq_true,
        decide_eq_true_eq] at holds
      obtain ⟨_, value, same, past⟩ := holds
      exact ⟨value, same, past.trans (le_trans before later)⟩
  | evaluated =>
      exact sound_evaluated (evaluateDefinition_cases ..)
        (before _ List.mem_cons_self)
        (fun other member => before other (List.mem_cons_of_mem _ member))
  | deactivated => exact TickPhase.Sound.mono before later
  | created => exact TickPhase.Sound.mono before later
  | advanced => exact TickPhase.Sound.mono before.2 later
  | published => exact TickPhase.Sound.mono before later
  | caught same =>
      cases phase with
      | findDue => cases same
      | evaluate => cases same
      | deactivate =>
          cases same
          exact TickPhase.Sound.mono before later
      | createJob =>
          cases same
          exact TickPhase.Sound.mono before.2 later
      | advance =>
          cases same
          exact TickPhase.Sound.mono before.2 later
      | publish =>
          cases same
          exact TickPhase.Sound.mono before later

end TickStep

namespace State

/-- The definition for which this tick has created a job but not yet advanced
`next_run_at`. -/
def advancing? (state : State) (call : CallId) : Option DueJob :=
  match state.calls call with
  | some (.tick ⟨_, .advance due _ _ _⟩) => some due
  | _ => none

theorem advancing?_eq_some {state : State} {call : CallId} {due : DueJob}
    (advancing : state.advancing? call = some due) :
    ∃ owner newJob nextRun defs, state.calls call =
      some (.tick ⟨owner, .advance due newJob nextRun defs⟩) := by
  unfold advancing? at advancing
  split at advancing <;> cases advancing
  exact ⟨_, _, _, _, ‹_›⟩

end State

namespace Action

/-- The definition, as the tick read it, for which this step creates a job. -/
def materializes (state : State) : Action → Option DueJob
  | .tick call (.created _) =>
      match state.calls call with
      | some (.tick ⟨_, .createJob due _ _ _⟩) => some due
      | _ => none
  | _ => none

end Action

/-- Every value of `next_run_at` of a definition leads to at most one job in
this history. -/
def MaterializesOnce (trace : List (Transition State Action)) : Prop :=
  ∀ {earlier between later first second due other},
    trace = earlier ++ first :: (between ++ second :: later) →
    first.action.materializes first.before = some due →
    second.action.materializes second.before = some other →
    ¬(due.id = other.id ∧ due.row.nextRunAt = other.row.nextRunAt)

/-- The call is not between creating a job and advancing for a definition for
which this step creates one. -/
def LeavesDefinition (transition : Transition State Action) (call : CallId) :
    Prop :=
  ∀ due ∈ transition.action.materializes transition.before,
    ∀ other ∈ transition.before.advancing? call, other.id ≠ due.id

instance (transition : Transition State Action) (call : CallId) :
    Decidable (LeavesDefinition transition call) :=
  inferInstanceAs (Decidable (∀ due ∈ _, ∀ other ∈ _, _ ≠ _))

/-- If a worker process ends in this step, this call of it is not between
creating a job and advancing the definition. -/
def FinishesDefinition (transition : Transition State Action) (call : CallId) :
    Prop :=
  ∀ worker ∈ transition.action.exiting,
    transition.before.belongs worker call = true →
    (transition.before.advancing? call).isNone = true

instance (transition : Transition State Action) (call : CallId) :
    Decidable (FinishesDefinition transition call) :=
  inferInstanceAs (Decidable (∀ worker ∈ _, _ = _ → _ = _))

/-- The update by which this call advances a definition does not fail. -/
def AdvanceSucceeds (transition : Transition State Action) (call : CallId) :
    Prop :=
  transition.action.actor = some call →
    (transition.before.advancing? call).isSome = true →
    transition.action.fails transition.before = false

instance (transition : Transition State Action) (call : CallId) :
    Decidable (AdvanceSucceeds transition call) :=
  inferInstanceAs (Decidable (_ = _ → _ = _ → _ = _))

/-- If a tick creates a job in this step, the definition still has the value
that the tick read, and no other tick is about to advance it. -/
structure CreatesFresh (transition : Transition State Action) : Prop where
  current : ∀ due ∈ transition.action.materializes transition.before,
    transition.before.world.nextRunOf due.id = due.row.nextRunAt
  alone : ∀ call, LeavesDefinition transition call

/-- Ticks in memory are sound; a definition between creation and advance has
one tick, and the value which that tick read. -/
structure CronInv (state : State) : Prop where
  sound : ∀ {call owner phase},
    state.calls call = some (.tick ⟨owner, phase⟩) →
    phase.Sound state.world.now
  current : ∀ {call due}, state.advancing? call = some due →
    state.world.nextRunOf due.id = due.row.nextRunAt
  unique : ∀ {first second due other}, state.advancing? first = some due →
    state.advancing? second = some other → due.id = other.id → first = second

/-- An update of one definition by one step. -/
inductive DefinitionWrite (state : State) (definition : ScheduledJobId) :
    Action → ScheduledJob → ScheduledJob → Prop where
  | deactivate {action : Action} {row : ScheduledJob} :
      DefinitionWrite state definition action row { row with isActive := false }
  | advance {call : CallId} {owner : WorkerId} {due : DueJob} {newJob : JobId}
      {nextRun : Time} {defs : List DueJob} {row : ScheduledJob} :
      state.calls call =
        some (.tick ⟨owner, .advance due newJob nextRun defs⟩) →
      due.id = definition →
      DefinitionWrite state definition (.tick call .ok) row
        { row with
          lastRunAt := some state.world.now, nextRunAt := some nextRun }

section Steps

variable {env : Env} {start last state next : State} {action : Action}
  {trace : List (Transition State Action)}

theorem step_definition (taken : step env state action = some next)
    {definition : ScheduledJobId} {row : ScheduledJob}
    (found : state.world.scheduledJobs.get? definition = some row) :
    ∃ row', next.world.scheduledJobs.get? definition = some row' ∧
      (row' = row ∨ DefinitionWrite state definition action row row') := by
  have kept : ∀ {world : World},
      world.scheduledJobs.get? definition = some row →
      ∃ row', world.scheduledJobs.get? definition = some row' ∧
        (row' = row ∨ DefinitionWrite state definition action row row') :=
    fun still => ⟨row, still, .inl rfl⟩
  have written : ∀ {id : ScheduledJobId} {update : ScheduledJob → ScheduledJob},
      (id = definition → DefinitionWrite state definition action row (update row)) →
      ∃ row', (state.world.scheduledJobs.modify id update).get? definition =
          some row' ∧
        (row' = row ∨ DefinitionWrite state definition action row row') := by
    intro id update write
    by_cases target : definition = id
    · subst definition
      exact ⟨update row, by simp [found], .inr (write rfl)⟩
    · exact ⟨row, by simp [target, found], .inl rfl⟩
  cases step_cases taken with
  | registered success =>
      obtain ⟨workers, _, rfl⟩ := World.registerWorker_eq_some success
      exact kept found
  | poll _ case =>
      apply kept
      rw [case.frame]
      exact found
  | exec _ case =>
      cases case with
      | announced _ rows => exact kept (rows.scheduledJobs found)
      | published _ rows => exact kept (rows.scheduledJobs found)
      | deadLettered _ _ success =>
          obtain ⟨_, _, _, rfl⟩ := World.commitDeadLetter_spec success
          exact kept found
      | _ => exact kept found
  | reap _ case =>
      cases case with
      | published rows => exact kept (rows.scheduledJobs found)
      | _ => exact kept found
  | tick called case =>
      cases case with
      | created success =>
          apply kept
          rw [(World.createJob_spec success).1]
          exact found
      | published rows => exact kept (rows.scheduledJobs found)
      | deactivated => exact written fun _ => .deactivate
      | advanced => exact written fun target => .advance called target
      | _ => exact kept found
  | api _ case =>
      cases case with
      | silent rows => exact kept (rows.scheduledJobs found)
      | submitted _ success =>
          apply kept
          rw [(World.createJob_spec success).1]
          exact found
      | batchSubmitted _ _ success =>
          apply kept
          rw [(World.createJobs_spec success).1]
          exact found
      | _ => exact kept found
  | _ => exact kept found

/-- A definition's `next_run_at` changes only when a tick advances it. -/
theorem step_nextRun (taken : step env state action = some next)
    {definition : ScheduledJobId} {value : Time}
    (before : state.world.nextRunOf definition = some value) :
    next.world.nextRunOf definition = some value ∨
      ∃ call owner due newJob nextRun defs, action = .tick call .ok ∧
        state.calls call =
          some (.tick ⟨owner, .advance due newJob nextRun defs⟩) ∧
        due.id = definition ∧
        next.world.nextRunOf definition = some nextRun := by
  obtain ⟨row, found, same⟩ := Option.bind_eq_some_iff.mp before
  obtain ⟨row', found', kept | write⟩ := step_definition taken found
  · left
    simp [World.nextRunOf, found', kept, same]
  · cases write with
    | deactivate =>
        left
        simp [World.nextRunOf, found', same]
    | advance called target =>
        refine .inr ⟨_, _, _, _, _, _, rfl, called, target, ?_⟩
        simp [World.nextRunOf, found']

theorem step_tick {call : CallId} {owner : WorkerId} {phase : TickPhase}
    (taken : step env state action = some next)
    (called : state.calls call = some (.tick ⟨owner, phase⟩))
    (own : action.actor = some call) :
    ∃ input world phase', action = .tick call input ∧
      TickStep env.library state.world phase input world phase' ∧
      next = ⟨world, Function.update state.calls call
        (phase'.map fun phase => .tick ⟨owner, phase⟩)⟩ := by
  cases step_cases taken with
  | started starts _ => cases starts <;> cases own
  | tick found case =>
      cases own
      cases called.symm.trans found
      exact ⟨_, _, _, rfl, case, rfl⟩
  | poll found => cases own; cases called.symm.trans found
  | launched found => cases own; cases called.symm.trans found
  | exec found => cases own; cases called.symm.trans found
  | reap found => cases own; cases called.symm.trans found
  | api found case =>
      cases own
      cases called.symm.trans found
      cases case.requests.1
  | _ => cases own

theorem step_ticks (taken : step env state action = some next)
    {call : CallId} {owner : WorkerId} {phase' : TickPhase}
    (found : next.calls call = some (.tick ⟨owner, phase'⟩)) :
    state.calls call = some (.tick ⟨owner, phase'⟩) ∨
      phase' = .findDue state.world.now ∨
      ∃ phase input, action = .tick call input ∧
        state.calls call = some (.tick ⟨owner, phase⟩) ∧
        TickStep env.library state.world phase input next.world (some phase') := by
  generalize same : Call.tick ⟨owner, phase'⟩ = value at found
  cases step_call taken found with
  | kept called => exact .inl (same ▸ called)
  | started starts =>
      cases starts with
      | tick => cases same; exact .inr (.inl rfl)
      | request =>
          rename_i request
          cases request <;> cases same
      | _ => cases same
  | handedOver => cases same
  | launched => cases same
  | poll => cases same
  | exec => cases same
  | reap => cases same
  | tick called case world =>
      cases same
      subst world
      exact .inr (.inr ⟨_, _, rfl, called, case⟩)
  | api called case =>
      subst same
      cases case.requests.2

/-- A tick comes between creation and advance only by creating a job, which
leaves the definitions alone. -/
theorem step_advancing (taken : step env state action = some next)
    {call : CallId} {due : DueJob}
    (advancing : next.advancing? call = some due) :
    state.advancing? call = some due ∨
      (action.actor = some call ∧ action.materializes state = some due ∧
        next.world.scheduledJobs = state.world.scheduledJobs) := by
  obtain ⟨owner, newJob, nextRun, defs, found⟩ :=
    State.advancing?_eq_some advancing
  obtain called | started | ⟨phase, input, rfl, called, case⟩ :=
    step_ticks taken found
  · left
    simp [State.advancing?, called]
  · cases started
  · generalize after : TickPhase.advance due newJob nextRun defs = phase'
      at case
    generalize next.world = world at case ⊢
    cases case with
    | created success =>
        cases after
        refine .inr ⟨rfl, by simp [Action.materializes, called], ?_⟩
        rw [(World.createJob_spec success).1]
    | @evaluated due' defs' =>
        have evaluated :=
          evaluateDefinition_cases env.library state.world due' defs'
        rw [← after] at evaluated
        cases evaluated
    | _ => cases after

/-- The ticks in memory stay sound, whatever the other calls do. -/
theorem step_sound (taken : step env state action = some next)
    (sound : ∀ {call owner phase},
      state.calls call = some (.tick ⟨owner, phase⟩) →
      phase.Sound state.world.now)
    {call : CallId} {owner : WorkerId} {phase : TickPhase}
    (found : next.calls call = some (.tick ⟨owner, phase⟩)) :
    phase.Sound next.world.now := by
  have later := step_now taken
  obtain called | started | ⟨before, input, _, called, case⟩ :=
    step_ticks taken found
  · exact (sound called).mono later
  · subst started
    exact later
  · exact case.sound (sound called) later

theorem CronInv.step (inv : CronInv state)
    (taken : Chronos.step env state action = some next)
    (fresh : CreatesFresh ⟨state, action, next⟩) :
    CronInv next := by
  constructor
  · intro call owner phase found
    exact step_sound taken inv.sound found
  · intro call due advancing
    rcases step_advancing taken advancing with old | ⟨_, creates, same⟩
    · have current := inv.current old
      obtain ⟨owner, newJob, nextRun, defs, called⟩ :=
        State.advancing?_eq_some old
      obtain ⟨⟨value, read, _⟩, _⟩ := inv.sound called
      rw [read] at current ⊢
      rcases step_nextRun taken current with
        unchanged | ⟨acting, _, due', _, _, _, rfl, called', target, _⟩
      · exact unchanged
      · have advancing' : state.advancing? acting = some due' := by
          simp [State.advancing?, called']
        have mine := inv.unique advancing' old target
        subst acting
        obtain ⟨_, world, phase', same, case, rfl⟩ :=
          step_tick taken called' rfl
        cases same
        cases case with
        | advanced => simp [State.advancing?] at advancing
    · rw [World.nextRunOf, same]
      exact fresh.current due creates
  · intro first second due other firstAdvances secondAdvances same
    rcases step_advancing taken firstAdvances with
      firstOld | ⟨firstActs, firstCreates, _⟩
    · rcases step_advancing taken secondAdvances with
        secondOld | ⟨_, secondCreates, _⟩
      · exact inv.unique firstOld secondOld same
      · exact (fresh.alone first other secondCreates due firstOld same).elim
    · rcases step_advancing taken secondAdvances with
        secondOld | ⟨secondActs, _, _⟩
      · exact (fresh.alone second due firstCreates other secondOld same.symm).elim
      · rw [firstActs] at secondActs
        exact Option.some.inj secondActs

theorem advance_kept (taken : step env state action = some next)
    {call : CallId} (finishes : FinishesDefinition ⟨state, action, next⟩ call)
    (other : action.actor ≠ some call) {owner : WorkerId} {due : DueJob}
    {newJob : JobId} {nextRun : Time} {defs : List DueJob}
    (called : state.calls call =
      some (.tick ⟨owner, .advance due newJob nextRun defs⟩)) :
    next.calls call =
      some (.tick ⟨owner, .advance due newJob nextRun defs⟩) := by
  cases stays : action.exits with
  | false => exact step_keeps taken stays called other
  | true =>
      cases step_cases taken with
      | @exited worker =>
          have notMine : state.belongs worker call = false := by
            cases mine : state.belongs worker call with
            | false => rfl
            | true =>
                have none := finishes worker rfl mine
                rw [State.advancing?, called] at none
                cases none
          simp only [State.exitWorker, notMine, called]
          rfl
      | started starts => cases starts <;> cases stays
      | _ => cases stays

private theorem advancing_kept (taken : step env state action = some next)
    {call : CallId} (finishes : FinishesDefinition ⟨state, action, next⟩ call)
    (other : action.actor ≠ some call) {due : DueJob}
    (advancing : state.advancing? call = some due) :
    next.advancing? call = some due := by
  obtain ⟨owner, newJob, nextRun, defs, called⟩ :=
    State.advancing?_eq_some advancing
  rw [State.advancing?, advance_kept taken finishes other called]

/-- The occurrence is dealt with: a tick is about to advance the definition
from this value, or it is past it. -/
def Passed (definition : ScheduledJobId) (value : Time) (state : State) : Prop :=
  (∃ call due, state.advancing? call = some due ∧ due.id = definition ∧
    due.row.nextRunAt = some value) ∨
  ∃ later, value < later ∧ state.world.nextRunOf definition = some later

private theorem passed_step (inv : CronInv state)
    (taken : step env state action = some next)
    (succeeds : ∀ call, AdvanceSucceeds ⟨state, action, next⟩ call)
    (finishes : ∀ call, FinishesDefinition ⟨state, action, next⟩ call)
    {definition : ScheduledJobId} {value : Time}
    (passed : Passed definition value state) :
    Passed definition value next := by
  rcases passed with ⟨call, due, advancing, rfl, read⟩ | ⟨later, less, current⟩
  · obtain ⟨owner, newJob, nextRun, defs, called⟩ :=
      State.advancing?_eq_some advancing
    by_cases own : action.actor = some call
    · obtain ⟨input, world, phase', rfl, case, rfl⟩ :=
        step_tick taken called own
      obtain ⟨⟨old, same, before⟩, _⟩ := inv.sound called
      rw [read] at same
      cases same
      have current := inv.current advancing
      rw [read] at current
      obtain ⟨row, found, _⟩ := Option.bind_eq_some_iff.mp current
      cases case with
      | advanced =>
          refine .inr ⟨nextRun, before, ?_⟩
          simp [World.nextRunOf, World.advance, found]
      | caught =>
          have spared := succeeds call rfl (by rw [advancing]; rfl)
          cases spared
    · have still := advancing_kept taken (finishes call) own advancing
      exact .inl ⟨call, due, still, rfl, read⟩
  · right
    rcases step_nextRun taken current with
      unchanged | ⟨acting, _, due, _, nextRun, _, rfl, called, rfl, advanced⟩
    · exact ⟨later, less, unchanged⟩
    · have advancing : state.advancing? acting = some due := by
        simp [State.advancing?, called]
      obtain ⟨⟨old, read, before⟩, _⟩ := inv.sound called
      have same := inv.current advancing
      rw [current, read] at same
      cases same
      exact ⟨nextRun, less.trans before, advanced⟩

private theorem passed_of_creation (inv : CronInv state)
    (taken : step env state action = some next) {due : DueJob}
    (creates : action.materializes state = some due) :
    ∃ value, due.row.nextRunAt = some value ∧ Passed due.id value next := by
  unfold Action.materializes at creates
  split at creates
  · rename_i call id
    split at creates
    · rename_i called
      cases creates
      obtain ⟨⟨value, read, _⟩, _⟩ := inv.sound called
      obtain ⟨_, world, phase', same, case, rfl⟩ := step_tick taken called rfl
      cases same
      cases case with
      | created =>
          refine ⟨value, read, .inl ⟨call, due, ?_, rfl, read⟩⟩
          simp [State.advancing?]
    · cases creates
  · cases creates

theorem CronInv.initial (initial : Initial start) : CronInv start := by
  constructor
  · intro call owner phase found
    rw [initial.calls call] at found
    cases found
  · intro call due advancing
    simp [State.advancing?, initial.calls call] at advancing
  · intro call _ due _ advancing
    simp [State.advancing?, initial.calls call] at advancing

/-- Every due occurrence leads to at most one job if each creation is fresh and
every tick that has created a job goes on to advance the definition. -/
theorem materializesOnce_of_fresh (run : Run (step env) start trace last)
    (initial : Initial start)
    (succeeds : ∀ transition ∈ trace, ∀ call, AdvanceSucceeds transition call)
    (finishes : ∀ transition ∈ trace, ∀ call,
      FinishesDefinition transition call)
    (fresh : ∀ transition ∈ trace, CreatesFresh transition) :
    MaterializesOnce trace := by
  rintro earlier between later first second due other rfl creates again
    ⟨sameDefinition, sameValue⟩
  obtain ⟨toFirst, created, afterFirst⟩ := run.around
  obtain ⟨toSecond, _, _⟩ := afterFirst.around
  have inv := toFirst.invariant CronInv
    (fun transition member => fresh transition (by simp [member]))
    (.initial initial) (fun _ fresh taken inv => inv.step taken fresh)
  obtain ⟨value, read, passed⟩ := passed_of_creation inv created creates
  obtain ⟨_, passed⟩ := toSecond.invariant
    (fun state => CronInv state ∧ Passed due.id value state)
    (fun transition member =>
      And.intro (fresh transition (by simp [member]))
        (And.intro (succeeds transition (by simp [member]))
          (finishes transition (by simp [member]))))
    ⟨inv.step created (fresh first (by simp)), passed⟩
    (fun transition allowed taken both =>
      ⟨both.1.step taken allowed.1,
        passed_step both.1 taken allowed.2.1 allowed.2.2 both.2⟩)
  have freshAgain := fresh second (by simp)
  rcases passed with ⟨call, advanced, advancing, target, _⟩ |
    ⟨current, less, lookup⟩
  · exact freshAgain.alone call other again advanced advancing
      (target.trans sameDefinition)
  · have same := freshAgain.current other again
    rw [← sameDefinition, ← sameValue, read, lookup] at same
    cases same
    exact lt_irrefl _ less

/-- Every due occurrence leads to at most one job in every run in which each
creation finds the definition as its tick read it and no other tick between
creation and advance, and no tick is broken off there. -/
theorem tick_once (run : Run (step env) start trace last)
    (initial : Initial start)
    (noFailure : ∀ transition ∈ trace,
      transition.action.fails transition.before = false)
    (finishes : ∀ transition ∈ trace, ∀ call,
      FinishesDefinition transition call)
    (fresh : ∀ transition ∈ trace, CreatesFresh transition) :
    MaterializesOnce trace := by
  have succeeds : ∀ transition ∈ trace, ∀ call,
      AdvanceSucceeds transition call :=
    fun transition member _ _ _ => noFailure transition member
  intro earlier between later first second due other
  exact materializesOnce_of_fresh run initial succeeds finishes fresh

/-- A definition of queue 0 that is due at the start. -/
def ScheduledJob.sample : ScheduledJob where
  projectId := 0
  cronExpression := "* * * * *"
  queueId := 0
  jobTemplate := .obj [("type", .str "echo")]
  isActive := true
  lastRunAt := none
  nextRunAt := some 0
  createdAt := 0

/-- One definition and no job. -/
def World.cronSample : World :=
  { World.sample 1 .empty with
    scheduledJobs := ⟨[(5, .sample)], by simp⟩ }

/-- The ticks of two workers take turns, and the definition fires twice. -/
theorem tick_once_twice :
    ∃ trace last,
      Run (step .sample) World.cronSample.idle trace last ∧
      last.status? 7 = some .queued ∧ last.status? 8 = some .queued ∧
      MaterializesOnce trace := by
  obtain ⟨trace, last, run, checked, current, noFailure, first, second⟩ :=
    exists_run_of_check (step .sample) World.cronSample.idle
      [.startTick 1 1, .tick 1 (.rows [5]), .tick 1 .ok,
        .tick 1 (.created 7), .tick 1 .ok, .tick 1 .ok, .tick 1 .ok,
        .advance 60000, .startTick 2 2, .tick 2 (.rows [5]), .tick 2 .ok,
        .tick 2 (.created 8), .tick 2 .ok]
      (fun trace last =>
        ChecksCalls 3 (fun transition call =>
          LeavesDefinition transition call ∧
          FinishesDefinition transition call) trace ∧
        (∀ transition ∈ trace,
          ∀ due ∈ transition.action.materializes transition.before,
            transition.before.world.nextRunOf due.id = due.row.nextRunAt) ∧
        (∀ transition ∈ trace,
          transition.action.fails transition.before = false) ∧
        last.status? 7 = some .queued ∧ last.status? 8 = some .queued)
      (by decide)
  have initial : Initial World.cronSample.idle :=
    World.idle_initial fun _ => rfl
  have conditions := checked.forall_calls run initial (by
    intro transition call absent
    simp [LeavesDefinition, FinishesDefinition, State.advancing?, absent])
  exact ⟨trace, last, run, first, second, tick_once run initial noFailure
    (fun transition member call => (conditions transition member call).2)
    fun transition member =>
      ⟨current transition member,
        fun call => (conditions transition member call).1⟩⟩

/-- Without the condition it fails: two ticks read the same due definition,
and each creates a job. -/
theorem tick_twice :
    ¬∀ (env : Env) (start last : State)
      (trace : List (Transition State Action)),
      Run (step env) start trace last → Initial start →
      (∀ transition ∈ trace,
        transition.action.fails transition.before = false) →
      (∀ transition ∈ trace, transition.action.exits = false) →
      MaterializesOnce trace := by
  intro once
  obtain ⟨trace, last, run, noFailure, stays, first, second⟩ :=
    exists_run_of_check (step .sample) World.cronSample.idle
      [.startTick 1 1, .startTick 2 2, .tick 1 (.rows [5]),
        .tick 2 (.rows [5]), .tick 1 .ok, .tick 2 .ok,
        .tick 1 (.created 7), .tick 2 (.created 8)]
      (fun trace _ =>
        (∀ transition ∈ trace,
          transition.action.fails transition.before = false) ∧
        (∀ transition ∈ trace, transition.action.exits = false) ∧
        (∃ first ∈ (trace.drop 6).head?,
          ∃ due ∈ first.action.materializes first.before,
            due.id = 5 ∧ due.row.nextRunAt = some 0) ∧
        ∃ second ∈ (trace.drop 7).head?,
          ∃ due ∈ second.action.materializes second.before,
            due.id = 5 ∧ due.row.nextRunAt = some 0)
      (by decide)
  obtain ⟨first, isFirst, due, creates, id, value⟩ := first
  obtain ⟨second, isSecond, other, again, otherId, otherValue⟩ := second
  exact once _ _ last trace run (World.idle_initial fun _ => rfl) noFailure
    stays (List.eq_around_of_head? isFirst isSecond) creates again
    ⟨id.trans otherId.symm, value.trans otherValue.symm⟩

end Steps

end Chronos
