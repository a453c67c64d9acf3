import Chronos.CronTimes

/-!
# Materialization by a single ticker

While ticks do not overlap, the definitions that the tick in progress has in
memory are those of the table, and every creation of a job is fresh.  Whether
a due occurrence is dealt with completely then depends on the two statements
between which a tick may be broken off: the creation of the job and the update
of `next_run_at`.
-/

namespace Chronos

namespace State

def ticks (state : State) (call : CallId) : Bool :=
  match state.calls call with
  | some (.tick _) => true
  | _ => false

theorem ticks_of_called {state : State} {call : CallId} {ticker : TickCall}
    (called : state.calls call = some (.tick ticker)) :
    state.ticks call = true := by
  rw [ticks, called]

end State

namespace Action

def startsTick : Action → Bool
  | .startTick _ _ => true
  | _ => false

/-- The definition, as the tick read it, that this step advances, and the new
`next_run_at`. -/
def advances (state : State) : Action → Option (DueJob × Time)
  | .tick call .ok =>
      match state.calls call with
      | some (.tick ⟨_, .advance due _ nextRun _⟩) => some (due, nextRun)
      | _ => none
  | _ => none

end Action

/-- A tick begins only when no other one is in progress. -/
def SingleTicker (trace : List (Transition State Action)) : Prop :=
  ∀ transition ∈ trace, transition.action.startsTick = true →
    ∀ call, transition.before.ticks call = false

/-- The tick in progress is the only one, and what it has in memory is what
the table holds. -/
structure SoleTick (state : State) : Prop where
  sole : ∀ {first second}, state.ticks first = true →
    state.ticks second = true → first = second
  distinct : ∀ {call owner phase},
    state.calls call = some (.tick ⟨owner, phase⟩) →
    (phase.dues.map (·.id)).Nodup
  current : ∀ {due}, state.Holds due →
    state.world.nextRunOf due.id = due.row.nextRunAt

section Steps

variable {env : Env} {start last state next : State} {action : Action}
  {trace : List (Transition State Action)}

theorem TickStep.dues_sublist {library : SchedulerLibrary} {world next : World}
    {phase phase' : TickPhase} {input : TickInput}
    (case : TickStep library world phase input next (some phase')) :
    phase'.dues.Sublist phase.dues ∨ (phase'.dues.map (·.id)).Nodup := by
  cases case with
  | @dueFound start order order' =>
      right
      have nodup : order.Nodup :=
        order'.nodup_iff.mpr (world.scheduledJobs.nodup_keysWhere _)
      have named : ∀ {id other : ScheduledJobId},
          other ∈ (world.dueJob id).map (·.id) → other = id := by
        intro id other member
        simp only [World.dueJob, Option.map_map, Option.mem_def,
          Option.map_eq_some_iff] at member
        obtain ⟨_, _, same⟩ := member
        exact same.symm
      simp only [TickPhase.dues]
      rw [List.map_filterMap]
      apply nodup.filterMap
      intro id other key member otherMember
      exact (named member).symm.trans (named otherMember)
  | @evaluated first defs =>
      left
      have evaluated := evaluateDefinition_cases library world first defs
      generalize evaluateDefinition library world first defs = reached
        at evaluated
      cases evaluated with
      | skipped => exact List.sublist_cons_self ..
      | exhausted => exact List.sublist_cons_self ..
      | fires => exact .refl _
  | deactivated => exact .inl (.refl _)
  | created => exact .inl (.refl _)
  | advanced => exact .inl (List.sublist_cons_self ..)
  | published => exact .inl (.refl _)
  | caught same =>
      left
      cases phase with
      | findDue => cases same
      | evaluate => cases same
      | deactivate => cases same; exact .refl _
      | createJob => cases same; exact List.sublist_cons_self ..
      | advance => cases same; exact List.sublist_cons_self ..
      | publish => cases same; exact .refl _

theorem step_ticking (taken : step env state action = some next)
    {call : CallId} (ticks : next.ticks call = true) :
    state.ticks call = true ∨ ∃ worker, action = .startTick call worker := by
  unfold State.ticks at ticks
  split at ticks
  · rename_i ticker found
    generalize same : Call.tick ticker = value at found
    cases step_call taken found with
    | kept called =>
        subst same
        exact .inl (State.ticks_of_called called)
    | started starts =>
        cases starts with
        | tick => exact .inr ⟨_, rfl⟩
        | request =>
            rename_i request
            cases request <;> cases same
        | _ => cases same
    | tick called => exact .inl (State.ticks_of_called called)
    | api _ case =>
        subst same
        cases case.requests.2
    | _ => cases same
  · cases ticks

theorem SoleTick.initial (initial : Initial start) : SoleTick start := by
  have idle : ∀ {call}, start.ticks call = false := by
    intro call
    rw [State.ticks, initial.calls call]
  constructor
  · intro first second ticks
    exact absurd (idle.symm.trans ticks) nofun
  · intro call owner phase called
    exact absurd ((initial.calls call).symm.trans called) nofun
  · rintro due ⟨call, owner, phase, called, _⟩
    exact absurd ((initial.calls call).symm.trans called) nofun

theorem SoleTick.step (inv : SoleTick state) (read : ReadInv state)
    (taken : Chronos.step env state action = some next)
    (single : action.startsTick = true →
      ∀ call, state.ticks call = false) :
    SoleTick next := by
  have sole : ∀ {first second}, next.ticks first = true →
      next.ticks second = true → first = second := by
    intro first second firstTicks secondTicks
    rcases step_ticking taken firstTicks with
      firstBefore | ⟨firstWorker, firstStarts⟩
    · rcases step_ticking taken secondTicks with
        secondBefore | ⟨worker, rfl⟩
      · exact inv.sole firstBefore secondBefore
      · exact absurd ((single rfl first).symm.trans firstBefore) nofun
    · subst firstStarts
      rcases step_ticking taken secondTicks with
        secondBefore | ⟨worker, same⟩
      · exact absurd ((single rfl second).symm.trans secondBefore) nofun
      · cases same
        rfl
  refine ⟨sole, ?_, ?_⟩
  · intro call owner phase found
    obtain called | started | ⟨before, input, _, called, case⟩ :=
      step_ticks taken found
    · exact inv.distinct called
    · subst started
      exact List.nodup_nil
    · rcases case.dues_sublist with sublist | nodup
      · exact (inv.distinct called).sublist (sublist.map _)
      · exact nodup
  · intro due holds
    have before : state.world.nextRunOf due.id = due.row.nextRunAt ∧
        ∃ value, due.row.nextRunAt = some value := by
      obtain earlier | ⟨_, _, start, _, readNow, isDue⟩ :=
        step_held taken holds
      · obtain ⟨value, same, _⟩ := read.due earlier
        exact ⟨inv.current earlier, value, same⟩
      · obtain ⟨value, same, _⟩ := isDue
        refine ⟨?_, value, same⟩
        rw [World.nextRunOf, World.dueJob_eq_some readNow, Option.bind_some]
    obtain ⟨current, value, same⟩ := before
    rw [same] at current ⊢
    rcases step_nextRun taken current with
      unchanged | ⟨acting, owner, due', newJob, nextRun, defs, rfl, called,
        target, _⟩
    · exact unchanged
    · -- the tick goes on to the other definitions, so it no longer holds this
      obtain ⟨_, world, phase', isInput, case, rfl⟩ :=
        step_tick taken called rfl
      cases isInput
      cases case with
      | advanced =>
          obtain ⟨call, owner', phase, found, member⟩ := holds
          have mine : call = acting := by
            apply sole (State.ticks_of_called found)
            apply State.ticks_of_called
            exact Function.update_self ..
          subst mine
          simp only [Function.update_self, Option.map_some, Option.some.injEq,
            Call.tick.injEq, TickCall.mk.injEq] at found
          obtain ⟨rfl, rfl⟩ := found
          have distinct := inv.distinct called
          simp only [TickPhase.dues, List.map_cons, List.nodup_cons]
            at distinct
          exact (distinct.1 (target ▸ List.mem_map_of_mem member)).elim

/-! ## Runs with a single ticker -/

theorem Action.materializes_eq_some {due : DueJob}
    (creates : action.materializes state = some due) :
    ∃ call id owner job nextRun defs, action = .tick call (.created id) ∧
      state.calls call =
        some (.tick ⟨owner, .createJob due job nextRun defs⟩) := by
  unfold Action.materializes at creates
  split at creates
  · split at creates
    · cases creates
      exact ⟨_, _, _, _, _, _, rfl, ‹_›⟩
    · cases creates
  · cases creates

end Steps

end Chronos
