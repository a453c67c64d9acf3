import Chronos.PollCycles
import Chronos.StopRequests

/-!
# The poll loop and the cycles of the system

`startPoller` awaits `pollCycle`, so in the process of a worker one cycle has
ended when the next begins.  In the system nothing keeps a worker from having
two cycles at a time; if its cycles begin and end in the order in which those
of a worker process do, they come one after another there as well.
-/

namespace Chronos

inductive CycleEvent where
  | begins
  | ends
deriving DecidableEq

/-- Whether a cycle is in progress after this event; `none` if the event does
not fit. -/
def CycleEvent.next : Bool → CycleEvent → Option Bool
  | false, .begins => some true
  | true, .ends => some false
  | _, _ => none

/-- The events of a worker with at most one cycle at a time, and whether it has
one in the end. -/
def CycleEvent.replay (events : List CycleEvent) : Option Bool :=
  events.foldlM CycleEvent.next false

theorem CycleEvent.replay_append (events later : List CycleEvent) :
    replay (events ++ later) =
      (replay events).bind fun polling => later.foldlM CycleEvent.next polling :=
  List.foldlM_append

theorem CycleEvent.replay_of_prefix {events whole : List CycleEvent}
    (starts : events <+: whole) {last : Bool}
    (replayed : replay whole = some last) :
    ∃ polling, replay events = some polling := by
  obtain ⟨later, rfl⟩ := starts
  rw [replay_append] at replayed
  obtain ⟨polling, replayed, _⟩ := Option.bind_eq_some_iff.mp replayed
  exact ⟨polling, replayed⟩

/-! ## The process -/

/-- `main` awaits a step of `pollCycle`. -/
def MainPhase.inCycle : MainPhase → Bool
  | .findQueues _ => true
  | .claimJobs _ _ => true
  | _ => false

namespace WorkerProcess

/-- How many cycles the process has begun. -/
def cycles (process : WorkerProcess) : Nat :=
  process.begun.count .pollCycle

/-- The process calls `pollCycle`, or this call returns. -/
def cycleEvent (transition : Transition WorkerProcess ProcessAction) :
    Option CycleEvent :=
  if transition.before.cycles < transition.after.cycles then some .begins
  else if transition.before.main.inCycle && !transition.after.main.inCycle then
    some .ends
  else none

/-- The ways in which a step changes the cycles of a process. -/
inductive CycleStep (process next : WorkerProcess) : Prop where
  | kept :
      next.cycles = process.cycles →
      next.main.inCycle = process.main.inCycle → CycleStep process next
  | ended :
      next.cycles = process.cycles → process.main.inCycle = true →
      next.main.inCycle = false → CycleStep process next
  | begun :
      next.cycles = process.cycles + 1 → process.main.inCycle = false →
      next.main.inCycle = true → CycleStep process next

section Steps

variable {pollIntervalMs : Int} {process next start last : WorkerProcess}
  {action : ProcessAction}
  {trace : List (Transition WorkerProcess ProcessAction)}

@[simp] theorem launchJobs_cycles (ids : List JobId) :
    (process.launchJobs ids).cycles = process.cycles := by
  induction ids generalizing process with
  | nil => rfl
  | cons job ids induction =>
      rw [launchJobs]
      split
      · rfl
      · rw [induction]
        simp [launch, cycles]

theorem nextQueue_cycleStep {process' : WorkerProcess}
    (inCycle : process.main.inCycle = true)
    (same : process'.cycles = process.cycles) (cycleStart : Time)
    (queues : List QueueId) :
    CycleStep process (process'.nextQueue cycleStart queues) := by
  cases queues with
  | nil => exact .ended same inCycle rfl
  | cons queue rest =>
      rw [nextQueue]
      split
      · exact .ended same inCycle rfl
      · refine .kept ?_ inCycle.symm
        simpa [cycles] using same

theorem pollLoop_cycleStep {process' : WorkerProcess}
    (outside : process.main.inCycle = false)
    (same : process'.begun = process.begun) :
    CycleStep process process'.pollLoop := by
  rw [pollLoop]
  split
  · exact .kept (by simp [cycles, same]) outside.symm
  · exact .begun (by simp [cycles, same]) outside rfl

theorem MainStep.cycleStep (case : MainStep pollIntervalMs process next) :
    CycleStep process next := by
  have within : ∀ {phase : MainPhase} {inCycle : Bool},
      process.main = phase → phase.inCycle = inCycle →
        process.main.inCycle = inCycle := by
    intro phase inCycle same reads
    rw [same, reads]
  cases case with
  | registered phase => exact .kept rfl (within phase rfl).symm
  | refused => exact .kept rfl rfl
  | entered phase =>
      unfold startPoller
      split
      · exact .kept rfl (within phase rfl).symm
      · exact pollLoop_cycleStep (within phase rfl) rfl
  | queuesRead phase => exact nextQueue_cycleStep (within phase rfl) rfl _ _
  | readFailed phase => exact .ended rfl (within phase rfl) rfl
  | claimed phase =>
      exact nextQueue_cycleStep (within phase rfl) (launchJobs_cycles _) _ _
  | claimFailed phase => exact nextQueue_cycleStep (within phase rfl) rfl _ _
  | cycleDone phase =>
      unfold afterCycle
      dsimp only
      split
      · exact .kept rfl (within phase rfl).symm
      · exact pollLoop_cycleStep (within phase rfl) rfl
  | slept phase => exact pollLoop_cycleStep (within phase rfl) rfl

theorem step_cycleStep
    (taken : step pollIntervalMs process action = some next) :
    CycleStep process next := by
  cases process_cases taken with
  | main case => exact case.cycleStep
  | shutdown case =>
      rw [case.frame]
      exact .kept rfl rfl
  | signalled =>
      unfold beginShutdown
      split <;> exact .kept rfl rfl
  | advanced => exact .kept rfl rfl
  | settled => exact .kept rfl rfl
  | killed => exact .kept rfl rfl

/-- A process calls `pollCycle` only when no earlier call of it is in
progress. -/
theorem cycles_in_turn
    (run : Run (step pollIntervalMs) start trace last)
    (outside : start.main.inCycle = false) :
    CycleEvent.replay (trace.filterMap cycleEvent) =
      some last.main.inCycle := by
  induction run with
  | nil => exact congrArg some outside.symm
  | @snoc trace middle last action run taken induction =>
      rw [List.filterMap_append, CycleEvent.replay_append, induction,
        Option.bind_some]
      cases step_cycleStep taken with
      | kept same inCycle =>
          simp [cycleEvent, same, inCycle]
      | ended same inCycle outside =>
          simp [cycleEvent, same, inCycle, outside, CycleEvent.next]
      | begun more outside inCycle =>
          simp [cycleEvent, more, inCycle, outside, CycleEvent.next]

end Steps

end WorkerProcess

/-! ## The system -/

/-- A poll cycle of this worker begins or has come to its end. -/
def cycleEvent (worker : WorkerId) (transition : Transition State Action) :
    Option CycleEvent :=
  match transition.action with
  | .startPoll _ other => if other = worker then some .begins else none
  | .poll call _ =>
      match transition.before.calls call, transition.after.calls call with
      | some (.poll poll), none =>
          if poll.workerId = worker then some .ends else none
      | _, _ => none
  | _ => none

/-- The worker has at most one cycle in progress, and none if it has ended as
many as it has begun. -/
structure OneOpen (worker : WorkerId) (events : List CycleEvent)
    (state : State) : Prop where
  one : ∀ first second, state.polls worker first →
    state.polls worker second → first = second
  counted : ∀ call, state.polls worker call →
    CycleEvent.replay events = some true

section Steps

variable {env : Env} {start last state next : State} {action : Action}
  {worker : WorkerId} {trace : List (Transition State Action)}

theorem cycleEvent_eq_ends {transition : Transition State Action}
    (ends : cycleEvent worker transition = some .ends) :
    ∃ call, transition.before.polls worker call ∧
      ¬transition.after.polls worker call := by
  unfold cycleEvent at ends
  split at ends
  · split at ends <;> cases ends
  · rename_i call input acts
    split at ends
    · rename_i poll called gone
      split at ends
      · refine ⟨call, ⟨poll, called, ‹_›⟩, ?_⟩
        intro polls
        obtain ⟨_, found, _⟩ := polls
        cases gone.symm.trans found
      · cases ends
    · cases ends
  · cases ends

theorem cycleEvent_of_startsPoll (transition : Transition State Action)
    (starts : transition.action.startsPoll = some worker) :
    cycleEvent worker transition = some .begins := by
  obtain ⟨before, action, after⟩ := transition
  cases action with
  | startPoll call other =>
      cases starts
      exact if_pos rfl
  | _ => cases starts

theorem startsPoll_of_cycleEvent {transition : Transition State Action}
    (begins : cycleEvent worker transition = some .begins) :
    transition.action.startsPoll = some worker := by
  unfold cycleEvent at begins
  split at begins
  · rename_i call other starts
    split at begins
    · rw [starts]
      exact congrArg some ‹other = worker›
    · cases begins
  · split at begins
    · split at begins <;> cases begins
    · cases begins
  · cases begins

theorem replay_snoc_some {events : List CycleEvent} {event : CycleEvent}
    {after : Bool}
    (replayed : CycleEvent.replay (events ++ [event]) = some after) :
    ∃ before, CycleEvent.replay events = some before ∧
      CycleEvent.next before event = some after := by
  rw [CycleEvent.replay_append] at replayed
  obtain ⟨before, earlier, next⟩ := Option.bind_eq_some_iff.mp replayed
  refine ⟨before, earlier, ?_⟩
  simpa using next

theorem OneOpen.not_polls {events : List CycleEvent}
    (inv : OneOpen worker events state) {after : Bool}
    (replayed : CycleEvent.replay (events ++ [.begins]) = some after)
    (call : CallId) : ¬state.polls worker call := by
  intro polls
  obtain ⟨before, earlier, next⟩ := replay_snoc_some replayed
  rw [inv.counted call polls] at earlier
  cases earlier
  cases next

theorem OneOpen.step {events : List CycleEvent}
    (inv : OneOpen worker events state)
    (taken : Chronos.step env state action = some next) {after : Bool}
    (replayed : CycleEvent.replay
      (events ++ (cycleEvent worker ⟨state, action, next⟩).toList) =
        some after) :
    OneOpen worker
      (events ++ (cycleEvent worker ⟨state, action, next⟩).toList) next := by
  by_cases starts : action.startsPoll = some worker
  · -- No cycle was in progress, so the new one is alone.
    rw [cycleEvent_of_startsPoll ⟨state, action, next⟩ starts,
      Option.toList_some] at replayed ⊢
    have none := inv.not_polls replayed
    have isNew : ∀ call, next.polls worker call →
        action.begins = some call := by
      intro call polls
      rcases step_polls taken polls with old | ⟨-, begins⟩
      · exact (none call old).elim
      · exact begins
    constructor
    · intro first second polls polls'
      have same := (isNew first polls).symm.trans (isNew second polls')
      exact Option.some.inj same
    · intro call polls
      obtain ⟨before, -, opens⟩ := replay_snoc_some replayed
      rw [replayed]
      cases before with
      | false => exact opens.symm
      | true => cases opens
  · have old : ∀ call, next.polls worker call → state.polls worker call := by
      intro call polls
      rcases step_polls taken polls with old | ⟨begins, -⟩
      · exact old
      · exact (starts begins).elim
    constructor
    · intro first second polls polls'
      exact inv.one first second (old first polls) (old second polls')
    · intro call polls
      cases event : cycleEvent worker ⟨state, action, next⟩ with
      | none =>
          rw [Option.toList_none, List.append_nil]
          exact inv.counted call (old call polls)
      | some event' =>
          cases event' with
          | begins => exact (starts (startsPoll_of_cycleEvent event)).elim
          | ends =>
              obtain ⟨ended, before, gone⟩ := cycleEvent_eq_ends event
              rw [inv.one ended call before (old call polls)] at gone
              exact (gone polls).elim

theorem filterMap_cycleEvent_snoc
    (earlier : List (Transition State Action))
    (transition : Transition State Action) :
    (earlier ++ [transition]).filterMap (cycleEvent worker) =
      earlier.filterMap (cycleEvent worker) ++
        (cycleEvent worker transition).toList := by
  rw [List.filterMap_append, List.filterMap_cons, List.filterMap_nil]
  cases cycleEvent worker transition <;> rfl

theorem OneOpen.run (run : Run (Chronos.step env) start trace last)
    (initial : Initial start) {after : Bool}
    (replayed : CycleEvent.replay (trace.filterMap (cycleEvent worker)) =
      some after) :
    OneOpen worker (trace.filterMap (cycleEvent worker)) last := by
  induction run generalizing after with
  | nil =>
      have none := not_polls_of_initial initial worker
      constructor
      · intro first _ polls
        exact (none first polls).elim
      · intro call polls
        exact (none call polls).elim
  | @snoc earlier middle state action reached taken induction =>
      rw [filterMap_cycleEvent_snoc] at replayed ⊢
      obtain ⟨before, earlierReplayed⟩ :=
        CycleEvent.replay_of_prefix (List.prefix_append _ _) replayed
      exact (induction earlierReplayed).step taken replayed

/-- If the cycles of each worker begin and end in the system as those of some
worker process do, each worker has its cycles one after another. -/
theorem pollsInTurn_of_processes (run : Run (step env) start trace last)
    (initial : Initial start)
    (follows : ∀ worker, ∃ pollIntervalMs now process steps,
      Run (WorkerProcess.step pollIntervalMs) (.initial now) steps process ∧
      trace.filterMap (cycleEvent worker) <+:
        steps.filterMap WorkerProcess.cycleEvent) :
    ∀ transition ∈ trace, ∀ call, PollsInTurn transition call := by
  intro transition member call worker starts
  obtain ⟨_, _, process, steps, ran, events⟩ := follows worker
  obtain ⟨earlier, later, rfl⟩ := List.append_of_mem member
  obtain ⟨reached, taken, _⟩ := run.around
  have whole : earlier ++ [transition] <+: earlier ++ transition :: later :=
    ⟨later, by simp⟩
  obtain ⟨after, replayed⟩ := CycleEvent.replay_of_prefix
    ((whole.filterMap _).trans events) (WorkerProcess.cycles_in_turn ran rfl)
  rw [filterMap_cycleEvent_snoc] at replayed
  obtain ⟨_, earlierReplayed⟩ :=
    CycleEvent.replay_of_prefix (List.prefix_append _ _) replayed
  have before := OneOpen.run reached initial earlierReplayed
  rw [cycleEvent_of_startsPoll transition starts, Option.toList_some]
    at replayed
  have none := before.not_polls replayed call
  cases found : transition.before.calls call with
  | none => rfl
  | some value =>
      cases value with
      | poll poll =>
          rw [Option.all_some, decide_eq_true_eq]
          intro same
          exact none ⟨poll, found, same⟩
      | _ => rfl

end Steps

end Chronos
