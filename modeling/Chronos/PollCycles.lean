import Chronos.Writers

/-!
# One poll cycle after the other

`startPoller` awaits each `pollCycle` before the next one, so a worker process
has at most one cycle in progress.  A cycle reads the queues once, at its
beginning, and then works through that list.
-/

namespace Chronos

/-- The queues from which a cycle in this phase can still claim, as it read
them. -/
def PollPhase.ahead : PollPhase → List QueueRef
  | .fetchQueues => []
  | .nextQueue queues => queues
  | .claiming queue rest _ => queue :: rest
  | .launching rest _ => rest

/-- A poll cycle of this worker is in progress. -/
def State.polls (state : State) (worker : WorkerId) (call : CallId) : Prop :=
  ∃ poll, state.calls call = some (.poll poll) ∧ poll.workerId = worker

namespace Action

/-- The worker that begins a poll cycle. -/
def startsPoll : Action → Option WorkerId
  | .startPoll _ worker => some worker
  | _ => none

/-- The poll cycle that reads the queues. -/
def readsQueues : Action → Option CallId
  | .poll call (.queues _) => some call
  | _ => none

end Action

/-- No poll cycle begins while `call` is one of the same worker. -/
def PollsInTurn (transition : Transition State Action) (call : CallId) :
    Prop :=
  ∀ worker ∈ transition.action.startsPoll,
    (transition.before.calls call).all fun value =>
      match value with
      | .poll poll => decide (poll.workerId ≠ worker)
      | _ => true

instance (transition : Transition State Action) (call : CallId) :
    Decidable (PollsInTurn transition call) :=
  inferInstanceAs (Decidable (∀ worker ∈ _, _))

/-- Two poll cycles in progress belong to different workers. -/
def OneCycle (state : State) : Prop :=
  ∀ worker first second,
    state.polls worker first → state.polls worker second → first = second

section Steps

variable {env : Env} {start last state next : State} {action : Action}
  {trace : List (Transition State Action)} {call : CallId}

theorem PollsInTurn.not_polls {worker : WorkerId}
    (turn : PollsInTurn ⟨state, action, next⟩ call)
    (starts : action.startsPoll = some worker) : ¬state.polls worker call := by
  rintro ⟨poll, found, same⟩
  have other := turn worker starts
  simp only [found, Option.all_some, decide_eq_true_eq] at other
  exact other same

theorem step_begins (taken : step env state action = some next)
    (begins : action.begins = some call) : state.calls call = none := by
  cases step_cases taken with
  | started starts absent =>
      cases starts <;> cases begins <;> exact absent
  | launched _ _ _ _ absent =>
      cases begins
      exact absent
  | _ => cases begins

theorem step_reads (taken : step env state action = some next)
    (reads : action.readsQueues = some call) :
    ∃ poll order, action = .poll call (.queues order) ∧
      state.calls call = some (.poll poll) ∧ poll.phase = .fetchQueues ∧
      order.Perm state.world.activeQueues ∧
      next.calls call = some (.poll { poll with
        phase := .nextQueue (order.filterMap state.world.queueRef) }) := by
  cases step_cases taken with
  | started starts => cases starts <;> cases reads
  | poll called case =>
      cases case with
      | fetched phase active =>
          cases reads
          exact ⟨_, _, rfl, called, phase, active, Function.update_self ..⟩
      | _ => cases reads
  | _ => cases reads

theorem step_polls (taken : step env state action = some next)
    {worker : WorkerId} (polls : next.polls worker call) :
    state.polls worker call ∨
      action.startsPoll = some worker ∧ action.begins = some call := by
  obtain ⟨poll, found, rfl⟩ := polls
  generalize same : Call.poll poll = value at found
  cases step_call taken found with
  | kept called =>
      subst same
      exact .inl ⟨poll, called, rfl⟩
  | started starts =>
      cases starts with
      | poll =>
          cases same
          exact .inr ⟨rfl, rfl⟩
      | request =>
          rename_i request
          cases request <;> cases same
      | _ => cases same
  | handedOver called =>
      cases same
      exact .inl ⟨_, called, rfl⟩
  | poll called case =>
      cases same
      exact .inl ⟨_, called, by cases case <;> rfl⟩
  | api _ case =>
      subst same
      cases case.requests.2
  | _ => cases same

theorem OneCycle.step (one : OneCycle state)
    (taken : step env state action = some next)
    (turns : ∀ other, PollsInTurn ⟨state, action, next⟩ other) :
    OneCycle next := by
  intro worker first second polls polls'
  rcases step_polls taken polls with old | ⟨starts, begins⟩
  · rcases step_polls taken polls' with old' | ⟨starts', -⟩
    · exact one worker first second old old'
    · exact ((turns first).not_polls starts' old).elim
  · rcases step_polls taken polls' with old' | ⟨-, begins'⟩
    · exact ((turns second).not_polls starts old').elim
    · exact Option.some.inj (begins.symm.trans begins')

theorem not_polls_of_initial (initial : Initial start) (worker : WorkerId)
    (call : CallId) : ¬start.polls worker call := by
  intro polls
  obtain ⟨poll, found, _⟩ := polls
  rw [initial.calls call] at found
  cases found

theorem OneCycle.initial (initial : Initial start) : OneCycle start := by
  intro worker first second polls
  exact (not_polls_of_initial initial worker first polls).elim

/-- Each worker has at most one poll cycle in progress if each of them awaits
its cycles. -/
theorem OneCycle.run (run : Run (Chronos.step env) start trace last)
    (initial : Initial start)
    (turns : ∀ transition ∈ trace, ∀ call, PollsInTurn transition call) :
    OneCycle last :=
  run.invariant OneCycle turns (.initial initial)
    fun _ turns taken one => one.step taken turns

/-! ## The queues ahead of a cycle -/

theorem PollStep.ahead {world next : World} {poll poll' : PollCall}
    {input : PollInput}
    (case : PollStep world call poll input next (some poll')) :
    poll'.phase.ahead.Sublist poll.phase.ahead ∨
      ∃ order, input = .queues order ∧ order.Perm world.activeQueues ∧
        poll'.phase.ahead = order.filterMap world.queueRef := by
  cases case with
  | fetched phase active => exact .inr ⟨_, rfl, active, rfl⟩
  | entered phase => left; rw [phase]; exact .refl _
  | atLimit phase => left; rw [phase]; exact List.sublist_cons_self ..
  | counted phase => left; rw [phase]; exact .refl _
  | countFailed phase => left; rw [phase]; exact List.sublist_cons_self ..
  | begun phase => left; rw [phase]; exact .refl _
  | nothingLocked phase => left; rw [phase]; exact List.sublist_cons_self ..
  | selected phase => left; rw [phase]; exact .refl _
  | selectedNone phase => left; rw [phase]; exact .refl _
  | updated phase => left; rw [phase]; exact .refl _
  | rolledBack phase => left; rw [phase]; exact List.sublist_cons_self ..
  | committed phase => left; rw [phase]; exact List.sublist_cons_self ..
  | launched phase => left; rw [phase]; exact .refl _

/-- After a step the queues ahead of a cycle are among those ahead of it
before, or the cycle has just read them. -/
theorem step_ahead (taken : step env state action = some next)
    {poll' : PollCall} (found : next.calls call = some (.poll poll')) :
    (∃ poll, state.calls call = some (.poll poll) ∧
      poll.workerId = poll'.workerId ∧
      poll'.phase.ahead.Sublist poll.phase.ahead) ∨
    poll'.phase.ahead = [] ∨
    ∃ order, action = .poll call (.queues order) ∧
      order.Perm state.world.activeQueues ∧
      poll'.phase.ahead = order.filterMap state.world.queueRef := by
  generalize same : Call.poll poll' = value at found
  cases step_call taken found with
  | kept called =>
      subst same
      exact .inl ⟨poll', called, rfl, .refl _⟩
  | started starts =>
      cases starts with
      | poll =>
          cases same
          exact .inr (.inl rfl)
      | request =>
          rename_i request
          cases request <;> cases same
      | _ => cases same
  | handedOver called phase =>
      cases same
      refine .inl ⟨_, called, rfl, ?_⟩
      rw [phase]
      exact .refl _
  | poll called case =>
      cases same
      rcases case.ahead with fewer | ⟨order, rfl, active, list⟩
      · exact .inl ⟨_, called, by cases case <;> rfl, fewer⟩
      · exact .inr (.inr ⟨order, rfl, active, list⟩)
  | api _ case =>
      subst same
      cases case.requests.2
  | _ => cases same

end Steps

end Chronos
