import Chronos.Locks

/-!
# Claim exclusivity

What `claimJobs` guarantees over a whole history, with every other writer of
`jobs.status` running: results are disjoint unless the job was put back to
`queued` in between.  The update has no condition on the status, so this rests
on the invariant of the row locks.
-/

namespace Chronos

/-- The rows that an open claim transaction has locked are `queued`. -/
theorem LockInv.status_of_tx {state : State} (inv : LockInv state)
    {call : CallId} {tx : ClaimTx} {job : JobId}
    (isOpen : state.tx call = some tx) (member : job ∈ tx.ids) :
    state.status? job = some .queued := by
  obtain ⟨row, found, queued, _⟩ := (inv.sound call tx isOpen).rows job member
  exact State.status?_eq_some_iff.mpr ⟨row, found, queued⟩

namespace Action

/-- The worker and the ids, if a claim commits in this step. -/
def claims (state : State) : Action → Option (WorkerId × List JobId)
  | .poll call (.claim .ok) =>
      match state.calls call with
      | some (.poll ⟨worker, .claiming _ _ (.commit _ ids)⟩) =>
          some (worker, ids)
      | _ => none
  | _ => none

theorem claims_eq_some {state : State} {action : Action}
    {claim : WorkerId × List JobId} (claims : action.claims state = some claim) :
    ∃ call queue rest txNow, action = .poll call (.claim .ok) ∧
      state.calls call = some (.poll
        ⟨claim.1, .claiming queue rest (.commit txNow claim.2)⟩) := by
  unfold Action.claims at claims
  split at claims
  · split at claims <;> cases claims
    exact ⟨_, _, _, _, rfl, ‹_›⟩
  · cases claims

end Action

/-- The job is in no claim that commits in this step. -/
def Unclaimed (job : JobId) (transition : Transition State Action) : Prop :=
  ∀ claim ∈ transition.action.claims transition.before, job ∉ claim.2

theorem Unclaimed.notMem {state next : State} {call : CallId} {poll : PollCall}
    {queue : QueueRef} {rest : List QueueRef} {txNow : Time}
    {ids : List JobId} {job : JobId}
    (unclaimed : Unclaimed job ⟨state, .poll call (.claim .ok), next⟩)
    (called : state.calls call = some (.poll poll))
    (phase : poll.phase = .claiming queue rest (.commit txNow ids)) :
    job ∉ ids := by
  obtain ⟨worker, _⟩ := poll
  subst phase
  exact unclaimed (worker, ids) (by simp [Action.claims, called])

/-- In this transition a `claimJobs` call ends and hands its result to the
poll cycle. -/
def ClaimReturns (transition : Transition State Action) (call : CallId)
    (ids : List JobId) : Prop :=
  ∃ poll queue rest phase input,
    transition.action = .poll call (.claim input) ∧
    transition.before.calls call = some (.poll poll) ∧
    poll.phase = .claiming queue rest phase ∧
    transition.after.calls call =
      some (.poll { poll with phase := .launching rest ids })

/-- In this transition the open transaction of a `claimJobs` call fails. -/
def ClaimFails (transition : Transition State Action) (call : CallId) : Prop :=
  ∃ poll queue rest phase,
    transition.action = .poll call (.claim .fail) ∧
    transition.before.calls call = some (.poll poll) ∧
    poll.phase = .claiming queue rest phase ∧ phase ≠ .count

/-- A locking select returned this row: it was not locked, `queued` and due,
and now it is locked. -/
structure LocksRow (transition : Transition State Action) (call : CallId)
    (job : JobId) : Prop where
  free : transition.before.world.locks job = none
  row : ∃ row, transition.before.world.jobs.get? job = some row ∧
    row.status = .queued ∧ row.runAt ≤ transition.before.world.now
  locked : transition.after.world.locks job = some call

/-- After `earlier`, the call locked the row and kept it locked to the end of
the history. -/
def LockedSince (history earlier : List (Transition State Action))
    (call : CallId) (job : JobId) : Prop :=
  ∃ locking later, history = earlier ++ locking :: later ∧
    LocksRow locking call job ∧
    ∀ other ∈ later, other.before.world.locks job = some call

/-- The step put the job back to `queued`. -/
def Requeues (transition : Transition State Action) (job : JobId) : Prop :=
  (∃ status, transition.before.status? job = some status ∧
    status ≠ .queued) ∧
  transition.after.status? job = some .queued

/-- The guarantees of `claimJobs` over a history. -/
structure ClaimExclusivity (trace : List (Transition State Action)) :
    Prop where
  exclusive : ∀ {before between after first second call other ids otherIds job},
    trace = before ++ first :: (between ++ second :: after) →
    ClaimReturns first call ids → ClaimReturns second other otherIds →
    job ∈ ids → job ∈ otherIds →
    ∃ earlier, LockedSince between earlier other job ∧
      ∃ requeue ∈ earlier, Requeues requeue job
  distinct : ∀ {transition call ids}, transition ∈ trace →
    ClaimReturns transition call ids → ids.Nodup
  claimed : ∀ {before after transition call ids job},
    trace = before ++ transition :: after →
    ClaimReturns transition call ids → job ∈ ids →
    (∃ earlier, LockedSince before earlier call job) ∧
      transition.before.status? job = some .queued ∧
      transition.after.status? job = some .claimed
  rolledBack : ∀ {transition call}, transition ∈ trace →
    ClaimFails transition call → ClaimReturns transition call []
  silent : ∀ {transition call input}, transition ∈ trace →
    transition.action = .poll call (.claim input) →
    (∃ id ids, ClaimReturns transition call (id :: ids)) ∨
      transition.after.world =
        { transition.before.world with
          locks := transition.after.world.locks }

/-! ## Locking and returning, step by step -/

section Steps

variable {env : Env} {state next : State} {action : Action}

/-- A call holds a lock after a step only if it held it before or the step is
its locking select. -/
theorem step_locks (taken : step env state action = some next) {job : JobId}
    {call : CallId} (locked : next.world.locks job = some call) :
    state.world.locks job = some call ∨
      ∃ poll queue rest available txNow order skip,
        action = .poll call (.claim (.rows order skip)) ∧
        state.calls call = some (.poll poll) ∧
        poll.phase = .claiming queue rest (.select available txNow) ∧
        state.world.ClaimOrder queue.id txNow skip order ∧
        job ∈ order.take available ∧
        next.world = state.world.lock call (order.take available) := by
  have kept : ∀ {world : World}, world.locks = state.world.locks →
      world.locks job = some call → state.world.locks job = some call :=
    fun same held => same ▸ held
  cases step_cases taken with
  | registered success =>
      obtain ⟨workers, _, rfl⟩ := World.registerWorker_eq_some success
      exact .inl locked
  | exited =>
      simp only [State.exitWorker] at locked
      split at locked
      · cases locked
      · exact .inl locked
  | poll called case =>
      have unlocked : ∀ {ids : List JobId},
          (if job ∈ ids then none else state.world.locks job) = some call →
          state.world.locks job = some call := by
        intro ids held
        split at held
        · cases held
        · exact held
      cases case with
      | selected phase valid _ =>
          simp only [World.lock] at locked
          split at locked
          · rename_i member
            cases locked
            exact .inr ⟨_, _, _, _, _, _, _, rfl, called, phase, valid, member,
              rfl⟩
          · exact .inl locked
      | rolledBack => exact .inl (unlocked locked)
      | committed => exact .inl (unlocked locked)
      | _ => exact .inl locked
  | exec _ case => exact .inl (kept (by rw [case.frame]) locked)
  | reap _ case => exact .inl (kept (by rw [case.frame]) locked)
  | tick _ case => exact .inl (kept (by rw [case.frame]) locked)
  | api _ case => exact .inl (kept (by rw [case.frame]) locked)
  | _ => exact .inl locked

theorem step_poll {call : CallId} {input : PollInput} {poll : PollCall}
    (taken : step env state (.poll call input) = some next)
    (called : state.calls call = some (.poll poll)) :
    ∃ world poll', PollStep state.world call poll input world poll' ∧
      next = ⟨world, Function.update state.calls call (poll'.map .poll)⟩ := by
  cases step_cases taken with
  | started starts _ => cases starts
  | poll found case =>
      cases called.symm.trans found
      exact ⟨_, _, case, rfl⟩

end Steps

section Returning

variable {env : Env} {transition : Transition State Action} {call : CallId}
  {ids : List JobId}

theorem ClaimReturns.committed (returns : ClaimReturns transition call ids)
    (taken : step env transition.before transition.action =
      some transition.after) (nonempty : ids ≠ []) :
    ∃ queue txNow,
      transition.before.tx call = some ⟨queue, txNow, ids⟩ ∧
      transition.after.world =
        (transition.before.world.markClaimed txNow ids).unlock ids := by
  obtain ⟨before, action, after⟩ := transition
  obtain ⟨poll, queue, rest, claimPhase, input, rfl, called, phase, value⟩ :=
    returns
  dsimp only at taken called value ⊢
  obtain ⟨world, poll', case, rfl⟩ := step_poll taken called
  simp only [Function.update_self] at value
  cases case with
  | atLimit => cases value; exact (nonempty rfl).elim
  | nothingLocked => cases value; exact (nonempty rfl).elim
  | rolledBack => cases value; exact (nonempty rfl).elim
  | @committed source _ txNow _ committing =>
      cases value
      refine ⟨source, txNow, ?_, rfl⟩
      simp only [State.tx, called, Option.bind_some, Call.tx]
      rw [committing]
      rfl
  | _ => cases value

theorem ClaimReturns.released (returns : ClaimReturns transition call ids)
    (taken : step env transition.before transition.action =
      some transition.after) {job : JobId} (member : job ∈ ids) :
    transition.after.world.locks job = none := by
  obtain ⟨_, _, _, world⟩ :=
    returns.committed taken (List.ne_nil_of_mem member)
  simp [world, World.unlock, member]

theorem ClaimReturns.locked (returns : ClaimReturns transition call ids)
    (taken : step env transition.before transition.action =
      some transition.after) (inv : LockInv transition.before) {job : JobId}
    (member : job ∈ ids) :
    transition.before.world.locks job = some call := by
  obtain ⟨queue, txNow, isOpen, _⟩ :=
    returns.committed taken (List.ne_nil_of_mem member)
  exact (inv.locks_iff job call).mpr ⟨_, isOpen, member⟩

theorem ClaimReturns.status_before
    (returns : ClaimReturns transition call ids)
    (taken : step env transition.before transition.action =
      some transition.after) (inv : LockInv transition.before) {job : JobId}
    (member : job ∈ ids) :
    transition.before.status? job = some .queued := by
  obtain ⟨_, _, isOpen, _⟩ :=
    returns.committed taken (List.ne_nil_of_mem member)
  exact inv.status_of_tx isOpen member

theorem ClaimReturns.status_after (returns : ClaimReturns transition call ids)
    (taken : step env transition.before transition.action =
      some transition.after) (inv : LockInv transition.before) {job : JobId}
    (member : job ∈ ids) :
    transition.after.status? job = some .claimed := by
  obtain ⟨_, txNow, _, world⟩ :=
    returns.committed taken (List.ne_nil_of_mem member)
  obtain ⟨row, found, _⟩ :=
    State.status?_eq_some_iff.mp (returns.status_before taken inv member)
  refine State.status?_eq_some_iff.mpr ⟨row.claim txNow, ?_, rfl⟩
  simp [world, World.unlock, World.get?_markClaimed, found, member]

theorem ClaimReturns.nodup (returns : ClaimReturns transition call ids)
    (taken : step env transition.before transition.action =
      some transition.after) (inv : LockInv transition.before) : ids.Nodup := by
  by_cases empty : ids = []
  · exact empty ▸ List.nodup_nil
  · obtain ⟨_, _, isOpen, _⟩ := returns.committed taken empty
    exact (inv.sound call _ isOpen).nodup

theorem ClaimReturns.of_commit {before after : State} {poll : PollCall}
    {queue : QueueRef} {rest : List QueueRef} {txNow : Time}
    (taken : step env before (.poll call (.claim .ok)) = some after)
    (called : before.calls call = some (.poll poll))
    (phase : poll.phase = .claiming queue rest (.commit txNow ids)) :
    ClaimReturns ⟨before, .poll call (.claim .ok), after⟩ call ids := by
  obtain ⟨world, poll', case, rfl⟩ := step_poll taken called
  refine ⟨poll, queue, rest, _, .ok, rfl, called, phase, ?_⟩
  simp only [Function.update_self]
  cases case with
  | atLimit same => cases phase.symm.trans same
  | counted same => cases phase.symm.trans same
  | begun same => cases phase.symm.trans same
  | updated same => cases phase.symm.trans same
  | committed same =>
      cases phase.symm.trans same
      rfl

theorem ClaimFails.returns (fails : ClaimFails transition call)
    (taken : step env transition.before transition.action =
      some transition.after) : ClaimReturns transition call [] := by
  obtain ⟨before, action, after⟩ := transition
  obtain ⟨poll, queue, rest, claimPhase, rfl, called, phase, inTx⟩ := fails
  dsimp only at taken called
  obtain ⟨world, poll', case, rfl⟩ := step_poll taken called
  refine ⟨poll, queue, rest, claimPhase, .fail, rfl, called, phase, ?_⟩
  simp only [Function.update_self]
  cases case with
  | countFailed counting =>
      cases phase.symm.trans counting
      exact (inTx rfl).elim
  | nothingLocked same =>
      cases phase.symm.trans same
      rfl
  | rolledBack same =>
      cases phase.symm.trans same
      rfl

private theorem markClaimed_nil (world : World) (txNow : Time) :
    world.markClaimed txNow [] = world := by
  simp [World.markClaimed, Table.mapRows]

theorem claim_silent {input : ClaimInput}
    (taken : step env transition.before transition.action =
      some transition.after)
    (action : transition.action = .poll call (.claim input)) :
    (∃ id ids, ClaimReturns transition call (id :: ids)) ∨
      transition.after.world =
        { transition.before.world with
          locks := transition.after.world.locks } := by
  obtain ⟨before, named, after⟩ := transition
  cases action
  dsimp only at taken ⊢
  cases step_cases taken with
  | started starts _ => cases starts
  | @poll _ poll _ world poll' called case =>
      cases case with
      | @committed queue rest txNow ids committing =>
          cases ids with
          | nil =>
              right
              simp [markClaimed_nil, World.unlock]
          | cons id ids =>
              exact .inl ⟨id, ids, poll, queue, rest, _, .ok, rfl, called,
                committing, Function.update_self ..⟩
      | _ => exact .inr rfl

end Returning

/-! ## Histories -/

section Histories

variable {env : Env} {start last : State}
  {trace : List (Transition State Action)}

/-- A lock that is held at the end of a run and was not held at its start was
taken by a locking select of the run. -/
theorem lockedSince_of_run (run : Run (step env) start trace last)
    (inv : LockInv start) {job : JobId} {call : CallId}
    (free : start.world.locks job ≠ some call)
    (locked : last.world.locks job = some call) :
    ∃ earlier, LockedSince trace earlier call job := by
  obtain ⟨earlier, locking, later, rfl, notYet, now, held⟩ :=
    run.exists_last_crossing
      (fun state => state.world.locks job = some call) free locked
  obtain ⟨before, taken, _⟩ := run.around
  have always : ∀ other ∈ earlier, True := fun _ _ => trivial
  have inv' := before.invariant LockInv always inv
    (fun _ _ taken inv => inv.step taken)
  refine ⟨earlier, locking, later, rfl, ?_, held⟩
  rcases step_locks taken now with old | ⟨poll, queue, rest, available, txNow,
    order, skip, _, called, phase, valid, member, world⟩
  · exact (notYet old).elim
  · obtain ⟨row, found, holds⟩ := Table.mem_keysWhere.mp
      (valid.1.mem_iff.mp (List.mem_of_mem_take member))
    simp only [Bool.and_eq_true, decide_eq_true_eq, Option.isNone_iff_eq_none]
      at holds
    obtain ⟨⟨⟨⟨_, queued⟩, due⟩, unlocked⟩, _⟩ := holds
    have wasOpen : locking.before.tx call = some ⟨queue, txNow, []⟩ := by
      simp [State.tx, called, Call.tx, phase, PollPhase.tx]
    have early : txNow ≤ locking.before.world.now :=
      (inv'.sound call _ wasOpen).txNow
    exact ⟨unlocked, ⟨row, found, queued, due.trans early⟩, now⟩

/-- Between a status other than `queued` and `queued` there is a step that
puts the job back. -/
theorem requeues_of_run (run : Run (step env) start trace last) {job : JobId}
    {status : JobStatus} (found : start.status? job = some status)
    (notQueued : status ≠ .queued)
    (queued : last.status? job = some .queued) :
    ∃ requeue ∈ trace, Requeues requeue job := by
  obtain ⟨requeue, member, busy, free⟩ := run.exists_crossing
    (fun state =>
      ¬∃ status, state.status? job = some status ∧ status ≠ .queued)
    (by simpa using ⟨status, found, notQueued⟩) (by simp [queued])
  obtain ⟨earlier, later, rfl⟩ := List.append_of_mem member
  obtain ⟨_, taken, _⟩ := run.around
  obtain ⟨old, oldFound, oldBusy⟩ := not_not.mp busy
  obtain ⟨new, newFound⟩ := step_status taken oldFound
  have newQueued : new = .queued := by
    by_contra other
    exact free ⟨new, newFound, other⟩
  exact ⟨requeue, member, ⟨old, oldFound, oldBusy⟩, newQueued ▸ newFound⟩

/-- `claimJobs` keeps its guarantees in every run of the whole system. -/
theorem claimJobs_exclusive (run : Run (step env) start trace last)
    (initial : Initial start) : ClaimExclusivity trace := by
  have prefixInv : ∀ {before transition after},
      trace = before ++ transition :: after →
      LockInv transition.before ∧
        Run (step env) start before transition.before ∧
        step env transition.before transition.action =
          some transition.after := by
    rintro before transition after rfl
    obtain ⟨earlier, taken, _⟩ := run.around
    exact ⟨LockInv.run earlier initial, earlier, taken⟩
  have memberInv : ∀ {transition}, transition ∈ trace →
      LockInv transition.before ∧
        step env transition.before transition.action =
          some transition.after := by
    intro transition member
    obtain ⟨before, after, whole⟩ := List.append_of_mem member
    obtain ⟨inv, _, taken⟩ := prefixInv whole
    exact ⟨inv, taken⟩
  constructor
  · intro before between after first second call other ids otherIds job whole
      firstReturns secondReturns inFirst inSecond
    obtain ⟨firstInv, _, firstTaken⟩ := prefixInv whole
    have secondWhole :
        trace = (before ++ first :: between) ++ second :: after := by
      rw [whole, List.append_assoc, List.cons_append]
    obtain ⟨secondInv, toSecond, secondTaken⟩ := prefixInv secondWhole
    obtain ⟨_, _, middle⟩ := toSecond.around
    have released := firstReturns.released firstTaken inFirst
    obtain ⟨earlier, locked⟩ :=
      lockedSince_of_run middle (firstInv.step firstTaken)
        (by simp [released])
        (secondReturns.locked secondTaken secondInv inSecond)
    refine ⟨earlier, locked, ?_⟩
    obtain ⟨locking, later, rfl, locksRow, _⟩ := locked
    obtain ⟨toLocking, _, _⟩ := middle.around
    obtain ⟨row, found, queued, _⟩ := locksRow.row
    exact requeues_of_run toLocking
      (firstReturns.status_after firstTaken firstInv inFirst) (by simp)
      (State.status?_eq_some_iff.mpr ⟨row, found, queued⟩)
  · intro transition call ids member returns
    obtain ⟨inv, taken⟩ := memberInv member
    exact returns.nodup taken inv
  · intro before after transition call ids job whole returns member
    obtain ⟨inv, toReturn, taken⟩ := prefixInv whole
    refine ⟨?_, returns.status_before taken inv member,
      returns.status_after taken inv member⟩
    exact lockedSince_of_run toReturn (.initial initial)
      (by simp [initial.locks job]) (returns.locked taken inv member)
  · intro transition call member fails
    exact fails.returns (memberInv member).2
  · intro transition call input member action
    exact claim_silent (memberInv member).2 action

/-- A job that is claimed, fails and is claimed again by the other worker. -/
theorem claimJobs_exclusive_retried :
    ∃ trace last,
      Run (step .sample)
        (World.sample 2 ⟨[(7, .sample .queued)], by simp⟩).idle trace last ∧
      (trace.length = 24 ∧ last.status? 7 = some .claimed) ∧
      ClaimExclusivity trace := by
  obtain ⟨trace, last, run, passed⟩ := exists_run_of_check (step .sample)
    (World.sample 2 ⟨[(7, .sample .queued)], by simp⟩).idle
    (claimActions 1 1 [7] ++ executeActions 1 2 0 ++
      ([.exec 2 (.failed "refused" .zero), .exec 2 .ok, .advance 1000] :
        List Action) ++
      claimActions 3 2 [7])
    (fun trace last => trace.length = 24 ∧ last.status? 7 = some .claimed)
    (by decide)
  exact ⟨trace, last, run, passed,
    claimJobs_exclusive run (World.idle_initial fun _ => rfl)⟩

end Histories

end Chronos
