import Chronos.Abandoned
import Chronos.EventStream
import Chronos.Overshoot

/-!
# Slots that are lost for good

A job that is abandoned stays `claimed` or `running`, and `claimJobs` counts
it: every abandoned job takes one slot of its queue away from all later
claims.  Once as many jobs are abandoned as the limit allows, nothing of the
queue is ever claimed again.
-/

namespace Chronos

theorem Action.commits_claim {state : State} {job : JobId} {action : Action}
    (claims : action.commits state job = some .claim) :
    ∃ call worker ref rest txNow ids, action = .poll call (.claim .ok) ∧
      state.calls call = some (.poll
        ⟨worker, .claiming ref rest (.commit txNow ids)⟩) ∧ job ∈ ids := by
  unfold Action.commits at claims
  split at claims
  · split at claims
    · split at claims
      · exact ⟨_, _, _, _, _, _, rfl, ‹_›, ‹_›⟩
      · cases claims
    · cases claims
  · split at claims
    · rename_i target worker phase _
      split at claims
      · cases phase <;> cases claims
      · cases claims
    · cases claims
  · split at claims
    · split at claims <;> cases claims
    · cases claims
  · split at claims
    · split at claims <;> cases claims
    · cases claims
  · split at claims
    · split at claims <;> cases claims
    · split at claims <;> cases claims
    · cases claims
  · split at claims
    · split at claims <;> cases claims
    · split at claims <;> cases claims
    · cases claims
  · cases claims

theorem Action.slots_of_counts {state : State} {queue : QueueId}
    {action : Action} (counts : action.counts state queue = true)
    {call : CallId} (own : action.actor = some call) {poll : PollCall}
    (called : state.calls call = some (.poll poll)) :
    poll.phase.slots queue = 0 := by
  unfold Action.counts at counts
  split at counts
  · cases own
    split at counts
    · cases called.symm.trans ‹_›
      simp [PollPhase.slots, ClaimPhase.slots]
    · cases counts
  · cases counts

/-- Different jobs of the queue that are in flight and abandoned. -/
structure Lost (queue : QueueId) (jobs : List JobId) (state : State) : Prop where
  nodup : jobs.Nodup
  abandoned : ∀ job ∈ jobs, Abandoned job state
  occupies : ∀ job ∈ jobs, ∃ row, state.world.jobs.get? job = some row ∧
    row.queueId = queue ∧ row.status.inFlight = true

/-- No claim in progress takes more jobs of the queue than these slots. -/
def ClaimsAtMost (slots : Nat) (queue : QueueId) (state : State) : Prop :=
  ∀ call poll, state.calls call = some (.poll poll) →
    poll.phase.slots queue ≤ slots

section Steps

variable {env : Env} {start state next last : State} {action : Action}
  {trace : List (Transition State Action)} {limit : Nat} {queue : QueueId}
  {jobs : List JobId}

namespace Lost

theorem step (lost : Lost queue jobs state) (enrolled : state.Enrolled)
    (locks : LockInv state)
    (taken : Chronos.step env state action = some next) :
    Lost queue jobs next where
  nodup := lost.nodup
  abandoned job member := by
    obtain ⟨row, found, _, inFlight⟩ := lost.occupies job member
    exact (lost.abandoned job member).step enrolled locks found inFlight taken
  occupies job member := by
    obtain ⟨row, found, inQueue, inFlight⟩ := lost.occupies job member
    have kept :=
      (lost.abandoned job member).row_kept locks found inFlight taken
    exact ⟨row, kept, inQueue, inFlight⟩

theorem length_le_inFlight (lost : Lost queue jobs state) :
    jobs.length ≤ state.world.inFlight queue := by
  have listed : jobs ⊆ state.world.jobs.keysWhere fun _ job =>
      job.queueId = queue && job.status.inFlight := by
    intro job member
    obtain ⟨row, found, inQueue, inFlight⟩ := lost.occupies job member
    exact Table.mem_keysWhere.mpr ⟨row, found, by simp [inQueue, inFlight]⟩
  exact (List.subperm_of_subset lost.nodup listed).length_le

end Lost

/-- A claim takes no more than what its count has left over. -/
theorem slots_le_step (read : LimitRead limit queue state)
    (lost : Lost queue jobs state)
    (taken : Chronos.step env state action = some next) {call : CallId}
    (before : ∀ poll, state.calls call = some (.poll poll) →
      poll.phase.slots queue ≤ limit - jobs.length) :
    ∀ poll, next.calls call = some (.poll poll) →
      poll.phase.slots queue ≤ limit - jobs.length := by
  intro poll' found
  rcases step_slots queue taken found with
    none | ⟨poll, called, _, fewer⟩ |
    ⟨poll, ref, rest, _, called, _, phase, inQueue, counted⟩
  · rw [none]
    exact Nat.zero_le _
  · exact fewer.trans (before poll called)
  · have known : ref.concurrencyLimit = limit := by
      apply read.refs call poll called ref _ inQueue
      rw [phase]
      exact List.mem_cons_self
    have occupied := lost.length_le_inFlight
    omega

theorem length_committed_le {slots : Nat}
    (most : ClaimsAtMost slots queue state) :
    (action.committed state queue).length ≤ slots := by
  cases commits : action.committed state queue with
  | nil => exact Nat.zero_le _
  | cons job ids =>
      have nonempty : action.committed state queue ≠ [] := by
        rw [commits]
        exact List.cons_ne_nil _ _
      obtain ⟨call, worker, ref, rest, txNow, _, called, inQueue⟩ :=
        Action.committed_ne_nil nonempty
      have most := most call _ called
      rw [PollPhase.slots, if_pos inQueue, ClaimPhase.slots, commits] at most
      exact most

theorem mem_committed_of_claims (locks : LockInv state) {job : JobId}
    {row : Job} (found : state.world.jobs.get? job = some row)
    (inQueue : row.queueId = queue)
    (claims : action.commits state job = some .claim) :
    job ∈ action.committed state queue := by
  obtain ⟨call, worker, ref, rest, txNow, ids, rfl, called, member⟩ :=
    Action.commits_claim claims
  have isOpen : state.tx call = some ⟨ref, txNow, ids⟩ := by
    simp [State.tx, called, Call.tx, PollPhase.tx]
  obtain ⟨locked, lockedFound, _, ofRef, _⟩ :=
    (locks.sound call _ isOpen).rows job member
  cases found.symm.trans lockedFound
  have same : ref.id = queue := ofRef.symm.trans inQueue
  simpa [Action.committed, called, same] using member

/-! ## Every future -/

/-- The jobs are lost, and the limit of the queue is constant. -/
structure JobsLost (limit : Nat) (queue : QueueId) (jobs : List JobId)
    (state : State) : Prop where
  lost : Lost queue jobs state
  read : LimitRead limit queue state
  enrolled : state.Enrolled
  locks : LockInv state

theorem JobsLost.step (before : JobsLost limit queue jobs state)
    (taken : Chronos.step env state action = some next)
    (constant : action.setsLimit queue = false) :
    JobsLost limit queue jobs next where
  lost := before.lost.step before.enrolled before.locks taken
  read := before.read.step taken constant
  enrolled := before.enrolled.step taken
  locks := before.locks.step taken

theorem JobsLost.run (before : JobsLost limit queue jobs start)
    (run : Run (Chronos.step env) start trace last)
    (constant : ∀ transition ∈ trace,
      transition.action.setsLimit queue = false) :
    JobsLost limit queue jobs last := by
  apply run.invariant (JobsLost limit queue jobs) constant before
  intro transition constant taken before
  exact before.step taken constant

/-- Claims in progress that have counted the jobs of the queue since these
were lost take no more than the other slots. -/
theorem JobsLost.claimsAtMost (before : JobsLost limit queue jobs start)
    (run : Run (Chronos.step env) start trace last)
    (constant : ∀ transition ∈ trace,
      transition.action.setsLimit queue = false)
    (counted : ∀ call poll, last.calls call = some (.poll poll) →
      0 < poll.phase.slots queue → ∃ transition ∈ trace,
        transition.action.actor = some call ∧
        transition.action.counts transition.before queue = true) :
    ClaimsAtMost (limit - jobs.length) queue last := by
  intro call poll called
  rcases Nat.eq_zero_or_pos (poll.phase.slots queue) with none | some
  · rw [none]
    exact Nat.zero_le _
  obtain ⟨count, member, own, counts⟩ := counted call poll called some
  obtain ⟨earlier, later, rfl⟩ := List.append_of_mem member
  obtain ⟨toCount, taken, afterCount⟩ := run.around
  have atCount := before.run toCount fun transition member =>
    constant transition (by simp [member])
  have first : ∀ poll, count.after.calls call = Option.some (.poll poll) →
      poll.phase.slots queue ≤ limit - jobs.length := by
    apply slots_le_step atCount.read atCount.lost taken
    intro poll called
    rw [Action.slots_of_counts counts own called]
    exact Nat.zero_le _
  have now := atCount.step taken (constant count (by simp))
  have kept : JobsLost limit queue jobs last ∧
      ∀ poll, last.calls call = Option.some (.poll poll) →
        poll.phase.slots queue ≤ limit - jobs.length := by
    refine afterCount.invariant
      (fun state => JobsLost limit queue jobs state ∧
        ∀ poll, state.calls call = Option.some (.poll poll) →
          poll.phase.slots queue ≤ limit - jobs.length)
      (fun transition member => constant transition (by simp [member]))
      ⟨now, first⟩ ?_
    rintro transition constant taken ⟨before, bound⟩
    exact ⟨before.step taken constant,
      slots_le_step before.read before.lost taken bound⟩
  exact kept.2 poll called

/-- The jobs are lost, and what the poll cycles believe takes them into
account. -/
structure SlotsLost (limit : Nat) (queue : QueueId) (jobs : List JobId)
    (state : State) : Prop extends JobsLost limit queue jobs state where
  most : ClaimsAtMost (limit - jobs.length) queue state

theorem SlotsLost.step (slots : SlotsLost limit queue jobs state)
    (taken : Chronos.step env state action = some next)
    (constant : action.setsLimit queue = false) :
    SlotsLost limit queue jobs next where
  toJobsLost := slots.toJobsLost.step taken constant
  most call := slots_le_step slots.read slots.lost taken (slots.most call)

/-- In a run that does not change the limit of the queue, every abandoned job
lowers it by one for good: from then on no claim takes more rows than the
other slots, and when there are none, no job of the queue is ever claimed. -/
theorem abandoned_lower_limit (run : Run (step env) start trace state)
    (initial : Initial start) (enrolled : start.Enrolled)
    (known : ∀ row, start.world.queues.get? queue = some row →
      row.concurrencyLimit = limit)
    (constant : ∀ transition ∈ trace,
      transition.action.setsLimit queue = false)
    (lost : Lost queue jobs state)
    (settled : ClaimsAtMost (limit - jobs.length) queue state)
    {future : List (Transition State Action)}
    (later : Run (step env) state future last)
    (constant' : ∀ transition ∈ future,
      transition.action.setsLimit queue = false) :
    (∀ transition ∈ future,
      (transition.action.committed transition.before queue).length ≤
        limit - jobs.length) ∧
    (limit ≤ jobs.length → ∀ transition ∈ future, ∀ job row,
      transition.before.world.jobs.get? job = some row →
      row.queueId = queue →
      transition.action.commits transition.before job ≠ some .claim) ∧
    jobs.length ≤ last.world.inFlight queue := by
  have now : SlotsLost limit queue jobs state :=
    ⟨⟨lost, (LimitRead.initial initial known).run run constant,
      enrolled.run run, LockInv.run run initial⟩, settled⟩
  have before : ∀ transition ∈ future,
      SlotsLost limit queue jobs transition.before := by
    intro transition member
    refine (later.invariant_before (SlotsLost limit queue jobs) constant' now
      ?_ member).1
    intro transition constant taken slots
    exact slots.step taken constant
  have after : SlotsLost limit queue jobs last := by
    apply later.invariant (SlotsLost limit queue jobs) constant' now
    intro transition constant taken slots
    exact slots.step taken constant
  refine ⟨?_, ?_, after.lost.length_le_inFlight⟩
  · intro transition member
    exact length_committed_le (before transition member).most
  · intro full transition member job row found inQueue claims
    have slots := before transition member
    have taken := mem_committed_of_claims slots.locks found inQueue claims
    have few : (transition.action.committed transition.before queue).length ≤
        limit - jobs.length := length_committed_le slots.most
    have one := List.length_pos_of_mem taken
    omega

/-- A worker claims the job 7 and dies before it runs it; the queue has one
slot, and the job 8 waits for ever. -/
theorem abandoned_lower_limit_starved :
    ∃ trace last,
      Run (step .sample)
        (World.sample 1 ⟨[(7, .sample .queued), (8, .sample .queued)],
          by simp⟩).idle trace last ∧
      last.status? 8 = some .queued ∧
      ∀ future final, Run (step .sample) last future final →
        (∀ transition ∈ future,
          transition.action.setsLimit 0 = false) →
        ∀ transition ∈ future, ∀ row,
          transition.before.world.jobs.get? 8 = some row → row.queueId = 0 →
          transition.action.commits transition.before 8 ≠ some .claim := by
  obtain ⟨trace, last, run, bounds, calls, executions, constant, inQueue,
      claimed, queued⟩ :=
    exists_run_of_check (step .sample)
      (World.sample 1 ⟨[(7, .sample .queued), (8, .sample .queued)],
        by simp⟩).idle
      (claimActions 1 1 [7, 8] ++ crashActions 1 20000 3 2 ++
        ([.reap 3 (.rows [1]), .reap 3 .ok, .reap 3 (.rows [])] :
          List Action))
      (fun trace last =>
        ChecksCalls 4 (fun _ _ => True) trace ∧
        ((List.range 4).all fun call => (last.calls call).isNone) = true ∧
        last.world.executions.rows.isEmpty = true ∧
        (∀ transition ∈ trace,
          transition.action.setsLimit 0 = false) ∧
        (last.world.jobs.get? 7).map (·.queueId) = some 0 ∧
        last.status? 7 = some .claimed ∧ last.status? 8 = some .queued)
      (by decide)
  have initial : Initial (World.sample 1
      ⟨[(7, .sample .queued), (8, .sample .queued)], by simp⟩).idle :=
    World.idle_initial fun _ => rfl
  have idle : ∀ call, last.calls call = none := by
    intro call
    rcases Nat.lt_or_ge call 4 with small | large
    · rw [List.all_eq_true] at calls
      exact Option.isNone_iff_eq_none.mp
        (calls call (List.mem_range.mpr small))
    · exact calls_none_of_run run initial
        (fun transition member => (bounds transition member).1) large
  have abandoned : Abandoned 7 last := by
    apply Abandoned.of_idle idle
    intro entry member
    rw [List.isEmpty_iff.mp executions] at member
    cases member
  obtain ⟨row, found, claimed⟩ := State.status?_eq_some_iff.mp claimed
  rw [found] at inQueue
  have inQueue : row.queueId = 0 := Option.some.inj inQueue
  have lost : Lost 0 [7] last := by
    refine ⟨List.nodup_singleton 7, ?_, ?_⟩
    · intro job member
      rw [List.mem_singleton.mp member]
      exact abandoned
    · intro job member
      rw [List.mem_singleton.mp member]
      exact ⟨row, found, inQueue, by rw [claimed]; rfl⟩
  have limited : ∀ row, (World.sample 1 ⟨[(7, .sample .queued),
      (8, .sample .queued)], by simp⟩).idle.world.queues.get? 0 = some row →
        row.concurrencyLimit = 1 := by
    intro row found
    cases found
    rfl
  have now : JobsLost 1 0 [7] last :=
    ⟨lost, (LimitRead.initial initial limited).run run constant,
      (World.sample_enrolled _ _).run run, LockInv.run run initial⟩
  have nothing : Run (step .sample) last [] last := .nil
  have settled := now.claimsAtMost nothing (by simp) (by
    intro call poll called
    rw [idle] at called
    cases called)
  refine ⟨trace, last, run, queued, ?_⟩
  intro future final later constant' transition member row
  exact (abandoned_lower_limit run initial (World.sample_enrolled _ _)
    limited constant lost settled later constant').2.1 (Nat.le_refl 1)
    transition member 8 row

end Steps

end Chronos
