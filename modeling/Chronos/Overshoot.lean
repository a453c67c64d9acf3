import Chronos.ConcurrencyLimit
import Mathlib.Algebra.BigOperators.Group.Finset.Basic
import Mathlib.Algebra.Order.BigOperators.Group.Finset

/-!
# How far the concurrency limit is exceeded

A claim goes through with the number of free slots that its worker counted
before.  The bound adds to the jobs in flight, for each worker, the slots that
it still believes free.  A count sets the worker's own part to what is free
now, and a commit turns it into jobs in flight, so the sum stays below the
number of workers times the limit.
-/

namespace Chronos

namespace ClaimPhase

/-- The number of rows that a claim in this phase can still commit. -/
def slots : ClaimPhase → Nat
  | .count => 0
  | .beginTx available => available
  | .select available _ => available
  | .update _ ids => ids.length
  | .commit _ ids => ids.length

end ClaimPhase

/-- The slots of the queue that a cycle in this phase believes free. -/
def PollPhase.slots (queue : QueueId) : PollPhase → Nat
  | .claiming ref _ phase => if ref.id = queue then phase.slots else 0
  | _ => 0

/-- The step belongs to a run in which only these workers poll, each of them
one cycle after the other, and nobody but the workers writes. -/
structure PolledBy (workers : Finset WorkerId)
    (transition : Transition State Action) : Prop where
  byWorker : transition.action.byWorker = true
  member : ∀ worker ∈ transition.action.startsPoll, worker ∈ workers
  turns : ∀ call, PollsInTurn transition call

namespace Action

/-- The rows of this queue whose claim commits in this step. -/
def committed (state : State) (queue : QueueId) : Action → List JobId
  | .poll call (.claim .ok) =>
      match state.calls call with
      | some (.poll ⟨_, .claiming ref _ (.commit _ ids)⟩) =>
          if ref.id = queue then ids else []
      | _ => []
  | _ => []

theorem committed_ne_nil {state : State} {queue : QueueId} {action : Action}
    (commits : action.committed state queue ≠ []) :
    ∃ call worker ref rest txNow, action = .poll call (.claim .ok) ∧
      state.calls call = some (.poll ⟨worker, .claiming ref rest
        (.commit txNow (action.committed state queue))⟩) ∧
      ref.id = queue := by
  generalize same : action.committed state queue = ids at commits ⊢
  unfold committed at same
  split at same
  · split at same
    · split at same
      · subst same
        exact ⟨_, _, _, _, _, rfl, ‹_›, ‹_›⟩
      · exact (commits same.symm).elim
    · exact (commits same.symm).elim
  · exact (commits same.symm).elim

end Action

/-- What `slots` says that each worker still believes free covers the claims
in progress, and together with the jobs in flight it stays in the bound. -/
structure SlotsBelieved (limit : Nat) (queue : QueueId)
    (workers : Finset WorkerId) (slots : WorkerId → Nat) (state : State) :
    Prop where
  most : ∀ worker, slots worker ≤ limit
  claims : ∀ call poll, state.calls call = some (.poll poll) →
    poll.phase.slots queue ≤ slots poll.workerId
  total : state.world.inFlight queue + ∑ worker ∈ workers, slots worker ≤
    workers.card * limit

/-- The cycles know the limit of the queue and belong to these workers. -/
structure LimitKnown (limit : Nat) (queue : QueueId)
    (workers : Finset WorkerId) (state : State) : Prop
    extends LimitRead limit queue state where
  members : ∀ worker call, state.polls worker call → worker ∈ workers

section Steps

variable {env : Env} {start last state next : State} {action : Action}
  {trace : List (Transition State Action)} {limit : Nat} {queue : QueueId}
  {workers : Finset WorkerId} {slots : WorkerId → Nat}

theorem LimitKnown.step (known : LimitKnown limit queue workers state)
    (taken : step env state action = some next)
    (polled : PolledBy workers ⟨state, action, next⟩) :
    LimitKnown limit queue workers next := by
  refine ⟨known.toLimitRead.step taken
    (setsLimit_of_byWorker polled.byWorker), ?_⟩
  intro worker call polls
  rcases step_polls taken polls with old | ⟨starts, -⟩
  · exact known.members worker call old
  · exact polled.member worker starts

/-- A step of a worker brings no job in flight but those whose claim it
commits. -/
theorem inFlight_step_le (locks : LockInv state)
    (ownership : Ownership (fun status => !status.inFlight) state)
    (taken : step env state action = some next)
    (byWorker : action.byWorker = true) :
    next.world.inFlight queue ≤
      state.world.inFlight queue + (action.committed state queue).length := by
  apply Table.count_le_add_length
  intro job row' found' counted notCommitted
  simp only [Bool.and_eq_true, decide_eq_true_eq] at counted
  obtain ⟨inQueue, inFlight⟩ := counted
  obtain ⟨row, found, sameQueue, change⟩ := row_before taken byWorker found'
  rw [inQueue] at sameQueue
  refine ⟨row, found, ?_⟩
  rcases inFlight_step ownership byWorker found change inFlight with
    before | ⟨call, ⟨worker, phase⟩, ref, rest, txNow, ids, rfl, called,
      rfl, member⟩
  · simpa [sameQueue] using before
  · -- The select found the row in the queue of the claim.
    have isOpen : state.tx call = some ⟨ref, txNow, ids⟩ := by
      simp [State.tx, called, Call.tx, PollPhase.tx]
    obtain ⟨locked, lockedFound, -, ofRef, -⟩ :=
      (locks.sound call _ isOpen).rows job member
    cases found.symm.trans lockedFound
    have same : ref.id = queue := ofRef.symm.trans sameQueue
    apply (notCommitted _).elim
    simpa [Action.committed, called, same] using member

/-! ## The sum stays in the bound -/

theorem sum_update_add (slots : WorkerId → Nat) (worker : WorkerId)
    (value : Nat) (member : worker ∈ workers) :
    ∑ other ∈ workers, Function.update slots worker value other +
        slots worker =
      ∑ other ∈ workers, slots other + value := by
  rw [← Finset.add_sum_erase workers slots member,
    ← Finset.add_sum_erase workers (Function.update slots worker value) member,
    Function.update_self]
  have others : ∑ other ∈ workers.erase worker,
      Function.update slots worker value other =
      ∑ other ∈ workers.erase worker, slots other := by
    apply Finset.sum_congr rfl
    intro other isOther
    rw [Function.update_of_ne (Finset.ne_of_mem_erase isOther)]
  omega

/-- A step of a cycle raises the slots that it believes free only when it
counts. -/
theorem PollStep.slots_cases {world next : World} {call : CallId}
    {poll poll' : PollCall} {input : PollInput}
    (case : PollStep world call poll input next (some poll')) :
    poll'.phase.slots queue ≤ poll.phase.slots queue ∨
      ∃ ref rest, poll.phase = .claiming ref rest .count ∧ ref.id = queue ∧
        poll'.phase.slots queue =
          ref.concurrencyLimit - world.inFlight queue := by
  have none : ∀ {phase : PollPhase}, phase.slots queue = 0 →
      phase.slots queue ≤ poll.phase.slots queue := by
    intro phase empty
    rw [empty]
    exact Nat.zero_le _
  cases case with
  | fetched => exact .inl (none rfl)
  | entered =>
      left
      apply none
      simp [PollPhase.slots, ClaimPhase.slots]
  | atLimit => exact .inl (none rfl)
  | @counted ref rest phase =>
      by_cases same : ref.id = queue
      · refine .inr ⟨ref, rest, phase, same, ?_⟩
        simp [PollPhase.slots, ClaimPhase.slots, same]
      · left
        apply none
        simp [PollPhase.slots, same]
  | countFailed => exact .inl (none rfl)
  | begun phase =>
      left
      rw [phase]
      exact le_refl _
  | nothingLocked => exact .inl (none rfl)
  | @selected ref _ available _ order _ phase =>
      left
      rw [phase]
      simp only [PollPhase.slots, ClaimPhase.slots]
      split
      · exact List.length_take_le available order
      · exact le_refl _
  | selectedNone =>
      left
      apply none
      simp [PollPhase.slots, ClaimPhase.slots]
  | updated phase =>
      left
      rw [phase]
      exact le_refl _
  | rolledBack => exact .inl (none rfl)
  | committed => exact .inl (none rfl)
  | launched => exact .inl (none rfl)

/-- After a step a cycle believes no more slots free than before, or it has
just counted. -/
theorem step_slots (queue : QueueId)
    (taken : step env state action = some next) {call : CallId}
    {poll' : PollCall} (found : next.calls call = some (.poll poll')) :
    poll'.phase.slots queue = 0 ∨
    (∃ poll, state.calls call = some (.poll poll) ∧
      poll.workerId = poll'.workerId ∧
      poll'.phase.slots queue ≤ poll.phase.slots queue) ∨
    ∃ poll ref rest, action.actor = some call ∧
      state.calls call = some (.poll poll) ∧ poll.workerId = poll'.workerId ∧
      poll.phase = .claiming ref rest .count ∧ ref.id = queue ∧
      poll'.phase.slots queue =
        ref.concurrencyLimit - state.world.inFlight queue := by
  generalize same : Call.poll poll' = value at found
  cases step_call taken found with
  | kept called =>
      subst same
      exact .inr (.inl ⟨poll', called, rfl, le_refl _⟩)
  | started starts =>
      cases starts with
      | poll =>
          cases same
          exact .inl rfl
      | request =>
          rename_i request
          cases request <;> cases same
      | _ => cases same
  | handedOver =>
      cases same
      exact .inl rfl
  | @poll poll _ _ _ called case =>
      cases same
      have worker : poll.workerId = poll'.workerId := by cases case <;> rfl
      rcases case.slots_cases with fewer | ⟨ref, rest, phase, inQueue, counted⟩
      · exact .inr (.inl ⟨poll, called, worker, fewer⟩)
      · exact .inr (.inr ⟨poll, ref, rest, rfl, called, worker, phase, inQueue,
          counted⟩)
  | api _ case =>
      subst same
      cases case.requests.2
  | _ => cases same

namespace SlotsBelieved

private theorem recount (inv : SlotsBelieved limit queue workers slots state)
    {worker : WorkerId} (member : worker ∈ workers) {inFlight : Nat}
    (room : inFlight ≤ limit) :
    inFlight + ∑ other ∈ workers,
        Function.update slots worker (limit - inFlight) other ≤
      workers.card * limit := by
  have others : ∑ other ∈ workers.erase worker,
      Function.update slots worker (limit - inFlight) other ≤
      (workers.erase worker).card * limit := by
    apply Finset.sum_le_card_nsmul
    intro other isOther
    rw [Function.update_of_ne (Finset.ne_of_mem_erase isOther)]
    exact inv.most other
  rw [← Finset.add_sum_erase workers _ member, Function.update_self]
  have one : workers.card * limit =
      (workers.erase worker).card * limit + limit := by
    rw [← Finset.card_erase_add_one member, Nat.add_mul, Nat.one_mul]
  omega

/-- The worker that acts believes anew; the other workers' cycles still fit. -/
private theorem claims_update
    (inv : SlotsBelieved limit queue workers slots state)
    (oneAfter : OneCycle next) (taken : step env state action = some next)
    {call : CallId} (acts : action.actor = some call) {poll' : PollCall}
    (found : next.calls call = some (.poll poll')) {believed : Nat}
    (fits : poll'.phase.slots queue ≤ believed) {other : CallId}
    {poll'' : PollCall} (found' : next.calls other = some (.poll poll'')) :
    poll''.phase.slots queue ≤
      Function.update slots poll'.workerId believed poll''.workerId := by
  by_cases sameWorker : poll''.workerId = poll'.workerId
  · have sameCall := oneAfter poll'.workerId other call
      ⟨poll'', found', sameWorker⟩ ⟨poll', found, rfl⟩
    subst sameCall
    cases found.symm.trans found'
    rw [Function.update_self]
    exact fits
  · rw [Function.update_of_ne sameWorker]
    rcases step_slots queue taken found' with
      zero | ⟨before, called', same', fewer⟩ | ⟨_, _, _, acts', _⟩
    · omega
    · have old := inv.claims other before called'
      rw [same'] at old
      omega
    · cases acts.symm.trans acts'
      cases found.symm.trans found'
      exact (sameWorker rfl).elim

private theorem most_update
    (inv : SlotsBelieved limit queue workers slots state) {worker : WorkerId}
    {believed : Nat} (possible : believed ≤ limit) (other : WorkerId) :
    Function.update slots worker believed other ≤ limit := by
  rw [Function.update_apply]
  split
  · exact possible
  · exact inv.most other

theorem step (inv : SlotsBelieved limit queue workers slots state)
    (locks : LockInv state)
    (ownership : Ownership (fun status => !status.inFlight) state)
    (known : LimitKnown limit queue workers state) (one : OneCycle state)
    (taken : step env state action = some next)
    (polled : PolledBy workers ⟨state, action, next⟩) :
    ∃ slots', SlotsBelieved limit queue workers slots' next := by
  have oneAfter : OneCycle next := one.step taken polled.turns
  have grows : next.world.inFlight queue ≤ state.world.inFlight queue +
      (action.committed state queue).length :=
    inFlight_step_le locks ownership taken polled.byWorker
  by_cases commits : action.committed state queue = []
  · rw [commits, List.length_nil, Nat.add_zero] at grows
    by_cases counts : ∃ call poll', action.actor = some call ∧
        next.calls call = some (.poll poll') ∧
        slots poll'.workerId < poll'.phase.slots queue
    · -- The worker that counts now believes the current number.
      obtain ⟨call, poll', acts, found, more⟩ := counts
      rcases step_slots queue taken found with
        zero | ⟨poll, called, same, fewer⟩ | ⟨poll, ref, rest, -, called, same,
          phase, inQueue, counted⟩
      · omega
      · have old := inv.claims call poll called
        rw [same] at old
        omega
      · have isLimit : ref.concurrencyLimit = limit :=
          known.refs call poll called ref (by rw [phase]; exact .head _) inQueue
        have member : poll'.workerId ∈ workers :=
          known.members _ call ⟨poll, called, same⟩
        rw [isLimit] at counted
        refine ⟨Function.update slots poll'.workerId
          (limit - state.world.inFlight queue), ?_, ?_, ?_⟩
        · exact inv.most_update (Nat.sub_le _ _)
        · intro other poll'' found'
          exact inv.claims_update oneAfter taken acts found
            (le_of_eq counted) found'
        · have room : state.world.inFlight queue ≤ limit := by omega
          exact (Nat.add_le_add_right grows _).trans (inv.recount member room)
    · refine ⟨slots, inv.most, ?_, (Nat.add_le_add_right grows _).trans
        inv.total⟩
      intro call poll' found
      rcases step_slots queue taken found with
        zero | ⟨poll, called, same, fewer⟩ | ⟨_, _, _, acts, _⟩
      · omega
      · have old := inv.claims call poll called
        rw [same] at old
        omega
      · by_contra more
        exact counts ⟨call, poll', acts, found, by omega⟩
  · -- A commit turns believed slots into jobs in flight.
    obtain ⟨call, worker, ref, rest, txNow, rfl, called, same⟩ :=
      Action.committed_ne_nil commits
    have finds : next.calls call = some (.poll ⟨worker,
        .launching rest ((Action.poll call (.claim .ok)).committed state
          queue)⟩) := by
      simp only [Chronos.step, called, pollCycle, claimJobs, State.resume,
        Option.map_some] at taken
      rw [← Option.some.inj taken]
      exact Function.update_self ..
    have fits := inv.claims call _ called
    simp only [PollPhase.slots, ClaimPhase.slots, same, if_true] at fits
    have member : worker ∈ workers :=
      known.members worker call ⟨_, called, rfl⟩
    have total := inv.total
    have sum := sum_update_add slots worker 0 member
    refine ⟨Function.update slots worker 0, ?_, ?_, by omega⟩
    · exact inv.most_update (Nat.zero_le _)
    · intro other poll'' found'
      exact inv.claims_update oneAfter taken rfl finds (Nat.zero_le _) found'

theorem initial (initial : Initial start)
    (free : start.world.inFlight queue = 0) :
    SlotsBelieved limit queue workers (fun _ => 0) start := by
  refine ⟨fun _ => Nat.zero_le _, ?_, ?_⟩
  · intro call poll found
    rw [initial.calls call] at found
    cases found
  · rw [free, Finset.sum_const_zero]
    exact Nat.zero_le _

end SlotsBelieved

/-- The jobs in flight never exceed the number of workers times the limit. -/
theorem inFlight_le_card_mul (run : Run (step env) start trace last)
    (initial : Initial start)
    (polled : ∀ transition ∈ trace, PolledBy workers transition)
    {row : Queue} (found : start.world.queues.get? queue = some row)
    (free : start.world.inFlight queue = 0) :
    last.world.inFlight queue ≤ workers.card * row.concurrencyLimit := by
  have known : LimitKnown row.concurrencyLimit queue workers start := by
    refine ⟨.initial initial ?_, ?_⟩
    · intro row' found'
      cases found.symm.trans found'
      rfl
    · intro worker call polls
      exact (not_polls_of_initial initial worker call polls).elim
  have all : LockInv last ∧
      Ownership (fun status => !status.inFlight) last ∧
      LimitKnown row.concurrencyLimit queue workers last ∧ OneCycle last ∧
      ∃ slots, SlotsBelieved row.concurrencyLimit queue workers slots last := by
    refine run.invariant (fun state => LockInv state ∧
        Ownership (fun status => !status.inFlight) state ∧
        LimitKnown row.concurrencyLimit queue workers state ∧
        OneCycle state ∧
        ∃ slots, SlotsBelieved row.concurrencyLimit queue workers slots state)
      polled ⟨.initial initial, .initial initial, known, .initial initial, _,
        .initial initial free⟩ ?_
    rintro transition polled taken ⟨locks, ownership, known, one, slots, inv⟩
    refine ⟨locks.step taken, ?_, known.step taken polled,
      one.step taken polled.turns,
      inv.step locks ownership known one taken polled⟩
    apply ownership.step notInFlight_idle locks taken
    intro call write written
    simp only [outsideWrite_of_byWorker polled.byWorker] at written
    cases written
  obtain ⟨slots, inv⟩ := all.2.2.2.2
  exact (Nat.le_add_right _ _).trans inv.total

end Steps

/-! ## A run that reaches the bound -/

/-- The jobs below `claimed` are claimed, the next ones are queued. -/
def crowdJobs (claimed queued : Nat) : Table JobId Job where
  rows := (List.range claimed).map (fun id => (id, .sample .claimed)) ++
    (List.range' claimed queued).map fun id => (id, .sample .queued)
  nodup := by
    rw [List.map_append, List.map_map, List.map_map]
    simp only [Function.comp_def, List.map_id']
    rw [List.range_eq_range']
    have whole : List.range' 0 claimed ++ List.range' claimed queued =
        List.range' 0 (claimed + queued) := by
      have appended := @List.range'_append_1 0 claimed queued
      rwa [Nat.zero_add] at appended
    rw [whole]
    exact List.nodup_range'

/-- Queue 0 with this limit, these jobs, and as many workers as named. -/
def World.crowd (workers limit claimed queued : Nat) : World :=
  { World.sample limit (crowdJobs claimed queued) with
    workers :=
      ⟨(List.range workers).map fun worker => (worker, ⟨.active, 0, 0⟩), by
        rw [List.map_map]
        simp only [Function.comp_def, List.map_id']
        exact List.nodup_range⟩
    process := fun worker => if worker < workers then some .running else none }

namespace World.crowd

variable {workers limit claimed queued : Nat}

theorem inFlight :
    (World.crowd workers limit claimed queued).inFlight 0 = claimed := by
  have busy : ((World.crowd workers limit claimed queued).jobs.rows.filter
      fun row => row.2.queueId = 0 && row.2.status.inFlight) =
      (List.range claimed).map fun id => (id, .sample .claimed) := by
    change List.filter _ (_ ++ _) = _
    rw [List.filter_append, List.filter_eq_self.mpr, List.filter_eq_nil_iff.mpr,
      List.append_nil]
    · intro row member
      obtain ⟨id, -, rfl⟩ := List.mem_map.mp member
      simp [Job.sample, JobStatus.inFlight]
    · intro row member
      obtain ⟨id, -, rfl⟩ := List.mem_map.mp member
      rfl
  unfold World.inFlight Table.count Table.keysWhere
  rw [busy, List.length_map, List.length_map, List.length_range]

theorem claimable :
    (World.crowd workers limit claimed queued).claimable 0 0 [] =
      List.range' claimed queued := by
  have free : ((World.crowd workers limit claimed queued).jobs.rows.filter
      fun row => row.2.queueId = 0 && row.2.status = .queued &&
        decide (row.2.runAt ≤ 0) &&
        ((World.crowd workers limit claimed queued).locks row.1).isNone &&
        decide (row.1 ∉ ([] : List JobId))) =
      (List.range' claimed queued).map fun id => (id, .sample .queued) := by
    change List.filter _ (_ ++ _) = _
    rw [List.filter_append, List.filter_eq_nil_iff.mpr,
      List.filter_eq_self.mpr, List.nil_append]
    · intro row member
      obtain ⟨id, -, rfl⟩ := List.mem_map.mp member
      simp [Job.sample, World.crowd, World.sample]
    · intro row member
      obtain ⟨id, -, rfl⟩ := List.mem_map.mp member
      simp [Job.sample]
  unfold World.claimable Table.keysWhere
  rw [free, List.map_map]
  simp only [Function.comp_def, List.map_id']

theorem claimKey (id : JobId) :
    (World.crowd workers limit claimed queued).claimKey id = (0, 0) := by
  unfold World.claimKey
  split
  · rename_i row found
    have member := Table.mem_rows_iff.mpr found
    rcases List.mem_append.mp member with inFlight | waiting
    · obtain ⟨_, -, same⟩ := List.mem_map.mp inFlight
      cases same
      rfl
    · obtain ⟨_, -, same⟩ := List.mem_map.mp waiting
      cases same
      rfl
  · rfl

theorem claimOrder :
    (World.crowd workers limit claimed queued).ClaimOrder 0 0 []
      (List.range' claimed queued) := by
  refine ⟨by rw [claimable], List.pairwise_of_forall fun first second => ?_⟩
  right
  rw [claimKey, claimKey]
  exact ⟨rfl, le_refl _⟩

theorem mapRows_claim (rows : Nat) :
    ((crowdJobs claimed (rows + queued)).mapRows fun id job =>
      if id ∈ List.range' claimed rows then job.claim 0 else job) =
      crowdJobs (claimed + rows) queued := by
  have whole : List.range' 0 claimed ++ List.range' claimed rows =
      List.range' 0 (claimed + rows) := by
    have appended := @List.range'_append_1 0 claimed rows
    rwa [Nat.zero_add] at appended
  have tail : List.range' claimed rows ++ List.range' (claimed + rows) queued =
      List.range' claimed (rows + queued) := List.range'_append_1
  unfold Table.mapRows crowdJobs
  simp only [Table.mk.injEq]
  rw [← tail, List.range_eq_range', List.range_eq_range', ← whole]
  simp only [List.map_append, List.map_map, List.append_assoc]
  congr 1
  · apply List.map_congr_left
    intro id member
    have small : id ∉ List.range' claimed rows := by
      simp only [List.mem_range'_1] at member ⊢
      omega
    simp only [Function.comp_apply, if_neg small]
  congr 1
  · apply List.map_congr_left
    intro id member
    simp only [Function.comp_apply, if_pos member]
    rfl
  · apply List.map_congr_left
    intro id member
    have large : id ∉ List.range' claimed rows := by
      simp only [List.mem_range'_1] at member ⊢
      omega
    simp only [Function.comp_apply, if_neg large]

theorem commit (call : CallId) (rows : Nat) :
    (((World.crowd workers limit claimed (rows + queued)).lock call
          (List.range' claimed rows)).markClaimed 0
        (List.range' claimed rows)).unlock (List.range' claimed rows) =
      World.crowd workers limit (claimed + rows) queued := by
  have locks : (fun job => if job ∈ List.range' claimed rows then none
      else if job ∈ List.range' claimed rows then some call else none) =
      fun _ : JobId => (none : Option CallId) := by
    funext job
    split <;> rfl
  simp only [World.crowd, World.lock, World.markClaimed, World.unlock,
    World.sample, mapRows_claim, locks]

end World.crowd

section Crowd

variable {env : Env} {workers : Finset WorkerId} {world world' : World}
  {calls : CallId → Option Call} {call : CallId} {poll poll' : PollCall}
  {input : PollInput}

theorem reaches_poll
    (taken : pollCycle world call poll input = some (world', some poll')) :
    Reaches (step env) (PolledBy workers)
      ⟨world, Function.update calls call (some (.poll poll))⟩
      ⟨world', Function.update calls call (some (.poll poll'))⟩ := by
  have stepped : step env
      ⟨world, Function.update calls call (some (.poll poll))⟩
      (.poll call input) =
      some ⟨world', Function.update calls call (some (.poll poll'))⟩ := by
    simp only [step, Function.update_self, taken, State.resume,
      Option.map_some, Function.update_idem]
  apply Reaches.single stepped
  constructor
  case byWorker => rfl
  case member =>
    intro worker starts
    cases starts
  case turns =>
    intro _ worker starts
    cases starts

variable {crew limit claimed queued : Nat}

theorem reaches_beginTx (positive : 0 < limit) {worker : WorkerId}
    (member : worker < crew) (inCrew : worker ∈ workers)
    (fresh : calls worker = none)
    (others : ∀ other value, calls other = some value →
      ∃ poll, value = .poll poll ∧ poll.workerId ≠ worker) :
    Reaches (step env) (PolledBy workers)
      ⟨World.crowd crew limit 0 queued, calls⟩
      ⟨World.crowd crew limit 0 queued, Function.update calls worker
        (some (.poll ⟨worker, .claiming ⟨0, limit⟩ [] (.beginTx limit)⟩))⟩ := by
  have running : (World.crowd crew limit 0 queued).stopping worker = false := by
    simp [World.stopping, World.crowd, member]
  have active : (World.crowd crew limit 0 queued).activeQueues = [0] := rfl
  have begins : Reaches (step env) (PolledBy workers)
      ⟨World.crowd crew limit 0 queued, calls⟩
      ⟨World.crowd crew limit 0 queued, Function.update calls worker
        (some (.poll ⟨worker, .fetchQueues⟩))⟩ := by
    have stepped : step env ⟨World.crowd crew limit 0 queued, calls⟩
        (.startPoll worker worker) =
        some ⟨World.crowd crew limit 0 queued, Function.update calls worker
          (some (.poll ⟨worker, .fetchQueues⟩))⟩ := by
      simp only [step, running, State.start, fresh]
      rfl
    refine .single stepped ⟨rfl, ?_, ?_⟩
    · rintro other ⟨⟩
      exact inCrew
    · rintro other _ ⟨⟩
      change (calls other).all _ = true
      cases found : calls other with
      | none => rfl
      | some value =>
          obtain ⟨poll, rfl, different⟩ := others other value found
          simpa using different
  have reads : pollCycle (World.crowd crew limit 0 queued) worker
      ⟨worker, .fetchQueues⟩ (.queues [0]) =
      some (World.crowd crew limit 0 queued,
        some ⟨worker, .nextQueue [⟨0, limit⟩]⟩) := by
    simp only [pollCycle, active, List.Perm.refl, if_true]
    rfl
  have enters : pollCycle (World.crowd crew limit 0 queued) worker
      ⟨worker, .nextQueue [⟨0, limit⟩]⟩ .next =
      some (World.crowd crew limit 0 queued,
        some ⟨worker, .claiming ⟨0, limit⟩ [] .count⟩) := by
    simp [pollCycle, running]
  have counts : pollCycle (World.crowd crew limit 0 queued) worker
      ⟨worker, .claiming ⟨0, limit⟩ [] .count⟩ (.claim .ok) =
      some (World.crowd crew limit 0 queued,
        some ⟨worker, .claiming ⟨0, limit⟩ [] (.beginTx limit)⟩) := by
    simp [pollCycle, claimJobs, World.crowd.inFlight, positive.ne']
  exact begins.trans ((reaches_poll reads).trans
    ((reaches_poll enters).trans (reaches_poll counts)))

/-- It then claims as many jobs as it counted slots, whatever others have
claimed since. -/
theorem reaches_launching (positive : 0 < limit) {worker : WorkerId} :
    Reaches (step env) (PolledBy workers)
      ⟨World.crowd crew limit claimed (limit + queued),
        Function.update calls worker
          (some (.poll ⟨worker, .claiming ⟨0, limit⟩ [] (.beginTx limit)⟩))⟩
      ⟨World.crowd crew limit (claimed + limit) queued,
        Function.update calls worker (some (.poll
          ⟨worker, .launching [] (List.range' claimed limit)⟩))⟩ := by
  have begins : pollCycle (World.crowd crew limit claimed (limit + queued))
      worker ⟨worker, .claiming ⟨0, limit⟩ [] (.beginTx limit)⟩ (.claim .ok) =
      some (World.crowd crew limit claimed (limit + queued),
        some ⟨worker, .claiming ⟨0, limit⟩ [] (.select limit 0)⟩) := rfl
  have first : (List.range' claimed (limit + queued)).take limit =
      List.range' claimed limit := by
    rw [← List.range'_append_1, List.take_left' (by simp)]
  have selects : pollCycle (World.crowd crew limit claimed (limit + queued))
      worker ⟨worker, .claiming ⟨0, limit⟩ [] (.select limit 0)⟩
      (.claim (.rows (List.range' claimed (limit + queued)) [])) =
      some ((World.crowd crew limit claimed (limit + queued)).lock worker
          (List.range' claimed limit),
        some ⟨worker, .claiming ⟨0, limit⟩ []
          (.update 0 (List.range' claimed limit))⟩) := by
    obtain ⟨rest, rfl⟩ := Nat.exists_eq_succ_of_ne_zero positive.ne'
    simp only [pollCycle, claimJobs, World.crowd.claimOrder, if_true, first]
    rfl
  have updates : ∀ world : World, pollCycle world worker
      ⟨worker, .claiming ⟨0, limit⟩ []
        (.update 0 (List.range' claimed limit))⟩ (.claim .ok) =
      some (world, some ⟨worker, .claiming ⟨0, limit⟩ []
        (.commit 0 (List.range' claimed limit))⟩) := fun _ => rfl
  have commits : pollCycle
      ((World.crowd crew limit claimed (limit + queued)).lock worker
        (List.range' claimed limit)) worker
      ⟨worker, .claiming ⟨0, limit⟩ []
        (.commit 0 (List.range' claimed limit))⟩ (.claim .ok) =
      some (World.crowd crew limit (claimed + limit) queued,
        some ⟨worker, .launching [] (List.range' claimed limit)⟩) := by
    simp only [pollCycle, claimJobs, World.crowd.commit]
  exact (reaches_poll begins).trans ((reaches_poll selects).trans
    ((reaches_poll (updates _)).trans (reaches_poll commits)))

/-- The calls after the first `counted` workers have counted. -/
def countedCalls (limit counted : Nat) (call : CallId) : Option Call :=
  if call < counted then
    some (.poll ⟨call, .claiming ⟨0, limit⟩ [] (.beginTx limit)⟩)
  else none

/-- The calls after all workers have counted and the first `claimed` of them
have claimed. -/
def claimedCalls (limit crew claimed : Nat) (call : CallId) : Option Call :=
  if call < claimed then
    some (.poll ⟨call, .launching [] (List.range' (call * limit) limit)⟩)
  else countedCalls limit crew call

theorem countedCalls_succ (limit counted : Nat) :
    countedCalls limit (counted + 1) =
      Function.update (countedCalls limit counted) counted (some (.poll
        ⟨counted, .claiming ⟨0, limit⟩ [] (.beginTx limit)⟩)) := by
  funext call
  rw [Function.update_apply]
  unfold countedCalls
  by_cases same : call = counted
  · subst call
    rw [if_pos (Nat.lt_succ_self _), if_pos rfl]
  · have less : call < counted + 1 ↔ call < counted :=
      ⟨fun small => Nat.lt_of_le_of_ne (Nat.le_of_lt_succ small) same,
        Nat.lt_succ_of_lt⟩
    simp only [same, less, if_false]

theorem claimedCalls_of_lt {claimed : Nat} (less : claimed < crew) :
    claimedCalls limit crew claimed =
      Function.update (claimedCalls limit crew claimed) claimed (some (.poll
        ⟨claimed, .claiming ⟨0, limit⟩ [] (.beginTx limit)⟩)) := by
  rw [eq_comm, Function.update_eq_self_iff]
  unfold claimedCalls countedCalls
  rw [if_neg (Nat.lt_irrefl _), if_pos less]

theorem claimedCalls_succ (limit crew claimed : Nat) :
    claimedCalls limit crew (claimed + 1) =
      Function.update (claimedCalls limit crew claimed) claimed (some (.poll
        ⟨claimed, .launching [] (List.range' (claimed * limit) limit)⟩)) := by
  funext call
  rw [Function.update_apply]
  unfold claimedCalls
  by_cases same : call = claimed
  · subst call
    rw [if_pos (Nat.lt_succ_self _), if_pos rfl]
  · have less : call < claimed + 1 ↔ call < claimed :=
      ⟨fun small => Nat.lt_of_le_of_ne (Nat.le_of_lt_succ small) same,
        Nat.lt_succ_of_lt⟩
    simp only [same, less, if_false]

theorem reaches_counted (positive : 0 < limit) {counted : Nat}
    (few : counted ≤ crew) :
    Reaches (step env) (PolledBy (Finset.range crew))
      (World.crowd crew limit 0 queued).idle
      ⟨World.crowd crew limit 0 queued, countedCalls limit counted⟩ := by
  induction counted with
  | zero => exact .refl _
  | succ counted induction =>
      refine (induction (Nat.le_of_succ_le few)).trans ?_
      rw [countedCalls_succ]
      apply reaches_beginTx positive few (Finset.mem_range.mpr few)
      · exact if_neg (Nat.lt_irrefl _)
      · intro other value found
        unfold countedCalls at found
        split at found <;> cases found
        exact ⟨_, rfl, Nat.ne_of_lt ‹_›⟩

/-- Then each of them claims as many jobs as the limit allows. -/
theorem reaches_claimed (positive : 0 < limit) {claimed : Nat}
    (few : claimed ≤ crew) :
    Reaches (step env) (PolledBy (Finset.range crew))
      ⟨World.crowd crew limit 0 (crew * limit), countedCalls limit crew⟩
      ⟨World.crowd crew limit (claimed * limit) ((crew - claimed) * limit),
        claimedCalls limit crew claimed⟩ := by
  induction claimed with
  | zero =>
      rw [Nat.zero_mul, Nat.sub_zero]
      exact .refl _
  | succ claimed induction =>
      refine (induction (Nat.le_of_succ_le few)).trans ?_
      have rest : (crew - claimed) * limit =
          limit + (crew - (claimed + 1)) * limit := by
        have one : crew - claimed = crew - (claimed + 1) + 1 := by omega
        rw [one, Nat.add_mul, Nat.one_mul, Nat.add_comm]
      rw [rest, claimedCalls_of_lt few, claimedCalls_succ, Nat.add_mul,
        Nat.one_mul]
      exact reaches_launching positive

end Crowd

/-- For `crew` workers, each with one poll cycle at a time, and a queue with a
constant limit that starts with no job in flight: the jobs in flight never
exceed `crew` times the limit, and some run reaches that number. -/
theorem overshoot_tight (crew limit : Nat) :
    (∀ (env : Env) (start last : State)
      (trace : List (Transition State Action)) (queue : QueueId) (row : Queue)
      (workers : Finset WorkerId),
      Run (step env) start trace last → Initial start →
      workers.card = crew →
      (∀ transition ∈ trace, PolledBy workers transition) →
      start.world.queues.get? queue = some row →
      row.concurrencyLimit = limit →
      start.world.inFlight queue = 0 →
      last.world.inFlight queue ≤ crew * limit) ∧
    ∃ (env : Env) (start last : State)
      (trace : List (Transition State Action)) (queue : QueueId) (row : Queue)
      (workers : Finset WorkerId),
      Run (step env) start trace last ∧ Initial start ∧
      workers.card = crew ∧
      (∀ transition ∈ trace, PolledBy workers transition) ∧
      start.world.queues.get? queue = some row ∧
      row.concurrencyLimit = limit ∧
      start.world.inFlight queue = 0 ∧
      last.world.inFlight queue = crew * limit := by
  refine ⟨?_, ?_⟩
  · rintro env start last trace queue row workers run initial rfl polled found
      rfl free
    exact inFlight_le_card_mul run initial polled found free
  · have reached : ∃ last, Reaches (step .sample)
        (PolledBy (Finset.range crew))
        (World.crowd crew limit 0 (crew * limit)).idle last ∧
        last.world.inFlight 0 = crew * limit := by
      cases limit with
      | zero => exact ⟨_, .refl _, World.crowd.inFlight⟩
      | succ limit =>
          refine ⟨_, (reaches_counted (Nat.succ_pos _) (le_refl crew)).trans
            (reaches_claimed (Nat.succ_pos _) (le_refl crew)), ?_⟩
          exact World.crowd.inFlight
    obtain ⟨last, ⟨trace, run, polled⟩, full⟩ := reached
    exact ⟨.sample, _, last, trace, 0, _, Finset.range crew, run,
      World.idle_initial fun _ => rfl, Finset.card_range crew, polled, rfl, rfl,
      World.crowd.inFlight, full⟩

end Chronos
