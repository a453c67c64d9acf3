import Chronos.Ownership
import Chronos.PollCycles

/-!
# The concurrency limit

`claimJobs` counts the jobs in flight before its transaction begins.  A row
takes up a slot of its queue from the locking select on, but it is counted only
after the commit, so the count can be stale when the select runs.  This file
shows that the limit holds in every run in which the claims of the queue stay
apart between count and commit, and that it fails without that.
-/

namespace Chronos

namespace World

/-- The jobs of the queue that are in flight or locked by an open claim. -/
def engaged (world : World) (queue : QueueId) : Nat :=
  world.jobs.count fun id job =>
    job.queueId = queue && (job.status.inFlight || (world.locks id).isSome)

theorem inFlight_le_engaged (world : World) (queue : QueueId) :
    world.inFlight queue ≤ world.engaged queue := by
  apply Table.count_le_of_imp
  intro id job found counted
  refine ⟨job, found, ?_⟩
  simp only [Bool.and_eq_true, decide_eq_true_eq] at counted
  simp [counted.1, counted.2]

end World

namespace Action

/-- A step of a poll cycle or of `executeJob`, or an event of the clock or of
a worker process. -/
def byWorker : Action → Bool
  | .advance _ => true
  | .register _ => true
  | .heartbeat _ => true
  | .stopPoller _ => true
  | .drain _ => true
  | .retire _ => true
  | .exit _ => true
  | .startPoll _ _ => true
  | .poll _ _ => true
  | .launch _ _ => true
  | .exec _ _ => true
  | _ => false

/-- The step changes the concurrency limit of the queue. -/
def setsLimit (queue : QueueId) : Action → Bool
  | .updateQueue id patch => id = queue && patch.concurrencyLimit.isSome
  | _ => false

/-- A claim counts the jobs of this queue in flight. -/
def counts (state : State) (queue : QueueId) : Action → Bool
  | .poll call (.claim .ok) =>
      match state.calls call with
      | some (.poll ⟨_, .claiming ref _ .count⟩) => ref.id = queue
      | _ => false
  | _ => false

/-- The rows of this queue that the locking select of this step takes. -/
def selected (state : State) (queue : QueueId) : Action → List JobId
  | .poll call (.claim (.rows order _)) =>
      match state.calls call with
      | some (.poll ⟨_, .claiming ref _ (.select available _)⟩) =>
          if ref.id = queue then order.take available else []
      | _ => []
  | _ => []

end Action

namespace PollPhase

/-- The free slots of the queue that a claim in this phase has counted, if it
has not selected its rows yet. -/
def available (queue : QueueId) : PollPhase → Option Nat
  | .claiming ref _ (.beginTx available) =>
      if ref.id = queue then some available else none
  | .claiming ref _ (.select available _) =>
      if ref.id = queue then some available else none
  | _ => none

end PollPhase

namespace State

/-- The call is a claim on the queue between its count and its select. -/
def counted (state : State) (queue : QueueId) (call : CallId) : Bool :=
  match state.calls call with
  | some (.poll poll) => (poll.phase.available queue).isSome
  | _ => false

/-- The call is a claim on the queue that has selected rows and not ended. -/
def tookRows (state : State) (queue : QueueId) (call : CallId) : Bool :=
  (state.tx call).any fun tx => tx.queue.id = queue && tx.ids ≠ []

end State

/-- The call stays apart from the other claims on the queue: when one of them
counts, it has no rows selected, and when one of them selects rows, it is not
between its own count and its select. -/
def ClaimsApart (queue : QueueId) (transition : Transition State Action)
    (call : CallId) : Prop :=
  (transition.action.counts transition.before queue = true →
    transition.before.tookRows queue call = false) ∧
  (transition.action.selected transition.before queue ≠ [] →
    transition.action.actor ≠ some call →
    transition.before.counted queue call = false)

instance (queue : QueueId) (transition : Transition State Action)
    (call : CallId) : Decidable (ClaimsApart queue transition call) :=
  inferInstanceAs (Decidable ((_ → _ = _) ∧ (_ → _ → _ = _)))

/-- The limit of the queue is constant, and the cycles have read it. -/
structure LimitRead (limit : Nat) (queue : QueueId) (state : State) :
    Prop where
  row : ∀ row, state.world.queues.get? queue = some row →
    row.concurrencyLimit = limit
  refs : ∀ call poll, state.calls call = some (.poll poll) →
    ∀ ref ∈ poll.phase.ahead, ref.id = queue → ref.concurrencyLimit = limit

/-- The rows in flight or locked leave the slots free that each claim has
counted. -/
structure SlotsFree (limit : Nat) (queue : QueueId) (state : State) :
    Prop where
  engaged : state.world.engaged queue ≤ limit
  counted : ∀ call poll available, state.calls call = some (.poll poll) →
    poll.phase.available queue = some available →
    state.world.engaged queue + available ≤ limit

section Steps

variable {env : Env} {start last state next : State} {action : Action}
  {trace : List (Transition State Action)} {limit : Nat} {queue : QueueId}

theorem outsideWrite_of_byWorker (byWorker : action.byWorker = true) :
    action.outsideWrite state = none := by
  cases action <;> first | rfl | cases byWorker

private theorem mem_selected {job : JobId} {row : Job} {call : CallId}
    {poll : PollCall} {ref : QueueRef} {rest : List QueueRef}
    {available : Nat} {txNow : Time} {order skip : List JobId}
    (called : state.calls call = some (.poll poll))
    (phase : poll.phase = .claiming ref rest (.select available txNow))
    (valid : state.world.ClaimOrder ref.id txNow skip order)
    (member : job ∈ order.take available)
    (found : state.world.jobs.get? job = some row)
    (inQueue : row.queueId = queue) :
    job ∈ (Action.poll call (.claim (.rows order skip))).selected state queue := by
  obtain ⟨worker, _⟩ := poll
  subst phase
  obtain ⟨claimed, foundClaimed, holds⟩ := Table.mem_keysWhere.mp
    (valid.1.mem_iff.mp (List.mem_of_mem_take member))
  cases found.symm.trans foundClaimed
  simp only [Bool.and_eq_true, decide_eq_true_eq] at holds
  have same : ref.id = queue := by rw [← holds.1.1.1.1, inQueue]
  simpa [Action.selected, called, same] using member

/-- A job that is in flight after a step of a worker was in flight before it,
or its claim commits. -/
theorem inFlight_step
    (ownership : Ownership (fun status => !status.inFlight) state)
    (byWorker : action.byWorker = true) {job : JobId} {row row' : Job}
    (found : state.world.jobs.get? job = some row)
    (change : row' = row ∨ JobWrite state job action row row')
    (inFlight : row'.status.inFlight = true) :
    row.status.inFlight = true ∨
      ∃ call poll ref rest txNow ids, action = .poll call (.claim .ok) ∧
        state.calls call = some (.poll poll) ∧
        poll.phase = .claiming ref rest (.commit txNow ids) ∧ job ∈ ids := by
  rcases change with rfl | write
  · exact .inl inFlight
  · cases write with
    | claim called phase member =>
        exact .inr ⟨_, _, _, _, _, _, rfl, called, phase, member⟩
    | @markRunning call _ _ _ _ called target phase _ =>
        left
        have held : state.holds call job := by
          refine ⟨_, called, target, ?_⟩
          rw [phase]
          rfl
        obtain ⟨status, same, busy⟩ := ownership.status held
        simp only [State.status?, found, Option.map_some, Option.some.injEq]
          at same
        simpa [same] using busy
    | complete => cases inFlight
    | retry => cases inFlight
    | deadLetter => cases inFlight
    | requeueOrphan => cases byWorker
    | resetForRetry => cases byWorker
    | cancel => cases byWorker

theorem row_before (taken : step env state action = some next)
    (byWorker : action.byWorker = true) {job : JobId} {row' : Job}
    (found' : next.world.jobs.get? job = some row') :
    ∃ row, state.world.jobs.get? job = some row ∧
      row.queueId = row'.queueId ∧
      (row' = row ∨ JobWrite state job action row row') := by
  cases found : state.world.jobs.get? job with
  | none => cases step_created taken found found' <;> cases byWorker
  | some row =>
      obtain ⟨row'', found'', change⟩ := step_job taken found
      cases found'.symm.trans found''
      exact ⟨row, rfl, (step_columns taken found found').queueId.symm, change⟩

/-- A step of a worker engages no job but those it selects. -/
private theorem engaged_step (locks : LockInv state)
    (ownership : Ownership (fun status => !status.inFlight) state)
    (taken : step env state action = some next)
    (byWorker : action.byWorker = true) :
    next.world.engaged queue ≤
      state.world.engaged queue + (action.selected state queue).length := by
  apply Table.count_le_add_length
  intro job row' found' counted notSelected
  simp only [Bool.and_eq_true, Bool.or_eq_true, decide_eq_true_eq] at counted
  obtain ⟨inQueue, busy⟩ := counted
  obtain ⟨row, found, sameQueue, change⟩ := row_before taken byWorker found'
  rw [inQueue] at sameQueue
  have wasBusy : row.status.inFlight = true ∨
      (state.world.locks job).isSome = true := by
    rcases busy with inFlight | locked
    · rcases inFlight_step ownership byWorker found change inFlight with
        before | ⟨call, poll, ref, rest, txNow, ids, rfl, called, phase,
          member⟩
      · exact .inl before
      · have isOpen : state.tx call = some ⟨ref, txNow, ids⟩ := by
          simp [State.tx, called, Call.tx, phase, PollPhase.tx]
        right
        rw [(locks.locks_iff job call).mpr ⟨_, isOpen, member⟩]
        rfl
    · obtain ⟨call, held⟩ := Option.isSome_iff_exists.mp locked
      rcases step_locks taken held with old | ⟨poll, ref, rest, available,
        txNow, order, skip, rfl, called, phase, valid, member, _⟩
      · exact .inr (by rw [old]; rfl)
      · exact (notSelected (mem_selected called phase valid member found
          sameQueue)).elim
  exact ⟨row, found, by simpa [sameQueue] using wasBusy⟩

theorem setsLimit_of_byWorker (byWorker : action.byWorker = true) :
    action.setsLimit queue = false := by
  cases action <;> first | rfl | cases byWorker

theorem step_limit (taken : step env state action = some next)
    (constant : action.setsLimit queue = false) {row' : Queue}
    (found' : next.world.queues.get? queue = some row') :
    ∃ row, state.world.queues.get? queue = some row ∧
      row.concurrencyLimit = row'.concurrencyLimit := by
  have kept : next.world.queues = state.world.queues →
      ∃ row, state.world.queues.get? queue = some row ∧
        row.concurrencyLimit = row'.concurrencyLimit := by
    intro same
    rw [same] at found'
    exact ⟨row', found', rfl⟩
  cases step_cases taken with
  | registered success =>
      obtain ⟨_, _, rfl⟩ := World.registerWorker_eq_some success
      exact kept rfl
  | @queueUpdated id patch =>
      simp only [World.updateQueue, Table.get?_modify] at found'
      obtain ⟨row, found, rfl⟩ := Option.map_eq_some_iff.mp found'
      refine ⟨row, found, ?_⟩
      split
      · rename_i same
        have unset : patch.concurrencyLimit = none := by
          simpa [Action.setsLimit, same] using constant
        simp [Queue.patch, unset]
      · rfl
  | poll _ case => exact kept (by rw [case.frame])
  | exec _ case => exact kept (by rw [case.frame])
  | reap _ case => exact kept (by rw [case.frame])
  | tick _ case => exact kept (by rw [case.frame])
  | api _ case => exact kept (by rw [case.frame])
  | _ => exact kept rfl

namespace LimitRead

theorem initial (initial : Initial start)
    (known : ∀ row, start.world.queues.get? queue = some row →
      row.concurrencyLimit = limit) : LimitRead limit queue start where
  row := known
  refs call poll called := by
    rw [initial.calls call] at called
    cases called

theorem step (read : LimitRead limit queue state)
    (taken : Chronos.step env state action = some next)
    (constant : action.setsLimit queue = false) :
    LimitRead limit queue next := by
  constructor
  · intro row' found'
    obtain ⟨row, found, same⟩ := step_limit taken constant found'
    exact same.symm.trans (read.row row found)
  · intro call poll' found ref ahead same
    rcases step_ahead taken found with
      ⟨poll, called, -, fewer⟩ | empty | ⟨order, -, -, list⟩
    · exact read.refs call poll called ref (fewer.subset ahead) same
    · rw [empty] at ahead
      cases ahead
    · rw [list] at ahead
      obtain ⟨id, -, isRef⟩ := List.mem_filterMap.mp ahead
      obtain ⟨row, found, rfl⟩ := Option.map_eq_some_iff.mp isRef
      subst same
      exact read.row row found

theorem run (read : LimitRead limit queue start)
    (run : Run (Chronos.step env) start trace last)
    (constant : ∀ transition ∈ trace,
      transition.action.setsLimit queue = false) :
    LimitRead limit queue last := by
  apply run.invariant (LimitRead limit queue) constant read
  intro transition constant taken read
  exact read.step taken constant

end LimitRead

/-- A count that no claim with selected rows overlaps counts all rows that are
in flight or locked. -/
private theorem engaged_le_inFlight (locks : LockInv state)
    (apart : ∀ call, state.tookRows queue call = false) :
    state.world.engaged queue ≤ state.world.inFlight queue := by
  apply Table.count_le_of_imp
  intro job row found counted
  simp only [Bool.and_eq_true, Bool.or_eq_true, decide_eq_true_eq] at counted
  obtain ⟨inQueue, busy⟩ := counted
  refine ⟨row, found, ?_⟩
  rcases busy with inFlight | locked
  · simp [inQueue, inFlight]
  · obtain ⟨call, held⟩ := Option.isSome_iff_exists.mp locked
    obtain ⟨tx, isOpen, member⟩ := (locks.locks_iff job call).mp held
    obtain ⟨lockedRow, lockedFound, -, ofQueue, -⟩ :=
      (locks.sound call tx isOpen).rows job member
    cases found.symm.trans lockedFound
    have sameQueue : tx.queue.id = queue := ofQueue.symm.trans inQueue
    have taken := apart call
    simp [State.tookRows, isOpen, sameQueue, List.ne_nil_of_mem member] at taken

theorem PollStep.available {world next : World} {call : CallId}
    {poll poll' : PollCall} {input : PollInput} {available : Nat}
    (case : PollStep world call poll input next (some poll'))
    (counted : poll'.phase.available queue = some available) :
    poll.phase.available queue = some available ∨
      ∃ ref rest, input = .claim .ok ∧ poll.phase = .claiming ref rest .count ∧
        ref.id = queue ∧
        available = ref.concurrencyLimit - world.inFlight queue := by
  cases case with
  | counted phase =>
      simp only [PollPhase.available, Option.ite_none_right_eq_some,
        Option.some.injEq] at counted
      obtain ⟨rfl, rfl⟩ := counted
      exact .inr ⟨_, _, rfl, phase, rfl, rfl⟩
  | begun phase =>
      left
      rw [phase]
      exact counted
  | _ => cases counted

private theorem step_available (taken : step env state action = some next)
    {call : CallId} {poll' : PollCall} {available : Nat}
    (found : next.calls call = some (.poll poll'))
    (counted : poll'.phase.available queue = some available) :
    (∃ poll, state.calls call = some (.poll poll) ∧
      poll.phase.available queue = some available) ∨
    ∃ worker ref rest, action = .poll call (.claim .ok) ∧
      state.calls call = some (.poll ⟨worker, .claiming ref rest .count⟩) ∧
      ref.id = queue ∧
      available = ref.concurrencyLimit - state.world.inFlight queue := by
  generalize same : Call.poll poll' = value at found
  cases step_call taken found with
  | kept called =>
      subst same
      exact .inl ⟨poll', called, counted⟩
  | started starts =>
      cases starts with
      | poll =>
          cases same
          cases counted
      | request =>
          rename_i request
          cases request <;> cases same
      | _ => cases same
  | handedOver =>
      cases same
      cases counted
  | @poll poll _ _ _ called case =>
      cases same
      rcases case.available counted with
        before | ⟨ref, rest, rfl, phase, inQueue, room⟩
      · exact .inl ⟨poll, called, before⟩
      · obtain ⟨worker, _⟩ := poll
        subst phase
        exact .inr ⟨worker, ref, rest, rfl, called, inQueue, room⟩
  | api _ case =>
      subst same
      cases case.requests.2
  | _ => cases same

private theorem step_selected (taken : step env state action = some next)
    (selects : action.selected state queue ≠ []) :
    ∃ call poll available, action.actor = some call ∧
      state.calls call = some (.poll poll) ∧
      poll.phase.available queue = some available ∧
      (action.selected state queue).length ≤ available ∧
      (∀ poll', next.calls call = some (.poll poll') →
        poll'.phase.available queue = none) ∧
      ∀ other, other ≠ call → next.calls other = state.calls other := by
  unfold Action.selected at selects ⊢
  split at selects
  case h_2 => exact (selects rfl).elim
  rename_i call order skip
  split at selects
  case h_2 => exact (selects rfl).elim
  rename_i worker ref rest available txNow called
  split at selects
  case isFalse => exact (selects rfl).elim
  rename_i inQueue
  obtain ⟨world, poll', case, rfl⟩ := step_poll taken called
  have counted : PollPhase.available queue
      (.claiming ref rest (.select available txNow)) = some available := by
    simp [PollPhase.available, inQueue]
  refine ⟨call, _, available, rfl, called, counted, ?_, ?_, ?_⟩
  · simp only [if_pos inQueue]
    exact List.length_take_le _ _
  · intro after found
    dsimp only at found
    rw [Function.update_self] at found
    cases case with
    | selected =>
        cases found
        rfl
    | selectedNone =>
        cases found
        rfl
  · intro other different
    exact Function.update_of_ne different ..

theorem SlotsFree.step (free : SlotsFree limit queue state)
    (locks : LockInv state)
    (ownership : Ownership (fun status => !status.inFlight) state)
    (read : LimitRead limit queue state)
    (taken : Chronos.step env state action = some next)
    (byWorker : action.byWorker = true)
    (apart : ∀ call, ClaimsApart queue ⟨state, action, next⟩ call) :
    SlotsFree limit queue next := by
  have grows : next.world.engaged queue ≤ _ :=
    engaged_step locks ownership taken byWorker
  by_cases selects : action.selected state queue = []
  · rw [selects, List.length_nil, Nat.add_zero] at grows
    refine ⟨grows.trans free.engaged, ?_⟩
    intro call poll' available found counted
    rcases step_available taken found counted with
      ⟨poll, called, before⟩ | ⟨worker, ref, rest, rfl, called, inQueue, room⟩
    · exact (Nat.add_le_add_right grows _).trans
        (free.counted call poll available called before)
    · -- No locked row escapes the count.
      have isLimit : ref.concurrencyLimit = limit :=
        read.refs call _ called ref (.head _) inQueue
      have counts :
          Action.counts state queue (.poll call (.claim .ok)) = true := by
        simp [Action.counts, called, inQueue]
      have current := engaged_le_inFlight locks fun other =>
        (apart other).1 counts
      have least := World.inFlight_le_engaged state.world queue
      have most := free.engaged
      omega
  · obtain ⟨call, poll, available, acts, called, counted, few, spent, others⟩ :=
      step_selected taken selects
    have room := free.counted call poll available called counted
    have fits : next.world.engaged queue ≤ limit := by omega
    refine ⟨fits, ?_⟩
    intro other poll' rest found counted'
    by_cases same : other = call
    · subst same
      rw [spent poll' found] at counted'
      cases counted'
    · -- The others are not between count and select.
      rw [others other same] at found
      have idle := (apart other).2 selects (by
        rw [acts]
        exact fun same' => same (Option.some.inj same').symm)
      simp [State.counted, found, counted'] at idle

/-- For a queue with a constant limit: the limit holds in every state of every
run of claims and executions in which the claims on the queue stay apart
between count and commit. -/
theorem concurrency_limit_kept (run : Run (step env) start trace last)
    (initial : Initial start)
    (workers : ∀ transition ∈ trace, transition.action.byWorker = true)
    {row : Queue} (found : start.world.queues.get? queue = some row)
    (apart : ∀ transition ∈ trace, ∀ call, ClaimsApart queue transition call)
    (bounded : start.world.inFlight queue ≤ row.concurrencyLimit) :
    last.world.inFlight queue ≤ row.concurrencyLimit := by
  have unlocked : start.world.engaged queue = start.world.inFlight queue := by
    simp [World.engaged, World.inFlight, initial.locks]
  have free : SlotsFree row.concurrencyLimit queue start := by
    refine ⟨unlocked ▸ bounded, ?_⟩
    intro call poll _ called
    rw [initial.calls call] at called
    cases called
  have known : LimitRead row.concurrencyLimit queue start := by
    apply LimitRead.initial initial
    intro row' found'
    cases found.symm.trans found'
    rfl
  have all : LockInv last ∧
      Ownership (fun status => !status.inFlight) last ∧
      LimitRead row.concurrencyLimit queue last ∧
      SlotsFree row.concurrencyLimit queue last := by
    refine run.invariant
      (fun state => LockInv state ∧
        Ownership (fun status => !status.inFlight) state ∧
        LimitRead row.concurrencyLimit queue state ∧
        SlotsFree row.concurrencyLimit queue state)
      (fun transition member =>
        And.intro (workers transition member) (apart transition member))
      ⟨.initial initial, .initial initial, known, free⟩ ?_
    rintro transition ⟨byWorker, apart⟩ taken ⟨locks, ownership, read, free⟩
    refine ⟨locks.step taken, ?_, read.step taken (setsLimit_of_byWorker byWorker),
      free.step locks ownership read taken byWorker apart⟩
    apply ownership.step notInFlight_idle locks taken
    intro call write written
    simp only [outsideWrite_of_byWorker byWorker] at written
    cases written
  exact (World.inFlight_le_engaged _ _).trans all.2.2.2.engaged

/-- Two workers share a queue with two slots. -/
theorem concurrency_limit_kept_shared :
    ∃ trace last,
      Run (step .sample)
        (World.sample 2 ⟨[(7, .sample .queued), (8, .sample .queued),
          (9, .sample .queued)], by decide⟩).idle trace last ∧
      last.status? 7 = some .running ∧ last.status? 8 = some .claimed ∧
      last.world.inFlight 0 ≤ 2 := by
  obtain ⟨trace, last, run, workers, checked, running, claimed⟩ :=
    exists_run_of_check (step .sample)
      (World.sample 2 ⟨[(7, .sample .queued), (8, .sample .queued),
        (9, .sample .queued)], by decide⟩).idle
      [.startPoll 1 1, .poll 1 (.queues [0]), .poll 1 .next,
        .startPoll 2 2, .poll 2 (.queues [0]), .poll 2 .next,
        .poll 1 (.claim .ok), .poll 1 (.claim .ok),
        .poll 1 (.claim (.rows [7] [8, 9])), .poll 1 (.claim .ok),
        .poll 1 (.claim .ok), .launch 1 3, .exec 3 .ok, .exec 3 .ok,
        .poll 2 (.claim .ok), .poll 2 (.claim .ok),
        .poll 2 (.claim (.rows [8, 9] [])), .poll 2 (.claim .ok),
        .poll 2 (.claim .ok)]
      (fun trace last =>
        (∀ transition ∈ trace, transition.action.byWorker = true) ∧
        ChecksCalls 4 (ClaimsApart 0) trace ∧
        last.status? 7 = some .running ∧ last.status? 8 = some .claimed)
      (by decide)
  have initial : Initial (World.sample 2 ⟨[(7, .sample .queued),
      (8, .sample .queued), (9, .sample .queued)], by decide⟩).idle :=
    World.idle_initial fun _ => rfl
  have apart := checked.forall_calls run initial (by
    intro transition call absent
    simp [ClaimsApart, State.tookRows, State.tx, State.counted, absent])
  exact ⟨trace, last, run, running, claimed,
    concurrency_limit_kept run initial workers rfl apart (by decide)⟩

/-- Without the condition the limit fails: two workers count no job in flight
and each claims one. -/
theorem concurrency_limit_exceeded :
    ¬∀ (env : Env) (start last : State)
      (trace : List (Transition State Action)) (queue : QueueId)
      (row : Queue),
      Run (step env) start trace last → Initial start →
      (∀ transition ∈ trace, transition.action.byWorker = true) →
      start.world.queues.get? queue = some row → 1 ≤ row.concurrencyLimit →
      start.world.inFlight queue ≤ row.concurrencyLimit →
      last.world.inFlight queue ≤ row.concurrencyLimit := by
  intro kept
  obtain ⟨trace, last, run, workers, exceeded⟩ :=
    exists_run_of_check (step .sample)
      (World.sample 1 ⟨[(7, .sample .queued), (8, .sample .queued)],
        by decide⟩).idle
      [.startPoll 1 1, .poll 1 (.queues [0]), .poll 1 .next,
        .startPoll 2 2, .poll 2 (.queues [0]), .poll 2 .next,
        .poll 1 (.claim .ok), .poll 2 (.claim .ok),
        .poll 1 (.claim .ok), .poll 1 (.claim (.rows [7, 8] [])),
        .poll 1 (.claim .ok), .poll 1 (.claim .ok),
        .poll 2 (.claim .ok), .poll 2 (.claim (.rows [8] [])),
        .poll 2 (.claim .ok), .poll 2 (.claim .ok)]
      (fun trace last =>
        (∀ transition ∈ trace, transition.action.byWorker = true) ∧
        last.world.inFlight 0 = 2) (by decide)
  have bounded := kept _ _ last trace 0 _ run
    (World.idle_initial fun _ => rfl) workers rfl (by decide) (by decide)
  rw [exceeded] at bounded
  exact absurd bounded (by decide)

end Steps

end Chronos
