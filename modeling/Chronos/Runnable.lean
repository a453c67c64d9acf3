import Chronos.Dormant
import Chronos.Service

/-!
# Delayed jobs and the claimer

The API stores `scheduled` for a `runAt` in the future, and the claimer selects
on `queued`.  No worker step connects the two, so a delayed job never becomes
runnable; a job that was due when it was submitted does, once its queue has a
slot: jobs in hand are served, and then the claims work through the queue until
they come to it.
-/

namespace Chronos

/-- Some sequence of worker steps ends with a `claimJobs` call that returns
the id of the job. -/
def Runnable (env : Env) (state : State) (job : JobId) : Prop :=
  ∃ trace last, Run (step env) state trace last ∧
    (∀ transition ∈ trace, transition.action.works = true) ∧
    ∃ transition ∈ trace, ∃ call ids,
      ClaimReturns transition call ids ∧ job ∈ ids

/-- Fewer jobs of the queue than its limit are in flight without a call that
has them in hand. -/
def HasSlot (state : State) (queue : QueueId) (limit : Nat) : Prop :=
  ∃ stranded : List JobId, stranded.length < limit ∧
    ∀ job row, state.world.jobs.get? job = some row →
      row.queueId = queue → row.status.inFlight = true →
      job ∉ stranded → state.carries job

/-- The job can be claimed as soon as a claim comes to it. -/
structure Ready (job : JobId) (row : Job) (queue : Queue) (worker : WorkerId)
    (state : State) : Prop where
  regular : Regular state
  found : state.world.jobs.get? job = some row
  queued : row.status = .queued
  due : row.runAt ≤ state.world.now
  source : state.world.queues.get? row.queueId = some queue
  active : queue.isPaused = false
  running : state.world.process worker = some .running

section Progress

variable {env : Env} {state next : State} {job : JobId} {row : Job}
  {queue : Queue} {worker : WorkerId}

theorem Ready.stopping (ready : Ready job row queue worker state) :
    state.world.stopping worker = false := by
  simp [World.stopping, ready.running]

theorem Ready.works (ready : Ready job row queue worker state)
    (works : Works env state next)
    (found : next.world.jobs.get? job = state.world.jobs.get? job)
    (now : next.world.now = state.world.now)
    (queues : next.world.queues = state.world.queues)
    (process : next.world.process = state.world.process) :
    Ready job row queue worker next where
  regular := ready.regular.works works
  found := found.trans ready.found
  queued := ready.queued
  due := now ▸ ready.due
  source := queues ▸ ready.source
  active := ready.active
  running := process ▸ ready.running

theorem Runnable.of_works (works : Works env state next)
    (runnable : Runnable env next job) : Runnable env state job := by
  obtain ⟨first, run, working⟩ := works
  obtain ⟨second, last, rest, restWorking, transition, member, returns⟩ :=
    runnable
  refine ⟨first ++ second, last, run.append rest, ?_, transition,
    List.mem_append_right _ member, returns⟩
  intro other inEither
  rcases List.mem_append.mp inEither with inFirst | inSecond
  · exact working other inFirst
  · exact restWorking other inSecond

/-! ## Freeing a slot -/

/-- Serving the jobs in hand brings the queue below its limit. -/
theorem free_slot (env : Env) {limit : Nat}
    (ready : Ready job row queue worker state)
    (slot : HasSlot state row.queueId limit) :
    ∃ last, Works env state last ∧ Ready job row queue worker last ∧
      last.world.inFlight row.queueId < limit := by
  obtain ⟨stranded, few, inHand⟩ := slot
  have reached : ∃ last, Works env state last ∧
      (Ready job row queue worker last ∧
        ∀ other held, last.world.jobs.get? other = some held →
          held.queueId = row.queueId → held.status.inFlight = true →
          other ∉ stranded → last.carries other) ∧
      last.world.inFlight row.queueId < limit := by
    refine Reaches.of_measure (fun state => state.world.inFlight row.queueId)
      ?_ ⟨ready, inHand⟩
    rintro state ⟨ready, inHand⟩ full
    -- More jobs are in flight than are stranded, so one of them is in hand.
    obtain ⟨other, member, held⟩ : ∃ other ∈ state.world.jobs.keysWhere
        (fun _ job => job.queueId = row.queueId && job.status.inFlight),
        other ∉ stranded := by
      by_contra none
      push Not at none
      have bound := ((state.world.jobs.nodup_keysWhere _).subperm
        none).length_le
      exact full (lt_of_le_of_lt bound few)
    obtain ⟨otherRow, found, counted⟩ := Table.mem_keysWhere.mp member
    have both := counted
    simp only [Bool.and_eq_true, decide_eq_true_eq] at both
    obtain ⟨last, works, spares, kept, after, foundAfter, ended⟩ :=
      serve env ready.regular found both.2
        (inHand other otherRow found both.1 both.2 held)
    have different : job ≠ other := by
      rintro rfl
      cases ready.found.symm.trans found
      rw [ready.queued] at both
      cases both.2
    have before : ∀ another present,
        last.world.jobs.get? another = some present →
        present.status.inFlight = true →
        another ≠ other ∧ state.world.jobs.get? another = some present := by
      intro another present foundAnother inFlight
      have apart : another ≠ other := by
        rintro rfl
        cases foundAfter.symm.trans foundAnother
        rw [ended] at inFlight
        cases inFlight
      exact ⟨apart, (spares.jobs apart).symm.trans foundAnother⟩
    refine ⟨last, works, ⟨?_, ?_⟩, ?_⟩
    · exact ready.works works (spares.jobs different) spares.now spares.queues
        spares.process
    · intro another present foundAnother ofQueue inFlight free
      obtain ⟨apart, old⟩ := before another present foundAnother inFlight
      exact kept another apart (inHand another present old ofQueue inFlight free)
    · refine Table.count_lt_of_imp ?_ found counted ?_
      · intro another present foundAnother holds
        have inFlight := (Bool.and_eq_true_iff.mp holds).2
        exact ⟨present, (before another present foundAnother inFlight).2, holds⟩
      · intro present foundOther
        cases foundAfter.symm.trans foundOther
        simp [ended]
  obtain ⟨last, works, ⟨ready, _⟩, below⟩ := reached
  exact ⟨last, works, ready, below⟩

/-! ## One claim -/

/-- A state in which this poll cycle has come to the given phase, with the
other calls as they were. -/
private def polling (world : World) (calls : CallId → Option Call)
    (cycle : CallId) (worker : WorkerId) (phase : PollPhase) : State :=
  ⟨world, Function.update calls cycle (some (.poll ⟨worker, phase⟩))⟩

section Cycle

variable {world world' : World} {calls : CallId → Option Call}
  {cycle : CallId} {phase phase' : PollPhase}

private theorem polling_works {input : PollInput}
    (result : pollCycle world cycle ⟨worker, phase⟩ input =
      some (world', some ⟨worker, phase'⟩)) :
    Works env (polling world calls cycle worker phase)
      (polling world' calls cycle worker phase') := by
  have taken : step env (polling world calls cycle worker phase)
      (.poll cycle input) =
        some (polling world' calls cycle worker phase') := by
    simp [step, polling, State.resume, result]
  exact Reaches.single taken rfl

private theorem works_to_select (env : Env)
    (ready : Ready job row queue worker state)
    (below : state.world.inFlight row.queueId < queue.concurrencyLimit) :
    ∃ cycle rest, state.calls cycle = none ∧
      Works env state (polling state.world state.calls cycle worker
        (.claiming ⟨row.queueId, queue.concurrencyLimit⟩ rest
          (.select
            (queue.concurrencyLimit - state.world.inFlight row.queueId)
            state.world.now))) := by
  obtain ⟨cycle, fresh⟩ := ready.regular.fresh
  have listed : row.queueId ∈ state.world.activeQueues :=
    Table.mem_keysWhere.mpr ⟨queue, ready.source, by simp [ready.active]⟩
  have order := (List.perm_cons_erase listed).symm
  have reference : state.world.queueRef row.queueId =
      some ⟨row.queueId, queue.concurrencyLimit⟩ := by
    simp [World.queueRef, ready.source]
  let rest := (state.world.activeQueues.erase row.queueId).filterMap
    state.world.queueRef
  have references : (row.queueId ::
      state.world.activeQueues.erase row.queueId).filterMap
        state.world.queueRef =
      ⟨row.queueId, queue.concurrencyLimit⟩ :: rest := by
    simp [reference, rest]
  have started : step env state (.startPoll cycle worker) =
      some (polling state.world state.calls cycle worker .fetchQueues) := by
    simp [step, ready.stopping, State.start, fresh, State.set, polling]
  have begin : Works env state
      (polling state.world state.calls cycle worker .fetchQueues) :=
    Reaches.single started rfl
  have fetched : pollCycle state.world cycle ⟨worker, .fetchQueues⟩
      (.queues (row.queueId :: state.world.activeQueues.erase row.queueId)) =
        some (state.world, some ⟨worker, .nextQueue
          (⟨row.queueId, queue.concurrencyLimit⟩ :: rest)⟩) := by
    simp [pollCycle, order, references]
  have entered : pollCycle state.world cycle ⟨worker, .nextQueue
      (⟨row.queueId, queue.concurrencyLimit⟩ :: rest)⟩ .next =
        some (state.world, some ⟨worker, .claiming
          ⟨row.queueId, queue.concurrencyLimit⟩ rest .count⟩) := by
    simp [pollCycle, ready.stopping]
  have counted : pollCycle state.world cycle ⟨worker, .claiming
      ⟨row.queueId, queue.concurrencyLimit⟩ rest .count⟩ (.claim .ok) =
        some (state.world, some ⟨worker, .claiming
          ⟨row.queueId, queue.concurrencyLimit⟩ rest (.beginTx
            (queue.concurrencyLimit -
              state.world.inFlight row.queueId))⟩) := by
    have free : ¬queue.concurrencyLimit -
        state.world.inFlight row.queueId = 0 := by omega
    simp [pollCycle, claimJobs, free]
  have begun : pollCycle state.world cycle ⟨worker, .claiming
      ⟨row.queueId, queue.concurrencyLimit⟩ rest (.beginTx
        (queue.concurrencyLimit - state.world.inFlight row.queueId))⟩
      (.claim .ok) =
        some (state.world, some ⟨worker, .claiming
          ⟨row.queueId, queue.concurrencyLimit⟩ rest (.select
            (queue.concurrencyLimit - state.world.inFlight row.queueId)
            state.world.now)⟩) := rfl
  exact ⟨cycle, rest, fresh, begin.trans
    (((polling_works fetched).trans (polling_works entered)).trans
      ((polling_works counted).trans (polling_works begun)))⟩

private theorem works_to_commit (env : Env) (source : QueueRef)
    {rest : List QueueRef} {available : Nat} {txNow : Time} {order : List JobId}
    (valid : world.ClaimOrder source.id txNow [] order)
    (nonempty : order.take available ≠ []) :
    Works env
      (polling world calls cycle worker
        (.claiming source rest (.select available txNow)))
      (polling (world.lock cycle (order.take available)) calls cycle worker
        (.claiming source rest (.update txNow (order.take available)))) ∧
    Works env
      (polling (world.lock cycle (order.take available)) calls cycle worker
        (.claiming source rest (.update txNow (order.take available))))
      (polling (((world.lock cycle (order.take available)).markClaimed txNow
          (order.take available)).unlock (order.take available)) calls cycle
        worker (.launching rest (order.take available))) := by
  constructor
  · have selected : pollCycle world cycle
        ⟨worker, .claiming source rest (.select available txNow)⟩
        (.claim (.rows order [])) =
          some (world.lock cycle (order.take available), some ⟨worker,
            .claiming source rest
              (.update txNow (order.take available))⟩) := by
      simp only [pollCycle, claimJobs, valid, if_true]
      cases shape : order.take available with
      | nil => exact (nonempty shape).elim
      | cons => rfl
    exact polling_works selected
  · have updated : pollCycle (world.lock cycle (order.take available)) cycle
        ⟨worker, .claiming source rest
          (.update txNow (order.take available))⟩ (.claim .ok) =
          some (world.lock cycle (order.take available), some ⟨worker,
            .claiming source rest
              (.commit txNow (order.take available))⟩) := rfl
    have committed : pollCycle (world.lock cycle (order.take available)) cycle
        ⟨worker, .claiming source rest
          (.commit txNow (order.take available))⟩ (.claim .ok) =
          some (((world.lock cycle (order.take available)).markClaimed txNow
            (order.take available)).unlock (order.take available),
            some ⟨worker, .launching rest (order.take available)⟩) := rfl
    exact (polling_works updated).trans (polling_works committed)

end Cycle

/-! ## Serving a batch -/

/-- The jobs of a batch have been completed, and other jobs are as they
were. -/
private structure BatchDone (ids : List JobId) (world next : World) : Prop where
  now : next.now = world.now
  queues : next.queues = world.queues
  process : next.process = world.process
  locks : next.locks = world.locks
  others : ∀ other, other ∉ ids →
    next.jobs.get? other = world.jobs.get? other
  completed : ∀ id ∈ ids, ∃ row, next.jobs.get? id = some row ∧
    row.status = .completed

private theorem serve_batch (env : Env) {cycle : CallId}
    {rest : List QueueRef} {ids : List JobId} (regular : Regular state)
    (called : state.calls cycle = some (.poll ⟨worker, .launching rest ids⟩))
    (running : state.world.stopping worker = false) (nodup : ids.Nodup)
    (inFlight : ∀ id ∈ ids, ∃ row, state.world.jobs.get? id = some row ∧
      row.status.inFlight = true) :
    ∃ last, Works env state last ∧ BatchDone ids state.world last.world := by
  induction ids generalizing state with
  | nil =>
      exact ⟨state, .refl _, rfl, rfl, rfl, rfl, fun _ _ => rfl, by simp⟩
  | cons next ids induction =>
      obtain ⟨fresh, distinct⟩ := List.nodup_cons.mp nodup
      obtain ⟨exec, absent⟩ := regular.fresh
      obtain ⟨launched, taken, world, isCycle, isExec, _⟩ :=
        step_launch env called running absent
      obtain ⟨row, found, flying⟩ := inFlight next List.mem_cons_self
      have writable := regular.writable found flying
      rw [← world] at writable
      have finishes : Finishes env exec next (· = .completed) launched :=
        .of_findJob isExec writable
      obtain ⟨served, works, spares, calls, after, foundAfter, completed⟩ :=
        finishes
      rw [world] at spares
      have begin : Works env state served :=
        Reaches.trans (Reaches.single taken rfl) works
      have different : cycle ≠ exec := by
        rintro rfl
        rw [called] at absent
        cases absent
      have apart : ∀ id ∈ ids, id ≠ next := by
        rintro id member rfl
        exact fresh member
      have stillRunning : served.world.stopping worker = false := by
        simpa [World.stopping, spares.process] using running
      have stillInFlight : ∀ id ∈ ids, ∃ row,
          served.world.jobs.get? id = some row ∧
            row.status.inFlight = true := by
        intro id member
        rw [spares.jobs (apart id member)]
        exact inFlight id (List.mem_cons_of_mem _ member)
      obtain ⟨last, restWorks, done⟩ := induction (regular.works begin)
        ((calls cycle different).trans isCycle) stillRunning distinct
        stillInFlight
      refine ⟨last, begin.trans restWorks, done.now.trans spares.now,
        done.queues.trans spares.queues, done.process.trans spares.process,
        done.locks.trans spares.locks, ?_, ?_⟩
      · intro other outside
        obtain ⟨notNext, notLater⟩ := not_or.mp
          (List.mem_cons.not.mp outside)
        exact (done.others other notLater).trans (spares.jobs notNext)
      · intro id member
        rcases List.mem_cons.mp member with rfl | later
        · exact ⟨after, (done.others id fresh).trans foundAfter, completed⟩
        · exact done.completed id later

/-! ## The claims come to the job -/

private theorem mem_claimable {world : World} {source : QueueId} {txNow : Time}
    {id : JobId} :
    id ∈ world.claimable source txNow [] ↔
      ∃ row, world.jobs.get? id = some row ∧
        ((row.queueId = source ∧ row.status = .queued) ∧
          row.runAt ≤ txNow) ∧ world.locks id = none := by
  simp [World.claimable, Table.mem_keysWhere]

private theorem claimable_length_lt {small large : World} {source : QueueId}
    {txNow : Time} {id : JobId}
    (included : ∀ other ∈ small.claimable source txNow [],
      other ∈ large.claimable source txNow [])
    (was : id ∈ large.claimable source txNow [])
    (lost : id ∉ small.claimable source txNow []) :
    (small.claimable source txNow []).length <
      (large.claimable source txNow []).length := by
  have distinct : (id :: small.claimable source txNow []).Nodup :=
    List.nodup_cons.mpr ⟨lost, small.jobs.nodup_keysWhere _⟩
  have within : (id :: small.claimable source txNow []) ⊆
      large.claimable source txNow [] := by
    intro other member
    rcases List.mem_cons.mp member with rfl | old
    · exact was
    · exact included other old
  exact (distinct.subperm within).length_le

private theorem claimed_jobs (world : World) (cycle : CallId) (txNow : Time)
    (ids : List JobId) (other : JobId) :
    (((world.lock cycle ids).markClaimed txNow ids).unlock ids).jobs.get?
        other =
      (world.jobs.get? other).map fun row =>
        if other ∈ ids then row.claim txNow else row :=
  World.get?_markClaimed (world.lock cycle ids) txNow ids other

private theorem claimed_locks (world : World) (cycle : CallId) (txNow : Time)
    {ids : List JobId} {other : JobId} (outside : other ∉ ids) :
    (((world.lock cycle ids).markClaimed txNow ids).unlock ids).locks other =
      world.locks other := by
  simp [World.unlock, World.markClaimed, World.lock, outside]

private theorem BatchDone.not_mem_of_queued {ids : List JobId}
    {world next : World} (done : BatchDone ids world next) {other : JobId}
    {row : Job} (found : next.jobs.get? other = some row)
    (waits : row.status ≠ .completed) : other ∉ ids := by
  intro inBatch
  obtain ⟨finished, foundFinished, completed⟩ := done.completed other inBatch
  cases found.symm.trans foundFinished
  exact waits completed

private theorem lock_round (world : World) (source : QueueId) (txNow : Time)
    (cycle : CallId) {ids : List JobId} {id : JobId} (member : id ∈ ids)
    (claimable : id ∈ world.claimable source txNow []) :
    ((world.lock cycle ids).claimable source txNow []).length <
      (world.claimable source txNow []).length := by
  apply claimable_length_lt _ claimable
  · intro still
    obtain ⟨_, _, _, free⟩ := mem_claimable.mp still
    simp [World.lock, member] at free
  · intro other still
    obtain ⟨row, found, waits, free⟩ := mem_claimable.mp still
    refine mem_claimable.mpr ⟨row, found, waits, ?_⟩
    simp only [World.lock] at free
    split at free
    · cases free
    · exact free

private theorem batch_round (env : Env)
    (ready : Ready job row queue worker state) {cycle : CallId}
    {rest : List QueueRef} {ids : List JobId} (nodup : ids.Nodup)
    (works : Works env state
      (polling (((state.world.lock cycle ids).markClaimed state.world.now
        ids).unlock ids) state.calls cycle worker (.launching rest ids)))
    (claimable : ∀ id ∈ ids,
      id ∈ state.world.claimable row.queueId state.world.now []) :
    ∃ last, Works env state last ∧ last.world.now = state.world.now ∧
      last.world.queues = state.world.queues ∧
      last.world.process = state.world.process ∧
      (∀ other, other ∉ ids →
        last.world.jobs.get? other = state.world.jobs.get? other ∧
        last.world.locks other = state.world.locks other) ∧
      ∀ other row, last.world.jobs.get? other = some row →
        row.status ≠ .completed → other ∉ ids := by
  have inFlight : ∀ id ∈ ids, ∃ row,
      (((state.world.lock cycle ids).markClaimed state.world.now ids).unlock
        ids).jobs.get? id = some row ∧ row.status.inFlight = true := by
    intro id member
    obtain ⟨old, found, _⟩ := mem_claimable.mp (claimable id member)
    refine ⟨old.claim state.world.now, ?_, rfl⟩
    rw [claimed_jobs, found]
    simp [member]
  have launching : (polling (((state.world.lock cycle ids).markClaimed
      state.world.now ids).unlock ids) state.calls cycle worker
        (.launching rest ids)).calls cycle =
      some (.poll ⟨worker, .launching rest ids⟩) :=
    Function.update_self ..
  obtain ⟨last, serving, done⟩ := serve_batch env
    (ready.regular.works works) launching ready.stopping nodup inFlight
  refine ⟨last, works.trans serving, done.now, done.queues, done.process, ?_,
    fun other row found waits => done.not_mem_of_queued found waits⟩
  intro other outside
  constructor
  · refine (done.others other outside).trans ?_
    simp only [polling, claimed_jobs, outside, if_false, Option.map_id']
  · rw [done.locks]
    exact claimed_locks state.world cycle state.world.now outside

/-- A claim from a queue below its limit locks the job, or completes some
jobs before it. -/
private theorem claim_round (ready : Ready job row queue worker state)
    (below : state.world.inFlight row.queueId < queue.concurrencyLimit)
    (unlocked : state.world.locks job = none) :
    ∃ next, Works env state next ∧
      (Ready job row queue worker next ∧
        next.world.inFlight row.queueId < queue.concurrencyLimit) ∧
      (next.world.claimable row.queueId next.world.now []).length <
        (state.world.claimable row.queueId state.world.now []).length := by
  obtain ⟨cycle, rest, fresh, toSelect⟩ :=
    works_to_select env ready below
  obtain ⟨order, valid⟩ := state.world.exists_claimOrder row.queueId
    state.world.now []
  have claimable : job ∈ state.world.claimable row.queueId state.world.now [] :=
    mem_claimable.mpr
      ⟨row, ready.found, ⟨⟨rfl, ready.queued⟩, ready.due⟩, unlocked⟩
  generalize chosen : order.take (queue.concurrencyLimit -
    state.world.inFlight row.queueId) = ids
  have nonempty : ids ≠ [] := by
    subst chosen
    have listed := valid.1.mem_iff.mpr claimable
    apply List.ne_nil_of_length_pos
    have positive := List.length_pos_of_mem listed
    rw [List.length_take]
    omega
  have wasClaimable : ∀ id ∈ ids,
      id ∈ state.world.claimable row.queueId state.world.now [] := by
    subst chosen
    exact fun id member => valid.1.mem_iff.mp (List.mem_of_mem_take member)
  have nodup : ids.Nodup := by
    subst chosen
    exact (valid.1.nodup_iff.mpr (state.world.jobs.nodup_keysWhere _)).sublist
      (List.take_sublist ..)
  obtain ⟨toLocked, toLaunching⟩ :=
    works_to_commit env ⟨row.queueId, queue.concurrencyLimit⟩ valid
      (chosen ▸ nonempty)
  rw [chosen] at toLocked toLaunching
  by_cases mine : job ∈ ids
  · have works := toSelect.trans toLocked
    exact ⟨_, works, ⟨ready.works works rfl rfl rfl rfl, below⟩,
      lock_round state.world row.queueId state.world.now cycle mine claimable⟩
  · obtain ⟨last, works, now, queues, process, others, outside⟩ :=
      batch_round env ready nodup
        (toSelect.trans (toLocked.trans toLaunching)) wasClaimable
    refine ⟨last, works, ⟨?_, ?_⟩, ?_⟩
    · exact ready.works works (others job mine).1 now queues process
    · refine lt_of_le_of_lt (Table.count_le_of_imp ?_) below
      intro other present found counted
      have apart : other ∉ ids := by
        apply outside other present found
        intro completed
        simp [completed, JobStatus.inFlight] at counted
      exact ⟨present, (others other apart).1 ▸ found, counted⟩
    · rw [now]
      have apart : ∀ other ∈
          last.world.claimable row.queueId state.world.now [],
          other ∉ ids := by
        intro other member
        obtain ⟨present, found, ⟨⟨_, queued⟩, _⟩, _⟩ := mem_claimable.mp member
        apply outside other present found
        rw [queued]
        rintro ⟨⟩
      obtain ⟨first, inBatch⟩ := List.exists_mem_of_ne_nil ids nonempty
      refine claimable_length_lt ?_ (wasClaimable first inBatch) ?_
      · intro other member
        obtain ⟨sameRow, sameLock⟩ := others other (apart other member)
        obtain ⟨present, found, holds⟩ := mem_claimable.mp member
        rw [sameRow] at found
        rw [sameLock] at holds
        exact mem_claimable.mpr ⟨present, found, holds⟩
      · exact fun member => apart first member inBatch

private theorem runnable_of_locked (regular : Regular state) {call : CallId}
    (locked : state.world.locks job = some call) : Runnable env state job := by
  have commits : ∀ {state : State} {poll : PollCall} {source : QueueRef}
      {rest : List QueueRef} {txNow : Time} {ids : List JobId},
      state.calls call = some (.poll poll) →
      poll.phase = .claiming source rest (.commit txNow ids) → job ∈ ids →
      Runnable env state job := by
    intro state poll source rest txNow ids called phase member
    obtain ⟨worker, phase'⟩ := poll
    cases phase
    obtain ⟨after, taken⟩ :
        ∃ after, step env state (.poll call (.claim .ok)) = some after := by
      simp [step, called, pollCycle, claimJobs, State.resume]
    exact ⟨_, after, .single taken, by simp [Action.works], _,
      List.mem_singleton_self _, call, ids, .of_commit taken called rfl,
      member⟩
  obtain ⟨tx, isOpen, member⟩ := (regular.locks.locks_iff job call).mp locked
  simp only [State.tx, Option.bind_eq_some_iff] at isOpen
  obtain ⟨value, called, isTx⟩ := isOpen
  cases value with
  | poll poll =>
      obtain ⟨worker, phase⟩ := poll
      cases phase with
      | claiming source rest phase =>
          cases phase with
          | select => cases isTx; cases member
          | update txNow ids =>
              cases isTx
              have taken : step env state (.poll call (.claim .ok)) =
                  some ⟨state.world, Function.update state.calls call
                    (some (.poll ⟨worker,
                      .claiming source rest (.commit txNow ids)⟩))⟩ := by
                simp [step, called, pollCycle, claimJobs, State.resume]
              have works : Works env state _ := Reaches.single taken rfl
              exact .of_works works
                (commits (Function.update_self ..) rfl member)
          | commit =>
              cases isTx
              exact commits called rfl member
          | _ => cases isTx
      | _ => cases isTx
  | _ => cases isTx

/-- A job that is queued and due is runnable once its queue has a slot. -/
theorem runnable_of_slot (ready : Ready job row queue worker state)
    (slot : HasSlot state row.queueId queue.concurrencyLimit) :
    Runnable env state job := by
  obtain ⟨middle, toMiddle, ready, below⟩ := free_slot env ready slot
  have reached : ∃ last, Works env middle last ∧
      (Ready job row queue worker last ∧
        last.world.inFlight row.queueId < queue.concurrencyLimit) ∧
      last.world.locks job ≠ none := by
    refine Reaches.of_measure (fun state =>
      (state.world.claimable row.queueId state.world.now []).length) ?_
      ⟨ready, below⟩
    rintro state ⟨ready, below⟩ unlocked
    exact claim_round ready below (not_not.mp unlocked)
  obtain ⟨last, toLast, ⟨ready, _⟩, isLocked⟩ := reached
  obtain ⟨call, locked⟩ := Option.ne_none_iff_exists'.mp isLocked
  exact .of_works (toMiddle.trans toLast)
    (runnable_of_locked ready.regular locked)

/-! ## The status the API stores -/

/-- Worker steps alone never claim a job that is `scheduled`. -/
theorem not_runnable_of_scheduled (regular : Regular state)
    (dormant : Dormant job state)
    (found : state.world.jobs.get? job = some row)
    (scheduled : row.status = .scheduled) : ¬Runnable env state job := by
  rintro ⟨trace, last, run, working, transition, member, call, ids, returns,
    inIds⟩
  have inv := run.invariant_before (fun state => Regular state ∧
    Dormant job state ∧ state.world.jobs.get? job = some row) working
    ⟨regular, dormant, found⟩ ?_ member
  · obtain ⟨⟨regular, _, found⟩, taken⟩ := inv
    have queued := returns.status_before taken regular.locks inIds
    simp [State.status?, found, scheduled] at queued
  · rintro ⟨before, action, after⟩ works taken ⟨regular, dormant, found⟩
    have unclaimed : Unclaimed job ⟨before, action, after⟩ := by
      intro claim claims member
      obtain ⟨call, source, rest, txNow, same, called⟩ :=
        Action.claims_eq_some claims
      subst same
      have returns := ClaimReturns.of_commit taken called rfl
      have queued := returns.status_before taken regular.locks member
      simp [State.status?, found, scheduled] at queued
    have uncancelled : action.commitsCancel before ≠ some job := by
      intro cancels
      cases action <;> first | cases works; done | cases cancels
    refine ⟨regular.step taken, dormant.step ?_ taken unclaimed,
      dormant.keeps taken unclaimed uncancelled found⟩
    intro other present
    cases found.symm.trans present
    rw [scheduled]
    rfl

end Progress

/-- The jobs that the API inserts in this step for one-shot requests, alone or
in a batch, with the `runAt` of each request. -/
def Action.submits (state : State) : Action → List (JobId × Option Time)
  | .api call (.created ids) =>
      match state.calls call with
      | some (.submit ⟨_, body, .createJob _ _⟩) =>
          ids.map fun job => (job, body.runAt)
      | some (.batch ⟨_, jobs, .createJobs _ _ _⟩) =>
          (ids.zip jobs).map fun entry => (entry.1, entry.2.runAt)
      | _ => []
  | _ => []

/-- The step inserted the job's row, computed from its request at a reading of
the clock. -/
structure Inserted (state next : State) (job : JobId) (runAt : Option Time)
    (reading : Time) (row : Job) : Prop where
  absent : state.world.jobs.get? job = none
  found : next.world.jobs.get? job = some row
  dueAt : row.runAt = runAt.getD reading
  stored : row.status = submittedStatus (runAt.getD reading) reading

section Submission

variable {env : Env} {start last state next : State} {action : Action}
  {earlier later : List (Transition State Action)}
  {creation : Transition State Action} {job : JobId} {row : Job}
  {queue : Queue} {runAt : Option Time}

theorem createJobs_inserts {world next : World} {rows : List (JobId × Job)}
    (created : world.createJobs rows = some next) {id : JobId} {row : Job}
    (member : (id, row) ∈ rows) :
    world.jobs.get? id = none ∧
      next.jobs.get? id = some (row.stamped world.now) := by
  induction rows generalizing world with
  | nil => cases member
  | cons head rows induction =>
      obtain ⟨first, firstRow⟩ := head
      obtain ⟨middle, success, rest⟩ :=
        World.createJobs_cons_eq_some.mp created
      obtain ⟨frame, fresh, lookup⟩ := World.createJob_spec success
      rcases List.mem_cons.mp member with same | later
      · cases same
        refine ⟨fresh, World.createJobs_preserves rest ?_⟩
        rw [lookup, if_pos rfl]
      · obtain ⟨absent, found⟩ := induction rest later
        rw [lookup] at absent
        split at absent
        · cases absent
        · refine ⟨absent, ?_⟩
          rw [found, frame]

private theorem submitJob_created {world next : World} {call' : SubmitCall}
    {queueId : QueueId} {body : CreateJobBody} {ids : List JobId}
    (success : submitJob world ⟨queueId, body, .createJob queue row⟩
      (.created ids) = some (next, call')) :
    ∃ id, ids = [id] ∧ world.createJob id row = some next := by
  obtain ⟨phase', rfl, case⟩ := submitJob_cases success
  cases case with
  | jobCreated created => exact ⟨_, rfl, created⟩

private theorem submitBatch_created {world next : World} {call' : BatchCall}
    {queueId : QueueId} {jobs : List BatchJobBody} {batchId : String}
    {rows : List Job} {ids : List JobId}
    (success : submitBatch world
      ⟨queueId, jobs, .createJobs queue batchId rows⟩ (.created ids) =
        some (next, call')) :
    world.createJobs (ids.zip rows) = some next := by
  obtain ⟨phase', rfl, case⟩ := submitBatch_cases success
  cases case with
  | created _ created => exact created

theorem inserted_of_submits {reads : CallId → Time → Prop}
    (inv : RowsInv reads state)
    (taken : step env state action = some next)
    (submits : (job, runAt) ∈ action.submits state) :
    ∃ call reading row, action.actor = some call ∧ reads call reading ∧
      Inserted state next job runAt reading row := by
  unfold Action.submits at submits
  split at submits
  · rename_i call ids
    cases step_cases taken with
    | started starts => cases starts
    | api called' _ handled =>
        split at submits
        · rename_i queueId body queue row called
          obtain ⟨target, member, same⟩ := List.mem_map.mp submits
          cases same
          obtain ⟨reading, read, computed⟩ := inv.submit called rfl
          cases called.symm.trans called'
          cases handle_cases handled with
          | submit success =>
              obtain ⟨id, rfl, created⟩ := submitJob_created success
              cases List.mem_singleton.mp member
              obtain ⟨_, absent, lookup⟩ := World.createJob_spec created
              refine ⟨call, reading, _, rfl, read, absent,
                (lookup job).trans (if_pos rfl), ?_, ?_⟩
              · rw [computed]
                rfl
              · rw [computed]
                rfl
        · rename_i queueId jobs queue batchId rows called
          obtain ⟨⟨target, body⟩, member, same⟩ := List.mem_map.mp submits
          cases same
          obtain ⟨reading, read, computed⟩ := inv.batch called rfl
          cases called.symm.trans called'
          cases handle_cases handled with
          | batch success =>
              have inserted : (target, body.job queueId queue batchId reading) ∈
                  ids.zip rows := by
                rw [computed, BatchCall.jobData, List.zip_map_right]
                exact List.mem_map.mpr ⟨_, member, rfl⟩
              obtain ⟨absent, found⟩ :=
                createJobs_inserts (submitBatch_created success) inserted
              exact ⟨call, reading, _, rfl, read, absent, found, rfl, rfl⟩
        · cases submits
  · cases submits

/-- Until a claim or a cancel, a submitted job stays as the API stored it. -/
private theorem dormant_of_submits
    (run : Run (step env) start (earlier ++ creation :: later) last)
    (initial : Initial start) (references : start.world.References)
    (submits : (job, runAt) ∈ creation.action.submits creation.before)
    (untouched : ∀ transition ∈ later, Unclaimed job transition ∧
      transition.action.commitsCancel transition.before ≠ some job) :
    ∃ call reading row, creation.action.actor = some call ∧
      ReadsClock earlier call reading ∧ Dormant job last ∧
      last.world.jobs.get? job = some row ∧
      row.runAt = runAt.getD reading ∧
      row.status = submittedStatus (runAt.getD reading) reading := by
  obtain ⟨toCreation, created, afterCreation⟩ := run.around
  obtain ⟨call, reading, row, own, read, inserted⟩ :=
    inserted_of_submits (RowsInv.run toCreation initial) created submits
  have waiting : row.status.cancellable = true := by
    rw [inserted.stored]
    rcases submittedStatus_cases (runAt.getD reading) reading with
      queued | scheduled
    · rw [queued]
      rfl
    · rw [scheduled]
      rfl
  have unclaimed : Unclaimed job creation := by
    intro claim claims
    obtain ⟨_, _, _, _, isPoll, _⟩ := Action.claims_eq_some claims
    rw [isPoll] at submits
    cases submits
  have dormant : Dormant job creation.after := by
    refine Dormant.step
      (.of_absent toCreation initial references inserted.absent) ?_ created
      unclaimed
    intro other found
    rw [inserted.absent] at found
    cases found
  obtain ⟨dormant, found⟩ :=
    dormant.run afterCreation inserted.found waiting untouched
  exact ⟨call, reading, row, own, read, dormant, found, inserted.dueAt,
    inserted.stored⟩

/-- A submitted job that nobody has touched is runnable only if it was due
when it was submitted, and then it is, provided that a worker runs and its
queue has a slot. -/
theorem delayed_runnable
    (run : Run (step env) start (earlier ++ creation :: later) last)
    (initial : Initial start) (references : start.world.References)
    (submits : (job, runAt) ∈ creation.action.submits creation.before)
    (untouched : ∀ transition ∈ later, Unclaimed job transition ∧
      transition.action.commitsCancel transition.before ≠ some job)
    (found : last.world.jobs.get? job = some row)
    (source : last.world.queues.get? row.queueId = some queue)
    (active : queue.isPaused = false) (due : row.runAt ≤ last.world.now) :
    ∃ call reading, creation.action.actor = some call ∧
      ReadsClock earlier call reading ∧ row.runAt = runAt.getD reading ∧
      row.status = submittedStatus (runAt.getD reading) reading ∧
      (Runnable env last job → runAt.getD reading ≤ reading) ∧
      (runAt.getD reading ≤ reading →
        (∃ worker, last.world.process worker = some .running) →
        HasSlot last row.queueId queue.concurrencyLimit →
        Runnable env last job) := by
  obtain ⟨call, reading, row', own, read, dormant, found', dueAt, stored⟩ :=
    dormant_of_submits run initial references submits untouched
  cases found.symm.trans found'
  have regular := Regular.run run initial
  refine ⟨call, reading, own, read, dueAt, stored, ?_, ?_⟩
  · intro runnable
    rcases submittedStatus_cases (runAt.getD reading) reading with
      queued | scheduled
    · exact submittedStatus_eq_queued_iff.mp queued
    · exact (not_runnable_of_scheduled regular dormant found
        (stored.trans scheduled) runnable).elim
  · rintro wasDue ⟨worker, running⟩ slot
    have queued := stored.trans (submittedStatus_eq_queued_iff.mpr wasDue)
    have ready : Ready job row queue worker last :=
      ⟨regular, found, queued, due, source, active, running⟩
    exact runnable_of_slot ready slot

/-- A queue whose jobs in flight are all in hand has a slot. -/
theorem hasSlot_of_carries {limit : Nat} {source : QueueId}
    (positive : 0 < limit)
    (inHand : ∀ {job row}, state.world.jobs.get? job = some row →
      row.queueId = source → row.status.inFlight = true →
      state.carries job) :
    HasSlot state source limit := by
  refine ⟨[], positive, ?_⟩
  intro job row found ofQueue inFlight _
  exact inHand found ofQueue inFlight

theorem State.carries_of_executes {call : CallId}
    (executes : state.executes call job)
    (owns : state.holdsIn (fun phase => phase.owns && !phase.buries) call
      job) : state.carries job := by
  obtain ⟨value, called, isExec⟩ := executes
  obtain ⟨value', called', holds⟩ := owns
  cases Option.some.inj (called.symm.trans called')
  cases value with
  | exec running =>
      have phase := holds.2
      rw [Bool.and_eq_true, Bool.not_eq_true'] at phase
      refine ⟨call, _, called, isExec, phase.1, ?_⟩
      intro buries
      rw [phase.2] at buries
      cases buries
  | _ => cases isExec

theorem hasSlot_of_inFlight {limit : Nat} {source : QueueId}
    (below : state.world.inFlight source < limit) :
    HasSlot state source limit := by
  refine ⟨_, below, ?_⟩
  intro job row found ofQueue inFlight outside
  exact (outside (Table.mem_keysWhere.mpr
    ⟨row, found, by simp [ofQueue, inFlight]⟩)).elim

private theorem sample_references (limit : Nat) (jobs : Table JobId Job) :
    (World.sample limit jobs).References := by
  intro id execution found
  cases found

/-- A job submitted without `runAt` while the queue's only slot is taken: the
job that has it is in hand. -/
theorem delayed_runnable_at_once :
    ∃ trace last, Run (step .sample)
      (World.sample 1 ⟨[(8, .sample .queued)], by decide⟩).idle trace last ∧
      last.status? 7 = some .queued ∧ last.world.inFlight 0 = 1 ∧
      Runnable .sample last 7 := by
  obtain ⟨trace, last, run, ⟨creation, isCreation, submits⟩, calm,
      ⟨row, found, ofQueue, due⟩, ⟨queue, source, active, limit⟩, others,
      executes, owns, running, queued, full⟩ :=
    exists_run_of_check (step .sample)
      (World.sample 1 ⟨[(8, .sample .queued)], by decide⟩).idle
      [.request 3 (.submit 0 ⟨"echo", [], none, none, none, none, none⟩),
        .api 3 .ok, .api 3 (.created [7]),
        .startPoll 1 1, .poll 1 (.queues [0]), .poll 1 .next,
        .poll 1 (.claim .ok), .poll 1 (.claim .ok),
        .poll 1 (.claim (.rows [8, 7] [])), .poll 1 (.claim .ok),
        .poll 1 (.claim .ok), .launch 1 4, .exec 4 .ok, .exec 4 .ok]
      (fun trace last =>
        (∃ creation ∈ (trace.drop 2).head?,
          (7, none) ∈ creation.action.submits creation.before) ∧
        (∀ transition ∈ trace.drop 3,
          (∀ claim ∈ transition.action.claims transition.before,
            7 ∉ claim.2) ∧
          transition.action.commitsCancel transition.before ≠ some 7) ∧
        (∃ row ∈ last.world.jobs.get? 7,
          row.queueId = 0 ∧ row.runAt ≤ last.world.now) ∧
        (∃ queue ∈ last.world.queues.get? 0,
          queue.isPaused = false ∧ queue.concurrencyLimit = 1) ∧
        (∀ entry ∈ last.world.jobs.rows,
          entry.2.status.inFlight = true → entry.1 = 8) ∧
        last.executes 4 8 ∧
        last.holdsIn (fun phase => phase.owns && !phase.buries) 4 8 ∧
        last.world.process 1 = some .running ∧
        last.status? 7 = some .queued ∧ last.world.inFlight 0 = 1)
      (by decide)
  refine ⟨trace, last, run, queued, full, ?_⟩
  rw [List.eq_take_append_cons isCreation] at run
  rw [← ofQueue] at source
  have slot : HasSlot last row.queueId queue.concurrencyLimit := by
    apply hasSlot_of_carries (by rw [limit]; exact Nat.one_pos)
    intro job row found _ inFlight
    have isOther := others _ (Table.mem_rows_iff.mpr found) inFlight
    change job = 8 at isOther
    rw [isOther]
    exact State.carries_of_executes executes owns
  obtain ⟨call, reading, _, _, _, _, _, enough⟩ :=
    delayed_runnable run (World.idle_initial fun _ => rfl)
      (sample_references 1 _) submits calm found source active due
  exact enough le_rfl ⟨1, running⟩ slot

/-- A job submitted at 0 for 5000 is still `scheduled` at 10000, with a free
slot and a running worker, and no worker step will ever claim it. -/
theorem delayed_job_stuck :
    ¬∀ (env : Env) (start last : State)
      (earlier later : List (Transition State Action))
      (creation : Transition State Action) (job : JobId)
      (runAt : Option Time) (row : Job) (queue : Queue),
      Run (step env) start (earlier ++ creation :: later) last →
      Initial start → start.world.References →
      (job, runAt) ∈ creation.action.submits creation.before →
      (∀ transition ∈ later, Unclaimed job transition ∧
        transition.action.commitsCancel transition.before ≠ some job) →
      last.world.jobs.get? job = some row →
      last.world.queues.get? row.queueId = some queue →
      queue.isPaused = false → row.runAt ≤ last.world.now →
      (∃ worker, last.world.process worker = some .running) →
      HasSlot last row.queueId queue.concurrencyLimit →
      Runnable env last job := by
  intro becomes
  obtain ⟨trace, last, run, ⟨creation, isCreation, submits⟩, calm,
      ⟨row, found, ofQueue, due, scheduled⟩,
      ⟨queue, source, active, limit⟩, below, running⟩ :=
    exists_run_of_check (step .sample) (World.sample 2 .empty).idle
      [.request 3 (.submit 0
          ⟨"echo", [], some 5000, none, none, none, none⟩),
        .api 3 .ok, .api 3 (.created [7]), .advance 10000]
      (fun trace last =>
        (∃ creation ∈ (trace.drop 2).head?,
          (7, some 5000) ∈ creation.action.submits creation.before) ∧
        (∀ transition ∈ trace.drop 3,
          transition.action.claims transition.before = none ∧
          transition.action.commitsCancel transition.before ≠ some 7) ∧
        (∃ row ∈ last.world.jobs.get? 7, row.queueId = 0 ∧
          row.runAt ≤ last.world.now ∧ row.status = .scheduled) ∧
        (∃ queue ∈ last.world.queues.get? 0,
          queue.isPaused = false ∧ queue.concurrencyLimit = 2) ∧
        last.world.inFlight 0 < 2 ∧
        last.world.process 1 = some .running)
      (by decide)
  have untouched : ∀ transition ∈ trace.drop 3, Unclaimed 7 transition ∧
      transition.action.commitsCancel transition.before ≠ some 7 := by
    intro transition member
    obtain ⟨none, uncancelled⟩ := calm transition member
    refine ⟨?_, uncancelled⟩
    intro claim claims
    rw [none] at claims
    cases claims
  rw [List.eq_take_append_cons isCreation] at run
  rw [← ofQueue] at source
  have initial : Initial (World.sample 2 .empty).idle :=
    World.idle_initial fun _ => rfl
  have references := sample_references 2 .empty
  have runnable := becomes _ _ _ _ _ _ _ _ _ _ run initial references submits
    untouched found source active due ⟨1, running⟩
    (hasSlot_of_inFlight (by rw [ofQueue, limit]; exact below))
  obtain ⟨_, _, _, _, _, dormant, _⟩ :=
    dormant_of_submits run initial references submits untouched
  exact not_runnable_of_scheduled (Regular.run run initial) dormant found
    scheduled runnable

end Submission

end Chronos
