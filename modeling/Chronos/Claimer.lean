import Chronos.World

/-!
# Claiming jobs

`worker/src/claimer.ts`.  A `claimJobs` call counts the jobs in flight outside
any transaction, then opens a transaction that selects rows with
`FOR UPDATE SKIP LOCKED`, flips their status and commits.  Each await of the
source is one phase; the input says how the awaited call ends.

The select names the rows in the order the database returns them.  `order`
must list the rows of its `WHERE` clause that are not locked, sorted by
priority and `run_at` with ties broken in any way.  `skip` lists rows that
are passed over because a statement that the model runs as one step holds
their lock at that moment.
-/

namespace Chronos

namespace Job

/-- `SET status = 'claimed', updated_at = now()`. -/
def claim (txNow : Time) (job : Job) : Job :=
  { job with status := .claimed, updatedAt := txNow }

end Job

namespace World

def lock (world : World) (call : CallId) (ids : List JobId) : World :=
  { world with
    locks := fun job => if job ∈ ids then some call else world.locks job }

def unlock (world : World) (ids : List JobId) : World :=
  { world with locks := fun job => if job ∈ ids then none else world.locks job }

/-- The rows of the locking select before `ORDER BY` and `LIMIT`. -/
def claimable (world : World) (queue : QueueId) (txNow : Time)
    (skip : List JobId) : List JobId :=
  world.jobs.keysWhere fun id job =>
    job.queueId = queue && job.status = .queued && decide (job.runAt ≤ txNow) &&
      (world.locks id).isNone && decide (id ∉ skip)

/-- The columns of `ORDER BY priority DESC, run_at ASC`. -/
def claimKey (world : World) (id : JobId) : Int × Time :=
  match world.jobs.get? id with
  | some job => (job.priority, job.runAt)
  | none => (0, 0)

def claimsBefore (world : World) (first second : JobId) : Prop :=
  (world.claimKey second).1 < (world.claimKey first).1 ∨
    (world.claimKey second).1 = (world.claimKey first).1 ∧
      (world.claimKey first).2 ≤ (world.claimKey second).2

instance (world : World) (first second : JobId) :
    Decidable (world.claimsBefore first second) :=
  inferInstanceAs (Decidable (_ ∨ _ ∧ _))

/-- The database may return the rows of the locking select in this order. -/
def ClaimOrder (world : World) (queue : QueueId) (txNow : Time)
    (skip order : List JobId) : Prop :=
  order.Perm (world.claimable queue txNow skip) ∧
    order.Pairwise world.claimsBefore

instance (world : World) (queue : QueueId) (txNow : Time)
    (skip order : List JobId) :
    Decidable (world.ClaimOrder queue txNow skip order) :=
  inferInstanceAs (Decidable (_ ∧ _))

theorem claimsBefore_trans (world : World) {first second third : JobId}
    (left : world.claimsBefore first second)
    (right : world.claimsBefore second third) :
    world.claimsBefore first third := by
  unfold claimsBefore at *
  generalize world.claimKey first = firstKey at *
  generalize world.claimKey second = secondKey at *
  generalize world.claimKey third = thirdKey at *
  obtain ⟨firstPriority, firstRun⟩ := firstKey
  obtain ⟨secondPriority, secondRun⟩ := secondKey
  obtain ⟨thirdPriority, thirdRun⟩ := thirdKey
  dsimp only [Time] at *
  omega

theorem claimsBefore_total (world : World) (first second : JobId) :
    world.claimsBefore first second ∨ world.claimsBefore second first := by
  unfold claimsBefore
  generalize world.claimKey first = firstKey
  generalize world.claimKey second = secondKey
  obtain ⟨firstPriority, firstRun⟩ := firstKey
  obtain ⟨secondPriority, secondRun⟩ := secondKey
  dsimp only [Time] at *
  omega

/-- The locking select can return its rows in some order. -/
theorem exists_claimOrder (world : World) (queue : QueueId) (txNow : Time)
    (skip : List JobId) :
    ∃ order, world.ClaimOrder queue txNow skip order := by
  let before (first second : JobId) : Bool :=
    decide (world.claimsBefore first second)
  refine ⟨(world.claimable queue txNow skip).mergeSort before,
    List.mergeSort_perm .., ?_⟩
  have sorted : ((world.claimable queue txNow skip).mergeSort before).Pairwise
      fun first second => before first second = true := by
    apply List.pairwise_mergeSort
    · intro first second third left right
      have trans := world.claimsBefore_trans (of_decide_eq_true left)
        (of_decide_eq_true right)
      exact decide_eq_true trans
    · intro first second
      simpa [before] using world.claimsBefore_total first second
  exact sorted.imp of_decide_eq_true

/-- `UPDATE jobs SET status = 'claimed' ... WHERE id = ANY(ids)`, with no
condition on the status. -/
def markClaimed (world : World) (txNow : Time) (ids : List JobId) : World :=
  { world with
    jobs := world.jobs.mapRows fun id job =>
      if id ∈ ids then job.claim txNow else job }

end World

/-- What `pollCycle` passes to `claimJobs`, as read from the queue's row. -/
structure QueueRef where
  id : QueueId
  concurrencyLimit : Nat

/-- What a `claimJobs` call awaits. -/
inductive ClaimPhase where
  | count
  | beginTx (available : Nat)
  | select (available : Nat) (txNow : Time)
  | update (txNow : Time) (ids : List JobId)
  | commit (txNow : Time) (ids : List JobId)

inductive ClaimInput where
  | ok
  | fail
  | rows (order skip : List JobId)

inductive ClaimResult where
  | awaiting (phase : ClaimPhase)
  | returned (ids : List JobId)
  | threw

/-- One step of `claimJobs`.  A failing call inside the transaction rolls it
back, which releases the locks; the count is not covered by the `try`. -/
def claimJobs (world : World) (call : CallId) (queue : QueueRef) :
    ClaimPhase → ClaimInput → Option (World × ClaimResult)
  | .count, .ok =>
      let available := queue.concurrencyLimit - world.inFlight queue.id
      if available = 0 then some (world, .returned [])
      else some (world, .awaiting (.beginTx available))
  | .count, .fail => some (world, .threw)
  | .beginTx available, .ok =>
      some (world, .awaiting (.select available world.now))
  | .beginTx _, .fail => some (world, .returned [])
  | .select available txNow, .rows order skip =>
      if world.ClaimOrder queue.id txNow skip order then
        match order.take available with
        | [] => some (world, .awaiting (.commit txNow []))
        | id :: ids =>
            some (world.lock call (id :: ids),
              .awaiting (.update txNow (id :: ids)))
      else none
  | .select _ _, .fail => some (world, .returned [])
  | .update txNow ids, .ok => some (world, .awaiting (.commit txNow ids))
  | .update _ ids, .fail => some (world.unlock ids, .returned [])
  | .commit txNow ids, .ok =>
      some ((world.markClaimed txNow ids).unlock ids, .returned ids)
  | .commit _ ids, .fail => some (world.unlock ids, .returned [])
  | _, _ => none

end Chronos
