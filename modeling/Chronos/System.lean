import Chronos.Heartbeat
import Chronos.Jobs
import Chronos.Lib.Trace
import Chronos.Poller
import Chronos.Executor
import Chronos.Scheduler
import Mathlib.Logic.Function.Basic

/-!
# The whole system

Any number of calls are in progress at once: poll cycles, `executeJob` calls,
reap cycles, scheduler ticks and API requests.  One action lets one call take
one step, starts a call, or is an event of a process or of the clock, so runs
are all interleavings.  A call that has settled is forgotten, except for API
requests, which keep their answer.  A column that the source fills with
`new Date()` as it sends a write gets the clock of the step in which the write
commits.
-/

namespace Chronos

/-- What the deployment fixes: the heartbeat TTL and the packages of the
scheduler. -/
structure Env where
  heartbeatTtlSeconds : Int
  library : SchedulerLibrary

inductive Call where
  | poll (call : PollCall)
  | exec (call : ExecCall)
  | reap (call : ReapCall)
  | tick (call : TickCall)
  | submit (call : SubmitCall)
  | batch (call : BatchCall)
  | retry (call : RetryCall)
  | cancel (call : CancelCall)

/-- The worker process a call runs in; API requests have none. -/
def Call.worker : Call → Option WorkerId
  | .poll call => some call.workerId
  | .exec call => some call.workerId
  | .reap call => some call.workerId
  | .tick call => some call.workerId
  | _ => none

structure State where
  world : World
  calls : CallId → Option Call

/-- The fields of `PATCH /queues/:id`; the other columns of a queue never
change. -/
structure QueuePatch where
  concurrencyLimit : Option Nat
  isPaused : Option Bool

/-- An API request as its handler receives it. -/
inductive Request where
  | submit (queueId : QueueId) (body : CreateJobBody)
  | batch (queueId : QueueId) (jobs : List BatchJobBody)
  | retry (jobId : JobId)
  | cancel (jobId : JobId)

inductive Action where
  | advance (now : Time)
  | register (worker : WorkerId)
  | heartbeat (worker : WorkerId)
  | stopPoller (worker : WorkerId)
  | drain (worker : WorkerId)
  | retire (worker : WorkerId)
  | exit (worker : WorkerId)
  | updateQueue (queue : QueueId) (patch : QueuePatch)
  | startPoll (call : CallId) (worker : WorkerId)
  | poll (call : CallId) (input : PollInput)
  | launch (call exec : CallId)
  | exec (call : CallId) (input : ExecInput)
  | startReap (call : CallId) (worker : WorkerId)
  | reap (call : CallId) (input : ReapInput)
  | startTick (call : CallId) (worker : WorkerId)
  | tick (call : CallId) (input : TickInput)
  | request (call : CallId) (request : Request)
  | api (call : CallId) (input : ApiInput)

namespace Queue

def patch (patch : QueuePatch) (queue : Queue) : Queue :=
  { queue with
    concurrencyLimit := patch.concurrencyLimit.getD queue.concurrencyLimit
    isPaused := patch.isPaused.getD queue.isPaused }

end Queue

namespace World

def setProcess (world : World) (worker : WorkerId) (process : Process) :
    World :=
  { world with
    process := Function.update world.process worker (some process) }

/-- `prisma.worker.create`; the id is new. -/
def registerWorker (world : World) (worker : WorkerId) : Option World :=
  (world.workers.insert? worker
      ⟨.active, world.now, world.now⟩).map fun workers =>
    ({ world with workers := workers }).setProcess worker .running

def updateQueue (world : World) (queue : QueueId) (patch : QueuePatch) :
    World :=
  { world with queues := world.queues.modify queue (Queue.patch patch) }

/-- The process takes steps: it has started and not ended. -/
def alive (world : World) (worker : WorkerId) : Bool :=
  world.process worker = some .running || world.process worker = some .stopping

end World

namespace State

def set (state : State) (call : CallId) (value : Option Call) : State :=
  { state with calls := Function.update state.calls call value }

/-- A call of this worker process. -/
def belongs (state : State) (worker : WorkerId) (call : CallId) : Bool :=
  (state.calls call).any fun value => value.worker = some worker

/-- The end of a worker process: its calls stop where they are, and the
database rolls back its open transactions. -/
def exitWorker (state : State) (worker : WorkerId) : State where
  world :=
    { state.world.setProcess worker .exited with
      locks := fun job =>
        if (state.world.locks job).any (state.belongs worker) then none
        else state.world.locks job }
  calls := fun call =>
    if state.belongs worker call then none else state.calls call

/-- Begin a call under a fresh identifier. -/
def start (state : State) (call : CallId) (value : Call) : Option State :=
  if (state.calls call).isNone then some (state.set call (some value)) else none

/-- Put the result of a call's step back into the state. -/
def resume {κ : Type} (state : State) (call : CallId) (wrap : κ → Call)
    (result : Option (World × Option κ)) : Option State :=
  result.map fun next =>
    { world := next.1
      calls := Function.update state.calls call (next.2.map wrap) }

end State

def Request.begin : Request → Call
  | .submit queueId body => .submit ⟨queueId, body, .findQueue⟩
  | .batch queueId jobs => .batch ⟨queueId, jobs, .findQueue⟩
  | .retry jobId => .retry ⟨jobId, .findJob⟩
  | .cancel jobId => .cancel ⟨jobId, .findJob⟩

/-- One step of an API request; requests never forget their answer. -/
def handle (world : World) (call : Call) (input : ApiInput) :
    Option (World × Call) :=
  match call with
  | .submit call => (submitJob world call input).map (Prod.map id .submit)
  | .batch call => (submitBatch world call input).map (Prod.map id .batch)
  | .retry call => (retryJob world call input).map (Prod.map id .retry)
  | .cancel call => (cancelJob world call input).map (Prod.map id .cancel)
  | _ => none

/-- `executeJob(jobId, workerId)` for the next claimed id of a poll cycle. -/
def launch (state : State) (call exec : CallId) : Option State :=
  match state.calls call with
  | some (.poll poll) =>
      match poll.phase with
      | .launching rest (job :: ids) =>
          if state.world.stopping poll.workerId then none
          else
            (state.set call
              (some (.poll { poll with phase := .launching rest ids }))).start
              exec (.exec ⟨job, poll.workerId, .findJob⟩)
      | _ => none
  | _ => none

def step (env : Env) (state : State) : Action → Option State
  | .advance now =>
      if state.world.now ≤ now then
        some { state with world := { state.world with now := now } }
      else none
  | .register worker =>
      (state.world.registerWorker worker).map fun world =>
        { state with world := world }
  | .heartbeat worker =>
      if state.world.alive worker then
        some { state with world := state.world.recordHeartbeat worker }
      else none
  | .stopPoller worker =>
      if state.world.alive worker then
        some { state with world := state.world.setProcess worker .stopping }
      else none
  | .drain worker =>
      if state.world.process worker = some .stopping then
        some { state with world := state.world.setWorkerStatus worker .draining }
      else none
  | .retire worker =>
      if state.world.process worker = some .stopping then
        some { state with world := state.world.setWorkerStatus worker .dead }
      else none
  | .exit worker =>
      if state.world.alive worker then some (state.exitWorker worker) else none
  | .updateQueue queue patch =>
      some { state with world := state.world.updateQueue queue patch }
  | .startPoll call worker =>
      if state.world.stopping worker then none
      else state.start call (.poll ⟨worker, .fetchQueues⟩)
  | .poll call input =>
      match state.calls call with
      | some (.poll poll) =>
          state.resume call .poll (pollCycle state.world call poll input)
      | _ => none
  | .launch call exec => launch state call exec
  | .exec call input =>
      match state.calls call with
      | some (.exec exec) =>
          state.resume call .exec (executeJob state.world exec input)
      | _ => none
  | .startReap call worker =>
      if state.world.alive worker then
        state.start call (.reap ⟨worker,
          .findStale (state.world.now - env.heartbeatTtlSeconds * 1000)⟩)
      else none
  | .reap call input =>
      match state.calls call with
      | some (.reap cycle) =>
          state.resume call .reap (reap state.world cycle input)
      | _ => none
  | .startTick call worker =>
      if state.world.alive worker then
        state.start call (.tick ⟨worker, .findDue state.world.now⟩)
      else none
  | .tick call input =>
      match state.calls call with
      | some (.tick ticker) =>
          state.resume call .tick (tick env.library state.world ticker input)
      | _ => none
  | .request call request => state.start call request.begin
  | .api call input =>
      match state.calls call with
      | some request =>
          (handle state.world request input).map fun next =>
            { world := next.1
              calls := Function.update state.calls call (some next.2) }
      | none => none

/-- A state in which no call is in progress and no row is locked.  The tables
hold anything. -/
structure Initial (state : State) : Prop where
  calls : ∀ call, state.calls call = none
  locks : ∀ job, state.world.locks job = none

/-! ## A small deployment

One queue and two workers, on which concrete runs can be evaluated. -/

/-- A parser for which every expression fires once a minute. -/
def CronLibrary.everyMinute : CronLibrary where
  nextRun _ now := some (some (now + 60000))
  later := by
    intro _ now next fires
    simp only [Option.some.injEq] at fires
    rw [← fires]
    exact Int.lt_add_of_pos_right _ (by decide)

/-- The client drops the fraction of a number, and refuses one that does not
fit into the column. -/
def int32Column (value : Rat) : Option Int :=
  let whole := value.num.tdiv value.den
  if -2147483648 ≤ whole ∧ whole < 2147483648 then some whole else none

def SchedulerLibrary.ofCron (cron : CronLibrary) : SchedulerLibrary where
  toCronLibrary := cron
  priority := int32Column
  int32 := by
    intro value low high
    simp [int32Column, low, high]

def Env.sample : Env := ⟨15, .ofCron .everyMinute⟩

def Draw.zero : Draw := ⟨0, le_rfl, by decide⟩

/-- The actions of a poll cycle of one queue that ends with these ids
claimed. -/
def claimActions (call : CallId) (worker : WorkerId) (ids : List JobId) :
    List Action :=
  [.startPoll call worker, .poll call (.queues [0]), .poll call .next,
    .poll call (.claim .ok), .poll call (.claim .ok),
    .poll call (.claim (.rows ids [])), .poll call (.claim .ok),
    .poll call (.claim .ok)]

/-- The actions of an `executeJob` call up to its handler. -/
def executeActions (call exec : CallId) (execution : ExecutionId) :
    List Action :=
  [.launch call exec, .exec exec .ok, .exec exec .ok, .exec exec .ok,
    .exec exec (.created execution)]

/-- A request to cancel a job, up to its answer. -/
def cancelActions (call : CallId) (job : JobId) : List Action :=
  [.request call (.cancel job), .api call .ok, .api call .ok, .api call .ok]

/-- A request to retry a job, up to its answer. -/
def retryActions (call : CallId) (job : JobId) : List Action :=
  [.request call (.retry job), .api call .ok, .api call .ok, .api call .ok]

/-- A worker exits without draining, and at `now` another one begins a reap
cycle. -/
def crashActions (worker : WorkerId) (now : Time) (cycle : CallId)
    (reaper : WorkerId) : List Action :=
  [.exit worker, .advance now, .heartbeat reaper, .startReap cycle reaper]

/-- The actions of a reap cycle that finds one worker, which has one
unfinished execution and one job. -/
def reapActions (cycle : CallId) (worker : WorkerId)
    (execution : ExecutionId) (job : JobId) : List Action :=
  [.reap cycle (.rows [worker]), .reap cycle .ok,
    .reap cycle (.rows [execution]), .reap cycle (.rows [job]),
    .reap cycle .ok, .reap cycle .ok, .reap cycle .ok]

def Job.sample (status : JobStatus) : Job where
  queueId := 0
  type := "echo"
  payload := .null
  status := status
  priority := 0
  runAt := 0
  batchId := none
  attemptCount := 0
  retryPolicyId := none
  idempotencyKey := none
  createdAt := 0
  updatedAt := 0

/-- Workers 1 and 2 run; queue 0 has this limit and retries after a second. -/
def World.sample (limit : Nat) (jobs : Table JobId Job) : World where
  jobs := jobs
  executions := .empty
  logs := []
  deadLetters := .empty
  workers :=
    ⟨[(1, ⟨.active, 0, 0⟩), (2, ⟨.active, 0, 0⟩)], by decide⟩
  queues := ⟨[(0, ⟨0, limit, false, some "steady"⟩)], by simp⟩
  retryPolicies := ⟨[("steady", ⟨.fixed, 1000, 30000, 3⟩)], by simp⟩
  scheduledJobs := .empty
  locks := fun _ => none
  messages := []
  now := 0
  process := fun worker =>
    if worker = 1 ∨ worker = 2 then some .running else none

/-- No call is in progress. -/
def World.idle (world : World) : State := ⟨world, fun _ => none⟩

theorem World.idle_initial {world : World}
    (unlocked : ∀ job, world.locks job = none) : Initial world.idle :=
  ⟨fun _ => rfl, unlocked⟩

end Chronos
