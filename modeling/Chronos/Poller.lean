import Chronos.Claimer

/-!
# The poll cycle

`pollCycle` of `worker/src/poller.ts`: read the queues that are not paused,
claim from each in turn, and launch an `executeJob` for every claimed id.
Launching creates another call, so it is a step of the system; here the cycle
only decides when its loops end.
-/

namespace Chronos

/-- What a poll cycle awaits, with the rest of the loops it is in. -/
inductive PollPhase where
  | fetchQueues
  | nextQueue (queues : List QueueRef)
  | claiming (queue : QueueRef) (rest : List QueueRef) (phase : ClaimPhase)
  | launching (rest : List QueueRef) (claimedIds : List JobId)

structure PollCall where
  workerId : WorkerId
  phase : PollPhase

inductive PollInput where
  | queues (order : List QueueId)
  | fail
  | next
  | claim (input : ClaimInput)

namespace World

/-- The loops of `pollCycle` break once the worker is stopping. -/
def stopping (world : World) (worker : WorkerId) : Bool :=
  world.process worker ≠ some .running

/-- `findMany({ where: { isPaused: false } })`. -/
def activeQueues (world : World) : List QueueId :=
  world.queues.keysWhere fun _ queue => !queue.isPaused

def queueRef (world : World) (id : QueueId) : Option QueueRef :=
  (world.queues.get? id).map fun queue => ⟨id, queue.concurrencyLimit⟩

end World

/-- One step of `pollCycle`. -/
def pollCycle (world : World) (call : CallId) (poll : PollCall) :
    PollInput → Option (World × Option PollCall)
  | input =>
      let goto (phase : PollPhase) : Option PollCall :=
        some { poll with phase := phase }
      match poll.phase, input with
      | .fetchQueues, .queues order =>
          if order.Perm world.activeQueues then
            some (world, goto (.nextQueue (order.filterMap world.queueRef)))
          else none
      | .fetchQueues, .fail => some (world, none)
      | .nextQueue [], .next => some (world, none)
      | .nextQueue (queue :: rest), .next =>
          if world.stopping poll.workerId then some (world, none)
          else some (world, goto (.claiming queue rest .count))
      | .claiming queue rest phase, .claim claimInput =>
          match claimJobs world call queue phase claimInput with
          | none => none
          | some (world', .awaiting phase') =>
              some (world', goto (.claiming queue rest phase'))
          | some (world', .returned ids) =>
              some (world', goto (.launching rest ids))
          | some (world', .threw) => some (world', goto (.nextQueue rest))
      | .launching rest ids, .next =>
          if ids = [] ∨ world.stopping poll.workerId then
            some (world, goto (.nextQueue rest))
          else none
      | _, _ => none

end Chronos
