import Chronos.Steps
import Chronos.Lib.Trace

/-!
# One worker process

`main` and `shutdown` of `worker/src/index.ts` and the poll loop of
`worker/src/poller.ts`, as two flows over the module-level flags and the set of
promises in flight.  A flow runs on from one `await` to the next without
interruption; the signal handlers run at any point in between.
-/

namespace Chronos

/-- A call that the process has made. -/
inductive Begun where
  | pollCycle
  | claimJobs (queue : QueueId)
  | executeJob (job : JobId)
deriving DecidableEq

/-- What `main` awaits, from the registration of the worker on. -/
inductive MainPhase where
  | register
  | startScheduler
  | findQueues (cycleStart : Time)
  | claimJobs (cycleStart : Time) (rest : List QueueId)
  | cycleDone (cycleStart : Time)
  | sleep (wake : Time)
  | returned
deriving DecidableEq

/-- `startPoller` has not been called. -/
def MainPhase.startingUp : MainPhase → Bool
  | .register => true
  | .startScheduler => true
  | _ => false

/-- What `shutdown` awaits.  While it waits for the promises in flight it has
a copy of the set, and the deadline of its timer. -/
inductive ShutdownPhase where
  | notCalled
  | draining
  | waiting (inFlight : List Nat) (deadline : Option Time)
  | retiring
  | disconnecting
deriving DecidableEq

/-- How the promise that `main` awaits is settled. -/
inductive MainInput where
  | ok
  | fail
  | queues (ids : List QueueId)
  | claimed (ids : List JobId)

inductive ShutdownInput where
  | ok
  | fail
  | allSettled
  | timeout

inductive ProcessAction where
  | advance (now : Time)
  | signal
  | main (input : MainInput)
  | shutdown (input : ShutdownInput)
  | settle (position : Nat)
  | kill

/-- A promise in flight is named by the position of its `executeJob` call in
`begun`. -/
structure WorkerProcess where
  now : Time
  running : Bool
  stopping : Bool
  shuttingDown : Bool
  main : MainPhase
  shutdown : ShutdownPhase
  begun : List Begun
  inFlight : List Nat
  activeJobCount : Nat
  exited : Bool

namespace WorkerProcess

/-- The worker awaits its registration. -/
def initial (now : Time) : WorkerProcess where
  now := now
  running := false
  stopping := false
  shuttingDown := false
  main := .register
  shutdown := .notCalled
  begun := []
  inFlight := []
  activeJobCount := 0
  exited := false

def exit (process : WorkerProcess) : WorkerProcess :=
  { process with exited := true }

def stopPoller (process : WorkerProcess) : WorkerProcess :=
  { process with stopping := true }

/-- The body of the inner loop of `pollCycle`. -/
def launch (process : WorkerProcess) (job : JobId) : WorkerProcess :=
  { process with
    begun := process.begun ++ [.executeJob job]
    inFlight := process.inFlight ++ [process.begun.length]
    activeJobCount := process.activeJobCount + 1 }

/-- `for (const jobId of claimedIds)`. -/
def launchJobs (process : WorkerProcess) : List JobId → WorkerProcess
  | [] => process
  | job :: ids =>
      if process.stopping then process else (process.launch job).launchJobs ids

/-- `for (const queue of queues)`, up to the next call of `claimJobs` or the
end of the cycle. -/
def nextQueue (process : WorkerProcess) (cycleStart : Time) :
    List QueueId → WorkerProcess
  | [] => { process with main := .cycleDone cycleStart }
  | queue :: rest =>
      if process.stopping then { process with main := .cycleDone cycleStart }
      else
        { process with
          main := .claimJobs cycleStart rest
          begun := process.begun ++ [.claimJobs queue] }

/-- `while (!stopping)`, up to the query of the next cycle or the end of
`startPoller` and `main`. -/
def pollLoop (process : WorkerProcess) : WorkerProcess :=
  if process.stopping then
    { process with running := false, main := .returned }
  else
    { process with
      main := .findQueues process.now
      begun := process.begun ++ [.pollCycle] }

def startPoller (process : WorkerProcess) : WorkerProcess :=
  if process.running then { process with main := .returned }
  else pollLoop { process with running := true, stopping := false }

/-- The loop of `startPoller` after a cycle: sleep for the rest of the poll
interval. -/
def afterCycle (process : WorkerProcess) (pollIntervalMs : Int)
    (cycleStart : Time) : WorkerProcess :=
  let elapsed := process.now - cycleStart
  let remaining := max 0 (pollIntervalMs - elapsed)
  if remaining > 0 ∧ process.stopping = false then
    { process with main := .sleep (process.now + remaining) }
  else process.pollLoop

/-- `main` resumes. -/
def resumeMain (pollIntervalMs : Int) (process : WorkerProcess)
    (input : MainInput) : Option WorkerProcess :=
  match process.main, input with
  | .register, .ok => some { process with main := .startScheduler }
  | .register, .fail => some process.exit
  | .startScheduler, .ok => some process.startPoller
  | .startScheduler, .fail => some process.startPoller
  | .findQueues cycleStart, .queues queues =>
      some (process.nextQueue cycleStart queues)
  | .findQueues cycleStart, .fail =>
      some { process with main := .cycleDone cycleStart }
  | .claimJobs cycleStart rest, .claimed ids =>
      some ((process.launchJobs ids).nextQueue cycleStart rest)
  | .claimJobs cycleStart rest, .fail =>
      some (process.nextQueue cycleStart rest)
  | .cycleDone cycleStart, .ok =>
      some (process.afterCycle pollIntervalMs cycleStart)
  | .sleep wake, .ok =>
      if wake ≤ process.now then some process.pollLoop else none
  | _, _ => none

/-- The head of `shutdown`, which the signal handlers and the handler of
uncaught exceptions call. -/
def beginShutdown (process : WorkerProcess) : WorkerProcess :=
  if process.shuttingDown then process
  else
    { process.stopPoller with shuttingDown := true, shutdown := .draining }

/-- `waitForInFlight(30_000)`. -/
def waitForInFlight (process : WorkerProcess) : WorkerProcess :=
  if process.inFlight = [] then
    { process with shutdown := .waiting [] none }
  else
    { process with
      shutdown := .waiting process.inFlight (some (process.now + 30000)) }

/-- `shutdown` resumes; the failures of its updates are logged only. -/
def resumeShutdown (process : WorkerProcess) (input : ShutdownInput) :
    Option WorkerProcess :=
  match process.shutdown, input with
  | .draining, .ok => some process.waitForInFlight
  | .draining, .fail => some process.waitForInFlight
  | .waiting snapshot _, .allSettled =>
      if ∀ position ∈ snapshot, position ∉ process.inFlight then
        some { process with shutdown := .retiring }
      else none
  | .waiting _ (some deadline), .timeout =>
      if deadline ≤ process.now then
        some { process with shutdown := .retiring }
      else none
  | .retiring, .ok => some { process with shutdown := .disconnecting }
  | .retiring, .fail => some { process with shutdown := .disconnecting }
  | .disconnecting, .ok => some process.exit
  | .disconnecting, .fail => some process.exit
  | _, _ => none

/-- An `executeJob` call settles: its `finally` handler takes the promise out
of the set. -/
def settle (process : WorkerProcess) (position : Nat) : Option WorkerProcess :=
  if position ∈ process.inFlight then
    some { process with
      inFlight := process.inFlight.erase position
      activeJobCount := process.activeJobCount - 1 }
  else none

def step (pollIntervalMs : Int) (process : WorkerProcess)
    (action : ProcessAction) : Option WorkerProcess :=
  if process.exited then none
  else
    match action with
    | .advance now =>
        if process.now ≤ now then some { process with now := now } else none
    | .signal =>
        if process.main = .register then none
        else some process.beginShutdown
    | .main input => process.resumeMain pollIntervalMs input
    | .shutdown input => process.resumeShutdown input
    | .settle position => process.settle position
    | .kill => some process.exit

/-! ## The steps of the two flows -/

/-- The ways in which `main` resumes. -/
inductive MainStep (pollIntervalMs : Int) (process : WorkerProcess) :
    WorkerProcess → Prop where
  | registered :
      process.main = .register →
      MainStep pollIntervalMs process { process with main := .startScheduler }
  | refused :
      process.main = .register →
      MainStep pollIntervalMs process process.exit
  | entered :
      process.main = .startScheduler →
      MainStep pollIntervalMs process process.startPoller
  | queuesRead {cycleStart : Time} {queues : List QueueId} :
      process.main = .findQueues cycleStart →
      MainStep pollIntervalMs process (process.nextQueue cycleStart queues)
  | readFailed {cycleStart : Time} :
      process.main = .findQueues cycleStart →
      MainStep pollIntervalMs process
        { process with main := .cycleDone cycleStart }
  | claimed {cycleStart : Time} {rest : List QueueId} {ids : List JobId} :
      process.main = .claimJobs cycleStart rest →
      MainStep pollIntervalMs process
        ((process.launchJobs ids).nextQueue cycleStart rest)
  | claimFailed {cycleStart : Time} {rest : List QueueId} :
      process.main = .claimJobs cycleStart rest →
      MainStep pollIntervalMs process (process.nextQueue cycleStart rest)
  | cycleDone {cycleStart : Time} :
      process.main = .cycleDone cycleStart →
      MainStep pollIntervalMs process
        (process.afterCycle pollIntervalMs cycleStart)
  | slept {wake : Time} :
      process.main = .sleep wake → wake ≤ process.now →
      MainStep pollIntervalMs process process.pollLoop

/-- The ways in which `shutdown` resumes. -/
inductive ShutdownStep (process : WorkerProcess) :
    ShutdownInput → WorkerProcess → Prop where
  | drained {input : ShutdownInput} :
      process.shutdown = .draining → input = .ok ∨ input = .fail →
      ShutdownStep process input process.waitForInFlight
  | settled {snapshot : List Nat} {deadline : Option Time} :
      process.shutdown = .waiting snapshot deadline →
      (∀ position ∈ snapshot, position ∉ process.inFlight) →
      ShutdownStep process .allSettled { process with shutdown := .retiring }
  | timedOut {snapshot : List Nat} {deadline : Time} :
      process.shutdown = .waiting snapshot (some deadline) →
      deadline ≤ process.now →
      ShutdownStep process .timeout { process with shutdown := .retiring }
  | retired {input : ShutdownInput} :
      process.shutdown = .retiring → input = .ok ∨ input = .fail →
      ShutdownStep process input { process with shutdown := .disconnecting }
  | ended {input : ShutdownInput} :
      process.shutdown = .disconnecting → input = .ok ∨ input = .fail →
      ShutdownStep process input process.exit

section Flows

variable {process next : WorkerProcess} {pollIntervalMs : Int}

theorem resumeMain_cases {input : MainInput}
    (resumed : process.resumeMain pollIntervalMs input = some next) :
    MainStep pollIntervalMs process next := by
  unfold resumeMain at resumed
  split at resumed
  · cases resumed; exact .registered ‹_›
  · cases resumed; exact .refused ‹_›
  · cases resumed; exact .entered ‹_›
  · cases resumed; exact .entered ‹_›
  · cases resumed; exact .queuesRead ‹_›
  · cases resumed; exact .readFailed ‹_›
  · cases resumed; exact .claimed ‹_›
  · cases resumed; exact .claimFailed ‹_›
  · cases resumed; exact .cycleDone ‹_›
  · split at resumed
    · cases resumed; exact .slept ‹_› ‹_›
    · cases resumed
  · cases resumed

theorem resumeShutdown_cases {input : ShutdownInput}
    (resumed : process.resumeShutdown input = some next) :
    ShutdownStep process input next := by
  unfold resumeShutdown at resumed
  split at resumed
  · cases resumed; exact .drained ‹_› (.inl rfl)
  · cases resumed; exact .drained ‹_› (.inr rfl)
  · split at resumed
    · cases resumed; exact .settled ‹_› ‹_›
    · cases resumed
  · split at resumed
    · cases resumed; exact .timedOut ‹_› ‹_›
    · cases resumed
  · cases resumed; exact .retired ‹_› (.inl rfl)
  · cases resumed; exact .retired ‹_› (.inr rfl)
  · cases resumed; exact .ended ‹_› (.inl rfl)
  · cases resumed; exact .ended ‹_› (.inr rfl)
  · cases resumed

theorem launchJobs_frame (process : WorkerProcess) (ids : List JobId) :
    process.launchJobs ids = { process with
      begun := (process.launchJobs ids).begun
      inFlight := (process.launchJobs ids).inFlight
      activeJobCount := (process.launchJobs ids).activeJobCount } := by
  induction ids generalizing process with
  | nil => rfl
  | cons job ids induction =>
      rw [launchJobs]
      split
      · rfl
      · exact (induction (process.launch job)).trans rfl

theorem nextQueue_frame (process : WorkerProcess) (cycleStart : Time)
    (queues : List QueueId) :
    process.nextQueue cycleStart queues = { process with
      main := (process.nextQueue cycleStart queues).main
      begun := (process.nextQueue cycleStart queues).begun } := by
  cases queues with
  | nil => rfl
  | cons queue rest =>
      rw [nextQueue]
      split <;> rfl

theorem pollLoop_frame (process : WorkerProcess) :
    process.pollLoop = { process with
      running := process.pollLoop.running
      main := process.pollLoop.main
      begun := process.pollLoop.begun } := by
  rw [pollLoop]
  split <;> rfl

theorem afterCycle_frame (process : WorkerProcess) (pollIntervalMs : Int)
    (cycleStart : Time) :
    process.afterCycle pollIntervalMs cycleStart = { process with
      running := (process.afterCycle pollIntervalMs cycleStart).running
      main := (process.afterCycle pollIntervalMs cycleStart).main
      begun := (process.afterCycle pollIntervalMs cycleStart).begun } := by
  unfold afterCycle
  dsimp only
  split
  · rfl
  · exact process.pollLoop_frame

theorem launchJobs_of_stopping (stopping : process.stopping = true)
    (ids : List JobId) : process.launchJobs ids = process := by
  cases ids with
  | nil => rfl
  | cons => rw [launchJobs, if_pos stopping]

theorem nextQueue_begun (stopping : process.stopping = true)
    (cycleStart : Time) (queues : List QueueId) :
    (process.nextQueue cycleStart queues).begun = process.begun := by
  cases queues with
  | nil => rfl
  | cons => rw [nextQueue, if_pos stopping]

theorem pollLoop_begun (stopping : process.stopping = true) :
    process.pollLoop.begun = process.begun := by
  rw [pollLoop, if_pos stopping]

theorem afterCycle_begun (stopping : process.stopping = true)
    (cycleStart : Time) :
    (process.afterCycle pollIntervalMs cycleStart).begun = process.begun := by
  unfold afterCycle
  dsimp only
  split
  · rfl
  · exact pollLoop_begun stopping

theorem startPoller_eq (notRunning : process.running = false) :
    process.startPoller = { process with
      running := true
      stopping := false
      main := .findQueues process.now
      begun := process.begun ++ [.pollCycle] } := by
  rw [startPoller, notRunning]
  rfl

theorem nextQueue_startingUp (process : WorkerProcess) (cycleStart : Time)
    (queues : List QueueId) :
    (process.nextQueue cycleStart queues).main.startingUp = false := by
  cases queues with
  | nil => rfl
  | cons queue rest =>
      rw [nextQueue]
      split <;> rfl

theorem pollLoop_startingUp (process : WorkerProcess) :
    process.pollLoop.main.startingUp = false := by
  rw [pollLoop]
  split <;> rfl

theorem afterCycle_startingUp (process : WorkerProcess) (pollIntervalMs : Int)
    (cycleStart : Time) :
    (process.afterCycle pollIntervalMs cycleStart).main.startingUp = false := by
  unfold afterCycle
  dsimp only
  split
  · rfl
  · exact process.pollLoop_startingUp

/-- `main` resumes without entering `startPoller`: no flag but `running`
changes, and with the stop flag set no call is made. -/
theorem MainStep.frame (case : MainStep pollIntervalMs process next)
    (entered : process.main ≠ .startScheduler) :
    next = { process with
      running := next.running
      main := next.main
      begun := next.begun
      inFlight := next.inFlight
      activeJobCount := next.activeJobCount
      exited := next.exited } := by
  cases case with
  | registered => rfl
  | refused => rfl
  | entered starts => exact (entered starts).elim
  | queuesRead => rw [nextQueue_frame]
  | readFailed => rfl
  | @claimed cycleStart rest ids =>
      rw [nextQueue_frame, launchJobs_frame]
  | claimFailed => rw [nextQueue_frame]
  | cycleDone => rw [afterCycle_frame]
  | slept => rw [pollLoop_frame]

theorem MainStep.startingUp (case : MainStep pollIntervalMs process next)
    (entered : process.main ≠ .startScheduler)
    (early : next.main.startingUp = true) :
    process.main.startingUp = true ∧ next.running = process.running := by
  cases case with
  | registered register => exact ⟨by rw [register]; rfl, rfl⟩
  | refused register => exact ⟨by rw [register]; rfl, rfl⟩
  | entered starts => exact (entered starts).elim
  | queuesRead => rw [nextQueue_startingUp] at early; cases early
  | readFailed => cases early
  | claimed => rw [nextQueue_startingUp] at early; cases early
  | claimFailed => rw [nextQueue_startingUp] at early; cases early
  | cycleDone => rw [afterCycle_startingUp] at early; cases early
  | slept => rw [pollLoop_startingUp] at early; cases early

theorem MainStep.exited (case : MainStep pollIntervalMs process next)
    (entered : process.main ≠ .startScheduler)
    (registered : process.main ≠ .register) :
    next.exited = process.exited ∧ next.main ≠ .register := by
  have later : ∀ {phase : MainPhase}, phase.startingUp = false →
      phase ≠ .register := by
    rintro phase late rfl
    cases late
  cases case with
  | registered register => exact (registered register).elim
  | refused register => exact (registered register).elim
  | entered starts => exact (entered starts).elim
  | queuesRead =>
      exact ⟨by rw [nextQueue_frame], later (nextQueue_startingUp ..)⟩
  | readFailed => exact ⟨rfl, nofun⟩
  | claimed =>
      exact ⟨by rw [nextQueue_frame, launchJobs_frame],
        later (nextQueue_startingUp ..)⟩
  | claimFailed =>
      exact ⟨by rw [nextQueue_frame], later (nextQueue_startingUp ..)⟩
  | cycleDone =>
      exact ⟨by rw [afterCycle_frame], later (afterCycle_startingUp ..)⟩
  | slept => exact ⟨by rw [pollLoop_frame], later (pollLoop_startingUp _)⟩

theorem MainStep.stopped (case : MainStep pollIntervalMs process next)
    (entered : process.main ≠ .startScheduler)
    (stopping : process.stopping = true) :
    next.begun = process.begun ∧ next.inFlight = process.inFlight := by
  cases case with
  | registered => exact ⟨rfl, rfl⟩
  | refused => exact ⟨rfl, rfl⟩
  | entered starts => exact (entered starts).elim
  | queuesRead =>
      exact ⟨nextQueue_begun stopping .., by rw [nextQueue_frame]⟩
  | readFailed => exact ⟨rfl, rfl⟩
  | claimed =>
      rw [launchJobs_of_stopping stopping]
      exact ⟨nextQueue_begun stopping .., by rw [nextQueue_frame]⟩
  | claimFailed =>
      exact ⟨nextQueue_begun stopping .., by rw [nextQueue_frame]⟩
  | cycleDone =>
      exact ⟨afterCycle_begun stopping _, by rw [afterCycle_frame]⟩
  | slept => exact ⟨pollLoop_begun stopping, by rw [pollLoop_frame]⟩

end Flows

end WorkerProcess

end Chronos
