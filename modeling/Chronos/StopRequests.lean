import Chronos.System
import Chronos.WorkerProcess

/-!
# Work after a stop request

`stopPoller` sets a flag that every loop of the poller tests before it makes
its next call, but `startPoller` clears the flag when it begins.  So a stop
request is obeyed if and only if it does not come before that.
-/

namespace Chronos

namespace ProcessAction

/-- This step calls `stopPoller`. -/
def requestsStop (process : WorkerProcess) : ProcessAction → Bool
  | .signal => !process.shuttingDown
  | _ => false

/-- This step calls `startPoller`. -/
def entersPoller (process : WorkerProcess) : ProcessAction → Bool
  | .main _ => decide (process.main = .startScheduler)
  | _ => false

/-- `waitForInFlight` resolves before its timeout. -/
def waitsOut : ProcessAction → Bool
  | .shutdown .allSettled => true
  | _ => false

end ProcessAction

namespace WorkerProcess

/-- Every execution that this process has launched has settled. -/
def AllSettled (process : WorkerProcess) : Prop :=
  ∀ position job, process.begun[position]? = some (.executeJob job) →
    position ∉ process.inFlight

/-- After a stop request no call is made, and when the wait is over before its
timeout, all executions have settled for good. -/
structure StopsWork (trace : List (Transition WorkerProcess ProcessAction)) :
    Prop where
  nothing : ∀ {earlier stop later}, trace = earlier ++ stop :: later →
    stop.action.requestsStop stop.before = true →
    ∀ transition ∈ later, transition.after.begun = transition.before.begun
  settled : ∀ {earlier wait later}, trace = earlier ++ wait :: later →
    wait.action.waitsOut = true →
    wait.after.AllSettled ∧
      ∀ transition ∈ later, transition.after.AllSettled

/-- The flags of a process, whatever has happened. -/
structure FlagsInv (process : WorkerProcess) : Prop where
  stopping : process.stopping = true → process.shuttingDown = true
  called : process.shutdown ≠ .notCalled → process.shuttingDown = true
  notRunning : process.main.startingUp = true → process.running = false

/-- The stop request is still in force, and what `shutdown` waits for is all
that is in flight. -/
structure Obeyed (process : WorkerProcess) : Prop where
  stopping : process.shuttingDown = true → process.stopping = true
  snapshot : ∀ {snapshot : List Nat} {deadline : Option Time},
    process.shutdown = .waiting snapshot deadline →
    ∀ position ∈ process.inFlight, position ∈ snapshot

/-- The ways in which a process takes a step. -/
inductive ProcessStep (pollIntervalMs : Int) (process : WorkerProcess) :
    ProcessAction → WorkerProcess → Prop where
  | advanced {now : Time} :
      process.now ≤ now →
      ProcessStep pollIntervalMs process (.advance now)
        { process with now := now }
  | signalled :
      process.main ≠ .register →
      ProcessStep pollIntervalMs process .signal process.beginShutdown
  | main {input : MainInput} {next : WorkerProcess} :
      MainStep pollIntervalMs process next →
      ProcessStep pollIntervalMs process (.main input) next
  | shutdown {input : ShutdownInput} {next : WorkerProcess} :
      ShutdownStep process input next →
      ProcessStep pollIntervalMs process (.shutdown input) next
  | settled {position : Nat} :
      position ∈ process.inFlight →
      ProcessStep pollIntervalMs process (.settle position)
        { process with
          inFlight := process.inFlight.erase position
          activeJobCount := process.activeJobCount - 1 }
  | killed : ProcessStep pollIntervalMs process .kill process.exit

section Steps

variable {pollIntervalMs : Int} {process next : WorkerProcess}
  {action : ProcessAction}

theorem process_cases
    (taken : step pollIntervalMs process action = some next) :
    ProcessStep pollIntervalMs process action next := by
  unfold step at taken
  split at taken
  · cases taken
  · cases action with
    | advance now =>
        dsimp only at taken
        split at taken
        · cases taken
          exact .advanced ‹_›
        · cases taken
    | signal =>
        dsimp only at taken
        split at taken
        · cases taken
        · cases taken
          exact .signalled ‹_›
    | main input => exact .main (resumeMain_cases taken)
    | shutdown input => exact .shutdown (resumeShutdown_cases taken)
    | settle position =>
        dsimp only [settle] at taken
        split at taken
        · cases taken
          exact .settled ‹_›
        · cases taken
    | kill =>
        cases taken
        exact .killed

theorem ShutdownStep.frame {input : ShutdownInput}
    (case : ShutdownStep process input next) :
    next = { process with
      shutdown := next.shutdown
      exited := next.exited } := by
  cases case with
  | drained =>
      unfold waitForInFlight
      split <;> rfl
  | _ => rfl

/-- With the stop flag set no call is made until `startPoller` begins. -/
theorem step_stopped (taken : step pollIntervalMs process action = some next)
    (stopping : process.stopping = true)
    (outside : action.entersPoller process = false) :
    next.begun = process.begun ∧ next.stopping = true ∧
      ∀ position ∈ next.inFlight, position ∈ process.inFlight := by
  cases process_cases taken with
  | advanced => exact ⟨rfl, stopping, fun _ => id⟩
  | signalled =>
      unfold beginShutdown
      split
      · exact ⟨rfl, stopping, fun _ => id⟩
      · exact ⟨rfl, rfl, fun _ => id⟩
  | main case =>
      have elsewhere : process.main ≠ .startScheduler :=
        of_decide_eq_false outside
      obtain ⟨begun, inFlight⟩ := case.stopped elsewhere stopping
      refine ⟨begun, ?_, fun _ member => inFlight ▸ member⟩
      rw [case.frame elsewhere]
      exact stopping
  | shutdown case =>
      rw [case.frame]
      exact ⟨rfl, stopping, fun _ => id⟩
  | settled => exact ⟨rfl, stopping, fun _ => List.mem_of_mem_erase⟩
  | killed => exact ⟨rfl, stopping, fun _ => id⟩

theorem FlagsInv.initial (now : Time) : FlagsInv (initial now) where
  stopping := nofun
  called := fun different => (different rfl).elim
  notRunning := fun _ => rfl

theorem FlagsInv.entered (inv : FlagsInv process)
    (starts : process.main = .startScheduler)
    (case : MainStep pollIntervalMs process next) :
    next = { process with
      running := true
      stopping := false
      main := .findQueues process.now
      begun := process.begun ++ [.pollCycle] } := by
  have notRunning : process.running = false := by
    apply inv.notRunning
    rw [starts]
    rfl
  cases case with
  | entered => exact startPoller_eq notRunning
  | registered other => cases starts.symm.trans other
  | refused other => cases starts.symm.trans other
  | queuesRead other => cases starts.symm.trans other
  | readFailed other => cases starts.symm.trans other
  | claimed other => cases starts.symm.trans other
  | claimFailed other => cases starts.symm.trans other
  | cycleDone other => cases starts.symm.trans other
  | slept other => cases starts.symm.trans other

theorem FlagsInv.step (inv : FlagsInv process)
    (taken : WorkerProcess.step pollIntervalMs process action = some next) :
    FlagsInv next := by
  cases process_cases taken with
  | advanced => exact ⟨inv.stopping, inv.called, inv.notRunning⟩
  | signalled =>
      unfold beginShutdown
      split
      · exact inv
      · exact ⟨fun _ => rfl, fun _ => rfl, inv.notRunning⟩
  | main case =>
      by_cases starts : process.main = .startScheduler
      · rw [inv.entered starts case]
        exact ⟨nofun, inv.called, nofun⟩
      · have running := case.startingUp starts
        rw [case.frame starts]
        refine ⟨inv.stopping, inv.called, fun early => ?_⟩
        obtain ⟨before, same⟩ := running early
        exact same.trans (inv.notRunning before)
  | shutdown case =>
      have called : process.shutdown ≠ .notCalled := by
        intro notCalled
        cases case with
        | drained other => cases notCalled.symm.trans other
        | settled other => cases notCalled.symm.trans other
        | timedOut other => cases notCalled.symm.trans other
        | retired other => cases notCalled.symm.trans other
        | ended other => cases notCalled.symm.trans other
      rw [case.frame]
      exact ⟨inv.stopping, fun _ => inv.called called, inv.notRunning⟩
  | settled => exact ⟨inv.stopping, inv.called, inv.notRunning⟩
  | killed => exact ⟨inv.stopping, inv.called, inv.notRunning⟩

theorem Obeyed.initial (now : Time) : Obeyed (initial now) := ⟨nofun, nofun⟩

theorem ShutdownStep.snapshot {input : ShutdownInput} {snapshot : List Nat}
    {deadline : Option Time} (case : ShutdownStep process input next)
    (waiting : next.shutdown = .waiting snapshot deadline) :
    snapshot = process.inFlight := by
  cases case with
  | drained =>
      unfold waitForInFlight at waiting
      split at waiting
      · cases waiting
        exact Eq.symm ‹_›
      · cases waiting
        rfl
  | settled => cases waiting
  | timedOut => cases waiting
  | retired => cases waiting
  | ended other =>
      cases other.symm.trans waiting

theorem Obeyed.step (obeyed : Obeyed process) (inv : FlagsInv process)
    (taken : WorkerProcess.step pollIntervalMs process action = some next)
    (enters : action.entersPoller process = true → process.stopping = false) :
    Obeyed next := by
  have notShutting : process.stopping = false →
      process.shuttingDown = false := by
    intro notStopping
    by_contra shutting
    have stopping := obeyed.stopping (Bool.eq_true_of_not_eq_false shutting)
    cases notStopping.symm.trans stopping
  cases process_cases taken with
  | advanced => exact ⟨obeyed.stopping, obeyed.snapshot⟩
  | signalled =>
      unfold beginShutdown
      split
      · exact obeyed
      · exact ⟨fun _ => rfl, nofun⟩
  | main case =>
      by_cases starts : process.main = .startScheduler
      · have notCalled : process.shuttingDown = false :=
          notShutting (enters (decide_eq_true starts))
        rw [inv.entered starts case]
        constructor
        · intro shutting
          cases notCalled.symm.trans shutting
        · intro snapshot deadline waiting
          have shutting := inv.called (by rw [waiting]; exact nofun)
          cases notCalled.symm.trans shutting
      · have stopped := case.stopped starts
        rw [case.frame starts]
        refine ⟨obeyed.stopping, ?_⟩
        intro snapshot deadline waiting position member
        have shutting := inv.called (by rw [waiting]; exact nofun)
        obtain ⟨_, inFlight⟩ := stopped (obeyed.stopping shutting)
        exact obeyed.snapshot waiting position (inFlight ▸ member)
  | shutdown case =>
      have snapshots : ∀ {snapshot : List Nat} {deadline : Option Time},
          next.shutdown = .waiting snapshot deadline →
          snapshot = process.inFlight := case.snapshot
      rw [case.frame]
      refine ⟨obeyed.stopping, ?_⟩
      intro snapshot deadline waiting position member
      rw [snapshots waiting]
      exact member
  | settled =>
      refine ⟨obeyed.stopping, ?_⟩
      intro snapshot deadline waiting position member
      exact obeyed.snapshot waiting position (List.mem_of_mem_erase member)
  | killed => exact ⟨obeyed.stopping, obeyed.snapshot⟩

end Steps

/-! ## Runs -/

section Runs

variable {pollIntervalMs : Int} {now : Time} {start last : WorkerProcess}
  {trace : List (Transition WorkerProcess ProcessAction)}

/-- `startPoller` does not begin while a stop request is pending. -/
def EntersUnstopped (trace : List (Transition WorkerProcess ProcessAction)) :
    Prop :=
  ∀ transition ∈ trace,
    transition.action.entersPoller transition.before = true →
    transition.before.stopping = false

theorem flagsInv_of_run
    (run : Run (step pollIntervalMs) (initial now) trace last) :
    FlagsInv last :=
  run.invariant FlagsInv (fun _ _ => trivial) (.initial now)
    fun _ _ taken inv => inv.step taken

theorem obeyed_of_run
    (run : Run (step pollIntervalMs) (initial now) trace last)
    (enters : EntersUnstopped trace) : Obeyed last ∧ FlagsInv last := by
  refine run.invariant (fun process => Obeyed process ∧ FlagsInv process)
    enters ⟨.initial now, .initial now⟩ ?_
  rintro transition unstopped taken ⟨obeyed, inv⟩
  exact ⟨obeyed.step inv taken unstopped, inv.step taken⟩

theorem stopped_of_run (run : Run (step pollIntervalMs) start trace last)
    (stopping : start.stopping = true) (enters : EntersUnstopped trace) :
    last.stopping = true ∧ last.begun = start.begun ∧
      (∀ position ∈ last.inFlight, position ∈ start.inFlight) ∧
      ∀ transition ∈ trace,
        transition.after.begun = transition.before.begun := by
  induction run with
  | nil => exact ⟨stopping, rfl, fun _ => id, List.forall_mem_nil _⟩
  | @snoc trace state next action run taken induction =>
      have before : EntersUnstopped trace := fun transition member =>
        enters transition (List.mem_append_left _ member)
      obtain ⟨stopped, begun, inFlight, nothing⟩ := induction before
      have outside : action.entersPoller state = false := by
        by_contra entered
        have unstopped := enters ⟨state, action, next⟩ (by simp)
          (Bool.eq_true_of_not_eq_false entered)
        cases stopped.symm.trans unstopped
      obtain ⟨same, still, fewer⟩ := step_stopped taken stopped outside
      exact ⟨still, same.trans begun,
        fun position member => inFlight position (fewer position member),
        List.forall_mem_snoc nothing same⟩

theorem step_shuttingDown {process next : WorkerProcess}
    {action : ProcessAction}
    (taken : step pollIntervalMs process action = some next)
    (inv : FlagsInv process) (calm : process.shuttingDown = false)
    (shutting : next.shuttingDown = true) :
    action.requestsStop process = true := by
  have same : next.shuttingDown = process.shuttingDown →
      action.requestsStop process = true := by
    intro same
    cases calm.symm.trans (same.symm.trans shutting)
  cases process_cases taken with
  | advanced => exact same rfl
  | signalled => exact congrArg Bool.not calm
  | main case =>
      apply same
      by_cases starts : process.main = .startScheduler
      · rw [inv.entered starts case]
      · rw [case.frame starts]
  | shutdown case =>
      apply same
      rw [case.frame]
  | settled => exact same rfl
  | killed => exact same rfl

/-- A process that shuts down was asked to. -/
theorem exists_stop_of_shuttingDown
    (run : Run (step pollIntervalMs) (initial now) trace last)
    (shutting : last.shuttingDown = true) :
    ∃ stop ∈ trace, stop.action.requestsStop stop.before = true := by
  have calm : ¬(initial now).shuttingDown = true := nofun
  obtain ⟨earlier, stop, later, rfl, before, after, _⟩ :=
    run.exists_last_crossing (fun process => process.shuttingDown = true) calm
      shutting
  obtain ⟨toStop, taken, _⟩ := run.around
  exact ⟨stop, by simp, step_shuttingDown taken (flagsInv_of_run toStop)
    (Bool.eq_false_of_not_eq_true before) after⟩

theorem step_requested {process next : WorkerProcess} {action : ProcessAction}
    (taken : step pollIntervalMs process action = some next)
    (requests : action.requestsStop process = true) : next.stopping = true := by
  cases process_cases taken with
  | signalled =>
      have calm : process.shuttingDown = false := by
        simpa [ProcessAction.requestsStop] using requests
      rw [beginShutdown, calm]
      rfl
  | advanced => cases requests
  | main => cases requests
  | shutdown => cases requests
  | settled => cases requests
  | killed => cases requests

theorem step_entered {process next : WorkerProcess} {action : ProcessAction}
    (taken : step pollIntervalMs process action = some next)
    (inv : FlagsInv process) (enters : action.entersPoller process = true) :
    next.begun = process.begun ++ [.pollCycle] := by
  cases process_cases taken with
  | main case => rw [inv.entered (of_decide_eq_true enters) case]
  | advanced => cases enters
  | signalled => cases enters
  | shutdown => cases enters
  | settled => cases enters
  | killed => cases enters

/-- When the wait is over before its timeout, nothing is in flight. -/
theorem Obeyed.waited {process next : WorkerProcess} {action : ProcessAction}
    (obeyed : Obeyed process) (inv : FlagsInv process)
    (taken : WorkerProcess.step pollIntervalMs process action = some next)
    (waits : action.waitsOut = true) :
    next.stopping = true ∧ ∀ position, position ∉ next.inFlight := by
  cases process_cases taken with
  | @shutdown input _ case =>
      cases input with
      | allSettled =>
          cases case with
          | settled waiting settled =>
              have called : process.shutdown ≠ .notCalled := by
                rw [waiting]
                exact nofun
              refine ⟨obeyed.stopping (inv.called called), ?_⟩
              intro position member
              exact settled position
                (obeyed.snapshot waiting position member) member
          | drained _ answered => rcases answered with same | same <;> cases same
          | retired _ answered => rcases answered with same | same <;> cases same
          | ended _ answered => rcases answered with same | same <;> cases same
      | ok => cases waits
      | fail => cases waits
      | timeout => cases waits
  | main => cases waits
  | advanced => cases waits
  | signalled => cases waits
  | settled => cases waits
  | killed => cases waits

theorem AllSettled.of_inFlight {process : WorkerProcess}
    (settled : ∀ position, position ∉ process.inFlight) :
    process.AllSettled :=
  fun position _ _ => settled position

/-- No call is made after a stop request, and the wait is for all executions,
if and only if `startPoller` never begins with a stop request pending. -/
theorem stopsWork_iff
    (run : Run (step pollIntervalMs) (initial now) trace last) :
    StopsWork trace ↔ EntersUnstopped trace := by
  constructor
  · intro stopsWork transition member enters
    by_contra pending
    obtain ⟨earlier, later, rfl⟩ := List.append_of_mem member
    obtain ⟨before, taken, _⟩ := run.around
    have inv := flagsInv_of_run before
    have shutting := inv.stopping (Bool.eq_true_of_not_eq_false pending)
    obtain ⟨stop, isStop, requests⟩ := exists_stop_of_shuttingDown before shutting
    obtain ⟨first, second, rfl⟩ := List.append_of_mem isStop
    have shape : first ++ stop :: second ++ transition :: later =
        first ++ stop :: (second ++ transition :: later) := by
      rw [List.append_assoc, List.cons_append]
    have nothing := stopsWork.nothing shape requests transition
      (List.mem_append_right _ List.mem_cons_self)
    rw [step_entered taken inv enters] at nothing
    simp at nothing
  · intro enters
    constructor
    · intro earlier stop later shape requests
      subst shape
      obtain ⟨_, taken, after⟩ := run.around
      have rest : EntersUnstopped later := fun transition member =>
        enters transition (by simp [member])
      exact (stopped_of_run after (step_requested taken requests) rest).2.2.2
    · intro earlier wait later shape waits
      subst shape
      obtain ⟨before, taken, after⟩ := run.around
      have first : EntersUnstopped earlier := fun transition member =>
        enters transition (by simp [member])
      obtain ⟨obeyed, inv⟩ := obeyed_of_run before first
      obtain ⟨stopping, none⟩ := obeyed.waited inv taken waits
      refine ⟨.of_inFlight none, ?_⟩
      intro transition member
      obtain ⟨between, rest, rfl⟩ := List.append_of_mem member
      obtain ⟨toTransition, moved, _⟩ := after.around
      have part : EntersUnstopped (between ++ [transition]) := by
        intro other inPart
        apply enters other
        rcases List.mem_append.mp inPart with inBetween | isLast
        · simp [inBetween]
        · simp [List.mem_singleton.mp isLast]
      obtain ⟨_, _, fewer, _⟩ :=
        stopped_of_run (toTransition.snoc moved) stopping part
      exact .of_inFlight fun position member => none position
        (fewer position member)

/-- A signal during a claim: job 7 is in flight and waited for, and job 8 is
claimed but not launched. -/
theorem stopsWork_mid_cycle :
    ∃ trace last,
      Run (step 1000) (initial 0) trace last ∧
      last.begun = [.pollCycle, .claimJobs 0, .executeJob 7, .claimJobs 1] ∧
      last.exited = true ∧ StopsWork trace := by
  obtain ⟨trace, last, run, begun, exited, enters⟩ :=
    exists_run_of_check (step 1000) (initial 0)
      [.main .ok, .main .ok, .main (.queues [0, 1]), .main (.claimed [7]),
        .signal, .main (.claimed [8]), .shutdown .ok, .settle 2,
        .shutdown .allSettled, .main .ok, .shutdown .ok, .shutdown .ok]
      (fun trace last =>
        last.begun = [.pollCycle, .claimJobs 0, .executeJob 7, .claimJobs 1] ∧
        last.exited = true ∧
        ∀ transition ∈ trace,
          transition.action.entersPoller transition.before = true →
          transition.before.stopping = false)
      (by decide)
  exact ⟨trace, last, run, begun, exited, (stopsWork_iff run).mpr enters⟩

/-- A signal while the scheduler starts: the wait is over at once, and then
the poller starts and launches job 7. -/
theorem early_stop_forgotten :
    ¬∀ (pollIntervalMs : Int) (now : Time) (last : WorkerProcess)
      (trace : List (Transition WorkerProcess ProcessAction)),
      Run (step pollIntervalMs) (initial now) trace last → StopsWork trace := by
  intro stopsWork
  obtain ⟨trace, last, run, ⟨wait, isWait, waits⟩, final, isFinal, inFlight,
      launched⟩ :=
    exists_run_of_check (step 1000) (initial 0)
      [.main .ok, .signal, .shutdown .ok, .shutdown .allSettled, .main .ok,
        .main (.queues [0]), .main (.claimed [7])]
      (fun trace last =>
        (∃ wait ∈ (trace.drop 3).head?, wait.action.waitsOut = true) ∧
        ∃ final ∈ ((trace.drop 4).drop 2).head?,
          2 ∈ final.after.inFlight ∧
          final.after.begun[2]? = some (.executeJob 7))
      (by decide)
  have shape := List.eq_take_append_cons isWait
  obtain ⟨_, settled⟩ := (stopsWork 1000 0 last trace run).settled shape waits
  have inLater : final ∈ trace.drop 4 := by
    apply List.mem_of_mem_drop
    exact List.mem_of_mem_head? isFinal
  exact settled final inLater 2 7 launched inFlight

end Runs

/-! ## The process of the system

The process of a worker in `System` is the control state of this one, as long
as no stop request is forgotten. -/

def process (worker : WorkerProcess) : Process :=
  if worker.exited then .exited
  else if worker.stopping then .stopping
  else .running

end WorkerProcess

/-- What a step of the process does to the worker in the system. -/
def ProcessAction.mirrors (worker : WorkerId) (process : WorkerProcess) :
    ProcessAction → List Action
  | .signal => if process.shuttingDown then [] else [.stopPoller worker]
  | .shutdown .ok =>
      match process.shutdown with
      | .draining => [.drain worker]
      | .retiring => [.retire worker]
      | .disconnecting => [.exit worker]
      | _ => []
  | .shutdown .fail =>
      match process.shutdown with
      | .disconnecting => [.exit worker]
      | _ => []
  | .kill => [.exit worker]
  | _ => []

namespace WorkerProcess

section Mirrors

variable {env : Env} {worker : WorkerId} {state : State}
  {pollIntervalMs : Int} {process next : WorkerProcess}
  {action : ProcessAction}

theorem not_exited (taken : step pollIntervalMs process action = some next) :
    process.exited = false := by
  unfold step at taken
  split at taken
  · cases taken
  · exact Bool.eq_false_of_not_eq_true ‹_›

/-- The system takes these actions, and the worker is then in this state. -/
def Mirrored (env : Env) (worker : WorkerId) (state : State)
    (actions : List Action) (process : WorkerProcess) : Prop :=
  ∃ trace state', Run (Chronos.step env) state trace state' ∧
    trace.map (·.action) = actions ∧
    state'.world.process worker = some process.process

theorem Mirrored.none (same : state.world.process worker =
    some process.process) : Mirrored env worker state [] process :=
  ⟨[], state, .nil, rfl, same⟩

theorem Mirrored.one {systemAction : Action} {state' : State}
    (moved : Chronos.step env state systemAction = some state')
    (same : state'.world.process worker = some process.process) :
    Mirrored env worker state [systemAction] process :=
  ⟨_, state', .single moved, rfl, same⟩

theorem alive_of_process (alive : process.exited = false)
    (same : state.world.process worker = some process.process) :
    state.world.alive worker = true := by
  rw [World.alive, same, WorkerProcess.process, alive]
  cases process.stopping <;> rfl

theorem Mirrored.exit (alive : process.exited = false)
    (same : state.world.process worker = some process.process) :
    Mirrored env worker state [.exit worker] process.exit := by
  refine .one (if_pos (alive_of_process alive same)) ?_
  simp [State.exitWorker, World.setProcess, WorkerProcess.process,
    WorkerProcess.exit]

theorem Mirrored.stopPoller (alive : process.exited = false)
    (same : state.world.process worker = some process.process) :
    Mirrored env worker state [.stopPoller worker]
      { process.stopPoller with
        shuttingDown := true, shutdown := .draining } := by
  refine .one (if_pos (alive_of_process alive same)) ?_
  simp [World.setProcess, WorkerProcess.process, WorkerProcess.stopPoller, alive]

theorem step_mirrored (obeyed : Obeyed process) (inv : FlagsInv process)
    (registered : process.main ≠ .register)
    (taken : step pollIntervalMs process action = some next)
    (enters : action.entersPoller process = true → process.stopping = false)
    (same : state.world.process worker = some process.process) :
    Mirrored env worker state (action.mirrors worker process) next := by
  have alive := not_exited taken
  have silent : next.stopping = process.stopping →
      next.exited = process.exited →
      Mirrored env worker state [] next := by
    intro stopping exited
    apply Mirrored.none
    rw [same, WorkerProcess.process, WorkerProcess.process, stopping, exited]
  cases process_cases taken with
  | advanced => exact silent rfl rfl
  | signalled =>
      cases shutting : process.shuttingDown with
      | true =>
          simp only [ProcessAction.mirrors, beginShutdown, shutting, if_true]
          exact .none same
      | false =>
          simp only [ProcessAction.mirrors, beginShutdown, shutting,
            Bool.false_eq_true, if_false]
          exact .stopPoller alive same
  | main case =>
      by_cases starts : process.main = .startScheduler
      · have calm := enters (decide_eq_true starts)
        have entered := inv.entered starts case
        apply silent
        · rw [entered, calm]
        · rw [entered]
      · apply silent
        · rw [case.frame starts]
        · exact (case.exited starts registered).1
  | @shutdown input _ case =>
      have stopping : process.shutdown ≠ .notCalled →
          state.world.process worker = some .stopping := by
        intro called
        rw [same, WorkerProcess.process, alive,
          obeyed.stopping (inv.called called)]
        rfl
      cases case with
      | drained draining answered =>
          have waits : process.waitForInFlight.process = process.process := by
            unfold waitForInFlight
            split <;> rfl
          rcases answered with rfl | rfl
          · simp only [ProcessAction.mirrors, draining]
            refine .one (if_pos (stopping ?_)) (same.trans (congrArg some waits.symm))
            rw [draining]
            exact nofun
          · simp only [ProcessAction.mirrors, draining]
            exact .none (same.trans (congrArg some waits.symm))
      | settled => exact silent rfl rfl
      | timedOut => exact silent rfl rfl
      | retired retiring answered =>
          rcases answered with rfl | rfl
          · simp only [ProcessAction.mirrors, retiring]
            refine .one (if_pos (stopping ?_)) same
            rw [retiring]
            exact nofun
          · simp only [ProcessAction.mirrors, retiring]
            exact silent rfl rfl
      | ended disconnecting answered =>
          rcases answered with rfl | rfl
          · simp only [ProcessAction.mirrors, disconnecting]
            exact .exit alive same
          · simp only [ProcessAction.mirrors, disconnecting]
            exact .exit alive same
  | settled => exact silent rfl rfl
  | killed => exact .exit alive same

theorem step_registered (inv : FlagsInv process)
    (registered : process.main ≠ .register)
    (taken : step pollIntervalMs process action = some next) :
    next.main ≠ .register := by
  cases process_cases taken with
  | advanced => exact registered
  | signalled =>
      unfold beginShutdown
      split <;> exact registered
  | main case =>
      by_cases starts : process.main = .startScheduler
      · rw [inv.entered starts case]
        exact nofun
      · exact (case.exited starts registered).2
  | shutdown case =>
      rw [case.frame]
      exact registered
  | settled => exact registered
  | killed => exact registered

/-- The system follows the process from its registration on, as long as no
stop request is forgotten. -/
theorem mirrored_of_run {start last : WorkerProcess}
    {trace : List (Transition WorkerProcess ProcessAction)}
    (run : Run (step pollIntervalMs) start trace last)
    (obeyed : Obeyed start) (inv : FlagsInv start)
    (registered : start.main ≠ .register) (enters : EntersUnstopped trace)
    (same : state.world.process worker = some start.process) :
    Mirrored env worker state
      (trace.flatMap fun transition =>
        transition.action.mirrors worker transition.before) last := by
  suffices Mirrored env worker state
      (trace.flatMap fun transition =>
        transition.action.mirrors worker transition.before) last ∧
      Obeyed last ∧ FlagsInv last ∧ last.main ≠ .register from this.1
  induction run with
  | nil => exact ⟨.none same, obeyed, inv, registered⟩
  | @snoc trace process next action run taken induction =>
      have before : EntersUnstopped trace := fun transition member =>
        enters transition (List.mem_append_left _ member)
      have final := enters ⟨process, action, next⟩
        (List.mem_append_right _ List.mem_cons_self)
      obtain ⟨⟨system, state', reached, actions, same'⟩, obeyed, inv,
        registered⟩ := induction before
      obtain ⟨rest, state'', moved, restActions, same''⟩ :=
        step_mirrored obeyed inv registered taken final same'
      refine ⟨⟨system ++ rest, state'', reached.append moved, ?_, same''⟩,
        obeyed.step inv taken final, inv.step taken,
        step_registered inv registered taken⟩
      rw [List.map_append, actions, restActions, List.flatMap_append]
      simp

end Mirrors

end WorkerProcess

end Chronos
