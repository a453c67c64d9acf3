import Chronos.Lib.Query
import Chronos.System

/-!
# The history of heartbeats

`startHeartbeatWriter` of `worker/src/heartbeat.ts` with the table
`worker_heartbeats`, beside the rest of the system.  Each write updates the
row of its worker, inserts a sample, prunes the samples of the worker and
publishes; a failure anywhere ends the write.  The writes of all workers take
turns with each other and with every other step.
-/

namespace Chronos

abbrev HeartbeatId := Nat

structure WorkerHeartbeat where
  workerId : WorkerId
  timestamp : Time
  activeJobCount : Nat
  cpuLoad : Option Rat

/-- What a write awaits. -/
inductive HeartbeatPhase where
  | updateWorker
  | createHeartbeat
  | prune
  | publish

structure HeartbeatCall where
  workerId : WorkerId
  activeJobCount : Nat
  cpuLoad : Rat
  phase : HeartbeatPhase

/-- How the database or Redis answers.  For the subquery of the prune the
input is the order of the worker's rows, of which it takes the first. -/
inductive HeartbeatInput where
  | ok
  | created (id : HeartbeatId) (timestamp : Time)
  | deleted (order : List HeartbeatId)
  | fail

structure HeartbeatState where
  system : State
  heartbeats : Table HeartbeatId WorkerHeartbeat
  writes : CallId → Option HeartbeatCall

inductive HeartbeatAction where
  | system (action : Action)
  | startWrite (call : CallId) (worker : WorkerId) (activeJobCount : Nat)
      (cpuLoad : Rat)
  | write (call : CallId) (input : HeartbeatInput)

namespace WorkerHeartbeat

/-- `worker_id = ${workerId}::text`. -/
def ofWorker (worker : WorkerId) (_ : HeartbeatId) (row : WorkerHeartbeat) :
    Bool :=
  row.workerId = worker

/-- `ORDER BY timestamp DESC`. -/
def latestFirst (left right : WorkerHeartbeat) : Bool :=
  right.timestamp ≤ left.timestamp

end WorkerHeartbeat

namespace HeartbeatState

/-- The writes in progress after a step of the rest of the system: a process
that ends takes its own with it. -/
def writesAfter (state : HeartbeatState) : Action → CallId → Option HeartbeatCall
  | .exit worker, call =>
      (state.writes call).filter fun write => write.workerId ≠ worker
  | _, call => state.writes call

def hasWorker (state : HeartbeatState) (worker : WorkerId) : Bool :=
  (state.system.world.workers.get? worker).isSome

end HeartbeatState

/-- One step of `write`.  An update of a worker without a row fails, as does
the insertion of its sample. -/
def writeHeartbeat (env : Env) (state : HeartbeatState) (write : HeartbeatCall) :
    HeartbeatInput →
      Option (State × Table HeartbeatId WorkerHeartbeat × Option HeartbeatCall)
  | input =>
      match write.phase, input with
      | .updateWorker, .ok =>
          if state.hasWorker write.workerId then
            (step env state.system (.heartbeat write.workerId)).map
              fun system => (system, state.heartbeats,
                some { write with phase := .createHeartbeat })
          else none
      | .createHeartbeat, .created id timestamp =>
          if state.hasWorker write.workerId then
            (state.heartbeats.insert? id
              ⟨write.workerId, timestamp, write.activeJobCount,
                some write.cpuLoad⟩).map
              fun heartbeats => (state.system, heartbeats,
                some { write with phase := .prune })
          else none
      | .prune, .deleted order =>
          (state.heartbeats.keepFirst (WorkerHeartbeat.ofWorker write.workerId)
            WorkerHeartbeat.latestFirst 100 order).map
            fun heartbeats => (state.system, heartbeats,
              some { write with phase := .publish })
      | .publish, .ok => some (state.system, state.heartbeats, none)
      | _, .fail => some (state.system, state.heartbeats, none)
      | _, _ => none

def heartbeatStep (env : Env) (state : HeartbeatState) :
    HeartbeatAction → Option HeartbeatState
  | .system action =>
      (step env state.system action).map fun system =>
        { state with system := system, writes := state.writesAfter action }
  | .startWrite call worker activeJobCount cpuLoad =>
      if state.system.world.alive worker && (state.writes call).isNone then
        some { state with
          writes := Function.update state.writes call
            (some ⟨worker, activeJobCount, cpuLoad, .updateWorker⟩) }
      else none
  | .write call input =>
      match state.writes call with
      | none => none
      | some write =>
          (writeHeartbeat env state write input).map fun next =>
            ⟨next.1, next.2.1, Function.update state.writes call next.2.2⟩

/-! ## What a write can do -/

/-- A step of a write, from one phase to the next or to the end. -/
inductive WriteStep (env : Env) (state : HeartbeatState)
    (write : HeartbeatCall) :
    HeartbeatInput → State → Table HeartbeatId WorkerHeartbeat →
      Option HeartbeatCall → Prop where
  | updated {system : State} :
      write.phase = .updateWorker →
      step env state.system (.heartbeat write.workerId) = some system →
      WriteStep env state write .ok system state.heartbeats
        (some { write with phase := .createHeartbeat })
  | created {id : HeartbeatId} {timestamp : Time}
      {heartbeats : Table HeartbeatId WorkerHeartbeat} :
      write.phase = .createHeartbeat →
      state.heartbeats.insert? id
        ⟨write.workerId, timestamp, write.activeJobCount,
          some write.cpuLoad⟩ = some heartbeats →
      WriteStep env state write (.created id timestamp) state.system
        heartbeats (some { write with phase := .prune })
  | pruned {order : List HeartbeatId}
      {heartbeats : Table HeartbeatId WorkerHeartbeat} :
      write.phase = .prune →
      state.heartbeats.keepFirst (WorkerHeartbeat.ofWorker write.workerId)
        WorkerHeartbeat.latestFirst 100 order = some heartbeats →
      WriteStep env state write (.deleted order) state.system heartbeats
        (some { write with phase := .publish })
  | published :
      write.phase = .publish →
      WriteStep env state write .ok state.system state.heartbeats none
  | failed :
      WriteStep env state write .fail state.system state.heartbeats none

section Cases

variable {env : Env} {state next : HeartbeatState}

theorem writeHeartbeat_cases {write : HeartbeatCall} {input : HeartbeatInput}
    {result : State × Table HeartbeatId WorkerHeartbeat × Option HeartbeatCall}
    (taken : writeHeartbeat env state write input = some result) :
    WriteStep env state write input result.1 result.2.1 result.2.2 := by
  obtain ⟨worker, activeJobCount, cpuLoad, phase⟩ := write
  cases phase <;> cases input <;>
    simp only [writeHeartbeat, reduceCtorEq, Option.some.injEq] at taken
  case updateWorker.ok =>
      split at taken
      · obtain ⟨system, updated, rfl⟩ := Option.map_eq_some_iff.mp taken
        exact .updated rfl updated
      · cases taken
  case createHeartbeat.created =>
      split at taken
      · obtain ⟨heartbeats, inserted, rfl⟩ := Option.map_eq_some_iff.mp taken
        exact .created rfl inserted
      · cases taken
  case prune.deleted =>
      obtain ⟨heartbeats, kept, rfl⟩ := Option.map_eq_some_iff.mp taken
      exact .pruned rfl kept
  case publish.ok =>
      subst taken
      exact .published rfl
  all_goals
    subst taken
    exact .failed

theorem heartbeatStep_write {call : CallId} {input : HeartbeatInput}
    (taken : heartbeatStep env state (.write call input) = some next) :
    ∃ write system heartbeats after, state.writes call = some write ∧
      WriteStep env state write input system heartbeats after ∧
      next = ⟨system, heartbeats,
        Function.update state.writes call after⟩ := by
  simp only [heartbeatStep] at taken
  split at taken
  · cases taken
  · rename_i write found
    obtain ⟨result, wrote, rfl⟩ := Option.map_eq_some_iff.mp taken
    exact ⟨write, _, _, _, found, writeHeartbeat_cases wrote, rfl⟩

end Cases

/-! ## The rows of one worker -/

/-- The step is one of a write of this worker. -/
def ActsFor (worker : WorkerId)
    (transition : Transition HeartbeatState HeartbeatAction) : Prop :=
  ∃ call input write, transition.action = .write call input ∧
    transition.before.writes call = some write ∧ write.workerId = worker

/-- The worker has the same samples in both tables. -/
def SameSamples (worker : WorkerId)
    (left right : Table HeartbeatId WorkerHeartbeat) : Prop :=
  Table.SameWhere left right (WorkerHeartbeat.ofWorker worker)
    (WorkerHeartbeat.ofWorker worker)

/-- The number of samples that a worker has. -/
def sampleCount (heartbeats : Table HeartbeatId WorkerHeartbeat)
    (worker : WorkerId) : Nat :=
  heartbeats.count (WorkerHeartbeat.ofWorker worker)

section Frame

variable {env : Env} {state next : HeartbeatState} {worker : WorkerId}

theorem WriteStep.sameSamples {write : HeartbeatCall} {input : HeartbeatInput}
    {system : State} {heartbeats : Table HeartbeatId WorkerHeartbeat}
    {after : Option HeartbeatCall}
    (wrote : WriteStep env state write input system heartbeats after)
    (other : worker ≠ write.workerId) :
    SameSamples worker state.heartbeats heartbeats := by
  cases wrote with
  | updated => exact .refl _ _
  | @created id _ _ _ inserted =>
      intro key row
      obtain ⟨absent, _⟩ := Table.insert?_eq_some_iff.mp inserted
      rw [Table.get?_insert? inserted]
      by_cases isNew : key = id
      · subst key
        simp only [absent, if_true, reduceCtorEq, false_and, false_iff]
        intro own
        obtain ⟨isRow, isOwn⟩ := own
        cases isRow
        exact other (of_decide_eq_true isOwn).symm
      · rw [if_neg isNew]
  | pruned _ kept =>
      intro key row
      rw [Table.get?_keepFirst_eq_some_iff kept]
      constructor
      · intro own
        obtain ⟨found, isOwn⟩ := own
        refine ⟨⟨found, fun selected => ?_⟩, isOwn⟩
        have isOther := of_decide_eq_true selected
        exact absurd ((of_decide_eq_true isOwn).symm.trans isOther) other
      · intro own
        exact ⟨own.1.1, own.2⟩
  | published => exact .refl _ _
  | failed => exact .refl _ _

theorem heartbeatStep_sameSamples {action : HeartbeatAction}
    (taken : heartbeatStep env state action = some next)
    (idle : ¬ActsFor worker ⟨state, action, next⟩) :
    SameSamples worker state.heartbeats next.heartbeats := by
  cases action with
  | system action =>
      obtain ⟨system, _, rfl⟩ := Option.map_eq_some_iff.mp taken
      exact .refl _ _
  | startWrite call worker activeJobCount cpuLoad =>
      simp only [heartbeatStep] at taken
      split at taken
      · cases taken
        exact .refl _ _
      · cases taken
  | write call input =>
      obtain ⟨write, system, heartbeats, after, found, wrote, rfl⟩ :=
        heartbeatStep_write taken
      apply wrote.sameSamples
      intro same
      exact idle ⟨call, input, write, rfl, found, same.symm⟩

theorem sameSamples_run {start last : HeartbeatState}
    {trace : List (Transition HeartbeatState HeartbeatAction)}
    (run : Run (heartbeatStep env) start trace last)
    (idle : ∀ transition ∈ trace, ¬ActsFor worker transition) :
    SameSamples worker start.heartbeats last.heartbeats := by
  apply run.invariant
    (fun state => SameSamples worker start.heartbeats state.heartbeats) idle
  · exact .refl _ _
  · intro transition idle taken same
    exact same.trans (heartbeatStep_sameSamples taken idle)

end Frame

/-! ## Prunes -/

/-- What a prune leaves of a worker with this many samples. -/
structure Pruned (worker : WorkerId) (samples : Nat)
    (before after : Table HeartbeatId WorkerHeartbeat) : Prop where
  count : sampleCount after worker = min 100 samples
  kept : ∀ {id row}, after.get? id = some row → before.get? id = some row
  newest : ∀ {id row id' row'}, before.get? id = some row →
    after.get? id = none → after.get? id' = some row' →
    row'.workerId = worker → row.timestamp ≤ row'.timestamp
  others : ∀ {other}, other ≠ worker → SameSamples other before after

section Prune

variable {env : Env}

theorem WriteStep.prunes {state : HeartbeatState} {write : HeartbeatCall}
    {order : List HeartbeatId} {system : State}
    {heartbeats : Table HeartbeatId WorkerHeartbeat}
    {after : Option HeartbeatCall}
    (wrote : WriteStep env state write (.deleted order) system heartbeats
      after) :
    Pruned write.workerId (sampleCount state.heartbeats write.workerId)
      state.heartbeats heartbeats := by
  have frame := wrote
  cases wrote with
  | pruned _ keeps =>
      refine ⟨Table.count_keepFirst keeps, ?_, ?_, ?_⟩
      · intro id row found
        exact ((Table.get?_keepFirst_eq_some_iff keeps).mp found).1
      · intro id row id' row' found deleted isKept isOwn
        have before := Table.before_of_keepFirst keeps isKept
          (decide_eq_true isOwn) found deleted
        simpa [WorkerHeartbeat.latestFirst] using before
      · intro other different
        exact frame.sameSamples different

/-- Only the insertion of its sample makes a write await its prune. -/
theorem action_of_awaits_prune {state next : HeartbeatState}
    {action : HeartbeatAction}
    (taken : heartbeatStep env state action = some next) {call : CallId}
    {write : HeartbeatCall} (phase : write.phase = .prune)
    (before : state.writes call ≠ some write)
    (after : next.writes call = some write) :
    ∃ id timestamp, action = .write call (.created id timestamp) := by
  cases action with
  | system action =>
      obtain ⟨system, _, rfl⟩ := Option.map_eq_some_iff.mp taken
      refine absurd ?_ before
      dsimp only at after
      unfold HeartbeatState.writesAfter at after
      split at after
      · exact (Option.filter_eq_some_iff.mp after).1
      · exact after
  | startWrite other worker activeJobCount cpuLoad =>
      simp only [heartbeatStep] at taken
      split at taken
      · cases taken
        by_cases same : call = other
        · subst same
          dsimp only at after
          rw [Function.update_self] at after
          cases after
          cases phase
        · dsimp only at after
          rw [Function.update_of_ne same] at after
          exact absurd after before
      · cases taken
  | write other input =>
      obtain ⟨value, system, heartbeats, result, found, wrote, rfl⟩ :=
        heartbeatStep_write taken
      dsimp only at after
      by_cases same : call = other
      · subst same
        rw [Function.update_self] at after
        subst after
        cases wrote with
        | created => exact ⟨_, _, rfl⟩
        | _ => cases phase
      · rw [Function.update_of_ne same] at after
        exact absurd after before

/-- A write that awaits its prune has done so since it inserted its sample. -/
theorem exists_insert_of_prune {start last : HeartbeatState}
    {trace : List (Transition HeartbeatState HeartbeatAction)}
    (run : Run (heartbeatStep env) start trace last) {call : CallId}
    (idle : start.writes call = none) {write : HeartbeatCall}
    (called : last.writes call = some write) (phase : write.phase = .prune) :
    ∃ first insert between id timestamp, trace = first ++ insert :: between ∧
      insert.action = .write call (.created id timestamp) ∧
      ∀ transition ∈ between, transition.before.writes call = some write := by
  have absent : ¬start.writes call = some write := by
    rw [idle]
    exact nofun
  obtain ⟨first, insert, between, rfl, before, after, awaits⟩ :=
    run.exists_last_crossing (fun state => state.writes call = some write)
      absent called
  obtain ⟨id, timestamp, inserts⟩ :=
    action_of_awaits_prune run.around.2.1 phase before after
  exact ⟨first, insert, between, id, timestamp, rfl, inserts, awaits⟩

end Prune

/-- After every prune of a write the worker has at most a hundred samples, none
of the deleted ones newer than these, and no other worker has lost or gained
any.  If the writes of the worker come one after another, the samples it had
are those after the insertion. -/
theorem heartbeats_newest {env : Env} {start last : HeartbeatState}
    {trace : List (Transition HeartbeatState HeartbeatAction)}
    (run : Run (heartbeatStep env) start trace last)
    (idle : ∀ call, start.writes call = none)
    {earlier later : List (Transition HeartbeatState HeartbeatAction)}
    {prune : Transition HeartbeatState HeartbeatAction}
    (whole : trace = earlier ++ prune :: later) {call : CallId}
    {order : List HeartbeatId}
    (prunes : prune.action = .write call (.deleted order)) :
    ∃ write, prune.before.writes call = some write ∧
    Pruned write.workerId
      (sampleCount prune.before.heartbeats write.workerId)
      prune.before.heartbeats prune.after.heartbeats ∧
    ∃ first insert between id timestamp,
      earlier = first ++ insert :: between ∧
      insert.action = .write call (.created id timestamp) ∧
      (∀ transition ∈ between,
        transition.before.writes call = some write) ∧
      ((∀ transition ∈ between, ¬ActsFor write.workerId transition) →
        Pruned write.workerId
          (sampleCount insert.after.heartbeats write.workerId)
          prune.before.heartbeats prune.after.heartbeats) := by
  subst whole
  obtain ⟨before, taken, _⟩ := run.around
  rw [prunes] at taken
  obtain ⟨write, system, heartbeats, after, found, wrote, isNext⟩ :=
    heartbeatStep_write taken
  have phase : write.phase = .prune := by
    cases wrote with
    | pruned phase => exact phase
  have pruned := wrote.prunes
  rw [show heartbeats = prune.after.heartbeats by rw [isNext]] at pruned
  obtain ⟨first, insert, between, id, timestamp, rfl, inserts, awaits⟩ :=
    exists_insert_of_prune before (idle call) found phase
  refine ⟨write, found, pruned, first, insert, between, id, timestamp, rfl,
    inserts, awaits, ?_⟩
  intro alone
  have same := sameSamples_run before.around.2.2 alone
  rw [show sampleCount insert.after.heartbeats write.workerId =
    sampleCount prune.before.heartbeats write.workerId from same.count_eq]
  exact pruned

/-- A hundred samples of worker 1, two at each time, and one of worker 2. -/
def HeartbeatState.fullHistory : HeartbeatState where
  system := (World.sample 10 .empty).idle
  heartbeats :=
    ⟨(List.range 100).map (fun id => (id, ⟨1, id / 2, 0, some 0⟩)) ++
      [(100, ⟨2, 0, 0, none⟩)], by decide +kernel⟩
  writes := fun _ => none

/-- The samples of worker 1 after it has added the sample 101, from the newest
on. -/
def HeartbeatState.newestOrder : List HeartbeatId :=
  101 :: (List.range 100).reverse

/-- Of the two oldest samples, which have the same time, the prune deletes
one. -/
theorem heartbeats_newest_tied : ∃ trace last prune,
    Run (heartbeatStep .sample) .fullHistory trace last ∧ prune ∈ trace ∧
    (prune.before.heartbeats.get? 0).map (·.timestamp) = some 0 ∧
    prune.after.heartbeats.get? 0 = none ∧
    (prune.after.heartbeats.get? 1).map (·.timestamp) = some 0 ∧
    Pruned 1 101 prune.before.heartbeats prune.after.heartbeats := by
  let order := HeartbeatState.newestOrder
  have recorded : ∃ trace last, ∃ prune ∈ (trace.drop 3).head?,
      record (heartbeatStep .sample) .fullHistory
        [.startWrite 9 1 0 0, .write 9 .ok, .write 9 (.created 101 50),
          .write 9 (.deleted order), .write 9 .ok] = some (trace, last) ∧
      prune.action = .write 9 (.deleted order) ∧
      (prune.before.writes 9).map (·.workerId) = some 1 ∧
      sampleCount prune.before.heartbeats 1 = 101 ∧
      (prune.before.heartbeats.get? 0).map (·.timestamp) = some 0 ∧
      prune.after.heartbeats.get? 0 = none ∧
      (prune.after.heartbeats.get? 1).map (·.timestamp) = some 0 :=
    ⟨_, _, _, rfl, rfl, rfl, rfl, rfl, rfl, rfl, rfl⟩
  obtain ⟨trace, last, prune, isPrune, recorded, prunes, worker, samples,
    oldest, deleted, kept⟩ := recorded
  have run := Run.of_record recorded
  have whole := List.eq_take_append_cons isPrune
  obtain ⟨write, found, pruned, _⟩ :=
    heartbeats_newest run (fun _ => rfl) whole prunes
  rw [found, Option.map_some, Option.some.injEq] at worker
  rw [worker, samples] at pruned
  refine ⟨trace, last, prune, run, ?_, oldest, deleted, kept, pruned⟩
  rw [whole]
  simp

end Chronos
