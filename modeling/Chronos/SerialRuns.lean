import Chronos.JobIndependence

/-!
# One call after another

The steps that one call takes in an interleaving can be taken again with the
other calls left out or already settled, and at other times.  So for every
order of the calls there is a run in which each begins when the one before it
has settled, and it ends with the same records.
-/

namespace Chronos

/-! ## The same step in another world -/

/-- A write to the row of the job and the insertion of its dead letter go
through in both worlds or in neither. -/
structure Twin (job : JobId) (world world' : World) : Prop where
  row : (world'.jobs.get? job).isSome = (world.jobs.get? job).isSome
  locks : world'.locks job = world.locks job
  letter : (world'.deadLetters.get? job).isSome =
    (world.deadLetters.get? job).isSome

/-- A call and its replay stand at the same await.  Their executions have
different ids and began at different times, equally long ago while the handler
runs. -/
inductive Replays (job : JobId) (world world' : World) :
    Standing → Standing → Prop where
  | reading :
      world'.jobs.get? job = world.jobs.get? job →
      Replays job world world' (.awaiting .findJob) (.awaiting .findJob)
  | marking {row : Job} {policy : RetryPolicy} :
      Replays job world world' (.awaiting (.markRunning row policy))
        (.awaiting (.markRunning row policy))
  | announcing {row : Job} {policy : RetryPolicy} :
      Replays job world world' (.awaiting (.publishRunning row policy))
        (.awaiting (.publishRunning row policy))
  | creating {row : Job} {policy : RetryPolicy} :
      Replays job world world' (.awaiting (.createExecution row policy))
        (.awaiting (.createExecution row policy))
  | handling {row : Job} {policy : RetryPolicy} {id id' : ExecutionId}
      {startedAt startedAt' : Time} {buffer : List LogEntry} :
      world'.now - startedAt' = world.now - startedAt →
      Replays job world world'
        (.awaiting (.handler ⟨row, policy, id, startedAt, buffer⟩))
        (.awaiting (.handler ⟨row, policy, id', startedAt', buffer⟩))
  | completing {row : Job} {policy : RetryPolicy} {id id' : ExecutionId}
      {startedAt startedAt' : Time} {buffer : List LogEntry}
      {durationMs : Int} :
      Replays job world world'
        (.awaiting (.complete ⟨row, policy, id, startedAt, buffer⟩ durationMs))
        (.awaiting (.complete ⟨row, policy, id', startedAt', buffer⟩
          durationMs))
  | retrying {row : Job} {policy : RetryPolicy} {id id' : ExecutionId}
      {startedAt startedAt' runAt runAt' : Time} {buffer : List LogEntry}
      {failure : Failure} {delayMs : Int} :
      Replays job world world'
        (.awaiting (.retry ⟨row, policy, id, startedAt, buffer⟩ failure delayMs
          runAt))
        (.awaiting (.retry ⟨row, policy, id', startedAt', buffer⟩ failure
          delayMs runAt'))
  | burying {row : Job} {policy : RetryPolicy} {id id' : ExecutionId}
      {startedAt startedAt' : Time} {buffer : List LogEntry}
      {failure : Failure} :
      Replays job world world'
        (.awaiting (.deadLetter ⟨row, policy, id, startedAt, buffer⟩ failure))
        (.awaiting (.deadLetter ⟨row, policy, id', startedAt', buffer⟩
          failure))
  | publishing {row : Job} {status : String} :
      Replays job world world' (.awaiting (.publish row status))
        (.awaiting (.publish row status))
  | settled : Replays job world world' .settled .settled

/-- The call can take this step in the other world as well. -/
structure Repeats (script : Script) (job : JobId) (worker : WorkerId)
    (next world' : World) (phase' : ExecPhase) (standing : Standing)
    (input' : ExecInput) (next' : World) (exec' : Option ExecCall) : Prop where
  taken : executeJob world' ⟨job, worker, phase'⟩ input' = some (next', exec')
  admits : script.Admits world'.now phase' input'
  twin : Twin job next next'
  replays : Replays job next next' standing (.ofCall exec')

section Steps

variable {job : JobId} {worker : WorkerId} {world world' next next' : World}
  {script : Script}

theorem Twin.writable (twin : Twin job world world') :
    world'.writable job = world.writable job := by
  unfold World.writable
  rw [twin.row, twin.locks]

theorem Twin.letter_absent (twin : Twin job world world')
    (absent : world.deadLetters.get? job = none) :
    world'.deadLetters.get? job = none := by
  have same := twin.letter
  rwa [absent, Option.isSome_none, Option.isSome_eq_false_iff,
    Option.isNone_iff_eq_none] at same

theorem Twin.updated (twin : Twin job world world') {update update' : Job → Job}
    (jobs : next.jobs = world.jobs.modify job update)
    (jobs' : next'.jobs = world'.jobs.modify job update')
    (locks : next.locks = world.locks) (locks' : next'.locks = world'.locks)
    (letter : (next'.deadLetters.get? job).isSome =
      (next.deadLetters.get? job).isSome) : Twin job next next' where
  row := by
    rw [jobs, jobs', Table.get?_modify_self, Table.get?_modify_self,
      Option.isSome_map, Option.isSome_map]
    exact twin.row
  locks := by
    rw [locks, locks']
    exact twin.locks
  letter := letter

theorem Twin.commitDeadLetter (twin : Twin job world world')
    {attempt : Attempt} {failure : Failure}
    (success : world.commitDeadLetter job attempt failure = some next)
    (attempt' : Attempt) (failure' : Failure) :
    ∃ next', world'.commitDeadLetter job attempt' failure' = some next' ∧
      Twin job next next' := by
  obtain ⟨letters, logs, inserted, rfl⟩ := World.commitDeadLetter_spec success
  have absent := (Table.insert?_eq_some_iff.mp inserted).1
  obtain ⟨next', committed⟩ := World.exists_commitDeadLetter
    (twin.letter_absent absent) attempt' failure'
  refine ⟨next', committed, ?_⟩
  obtain ⟨letters', logs', inserted', rfl⟩ :=
    World.commitDeadLetter_spec committed
  have letter := (Table.get?_insert? inserted).trans (if_pos rfl)
  have letter' := (Table.get?_insert? inserted').trans (if_pos rfl)
  have both : (letters'.get? job).isSome = (letters.get? job).isSome :=
    (congrArg Option.isSome letter').trans
      (congrArg Option.isSome letter).symm
  exact twin.updated rfl rfl rfl rfl both

theorem Twin.same (twin : Twin job world world') (rows : SameRows world next)
    (rows' : SameRows world' next') : Twin job next next' where
  row := by
    rw [rows.jobs, rows'.jobs]
    exact twin.row
  locks := by
    rw [rows.locks, rows'.locks]
    exact twin.locks
  letter := by
    rw [rows.deadLetters, rows'.deadLetters]
    exact twin.letter

theorem Script.Admits.of_handler {row : Job} {policy : RetryPolicy}
    {id id' : ExecutionId} {startedAt startedAt' now now' : Time}
    {buffer : List LogEntry} {input : ExecInput}
    (admits : script.Admits now
      (.handler ⟨row, policy, id, startedAt, buffer⟩) input)
    (same : now' - startedAt' = now - startedAt) :
    script.Admits now' (.handler ⟨row, policy, id', startedAt', buffer⟩)
      input := by
  cases input with
  | resolved =>
      obtain ⟨lines, duration, settles⟩ := admits
      exact ⟨lines, same.trans duration, settles⟩
  | failed error random =>
      obtain ⟨lines, duration, settles⟩ := admits
      exact ⟨lines, same.trans duration, settles⟩
  | ok => trivial
  | created => trivial
  | log => trivial

theorem Replays.rejected {row : Job} {policy : RetryPolicy}
    {id id' : ExecutionId} {startedAt startedAt' : Time}
    {buffer : List LogEntry}
    (same : world'.now - startedAt' = world.now - startedAt) (error : String)
    (random : Draw) :
    Replays job world world'
      (.awaiting (handleFailure world ⟨row, policy, id, startedAt, buffer⟩
        error random))
      (.awaiting (handleFailure world' ⟨row, policy, id', startedAt', buffer⟩
        error random)) := by
  unfold handleFailure
  dsimp only
  rw [same]
  split
  · rename_i more
    split
    · exact .retrying
    · rename_i last
      exact absurd more last
  · rename_i last
    split
    · rename_i more
      exact absurd more last
    · exact .burying

theorem ExecStep.repeats {phase : ExecPhase} {input : ExecInput}
    {exec' : Option ExecCall} {standing' : Standing}
    (case : ExecStep world ⟨job, worker, phase⟩ input next exec')
    (replays : Replays job world world' (.awaiting phase) standing')
    (twin : Twin job world world')
    (policies : ∀ row, world'.retryPolicyOf row = world.retryPolicyOf row)
    (admits : script.Admits world.now phase input) :
    ∃ phase' input' next' exec'', standing' = .awaiting phase' ∧
      Repeats script job worker next world' phase' (.ofCall exec') input' next'
        exec'' := by
  cases case with
  | jobMissing isPhase absent =>
      cases isPhase
      cases replays with
      | reading same =>
          have taken : executeJob world' ⟨job, worker, .findJob⟩ .ok =
              some (world', none) := by
            simp [executeJob, same.trans absent]
          exact ⟨_, _, _, _, rfl, taken, trivial, twin, .settled⟩
  | @found row isPhase present =>
      cases isPhase
      cases replays with
      | reading same =>
          have taken : executeJob world' ⟨job, worker, .findJob⟩ .ok =
              some (world', some ⟨job, worker,
                .markRunning row (world.retryPolicyOf row)⟩) := by
            simp [executeJob, same.trans present, policies]
          exact ⟨_, _, _, _, rfl, taken, trivial, twin, .marking⟩
  | @marked row policy isPhase writable =>
      cases isPhase
      cases replays with
      | marking =>
          have taken : executeJob world'
              ⟨job, worker, .markRunning row policy⟩ .ok =
              some (world'.updateJob job (Job.markRunning world'.now),
                some ⟨job, worker, .publishRunning row policy⟩) := by
            simp [executeJob, twin.writable.trans writable]
          exact ⟨_, _, _, _, rfl, taken, trivial,
            twin.updated rfl rfl rfl rfl twin.letter, .announcing⟩
  | announced isPhase rows =>
      cases isPhase
      cases replays with
      | announcing =>
          exact ⟨_, .ok, _, _, rfl, rfl, trivial,
            twin.same rows (SameRows.publish _ _), .creating⟩
  | @created row policy _ _ isPhase =>
      cases isPhase
      cases replays with
      | creating =>
          obtain ⟨id, fresh⟩ := world'.executions.exists_fresh
          obtain ⟨executions, inserted⟩ := Table.exists_insert?
            { jobId := job, workerId := worker
              attemptNumber := row.attemptCount + 1, startedAt := world'.now
              finishedAt := none, status := .running
              errorMessage := none, durationMs := none : JobExecution } fresh
          have taken : executeJob world'
              ⟨job, worker, .createExecution row policy⟩ (.created id) =
              some ({ world' with executions := executions },
                some ⟨job, worker,
                  .handler ⟨row, policy, id, world'.now, []⟩⟩) := by
            simp [executeJob, inserted]
          have began : world'.now - world'.now = world.now - world.now :=
            (Int.sub_self _).trans (Int.sub_self _).symm
          exact ⟨_, _, _, _, rfl, taken, trivial,
            ⟨twin.row, twin.locks, twin.letter⟩, .handling began⟩
  | logged isPhase =>
      cases isPhase
      cases replays with
      | handling same =>
          exact ⟨_, _, _, _, rfl, rfl, admits.of_handler same, twin,
            .handling same⟩
  | resolved isPhase =>
      cases isPhase
      cases replays with
      | handling same =>
          refine ⟨_, _, _, _, rfl, rfl, admits.of_handler same, twin, ?_⟩
          rw [same]
          exact .completing
  | rejected isPhase =>
      rcases isPhase with isPhase | ⟨_, isPhase⟩
      · cases isPhase
        cases replays with
        | handling same =>
            exact ⟨_, _, _, _, rfl, rfl, admits.of_handler same, twin,
              .rejected same _ _⟩
      · cases isPhase
        cases admits
  | @completed _ durationMs isPhase writable =>
      cases isPhase
      cases replays with
      | @completing row policy _ id' _ startedAt' buffer =>
          have taken : executeJob world' ⟨job, worker,
              .complete ⟨row, policy, id', startedAt', buffer⟩ durationMs⟩ .ok =
              some (world'.commitCompleted job
                  ⟨row, policy, id', startedAt', buffer⟩ durationMs,
                some ⟨job, worker, .publish row "completed"⟩) := by
            simp [executeJob, twin.writable.trans writable]
          exact ⟨_, _, _, _, rfl, taken, trivial,
            twin.updated rfl rfl rfl rfl twin.letter, .publishing⟩
  | @retried _ failure delayMs _ isPhase writable =>
      cases isPhase
      cases replays with
      | @retrying row policy _ id' _ startedAt' _ runAt' buffer =>
          have taken : executeJob world' ⟨job, worker,
              .retry ⟨row, policy, id', startedAt', buffer⟩ failure delayMs
                runAt'⟩ .ok =
              some (world'.commitRetry job
                  ⟨row, policy, id', startedAt', buffer⟩ failure delayMs runAt',
                some ⟨job, worker, .publish row "failed_retrying"⟩) := by
            simp [executeJob, twin.writable.trans writable]
          exact ⟨_, _, _, _, rfl, taken, trivial,
            twin.updated rfl rfl rfl rfl twin.letter, .publishing⟩
  | @deadLettered _ failure _ isPhase writable success =>
      cases isPhase
      cases replays with
      | @burying row policy _ id' _ startedAt' buffer =>
          obtain ⟨after, committed, twins⟩ := twin.commitDeadLetter success
            ⟨row, policy, id', startedAt', buffer⟩ failure
          have taken : executeJob world' ⟨job, worker,
              .deadLetter ⟨row, policy, id', startedAt', buffer⟩ failure⟩ .ok =
              some (after, some ⟨job, worker, .publish row "dead_letter"⟩) := by
            simp [executeJob, twin.writable.trans writable, committed]
          exact ⟨_, _, _, _, rfl, taken, trivial, twins, .publishing⟩
  | published isPhase rows =>
      cases isPhase
      cases replays with
      | publishing =>
          exact ⟨_, .ok, _, _, rfl, rfl, trivial,
            twin.same rows (SameRows.publish _ _), .settled⟩
  | abandoned escapes => exact (admits.not_escaping escapes).elim

end Steps

/-! ## Replaying a call -/

/-- Nothing that the call reads first or that could stop it has changed since
`start`. -/
structure Awaits (launch : Launch) (start state : State) : Prop where
  called : state.calls launch.call =
    some (.exec ⟨launch.job, launch.worker, .findJob⟩)
  row : state.world.jobs.get? launch.job = start.world.jobs.get? launch.job
  letter : state.world.deadLetters.get? launch.job =
    start.world.deadLetters.get? launch.job
  locks : state.world.locks launch.job = start.world.locks launch.job

section Replay

variable {env : Env} {launches : List Launch} {start last state next : State}
  {trace : List (Transition State Action)} {launch : Launch}

theorem step_of_executeJob {call : CallId} {exec : ExecCall}
    {input : ExecInput} {world : World} {exec' : Option ExecCall}
    (called : state.calls call = some (.exec exec))
    (taken : executeJob state.world exec input = some (world, exec')) :
    step env state (.exec call input) =
      some ⟨world, Function.update state.calls call (exec'.map .exec)⟩ := by
  simp only [step, called, State.resume, taken, Option.map_some]

/-- While the row of the job is left alone and the same time passes in both
worlds, a call and its replay stand where they stood. -/
theorem Replays.meanwhile {job : JobId} {world next world' next' : World}
    {standing standing' : Standing}
    (replays : Replays job world world' standing standing')
    (row : next.jobs.get? job = world.jobs.get? job)
    (row' : next'.jobs.get? job = world'.jobs.get? job)
    (passed : next'.now - world'.now = next.now - world.now) :
    Replays job next next' standing standing' := by
  cases replays with
  | reading same => exact .reading (row'.trans (same.trans row.symm))
  | @handling _ _ _ _ startedAt startedAt' _ same =>
      apply Replays.handling
      calc next'.now - startedAt'
          = (next'.now - world'.now) + (world'.now - startedAt') :=
            (sub_add_sub_cancel ..).symm
        _ = (next.now - world.now) + (world.now - startedAt) := by
            rw [passed, same]
        _ = next.now - startedAt := sub_add_sub_cancel ..
  | marking => exact .marking
  | announcing => exact .announcing
  | creating => exact .creating
  | completing => exact .completing
  | retrying => exact .retrying
  | burying => exact .burying
  | publishing => exact .publishing
  | settled => exact .settled

theorem Twin.recordsKept {job : JobId} {world next world' : World}
    (twin : Twin job world world') (kept : RecordsKept job world next)
    (locks : next.locks = world.locks) : Twin job next world' where
  row := by
    rw [kept.row]
    exact twin.row
  locks := by
    rw [locks]
    exact twin.locks
  letter := by
    rw [kept.deadLetter]
    exact twin.letter

/-- The steps of a call can be taken again without those of the others, from
any state in which the call is as it was. -/
theorem ExecRun.replay {standing : Standing} {state : State}
    (history : ExecRun env launch.call launch.job launch.worker start trace last
      standing)
    (launched : Launched launches start) (member : launch ∈ launches)
    (rows : AttemptRows start)
    (scheduled : ∀ transition ∈ trace, Scheduled launches transition)
    (awaits : Awaits launch start state)
    (policies : ∀ row,
      state.world.retryPolicyOf row = start.world.retryPolicyOf row) :
    ∃ trace' last' standing', Run (step env) state trace' last' ∧
      (∀ transition ∈ trace', Scheduled [launch] transition) ∧
      last'.calls launch.call = standing'.call? launch.job launch.worker ∧
      Twin launch.job last.world last'.world ∧
      Replays launch.job last.world last'.world standing standing' := by
  induction history with
  | launched =>
      refine ⟨[], state, .awaiting .findJob, .nil, List.forall_mem_nil _,
        awaits.called, ?_, .reading awaits.row⟩
      exact ⟨congrArg Option.isSome awaits.row, awaits.locks,
        congrArg Option.isSome awaits.letter⟩
  | @own trace before after phase input exec' history taken case _ induction =>
      rw [List.forall_mem_append, List.forall_mem_singleton] at scheduled
      obtain ⟨trace', last', standing', run, alone, called, twin, replays⟩ :=
        induction scheduled.1
      have admits := launched.admits member scheduled.2 rfl history.calls
      have samePolicies : ∀ row, last'.world.retryPolicyOf row =
          before.world.retryPolicyOf row := by
        intro row
        calc last'.world.retryPolicyOf row
            = state.world.retryPolicyOf row := retryPolicyOf_of_run run row
          _ = start.world.retryPolicyOf row := policies row
          _ = before.world.retryPolicyOf row :=
              (retryPolicyOf_of_run history.run row).symm
      obtain ⟨phase', input', world', exec'', rfl, again⟩ :=
        case.repeats replays twin samePolicies admits
      have taken' : step env last' (.exec launch.call input') = some _ :=
        step_of_executeJob called again.taken
      refine ⟨_, _, _, run.snoc taken', ?_, ?_, again.twin, again.replays⟩
      · rw [List.forall_mem_append, List.forall_mem_singleton]
        exact ⟨alone, .own List.mem_cons_self rfl called again.admits⟩
      · rw [← (executeJob_cases again.taken).same_call]
        exact Function.update_self ..
  | @meanwhile trace before after standing action history taken other _
      induction =>
      rw [List.forall_mem_append, List.forall_mem_singleton] at scheduled
      obtain ⟨trace', last', standing', run, alone, called, twin, replays⟩ :=
        induction scheduled.1
      have rows : AttemptRows before := AttemptRows.run rows history.run
      have kept : RecordsKept launch.job before.world after.world := by
        apply scheduled.2.recordsKept rows taken
        intro launch' member' same
        rw [launched.eq_of_job member member' same]
        exact other
      cases scheduled.2 with
      | own _ action calledOther =>
          cases action
          cases step_acting taken rfl calledOther with
          | exec executes =>
              have frame := (executeJob_cases executes).frame
              have locks : after.world.locks = before.world.locks := by
                rw [frame]
              have passed : last'.world.now - last'.world.now =
                  after.world.now - before.world.now := by
                rw [frame, sub_self, sub_self]
              exact ⟨trace', last', standing', run, alone, called,
                twin.recordsKept kept locks,
                replays.meanwhile kept.row rfl passed⟩
      | @clock now action =>
          cases action
          simp only [step, Option.ite_none_right_eq_some, Option.some.injEq]
            at taken
          obtain ⟨later, rfl⟩ := taken
          have passed : (last'.world.now + (now - before.world.now)) -
              last'.world.now = now - before.world.now := add_sub_cancel_left ..
          have later' : last'.world.now ≤
              last'.world.now + (now - before.world.now) :=
            le_add_of_nonneg_right (sub_nonneg.mpr later)
          have taken' : step env last'
              (.advance (last'.world.now + (now - before.world.now))) =
              some { last' with world := { last'.world with
                now := last'.world.now + (now - before.world.now) } } :=
            if_pos later'
          refine ⟨_, _, standing', run.snoc taken', ?_, called,
            ⟨twin.row, twin.locks, twin.letter⟩, replays.meanwhile rfl rfl passed⟩
          rw [List.forall_mem_append, List.forall_mem_singleton]
          exact ⟨alone, .clock rfl⟩
  | stopped history taken _ induction =>
      rw [List.forall_mem_append, List.forall_mem_singleton] at scheduled
      cases scheduled.2.begins.2

end Replay

/-! ## One call after another -/

section Serial

variable {env : Env} {launches order : List Launch} {start state last : State}
  {trace : List (Transition State Action)} {launch other : Launch}

theorem Interleaving.awaits
    (single : Interleaving env [launch] state trace last)
    (rows : AttemptRows state) (awaits : Awaits other start state)
    (different : launch.job ≠ other.job) : Awaits other start last := by
  obtain ⟨run, scheduled, -⟩ := single
  induction run with
  | nil => exact awaits
  | @snoc trace before after action run taken induction =>
      rw [List.forall_mem_append, List.forall_mem_singleton] at scheduled
      have rows : AttemptRows before := AttemptRows.run rows run
      have awaits := induction scheduled.1
      have kept : RecordsKept other.job before.world after.world := by
        apply scheduled.2.recordsKept rows taken
        intro launch' member same
        rw [List.mem_singleton.mp member] at same
        exact (different same).elim
      cases scheduled.2 with
      | @own acting _ _ member action called =>
          cases List.mem_singleton.mp member
          dsimp only at action called
          subst action
          have otherCall : launch.call ≠ other.call := by
            intro same
            rw [same, awaits.called, Option.some.injEq, Call.exec.injEq,
                ExecCall.mk.injEq] at called
            exact different called.1.symm
          have calls := step_keeps taken rfl awaits.called
            fun same => otherCall (Option.some.inj same)
          cases step_acting taken rfl called with
          | exec executes =>
              have frame := (executeJob_cases executes).frame
              exact ⟨calls, kept.row.trans awaits.row,
                kept.deadLetter.trans awaits.letter,
                (by rw [frame]; exact awaits.locks)⟩
      | clock action =>
          dsimp only at action
          subst action
          simp only [step, Option.ite_none_right_eq_some, Option.some.injEq]
            at taken
          obtain ⟨-, rfl⟩ := taken
          exact ⟨awaits.called, awaits.row, awaits.letter, awaits.locks⟩

/-- The calls of an interleaving can be run one after another in any order. -/
theorem exists_serialRun
    (interleaved : Interleaving env launches start trace last)
    (launched : Launched launches start) (rows : AttemptRows start)
    {past : List (Transition State Action)}
    (run : Run (step env) start past state)
    (distinct : (order.map (·.job)).Nodup) (subset : order ⊆ launches)
    (awaits : ∀ launch ∈ order, Awaits launch start state) :
    ∃ trace' last', SerialRun env order state trace' last' := by
  induction order generalizing state past with
  | nil => exact ⟨[], state, .nil⟩
  | cons launch order induction =>
      rw [List.map_cons, List.nodup_cons] at distinct
      rw [List.forall_mem_cons] at awaits
      have member := subset List.mem_cons_self
      have history := interleaved.history launched member
      obtain ⟨trace', middle, standing', replayed, alone, calls, -, replays⟩ :=
        history.replay launched member rows interleaved.scheduled awaits.1
          fun row => retryPolicyOf_of_run run row
      have settled : middle.calls launch.call = none := by
        cases replays
        exact calls
      have single : Interleaving env [launch] state trace' middle := by
        refine ⟨replayed, alone, ?_⟩
        rw [List.forall_mem_singleton]
        exact settled
      have rowsNow : AttemptRows state := AttemptRows.run rows run
      have stillAwaits : ∀ other ∈ order, Awaits other start middle := by
        intro other inOrder
        apply single.awaits rowsNow (awaits.2 other inOrder)
        intro same
        exact distinct.1 (List.mem_map.mpr ⟨other, inOrder, same.symm⟩)
      obtain ⟨later, last', serial⟩ := induction (run.append replayed)
        distinct.2 (List.subset_of_cons_subset subset) stillAwaits
      exact ⟨_, _, .cons single serial⟩

/-- However the steps of the calls are interleaved, the calls can be run one
after another in any order, and the records of every job are the same in the
end. -/
theorem executions_independent {first : State}
    {past : List (Transition State Action)} (initial : Initial first)
    (closed : first.world.LogsClosed) (earlier : Run (step env) first past start)
    (launched : Launched launches start)
    (interleaved : Interleaving env launches start trace last)
    (permuted : order.Perm launches) :
    (∃ trace' last', SerialRun env order start trace' last') ∧
      ∀ trace' last', SerialRun env order start trace' last' →
        ∀ job, last.world.recordsOf job = last'.world.recordsOf job := by
  have rows : AttemptRows start := attemptRows_of_run initial earlier
  have closedNow : start.world.LogsClosed :=
    logsClosed_of_run earlier (attemptRows_of_initial initial) closed
  have inOrder := launched.perm permuted
  constructor
  · apply exists_serialRun interleaved launched rows .nil inOrder.distinct
      permuted.subset
    intro launch member
    exact ⟨inOrder.called launch member, rfl, rfl, rfl⟩
  · intro trace' last' serial job
    exact (interleaved.recordsOf_eq serial.interleaving permuted launched rows
      closedNow job).symm

end Serial

/-! ## Two calls -/

deriving instance DecidableEq for LogEntry, Draw, Settlement

instance (script : Script) (now : Time) (phase : ExecPhase)
    (input : ExecInput) : Decidable (script.Admits now phase input) := by
  cases phase <;> cases input <;> dsimp only [Script.Admits] <;> infer_instance

/-- The step is in the schedule, by evaluation. -/
def follows (launches : List Launch) (transition : Transition State Action) :
    Bool :=
  match transition.action with
  | .exec call input =>
      match transition.before.calls call with
      | some (.exec exec) =>
          launches.any fun launch =>
            launch.call = call && launch.job = exec.jobId &&
              launch.worker = exec.workerId &&
              decide (launch.script.Admits transition.before.world.now
                exec.phase input)
      | _ => false
  | .advance _ => true
  | _ => false

theorem Scheduled.of_follows {launches : List Launch}
    {transition : Transition State Action}
    (passes : follows launches transition = true) :
    Scheduled launches transition := by
  unfold follows at passes
  split at passes
  · rename_i call input action
    split at passes
    · rename_i exec called
      obtain ⟨launch, member, same⟩ := List.any_eq_true.mp passes
      simp only [Bool.and_eq_true, decide_eq_true_eq] at same
      obtain ⟨⟨⟨rfl, sameJob⟩, sameWorker⟩, admits⟩ := same
      apply Scheduled.own member action _ admits
      rw [called, sameJob, sameWorker]
    · cases passes
  · exact .clock ‹_›
  · cases passes

/-- The handler of job 7 logs a line and resolves after 5 ms. -/
def Launch.resolving : Launch where
  call := 2
  job := 7
  worker := 1
  script := ⟨[⟨"info", "halfway"⟩], 5, .resolved⟩

/-- The handler of job 8 rejects after 3 ms. -/
def Launch.rejecting : Launch where
  call := 5
  job := 8
  worker := 1
  script := ⟨[], 3, .rejected "refused" .zero⟩

/-- Both calls have been launched. -/
def State.bothLaunched (state : State) : Bool :=
  state.justLaunched 2 7 1 && state.justLaunched 5 8 1 &&
    state.status? 7 = some .claimed && state.status? 8 = some .claimed

theorem State.launched_of_bothLaunched {state : State}
    (both : state.bothLaunched = true) :
    Launched [.resolving, .rejecting] state := by
  simp only [bothLaunched, Bool.and_eq_true, decide_eq_true_eq,
    State.justLaunched_iff] at both
  obtain ⟨⟨⟨resolving, rejecting⟩, first⟩, second⟩ := both
  constructor
  case distinct => decide
  case called =>
    rw [List.forall_mem_cons, List.forall_mem_singleton]
    exact ⟨resolving, rejecting⟩
  case claimed =>
    rw [List.forall_mem_cons, List.forall_mem_singleton]
    exact ⟨Option.map_eq_some_iff.mp first, Option.map_eq_some_iff.mp second⟩

/-- The steps of the two calls alternate; then the call of job 8 runs first and
that of job 7 after it. -/
theorem executions_independent_alternating :
    ∃ start trace last,
      Interleaving .sample [.resolving, .rejecting] start trace last ∧
      last.status? 7 = some .completed ∧ last.status? 8 = some .queued ∧
      (∃ trace' last',
        SerialRun .sample [.rejecting, .resolving] start trace' last') ∧
      ∀ trace' last',
        SerialRun .sample [.rejecting, .resolving] start trace' last' →
        ∀ job, last.world.recordsOf job = last'.world.recordsOf job := by
  obtain ⟨trace, last, run, ⟨launch, isLaunch, both⟩, passes, first, second,
      completed, queued⟩ :=
    exists_run_of_check (step .sample)
      (World.sample 2
        ⟨[(7, Job.sample .queued), (8, Job.sample .queued)], by simp⟩).idle
      (claimActions 1 1 [7, 8] ++
        ([.launch 1 2, .launch 1 5, .exec 2 .ok, .exec 5 .ok, .exec 5 .ok,
          .exec 2 .ok, .exec 2 .ok, .exec 5 (.failed "lost" .zero),
          .exec 5 (.created 0), .exec 2 (.created 1),
          .exec 2 (.log "info" "halfway"), .advance 3,
          .exec 5 (.failed "refused" .zero), .advance 5, .exec 2 .resolved,
          .exec 5 .ok, .exec 2 .ok, .exec 2 .ok, .exec 5 .ok] : List Action))
      (fun trace last =>
        (∃ launch ∈ (trace.drop 9).head?, launch.after.bothLaunched = true) ∧
        (∀ transition ∈ trace.drop 10,
          follows [.resolving, .rejecting] transition = true) ∧
        (last.calls 2).isNone = true ∧ (last.calls 5).isNone = true ∧
        last.status? 7 = some .completed ∧ last.status? 8 = some .queued)
      (by decide)
  rw [List.eq_take_append_cons isLaunch] at run
  obtain ⟨before, taken, later⟩ := run.around
  have interleaved : Interleaving .sample [.resolving, .rejecting] launch.after
      (trace.drop 10) last := by
    refine ⟨later, fun transition member => .of_follows (passes _ member), ?_⟩
    rw [List.forall_mem_cons, List.forall_mem_singleton]
    exact ⟨Option.isNone_iff_eq_none.mp first,
      Option.isNone_iff_eq_none.mp second⟩
  have unlogged : (World.sample 2
      ⟨[(7, Job.sample .queued), (8, Job.sample .queued)],
        by simp⟩).LogsClosed := by
    intro log member
    cases member
  exact ⟨launch.after, trace.drop 10, last, interleaved, completed, queued,
    executions_independent (World.idle_initial fun _ => rfl) unlogged
      (.snoc before taken) (State.launched_of_bothLaunched both) interleaved
      (List.Perm.swap ..)⟩

end Chronos
