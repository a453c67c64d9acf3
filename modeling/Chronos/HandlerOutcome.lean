import Chronos.Outcomes

/-!
# The handler's outcome and the recorded one

One `catch` block serves a rejected handler and a failed success transaction.
The events of a call tell the two apart, and which transaction has committed.
-/

namespace Chronos

/-- What decides about the outcome of an attempt. -/
inductive AttemptEvent where
  | resolved
  | rejected
  | completed
  | completionFailed
  | caught
  deriving DecidableEq

/-- The event of a step from this phase.  `caught` is the commit of one of the
two transactions of the `catch` block. -/
def ExecPhase.event? : ExecPhase → ExecInput → Option AttemptEvent
  | .handler _, .resolved => some .resolved
  | .handler _, .failed _ _ => some .rejected
  | .complete _ _, .ok => some .completed
  | .complete _ _, .failed _ _ => some .completionFailed
  | .retry _ _ _ _, .ok => some .caught
  | .deadLetter _ _, .ok => some .caught
  | _, _ => none

def attemptEvent? (call : CallId) (transition : Transition State Action) :
    Option AttemptEvent :=
  match transition.action, transition.before.calls call with
  | .exec acting input, some (.exec exec) =>
      if acting = call then exec.phase.event? input else none
  | _, _ => none

/-- The events of the call, from first to last. -/
def attemptEvents (call : CallId) (trace : List (Transition State Action)) :
    List AttemptEvent :=
  trace.filterMap (attemptEvent? call)

/-- The events that lead to this await. -/
def ExecPhase.Follows (events : List AttemptEvent) : ExecPhase → Prop
  | .complete _ _ => events = [.resolved]
  | .retry _ _ _ _ =>
      events = [.rejected] ∨ events = [.resolved, .completionFailed]
  | .deadLetter _ _ =>
      events = [.rejected] ∨ events = [.resolved, .completionFailed]
  | .publish _ _ =>
      events = [.resolved, .completed] ∨ events = [.rejected, .caught] ∨
        events = [.resolved, .completionFailed, .caught]
  | _ => events = []

def Standing.Follows (events : List AttemptEvent) : Standing → Prop
  | .awaiting phase => phase.Follows events
  | _ => ∃ phase : ExecPhase, phase.Follows events

/-- The step commits the transaction by which the call gives its execution this
status. -/
def Records (call : CallId) (status : ExecutionStatus)
    (transition : Transition State Action) : Prop :=
  ∃ exec attempt durationMs error row,
    transition.before.calls call = some (.exec exec) ∧
    exec.phase.closes = some (attempt, status, durationMs, error) ∧
    transition.action = .exec call .ok ∧
    transition.after.world.executions.get? attempt.execution = some row ∧
    row.status = status

/-- No execution gets this status. -/
def NotEnded (status : ExecutionStatus) (world next : World) : Prop :=
  ∀ id row', next.executions.get? id = some row' → row'.status = status →
    ∃ row, world.executions.get? id = some row ∧ row.status = status

/-- No attempt of the job is counted, and the job is not moved to the dead
letter queue. -/
structure NotBlamed (job : JobId) (world next : World) : Prop where
  row : ∀ row', next.jobs.get? job = some row' →
    ∃ row, world.jobs.get? job = some row ∧
      row'.attemptCount = row.attemptCount ∧
      (row'.status = .deadLetter → row.status = .deadLetter)
  deadLetter : next.deadLetters.get? job = world.deadLetters.get? job

/-- The steps of the call record what the handler's promise did. -/
structure OutcomeKept (call : CallId) (job : JobId)
    (trace : List (Transition State Action)) : Prop where
  resolved : .resolved ∈ attemptEvents call trace →
    ∀ transition ∈ trace, transition.action.actor = some call →
      ¬Records call .failed transition ∧
        NotEnded .failed transition.before.world transition.after.world ∧
        NotBlamed job transition.before.world transition.after.world
  rejected : .rejected ∈ attemptEvents call trace →
    ∀ transition ∈ trace, transition.action.actor = some call →
      ¬Records call .completed transition ∧
        NotEnded .completed transition.before.world transition.after.world

/-! ## Events and phases -/

section Steps

variable {world next : World} {exec : ExecCall} {input : ExecInput}
  {exec' : Option ExecCall} {events : List AttemptEvent}

theorem handleFailure_follows {attempt : Attempt} {error : String}
    {random : Draw}
    (either : events = [.rejected] ∨ events = [.resolved, .completionFailed]) :
    (handleFailure world attempt error random).Follows events := by
  unfold handleFailure
  dsimp only
  split <;> exact either

theorem ExecStep.follows (case : ExecStep world exec input next exec')
    (follows : exec.phase.Follows events) :
    (Standing.ofCall exec').Follows
      (events ++ (exec.phase.event? input).toList) := by
  cases case with
  | found phase | marked phase | announced phase | created phase
  | logged phase | resolved phase =>
      rw [phase] at follows ⊢
      rw [follows]
      rfl
  | rejected phase =>
      rcases phase with phase | ⟨_, phase⟩ <;> rw [phase] at follows ⊢ <;>
        cases follows
      · exact handleFailure_follows (.inl rfl)
      · exact handleFailure_follows (.inr rfl)
  | completed phase =>
      rw [phase] at follows ⊢
      cases follows
      exact .inl rfl
  | retried phase | deadLettered phase =>
      rw [phase] at follows ⊢
      rcases follows with rfl | rfl
      · exact .inr (.inl rfl)
      · exact .inr (.inr rfl)
  | jobMissing phase | published phase =>
      refine ⟨exec.phase, ?_⟩
      rw [phase] at follows ⊢
      exact (List.append_nil events).symm ▸ follows
  | abandoned escapes =>
      refine ⟨exec.phase, ?_⟩
      cases shape : exec.phase <;> rw [shape] at escapes follows <;>
        first
          | exact (List.append_nil events).symm ▸ follows
          | cases escapes

/-! ## What the steps of the call record -/

theorem NotEnded.of_eq {status : ExecutionStatus}
    (same : next.executions = world.executions) :
    NotEnded status world next := by
  intro id row' found isStatus
  exact ⟨row', same ▸ found, isStatus⟩

theorem NotEnded.of_finish {id : ExecutionId} {status other : ExecutionStatus}
    {now : Time} {durationMs : Int} {error : Option String}
    (written : next.executions = world.executions.modify id
      (JobExecution.finish other now durationMs error))
    (different : other ≠ status) : NotEnded status world next := by
  intro key row' found isStatus
  rw [written, Table.get?_modify, Option.map_eq_some_iff] at found
  obtain ⟨row, found, rfl⟩ := found
  refine ⟨row, found, ?_⟩
  split at isStatus
  · exact (different isStatus).elim
  · exact isStatus

theorem NotBlamed.of_eq {job : JobId} (jobs : next.jobs = world.jobs)
    (deadLetters : next.deadLetters = world.deadLetters) :
    NotBlamed job world next where
  row := fun row' found => ⟨row', jobs ▸ found, rfl, id⟩
  deadLetter := by rw [deadLetters]

theorem NotBlamed.of_modify {job target : JobId} {update : Job → Job}
    {status : JobStatus}
    (jobs : next.jobs = world.jobs.modify target update)
    (keeps : ∀ row, (update row).attemptCount = row.attemptCount)
    (writes : ∀ row, (update row).status = status)
    (alive : status ≠ .deadLetter)
    (deadLetters : next.deadLetters = world.deadLetters) :
    NotBlamed job world next where
  row := by
    intro row' found
    rw [jobs, Table.get?_modify, Option.map_eq_some_iff] at found
    obtain ⟨row, found, rfl⟩ := found
    refine ⟨row, found, ?_⟩
    split
    · exact ⟨keeps row, fun dead => absurd ((writes row).symm.trans dead) alive⟩
    · exact ⟨rfl, id⟩
  deadLetter := by rw [deadLetters]

/-- Only the transactions of the `catch` block speak of a failure. -/
theorem ExecStep.notBlamed (case : ExecStep world exec input next exec')
    (uncaught : exec.phase.event? input ≠ some .caught) (job : JobId) :
    NotEnded .failed world next ∧ NotBlamed job world next := by
  cases case with
  | created phase inserted =>
      refine ⟨?_, .of_eq rfl rfl⟩
      intro id row' found failed
      rw [Table.get?_insert? inserted] at found
      split at found
      · cases found
        cases failed
      · exact ⟨row', found, failed⟩
  | marked =>
      exact ⟨.of_eq rfl,
        .of_modify rfl (fun _ => rfl) (fun _ => rfl) (by decide) rfl⟩
  | completed =>
      exact ⟨.of_finish rfl (by decide),
        .of_modify rfl (fun _ => rfl) (fun _ => rfl) (by decide) rfl⟩
  | retried phase =>
      rw [phase] at uncaught
      exact (uncaught rfl).elim
  | deadLettered phase =>
      rw [phase] at uncaught
      exact (uncaught rfl).elim
  | announced _ rows | published _ rows =>
      exact ⟨.of_eq rows.executions, .of_eq rows.jobs rows.deadLetters⟩
  | _ => exact ⟨.of_eq rfl, .of_eq rfl rfl⟩

/-- Only the success transaction speaks of a success. -/
theorem ExecStep.notCompleted (case : ExecStep world exec input next exec')
    (incomplete : exec.phase.event? input ≠ some .completed) :
    NotEnded .completed world next := by
  cases case with
  | created phase inserted =>
      intro id row' found completed
      rw [Table.get?_insert? inserted] at found
      split at found
      · cases found
        cases completed
      · exact ⟨row', found, completed⟩
  | completed phase =>
      rw [phase] at incomplete
      exact (incomplete rfl).elim
  | retried => exact .of_finish rfl (by decide)
  | deadLettered _ _ success =>
      obtain ⟨_, _, _, rfl⟩ := World.commitDeadLetter_spec success
      exact .of_finish rfl (by decide)
  | announced _ rows | published _ rows => exact .of_eq rows.executions
  | _ => exact .of_eq rfl

end Steps

/-! ## Runs of the call -/

/-- What the events of a call have in common wherever it stands. -/
structure Consistent (events : List AttemptEvent) : Prop where
  caught : .resolved ∈ events → .caught ∈ events → .completionFailed ∈ events
  completed : .rejected ∈ events → .completed ∉ events
  completionFailed : .completionFailed ∈ events → .resolved ∈ events

theorem ExecPhase.Follows.consistent {phase : ExecPhase}
    {events : List AttemptEvent} (follows : phase.Follows events) :
    Consistent events := by
  have started : events = [] ∨ events = [.resolved] ∨ events = [.rejected] ∨
      events = [.resolved, .completionFailed] ∨
      events = [.resolved, .completed] ∨ events = [.rejected, .caught] ∨
      events = [.resolved, .completionFailed, .caught] := by
    cases phase with
    | complete => exact .inr (.inl follows)
    | retry | deadLetter => exact .inr (.inr (follows.imp_right .inl))
    | publish => exact .inr (.inr (.inr (.inr follows)))
    | _ => exact .inl follows
  rcases started with rfl | rfl | rfl | rfl | rfl | rfl | rfl <;>
    constructor <;> decide

section Runs

variable {env : Env} {start last : State} {call : CallId} {job : JobId}
  {worker : WorkerId} {trace : List (Transition State Action)}
  {standing : Standing}

theorem attemptEvents_snoc (trace : List (Transition State Action))
    (transition : Transition State Action) :
    attemptEvents call (trace ++ [transition]) =
      attemptEvents call trace ++ (attemptEvent? call transition).toList := by
  unfold attemptEvents
  rw [List.filterMap_append]
  congr 1

theorem attemptEvent?_of_ne {transition : Transition State Action}
    (other : transition.action.actor ≠ some call) :
    attemptEvent? call transition = none := by
  unfold attemptEvent?
  split
  · rename_i acting input exec action _
    rw [action] at other
    apply if_neg
    rintro rfl
    exact other rfl
  · rfl

theorem attemptEvent?_exec {transition : Transition State Action}
    {exec : ExecCall} {input : ExecInput}
    (called : transition.before.calls call = some (.exec exec))
    (action : transition.action = .exec call input) :
    attemptEvent? call transition = exec.phase.event? input := by
  unfold attemptEvent?
  simp [called, action]

theorem ExecRun.follows
    (history : ExecRun env call job worker start trace last standing) :
    standing.Follows (attemptEvents call trace) := by
  induction history with
  | launched => rfl
  | @own trace state next phase input exec' history taken case _ induction =>
      have called : state.calls call = some (.exec ⟨job, worker, phase⟩) :=
        history.calls
      rw [attemptEvents_snoc, attemptEvent?_exec called rfl]
      exact case.follows induction
  | meanwhile _ _ other _ induction =>
      rw [attemptEvents_snoc, attemptEvent?_of_ne other, Option.toList_none,
        List.append_nil]
      exact induction
  | @stopped _ _ _ phase _ _ _ induction =>
      have other : (Action.exit worker).actor ≠ some call := nofun
      rw [attemptEvents_snoc, attemptEvent?_of_ne other, Option.toList_none,
        List.append_nil]
      exact ⟨phase, induction⟩

theorem ExecRun.consistent
    (history : ExecRun env call job worker start trace last standing) :
    Consistent (attemptEvents call trace) := by
  have follows := history.follows
  cases standing with
  | awaiting phase => exact ExecPhase.Follows.consistent follows
  | settled | stopped =>
      obtain ⟨phase, follows⟩ := follows
      exact follows.consistent

theorem ExecRun.own_step
    (history : ExecRun env call job worker start trace last standing)
    {transition : Transition State Action} (member : transition ∈ trace)
    (own : transition.action.actor = some call) :
    ∃ phase input exec',
      transition.before.calls call = some (.exec ⟨job, worker, phase⟩) ∧
      transition.action = .exec call input ∧
      ExecStep transition.before.world ⟨job, worker, phase⟩ input
        transition.after.world exec' := by
  induction history with
  | launched => cases member
  | own history taken case _ induction =>
      rcases List.mem_append.mp member with earlier | now
      · exact induction earlier
      · cases List.mem_singleton.mp now
        exact ⟨_, _, _, history.calls, rfl, case⟩
  | meanwhile _ _ other _ induction =>
      rcases List.mem_append.mp member with earlier | now
      · exact induction earlier
      · cases List.mem_singleton.mp now
        exact (other own).elim
  | stopped _ _ _ induction =>
      rcases List.mem_append.mp member with earlier | now
      · exact induction earlier
      · cases List.mem_singleton.mp now
        cases own

theorem mem_attemptEvents {transition : Transition State Action}
    {event : AttemptEvent} (member : transition ∈ trace)
    (happens : attemptEvent? call transition = some event) :
    event ∈ attemptEvents call trace :=
  List.mem_filterMap.mpr ⟨transition, member, happens⟩

theorem ExecPhase.event?_of_closes {phase : ExecPhase} {attempt : Attempt}
    {status : ExecutionStatus} {durationMs : Int} {error : Option String}
    (closes : phase.closes = some (attempt, status, durationMs, error)) :
    phase.event? .ok =
      some (if status = .failed then .caught else .completed) := by
  cases phase <;> cases closes <;> rfl

theorem ExecPhase.closes_of_caught {phase : ExecPhase} {input : ExecInput}
    (event : phase.event? input = some .caught) :
    input = .ok ∧ ∃ attempt durationMs error,
      phase.closes = some (attempt, .failed, durationMs, error) := by
  cases phase with
  | retry | deadLetter =>
      cases input with
      | ok => exact ⟨rfl, _, _, _, rfl⟩
      | _ => cases event
  | handler | complete =>
      cases input <;> cases event
  | _ => cases event

theorem Records.happens {status : ExecutionStatus}
    {transition : Transition State Action}
    (records : Records call status transition) :
    attemptEvent? call transition =
      some (if status = .failed then .caught else .completed) := by
  obtain ⟨exec, attempt, durationMs, error, row, called, closes, action, _⟩ :=
    records
  rw [attemptEvent?_exec called action]
  exact ExecPhase.event?_of_closes closes

theorem records_of_caught (run : Run (step env) start trace last)
    (rows : AttemptRows start) {transition : Transition State Action}
    (member : transition ∈ trace)
    (caught : attemptEvent? call transition = some .caught) :
    Records call .failed transition := by
  obtain ⟨rows, taken⟩ := run.invariant_before AttemptRows
    (fun _ _ => trivial) rows
    (fun _ (_ : True) taken rows => AttemptRows.step rows taken) member
  unfold attemptEvent? at caught
  split at caught
  · rename_i acting input exec action called
    split at caught
    · subst acting
      obtain ⟨rfl, attempt, durationMs, error, closes⟩ :=
        ExecPhase.closes_of_caught caught
      obtain ⟨row, found, _⟩ :=
        rows called (ExecPhase.attempt?_of_closes closes).1
      rw [action] at taken
      have written := step_closes taken called closes
      have after := Table.get?_modify_self transition.before.world.executions
        attempt.execution
        (JobExecution.finish .failed transition.before.world.now durationMs
          error)
      rw [← written, found] at after
      exact ⟨exec, attempt, durationMs, error, _, called, closes, action,
        after, rfl⟩
    · cases caught
  · cases caught

theorem ExecRun.not_kept
    (history : ExecRun env call job worker start trace last standing)
    (rows : AttemptRows start)
    (failed : .completionFailed ∈ attemptEvents call trace)
    (caught : .caught ∈ attemptEvents call trace) :
    ¬OutcomeKept call job trace := by
  intro kept
  obtain ⟨transition, member, happens⟩ := List.mem_filterMap.mp caught
  have resolved := history.consistent.completionFailed failed
  have records := records_of_caught history.run rows member happens
  have own : transition.action.actor = some call := by
    obtain ⟨_, _, _, _, _, _, _, action, _⟩ := records
    rw [action]
    rfl
  exact (kept.resolved resolved transition member own).1 records

theorem ExecRun.kept
    (history : ExecRun env call job worker start trace last standing)
    (spared : ¬(.completionFailed ∈ attemptEvents call trace ∧
      .caught ∈ attemptEvents call trace)) :
    OutcomeKept call job trace := by
  have consistent := history.consistent
  constructor
  · intro resolved transition member own
    have uncaught : attemptEvent? call transition ≠ some .caught := by
      intro happens
      have caught := mem_attemptEvents member happens
      exact spared ⟨consistent.caught resolved caught, caught⟩
    obtain ⟨phase, input, exec', called, action, case⟩ :=
      history.own_step member own
    refine ⟨fun records => uncaught records.happens, ?_⟩
    rw [attemptEvent?_exec called action] at uncaught
    exact case.notBlamed uncaught job
  · intro rejected transition member own
    have incomplete : attemptEvent? call transition ≠ some .completed :=
      fun happens =>
        consistent.completed rejected (mem_attemptEvents member happens)
    obtain ⟨phase, input, exec', called, action, case⟩ :=
      history.own_step member own
    refine ⟨fun records => incomplete records.happens, ?_⟩
    rw [attemptEvent?_exec called action] at incomplete
    exact case.notCompleted incomplete

/-- The steps of the call record the handler's outcome exactly if no
transaction of the `catch` block commits after a failed success transaction. -/
theorem outcome_kept_iff {first : State}
    {past : List (Transition State Action)} (initial : Initial first)
    (earlier : Run (step env) first past start)
    (history : ExecRun env call job worker start trace last standing) :
    OutcomeKept call job trace ↔
      ¬(.completionFailed ∈ attemptEvents call trace ∧
        .caught ∈ attemptEvents call trace) := by
  constructor
  · rintro kept ⟨failed, caught⟩
    exact history.not_kept (attemptRows_of_run initial earlier) failed caught
      kept
  · exact history.kept

end Runs

/-- The handler rejects and the job is queued again. -/
theorem outcome_kept_rejected :
    ∃ start trace last standing,
      ExecRun .sample 2 7 1 start trace last standing ∧
      last.status? 7 = some .queued ∧ OutcomeKept 2 7 trace := by
  obtain ⟨trace, last, run, ⟨launch, isLaunch, launched⟩, once, queued,
      spared⟩ :=
    exists_run_of_check (step .sample)
      (World.sample 1 ⟨[(7, Job.sample .queued)], by simp⟩).idle
      (claimActions 1 1 [7] ++ executeActions 1 2 0 ++
        ([.exec 2 (.failed "refused" .zero), .exec 2 .ok] : List Action))
      (fun trace last =>
        (∃ launch ∈ (trace.drop 8).head?,
          launch.after.justLaunched 2 7 1 = true) ∧
        (∀ transition ∈ trace.drop 9, transition.action.begins ≠ some 2) ∧
        last.status? 7 = some .queued ∧
        ¬(.completionFailed ∈ attemptEvents 2 (trace.drop 9) ∧
          .caught ∈ attemptEvents 2 (trace.drop 9)))
      (by decide)
  obtain ⟨standing, earlier, history⟩ :=
    execRun_of_launch run isLaunch launched once
  have initial : Initial (World.sample 1
      ⟨[(7, Job.sample .queued)], by simp⟩).idle :=
    World.idle_initial fun _ => rfl
  exact ⟨launch.after, trace.drop 9, last, standing, history, queued,
    (outcome_kept_iff initial earlier history).mpr spared⟩

/-- The handler resolves and the success transaction fails: the execution is
recorded as failed, the attempt is counted, and the job is queued again. -/
theorem resolved_attempt_recorded_failed :
    ∃ start trace last standing,
      ExecRun .sample 2 7 1 start trace last standing ∧
      .resolved ∈ attemptEvents 2 trace ∧
      last.status? 7 = some .queued ∧
      (∃ row ∈ last.world.jobs.get? 7, row.attemptCount = 1) ∧
      (∃ row ∈ last.world.executions.get? 0, row.status = .failed) ∧
      ¬OutcomeKept 2 7 trace := by
  obtain ⟨trace, last, run, ⟨launch, isLaunch, launched⟩, once, queued,
      resolved, failed, caught, counted, recorded⟩ :=
    exists_run_of_check (step .sample)
      (World.sample 1 ⟨[(7, Job.sample .queued)], by simp⟩).idle
      (claimActions 1 1 [7] ++ executeActions 1 2 0 ++
        ([.exec 2 .resolved, .exec 2 (.failed "timeout" .zero),
          .exec 2 .ok] : List Action))
      (fun trace last =>
        (∃ launch ∈ (trace.drop 8).head?,
          launch.after.justLaunched 2 7 1 = true) ∧
        (∀ transition ∈ trace.drop 9, transition.action.begins ≠ some 2) ∧
        last.status? 7 = some .queued ∧
        .resolved ∈ attemptEvents 2 (trace.drop 9) ∧
        .completionFailed ∈ attemptEvents 2 (trace.drop 9) ∧
        .caught ∈ attemptEvents 2 (trace.drop 9) ∧
        (∃ row ∈ last.world.jobs.get? 7, row.attemptCount = 1) ∧
        ∃ row ∈ last.world.executions.get? 0, row.status = .failed)
      (by decide)
  obtain ⟨standing, earlier, history⟩ :=
    execRun_of_launch run isLaunch launched once
  have initial : Initial (World.sample 1
      ⟨[(7, Job.sample .queued)], by simp⟩).idle :=
    World.idle_initial fun _ => rfl
  exact ⟨launch.after, trace.drop 9, last, standing, history, resolved, queued,
    counted, recorded,
    history.not_kept (attemptRows_of_run initial earlier) failed caught⟩

end Chronos
