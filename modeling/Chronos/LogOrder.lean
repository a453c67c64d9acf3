import Chronos.ApiView
import Chronos.Isolation
import Chronos.Outcomes

/-!
# The order of an execution's log lines

The lines of a handler wait in a buffer until one of the three transactions of
`executeJob` stores them, and each of these stores the executor's closing line
before them.  `GET /jobs/:id/logs` sorts the lines by their timestamps.
-/

namespace Chronos

/-! ## The buffer -/

/-- The lines that an attempt has buffered, up to its transaction. -/
def ExecPhase.buffered? : ExecPhase → Option (List LogEntry)
  | .publish _ _ => none
  | phase => some ((phase.attempt?.map (·.logBuffer)).getD [])

theorem ExecPhase.buffered?_of_closes {phase : ExecPhase} {attempt : Attempt}
    {status : ExecutionStatus} {durationMs : Int} {error : Option String}
    (closes : phase.closes = some (attempt, status, durationMs, error)) :
    phase.buffered? = some attempt.logBuffer := by
  cases phase <;> cases closes <;> rfl

theorem handleFailure_buffered? (world : World) (attempt : Attempt)
    (error : String) (random : Draw) :
    (handleFailure world attempt error random).buffered? =
      some attempt.logBuffer := by
  unfold handleFailure
  dsimp only
  split <;> rfl

theorem ExecStep.buffered? {world next : World} {exec exec' : ExecCall}
    {input : ExecInput} {lines : List LogEntry}
    (case : ExecStep world exec input next (some exec'))
    (unheard : exec.phase.attempt? = none → input.line? = none)
    (buffered : exec'.phase.buffered? = some lines) :
    ∃ earlier, exec.phase.buffered? = some earlier ∧
      lines = earlier ++ input.line?.toList := by
  cases case with
  | found phase | marked phase =>
      cases buffered
      exact ⟨[], by rw [phase]; rfl, rfl⟩
  | announced phase =>
      cases buffered
      rw [phase] at unheard
      rw [unheard rfl]
      exact ⟨[], by rw [phase]; rfl, rfl⟩
  | created phase =>
      cases buffered
      exact ⟨[], by rw [phase]; rfl, rfl⟩
  | @logged attempt _ _ phase =>
      cases buffered
      exact ⟨attempt.logBuffer, by rw [phase]; rfl, rfl⟩
  | @resolved attempt phase =>
      cases buffered
      exact ⟨attempt.logBuffer, by rw [phase]; rfl,
        (List.append_nil _).symm⟩
  | @rejected attempt error random phase =>
      rw [handleFailure_buffered?] at buffered
      cases buffered
      refine ⟨attempt.logBuffer, ?_, (List.append_nil _).symm⟩
      rcases phase with phase | ⟨_, phase⟩ <;> rw [phase] <;> rfl
  | completed | retried | deadLettered => cases buffered

section Histories

variable {env : Env} {start last : State} {call : CallId} {job : JobId}
  {worker : WorkerId} {trace : List (Transition State Action)}
  {standing : Standing}

/-- Up to the transaction the buffer holds what the handler has logged. -/
theorem ExecRun.buffered?
    (history : ExecRun env call job worker start trace last standing)
    {phase : ExecPhase} (awaits : standing = .awaiting phase)
    {lines : List LogEntry} (buffered : phase.buffered? = some lines) :
    lines = handlerLines call trace := by
  induction history generalizing phase lines with
  | launched =>
      cases awaits
      cases buffered
      rfl
  | @own trace state next before input exec' history taken case _ induction =>
      cases exec' with
      | none => cases awaits
      | some exec' =>
          cases awaits
          have unheard : before.attempt? = none → input.line? = none := by
            intro noAttempt
            cases step_acting taken rfl history.calls with
            | exec executes => exact executeJob_unheard executes noAttempt
          obtain ⟨earlier, wasBuffered, rfl⟩ := case.buffered? unheard buffered
          rw [handlerLines_snoc, induction rfl wasBuffered]
          have line : (Action.exec call input).handlerLine call =
              input.line? := if_pos rfl
          rw [line]
  | meanwhile history taken other _ induction =>
      rw [handlerLines_snoc, handlerLine_of_ne other, Option.toList_none,
        List.append_nil]
      exact induction awaits buffered
  | stopped => cases awaits

end Histories

/-! ## One writer for the lines of an execution -/

/-- The call works on this execution. -/
def State.attempts (state : State) (call : CallId) (execution : ExecutionId) :
    Prop :=
  ∃ exec attempt, state.calls call = some (.exec exec) ∧
    exec.phase.attempt? = some attempt ∧ attempt.execution = execution

/-- The line that the transaction writes before those of the handler. -/
def ExecPhase.closingLine : ExecPhase → Option LogEntry
  | .complete _ durationMs =>
      some ⟨"info", s!"Job completed successfully in {durationMs}ms"⟩
  | .retry attempt failure delayMs _ =>
      some ⟨"error",
        s!"Job failed (attempt {attempt.number}/{attempt.policy.maxAttempts}): {failure.errorMessage}. Retrying in {delayMs}ms"⟩
  | .deadLetter attempt failure =>
      some ⟨"error",
        s!"Job moved to dead letter queue after {attempt.number} attempts: {failure.errorMessage}"⟩
  | _ => none

/-- The calls work on executions of their own, which have no lines yet. -/
structure LogOwners (state : State) : Prop where
  rows : AttemptRows state
  closed : state.world.LogsClosed
  distinct : ∀ {call call' execution}, state.attempts call execution →
    state.attempts call' execution → call = call'
  silent : ∀ {call execution}, state.attempts call execution →
    state.world.logsOf execution = []

/-- These are the lines of the execution of the job, stored together from this
position on, and no call works on the execution any more. -/
structure LogsFinal (job : JobId) (execution : ExecutionId) (position : Nat)
    (lines : List JobLog) (state : State) : Prop where
  present : ∃ row, state.world.executions.get? execution = some row ∧
    row.jobId = job
  idle : ∀ call, ¬state.attempts call execution
  stored : ∃ before after, state.world.logs = before ++ (lines ++ after) ∧
    before.length = position ∧
    (∀ log ∈ before, log.executionId ≠ execution) ∧
    ∀ log ∈ after, log.executionId ≠ execution

section Steps

variable {env : Env} {state next : State} {action : Action} {call : CallId}
  {execution : ExecutionId}

theorem attempts_origin (taken : step env state action = some next)
    (attempts : next.attempts call execution) :
    state.attempts call execution ∨
      (action.actor = some call ∧
        state.world.executions.get? execution = none) := by
  obtain ⟨exec, attempt, found, current, rfl⟩ := attempts
  generalize same : Call.exec exec = value at found
  cases step_call taken found with
  | kept old =>
      subst same
      exact .inl ⟨exec, attempt, old, current, rfl⟩
  | started starts =>
      cases starts with
      | request =>
          rename_i request
          cases request <;> cases same
      | _ => cases same
  | launched =>
      cases same
      cases current
  | exec old case =>
      cases same
      rcases case.attempt_origin current with
        ⟨before, earlier, sameId⟩ | ⟨fresh, _⟩
      · exact .inl ⟨_, before, old, earlier, sameId⟩
      · exact .inr ⟨rfl, fresh⟩
  | api old case =>
      subst same
      cases case.requests.2
  | _ => cases same

/-- The lines that a transaction stores. -/
def World.closingLines (world : World) (attempt : Attempt)
    (closing : LogEntry) : List JobLog :=
  (closing :: attempt.logBuffer).map fun entry =>
    ⟨attempt.execution, world.now, entry.level, entry.message⟩

/-- The transaction stores its closing line and, after it, the buffer; then
the call works on no execution. -/
theorem step_committed {exec : ExecCall} {attempt : Attempt}
    {status : ExecutionStatus} {durationMs : Int} {error : Option String}
    (taken : step env state (.exec call .ok) = some next)
    (called : state.calls call = some (.exec exec))
    (closes : exec.phase.closes = some (attempt, status, durationMs, error)) :
    (∀ execution, ¬next.attempts call execution) ∧
      ∃ closing, exec.phase.closingLine = some closing ∧ next.world.logs =
        state.world.logs ++ state.world.closingLines attempt closing := by
  have line : ∀ {phase : ExecPhase}, exec.phase = phase →
      exec.phase.closingLine = phase.closingLine := by
    rintro phase rfl
    rfl
  have read : ∀ {phase : ExecPhase}, exec.phase = phase →
      phase.closes = some (attempt, status, durationMs, error) := by
    rintro phase rfl
    exact closes
  have published : ∀ {job : Job} {status : String},
      next.calls call = some (.exec { exec with phase := .publish job status }) →
      ∀ execution, ¬next.attempts call execution := by
    rintro job status calls execution ⟨other, _, found, works, -⟩
    cases calls.symm.trans found
    cases works
  cases step_acting taken rfl called with
  | exec executes calls =>
      generalize next.world = world at executes ⊢
      cases executeJob_cases executes with
      | completed phase =>
          cases read phase
          exact ⟨published calls, _, line phase, rfl⟩
      | retried phase =>
          cases read phase
          exact ⟨published calls, _, line phase, rfl⟩
      | deadLettered phase _ success =>
          cases read phase
          simp only [World.commitDeadLetter, Option.map_eq_some_iff] at success
          obtain ⟨_, _, rfl⟩ := success
          exact ⟨published calls, _, line phase, rfl⟩
      | jobMissing phase => cases read phase
      | found phase => cases read phase
      | marked phase => cases read phase
      | announced phase => cases read phase
      | published phase => cases read phase

/-- Lines are only ever added, and a line of an execution only by the
transaction of the call that works on it. -/
theorem step_newLogs (taken : step env state action = some next) :
    ∃ new, next.world.logs = state.world.logs ++ new ∧
      ∀ log ∈ new, ∃ call exec attempt outcome,
        action = .exec call .ok ∧
        state.calls call = some (.exec exec) ∧
        exec.phase.closes = some (attempt, outcome) ∧
        attempt.execution = log.executionId := by
  rcases step_logs taken with same | write
  · refine ⟨[], same.trans (List.append_nil _).symm, ?_⟩
    intro log member
    cases member
  · generalize next.world.logs = logs at write
    cases write with
    | @flushed acting exec attempt status durationMs error level message
        called closes =>
        refine ⟨_, rfl, ?_⟩
        intro log member
        obtain ⟨entry, _, rfl⟩ := List.mem_map.mp member
        exact ⟨acting, exec, attempt, _, rfl, called, closes, rfl⟩

theorem attempts_of_closes {exec : ExecCall} {attempt : Attempt}
    {outcome : ExecutionStatus × Int × Option String}
    (called : state.calls call = some (.exec exec))
    (closes : exec.phase.closes = some (attempt, outcome)) :
    state.attempts call attempt.execution := by
  obtain ⟨status, durationMs, error⟩ := outcome
  exact ⟨exec, attempt, called, (ExecPhase.attempt?_of_closes closes).1, rfl⟩

theorem LogOwners.present (owners : LogOwners state)
    (attempts : state.attempts call execution) :
    ∃ row, state.world.executions.get? execution = some row := by
  obtain ⟨exec, attempt, called, current, rfl⟩ := attempts
  obtain ⟨row, found, _⟩ := owners.rows called current
  exact ⟨row, found⟩

theorem LogOwners.step (owners : LogOwners state)
    (taken : Chronos.step env state action = some next) : LogOwners next where
  rows := AttemptRows.step owners.rows taken
  closed := LogsClosed.step owners.closed owners.rows taken
  distinct := by
    intro call call' execution left right
    rcases attempts_origin taken left with left | ⟨acts, fresh⟩
    · rcases attempts_origin taken right with right | ⟨_, fresh⟩
      · exact owners.distinct left right
      · obtain ⟨row, found⟩ := owners.present left
        exact absurd (fresh.symm.trans found) nofun
    · rcases attempts_origin taken right with right | ⟨acts', _⟩
      · obtain ⟨row, found⟩ := owners.present right
        exact absurd (fresh.symm.trans found) nofun
      · exact Option.some.inj (acts.symm.trans acts')
  silent := by
    intro call execution attempts
    have before : state.world.logsOf execution = [] := by
      rcases attempts_origin taken attempts with old | ⟨_, fresh⟩
      · exact owners.silent old
      · apply List.filter_eq_nil_iff.mpr
        intro log member same
        obtain ⟨row, found, _⟩ := owners.closed log member
        rw [of_decide_eq_true same, fresh] at found
        cases found
    obtain ⟨new, logs, written⟩ := step_newLogs taken
    unfold World.logsOf at before ⊢
    rw [logs, List.filter_append, before, List.nil_append]
    apply List.filter_eq_nil_iff.mpr
    intro log member same
    obtain ⟨writer, exec, attempt, outcome, rfl, called, closes, owner⟩ :=
      written log member
    have isSame : log.executionId = execution := of_decide_eq_true same
    have works := attempts_of_closes called closes
    rw [owner, isSame] at works
    rcases attempts_origin taken attempts with old | ⟨_, fresh⟩
    · cases owners.distinct old works
      exact (step_committed taken called closes).1 _ attempts
    · obtain ⟨row, found⟩ := owners.present works
      exact absurd (fresh.symm.trans found) nofun

theorem LogsFinal.step {job : JobId} {position : Nat} {lines : List JobLog}
    (final : LogsFinal job execution position lines state)
    (taken : Chronos.step env state action = some next) :
    LogsFinal job execution position lines next where
  present := by
    obtain ⟨row, found, belongs⟩ := final.present
    obtain ⟨row', found', same, _⟩ := step_execution taken found
    exact ⟨row', found', same.trans belongs⟩
  idle := by
    intro call attempts
    rcases attempts_origin taken attempts with old | ⟨_, fresh⟩
    · exact final.idle call old
    · obtain ⟨row, found, _⟩ := final.present
      exact absurd (fresh.symm.trans found) nofun
  stored := by
    obtain ⟨before, after, logs, length, noneBefore, noneAfter⟩ := final.stored
    obtain ⟨new, added, written⟩ := step_newLogs taken
    refine ⟨before, after ++ new, ?_, length, noneBefore, ?_⟩
    · rw [added, logs, List.append_assoc, List.append_assoc]
    · intro log member same
      rcases List.mem_append.mp member with old | isNew
      · exact noneAfter log old same
      · obtain ⟨call, exec, attempt, outcome, -, called, closes, owner⟩ :=
          written log isNew
        have works := attempts_of_closes called closes
        rw [owner, same] at works
        exact final.idle call works

theorem LogOwners.final {exec : ExecCall} {attempt : Attempt}
    {status : ExecutionStatus} {durationMs : Int} {error : Option String}
    (owners : LogOwners state)
    (taken : Chronos.step env state (.exec call .ok) = some next)
    (called : state.calls call = some (.exec exec))
    (closes : exec.phase.closes = some (attempt, status, durationMs, error)) :
    ∃ closing : LogEntry,
      LogsFinal exec.jobId attempt.execution state.world.logs.length
        (state.world.closingLines attempt closing) next := by
  have works := attempts_of_closes called closes
  obtain ⟨row, found, belongs⟩ :=
    owners.rows called (ExecPhase.attempt?_of_closes closes).1
  have silent := owners.silent works
  obtain ⟨retired, closing, -, written⟩ :=
    step_committed taken called closes
  refine ⟨closing, ?_, ?_, ?_⟩
  · obtain ⟨row', found', same, _⟩ := step_execution taken found
    exact ⟨row', found', same.trans belongs⟩
  · intro other attempts
    rcases attempts_origin taken attempts with old | ⟨_, fresh⟩
    · cases owners.distinct old works
      exact retired _ attempts
    · exact absurd (fresh.symm.trans found) nofun
  · refine ⟨state.world.logs, [], ?_, rfl, ?_, fun _ => nofun⟩
    · rw [written, List.append_nil]
    · intro log member same
      have inLogs : log ∈ state.world.logsOf attempt.execution :=
        List.mem_filter.mpr ⟨member, decide_eq_true same⟩
      rw [silent] at inLogs
      cases inLogs

end Steps

section Runs

variable {env : Env} {first start last : State} {call : CallId}
  {execution : ExecutionId} {trace : List (Transition State Action)}

theorem logOwners_of_initial (initial : Initial first)
    (closed : first.world.LogsClosed) : LogOwners first := by
  have nobody : ∀ call execution, ¬first.attempts call execution := by
    rintro call execution ⟨exec, attempt, called, -⟩
    exact absurd ((initial.calls call).symm.trans called) nofun
  refine ⟨attemptRows_of_initial initial, closed, ?_, ?_⟩
  · intro call call' execution attempts
    exact absurd attempts (nobody call execution)
  · intro call execution attempts
    exact absurd attempts (nobody call execution)

theorem logOwners_of_run (owners : LogOwners start)
    (run : Run (step env) start trace last) : LogOwners last :=
  run.invariant LogOwners (fun _ _ => trivial) owners
    fun _ (_ : True) taken owners => LogOwners.step owners taken

theorem logsFinal_of_run {job : JobId} {position : Nat} {lines : List JobLog}
    (final : LogsFinal job execution position lines start)
    (run : Run (step env) start trace last) :
    LogsFinal job execution position lines last :=
  run.invariant (LogsFinal job execution position lines) (fun _ _ => trivial)
    final fun _ (_ : True) taken final => LogsFinal.step final taken

end Runs

/-! ## What the endpoint lists -/

namespace Database

/-- The number of lines of a job. -/
def logTotal (db : Database) (job : JobId) : Nat :=
  db.logs.count fun _ log =>
    (db.executions.keysWhere fun _ row => row.jobId = job).contains
      log.executionId

/-- The items are the lines of the job, sorted by their timestamps. -/
structure Listing (db : Database) (job : JobId) (data : List LogItem) :
    Prop where
  nodup : (data.map (·.id)).Nodup
  row : ∀ item ∈ data, db.logs.get? item.id =
    some ⟨item.executionId, item.timestamp, item.level, item.message⟩
  complete : ∀ {id log row}, db.logs.get? id = some log →
    db.executions.get? log.executionId = some row → row.jobId = job →
    ∃ item ∈ data, item.id = id
  sorted : data.Pairwise fun left right => left.timestamp ≤ right.timestamp

section

variable {db : Database} {prisma : Prisma} {user : UserId} {job : JobId}
  {page limit : Option String} {orders : Orders} {reply : ReadReply}

theorem listing_of_getJobLogs
    (answered : db.getJobLogs prisma user job page limit orders = some reply)
    (access : db.sees user (db.orgOfJob job) = true)
    (accepts : prisma.acceptsSkip 0 = true)
    (skip : (parsePagination page limit).skip = 0)
    (covers : db.logTotal job ≤ (parsePagination page limit).limit) :
    ∃ data pagination, reply = .ok (.logs data pagination) ∧
      db.Listing job data := by
  rw [getJobLogs_eq_ite, if_pos access] at answered
  simp only [logsPage, skip, accepts, if_true, Option.map_eq_some_iff]
    at answered
  obtain ⟨logs, found, rfl⟩ := answered
  refine ⟨_, _, rfl, ?_⟩
  have keys := Table.map_fst_of_findMany found
  obtain ⟨possible, rows⟩ := Table.findMany_eq_some_iff.mp found
  obtain ⟨permutation, sorted⟩ := Table.orders_eq_true_iff.mp possible
  have whole : (orders.logs.drop 0).take (parsePagination page limit).limit =
      orders.logs := by
    apply List.take_of_length_le
    rw [List.drop_zero, permutation.length_eq]
    exact covers
  rw [whole] at keys rows
  have items : ∀ log ∈ logs, ∃ row,
      db.executions.get? log.2.executionId = some row := by
    intro log member
    have selected := (Table.mem_findMany found member).2
    rw [List.contains_iff_mem] at selected
    obtain ⟨row, stored, _⟩ := Table.mem_keysWhere.mp selected
    exact ⟨row, stored⟩
  refine ⟨?_, ?_, ?_, ?_⟩
  · have ids : (logs.filterMap fun log => db.logItem log.1 log.2).map (·.id) =
        orders.logs := by
      rw [List.map_filterMap, ← keys, ← List.filterMap_eq_map]
      apply List.filterMap_congr
      intro log member
      obtain ⟨row, stored⟩ := items log member
      rw [logItem, stored]
      rfl
    rw [ids]
    exact permutation.symm.nodup (Table.nodup_keysWhere _ _)
  · intro item member
    obtain ⟨log, listed, isItem⟩ := List.mem_filterMap.mp member
    obtain ⟨row, _, rfl⟩ := Option.map_eq_some_iff.mp isItem
    exact (Table.mem_findMany found listed).1
  · intro id log row stored present belongs
    have selected : id ∈ orders.logs := by
      apply permutation.symm.subset
      refine Table.mem_keysWhere.mpr ⟨log, stored, ?_⟩
      rw [List.contains_iff_mem]
      exact Table.mem_keysWhere.mpr ⟨row, present, decide_eq_true belongs⟩
    have listed : (id, log) ∈ logs := by
      rw [← rows]
      exact List.mem_filterMap.mpr
        ⟨id, selected, Table.row?_eq_some_iff.mpr ⟨rfl, stored⟩⟩
    have isItem : db.logItem id log = some _ :=
      Option.map_eq_some_iff.mpr ⟨row, present, rfl⟩
    exact ⟨_, List.mem_filterMap.mpr ⟨(id, log), listed, isItem⟩, rfl⟩
  · rw [List.pairwise_filterMap, ← rows, List.pairwise_filterMap]
    rw [List.pairwise_filterMap] at sorted
    apply sorted.imp
    intro left right stands entry isEntry entry' isEntry' item isItem item'
      isItem'
    obtain ⟨_, stored⟩ := Table.row?_eq_some_iff.mp isEntry
    obtain ⟨_, stored'⟩ := Table.row?_eq_some_iff.mp isEntry'
    have le := stands _ stored _ stored'
    obtain ⟨_, _, rfl⟩ := Option.map_eq_some_iff.mp isItem
    obtain ⟨_, _, rfl⟩ := Option.map_eq_some_iff.mp isItem'
    exact of_decide_eq_true le

end

end Database

/-! ## The handler's lines and the closing line -/

/-- The same log lines with other timestamps. -/
def World.restamp (times : Nat → Time) (world : World) : World :=
  { world with
    logs := world.logs.mapIdx fun position log =>
      { log with timestamp := times position } }

/-- Of the lines of the execution, the answer lists those of the handler in
the order in which they were logged, and then the closing line. -/
def ListsInOrder (execution : ExecutionId) (lines : List LogEntry)
    (closing : LogId) (reply : ReadReply) : Prop :=
  ∃ data pagination handled last,
    reply = .ok (.logs data pagination) ∧
    (data.filter fun item => item.executionId = execution) =
      handled ++ [last] ∧
    (handled.map fun item => LogEntry.mk item.level item.message) = lines ∧
    last.id = closing

/-- However the rows are stamped in insertion order, the answers list the
lines of the execution in order. -/
def World.LogsInOrder (world : World) (columns : ApiColumns) (prisma : Prisma)
    (user : UserId) (job : JobId) (page limit : Option String)
    (execution : ExecutionId) (lines : List LogEntry) (closing : Nat) : Prop :=
  ∀ times : Nat → Time,
    (∀ position later, position ≤ later → times position ≤ times later) →
    ∀ reply,
    ((world.restamp times).database columns).Answers prisma user
      (.logs job page limit) reply →
    ListsInOrder execution lines (columns.logId closing) reply

section Listings

variable {state : State} {columns : ApiColumns} {times : Nat → Time}
  {execution : ExecutionId} {position : Nat} {lines : List JobLog}
  {job : JobId} {data : List LogItem}

theorem logTotal_restamp (world : World) :
    ((world.restamp times).database columns).logTotal job =
      (world.database columns).logTotal job := by
  unfold Database.logTotal World.database World.restamp
  simp only [Table.count_ofList]
  rw [List.mapIdx_eq_zipIdx_map, List.countP_map]
  conv_rhs => rw [← List.zipIdx_map_fst 0 world.logs, List.countP_map]
  rfl

theorem LogsFinal.position_le (final : LogsFinal job execution position lines state)
    {index : Nat} {log : JobLog} (found : state.world.logs[index]? = some log)
    (same : log.executionId = execution) :
    position ≤ index ∧ index < position + lines.length := by
  obtain ⟨before, after, logs, rfl, noneBefore, noneAfter⟩ := final.stored
  rw [logs] at found
  constructor
  · by_contra early
    rw [List.getElem?_append_left (Nat.lt_of_not_le early)] at found
    exact noneBefore log (List.mem_of_getElem? found) same
  · by_contra late
    rw [List.getElem?_append_right (by omega),
      List.getElem?_append_right (by omega)] at found
    exact noneAfter log (List.mem_of_getElem? found) same

theorem LogsFinal.getElem? (final : LogsFinal job execution position lines state)
    {log : JobLog} (first : lines.head? = some log) :
    state.world.logs[position]? = some log := by
  obtain ⟨before, after, logs, rfl, -⟩ := final.stored
  rw [logs, List.getElem?_append_right le_rfl, Nat.sub_self]
  cases lines with
  | nil => cases first
  | cons => exact first

theorem LogsFinal.item (final : LogsFinal job execution position lines state)
    (listing : ((state.world.restamp times).database columns).Listing job data)
    {item : LogItem} (member : item ∈ data)
    (same : item.executionId = execution) :
    ∃ index, position ≤ index ∧ index < position + lines.length ∧
      item.id = columns.logId index ∧ item.timestamp = times index := by
  obtain ⟨index, isId, found⟩ :=
    Table.get?_ofList_eq_some_iff.mp (listing.row item member)
  simp only [World.restamp, List.getElem?_mapIdx, Option.map_eq_some_iff]
    at found
  obtain ⟨log, found, stamped⟩ := found
  have owner : log.executionId = item.executionId :=
    congrArg JobLog.executionId stamped
  have stamp : times index = item.timestamp :=
    congrArg JobLog.timestamp stamped
  obtain ⟨low, high⟩ := final.position_le found (owner.trans same)
  exact ⟨index, low, high, isId.symm, stamp.symm⟩

theorem LogsFinal.first_listed
    (final : LogsFinal job execution position lines state)
    (listing : ((state.world.restamp times).database columns).Listing job data)
    {log : JobLog} (first : lines.head? = some log)
    (same : log.executionId = execution) :
    ∃ item ∈ data.filter fun item => item.executionId = execution,
      item.id = columns.logId position := by
  obtain ⟨row, present, belongs⟩ := final.present
  have stored : ((state.world.restamp times).database columns).logs.get?
      (columns.logId position) =
        some { log with timestamp := times position } := by
    apply Table.get?_ofList_eq_some_iff.mpr
    refine ⟨position, rfl, ?_⟩
    simp only [World.restamp, List.getElem?_mapIdx, final.getElem? first,
      Option.map_some]
  obtain ⟨item, member, isId⟩ :=
    listing.complete stored (by rw [same]; exact present) belongs
  have isRow := listing.row item member
  rw [isId, stored, Option.some.injEq, JobLog.mk.injEq] at isRow
  refine ⟨item, List.mem_filter.mpr ⟨member, ?_⟩, isId⟩
  exact decide_eq_true (isRow.1.symm.trans same)

theorem LogsFinal.lists_alone {log : JobLog}
    (final : LogsFinal job execution position [log] state)
    (listing : ((state.world.restamp times).database columns).Listing job data)
    (same : log.executionId = execution) :
    ∃ item, (data.filter fun item => item.executionId = execution) = [item] ∧
      item.id = columns.logId position := by
  obtain ⟨item, member, isId⟩ := final.first_listed listing rfl same
  have only : ∀ other ∈ data.filter fun item => item.executionId = execution,
      other.id = columns.logId position := by
    intro other otherMember
    obtain ⟨listed, owner⟩ := List.mem_filter.mp otherMember
    obtain ⟨index, low, high, otherId, -⟩ :=
      final.item listing listed (of_decide_eq_true owner)
    have isIndex : index = position := by
      rw [List.length_singleton] at high
      omega
    rw [otherId, isIndex]
  have distinct : ((data.filter fun item =>
      item.executionId = execution).map (·.id)).Nodup :=
    listing.nodup.sublist (List.Sublist.map _ List.filter_sublist)
  refine ⟨item, ?_, isId⟩
  generalize (data.filter fun item => item.executionId = execution) = items
    at member only distinct
  cases items with
  | nil => cases member
  | cons first rest =>
      cases rest with
      | nil => rw [List.mem_singleton.mp member]
      | cons second rest =>
          have both : first.id = second.id :=
            (only first (by simp)).trans (only second (by simp)).symm
          simp [both] at distinct

/-- While the rows are stamped one after another, no line of the execution is
listed before the closing line. -/
theorem LogsFinal.closing_first
    (rising : ∀ position later, position < later →
      times position < times later)
    (final : LogsFinal job execution position lines state)
    (listing : ((state.world.restamp times).database columns).Listing job data)
    {handled : List LogItem} {last : LogItem}
    (listed : (data.filter fun item => item.executionId = execution) =
      handled ++ [last])
    (isClosing : last.id = columns.logId position) : handled = [] := by
  apply List.eq_nil_iff_forall_not_mem.mpr
  intro item member
  have sorted := listing.sorted.sublist
    (List.filter_sublist (p := fun item => item.executionId = execution))
  have distinct : ((data.filter fun item =>
      item.executionId = execution).map (·.id)).Nodup :=
    listing.nodup.sublist (List.Sublist.map _ List.filter_sublist)
  have inData : ∀ other ∈ handled ++ [last],
      other ∈ data ∧ other.executionId = execution := by
    intro other otherMember
    rw [← listed] at otherMember
    obtain ⟨inside, owner⟩ := List.mem_filter.mp otherMember
    exact ⟨inside, of_decide_eq_true owner⟩
  rw [listed] at sorted distinct
  have before : item.timestamp ≤ last.timestamp :=
    (List.pairwise_append.mp sorted).2.2 item member last (by simp)
  obtain ⟨inside, owner⟩ := inData item (by simp [member])
  obtain ⟨index, low, -, isId, stamp⟩ := final.item listing inside owner
  obtain ⟨lastInside, lastOwner⟩ := inData last (by simp)
  obtain ⟨lastIndex, -, -, lastId, lastStamp⟩ :=
    final.item listing lastInside lastOwner
  cases columns.logId.injective (isClosing.symm.trans lastId)
  rw [stamp, lastStamp] at before
  have notLater : ¬position < index :=
    fun less => Int.not_lt.mpr before (rising position index less)
  cases Nat.le_antisymm low (Nat.not_lt.mp notLater)
  rw [List.map_append, List.nodup_append] at distinct
  exact distinct.2.2 item.id (List.mem_map_of_mem member) last.id (by simp)
    (isId.trans isClosing.symm)

end Listings

/-- The lines of an execution are listed in order if and only if its handler
has logged none: each transaction stores the closing line first. -/
theorem logsInOrder_iff {env : Env} {first start before after last : State}
    {past trace rest : List (Transition State Action)} {call : CallId}
    {job : JobId} {worker : WorkerId} {phase : ExecPhase} {attempt : Attempt}
    {status : ExecutionStatus} {durationMs : Int} {error : Option String}
    (initial : Initial first) (closed : first.world.LogsClosed)
    (earlier : Run (step env) first past start)
    (history : ExecRun env call job worker start trace before (.awaiting phase))
    (closes : phase.closes = some (attempt, status, durationMs, error))
    (commits : step env before (.exec call .ok) = some after)
    (later : Run (step env) after rest last)
    {columns : ApiColumns} {prisma : Prisma} {user : UserId}
    {page limit : Option String}
    (accepts : prisma.acceptsSkip 0 = true)
    (access : (last.world.database columns).sees user
      ((last.world.database columns).orgOfJob job) = true)
    (skip : (parsePagination page limit).skip = 0)
    (covers : (last.world.database columns).logTotal job ≤
      (parsePagination page limit).limit) :
    last.world.LogsInOrder columns prisma user job page limit attempt.execution
        (handlerLines call trace) before.world.logs.length ↔
      handlerLines call trace = [] := by
  have called : before.calls call = some (.exec ⟨job, worker, phase⟩) :=
    history.calls
  have owners : LogOwners before :=
    logOwners_of_run (logOwners_of_run (logOwners_of_initial initial closed)
      earlier) history.run
  obtain ⟨closing, atCommit⟩ := owners.final commits called closes
  have final := logsFinal_of_run atCommit later
  have buffer : attempt.logBuffer = handlerLines call trace :=
    history.buffered? rfl (ExecPhase.buffered?_of_closes closes)
  unfold World.closingLines at final
  rw [buffer, List.map_cons] at final
  constructor
  · intro ordered
    have rising : ∀ position later : Nat, position < later →
        (position : Time) < (later : Time) :=
      fun _ _ less => Int.ofNat_lt.mpr less
    have ordering : ∀ position later : Nat, position ≤ later →
        (position : Time) ≤ (later : Time) :=
      fun _ _ less => Int.ofNat_le.mpr less
    obtain ⟨orders, reply, answered⟩ :=
      ((last.world.restamp fun position => (position : Time)).database
        columns).exists_getJobLogs prisma user job page limit
    obtain ⟨data, pagination, handled, item, rfl, listed, lines, isClosing⟩ :=
      ordered _ ordering reply ⟨orders, answered⟩
    obtain ⟨_, _, same, listing⟩ := Database.listing_of_getJobLogs answered
      access accepts skip (le_of_eq_of_le (logTotal_restamp _) covers)
    cases same
    rw [← lines, final.closing_first rising listing listed isClosing]
    rfl
  · intro silent
    rw [silent] at final ⊢
    rintro times - reply ⟨orders, answered⟩
    obtain ⟨data, pagination, rfl, listing⟩ := Database.listing_of_getJobLogs
      answered access accepts skip
      (le_of_eq_of_le (logTotal_restamp _) covers)
    obtain ⟨item, alone, isClosing⟩ := final.lists_alone listing rfl
    exact ⟨data, pagination, [], item, rfl, alone, rfl, isClosing⟩

/-- The attempt that call 2 makes at job 7 in the recorded steps is about to
commit, and the transaction leads to a state that passes the check. -/
def commitPasses
    (check : List (Transition State Action) → State → State → Bool)
    (result : List (Transition State Action) × State) : Bool :=
  (result.1.drop 8).head?.any (·.after.justLaunched 2 7 1) &&
    (result.1.drop 9).all (·.action.begins ≠ some 2) &&
    (match result.2.calls 2 with
      | some (.exec exec) => exec.phase.closes.any fun outcome =>
          outcome.1.execution = 0
      | _ => false) &&
    (step .sample result.2 (.exec 2 .ok)).any
      (check (result.1.drop 9) result.2)

theorem exists_commit
    (check : List (Transition State Action) → State → State → Bool)
    (inputs : List Action)
    (passed : (record (step .sample)
      (World.sample 1 ⟨[(7, Job.sample .queued)], by simp⟩).idle
      (claimActions 1 1 [7] ++ executeActions 1 2 0 ++ inputs)).any
        (commitPasses check) = true) :
    ∃ past start trace before after phase attempt status durationMs error,
      Run (step .sample)
        (World.sample 1 ⟨[(7, Job.sample .queued)], by simp⟩).idle past start ∧
      ExecRun .sample 2 7 1 start trace before (.awaiting phase) ∧
      phase.closes = some (attempt, status, durationMs, error) ∧
      step .sample before (.exec 2 .ok) = some after ∧
      attempt.execution = 0 ∧
      check trace before after = true := by
  obtain ⟨⟨trace, before⟩, recorded, passed⟩ := (Option.any_eq_true ..).mp passed
  simp only [commitPasses, Bool.and_eq_true, Option.any_eq_true] at passed
  obtain ⟨⟨⟨⟨launch, isLaunch, launched⟩, once⟩, closing⟩, after, commits,
    passed⟩ := passed
  have never : ∀ transition ∈ trace.drop 9,
      transition.action.begins ≠ some 2 := by
    intro transition member
    exact of_decide_eq_true (List.all_eq_true.mp once transition member)
  obtain ⟨standing, earlier, history⟩ :=
    execRun_of_launch (.of_record recorded) isLaunch launched never
  have calls := history.calls
  split at closing
  · rename_i exec called
    rw [called] at calls
    obtain ⟨⟨attempt, status, durationMs, error⟩, closes, isFirst⟩ :=
      (Option.any_eq_true ..).mp closing
    cases standing with
    | awaiting phase =>
        cases calls
        exact ⟨_, _, _, _, after, phase, attempt, status, durationMs, error,
          earlier, history, closes, commits, of_decide_eq_true isFirst, passed⟩
    | settled => cases calls
    | stopped => cases calls
  · cases closing

/-- The handler resolves without a line. -/
theorem logsInOrder_of_silent :
    ∃ past start trace before after,
      Run (step .sample)
        (World.sample 1 ⟨[(7, Job.sample .queued)], by simp⟩).idle past start ∧
      Run (step .sample) start trace before ∧
      step .sample before (.exec 2 .ok) = some after ∧
      handlerLines 2 trace = [] ∧
      after.world.LogsInOrder .twoOrgs ⟨fun _ => true⟩ 1 7 none none 0
        (handlerLines 2 trace) before.world.logs.length := by
  obtain ⟨past, start, trace, before, after, phase, attempt, _, _, _, earlier,
      history, closes, commits, isFirst, passed⟩ :=
    exists_commit (fun trace _ after =>
        (handlerLines 2 trace).isEmpty &&
          (after.world.database .twoOrgs).sees 1
            ((after.world.database .twoOrgs).orgOfJob 7) &&
          decide ((after.world.database .twoOrgs).logTotal 7 ≤
            (parsePagination none none).limit))
      [.exec 2 .resolved] (by decide)
  simp only [Bool.and_eq_true, decide_eq_true_eq, List.isEmpty_iff] at passed
  obtain ⟨⟨silent, access⟩, covers⟩ := passed
  have unlogged : (World.sample 1
      ⟨[(7, Job.sample .queued)], by simp⟩).LogsClosed := by
    intro log member
    cases member
  refine ⟨past, start, trace, before, after, earlier, history.run, commits,
    silent, ?_⟩
  rw [← isFirst]
  exact (logsInOrder_iff (World.idle_initial fun _ => rfl) unlogged earlier
    history closes commits .nil rfl access rfl covers).mpr silent

/-- The executions and identifiers of the lines in the answer to
`GET /jobs/7/logs`, for rows that are stamped one after another. -/
def State.listedLogs (state : State) (order : List LogId) :
    List (ExecutionId × LogId) :=
  match ((state.world.restamp fun position => (position : Time)).database
      .twoOrgs).getJobLogs ⟨fun _ => true⟩ 1 7 none none
        ⟨[], [], order, fun _ => []⟩ with
  | some (.ok (.logs data _)) => data.map fun item => (item.executionId, item.id)
  | _ => []

/-- The handler logs one line and resolves: the line "Job completed
successfully" is stored and listed before it. -/
theorem closing_line_first :
    ∃ past start trace before after phase attempt status durationMs error,
      Run (step .sample)
        (World.sample 1 ⟨[(7, Job.sample .queued)], by simp⟩).idle past start ∧
      ExecRun .sample 2 7 1 start trace before (.awaiting phase) ∧
      phase.closes = some (attempt, status, durationMs, error) ∧
      step .sample before (.exec 2 .ok) = some after ∧
      handlerLines 2 trace = [⟨"info", "halfway"⟩] ∧
      ¬after.world.LogsInOrder .twoOrgs ⟨fun _ => true⟩ 1 7 none none
        attempt.execution (handlerLines 2 trace) before.world.logs.length := by
  obtain ⟨past, start, trace, before, after, phase, attempt, status, durationMs,
      error, earlier, history, closes, commits, isFirst, passed⟩ :=
    exists_commit (fun trace before after =>
        (handlerLines 2 trace).map (fun line => (line.level, line.message)) =
            [("info", "halfway")] &&
          before.world.logs.isEmpty &&
          after.listedLogs [0, 1] = [(0, 0), (0, 1)])
      [.exec 2 (.log "info" "halfway"), .exec 2 .resolved] (by decide)
  simp only [Bool.and_eq_true, decide_eq_true_eq, List.isEmpty_iff] at passed
  obtain ⟨⟨line, unlogged⟩, listed⟩ := passed
  have isLine : handlerLines 2 trace = [⟨"info", "halfway"⟩] := by
    cases lines : handlerLines 2 trace with
    | nil =>
        rw [lines] at line
        cases line
    | cons first rest =>
        obtain ⟨level, message⟩ := first
        rw [lines] at line
        simpa [and_assoc] using line
  refine ⟨past, start, trace, before, after, phase, attempt, status, durationMs,
    error, earlier, history, closes, commits, isLine, ?_⟩
  intro ordered
  unfold State.listedLogs at listed
  split at listed
  · rename_i data pagination answered
    obtain ⟨_, _, handled, last, same, inOrder, lines, isClosing⟩ :=
      ordered _ (fun _ _ less => Int.ofNat_le.mpr less) _ ⟨_, answered⟩
    cases same
    have owned : ∀ item ∈ data, item.executionId = attempt.execution := by
      intro item member
      have pair : (item.executionId, item.id) ∈
          data.map fun item => (item.executionId, item.id) :=
        List.mem_map_of_mem member
      rw [listed] at pair
      rw [isFirst]
      rcases List.mem_pair.mp pair with same | same <;>
        exact congrArg Prod.fst same
    have ids := congrArg (List.map Prod.snd) listed
    rw [List.filter_eq_self.mpr fun item member =>
      decide_eq_true (owned item member)] at inOrder
    rw [List.map_map, inOrder, List.map_append] at ids
    have lastId := congrArg List.getLast? ids
    rw [List.map_singleton, List.getLast?_concat, Function.comp_apply,
      isClosing, unlogged] at lastId
    cases lastId
  · cases listed

end Chronos
