import Chronos.Writers

/-!
# Who writes executions and dead letters

The table of writers of `job_executions` and `dead_letter_jobs`, and what a
step leaves alone: the retry policy that applies to a job.
-/

namespace Chronos

namespace ExecPhase

/-- How the transaction of this phase closes the execution row. -/
def closes : ExecPhase →
    Option (Attempt × ExecutionStatus × Int × Option String)
  | .complete attempt durationMs => some (attempt, .completed, durationMs, none)
  | .retry attempt failure _ _ =>
      some (attempt, .failed, failure.durationMs, failure.errorMessage)
  | .deadLetter attempt failure =>
      some (attempt, .failed, failure.durationMs, failure.errorMessage)
  | _ => none

end ExecPhase

/-- The table of executions after a step that writes it. -/
inductive ExecutionsWrite (state : State) :
    Action → Table ExecutionId JobExecution → Prop where
  | created {call : CallId} {exec : ExecCall} {snapshot : Job}
      {policy : RetryPolicy} {id : ExecutionId}
      {executions : Table ExecutionId JobExecution} :
      state.calls call = some (.exec exec) →
      exec.phase = .createExecution snapshot policy →
      state.world.executions.insert? id
          { jobId := exec.jobId, workerId := exec.workerId
            attemptNumber := snapshot.attemptCount + 1
            startedAt := state.world.now, finishedAt := none
            status := .running, errorMessage := none
            durationMs := none } = some executions →
      ExecutionsWrite state (.exec call (.created id)) executions
  | closed {call : CallId} {exec : ExecCall} {attempt : Attempt}
      {status : ExecutionStatus} {durationMs : Int} {error : Option String} :
      state.calls call = some (.exec exec) →
      exec.phase.closes = some (attempt, status, durationMs, error) →
      ExecutionsWrite state (.exec call .ok)
        (state.world.executions.modify attempt.execution
          (JobExecution.finish status state.world.now durationMs error))
  | orphansClosed {call : CallId} {owner worker : WorkerId}
      {workers : List WorkerId} {job : JobId} {jobIds : List JobId}
      {queueId : QueueId} :
      state.calls call = some (.reap
        ⟨owner, .closeExecutions worker workers job jobIds queueId⟩) →
      ExecutionsWrite state (.reap call .ok)
        (state.world.closeExecutions worker job).executions

section Steps

variable {env : Env} {state next : State} {action : Action}

theorem step_executions (taken : step env state action = some next) :
    next.world.executions = state.world.executions ∨
      ExecutionsWrite state action next.world.executions := by
  cases step_cases taken with
  | registered success =>
      obtain ⟨workers, _, rfl⟩ := World.registerWorker_eq_some success
      exact .inl rfl
  | poll _ case => exact .inl (by rw [case.frame])
  | exec called case =>
      cases case with
      | created phase inserted => exact .inr (.created called phase inserted)
      | completed phase _ => exact .inr (.closed called (by rw [phase]; rfl))
      | retried phase _ => exact .inr (.closed called (by rw [phase]; rfl))
      | deadLettered phase _ success =>
          obtain ⟨_, _, _, rfl⟩ := World.commitDeadLetter_spec success
          exact .inr (.closed called (by rw [phase]; rfl))
      | announced _ rows => exact .inl rows.executions
      | published _ rows => exact .inl rows.executions
      | _ => exact .inl rfl
  | reap called case =>
      cases case with
      | closed => exact .inr (.orphansClosed called)
      | published rows => exact .inl rows.executions
      | _ => exact .inl rfl
  | tick _ case => exact .inl (by rw [case.frame])
  | api _ case => exact .inl (by rw [case.frame])
  | _ => exact .inl rfl

theorem JobExecution.closeOrphan_jobId (execution : JobExecution)
    (job : JobId) (now : Time) (worker : WorkerId) :
    (execution.closeOrphan job now worker).jobId = execution.jobId := by
  unfold closeOrphan
  split <;> rfl

/-- Execution rows are never deleted.  They keep their job, their worker and
their number, and the end of an execution is final. -/
theorem step_execution (taken : step env state action = some next)
    {id : ExecutionId} {row : JobExecution}
    (found : state.world.executions.get? id = some row) :
    ∃ row', next.world.executions.get? id = some row' ∧
      row'.jobId = row.jobId ∧ row'.workerId = row.workerId ∧
      row'.attemptNumber = row.attemptNumber ∧
      (row.status ≠ .running → row'.status ≠ .running) := by
  rcases step_executions taken with same | write
  · exact ⟨row, by rw [same, found], rfl, rfl, rfl, fun ended => ended⟩
  · generalize next.world.executions = executions at write
    cases write with
    | @created _ _ _ _ other _ _ _ inserted =>
        refine ⟨row, ?_, rfl, rfl, rfl, fun ended => ended⟩
        have fresh := (Table.insert?_eq_some_iff.mp inserted).1
        rw [Table.get?_insert? inserted, if_neg, found]
        rintro rfl
        rw [fresh] at found
        cases found
    | @closed _ exec _ _ _ _ _ closes =>
        rw [Table.get?_modify, found]
        refine ⟨_, rfl, ?_⟩
        split
        · refine ⟨rfl, rfl, rfl, fun _ => ?_⟩
          cases shape : exec.phase <;> rw [shape] at closes <;>
            cases closes <;> simp [JobExecution.finish]
        · exact ⟨rfl, rfl, rfl, fun ended => ended⟩
    | orphansClosed =>
        refine ⟨_, by
          rw [World.closeExecutions, Table.get?_mapRows, found]; rfl, ?_⟩
        dsimp only
        unfold JobExecution.closeOrphan
        split
        · exact ⟨rfl, rfl, rfl, fun _ => by simp⟩
        · exact ⟨rfl, rfl, rfl, fun ended => ended⟩

/-- An update of the dead letter of one job by one step. -/
inductive DeadLetterWrite (state : State) (job : JobId) :
    Action → Option DeadLetterJob → Prop where
  | inserted {call : CallId} {exec : ExecCall} {attempt : Attempt}
      {failure : Failure} :
      state.calls call = some (.exec exec) →
      exec.jobId = job →
      exec.phase = .deadLetter attempt failure →
      DeadLetterWrite state job (.exec call .ok)
        (some
          { queueId := attempt.job.queueId
            payload := Json.orElse (some attempt.job.payload) (.obj [])
            failureReason := failure.errorMessage
            attemptCount := attempt.number
            movedAt := state.world.now })
  | erased {call : CallId} {request : RetryCall} :
      state.calls call = some (.retry request) →
      request.jobId = job →
      DeadLetterWrite state job (.api call .ok) none

theorem step_deadLetter (taken : step env state action = some next)
    (job : JobId) :
    next.world.deadLetters.get? job = state.world.deadLetters.get? job ∨
      DeadLetterWrite state job action (next.world.deadLetters.get? job) := by
  cases step_cases taken with
  | registered success =>
      obtain ⟨workers, _, rfl⟩ := World.registerWorker_eq_some success
      exact .inl rfl
  | poll _ case => exact .inl (by rw [case.frame])
  | @exec call exec _ _ _ called case =>
      cases case with
      | deadLettered phase _ success =>
          obtain ⟨deadLetters, _, inserted, rfl⟩ :=
            World.commitDeadLetter_spec success
          change deadLetters.get? job = _ ∨
            DeadLetterWrite state job _ (deadLetters.get? job)
          rw [Table.get?_insert? inserted]
          split
          · rename_i same
            exact .inr (.inserted called same.symm phase)
          · exact .inl rfl
      | announced _ rows => exact .inl (by rw [rows.frame])
      | published _ rows => exact .inl (by rw [rows.frame])
      | _ => exact .inl rfl
  | reap _ case => exact .inl (by rw [case.frame])
  | tick _ case => exact .inl (by rw [case.frame])
  | api called case =>
      cases case with
      | silent rows => exact .inl (by rw [rows.frame])
      | submitted _ success =>
          exact .inl (by rw [(World.createJob_spec success).1])
      | batchSubmitted _ _ success =>
          exact .inl (by rw [(World.createJobs_spec success).1])
      | @retried request _ _ deadLetter phase _ =>
          change (if deadLetter = true then _ else _ :
              Table JobId DeadLetterJob).get? job = _ ∨
            DeadLetterWrite state job _ ((if deadLetter = true then _ else _ :
              Table JobId DeadLetterJob).get? job)
          split
          · rw [Table.get?_erase]
            split
            · rename_i same
              exact .inr (.erased called same.symm)
            · exact .inl rfl
          · exact .inl rfl
      | _ => exact .inl rfl
  | _ => exact .inl rfl

theorem step_retryPolicyOf (taken : step env state action = some next)
    {row row' : Job} (sameQueue : row'.queueId = row.queueId)
    (samePolicy : row'.retryPolicyId = row.retryPolicyId) :
    next.world.retryPolicyOf row' = state.world.retryPolicyOf row := by
  have kept : ∀ {world : World}, world.queues = state.world.queues →
      world.retryPolicies = state.world.retryPolicies →
      world.retryPolicyOf row' = state.world.retryPolicyOf row := by
    intro world queues policies
    simp only [World.retryPolicyOf, sameQueue, samePolicy, queues, policies]
  cases step_cases taken with
  | registered success =>
      obtain ⟨workers, _, rfl⟩ := World.registerWorker_eq_some success
      exact kept rfl rfl
  | @queueUpdated queue patch =>
      cases found : state.world.queues.get? row.queueId with
      | none =>
          simp [World.retryPolicyOf, World.updateQueue, Table.get?_modify,
            sameQueue, samePolicy, found]
      | some before =>
          simp only [World.retryPolicyOf, World.updateQueue, Table.get?_modify,
            sameQueue, samePolicy, found, Option.map_some, Option.bind_some]
          split <;> rfl
  | poll _ case => exact kept (by rw [case.frame]) (by rw [case.frame])
  | exec _ case => exact kept (by rw [case.frame]) (by rw [case.frame])
  | reap _ case => exact kept (by rw [case.frame]) (by rw [case.frame])
  | tick _ case => exact kept (by rw [case.frame]) (by rw [case.frame])
  | api _ case => exact kept (by rw [case.frame]) (by rw [case.frame])
  | _ => exact kept rfl rfl

theorem retryPolicyOf_of_run {start last : State}
    {trace : List (Transition State Action)}
    (run : Run (step env) start trace last) (row : Job) :
    last.world.retryPolicyOf row = start.world.retryPolicyOf row := by
  induction run with
  | nil => rfl
  | snoc _ taken induction =>
      exact (step_retryPolicyOf taken rfl rfl).trans induction

theorem step_policy (taken : step env state action = some next) {job : JobId}
    {row row' : Job} (found : state.world.jobs.get? job = some row)
    (found' : next.world.jobs.get? job = some row') :
    next.world.retryPolicyOf row' = state.world.retryPolicyOf row := by
  have columns := step_columns taken found found'
  exact step_retryPolicyOf taken columns.queueId columns.retryPolicyId

end Steps

/-! ## The executions of one job -/

namespace World

/-- The executions of a job with their ids, in the order of their creation. -/
def executionsOf (world : World) (job : JobId) :
    List (ExecutionId × JobExecution) :=
  world.executions.rowsWhere fun execution => execution.jobId = job

end World

end Chronos
