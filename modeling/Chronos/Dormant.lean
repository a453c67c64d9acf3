import Chronos.Exclusivity
import Chronos.Ownership
import Chronos.Records
import Chronos.Requeue
import Chronos.Submission

/-!
# Jobs that have never been claimed

Before its first claim a job is in no worker's memory and no execution names
it, so neither an executor nor a reap cycle nor a manual retry can write its
row.  Until a claim or a cancel it stays exactly as it was inserted.
-/

namespace Chronos

/-- The foreign key of `job_executions.job_id`. -/
def World.References (world : World) : Prop :=
  ∀ id execution, world.executions.get? id = some execution →
    ∃ row, world.jobs.get? execution.jobId = some row

/-- The manual retry has found its job retryable and will reset it. -/
def RetryPhase.resets : RetryPhase → Bool
  | .transaction _ _ _ => true
  | _ => false

/-- No call in progress and no execution refers to the job. -/
structure Dormant (job : JobId) (state : State) : Prop where
  unheld : ∀ call, ¬state.holds call job
  unexecuted : ∀ {id execution},
    state.world.executions.get? id = some execution → execution.jobId ≠ job
  unreaped : ∀ {call phase},
    state.reaping? call = some phase → job ∉ phase.pending
  unretried : ∀ {call request},
    state.calls call = some (.retry request) → request.phase.resets = true →
    request.jobId ≠ job

theorem ReapStep.pending_origin {world next : World}
    {phase phase' : ReapPhase} {input : ReapInput}
    (case : ReapStep world phase input next (some phase')) {job : JobId}
    (member : job ∈ phase'.pending) :
    job ∈ phase.pending ∨
      (∃ id execution, world.executions.get? id = some execution ∧
        execution.jobId = job) ∨
      ∃ row, world.jobs.get? job = some row ∧ row.status.inFlight = true := by
  generalize after : some phase' = result at case
  cases case with
  | staleFound =>
      rw [(ReapPhase.processing_nextWorker after.symm).2] at member
      cases member
  | noOrphans =>
      rw [(ReapPhase.processing_nextWorker after.symm).2] at member
      cases member
  | markedDead =>
      cases after
      cases member
  | orphansFound =>
      cases after
      obtain ⟨id, _, isJob⟩ :=
        List.mem_filterMap.mp (mem_newSet.mp member)
      obtain ⟨execution, found, same⟩ := Option.map_eq_some_iff.mp isJob
      exact .inr (.inl ⟨id, execution, found, same⟩)
  | jobsFound read =>
      rw [(ReapPhase.pending_nextJob after.symm).1] at member
      rcases List.mem_append.mp (mem_newSet.mp member) with old | inFlight
      · exact .inl old
      · obtain ⟨row, found, holds⟩ :=
          Table.mem_keysWhere.mp (read.mem_iff.mp inFlight)
        exact .inr (.inr ⟨row, found, (Bool.and_eq_true_iff.mp holds).1⟩)
  | requeued =>
      cases after
      exact .inl (List.mem_cons_of_mem _ member)
  | closed =>
      cases after
      exact .inl member
  | published =>
      rw [(ReapPhase.pending_nextJob after.symm).1] at member
      exact .inl member
  | skipped same =>
      rw [(ReapPhase.pending_nextJob after.symm).1] at member
      left
      cases phase <;> cases same
      · exact List.mem_cons_of_mem _ member
      · exact member
      · exact member
  | ended => cases after

theorem retryJob_resets {world next : World} {call call' : RetryCall}
    {input : ApiInput} (taken : retryJob world call input = some (next, call'))
    (resets : call'.phase.resets = true) :
    ∃ row, world.jobs.get? call'.jobId = some row ∧
      row.status.retryable = true := by
  obtain ⟨job, phase⟩ := call
  obtain ⟨phase', rfl, case⟩ := retryJob_cases taken
  cases case with
  | allowed found retryable => exact ⟨_, found, retryable⟩
  | _ => cases resets

namespace Dormant

variable {env : Env} {start last state next : State} {action : Action}
  {trace : List (Transition State Action)} {job : JobId} {row : Job}

/-- Unless it is claimed, a job that waits or does not exist yet stays
dormant. -/
theorem step (dormant : Dormant job state)
    (waiting : ∀ row, state.world.jobs.get? job = some row →
      row.status.cancellable = true)
    (taken : Chronos.step env state action = some next)
    (unclaimed : Unclaimed job ⟨state, action, next⟩) : Dormant job next := by
  constructor
  · intro call held
    rcases step_holds taken held with old | gains
    · exact dormant.unheld call old
    · cases gains with
      | @launched cycle _ _ _ _ _ called phase =>
          exact dormant.unheld cycle ⟨_, called,
            Call.holdsIn_of_launching phase List.mem_cons_self⟩
      | claimed called phase member =>
          exact unclaimed.notMem called phase member
  · intro id execution found
    rcases step_executions taken with same | write
    · rw [same] at found
      exact dormant.unexecuted found
    · generalize next.world.executions = executions at write found
      cases write with
      | @created call exec _ _ _ _ called phase inserted =>
          rw [Table.get?_insert? inserted] at found
          split at found
          · cases found
            rintro rfl
            apply dormant.unheld call
            exact ⟨_, called, rfl, by rw [phase]; rfl⟩
          · exact dormant.unexecuted found
      | closed =>
          rw [Table.get?_modify, Option.map_eq_some_iff] at found
          obtain ⟨before, old, rfl⟩ := found
          have other := dormant.unexecuted old
          split <;> exact other
      | orphansClosed =>
          rw [World.closeExecutions, Table.get?_mapRows,
            Option.map_eq_some_iff] at found
          obtain ⟨before, old, rfl⟩ := found
          rw [JobExecution.closeOrphan_jobId]
          exact dormant.unexecuted old
  · intro call phase found member
    rcases step_reaping taken found with
      old | ⟨_, _, rfl⟩ | ⟨before, _, _, _, old, case, _⟩
    · exact dormant.unreaped old member
    · cases member
    · rcases case.pending_origin member with
        earlier | ⟨_, _, executed, same⟩ | ⟨row, present, inFlight⟩
      · exact dormant.unreaped old earlier
      · exact dormant.unexecuted executed same
      · have status := waiting row present
        cases shape : row.status <;> rw [shape] at status inFlight <;>
          first | cases status; done | cases inFlight
  · intro call request found resets
    generalize same : Call.retry request = value at found
    cases step_call taken found with
    | kept old =>
        subst same
        exact dormant.unretried old resets
    | started starts =>
        cases starts with
        | request =>
            rename_i body
            cases body <;> cases same
            cases resets
        | _ => cases same
    | api old case world handled =>
        subst same
        cases handle_cases handled with
        | retry success =>
            obtain ⟨row, present, retryable⟩ := retryJob_resets success resets
            rintro rfl
            have status := waiting row present
            cases shape : row.status <;> rw [shape] at status retryable <;>
              first | cases status; done | cases retryable
    | _ => cases same

/-- Only a claim and a cancel write the row of a dormant job. -/
theorem keeps (dormant : Dormant job state)
    (taken : Chronos.step env state action = some next)
    (unclaimed : Unclaimed job ⟨state, action, next⟩)
    (uncancelled : action.commitsCancel state ≠ some job)
    (found : state.world.jobs.get? job = some row) :
    next.world.jobs.get? job = some row := by
  have unheld : ∀ {call exec}, state.calls call = some (.exec exec) →
      exec.jobId = job → exec.phase.owns ≠ true :=
    fun called target owns => dormant.unheld _ ⟨_, called, target, owns⟩
  obtain ⟨row', found', same | write⟩ := step_job taken found
  · rw [found', same]
  · cases write with
    | claim called phase member =>
        exact (unclaimed.notMem called phase member).elim
    | markRunning called target phase =>
        exact (unheld called target (by rw [phase]; rfl)).elim
    | complete called target phase =>
        exact (unheld called target (by rw [phase]; rfl)).elim
    | retry called target phase =>
        exact (unheld called target (by rw [phase]; rfl)).elim
    | deadLetter called target phase =>
        exact (unheld called target (by rw [phase]; rfl)).elim
    | requeueOrphan called =>
        have pending := dormant.unreaped (by rw [State.reaping?, called])
        exact (pending List.mem_cons_self).elim
    | resetForRetry called target phase =>
        exact (dormant.unretried called (by rw [phase]; rfl) target).elim
    | @cancel call request _ _ _ called target phase =>
        obtain ⟨target', phase'⟩ := request
        cases phase
        cases target
        exact (uncancelled (by simp [Action.commitsCancel, called])).elim

theorem of_absent (run : Run (Chronos.step env) start trace last)
    (initial : Initial start) (references : start.world.References)
    (absent : last.world.jobs.get? job = none) : Dormant job last := by
  have always : ∀ transition ∈ trace, True := fun _ _ => trivial
  have inv : LockInv last ∧
      (last.world.jobs.get? job = none → Dormant job last) := by
    refine run.invariant (fun state => LockInv state ∧
      (state.world.jobs.get? job = none → Dormant job state)) always
      ⟨.initial initial, ?_⟩ ?_
    · intro missing
      constructor
      · rintro call ⟨value, found, _⟩
        rw [initial.calls call] at found
        cases found
      · rintro id execution found rfl
        obtain ⟨row, present⟩ := references id execution found
        rw [missing] at present
        cases present
      · intro call phase found
        simp [State.reaping?, initial.calls call] at found
      · intro call request found
        rw [initial.calls call] at found
        cases found
    · rintro ⟨before, action, after⟩ _ taken ⟨locks, dormant⟩
      refine ⟨locks.step taken, ?_⟩
      intro missing
      have missingBefore : before.world.jobs.get? job = none := by
        cases found : before.world.jobs.get? job with
        | none => rfl
        | some row =>
            obtain ⟨row', found', _⟩ := step_job taken found
            rw [missing] at found'
            cases found'
      refine (dormant missingBefore).step ?_ taken ?_
      · intro row found
        rw [missingBefore] at found
        cases found
      · intro claim claims member
        obtain ⟨call, queue, rest, txNow, same, called⟩ :=
          Action.claims_eq_some claims
        subst same
        have returns := ClaimReturns.of_commit taken called rfl
        have queued := returns.status_before taken locks member
        simp [State.status?, missingBefore] at queued
  exact inv.2 absent

/-- Until it is claimed or cancelled, a waiting job stays dormant and its row
the same. -/
theorem run (run : Run (Chronos.step env) start trace last)
    (dormant : Dormant job start)
    (found : start.world.jobs.get? job = some row)
    (waiting : row.status.cancellable = true)
    (untouched : ∀ transition ∈ trace, Unclaimed job transition ∧
      transition.action.commitsCancel transition.before ≠ some job) :
    Dormant job last ∧ last.world.jobs.get? job = some row := by
  refine run.invariant (fun state => Dormant job state ∧
    state.world.jobs.get? job = some row) untouched ⟨dormant, found⟩ ?_
  rintro transition ⟨unclaimed, uncancelled⟩ taken ⟨dormant, found⟩
  refine ⟨dormant.step ?_ taken unclaimed,
    dormant.keeps taken unclaimed uncancelled found⟩
  intro other present
  cases found.symm.trans present
  exact waiting

end Dormant

end Chronos
