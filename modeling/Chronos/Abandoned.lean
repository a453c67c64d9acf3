import Chronos.Dormant
import Chronos.OrphanOwners
import Chronos.Service

/-!
# Jobs that stay in flight for ever

A job in flight is freed by the executor that has it, by a reap cycle that
finds it through a running execution of its worker, or by a retry or cancel
that read its row before it was claimed.  A job that none of these can reach
keeps its row in every future of the system.
-/

namespace Chronos

namespace ReapPhase

/-- The workers whose running executions the cycle has still to read. -/
def toRead : ReapPhase → List WorkerId
  | .findJobs worker workers _ => worker :: workers
  | phase => phase.unread

end ReapPhase

/-- The foreign key of `job_executions.worker_id`, and that a process and its
calls belong to a registered worker. -/
structure State.Enrolled (state : State) : Prop where
  processes : ∀ {worker}, state.world.workers.get? worker = none →
    state.world.process worker = none
  executions : ∀ {id row}, state.world.executions.get? id = some row →
    state.world.workers.get? row.workerId ≠ none
  calls : ∀ {call value worker}, state.calls call = some value →
    value.worker = some worker → state.world.workers.get? worker ≠ none

/-- Nothing that is in progress, and no reap cycle to come, can reach the
job. -/
structure Abandoned (job : JobId) (state : State) : Prop where
  unserved : ¬state.carries job
  unretried : ∀ {call queueId project deadLetter},
    state.calls call =
      some (.retry ⟨job, .transaction queueId project deadLetter⟩) →
    deadLetter = true ∧ state.world.deadLetters.get? job = none
  uncancelled : ∀ {call queueId project},
    state.calls call ≠ some (.cancel ⟨job, .update queueId project⟩)
  unlisted : ∀ {call phase}, state.reaping? call = some phase →
    job ∉ phase.pending
  unread : ∀ {call phase worker}, state.reaping? call = some phase →
    worker ∈ phase.toRead → state.world.hasRunningExecution worker job = false
  unseen : ∀ {worker}, state.workerStatus? worker = some .active →
    state.world.hasRunningExecution worker job = false

namespace State.Enrolled

variable {env : Env} {start last state next : State} {action : Action}
  {trace : List (Transition State Action)}

private theorem worker_of_call (taken : step env state action = some next)
    {call : CallId} {value : Call} {worker : WorkerId}
    (found : next.calls call = some value)
    (mine : value.worker = some worker) :
    (∃ before old, state.calls before = some old ∧ old.worker = some worker) ∨
      state.world.process worker ≠ none := by
  have present : ∀ {other}, state.world.alive other = true →
      state.world.process other ≠ none := by
    intro other alive absent
    simp [World.alive, absent] at alive
  cases step_call taken found with
  | kept old => exact .inl ⟨call, value, old, mine⟩
  | started starts =>
      right
      cases starts with
      | poll notStopping =>
          cases mine
          intro absent
          simp [World.stopping, absent] at notStopping
      | reap alive => cases mine; exact present alive
      | tick alive => cases mine; exact present alive
      | request =>
          rename_i request
          cases request <;> cases mine
  | handedOver old => exact .inl ⟨call, _, old, mine⟩
  | @launched cycle _ _ _ _ old => exact .inl ⟨cycle, _, old, mine⟩
  | poll old case => cases case <;> exact .inl ⟨call, _, old, mine⟩
  | exec old case => cases case <;> exact .inl ⟨call, _, old, mine⟩
  | reap old => exact .inl ⟨call, _, old, mine⟩
  | tick old => exact .inl ⟨call, _, old, mine⟩
  | api _ case =>
      have isRequest := case.requests.2
      cases value with
      | poll => cases isRequest
      | exec => cases isRequest
      | reap => cases isRequest
      | tick => cases isRequest
      | _ => cases mine

private theorem worker_kept (taken : step env state action = some next)
    {worker : WorkerId} (present : state.world.workers.get? worker ≠ none) :
    next.world.workers.get? worker ≠ none := by
  obtain ⟨row, found⟩ := Option.ne_none_iff_exists'.mp present
  obtain ⟨row', found', _⟩ := step_worker taken found
  rw [found']
  exact Option.some_ne_none row'

private theorem process_kept (taken : step env state action = some next)
    {worker : WorkerId} (absent : next.world.workers.get? worker = none)
    (noProcess : state.world.process worker = none) :
    next.world.process worker = none := by
  have kept : ∀ {world : World}, world.process = state.world.process →
      world.process worker = none := by
    intro world same
    rw [same, noProcess]
  have other : ∀ {changed : WorkerId} {process : Process},
      changed ≠ worker →
      (state.world.setProcess changed process).process worker = none := by
    intro changed process different
    simp [World.setProcess, Ne.symm different, noProcess]
  have alive : ∀ {changed : WorkerId}, state.world.alive changed = true →
      changed ≠ worker := by
    rintro changed alive rfl
    simp [World.alive, noProcess] at alive
  cases step_cases taken with
  | @registered changed _ success =>
      obtain ⟨workers, inserted, rfl⟩ := World.registerWorker_eq_some success
      have different : changed ≠ worker := by
        rintro rfl
        simp [World.setProcess, Table.get?_insert? inserted] at absent
      exact other different
  | stopped isAlive => exact other (alive isAlive)
  | exited isAlive => exact other (alive isAlive)
  | poll _ case => exact kept (by rw [case.frame])
  | exec _ case => exact kept (by rw [case.frame])
  | reap _ case => exact kept (by rw [case.frame])
  | tick _ case => exact kept (by rw [case.frame])
  | api _ case => exact kept (by rw [case.frame])
  | _ => exact kept rfl

theorem execution_origin (taken : Chronos.step env state action = some next)
    {id : ExecutionId} {row : JobExecution}
    (found : next.world.executions.get? id = some row) :
    (∃ before, state.world.executions.get? id = some before ∧
      before.jobId = row.jobId ∧ before.workerId = row.workerId ∧
      (row.status = .running → before.status = .running)) ∨
    ∃ call exec snapshot policy, state.calls call = some (.exec exec) ∧
      exec.phase = .createExecution snapshot policy ∧
      exec.jobId = row.jobId ∧ exec.workerId = row.workerId := by
  cases old : state.world.executions.get? id with
  | some before =>
      obtain ⟨row', found', job, worker, _, ended⟩ := step_execution taken old
      cases found.symm.trans found'
      refine .inl ⟨before, rfl, job.symm, worker.symm, ?_⟩
      intro running
      by_contra notRunning
      exact ended notRunning running
  | none =>
      rcases step_executions taken with same | write
      · rw [same, old] at found
        cases found
      · generalize next.world.executions = executions at write found
        cases write with
        | created called phase inserted =>
            rw [Table.get?_insert? inserted] at found
            split at found
            · cases found
              exact .inr ⟨_, _, _, _, called, phase, rfl, rfl⟩
            · rw [old] at found
              cases found
        | closed =>
            rw [Table.get?_modify, old] at found
            cases found
        | orphansClosed =>
            rw [World.closeExecutions, Table.get?_mapRows, old] at found
            cases found

theorem step (enrolled : state.Enrolled)
    (taken : Chronos.step env state action = some next) : next.Enrolled := by
  have row : ∀ {worker}, state.world.process worker ≠ none →
      next.world.workers.get? worker ≠ none := by
    intro worker present
    apply worker_kept taken
    intro absent
    exact present (enrolled.processes absent)
  constructor
  · intro worker absent
    apply process_kept taken absent
    apply enrolled.processes
    by_contra present
    exact worker_kept taken present absent
  · intro id execution found
    rcases execution_origin taken found with
      ⟨before, old, _, same, _⟩ | ⟨call, exec, _, _, called, _, _, same⟩
    · rw [← same]
      exact worker_kept taken (enrolled.executions old)
    · rw [← same]
      exact worker_kept taken (enrolled.calls called rfl)
  · intro call value worker found mine
    rcases worker_of_call taken found mine with
      ⟨before, old, called, same⟩ | present
    · exact worker_kept taken (enrolled.calls called same)
    · exact row present

theorem run (enrolled : start.Enrolled)
    (run : Run (Chronos.step env) start trace last) : last.Enrolled := by
  refine run.invariant State.Enrolled (fun _ _ => trivial) enrolled ?_
  intro transition _ taken enrolled
  exact enrolled.step taken

end State.Enrolled

/-! ## Nothing reaches the job again -/

namespace ReapPhase

theorem toRead_nextWorker {workers : List WorkerId} {phase : ReapPhase}
    (next : nextWorker workers = some phase) : phase.toRead = workers := by
  cases workers <;> cases next
  rfl

theorem toRead_nextJob {worker : WorkerId} {workers : List WorkerId}
    {jobIds : List JobId} {phase : ReapPhase}
    (next : nextJob worker workers jobIds = some phase) :
    phase.toRead = workers := by
  cases jobIds with
  | nil => exact toRead_nextWorker next
  | cons => cases next; rfl

end ReapPhase

namespace ReapStep

variable {world next : World} {phase phase' : ReapPhase} {input : ReapInput}
  {job : JobId}

theorem toRead_origin (case : ReapStep world phase input next (some phase'))
    {worker : WorkerId} (member : worker ∈ phase'.toRead) :
    worker ∈ phase.toRead ∨
      ∃ row, world.workers.get? worker = some row ∧ row.status = .active := by
  generalize after : some phase' = result at case
  cases case with
  | staleFound read =>
      rw [ReapPhase.toRead_nextWorker after.symm] at member
      obtain ⟨row, found, holds⟩ :=
        Table.mem_keysWhere.mp (read.mem_iff.mp member)
      have active := (Bool.and_eq_true_iff.mp holds).1
      exact .inr ⟨row, found, of_decide_eq_true active⟩
  | noOrphans =>
      rw [ReapPhase.toRead_nextWorker after.symm] at member
      exact .inl (List.mem_cons_of_mem _ member)
  | markedDead => cases after; exact .inl member
  | orphansFound => cases after; exact .inl member
  | jobsFound =>
      rw [ReapPhase.toRead_nextJob after.symm] at member
      exact .inl (List.mem_cons_of_mem _ member)
  | requeued => cases after; exact .inl member
  | closed => cases after; exact .inl member
  | published =>
      rw [ReapPhase.toRead_nextJob after.symm] at member
      exact .inl member
  | skipped same =>
      rw [ReapPhase.toRead_nextJob after.symm] at member
      cases phase <;> cases same <;> exact .inl member
  | ended => cases after

/-- A cycle lists a job because of a running execution of a worker that it
reads. -/
theorem pending_read (case : ReapStep world phase input next (some phase'))
    (member : job ∈ phase'.pending) :
    job ∈ phase.pending ∨
      ∃ worker ∈ phase.toRead, world.hasRunningExecution worker job = true := by
  generalize after : some phase' = result at case
  cases case with
  | staleFound =>
      rw [(ReapPhase.processing_nextWorker after.symm).2] at member
      cases member
  | noOrphans =>
      rw [(ReapPhase.processing_nextWorker after.symm).2] at member
      cases member
  | markedDead => cases after; cases member
  | @orphansFound worker _ _ read =>
      cases after
      obtain ⟨id, listed, isJob⟩ :=
        List.mem_filterMap.mp (mem_newSet.mp member)
      obtain ⟨execution, found, same⟩ := Option.map_eq_some_iff.mp isJob
      obtain ⟨row, found', holds⟩ :=
        Table.mem_keysWhere.mp (read.mem_iff.mp listed)
      cases found.symm.trans found'
      obtain ⟨mine, running⟩ := Bool.and_eq_true_iff.mp holds
      refine .inr ⟨worker, List.mem_cons_self, ?_⟩
      rw [World.hasRunningExecution_iff]
      exact ⟨id, execution, found, same, of_decide_eq_true mine,
        of_decide_eq_true running⟩
  | @jobsFound worker _ _ _ read =>
      rw [(ReapPhase.pending_nextJob after.symm).1] at member
      rcases List.mem_append.mp (mem_newSet.mp member) with old | inFlight
      · exact .inl old
      · obtain ⟨row, _, holds⟩ :=
          Table.mem_keysWhere.mp (read.mem_iff.mp inFlight)
        exact .inr ⟨worker, List.mem_cons_self,
          (Bool.and_eq_true_iff.mp holds).2⟩
  | requeued => cases after; exact .inl (List.mem_cons_of_mem _ member)
  | closed => cases after; exact .inl member
  | published =>
      rw [(ReapPhase.pending_nextJob after.symm).1] at member
      exact .inl member
  | skipped same =>
      rw [(ReapPhase.pending_nextJob after.symm).1] at member
      left
      cases phase <;> cases same
      · exact List.mem_cons_of_mem _ member
      · exact member
      · exact member
  | ended => cases after

end ReapStep

section Steps

variable {env : Env} {start last state next : State} {action : Action}
  {trace : List (Transition State Action)} {job : JobId} {row : Job}

theorem reaping?_of_called {call : CallId} {owner : WorkerId}
    {phase : ReapPhase}
    (called : state.calls call = some (.reap ⟨owner, phase⟩)) :
    state.reaping? call = some phase := by
  simp [State.reaping?, called]

theorem letter_absent_of_buried {call : CallId} {exec : ExecCall}
    {attempt : Attempt} {failure : Failure}
    (taken : step env state (.exec call .ok) = some next)
    (called : state.calls call = some (.exec exec))
    (phase : exec.phase = .deadLetter attempt failure) :
    state.world.deadLetters.get? exec.jobId = none := by
  cases step_cases taken with
  | exec called' case =>
      cases called.symm.trans called'
      cases case with
      | deadLettered _ _ success =>
          obtain ⟨_, _, inserted, _⟩ := World.commitDeadLetter_spec success
          exact (Table.insert?_eq_some_iff.mp inserted).1
      | jobMissing isPhase => cases phase.symm.trans isPhase
      | found isPhase => cases phase.symm.trans isPhase
      | marked isPhase => cases phase.symm.trans isPhase
      | announced isPhase => cases phase.symm.trans isPhase
      | completed isPhase => cases phase.symm.trans isPhase
      | retried isPhase => cases phase.symm.trans isPhase
      | published isPhase => cases phase.symm.trans isPhase
  | started starts => cases starts

theorem ExecStep.not_buries {world next : World} {exec exec' : ExecCall}
    {input : ExecInput} (case : ExecStep world exec input next (some exec'))
    (owns : exec'.phase.owns = true) : exec.phase.buries = false := by
  cases case with
  | found phase => rw [phase]; rfl
  | marked phase => rw [phase]; rfl
  | announced phase => rw [phase]; rfl
  | created phase => rw [phase]; rfl
  | logged phase => rw [phase]; rfl
  | resolved phase => rw [phase]; rfl
  | rejected phase => rcases phase with phase | ⟨_, phase⟩ <;> rw [phase] <;> rfl
  | completed => cases owns
  | retried => cases owns
  | deadLettered => cases owns

theorem letter_present_of_retried {call : CallId} {queueId : QueueId}
    {project : Option ProjectId} {deadLetter : Bool}
    (taken : step env state (.api call .ok) = some next)
    (called : state.calls call =
      some (.retry ⟨job, .transaction queueId project deadLetter⟩))
    (deletes : deadLetter = true) :
    state.world.deadLetters.get? job ≠ none := by
  cases step_cases taken with
  | api called' _ handled =>
      cases called.symm.trans called'
      cases handle_cases handled with
      | retry success =>
          obtain ⟨phase', _, case⟩ := retryJob_cases success
          cases case with
          | committed _ present =>
              exact Option.isSome_iff_ne_none.mp (present deletes)
  | started starts => cases starts

theorem launch_running {cycle exec : CallId} {poll : PollCall}
    (taken : step env state (.launch cycle exec) = some next)
    (called : state.calls cycle = some (.poll poll)) :
    state.world.stopping poll.workerId = false := by
  cases step_cases taken with
  | launched called' _ running =>
      cases called.symm.trans called'
      exact running
  | started starts => cases starts

/-- A retry or a cancel goes on to its write only from a row that is not in
flight. -/
theorem cancelJob_updates {world next : World} {call call' : CancelCall}
    {input : ApiInput} {queueId : QueueId} {project : Option ProjectId}
    (taken : cancelJob world call input = some (next, call'))
    (updates : call'.phase = .update queueId project) :
    ∃ row, world.jobs.get? call'.jobId = some row ∧
      row.status.cancellable = true := by
  obtain ⟨job, phase⟩ := call
  obtain ⟨phase', rfl, case⟩ := cancelJob_cases taken
  cases case with
  | allowed found cancellable => exact ⟨_, found, cancellable⟩
  | _ => cases updates

namespace Abandoned

theorem row_kept (abandoned : Abandoned job state) (locks : LockInv state)
    (found : state.world.jobs.get? job = some row)
    (inFlight : row.status.inFlight = true)
    (taken : Chronos.step env state action = some next) :
    next.world.jobs.get? job = some row := by
  obtain ⟨row', found', same | write⟩ := step_job taken found
  · rw [found', same]
  · exfalso
    -- an executor that can still write the row has the job in hand
    have served : ∀ {call exec}, state.calls call = some (.exec exec) →
        exec.jobId = job → exec.phase.owns = true →
        (exec.phase.buries = true →
          state.world.deadLetters.get? job = none) → False := by
      intro call exec called same owns noDeadLetter
      exact abandoned.unserved ⟨call, _, called, same, owns, noDeadLetter⟩
    cases write with
    | @claim call poll queue rest txNow ids _ called phase member =>
        have isOpen : state.tx call = some ⟨queue, txNow, ids⟩ := by
          simp [State.tx, called, Call.tx, phase, PollPhase.tx]
        obtain ⟨row', found', queued, _⟩ :=
          (locks.sound _ _ isOpen).rows job member
        cases found.symm.trans found'
        rw [queued] at inFlight
        cases inFlight
    | markRunning called same phase =>
        exact served called same (by rw [phase]; rfl) fun buries => by
          rw [phase] at buries
          cases buries
    | complete called same phase =>
        exact served called same (by rw [phase]; rfl) fun buries => by
          rw [phase] at buries
          cases buries
    | retry called same phase =>
        exact served called same (by rw [phase]; rfl) fun buries => by
          rw [phase] at buries
          cases buries
    | deadLetter called same phase =>
        subst same
        exact served called rfl (by rw [phase]; rfl)
          fun _ => letter_absent_of_buried taken called phase
    | requeueOrphan called =>
        exact abandoned.unlisted (reaping?_of_called called)
          List.mem_cons_self
    | @resetForRetry call request _ _ _ _ called same phase =>
        obtain ⟨target, phase'⟩ := request
        cases same
        cases phase
        obtain ⟨deletes, absent⟩ := abandoned.unretried called
        exact letter_present_of_retried taken called deletes absent
    | @cancel call request _ _ _ called same phase =>
        obtain ⟨target, phase'⟩ := request
        cases same
        cases phase
        exact abandoned.uncancelled called

theorem letter_kept (abandoned : Abandoned job state)
    (taken : Chronos.step env state action = some next) :
    next.world.deadLetters.get? job = state.world.deadLetters.get? job := by
  rcases step_deadLetter taken job with same | write
  · exact same
  · generalize after : next.world.deadLetters.get? job = letter at write
    cases write with
    | inserted called same phase =>
        subst same
        have absent := letter_absent_of_buried taken called phase
        exact (abandoned.unserved
          ⟨_, _, called, rfl, by rw [phase]; rfl, fun _ => absent⟩).elim
    | @erased call request called same =>
        obtain ⟨target, phase⟩ := request
        subst same
        rw [← after]
        cases step_cases taken with
        | started starts => cases starts
        | api called' _ handled =>
            cases called.symm.trans called'
            cases handle_cases handled with
            | retry success =>
                obtain ⟨_, _, case⟩ := retryJob_cases success
                cases case with
                | committed _ present =>
                    obtain ⟨deletes, absent⟩ := abandoned.unretried called
                    exact (letter_present_of_retried taken called deletes
                      absent).elim
                | _ => rfl

private theorem running_before {worker : WorkerId}
    (present : state.world.workers.get? worker ≠ none)
    (taken : Chronos.step env state action = some next)
    (running : next.world.stopping worker = false) :
    state.world.stopping worker = false := by
  have other : ∀ {changed : WorkerId} {process : Process},
      (changed = worker → process ≠ .running) →
      (state.world.setProcess changed process).stopping worker = false →
      state.world.stopping worker = false := by
    intro changed process differs running
    by_cases same : changed = worker
    · have notRunning := differs same
      subst same
      simp [World.stopping, World.setProcess, notRunning] at running
    · simpa [World.stopping, World.setProcess, Ne.symm same] using running
  cases step_cases taken with
  | registered success =>
      obtain ⟨workers, inserted, rfl⟩ := World.registerWorker_eq_some success
      refine other (fun same => ?_) running
      subst same
      exact (present (Table.insert?_eq_some_iff.mp inserted).1).elim
  | stopped => exact other (fun _ => by decide) running
  | exited => exact other (fun _ => by decide) running
  | poll _ case =>
      have frame := congrArg World.process case.frame
      simpa [World.stopping, frame] using running
  | exec _ case =>
      have frame := congrArg World.process case.frame
      simpa [World.stopping, frame] using running
  | reap _ case =>
      have frame := congrArg World.process case.frame
      simpa [World.stopping, frame] using running
  | tick _ case =>
      have frame := congrArg World.process case.frame
      simpa [World.stopping, frame] using running
  | api _ case =>
      have frame := congrArg World.process case.frame
      simpa [World.stopping, frame] using running
  | _ => exact running

private theorem still_unserved (abandoned : Abandoned job state)
    (enrolled : state.Enrolled) (locks : LockInv state)
    (found : state.world.jobs.get? job = some row)
    (inFlight : row.status.inFlight = true)
    (taken : Chronos.step env state action = some next) :
    ¬next.carries job := by
  rintro ⟨call, value, present, carries⟩
  have back : ∀ {holder old}, state.calls holder = some old →
      old.carries next.world job → False := by
    intro holder old called carried
    refine abandoned.unserved ⟨holder, old, called, ?_⟩
    cases old with
    | poll cycle =>
        exact ⟨carried.1,
          running_before (enrolled.calls called rfl) taken carried.2⟩
    | exec running =>
        obtain ⟨same, owns, noDeadLetter⟩ := carried
        rw [letter_kept abandoned taken] at noDeadLetter
        exact ⟨same, owns, noDeadLetter⟩
    | _ => cases carried
  cases step_call taken present with
  | kept old => exact back old carries
  | started starts =>
      cases starts with
      | poll => cases carries.1
      | request =>
          rename_i request
          cases request <;> cases carries
      | _ => cases carries
  | handedOver called phase =>
      apply back called
      refine ⟨?_, carries.2⟩
      rw [phase]
      exact List.mem_cons_of_mem _ carries.1
  | @launched cycle _ _ _ _ called phase =>
      obtain rfl : _ = job := carries.1
      refine abandoned.unserved ⟨cycle, _, called, ?_, ?_⟩
      · rw [phase]
        exact List.mem_cons_self
      · exact launch_running taken called
  | poll called case =>
      cases case with
      | @committed queue rest txNow ids phase =>
          have isOpen : state.tx call = some ⟨queue, txNow, ids⟩ := by
            simp [State.tx, called, Call.tx, phase, PollPhase.tx]
          obtain ⟨row', found', queued, _⟩ :=
            (locks.sound _ _ isOpen).rows job carries.1
          cases found.symm.trans found'
          rw [queued] at inFlight
          cases inFlight
      | _ => cases carries.1
  | @exec exec exec' _ _ called case =>
      obtain ⟨same, owns, _⟩ := carries
      refine abandoned.unserved ⟨call, _, called,
        case.same_job.symm.trans same, case.owns, ?_⟩
      intro buries
      rw [case.not_buries owns] at buries
      cases buries
  | reap => cases carries
  | tick => cases carries
  | api _ case =>
      have isRequest := case.requests.2
      cases value with
      | poll => cases isRequest
      | exec => cases isRequest
      | _ => cases carries

private theorem still_unretried (abandoned : Abandoned job state)
    (found : state.world.jobs.get? job = some row)
    (inFlight : row.status.inFlight = true)
    (taken : Chronos.step env state action = some next) {call : CallId}
    {queueId : QueueId} {project : Option ProjectId} {deadLetter : Bool}
    (present : next.calls call =
      some (.retry ⟨job, .transaction queueId project deadLetter⟩)) :
    deadLetter = true ∧ next.world.deadLetters.get? job = none := by
  rw [letter_kept abandoned taken]
  generalize same : Call.retry ⟨job, .transaction queueId project deadLetter⟩ =
    value at present
  cases step_call taken present with
  | kept old =>
      subst same
      exact abandoned.unretried old
  | started starts =>
      cases starts with
      | request =>
          rename_i request
          cases request <;> cases same
      | _ => cases same
  | api _ _ _ handled =>
      cases handle_cases handled with
      | retry success =>
          cases same
          obtain ⟨row', found', retryable⟩ := retryJob_resets success rfl
          cases found.symm.trans found'
          rw [JobStatus.not_retryable_of_inFlight inFlight] at retryable
          cases retryable
      | _ => cases same
  | _ => cases same

private theorem still_uncancelled (abandoned : Abandoned job state)
    (found : state.world.jobs.get? job = some row)
    (inFlight : row.status.inFlight = true)
    (taken : Chronos.step env state action = some next) {call : CallId}
    {queueId : QueueId} {project : Option ProjectId} :
    next.calls call ≠ some (.cancel ⟨job, .update queueId project⟩) := by
  intro present
  generalize same : Call.cancel ⟨job, .update queueId project⟩ =
    value at present
  cases step_call taken present with
  | kept old =>
      subst same
      exact abandoned.uncancelled old
  | started starts =>
      cases starts with
      | request =>
          rename_i request
          cases request <;> cases same
      | _ => cases same
  | api _ _ _ handled =>
      cases handle_cases handled with
      | cancel success =>
          cases same
          obtain ⟨row', found', cancellable⟩ := cancelJob_updates success rfl
          cases found.symm.trans found'
          rw [JobStatus.not_cancellable_of_inFlight inFlight] at cancellable
          cases cancellable
      | _ => cases same
  | _ => cases same

private theorem running_execution_before (abandoned : Abandoned job state)
    (taken : Chronos.step env state action = some next) {worker : WorkerId}
    (running : next.world.hasRunningExecution worker job = true) :
    state.world.hasRunningExecution worker job = true := by
  obtain ⟨id, execution, found, sameJob, sameWorker, isRunning⟩ :=
    World.hasRunningExecution_iff.mp running
  rcases State.Enrolled.execution_origin taken found with
    ⟨before, old, job', worker', keeps⟩ |
    ⟨call, exec, snapshot, policy, called, phase, job', _⟩
  · rw [World.hasRunningExecution_iff]
    exact ⟨id, before, old, job'.trans sameJob, worker'.trans sameWorker,
      keeps isRunning⟩
  · exfalso
    refine abandoned.unserved ⟨call, _, called, job'.trans sameJob, ?_, ?_⟩
    · rw [phase]
      rfl
    · intro buries
      rw [phase] at buries
      cases buries

/-- No step reaches an abandoned job. -/
theorem step (abandoned : Abandoned job state) (enrolled : state.Enrolled)
    (locks : LockInv state) (found : state.world.jobs.get? job = some row)
    (inFlight : row.status.inFlight = true)
    (taken : Chronos.step env state action = some next) :
    Abandoned job next := by
  have notRunning : ∀ {worker},
      state.world.hasRunningExecution worker job = false →
      next.world.hasRunningExecution worker job = false := by
    intro worker before
    by_contra after
    rw [Bool.not_eq_false] at after
    rw [running_execution_before abandoned taken after] at before
    cases before
  constructor
  · exact still_unserved abandoned enrolled locks found inFlight taken
  · exact still_unretried abandoned found inFlight taken
  · exact still_uncancelled abandoned found inFlight taken
  · intro call phase reaping member
    rcases step_reaping taken reaping with
      old | ⟨_, _, rfl⟩ | ⟨before, _, _, _, old, case, _⟩
    · exact abandoned.unlisted old member
    · cases member
    · rcases case.pending_read member with listed | ⟨worker, reads, running⟩
      · exact abandoned.unlisted old listed
      · rw [abandoned.unread old reads] at running
        cases running
  · intro call phase worker reaping member
    rcases step_reaping taken reaping with
      old | ⟨_, _, rfl⟩ | ⟨before, _, _, _, old, case, _⟩
    · exact notRunning (abandoned.unread old member)
    · cases member
    · rcases case.toRead_origin member with reads | ⟨row, known, active⟩
      · exact notRunning (abandoned.unread old reads)
      · apply notRunning
        apply abandoned.unseen
        rw [State.workerStatus?, known, ← active]
        rfl
  · intro worker active
    cases known : state.workerStatus? worker with
    | some status =>
        apply notRunning
        apply abandoned.unseen
        by_contra notActive
        rw [known, Option.some.injEq] at notActive
        obtain ⟨_, after, inactive⟩ := step_workerStatus taken known notActive
        rw [active, Option.some.injEq] at after
        exact inactive after.symm
    | none =>
        apply notRunning
        by_contra running
        rw [Bool.not_eq_false] at running
        obtain ⟨id, execution, present, _, rfl, _⟩ :=
          World.hasRunningExecution_iff.mp running
        exact enrolled.executions present
          (Option.map_eq_none_iff.mp known)

/-- It keeps its row in every future. -/
theorem run (abandoned : Abandoned job state) (enrolled : state.Enrolled)
    (locks : LockInv state) (found : state.world.jobs.get? job = some row)
    (inFlight : row.status.inFlight = true)
    (future : Run (Chronos.step env) state trace last) :
    last.world.jobs.get? job = some row := by
  have kept : last.world.jobs.get? job = some row ∧ Abandoned job last ∧
      last.Enrolled ∧ LockInv last := by
    refine future.invariant
      (fun state => state.world.jobs.get? job = some row ∧
        Abandoned job state ∧ state.Enrolled ∧ LockInv state)
      (fun _ _ => trivial) ⟨found, abandoned, enrolled, locks⟩ ?_
    rintro transition _ taken ⟨found, abandoned, enrolled, locks⟩
    exact ⟨abandoned.row_kept locks found inFlight taken,
      abandoned.step enrolled locks found inFlight taken,
      enrolled.step taken, locks.step taken⟩
  exact kept.1

end Abandoned

end Steps

/-! ## Everything else can still change it -/

/-- In some future the row of the job is another. -/
def Changes (env : Env) (job : JobId) (row : Job) (state : State) : Prop :=
  ∃ trace last, Run (step env) state trace last ∧
    last.world.jobs.get? job ≠ some row

/-- The job is in flight, and its worker has a running execution of it. -/
structure Traced (job : JobId) (row : Job) (target : WorkerId)
    (state : State) : Prop where
  regular : Regular state
  found : state.world.jobs.get? job = some row
  inFlight : row.status.inFlight = true
  running : state.world.hasRunningExecution target job = true

section Changes

variable {env : Env} {state next : State} {action : Action} {job : JobId}
  {row : Job} {target owner worker : WorkerId} {workers : List WorkerId}
  {jobIds : List JobId} {call : CallId}

theorem Changes.step (taken : Chronos.step env state action = some next)
    (changes : Changes env job row next) : Changes env job row state := by
  obtain ⟨trace, last, run, changed⟩ := changes
  exact ⟨_, last, run.cons taken, changed⟩

theorem Changes.of_write (update : Job → Job)
    (taken : Chronos.step env state action = some next)
    (found : state.world.jobs.get? job = some row)
    (inFlight : row.status.inFlight = true)
    (jobs : next.world.jobs = (state.world.updateJob job update).jobs)
    (ended : (update row).status.inFlight = false) :
    Changes env job row state := by
  refine ⟨_, next, Run.single taken, ?_⟩
  rw [jobs, World.get?_updateJob, found, Option.map_some, if_pos rfl]
  intro same
  rw [Option.some.inj same, inFlight] at ended
  cases ended

theorem Changes.of_carries (regular : Regular state)
    (found : state.world.jobs.get? job = some row)
    (inFlight : row.status.inFlight = true) (carries : state.carries job) :
    Changes env job row state := by
  obtain ⟨last, ⟨trace, run, _⟩, _, _, row', found', ended⟩ :=
    serve env regular found inFlight carries
  refine ⟨trace, last, run, ?_⟩
  rw [found']
  rintro same
  rw [Option.some.inj same, inFlight] at ended
  cases ended

theorem Changes.of_retry (regular : Regular state)
    (found : state.world.jobs.get? job = some row)
    (inFlight : row.status.inFlight = true) {queueId : QueueId}
    {project : Option ProjectId} {deadLetter : Bool}
    (called : state.calls call =
      some (.retry ⟨job, .transaction queueId project deadLetter⟩))
    (present : deadLetter = true →
      (state.world.deadLetters.get? job).isSome = true) :
    Changes env job row state := by
  have writable := regular.writable found inFlight
  have result : retryJob state.world
      ⟨job, .transaction queueId project deadLetter⟩ .ok =
        some (state.world.commitManualRetry job deadLetter,
          ⟨job, .publish queueId project⟩) := by
    simp only [retryJob]
    rw [if_pos ⟨writable, present⟩]
  have taken : Chronos.step env state (.api call .ok) =
      some ⟨state.world.commitManualRetry job deadLetter,
        Function.update state.calls call
          (some (.retry ⟨job, .publish queueId project⟩))⟩ := by
    simp [Chronos.step, called, handle, result]
  exact .of_write (Job.resetForRetry state.world.now) taken found
    inFlight rfl rfl

theorem Changes.of_cancel (regular : Regular state)
    (found : state.world.jobs.get? job = some row)
    (inFlight : row.status.inFlight = true) {queueId : QueueId}
    {project : Option ProjectId}
    (called : state.calls call =
      some (.cancel ⟨job, .update queueId project⟩)) :
    Changes env job row state := by
  have writable := regular.writable found inFlight
  have taken : Chronos.step env state (.api call .ok) =
      some ⟨state.world.updateJob job (Job.cancel state.world.now),
        Function.update state.calls call
          (some (.cancel ⟨job, .publish queueId project⟩))⟩ := by
    simp [Chronos.step, called, handle, cancelJob, writable]
  exact .of_write (Job.cancel state.world.now) taken found inFlight
    rfl rfl

/-- The cycle is at this phase, or it is over. -/
def State.reapsAt (state : State) (call : CallId) (owner : WorkerId)
    (phase : Option ReapPhase) : Prop :=
  state.calls call = phase.map fun phase => .reap ⟨owner, phase⟩

theorem step_of_reap (env : Env) {phase : ReapPhase} (input : ReapInput)
    (phase' : Option ReapPhase) {world : World}
    (reaps : state.reapsAt call owner (some phase))
    (result : reap state.world ⟨owner, phase⟩ input =
      some (world, phase'.map fun phase => ⟨owner, phase⟩)) :
    ∃ next, Chronos.step env state (.reap call input) = some next ∧
      next.world = world ∧ next.reapsAt call owner phase' := by
  have called : state.calls call = some (.reap ⟨owner, phase⟩) := reaps
  refine ⟨⟨world, Function.update state.calls call
    (phase'.map fun phase => .reap ⟨owner, phase⟩)⟩, ?_, rfl, ?_⟩
  · simp [Chronos.step, called, State.resume, result, Option.map_map,
      Function.comp_def]
  · simp [State.reapsAt]

theorem reap_noOrphans {world : World} (owner : WorkerId) {worker : WorkerId}
    (workers : List WorkerId)
    (orphans : newSet ((world.runningExecutions worker).filterMap
      world.executionJob) = []) :
    reap world ⟨owner, .findExecutions worker workers⟩
        (.rows (world.runningExecutions worker)) =
      some (world,
        (ReapPhase.nextWorker workers).map fun phase => ⟨owner, phase⟩) := by
  unfold reap
  dsimp only
  rw [if_pos (List.Perm.refl _), orphans]

theorem reap_orphans {world : World} (owner : WorkerId) {worker : WorkerId}
    (workers : List WorkerId) {job : JobId} {jobIds : List JobId}
    (orphans : newSet ((world.runningExecutions worker).filterMap
      world.executionJob) = job :: jobIds) :
    reap world ⟨owner, .findExecutions worker workers⟩
        (.rows (world.runningExecutions worker)) =
      some (world,
        (some (ReapPhase.findJobs worker workers (job :: jobIds))).map
          fun phase => ⟨owner, phase⟩) := by
  unfold reap
  dsimp only
  rw [if_pos (List.Perm.refl _), orphans]

theorem reap_findJobs (world : World) (owner worker : WorkerId)
    (workers : List WorkerId) (jobIds : List JobId) :
    reap world ⟨owner, .findJobs worker workers jobIds⟩
        (.rows (world.inFlightJobsOf worker)) =
      some (world,
        (ReapPhase.nextJob worker workers
          (newSet (jobIds ++ world.inFlightJobsOf worker))).map
            fun phase => ⟨owner, phase⟩) :=
  if_pos (List.Perm.refl _)

/-- A cycle that has the job on its list can come to requeue it, whatever
becomes of the jobs before. -/
theorem Changes.of_listed (regular : Regular state)
    (found : state.world.jobs.get? job = some row)
    (inFlight : row.status.inFlight = true)
    (reaps : state.reapsAt call owner
      (ReapPhase.nextJob worker workers jobIds))
    (listed : job ∈ jobIds) : Changes env job row state := by
  induction jobIds generalizing state with
  | nil => cases listed
  | cons other jobIds ih =>
      by_cases same : other = job
      · subst same
        have writable := regular.writable found inFlight
        have result : reap state.world
            ⟨owner, .requeue worker workers other jobIds⟩ .ok =
              some (state.world.updateJob other
                (Job.requeueOrphan state.world.now),
                some ⟨owner,
                  .closeExecutions worker workers other jobIds row.queueId⟩) := by
          unfold reap
          dsimp only
          rw [found]
          exact if_pos writable
        obtain ⟨next, taken, world, _⟩ := step_of_reap env _ (some _)
          reaps result
        exact .of_write _ taken found inFlight (by rw [world]) rfl
      · have later : job ∈ jobIds :=
          (List.mem_cons.mp listed).resolve_left (Ne.symm same)
        obtain ⟨next, taken, world, reaps⟩ :=
          step_of_reap env .fail _ reaps rfl
        apply Changes.step taken
        exact ih (regular.step taken) (by rw [world]; exact found) reaps later

theorem Changes.of_pending (regular : Regular state)
    (found : state.world.jobs.get? job = some row)
    (inFlight : row.status.inFlight = true) {phase : ReapPhase}
    (reaps : state.reapsAt call owner (some phase))
    (pending : job ∈ phase.pending) : Changes env job row state := by
  cases phase with
  | findStale => cases pending
  | markDead => cases pending
  | findExecutions => cases pending
  | findJobs worker workers jobIds =>
      obtain ⟨next, taken, world, reaps⟩ :=
        step_of_reap env _ _ reaps
          (reap_findJobs _ owner worker workers jobIds)
      apply Changes.step taken
      refine .of_listed (regular.step taken) (by rw [world]; exact found)
        inFlight reaps ?_
      exact mem_newSet.mpr (List.mem_append_left _ pending)
  | requeue worker workers other jobIds =>
      have listed : state.reapsAt call owner
          (ReapPhase.nextJob worker workers (other :: jobIds)) := reaps
      exact .of_listed regular found inFlight listed pending
  | closeExecutions worker workers other jobIds queueId =>
      obtain ⟨next, taken, world, reaps⟩ :=
        step_of_reap env .fail _ reaps rfl
      apply Changes.step taken
      exact .of_listed (regular.step taken) (by rw [world]; exact found)
        inFlight reaps pending
  | publish worker workers other jobIds queueId =>
      obtain ⟨next, taken, world, reaps⟩ :=
        step_of_reap env .fail _ reaps rfl
      apply Changes.step taken
      exact .of_listed (regular.step taken) (by rw [world]; exact found)
        inFlight reaps pending

theorem Traced.of_same (traced : Traced job row target state)
    (taken : Chronos.step env state action = some next)
    (jobs : next.world.jobs = state.world.jobs)
    (executions : next.world.executions = state.world.executions) :
    Traced job row target next where
  regular := traced.regular.step taken
  found := by rw [jobs]; exact traced.found
  inFlight := traced.inFlight
  running := by
    rw [World.hasRunningExecution, executions]
    exact traced.running

theorem Traced.of_read (traced : Traced job row target state)
    (taken : Chronos.step env state action = some next)
    (world : next.world = state.world) : Traced job row target next :=
  traced.of_same taken (by rw [world]) (by rw [world])

theorem Changes.of_skipped
    (later : ∀ state, Traced job row target state →
      state.reapsAt call owner (ReapPhase.nextWorker workers) →
      Changes env job row state)
    (traced : Traced job row target state)
    (reaps : state.reapsAt call owner
      (ReapPhase.nextJob worker workers jobIds)) :
    Changes env job row state := by
  induction jobIds generalizing state with
  | nil => exact later state traced reaps
  | cons other jobIds ih =>
      obtain ⟨next, taken, world, reaps⟩ :=
        step_of_reap env .fail _ reaps rfl
      apply Changes.step taken
      exact ih (traced.of_read taken world) reaps

theorem Changes.of_findJobs
    (later : target ∈ workers → ∀ state, Traced job row target state →
      state.reapsAt call owner (ReapPhase.nextWorker workers) →
      Changes env job row state)
    (traced : Traced job row target state)
    (reaps : state.reapsAt call owner (some (.findJobs worker workers jobIds)))
    (reads : target ∈ worker :: workers) : Changes env job row state := by
  obtain ⟨next, taken, world, reaps⟩ :=
    step_of_reap env _ _ reaps
          (reap_findJobs _ owner worker workers jobIds)
  have after := traced.of_read taken world
  apply Changes.step taken
  rcases List.mem_cons.mp reads with rfl | inRest
  · apply Changes.of_listed after.regular after.found after.inFlight reaps
    apply mem_newSet.mpr
    apply List.mem_append_right
    apply Table.mem_keysWhere.mpr
    exact ⟨row, traced.found,
      Bool.and_eq_true_iff.mpr ⟨traced.inFlight, traced.running⟩⟩
  · exact Changes.of_skipped (later inRest) after reaps

theorem Changes.of_findExecutions
    (later : target ∈ workers → ∀ state, Traced job row target state →
      state.reapsAt call owner (ReapPhase.nextWorker workers) →
      Changes env job row state)
    (traced : Traced job row target state)
    (reaps : state.reapsAt call owner (some (.findExecutions worker workers)))
    (reads : target ∈ worker :: workers) : Changes env job row state := by
  cases orphans : newSet ((state.world.runningExecutions worker).filterMap
      state.world.executionJob) with
  | nil =>
      obtain ⟨next, taken, world, reaps⟩ :=
        step_of_reap env _ _ reaps (reap_noOrphans owner workers orphans)
      apply Changes.step taken
      refine later ?_ next (traced.of_read taken world) reaps
      rcases List.mem_cons.mp reads with rfl | inRest
      · have listed := Recovering.mem_orphans (.refl _) traced.running
        rw [orphans] at listed
        cases listed
      · exact inRest
  | cons other jobIds =>
      obtain ⟨next, taken, world, reaps⟩ :=
        step_of_reap env _ _ reaps (reap_orphans owner workers orphans)
      apply Changes.step taken
      exact .of_findJobs later (traced.of_read taken world) reaps reads

theorem Changes.of_nextWorker (traced : Traced job row target state)
    (reaps : state.reapsAt call owner (ReapPhase.nextWorker workers))
    (reads : target ∈ workers) : Changes env job row state := by
  induction workers generalizing state with
  | nil => cases reads
  | cons worker workers ih =>
      obtain ⟨next, taken, world, reaps⟩ :=
        step_of_reap env .ok
          (some (.findExecutions worker workers)) reaps rfl
      have after := traced.of_same taken (by rw [world]; rfl)
        (by rw [world]; rfl)
      apply Changes.step taken
      apply Changes.of_findExecutions _ after reaps reads
      intro inRest state traced reaps
      exact ih traced reaps inRest

theorem Changes.of_toRead (traced : Traced job row target state)
    {phase : ReapPhase} (reaps : state.reapsAt call owner (some phase))
    (reads : target ∈ phase.toRead) : Changes env job row state := by
  have later : ∀ {workers}, target ∈ workers →
      ∀ state, Traced job row target state →
        state.reapsAt call owner (ReapPhase.nextWorker workers) →
        Changes env job row state :=
    fun inRest _ traced reaps => .of_nextWorker traced reaps inRest
  cases phase with
  | findStale => cases reads
  | markDead worker workers =>
      have listed : state.reapsAt call owner
          (ReapPhase.nextWorker (worker :: workers)) := reaps
      exact .of_nextWorker traced listed reads
  | findExecutions => exact .of_findExecutions later traced reaps reads
  | findJobs => exact .of_findJobs later traced reaps reads
  | requeue worker workers other jobIds =>
      have listed : state.reapsAt call owner
          (ReapPhase.nextJob worker workers (other :: jobIds)) := reaps
      exact .of_skipped (later reads) traced listed
  | closeExecutions worker workers other jobIds queueId =>
      obtain ⟨next, taken, world, reaps⟩ :=
        step_of_reap env .fail _ reaps rfl
      apply Changes.step taken
      exact .of_skipped (later reads) (traced.of_read taken world) reaps
  | publish worker workers other jobIds queueId =>
      obtain ⟨next, taken, world, reaps⟩ :=
        step_of_reap env .fail _ reaps rfl
      apply Changes.step taken
      exact .of_skipped (later reads) (traced.of_read taken world) reaps

/-- As long as the worker is `active`, some later cycle can find it stale. -/
theorem Changes.of_active (traced : Traced job row target state)
    (active : state.workerStatus? target = some .active) :
    Changes env job row state := by
  obtain ⟨record, known, isActive⟩ := Option.map_eq_some_iff.mp active
  obtain ⟨now, later, late⟩ : ∃ now, state.world.now ≤ now ∧
      record.lastHeartbeatAt < now - env.heartbeatTtlSeconds * 1000 := by
    refine ⟨max state.world.now
      (record.lastHeartbeatAt + env.heartbeatTtlSeconds * 1000 + 1),
      le_max_left _ _, ?_⟩
    apply Int.lt_sub_right_of_add_lt
    exact Int.lt_of_lt_of_le (Int.lt_succ _) (le_max_right _ _)
  generalize timeout : env.heartbeatTtlSeconds * 1000 = timeoutMs at late
  -- the heartbeats stop, a new worker registers, and begins a cycle
  obtain ⟨reaper, unknown⟩ := Table.exists_fresh state.world.workers
  obtain ⟨registered, inserted⟩ :=
    Table.exists_insert? (⟨.active, now, now⟩ : Worker) unknown
  let waited : State :=
    { state with world := { state.world with now := now } }
  let joined : State :=
    { state with
      world := ({ state.world with now := now, workers := registered } :
        World).setProcess reaper .running }
  have advance : Chronos.step env state (.advance now) = some waited :=
    if_pos later
  have register : Chronos.step env waited (.register reaper) = some joined := by
    simp [Chronos.step, World.registerWorker, waited, joined, inserted]
  have atJoined := (traced.of_same advance rfl rfl).of_same register rfl rfl
  obtain ⟨call, free⟩ := atJoined.regular.fresh
  have alive : joined.world.alive reaper = true := by
    simp [World.alive, World.setProcess, joined]
  have begin : Chronos.step env joined (.startReap call reaper) =
      some (joined.set call
        (some (.reap ⟨reaper, .findStale (now - timeoutMs)⟩))) := by
    simp only [Chronos.step]
    rw [if_pos alive, State.start, if_pos (by simp [free]), timeout]
    rfl
  have atBegun := atJoined.of_same begin rfl rfl
  have reaps : (joined.set call
      (some (.reap ⟨reaper, .findStale (now - timeoutMs)⟩))).reapsAt call reaper
        (some (.findStale (now - timeoutMs))) := by
    simp [State.reapsAt, State.set]
  have found : target ∈ joined.world.staleWorkers (now - timeoutMs) := by
    apply Table.mem_keysWhere.mpr
    refine ⟨record, ?_, ?_⟩
    · change registered.get? target = some record
      rw [Table.get?_insert? inserted, if_neg, known]
      rintro rfl
      rw [known] at unknown
      cases unknown
    · simp [isActive, late]
  obtain ⟨next, taken, world, reaps⟩ := step_of_reap env
    (.rows (joined.world.staleWorkers (now - timeoutMs)))
    (ReapPhase.nextWorker (joined.world.staleWorkers (now - timeoutMs))) reaps
    (if_pos (List.Perm.refl _))
  refine .step advance (.step register (.step begin (.step taken ?_)))
  exact .of_nextWorker (atBegun.of_read taken world) reaps found

end Changes

/-! ## The jobs that are stuck -/

section Stuck

variable {env : Env} {start state : State}
  {trace : List (Transition State Action)} {job : JobId} {row : Job}

/-- What does not change in any future is out of everybody's reach. -/
theorem Abandoned.of_unchanged (regular : Regular state)
    (found : state.world.jobs.get? job = some row)
    (inFlight : row.status.inFlight = true)
    (unchanged : ¬Changes env job row state) : Abandoned job state := by
  have reapsAt : ∀ {call phase}, state.reaping? call = some phase →
      ∃ owner, state.reapsAt call owner (some phase) := by
    intro call phase reaping
    unfold State.reaping? at reaping
    split at reaping <;> cases reaping
    rename_i owner called
    exact ⟨owner, called⟩
  have traced : ∀ {worker},
      ¬state.world.hasRunningExecution worker job = false →
      Traced job row worker state := by
    intro worker running
    exact ⟨regular, found, inFlight, Bool.not_eq_false _ ▸ running⟩
  constructor
  · intro carries
    exact unchanged (.of_carries regular found inFlight carries)
  · intro call queueId project deadLetter called
    have stays := fun present =>
      unchanged (.of_retry regular found inFlight called present)
    cases deadLetter with
    | false => exact (stays fun same => by cases same).elim
    | true =>
        refine ⟨rfl, ?_⟩
        by_contra present
        exact stays fun _ => Option.isSome_iff_ne_none.mpr present
  · intro call queueId project called
    exact unchanged (.of_cancel regular found inFlight called)
  · intro call phase reaping pending
    obtain ⟨owner, reaps⟩ := reapsAt reaping
    exact unchanged (.of_pending regular found inFlight reaps pending)
  · intro call phase worker reaping reads
    obtain ⟨owner, reaps⟩ := reapsAt reaping
    by_contra running
    exact unchanged (.of_toRead (traced running) reaps reads)
  · intro worker active
    by_contra running
    exact unchanged (.of_active (traced running) active)

/-- The row of a job in flight stays as it is in every future if and only if
no call and no reap cycle to come can reach the job. -/
theorem stuck_iff_abandoned (run : Run (step env) start trace state)
    (initial : Initial start) (enrolled : start.Enrolled)
    (found : state.world.jobs.get? job = some row)
    (inFlight : row.status.inFlight = true) :
    (∀ future last, Run (step env) state future last →
      last.world.jobs.get? job = some row) ↔ Abandoned job state := by
  have regular := Regular.run run initial
  constructor
  · intro stays
    have unchanged : ¬Changes env job row state := by
      rintro ⟨future, last, runs, changed⟩
      exact changed (stays future last runs)
    exact .of_unchanged regular found inFlight unchanged
  · intro abandoned future last runs
    exact abandoned.run (enrolled.run run) regular.locks found inFlight runs

/-- Without calls and executions nothing is left of a job but its row. -/
theorem Abandoned.of_idle (idle : ∀ call, state.calls call = none)
    (unexecuted : ∀ entry, entry ∉ state.world.executions.rows) :
    Abandoned job state := by
  have notReaping : ∀ call, state.reaping? call = none := by
    intro call
    rw [State.reaping?, idle]
  have notRunning : ∀ worker,
      state.world.hasRunningExecution worker job = false := by
    intro worker
    apply Bool.eq_false_iff.mpr
    intro running
    obtain ⟨id, execution, found, _⟩ :=
      World.hasRunningExecution_iff.mp running
    exact unexecuted _ (Table.mem_rows_iff.mpr found)
  constructor
  · rintro ⟨call, _, called, _⟩
    rw [idle] at called
    cases called
  · intro call _ _ _ called
    rw [idle] at called
    cases called
  · intro call _ _ called
    rw [idle] at called
    cases called
  · intro call phase reaping
    rw [notReaping] at reaping
    cases reaping
  · intro call phase worker reaping
    rw [notReaping] at reaping
    cases reaping
  · intro worker _
    exact notRunning worker

theorem World.sample_enrolled (limit : Nat) (jobs : Table JobId Job) :
    (World.sample limit jobs).idle.Enrolled := by
  constructor
  · intro worker absent
    by_contra process
    by_cases known : worker = 1 ∨ worker = 2
    · rcases known with rfl | rfl <;> cases absent
    · exact process (if_neg known)
  · intro id row found
    cases found
  · intro call value worker found
    cases found

/-- A worker that ends between its claim and the creation of the execution
loses the job for good: a reap cycle has looked, and nobody will again. -/
theorem stuck_after_crash :
    ∃ trace last row,
      Run (step .sample)
        (World.sample 1 ⟨[(7, .sample .queued)], by simp⟩).idle trace last ∧
      last.workerStatus? 1 = some .dead ∧
      last.world.jobs.get? 7 = some row ∧ row.status = .claimed ∧
      ∀ future final, Run (step .sample) last future final →
        final.world.jobs.get? 7 = some row := by
  obtain ⟨trace, last, run, bounds, calls, executions, dead, status⟩ :=
    exists_run_of_check (step .sample)
      (World.sample 1 ⟨[(7, .sample .queued)], by simp⟩).idle
      (claimActions 1 1 [7] ++
        crashActions 1 20000 3 2 ++
        ([.reap 3 (.rows [1]), .reap 3 .ok, .reap 3 (.rows [])] :
          List Action))
      (fun trace last =>
        ChecksCalls 4 (fun _ _ => True) trace ∧
        ((List.range 4).all fun call => (last.calls call).isNone) = true ∧
        last.world.executions.rows.isEmpty = true ∧
        last.workerStatus? 1 = some .dead ∧
        last.status? 7 = some .claimed)
      (by decide)
  obtain ⟨row, found, claimed⟩ := State.status?_eq_some_iff.mp status
  have initial : Initial
      (World.sample 1 ⟨[(7, .sample .queued)], by simp⟩).idle :=
    World.idle_initial fun _ => rfl
  have idle : ∀ call, last.calls call = none := by
    intro call
    rcases Nat.lt_or_ge call 4 with small | large
    · rw [List.all_eq_true] at calls
      exact Option.isNone_iff_eq_none.mp
        (calls call (List.mem_range.mpr small))
    · exact calls_none_of_run run initial
        (fun transition member => (bounds transition member).1) large
  refine ⟨trace, last, row, run, dead, found, claimed, ?_⟩
  apply (stuck_iff_abandoned run initial (World.sample_enrolled _ _) found
    (by rw [claimed]; rfl)).mpr
  apply Abandoned.of_idle idle
  intro entry member
  rw [List.isEmpty_iff.mp executions] at member
  cases member

end Stuck

end Chronos
