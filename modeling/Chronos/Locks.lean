import Chronos.Writers

/-!
# Row locks and open claim transactions

The invariant behind `FOR UPDATE SKIP LOCKED`: a row is locked exactly while
some claim transaction that selected it is open, each such transaction has
its own rows, and the committed version of a locked row is still the one that
the select matched.  It holds in every run of the whole system.
-/

namespace Chronos

/-- An open claim transaction and the rows it has locked. -/
structure ClaimTx where
  queue : QueueRef
  txNow : Time
  ids : List JobId

namespace PollPhase

def tx : PollPhase → Option ClaimTx
  | .claiming queue _ (.select _ txNow) => some ⟨queue, txNow, []⟩
  | .claiming queue _ (.update txNow ids) => some ⟨queue, txNow, ids⟩
  | .claiming queue _ (.commit txNow ids) => some ⟨queue, txNow, ids⟩
  | _ => none

end PollPhase

namespace Call

def tx : Call → Option ClaimTx
  | .poll cycle => cycle.phase.tx
  | _ => none

end Call

namespace State

def tx (state : State) (call : CallId) : Option ClaimTx :=
  (state.calls call).bind Call.tx

end State

namespace ClaimTx

/-- The committed row of this job satisfies the `WHERE` clause of the
transaction's select. -/
def Matches (tx : ClaimTx) (world : World) (job : JobId) : Prop :=
  ∃ row, world.jobs.get? job = some row ∧ row.status = .queued ∧
    row.queueId = tx.queue.id ∧ row.runAt ≤ tx.txNow

structure Sound (tx : ClaimTx) (world : World) : Prop where
  nodup : tx.ids.Nodup
  txNow : tx.txNow ≤ world.now
  rows : ∀ job ∈ tx.ids, tx.Matches world job

end ClaimTx

structure LockInv (state : State) : Prop where
  locks_iff : ∀ job call, state.world.locks job = some call ↔
    ∃ tx, state.tx call = some tx ∧ job ∈ tx.ids
  sound : ∀ call tx, state.tx call = some tx → tx.Sound state.world

namespace LockInv

theorem initial {state : State} (initial : Initial state) : LockInv state := by
  have noTx : ∀ call, state.tx call = none := by
    intro call
    simp [State.tx, initial.calls call]
  constructor
  · intro job call
    simp [initial.locks job, noTx call]
  · intro call tx open'
    simp [noTx call] at open'

variable {state next : State}

/-- Two open transactions never hold a row in common. -/
theorem disjoint (inv : LockInv state) {first second : CallId}
    {firstTx secondTx : ClaimTx} {job : JobId}
    (firstOpen : state.tx first = some firstTx)
    (secondOpen : state.tx second = some secondTx)
    (inFirst : job ∈ firstTx.ids) (inSecond : job ∈ secondTx.ids) :
    first = second := by
  have firstLock := (inv.locks_iff job first).mpr ⟨firstTx, firstOpen, inFirst⟩
  have secondLock :=
    (inv.locks_iff job second).mpr ⟨secondTx, secondOpen, inSecond⟩
  exact Option.some.inj (firstLock.symm.trans secondLock)

/-- The rule for a step that keeps all transactions, the locks and the locked
rows. -/
private theorem frame (inv : LockInv state)
    (txSame : ∀ call, next.tx call = state.tx call)
    (locksSame : next.world.locks = state.world.locks)
    (later : state.world.now ≤ next.world.now)
    (rowsSame : ∀ job call row, state.world.locks job = some call →
      state.world.jobs.get? job = some row →
      next.world.jobs.get? job = some row) :
    LockInv next := by
  constructor
  · intro job call
    rw [locksSame, txSame]
    exact inv.locks_iff job call
  · intro call tx isOpen
    rw [txSame] at isOpen
    have sound := inv.sound call tx isOpen
    refine ⟨sound.nodup, le_trans sound.txNow later, ?_⟩
    intro job member
    obtain ⟨row, found, matched⟩ := sound.rows job member
    have locked := (inv.locks_iff job call).mpr ⟨tx, isOpen, member⟩
    exact ⟨row, rowsSame job call row locked found, matched⟩

/-- The rule for a step that changes the transaction of one call. -/
private theorem change (inv : LockInv state) (call : CallId)
    (others : ∀ other, other ≠ call → next.tx other = state.tx other)
    (locksOthers : ∀ job other, other ≠ call →
      (next.world.locks job = some other ↔ state.world.locks job = some other))
    (locksMine : ∀ job, next.world.locks job = some call ↔
      ∃ tx, next.tx call = some tx ∧ job ∈ tx.ids)
    (later : state.world.now ≤ next.world.now)
    (rowsOthers : ∀ job other row, other ≠ call →
      state.world.locks job = some other →
      state.world.jobs.get? job = some row →
      next.world.jobs.get? job = some row)
    (mine : ∀ tx, next.tx call = some tx → tx.Sound next.world) :
    LockInv next := by
  constructor
  · intro job other
    by_cases same : other = call
    · subst other
      exact locksMine job
    · rw [locksOthers job other same, others other same]
      exact inv.locks_iff job other
  · intro other tx isOpen
    by_cases same : other = call
    · subst other
      exact mine tx isOpen
    · rw [others other same] at isOpen
      have sound := inv.sound other tx isOpen
      refine ⟨sound.nodup, le_trans sound.txNow later, ?_⟩
      intro job member
      obtain ⟨row, found, matched⟩ := sound.rows job member
      have locked := (inv.locks_iff job other).mpr ⟨tx, isOpen, member⟩
      exact ⟨row, rowsOthers job other row same locked found, matched⟩

end LockInv

/-! ## Transactions after a step -/

namespace State

theorem tx_update (world : World) (state : State) (call other : CallId)
    (value : Option Call) :
    (State.mk world (Function.update state.calls call value)).tx other =
      if other = call then value.bind Call.tx else state.tx other := by
  by_cases same : other = call
  · subst other
    simp [State.tx]
  · simp [State.tx, same]

theorem tx_update_of_none {state : State} {call : CallId}
    {value : Option Call} (world : World) (before : state.tx call = none)
    (after : value.bind Call.tx = none) (other : CallId) :
    (State.mk world (Function.update state.calls call value)).tx other =
      state.tx other := by
  rw [tx_update]
  split
  · rename_i same
    rw [after, same, before]
  · rfl

end State

/-- Only a claim's commit writes rows that are locked, and only its own. -/
theorem JobWrite.unlocked_or_claim {state : State} {job : JobId}
    {action : Action} {row row' : Job}
    (write : JobWrite state job action row row') :
    state.world.locks job = none ∨
      ∃ call tx, action = .poll call (.claim .ok) ∧
        state.tx call = some tx ∧ job ∈ tx.ids := by
  cases write with
  | @claim call poll queue rest txNow ids _ called phase member =>
      refine .inr ⟨call, ⟨queue, txNow, ids⟩, rfl, ?_, member⟩
      simp [State.tx, called, Call.tx, phase, PollPhase.tx]
  | markRunning _ _ _ unlocked => exact .inl unlocked
  | complete _ _ _ unlocked => exact .inl unlocked
  | retry _ _ _ unlocked => exact .inl unlocked
  | deadLetter _ _ _ unlocked => exact .inl unlocked
  | requeueOrphan _ unlocked => exact .inl unlocked
  | resetForRetry _ _ _ unlocked => exact .inl unlocked
  | cancel _ _ _ unlocked => exact .inl unlocked

/-! ## The invariant is preserved -/

namespace LockInv

variable {env : Env} {state next : State} {action : Action}

/-- A locked row survives every step that is not a step of the transaction
holding the lock. -/
private theorem rows_same (inv : LockInv state)
    (taken : step env state action = some next) {job : JobId} {call : CallId}
    {row : Job} (locked : state.world.locks job = some call)
    (notMine : ∀ input, action ≠ .poll call input)
    (found : state.world.jobs.get? job = some row) :
    next.world.jobs.get? job = some row := by
  obtain ⟨row', found', same | write⟩ := step_job taken found
  · rw [found', same]
  · rcases write.unlocked_or_claim with
      unlocked | ⟨other, tx, isClaim, isOpen, member⟩
    · rw [unlocked] at locked
      cases locked
    · have theirs := (inv.locks_iff job other).mpr ⟨tx, isOpen, member⟩
      have same : call = other := Option.some.inj (locked.symm.trans theirs)
      exact (notMine _ (same ▸ isClaim)).elim

private theorem quiet (inv : LockInv state)
    (taken : step env state action = some next) {call : CallId}
    {value : Option Call} (notPoll : ∀ other input, action ≠ .poll other input)
    (calls : next.calls = Function.update state.calls call value)
    (before : state.tx call = none) (after : value.bind Call.tx = none)
    (locks : next.world.locks = state.world.locks) : LockInv next := by
  have txSame : ∀ other, next.tx other = state.tx other := by
    intro other
    have updated := State.tx_update_of_none next.world before after other
    rw [← calls] at updated
    exact updated
  refine inv.frame txSame locks (step_now taken) ?_
  intro job holder row locked found
  exact inv.rows_same taken locked (notPoll holder) found

private theorem moved (inv : LockInv state) {call : CallId}
    {value : Option Call}
    (sameIds : ∀ job, (∃ tx, value.bind Call.tx = some tx ∧ job ∈ tx.ids) ↔
      ∃ tx, state.tx call = some tx ∧ job ∈ tx.ids)
    (sound : ∀ tx, value.bind Call.tx = some tx → tx.Sound state.world) :
    LockInv ⟨state.world, Function.update state.calls call value⟩ := by
  refine inv.change call ?_ ?_ ?_ le_rfl ?_ ?_
  · intro other different
    rw [State.tx_update, if_neg different]
  · intro job other _
    exact Iff.rfl
  · intro job
    rw [State.tx_update, if_pos rfl, sameIds]
    exact inv.locks_iff job call
  · intro job other row _ _ found
    exact found
  · intro tx isOpen
    rw [State.tx_update, if_pos rfl] at isOpen
    exact sound tx isOpen

private theorem closed (inv : LockInv state) {call : CallId}
    {value : Option Call} {world : World} {tx : ClaimTx}
    (wasOpen : state.tx call = some tx) (after : value.bind Call.tx = none)
    (locks : ∀ job, world.locks job =
      if job ∈ tx.ids then none else state.world.locks job)
    (now : world.now = state.world.now)
    (rows : ∀ job, job ∉ tx.ids →
      world.jobs.get? job = state.world.jobs.get? job) :
    LockInv ⟨world, Function.update state.calls call value⟩ := by
  refine inv.change call ?_ ?_ ?_ (le_of_eq now.symm) ?_ ?_
  · intro other different
    rw [State.tx_update, if_neg different]
  · intro job other different
    change world.locks job = _ ↔ _
    rw [locks]
    split
    · rename_i mine
      rw [(inv.locks_iff job call).mpr ⟨tx, wasOpen, mine⟩]
      simp [Ne.symm different]
    · exact Iff.rfl
  · intro job
    change world.locks job = _ ↔ _
    rw [State.tx_update, if_pos rfl, after, locks]
    by_cases mine : job ∈ tx.ids
    · simp [mine]
    · have unlocked : state.world.locks job ≠ some call := by
        intro locked
        obtain ⟨tx', isOpen, member⟩ := (inv.locks_iff job call).mp locked
        cases wasOpen.symm.trans isOpen
        exact mine member
      simp [mine, unlocked]
  · intro job other row different locked found
    have notMine : job ∉ tx.ids := by
      intro mine
      have held := (inv.locks_iff job call).mpr ⟨tx, wasOpen, mine⟩
      exact different (Option.some.inj (locked.symm.trans held))
    change world.jobs.get? job = some row
    rw [rows job notMine, found]
  · intro tx' isOpen
    rw [State.tx_update, if_pos rfl, after] at isOpen
    cases isOpen

/-- The locking select: the rows that it returns were not locked and match
its condition. -/
private theorem opened (inv : LockInv state) {call : CallId} {poll : PollCall}
    {queue : QueueRef} {rest : List QueueRef} {available : Nat} {txNow : Time}
    {order skip : List JobId}
    (called : state.calls call = some (.poll poll))
    (phase : poll.phase = .claiming queue rest (.select available txNow))
    (valid : state.world.ClaimOrder queue.id txNow skip order) :
    LockInv ⟨state.world.lock call (order.take available),
      Function.update state.calls call (some (.poll { poll with
        phase := .claiming queue rest
          (.update txNow (order.take available)) }))⟩ := by
  have wasOpen : state.tx call = some ⟨queue, txNow, []⟩ := by
    simp [State.tx, called, Call.tx, phase, PollPhase.tx]
  have claimable : ∀ job ∈ order.take available,
      job ∈ state.world.claimable queue.id txNow skip :=
    fun job member => valid.1.mem_iff.mp (List.mem_of_mem_take member)
  have unlocked : ∀ job ∈ order.take available,
      state.world.locks job = none := by
    intro job member
    obtain ⟨row, _, holds⟩ := Table.mem_keysWhere.mp (claimable job member)
    simp only [Bool.and_eq_true, Option.isNone_iff_eq_none] at holds
    exact holds.1.2
  refine inv.change call ?_ ?_ ?_ le_rfl ?_ ?_
  · intro other different
    rw [State.tx_update, if_neg different]
  · intro job other different
    simp only [World.lock]
    split
    · rename_i selected
      rw [unlocked job selected]
      simp [Ne.symm different]
    · exact Iff.rfl
  · intro job
    rw [State.tx_update, if_pos rfl]
    have unheld : state.world.locks job ≠ some call := by
      intro locked
      obtain ⟨tx, isOpen, member⟩ := (inv.locks_iff job call).mp locked
      cases wasOpen.symm.trans isOpen
      cases member
    simp [World.lock, Call.tx, PollPhase.tx, unheld]
  · intro job other row _ _ found
    exact found
  · intro tx isOpen
    rw [State.tx_update, if_pos rfl] at isOpen
    cases isOpen
    refine ⟨?_, (inv.sound call _ wasOpen).txNow, ?_⟩
    · have nodup : order.Nodup :=
        valid.1.nodup_iff.mpr (Table.nodup_keysWhere _ _)
      exact nodup.sublist (List.take_sublist _ _)
    · intro job member
      obtain ⟨row, found, holds⟩ :=
        Table.mem_keysWhere.mp (claimable job member)
      simp only [Bool.and_eq_true, decide_eq_true_eq] at holds
      obtain ⟨⟨⟨⟨sameQueue, queued⟩, due⟩, _⟩, _⟩ := holds
      exact ⟨row, found, queued, sameQueue, due⟩

private theorem of_poll (inv : LockInv state) {call : CallId} {poll : PollCall}
    {input : PollInput} {world : World} {poll' : Option PollCall}
    (called : state.calls call = some (.poll poll))
    (case : PollStep state.world call poll input world poll') :
    LockInv ⟨world, Function.update state.calls call (poll'.map .poll)⟩ := by
  have wasTx : state.tx call = poll.phase.tx := by
    simp [State.tx, called, Call.tx]
  have untouched : ∀ {poll' : Option PollCall}, poll.phase.tx = none →
      (poll'.map Call.poll).bind Call.tx = none →
      LockInv ⟨state.world,
        Function.update state.calls call (poll'.map .poll)⟩ := by
    intro poll' before after
    refine inv.moved ?_ ?_
    · intro job
      simp [wasTx, before, after]
    · intro tx isOpen
      simp [after] at isOpen
  cases case with
  | fetched phase => exact untouched (by rw [phase]; rfl) rfl
  | fetchFailed phase => exact untouched (by rw [phase]; rfl) rfl
  | finished phase => exact untouched (by rw [phase]; rfl) rfl
  | entered phase => exact untouched (by rw [phase]; rfl) rfl
  | atLimit phase => exact untouched (by rw [phase]; rfl) rfl
  | counted phase => exact untouched (by rw [phase]; rfl) rfl
  | countFailed phase => exact untouched (by rw [phase]; rfl) rfl
  | launched phase => exact untouched (by rw [phase]; rfl) rfl
  | begun phase =>
      refine inv.moved ?_ ?_
      · intro job
        simp [wasTx, phase, Call.tx, PollPhase.tx]
      · intro tx isOpen
        cases isOpen
        exact ⟨List.nodup_nil, le_rfl, by simp⟩
  | nothingLocked phase which =>
      refine inv.moved ?_ ?_
      · intro job
        rcases which with ⟨available, rfl⟩ | ⟨available, txNow, rfl⟩ <;>
          simp [wasTx, phase, Call.tx, PollPhase.tx]
      · intro tx isOpen
        cases isOpen
  | selected phase valid _ => exact inv.opened called phase valid
  | selectedNone phase _ _ =>
      rw [phase] at wasTx
      refine inv.moved ?_ ?_
      · intro job
        simp [wasTx, Call.tx, PollPhase.tx]
      · intro tx isOpen
        cases isOpen
        exact inv.sound call _ wasTx
  | updated phase =>
      rw [phase] at wasTx
      refine inv.moved ?_ ?_
      · intro job
        simp [wasTx, Call.tx, PollPhase.tx]
      · intro tx isOpen
        cases isOpen
        exact inv.sound call _ wasTx
  | @rolledBack queue rest claimPhase txNow ids phase which =>
      have wasOpen : state.tx call = some ⟨queue, txNow, ids⟩ := by
        rcases which with rfl | rfl <;> rw [wasTx, phase] <;> rfl
      exact inv.closed wasOpen rfl (fun _ => rfl) rfl (fun _ _ => rfl)
  | @committed queue rest txNow ids phase =>
      have wasOpen : state.tx call = some ⟨queue, txNow, ids⟩ := by
        rw [wasTx, phase]
        rfl
      refine inv.closed wasOpen rfl (fun _ => rfl) rfl ?_
      intro job notMine
      simp [World.unlock, World.get?_markClaimed, show job ∉ ids from notMine]

private theorem exited (inv : LockInv state) (worker : WorkerId) :
    LockInv (state.exitWorker worker) := by
  have txAfter : ∀ call, (state.exitWorker worker).tx call =
      if state.belongs worker call then none else state.tx call := by
    intro call
    simp only [State.tx, State.exitWorker]
    split <;> rfl
  constructor
  · intro job call
    rw [txAfter]
    change (if (state.world.locks job).any (state.belongs worker) then none
      else state.world.locks job) = some call ↔ _
    by_cases gone : state.belongs worker call = true
    · rw [if_pos gone]
      refine ⟨?_, by simp⟩
      intro locked
      split at locked
      · cases locked
      · rename_i kept
        rw [locked] at kept
        exact (kept gone).elim
    · rw [if_neg gone, ← inv.locks_iff]
      constructor
      · intro locked
        split at locked
        · cases locked
        · exact locked
      · intro locked
        simp [locked, gone]
  · intro call tx isOpen
    rw [txAfter] at isOpen
    split at isOpen
    · cases isOpen
    · have sound := inv.sound call tx isOpen
      exact ⟨sound.nodup, sound.txNow, sound.rows⟩

private theorem launched (inv : LockInv state)
    {call exec : CallId} {poll : PollCall} {rest : List QueueRef}
    {job : JobId} {ids : List JobId}
    (called : state.calls call = some (.poll poll))
    (phase : poll.phase = .launching rest (job :: ids))
    (different : exec ≠ call) (fresh : state.calls exec = none) :
    LockInv ((state.set call
        (some (.poll { poll with phase := .launching rest ids }))).set exec
      (some (.exec ⟨job, poll.workerId, .findJob⟩))) := by
  refine inv.frame ?_ rfl le_rfl (fun _ _ _ _ found => found)
  intro other
  by_cases isExec : other = exec
  · simp [State.tx, State.set, isExec, fresh, Call.tx]
  · by_cases isCall : other = call
    · simp [State.tx, State.set, isCall, different.symm, called, phase,
        Call.tx, PollPhase.tx]
    · simp [State.tx, State.set, isExec, isCall]

theorem step (inv : LockInv state) (taken : step env state action = some next) :
    LockInv next := by
  have still : ∀ {world : World}, world.locks = state.world.locks →
      world.jobs = state.world.jobs → state.world.now ≤ world.now →
      LockInv { state with world := world } := by
    intro world locks jobs later
    refine inv.frame (fun _ => rfl) locks later ?_
    intro job call row _ found
    change world.jobs.get? job = some row
    rw [jobs, found]
  have noTx : ∀ {call value}, state.calls call = some value →
      value.tx = none → state.tx call = none := by
    intro call value called none
    simp [State.tx, called, none]
  cases step_cases taken with
  | advanced later => exact still rfl rfl later
  | registered success =>
      obtain ⟨workers, _, rfl⟩ := World.registerWorker_eq_some success
      exact still rfl rfl le_rfl
  | heartbeat => exact still rfl rfl le_rfl
  | stopped => exact still rfl rfl le_rfl
  | drained => exact still rfl rfl le_rfl
  | retired => exact still rfl rfl le_rfl
  | exited => exact inv.exited _
  | queueUpdated => exact still rfl rfl le_rfl
  | @started action call value starts fresh =>
      have before : state.tx call = none := by simp [State.tx, fresh]
      cases starts with
      | request =>
          rename_i request
          cases request <;>
            exact inv.quiet taken (by simp) rfl before rfl rfl
      | _ => exact inv.quiet taken (by simp) rfl before rfl rfl
  | poll called case => exact inv.of_poll called case
  | launched called phase _ different fresh =>
      exact inv.launched called phase different fresh
  | @exec call exec input world exec' called case =>
      have after : (exec'.map Call.exec).bind Call.tx = none := by
        cases exec' <;> rfl
      exact inv.quiet taken (by simp) rfl (noTx called rfl) after
        (by rw [case.frame])
  | @reap call owner phase input world phase' called case =>
      have after : (phase'.map fun phase => Call.reap ⟨owner, phase⟩).bind
          Call.tx = none := by
        cases phase' <;> rfl
      exact inv.quiet taken (by simp) rfl (noTx called rfl) after
        (by rw [case.frame])
  | @tick call owner phase input world phase' called case =>
      have after : (phase'.map fun phase => Call.tick ⟨owner, phase⟩).bind
          Call.tx = none := by
        cases phase' <;> rfl
      exact inv.quiet taken (by simp) rfl (noTx called rfl) after
        (by rw [case.frame])
  | @api call value value' input world called case =>
      have requests : ∀ {value : Call}, value.isRequest = true →
          value.tx = none := by
        intro value isRequest
        cases value <;> first | rfl | cases isRequest
      obtain ⟨isRequest, isRequest'⟩ := case.requests
      exact inv.quiet taken (by simp) rfl (noTx called (requests isRequest))
        (requests isRequest') (by rw [case.frame])

theorem run {start last : State} {trace : List (Transition State Action)}
    (run : Run (Chronos.step env) start trace last)
    (initial : Initial start) : LockInv last := by
  have always : ∀ transition ∈ trace, True := fun _ _ => trivial
  exact run.invariant LockInv always (LockInv.initial initial)
    (fun _ _ taken inv => inv.step taken)

end LockInv

end Chronos
