import Chronos.Lib.Trace
import Chronos.PollCycles
import Chronos.System

/-!
# Pausing a queue

A poll cycle reads which queues are not paused at its beginning and does not
look again.  After a pause commits, the only claims on the queue are those of
cycles that had read their list before, at most one for each worker.
-/

namespace Chronos

namespace Action

def pauses (queue : QueueId) : Action → Bool
  | .updateQueue id patch => id = queue && patch.isPaused = some true
  | _ => false

def unpauses (queue : QueueId) : Action → Bool
  | .updateQueue id patch => id = queue && patch.isPaused = some false
  | _ => false

/-- The poll cycle and its worker, if in this step it commits a claim of some
rows of this queue. -/
def claimsFrom (state : State) (queue : QueueId) :
    Action → Option (CallId × WorkerId)
  | .poll call (.claim .ok) =>
      match state.calls call with
      | some (.poll ⟨worker, .claiming ref _ (.commit _ (_ :: _))⟩) =>
          if ref.id = queue then some (call, worker) else none
      | _ => none
  | _ => none

theorem claimsFrom_eq_some {state : State} {queue : QueueId} {action : Action}
    {call : CallId} {worker : WorkerId}
    (claims : action.claimsFrom state queue = some (call, worker)) :
    ∃ ref rest txNow ids, action = .poll call (.claim .ok) ∧
      ref.id = queue ∧
      state.calls call = some (.poll
        ⟨worker, .claiming ref rest (.commit txNow ids)⟩) := by
  unfold Action.claimsFrom at claims
  split at claims
  · split at claims
    · split at claims <;> cases claims
      exact ⟨_, _, _, _, rfl, ‹_›, ‹_›⟩
    · cases claims
  · cases claims

end Action

/-- The claims of rows of this queue that the worker commits in a history. -/
def claimsBy (worker : WorkerId) (queue : QueueId)
    (trace : List (Transition State Action)) : Nat :=
  trace.countP fun transition =>
    ((transition.action.claimsFrom transition.before queue).map Prod.snd) =
      some worker

/-- The history `earlier` contains the step in which the poll cycle read its
list of queues; since then, to the end of `history`, it has neither read again
nor has another call begun under its identifier. -/
def ReadIn (earlier history : List (Transition State Action))
    (call : CallId) : Prop :=
  ∃ first read second, earlier = first ++ read :: second ∧
    read.action.readsQueues = some call ∧
    ∃ rest, history = first ++ read :: rest ∧
      ∀ transition ∈ rest, transition.action.readsQueues ≠ some call ∧
        transition.action.begins ≠ some call

section Steps

variable {env : Env} {start last state next : State} {action : Action}
  {trace : List (Transition State Action)} {call : CallId}
  {queue : QueueId}

/-! ## The paused queue stays out of the lists -/

theorem notMem_activeQueues_step
    (taken : step env state action = some next)
    (stays : action.unpauses queue = false)
    (paused : queue ∉ state.world.activeQueues) :
    queue ∉ next.world.activeQueues := by
  have kept : ∀ {world : World}, world.queues = state.world.queues →
      queue ∉ world.activeQueues := by
    intro world same
    unfold World.activeQueues
    rw [same]
    exact paused
  cases step_cases taken with
  | registered success =>
      obtain ⟨_, _, rfl⟩ := World.registerWorker_eq_some success
      exact paused
  | @queueUpdated id patch =>
      intro active
      obtain ⟨row', found', isActive⟩ := Table.mem_keysWhere.mp active
      change (state.world.queues.modify id (Queue.patch patch)).get? queue =
        some row' at found'
      rw [Table.get?_modify] at found'
      obtain ⟨row, found, rfl⟩ := Option.map_eq_some_iff.mp found'
      apply paused
      refine Table.mem_keysWhere.mpr ⟨row, found, ?_⟩
      split at isActive
      · rename_i same
        subst same
        cases value : patch.isPaused with
        | none => simpa [Queue.patch, value] using isActive
        | some paused =>
            cases paused with
            | true => simp [Queue.patch, value] at isActive
            | false => simp [Action.unpauses, value] at stays
      · exact isActive
  | poll _ case => exact kept (by rw [case.frame])
  | exec _ case => exact kept (by rw [case.frame])
  | reap _ case => exact kept (by rw [case.frame])
  | tick _ case => exact kept (by rw [case.frame])
  | api _ case => exact kept (by rw [case.frame])
  | _ => exact paused

theorem notMem_activeQueues_of_pauses
    (taken : step env state action = some next)
    (pauses : action.pauses queue = true) :
    queue ∉ next.world.activeQueues := by
  cases action with
  | updateQueue id patch =>
      simp only [Action.pauses, Bool.and_eq_true, decide_eq_true_eq] at pauses
      obtain ⟨rfl, value⟩ := pauses
      cases taken
      intro active
      obtain ⟨row', found', isActive⟩ := Table.mem_keysWhere.mp active
      change (state.world.queues.modify id (Queue.patch patch)).get? id =
        some row' at found'
      rw [Table.get?_modify_self] at found'
      obtain ⟨row, found, rfl⟩ := Option.map_eq_some_iff.mp found'
      simp [Queue.patch, value] at isActive
  | _ => cases pauses

theorem World.queueRef_id {world : World} {id : QueueId} {ref : QueueRef}
    (found : world.queueRef id = some ref) : ref.id = id := by
  obtain ⟨row, -, rfl⟩ := Option.map_eq_some_iff.mp found
  rfl

theorem World.ids_sublist (world : World) (order : List QueueId) :
    ((order.filterMap world.queueRef).map (·.id)).Sublist order := by
  induction order with
  | nil => exact .slnil
  | cons id order induction =>
      cases found : world.queueRef id with
      | none =>
          rw [List.filterMap_cons_none found]
          exact induction.trans (List.sublist_cons_self ..)
      | some ref =>
          rw [List.filterMap_cons_some found, List.map_cons,
            World.queueRef_id found]
          exact induction.cons_cons id

/-- The queue is ahead of this poll cycle. -/
def State.mayClaim (state : State) (queue : QueueId) (worker : WorkerId)
    (call : CallId) : Prop :=
  ∃ poll, state.calls call = some (.poll poll) ∧ poll.workerId = worker ∧
    queue ∈ poll.phase.ahead.map (·.id)

theorem State.mayClaim.polls {worker : WorkerId}
    (may : state.mayClaim queue worker call) : state.polls worker call := by
  obtain ⟨poll, found, same, -⟩ := may
  exact ⟨poll, found, same⟩

theorem mayClaim_of_claimsFrom {worker : WorkerId}
    (claims : action.claimsFrom state queue = some (call, worker)) :
    state.mayClaim queue worker call := by
  obtain ⟨ref, rest, txNow, ids, -, same, found⟩ :=
    Action.claimsFrom_eq_some claims
  refine ⟨_, found, rfl, ?_⟩
  exact List.mem_map.mpr ⟨ref, List.mem_cons_self, same⟩

/-- While the queue is paused no cycle comes to have it ahead. -/
theorem step_mayClaim (taken : step env state action = some next)
    (paused : queue ∉ state.world.activeQueues) {worker : WorkerId}
    (may : next.mayClaim queue worker call) :
    state.mayClaim queue worker call ∧
      action.readsQueues ≠ some call ∧ action.begins ≠ some call := by
  obtain ⟨poll', found, same, ahead⟩ := may
  have before : state.mayClaim queue worker call := by
    rcases step_ahead taken found with
      ⟨poll, called, sameWorker, fewer⟩ | empty | ⟨order, -, active, list⟩
    · exact ⟨poll, called, sameWorker.trans same,
        (fewer.map _).subset ahead⟩
    · rw [empty] at ahead
      cases ahead
    · rw [list] at ahead
      have listed := (World.ids_sublist _ order).subset ahead
      exact (paused (active.mem_iff.mp listed)).elim
  obtain ⟨poll, called, sameWorker, aheadBefore⟩ := before
  refine ⟨⟨poll, called, sameWorker, aheadBefore⟩, ?_, ?_⟩
  · intro reads
    obtain ⟨_, _, _, called', phase, _⟩ := step_reads taken reads
    cases called.symm.trans called'
    rw [phase] at aheadBefore
    cases aheadBefore
  · intro begins
    rw [step_begins taken begins] at called
    cases called

/-! ## At most one claim for each worker -/

/-- No queue is ahead of a cycle twice. -/
def AheadOnce (state : State) : Prop :=
  ∀ call poll, state.calls call = some (.poll poll) →
    (poll.phase.ahead.map (·.id)).Nodup

theorem AheadOnce.step (once : AheadOnce state)
    (taken : step env state action = some next) : AheadOnce next := by
  intro call poll' found
  rcases step_ahead taken found with
    ⟨poll, called, -, fewer⟩ | empty | ⟨order, -, active, list⟩
  · exact (once call poll called).sublist (fewer.map _)
  · rw [empty]
    exact List.nodup_nil
  · rw [list]
    have nodup : order.Nodup :=
      active.nodup_iff.mpr (Table.nodup_keysWhere ..)
    exact nodup.sublist (World.ids_sublist _ order)

theorem AheadOnce.run (run : Run (Chronos.step env) start trace last)
    (initial : Initial start) : AheadOnce last := by
  have always : ∀ transition ∈ trace, True := fun _ _ => trivial
  refine run.invariant AheadOnce always ?_ fun _ _ taken once =>
    once.step taken
  intro call poll found
  rw [initial.calls call] at found
  cases found

theorem not_mayClaim_of_claimsFrom (once : AheadOnce state)
    (taken : step env state action = some next) {worker : WorkerId}
    (claims : action.claimsFrom state queue = some (call, worker)) :
    ¬next.mayClaim queue worker call := by
  obtain ⟨ref, rest, txNow, ids, rfl, same, found⟩ :=
    Action.claimsFrom_eq_some claims
  have fresh := once call _ found
  simp only [PollPhase.ahead, List.map_cons, List.nodup_cons, same] at fresh
  rintro ⟨poll', found', -, ahead⟩
  simp only [Chronos.step, found, pollCycle, claimJobs, State.resume,
    Option.map_some] at taken
  cases taken
  simp only [Function.update_self, Option.some.injEq, Call.poll.injEq] at found'
  subst found'
  exact fresh.1 ahead

/-- What holds of the claims of one worker since the pause. -/
structure PausedFor (queue : QueueId) (worker : WorkerId) (claims : Nat)
    (state : State) : Prop where
  paused : queue ∉ state.world.activeQueues
  one : OneCycle state
  once : AheadOnce state
  claims : claims = 0 ∨
    claims = 1 ∧ ∀ call, ¬state.mayClaim queue worker call

theorem PausedFor.step {worker : WorkerId} {claims : Nat}
    (inv : PausedFor queue worker claims state)
    (taken : step env state action = some next)
    (stays : action.unpauses queue = false)
    (turns : ∀ other, PollsInTurn ⟨state, action, next⟩ other) :
    PausedFor queue worker
      (claims + claimsBy worker queue [⟨state, action, next⟩]) next := by
  refine ⟨notMem_activeQueues_step taken stays inv.paused,
    inv.one.step taken turns, inv.once.step taken, ?_⟩
  by_cases isClaim : ((action.claimsFrom state queue).map Prod.snd) =
      some worker
  · have counted : claimsBy worker queue [⟨state, action, next⟩] = 1 := by
      simp [claimsBy, isClaim]
    obtain ⟨⟨call, _⟩, claimed, rfl⟩ := Option.map_eq_some_iff.mp isClaim
    have may := mayClaim_of_claimsFrom claimed
    rcases inv.claims with none | ⟨-, never⟩
    · refine .inr ⟨by omega, ?_⟩
      intro other mayOther
      have before := (step_mayClaim taken inv.paused mayOther).1
      have same := inv.one _ other call before.polls may.polls
      subst same
      exact not_mayClaim_of_claimsFrom inv.once taken claimed mayOther
    · exact (never call may).elim
  · have counted : claimsBy worker queue [⟨state, action, next⟩] = 0 := by
      simp [claimsBy, isClaim]
    rw [counted]
    rcases inv.claims with none | ⟨one, never⟩
    · exact .inl none
    · refine .inr ⟨one, ?_⟩
      intro call may
      exact never call (step_mayClaim taken inv.paused may).1

theorem PausedFor.run {worker : WorkerId}
    (inv : PausedFor queue worker 0 start)
    (run : Run (Chronos.step env) start trace last)
    (stays : ∀ transition ∈ trace,
      transition.action.unpauses queue = false)
    (turns : ∀ transition ∈ trace, ∀ call, PollsInTurn transition call) :
    PausedFor queue worker (claimsBy worker queue trace) last := by
  induction run with
  | nil => exact inv
  | @snoc trace middle last action _ taken induction =>
      have member : ⟨middle, action, last⟩ ∈
          trace ++ [(⟨middle, action, last⟩ : Transition State Action)] :=
        List.mem_append_right _ (List.mem_singleton_self _)
      have before := induction
        (fun other earlier => stays other (List.mem_append_left _ earlier))
        (fun other earlier => turns other (List.mem_append_left _ earlier))
      have split : claimsBy worker queue
          (trace ++ [⟨middle, action, last⟩]) =
          claimsBy worker queue trace +
            claimsBy worker queue [⟨middle, action, last⟩] :=
        List.countP_append
      rw [split]
      exact before.step taken (stays _ member) (turns _ member)

/-! ## The list was read before the pause -/

theorem ReadIn.snoc {earlier history : List (Transition State Action)}
    {transition : Transition State Action} (read : ReadIn earlier history call)
    (reads : transition.action.readsQueues ≠ some call)
    (begins : transition.action.begins ≠ some call) :
    ReadIn earlier (history ++ [transition]) call := by
  obtain ⟨first, step, second, whole, isRead, rest, rfl, quiet⟩ := read
  refine ⟨first, step, second, whole, isRead, rest ++ [transition], ?_,
    List.forall_mem_snoc quiet ⟨reads, begins⟩⟩
  rw [List.append_assoc, List.cons_append]

/-- A cycle that has passed its first phase has read its list. -/
theorem readIn_of_run (run : Run (step env) start trace last)
    (initial : Initial start) {poll : PollCall}
    (found : last.calls call = some (.poll poll))
    (ahead : poll.phase.ahead ≠ []) : ReadIn trace trace call := by
  induction run generalizing poll with
  | nil =>
      rw [initial.calls call] at found
      cases found
  | @snoc trace middle last action _ taken induction =>
      rcases step_ahead taken found with
        ⟨before, called, -, fewer⟩ | empty | ⟨order, rfl, -, -⟩
      · have aheadBefore : before.phase.ahead ≠ [] := by
          intro none
          rw [none] at fewer
          exact ahead (List.sublist_nil.mp fewer)
        obtain ⟨first, read, second, rfl, isRead, rest, whole, quiet⟩ :=
          induction called aheadBefore
        refine ⟨first, read, second ++ [⟨middle, action, last⟩], by simp,
          isRead, rest ++ [⟨middle, action, last⟩], ?_,
          List.forall_mem_snoc quiet ⟨?_, ?_⟩⟩
        · rw [whole, List.append_assoc, List.cons_append]
        · intro reads
          obtain ⟨_, _, _, called', phase, _⟩ := step_reads taken reads
          cases called.symm.trans called'
          rw [phase] at aheadBefore
          exact aheadBefore rfl
        · intro begins
          rw [step_begins taken begins] at called
          cases called
      · exact (ahead empty).elim
      · exact ⟨trace, ⟨middle, _, last⟩, [], rfl, rfl, [], rfl, by simp⟩

theorem readIn_of_mayClaim {worker : WorkerId}
    {earlier history : List (Transition State Action)}
    (run : Run (step env) start trace last)
    (stays : ∀ transition ∈ trace,
      transition.action.unpauses queue = false)
    (paused : queue ∉ start.world.activeQueues)
    (before : ∀ call, start.mayClaim queue worker call →
      ReadIn earlier history call)
    (may : last.mayClaim queue worker call) :
    ReadIn earlier (history ++ trace) call := by
  induction run with
  | nil => simpa using before call may
  | @snoc trace middle last action run taken induction =>
      have staysBefore : ∀ transition ∈ trace,
          transition.action.unpauses queue = false := fun other member =>
        stays other (List.mem_append_left _ member)
      have pausedBefore : queue ∉ middle.world.activeQueues := by
        refine run.invariant (fun state => queue ∉ state.world.activeQueues)
          staysBefore paused ?_
        intro transition unpauses taken
        exact notMem_activeQueues_step taken unpauses
      obtain ⟨mayBefore, reads, begins⟩ :=
        step_mayClaim taken pausedBefore may
      rw [← List.append_assoc]
      exact (induction staysBefore mayBefore).snoc reads begins

/-! ## A pause takes effect -/

/-- What a pause means for the claims in the history `later` that follows it,
up to the next unpausing. -/
structure PauseEffective (queue : QueueId)
    (earlier : List (Transition State Action))
    (pause : Transition State Action)
    (later : List (Transition State Action)) : Prop where
  /-- Each worker commits at most one claim. -/
  once : ∀ worker, claimsBy worker queue later ≤ 1
  /-- It belongs to a cycle that had read its list before the pause. -/
  readBefore : ∀ {before claim after call worker},
    later = before ++ claim :: after →
    claim.action.claimsFrom claim.before queue = some (call, worker) →
    ReadIn earlier (earlier ++ pause :: before) call
  /-- A cycle that reads its list after the pause claims nothing. -/
  readAfter : ∀ {before read between claim after call worker},
    later = before ++ read :: (between ++ claim :: after) →
    read.action.readsQueues = some call →
    claim.action.claimsFrom claim.before queue ≠ some (call, worker)

theorem ReadIn.not_reads {earlier before : List (Transition State Action)}
    {pause read : Transition State Action}
    {between : List (Transition State Action)}
    (readIn : ReadIn earlier
      (earlier ++ pause :: (before ++ read :: between)) call) :
    read.action.readsQueues ≠ some call := by
  obtain ⟨first, step, second, rfl, -, rest, whole, quiet⟩ := readIn
  rw [List.append_assoc, List.append_cancel_left_eq, List.cons_append,
    List.cons.injEq] at whole
  refine (quiet read ?_).1
  rw [← whole.2]
  simp

/-- For every interleaving in which each worker runs its cycles one after the
other: from a commit that pauses the queue until it is unpaused, each worker
commits at most one more claim on it, and that from a cycle that had read its
list before. -/
theorem pause_effective {earlier later : List (Transition State Action)}
    {pause : Transition State Action}
    (run : Run (step env) start (earlier ++ pause :: later) last)
    (initial : Initial start)
    (turns : ∀ transition ∈ earlier ++ pause :: later, ∀ call,
      PollsInTurn transition call)
    (pauses : pause.action.pauses queue = true)
    (stays : ∀ transition ∈ later,
      transition.action.unpauses queue = false) :
    PauseEffective queue earlier pause later := by
  obtain ⟨before, taken, after⟩ := run.around
  have paused := notMem_activeQueues_of_pauses taken pauses
  have untilPause : Run (step env) start (earlier ++ [pause]) pause.after :=
    before.snoc taken
  have turnsBefore : ∀ transition ∈ earlier ++ [pause], ∀ call,
      PollsInTurn transition call := by
    intro transition member
    apply turns
    simp only [List.mem_append, List.mem_cons, List.not_mem_nil, or_false]
      at member ⊢
    tauto
  have readBefore : ∀ {before claim after call worker},
      later = before ++ claim :: after →
      claim.action.claimsFrom claim.before queue = some (call, worker) →
      ReadIn earlier (earlier ++ pause :: before) call := by
    rintro first claim second call worker rfl claims
    have may := mayClaim_of_claimsFrom claims
    obtain ⟨middle, _, _⟩ := after.around
    have readIn : ReadIn earlier ((earlier ++ [pause]) ++ first) call := by
      refine readIn_of_mayClaim middle ?_ paused ?_ may
      · intro transition member
        exact stays transition (List.mem_append_left _ member)
      · rintro other ⟨poll, found, -, ahead⟩
        -- The update of the queue leaves the cycles where they are.
        have quiet : pause.action.readsQueues ≠ some other ∧
            pause.action.begins ≠ some other ∧
            pause.before.calls other = some (.poll poll) := by
          cases isUpdate : pause.action with
          | updateQueue id patch =>
              rw [isUpdate] at taken
              rw [← Option.some.inj taken] at found
              exact ⟨nofun, nofun, found⟩
          | _ => rw [isUpdate] at pauses; cases pauses
        refine (readIn_of_run before initial quiet.2.2 ?_).snoc quiet.1
          quiet.2.1
        intro none
        rw [none] at ahead
        cases ahead
    rwa [List.append_assoc, List.singleton_append] at readIn
  refine ⟨?_, readBefore, ?_⟩
  · intro worker
    have start : PausedFor queue worker 0 pause.after :=
      ⟨paused, .run untilPause initial turnsBefore,
        .run untilPause initial, .inl rfl⟩
    have claims := (start.run after stays fun transition member =>
      turns transition (by simp [member])).claims
    omega
  · rintro first read between claim second call worker rfl reads claims
    have readIn : ReadIn earlier
        (earlier ++ pause :: (first ++ read :: between)) call :=
      readBefore (by rw [List.append_assoc, List.cons_append]) claims
    exact readIn.not_reads reads

/-- The queue is paused between a cycle's list and its claim: that claim goes
through, and the cycle of the other worker finds no queue. -/
theorem pause_effective_claimed :
    ∃ earlier pause later last,
      Run (step .sample)
        (World.sample 2 ⟨[(7, .sample .queued), (8, .sample .queued)],
          by decide⟩).idle (earlier ++ pause :: later) last ∧
      claimsBy 1 0 later = 1 ∧ PauseEffective 0 earlier pause later := by
  obtain ⟨trace, last, run, checked, ⟨pause, isPause, pauses⟩, stays, claims⟩ :=
    exists_run_of_check (step .sample)
      (World.sample 2 ⟨[(7, .sample .queued), (8, .sample .queued)],
        by decide⟩).idle
      [.startPoll 1 1, .poll 1 (.queues [0]), .updateQueue 0 ⟨none, some true⟩,
        .startPoll 2 2, .poll 1 .next, .poll 2 (.queues []), .poll 2 .next,
        .poll 1 (.claim .ok), .poll 1 (.claim .ok),
        .poll 1 (.claim (.rows [7, 8] [])), .poll 1 (.claim .ok),
        .poll 1 (.claim .ok)]
      (fun trace _ =>
        ChecksCalls 3 PollsInTurn trace ∧
        (∃ pause ∈ (trace.drop 2).head?, pause.action.pauses 0 = true) ∧
        (∀ transition ∈ trace.drop 3,
          transition.action.unpauses 0 = false) ∧
        claimsBy 1 0 (trace.drop 3) = 1)
      (by decide)
  have initial : Initial
      (World.sample 2 ⟨[(7, .sample .queued), (8, .sample .queued)],
        by decide⟩).idle := World.idle_initial fun _ => rfl
  have turns := checked.forall_calls run initial (by
    intro transition call absent
    simp [PollsInTurn, absent])
  rw [List.eq_take_append_cons isPause] at run turns
  exact ⟨_, _, _, last, run, claims,
    pause_effective run initial turns pauses stays⟩

end Steps

end Chronos
