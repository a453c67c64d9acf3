import Chronos.EventStream

/-!
# When the stream mirrors the table

The stream about a job is followed along a history: a commit that is told
waits for its publish, and the publish makes its text the last one.  That text
is the status in the database for every commit but the retry of an executor.
-/

namespace Chronos

theorem lastCommit_snoc_of_some {job : JobId}
    {trace : List (Transition State Action)}
    {transition : Transition State Action} {call : CallId}
    {commit : StatusCommit}
    (commits : transition.action.commits transition.before job = some commit)
    (acting : transition.action.actor = some call) :
    lastCommit job (trace ++ [transition]) = some (call, commit) :=
  latest_snoc_of_some (by simp [commits, acting])

theorem lastCommit_snoc_of_none {job : JobId}
    {trace : List (Transition State Action)}
    {transition : Transition State Action}
    (silent : transition.action.commits transition.before job = none) :
    lastCommit job (trace ++ [transition]) = lastCommit job trace :=
  latest_snoc_of_none (by simp [silent])

/-- The stream about a job, by the last commit of its status. -/
inductive StreamOf (job : JobId) (state : State) :
    Option (CallId × StatusCommit) → Prop where
  | unborn :
      state.status? job = none →
      (∀ call status, state.owes call ≠ some (job, status)) →
      replay state.world.messages job = none →
      StreamOf job state none
  | awaiting {call : CallId} {commit : StatusCommit} {status : JobStatus}
      {text : String} :
      commit.told = true →
      state.status? job = some status →
      (text = status.text ↔ commit.reported = true) →
      state.owes call = some (job, some text) →
      StreamOf job state (some (call, commit))
  | delivered {call : CallId} {commit : StatusCommit} {status : JobStatus}
      {text : String} :
      commit.told = true →
      state.status? job = some status →
      (text = status.text ↔ commit.reported = true) →
      (∀ other owed, state.owes other ≠ some (job, owed)) →
      replay state.world.messages job = some text →
      StreamOf job state (some (call, commit))
  | claimed {call : CallId} :
      state.status? job = some .claimed →
      StreamOf job state (some (call, .claim))
  | untold {call : CallId} {commit : StatusCommit} :
      commit = .batch ∨ commit = .cron →
      state.status? job ≠ none →
      (∀ other status, state.owes other = some (job, status) →
        status = none) →
      replay state.world.messages job = none →
      StreamOf job state (some (call, commit))

/-- The call does not lose the message that it owes about the job: it does
not fail, and its process does not end. -/
def Delivers (job : JobId) (transition : Transition State Action)
    (call : CallId) : Prop :=
  ∀ notice ∈ transition.before.owes call, notice.1 = job →
    (transition.action.actor = some call →
      transition.action.fails transition.before = false) ∧
    ∀ worker ∈ transition.action.exiting,
      transition.before.belongs worker call = false

/-- The other call owes nothing about the job any more when this call
publishes about it. -/
def Concludes (job : JobId) (transition : Transition State Action)
    (call other : CallId) : Prop :=
  transition.action.actor = some call →
    (∃ value ∈ transition.before.calls call,
      (value.announces transition.before.world.now).isSome = true) →
    (∃ notice ∈ transition.before.owes call, notice.1 = job) →
    other ≠ call → ∀ notice ∈ transition.before.owes other, notice.1 ≠ job

/-- The message about the last commit is neither lost nor overtaken, at every
point of the history. -/
def Orderly (job : JobId) (trace : List (Transition State Action)) : Prop :=
  ∀ {earlier transition later}, trace = earlier ++ transition :: later →
    ∀ {call commit}, lastCommit job earlier = some (call, commit) →
      commit.told = true →
      Delivers job transition call ∧
        ∀ other, Concludes job transition call other

theorem Orderly.of_append {job : JobId}
    {first second : List (Transition State Action)}
    (orderly : Orderly job (first ++ second)) : Orderly job first := by
  intro earlier transition later whole
  exact orderly (by rw [whole, List.append_assoc, List.cons_append])

namespace StreamOf

variable {env : Env} {state next : State} {action : Action} {job : JobId}
  {commit? : Option (CallId × StatusCommit)}

theorem of_absent (stream : StreamOf job state commit?)
    (absent : state.status? job = none) :
    (∀ call status, state.owes call ≠ some (job, status)) ∧
      replay state.world.messages job = none := by
  cases stream with
  | unborn _ unowed silent => exact ⟨unowed, silent⟩
  | awaiting _ present => rw [absent] at present; cases present
  | delivered _ present => rw [absent] at present; cases present
  | claimed present => rw [absent] at present; cases present
  | untold _ present => exact (present absent).elim

/-- A commit begins a new message. -/
theorem committed (stream : StreamOf job state commit?)
    (taken : Chronos.step env state action = some next) {call : CallId}
    {commit : StatusCommit} (acting : action.actor = some call)
    (same : next.world.messages = state.world.messages)
    (committed : Committed job (state.status? job) (next.status? job)
      (next.owes call) commit) :
    StreamOf job next (some (call, commit)) := by
  cases committed with
  | @reported _ status isReported present owed _ =>
      have told : commit.told = true := by
        simp only [StatusCommit.reported, Bool.and_eq_true] at isReported
        exact isReported.1
      exact .awaiting told present (by simp [isReported]) owed
  | retry present owed =>
      exact .awaiting rfl present (by decide) owed
  | claim present => exact .claimed present
  | untold isNew absent present owes =>
      obtain ⟨unowed, silent⟩ := stream.of_absent absent
      refine .untold isNew present ?_ (by rw [same, silent])
      intro other status owed
      by_cases isCall : other = call
      · subst other
        exact owes status owed
      · rcases step_owes taken owed with earlier | ⟨own, _⟩
        · exact (unowed other status earlier).elim
        · cases acting.symm.trans own
          exact (isCall rfl).elim

/-- The publish of the last commit goes on, or concludes. -/
theorem awaited (taken : Chronos.step env state action = some next)
    (silent : action.commits state job = none) {call : CallId}
    {commit : StatusCommit} {status : JobStatus} {text : String}
    (told : commit.told = true) (present : next.status? job = some status)
    (means : text = status.text ↔ commit.reported = true)
    (owed : state.owes call = some (job, some text))
    (delivers : Delivers job ⟨state, action, next⟩ call)
    (concludes : ∀ other, Concludes job ⟨state, action, next⟩ call other) :
    StreamOf job next (some (call, commit)) := by
  obtain ⟨succeeds, stays⟩ := delivers _ owed rfl
  by_cases acting : action.actor = some call
  · obtain ⟨value, called, owes⟩ := Option.bind_eq_some_iff.mp owed
    have posts := step_posts taken acting called
    rw [succeeds acting] at posts
    generalize announced : value.announces state.world.now = message at posts
    cases posts with
    | lost _ failed => cases failed
    | silent same =>
        rcases step_delays taken acting called owes announced with kept | failed
        · exact .awaiting told present means kept
        · rw [succeeds acting] at failed
          cases failed
    | @posted message same =>
        obtain ⟨named, carries⟩ := Call.announces_of_owes announced owes
        refine .delivered told present means ?_ ?_
        · intro other notice owing
          rcases step_owes taken owing with earlier | ⟨_, _, commits⟩
          · by_cases isCall : other = call
            · subst other
              rw [step_publishes taken acting called announced] at owing
              cases owing
            · exact concludes other acting
                ⟨value, called, by rw [announced]; rfl⟩ ⟨_, owed, rfl⟩ isCall
                _ earlier rfl
          · rw [silent] at commits
            cases commits
        · rw [same, replay_snoc, if_pos named, carries]
  · exact .awaiting told present means
      (step_owes_kept taken owed acting stays)

theorem uncommitted (stream : StreamOf job state commit?)
    (taken : Chronos.step env state action = some next)
    (silent : action.commits state job = none)
    (orderly : ∀ call commit, commit? = some (call, commit) →
      commit.told = true → Delivers job ⟨state, action, next⟩ call ∧
        ∀ other, Concludes job ⟨state, action, next⟩ call other) :
    StreamOf job next commit? := by
  have status := step_uncommitted taken silent
  have owes : ∀ {call owed}, next.owes call = some (job, owed) →
      state.owes call = some (job, owed) := by
    intro call owed owing
    rcases step_owes taken owing with earlier | ⟨_, _, commits⟩
    · exact earlier
    · rw [silent] at commits
      cases commits
  have unheard : (∀ call owed, state.owes call ≠ some (job, owed)) →
      replay next.world.messages job = replay state.world.messages job := by
    intro unowed
    rcases step_replay taken with same | ⟨call, value, _, owed, _, called, _,
      owing, _⟩
    · exact same
    · exact (unowed call owed
        (Option.bind_eq_some_iff.mpr ⟨value, called, owing⟩)).elim
  cases stream with
  | unborn absent unowed quiet =>
      exact .unborn (status.trans absent)
        (fun call owed owing => unowed call owed (owes owing))
        ((unheard unowed).trans quiet)
  | @awaiting call commit _ _ told present means owed =>
      obtain ⟨delivers, concludes⟩ := orderly call commit rfl told
      exact awaited taken silent told (status.trans present) means owed
        delivers concludes
  | delivered told present means unowed heard =>
      exact .delivered told (status.trans present) means
        (fun other owed owing => unowed other owed (owes owing))
        ((unheard unowed).trans heard)
  | claimed present => exact .claimed (status.trans present)
  | untold isNew present nothing quiet =>
      refine .untold isNew (by rw [status]; exact present)
        (fun other owed owing => nothing other owed (owes owing)) ?_
      rcases step_replay taken with same | ⟨call, value, _, owed, _, called, _,
        owing, heard⟩
      · exact same.trans quiet
      · rw [heard]
        exact nothing call owed
          (Option.bind_eq_some_iff.mpr ⟨value, called, owing⟩)

end StreamOf

theorem JobStatus.text_eq_claimed {status : JobStatus}
    (same : status.text = "claimed") : status = .claimed := by
  cases status <;> first | rfl | exact absurd same (by decide)

/-- No message about the job ever tells that it is claimed. -/
structure NeverTold (job : JobId) (state : State) : Prop where
  owed : ∀ call, state.owes call ≠ some (job, some "claimed")
  heard : replay state.world.messages job ≠ some "claimed"

section Histories

variable {env : Env} {start last state next : State} {action : Action}
  {trace : List (Transition State Action)} {job : JobId}

theorem NeverTold.step (never : NeverTold job state)
    (taken : Chronos.step env state action = some next)
    {reads : CallId → Time → Prop} (locks : LockInv state)
    (rows : RowsInv reads state) : NeverTold job next := by
  constructor
  · intro call owing
    rcases step_owes taken owing with earlier | ⟨acting, commit, commits⟩
    · exact never.owed call earlier
    · obtain ⟨call', acting', _, committed⟩ :=
        step_commits taken locks rows commits
      cases acting.symm.trans acting'
      cases committed with
      | reported _ _ owed notClaimed =>
          have same := owing.symm.trans owed
          simp only [Option.some.injEq, Prod.mk.injEq, true_and] at same
          exact notClaimed (JobStatus.text_eq_claimed same.symm)
      | retry _ owed =>
          have same := owing.symm.trans owed
          simp at same
      | claim _ owed => cases owing.symm.trans owed
      | untold _ _ _ nothing => cases nothing _ owing
  · rcases step_replay taken with same | ⟨call, value, _, status, _, called, _,
      owed, heard⟩
    · rw [same]
      exact never.heard
    · rw [heard]
      rintro rfl
      exact never.owed call (Option.bind_eq_some_iff.mpr ⟨value, called, owed⟩)

theorem StreamOf.run (run : Run (Chronos.step env) start trace last)
    (initial : Initial start) (absent : start.world.jobs.get? job = none)
    (unnamed : ∀ message ∈ start.world.messages, message.jobId ≠ some job)
    (orderly : Orderly job trace) :
    StreamOf job last (lastCommit job trace) ∧ NeverTold job last := by
  have unowed : ∀ call owed, start.owes call ≠ some (job, owed) := by
    intro call owed owing
    rw [State.owes, initial.calls call] at owing
    cases owing
  have quiet : replay start.world.messages job = none := by
    rw [replay, latest_eq_none_iff.mpr]
    · rfl
    · intro message member
      rw [if_neg (unnamed message member)]
  induction run with
  | nil =>
      refine ⟨.unborn ?_ unowed quiet, ?_, ?_⟩
      · rw [State.status?, absent]
        rfl
      · exact fun call => unowed call _
      · rw [quiet]
        exact fun same => by cases same
  | @snoc trace middle last action before taken induction =>
      obtain ⟨stream, never⟩ := induction orderly.of_append
      have locks := LockInv.run before initial
      have rows := RowsInv.run before initial
      refine ⟨?_, never.step taken locks rows⟩
      cases commits : action.commits middle job with
      | some commit =>
          obtain ⟨call, acting, same, committed⟩ :=
            step_commits taken locks rows commits
          rw [lastCommit_snoc_of_some commits acting]
          exact stream.committed taken acting same committed
      | none =>
          rw [lastCommit_snoc_of_none commits]
          apply stream.uncommitted taken commits
          intro call commit isLast told
          exact orderly rfl isLast told

/-- Nobody owes a publish about the job. -/
def Settled (job : JobId) (state : State) : Prop :=
  ∀ call, ∀ notice ∈ state.owes call, notice.1 ≠ job

/-- The order of the publishes can be checked in a run with few calls. -/
def OrderlyBelow (bound : CallId) (job : JobId)
    (trace : List (Transition State Action)) : Prop :=
  (∀ transition ∈ trace, ∀ call ∈ transition.action.begins, call < bound) ∧
  ∀ position < trace.length, ∀ transition ∈ (trace.drop position).head?,
    ∀ entry ∈ lastCommit job (trace.take position), entry.2.told = true →
      Delivers job transition entry.1 ∧
        ∀ other < bound, Concludes job transition entry.1 other

theorem OrderlyBelow.orderly {bound : CallId}
    (below : OrderlyBelow bound job trace)
    (run : Run (Chronos.step env) start trace last)
    (initial : Initial start) : Orderly job trace := by
  intro earlier transition later whole call commit isLast told
  subst whole
  obtain ⟨begins, checked⟩ := below
  have here : transition ∈
      ((earlier ++ transition :: later).drop earlier.length).head? := by
    simp
  obtain ⟨delivers, concludes⟩ :=
    checked earlier.length (by simp) transition here (call, commit)
      (by simpa using isLast) told
  refine ⟨delivers, ?_⟩
  intro other
  by_cases small : other < bound
  · exact concludes other small
  · obtain ⟨before, _, _⟩ := run.around
    have gone : transition.before.calls other = none :=
      calls_none_of_run before initial
        (fun entry member => begins entry (List.mem_append_left _ member))
        (Nat.not_lt.mp small)
    intro _ _ _ _ notice owed
    simp [State.owes, gone] at owed

theorem settled_of_below {bound : CallId}
    (run : Run (Chronos.step env) start trace last) (initial : Initial start)
    (begins : ∀ transition ∈ trace, ∀ call ∈ transition.action.begins,
      call < bound)
    (checked : ∀ call < bound, ∀ notice ∈ last.owes call, notice.1 ≠ job) :
    Settled job last := by
  intro call notice owed
  by_cases small : call < bound
  · exact checked call small notice owed
  · have gone : last.calls call = none :=
      calls_none_of_run run initial begins (Nat.not_lt.mp small)
    simp [State.owes, gone] at owed

/-- While messages are neither lost nor overtaken, the stream tells the status
of a job exactly when the last commit of it is one that is reported. -/
theorem mirrors_iff (run : Run (Chronos.step env) start trace last)
    (initial : Initial start) (absent : start.world.jobs.get? job = none)
    (unnamed : ∀ message ∈ start.world.messages, message.jobId ≠ some job)
    (orderly : Orderly job trace) (settled : Settled job last) :
    Mirrors last.world job ↔
      ∀ call commit, lastCommit job trace = some (call, commit) →
        commit.reported = true := by
  obtain ⟨stream, never⟩ :=
    StreamOf.run run initial absent unnamed orderly
  have status : (last.world.jobs.get? job).map (fun row => row.status.text) =
      (last.status? job).map JobStatus.text := by
    rw [State.status?, Option.map_map]
    rfl
  rw [Mirrors, status]
  generalize lastCommit job trace = commit? at stream
  cases stream with
  | unborn none _ quiet => simp [none, quiet]
  | awaiting _ _ _ owed => exact (settled _ _ owed rfl).elim
  | delivered _ present means _ heard => simp [present, heard, means]
  | claimed present =>
      have silent := never.heard
      simp [present, JobStatus.text, StatusCommit.reported, StatusCommit.told]
      exact silent
  | untold isNew present _ quiet =>
      obtain ⟨status, present⟩ := Option.ne_none_iff_exists'.mp present
      rcases isNew with rfl | rfl
      · simp [present, quiet, StatusCommit.reported, StatusCommit.told]
      · simp [present, quiet, StatusCommit.reported, StatusCommit.told]

end Histories

/-! ## A job from its submission to its completion -/

def CreateJobBody.sample : CreateJobBody where
  type := "echo"
  payload := []
  runAt := none
  cronExpression := none
  retryPolicyId := none
  idempotencyKey := none
  priority := none

instance (job : JobId) (transition : Transition State Action)
    (call : CallId) : Decidable (Delivers job transition call) :=
  inferInstanceAs (Decidable (∀ notice ∈ _, _ → (_ → _) ∧ ∀ worker ∈ _, _ = _))

instance (job : JobId) (transition : Transition State Action)
    (call other : CallId) : Decidable (Concludes job transition call other) :=
  inferInstanceAs (Decidable (_ → (∃ value ∈ _, _) → (∃ notice ∈ _, _) → _ →
    ∀ notice ∈ _, _))

instance (bound : CallId) (job : JobId)
    (trace : List (Transition State Action)) :
    Decidable (OrderlyBelow bound job trace) :=
  inferInstanceAs (Decidable ((∀ transition ∈ trace, ∀ call ∈ _, _) ∧
    ∀ position < trace.length, ∀ transition ∈ _, ∀ entry ∈ _, _ → _ ∧
      ∀ other < bound, _))

instance (world : World) (job : JobId) : Decidable (Mirrors world job) :=
  inferInstanceAs (Decidable (_ = _))

/-- Job 7 is submitted and claimed. -/
def claimedSubmission : List Action :=
  [.request 1 (.submit 0 .sample), .api 1 .ok, .api 1 (.created [7]),
    .api 1 .ok] ++ claimActions 2 1 [7]

/-- The actions that run it from there to its completion. -/
def completedSubmission : List Action :=
  claimedSubmission ++ executeActions 2 3 9 ++
    ([.exec 3 .resolved, .exec 3 .ok, .exec 3 .ok] : List Action)

theorem mirrors_completed :
    ∃ trace last, Run (step Env.sample) (World.sample 1 .empty).idle trace
        last ∧
      last.status? 7 = some .completed ∧ Mirrors last.world 7 := by
  have checked :
      ∃ trace last, Run (step Env.sample) (World.sample 1 .empty).idle trace
          last ∧
        OrderlyBelow 4 7 trace ∧
        (∀ call < 4, ∀ notice ∈ last.owes call, notice.1 ≠ 7) ∧
        last.status? 7 = some .completed ∧
        lastCommit 7 trace = some (3, .complete) :=
    exists_run_of_check _ _ completedSubmission _ (by decide +kernel)
  obtain ⟨trace, last, run, below, owes, completed, isLast⟩ := checked
  have initial : Initial (World.sample 1 .empty).idle :=
    World.idle_initial fun _ => rfl
  refine ⟨trace, last, run, completed, ?_⟩
  apply (mirrors_iff run initial rfl (by simp [World.idle, World.sample])
    (below.orderly run initial)
    (settled_of_below run initial below.1 owes)).mpr
  intro call commit same
  cases isLast.symm.trans same
  rfl

/-- The claim of a job is not published: while the job is claimed, the last
message about it still tells that it is queued. -/
theorem claimed_not_mirrored :
    ∃ trace last, Run (step Env.sample) (World.sample 1 .empty).idle trace
        last ∧
      (∀ transition ∈ trace,
        transition.action.fails transition.before = false) ∧
      Settled 7 last ∧ last.status? 7 = some .claimed ∧
      replay last.world.messages 7 = some "queued" ∧
      ¬Mirrors last.world 7 := by
  have checked :
      ∃ trace last, Run (step Env.sample) (World.sample 1 .empty).idle trace
          last ∧
        (∀ transition ∈ trace, ∀ call ∈ transition.action.begins, call < 3) ∧
        (∀ call < 3, ∀ notice ∈ last.owes call, notice.1 ≠ 7) ∧
        (∀ transition ∈ trace,
          transition.action.fails transition.before = false) ∧
        last.status? 7 = some .claimed ∧
        replay last.world.messages 7 = some "queued" ∧
        ¬Mirrors last.world 7 :=
    exists_run_of_check _ _ claimedSubmission _ (by decide +kernel)
  obtain ⟨trace, last, run, begins, owes, succeeds, claimed, heard,
    notMirrored⟩ := checked
  have initial : Initial (World.sample 1 .empty).idle :=
    World.idle_initial fun _ => rfl
  exact ⟨trace, last, run, succeeds,
    settled_of_below run initial begins owes, claimed, heard, notMirrored⟩

end Chronos
