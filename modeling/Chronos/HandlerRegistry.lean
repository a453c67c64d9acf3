import Chronos.ExecutorRuns
import Chronos.Records

/-!
# The handler registry

`worker/src/handlers/index.ts` keeps the handlers in a plain object.  Reading
one of its properties goes on to `Object.prototype` where the object has none
of its own, and `executeJob` calls whatever the lookup finds.
-/

namespace Chronos

/-! ## Reading properties of the registry -/

inductive Handler where
  | echo
  | httpRequest
  | sendEmail
  deriving DecidableEq

/-- The properties of `Object.prototype`. -/
inductive ObjectMember where
  | constructor
  | defineGetter
  | defineSetter
  | hasOwnProperty
  | lookupGetter
  | lookupSetter
  | isPrototypeOf
  | propertyIsEnumerable
  | toString
  | valueOf
  | proto
  | toLocaleString
  deriving DecidableEq

namespace ObjectMember

def all : List ObjectMember :=
  [.constructor, .defineGetter, .defineSetter, .hasOwnProperty, .lookupGetter,
    .lookupSetter, .isPrototypeOf, .propertyIsEnumerable, .toString, .valueOf,
    .proto, .toLocaleString]

def name : ObjectMember → String
  | .constructor => "constructor"
  | .defineGetter => "__defineGetter__"
  | .defineSetter => "__defineSetter__"
  | .hasOwnProperty => "hasOwnProperty"
  | .lookupGetter => "__lookupGetter__"
  | .lookupSetter => "__lookupSetter__"
  | .isPrototypeOf => "isPrototypeOf"
  | .propertyIsEnumerable => "propertyIsEnumerable"
  | .toString => "toString"
  | .valueOf => "valueOf"
  | .proto => "__proto__"
  | .toLocaleString => "toLocaleString"

/-- The member, called as a function with these arguments and with `this`
undefined, returns.  Otherwise it throws a `TypeError`: the others need an
object in `this`, and `__proto__` is no function. -/
def returns (payload : Json) : ObjectMember → Bool
  | .constructor => true
  | .toString => true
  | .isPrototypeOf =>
      match payload with
      | .arr _ => false
      | .obj _ => false
      | _ => true
  | _ => false

end ObjectMember

/-- What a property of the registry may hold. -/
inductive Callee where
  | handler (handler : Handler)
  | inherited (member : ObjectMember)

def handlers : List (String × Handler) :=
  [("echo", .echo), ("http_request", .httpRequest), ("send_email", .sendEmail)]

def listHandlerTypes : List String := handlers.map Prod.fst

/-- `handlers[type]`. -/
def handlerProperty (type : String) : Option Callee :=
  ((handlers.lookup type).map .handler).or
    ((ObjectMember.all.find? (·.name = type)).map .inherited)

/-- Every value that the lookup finds is truthy. -/
def getHandler (type : String) : Except String Callee :=
  match handlerProperty type with
  | none => .error ("No handler registered for job type \"" ++ type ++
      "\". Registered types: [" ++ ", ".intercalate listHandlerTypes ++ "]")
  | some handler => .ok handler

/-- What `getHandler(job.type)` and the call of its result may do next in the
`try` block of the attempt.  The handlers of the registry may do anything. -/
def Attempt.mayDo (attempt : Attempt) (input : ExecInput) : Bool :=
  match getHandler attempt.job.type, input with
  | .error message, .failed error _ => error = message
  | .ok (.handler _), _ => true
  | .ok (.inherited member), .resolved => member.returns attempt.job.payload
  | .ok (.inherited member), .failed _ _ =>
      !member.returns attempt.job.payload
  | _, _ => false

/-- If the step is one of a handler, it is what the handler may do. -/
def Dispatched (transition : Transition State Action) : Prop :=
  ∀ {call input exec attempt}, transition.action = .exec call input →
    transition.before.calls call = some (.exec exec) →
    exec.phase = .handler attempt → attempt.mayDo input = true

/-- The type is one of the names that every object inherits. -/
def InheritedName (type : String) : Prop := ∃ member : ObjectMember,
  member.name = type

section Lookup

variable {type : String}

theorem getHandler_of_registered (registered : type ∈ listHandlerTypes) :
    ∃ handler, (type, handler) ∈ handlers ∧
      getHandler type = .ok (.handler handler) := by
  simp only [listHandlerTypes, handlers, List.map_cons, List.map_nil,
    List.mem_cons, List.not_mem_nil, or_false] at registered
  rcases registered with rfl | rfl | rfl
  · exact ⟨.echo, by decide, rfl⟩
  · exact ⟨.httpRequest, by decide, rfl⟩
  · exact ⟨.sendEmail, by decide, rfl⟩

theorem handlerProperty_of_unregistered
    (unregistered : type ∉ listHandlerTypes) :
    handlerProperty type =
      (ObjectMember.all.find? (·.name = type)).map .inherited := by
  have absent : handlers.lookup type = none := by
    apply List.lookup_eq_none_iff.mpr
    intro entry member
    have different : type ≠ entry.1 := by
      rintro rfl
      exact unregistered (List.mem_map_of_mem member)
    simpa using different
  rw [handlerProperty, absent]
  rfl

theorem getHandler_of_unknown (unregistered : type ∉ listHandlerTypes)
    (own : ¬InheritedName type) :
    ∃ message, getHandler type = .error message := by
  have absent : ObjectMember.all.find? (·.name = type) = none := by
    apply List.find?_eq_none.mpr
    intro member _ same
    exact own ⟨member, of_decide_eq_true same⟩
  rw [getHandler, handlerProperty_of_unregistered unregistered, absent]
  exact ⟨_, rfl⟩

theorem unregistered_of_inherited (inherited : InheritedName type) :
    type ∉ listHandlerTypes := by
  obtain ⟨member, rfl⟩ := inherited
  cases member <;> decide

theorem getHandler_of_inherited (inherited : InheritedName type) :
    ∃ member, getHandler type = .ok (.inherited member) := by
  rw [getHandler,
    handlerProperty_of_unregistered (unregistered_of_inherited inherited)]
  obtain ⟨member, rfl⟩ := inherited
  cases found : ObjectMember.all.find? (·.name = member.name) with
  | none =>
      have listed : member ∈ ObjectMember.all := by cases member <;> decide
      have different := List.find?_eq_none.mp found member listed
      exact absurd (decide_eq_true rfl) different
  | some other => exact ⟨other, rfl⟩

/-- Where `getHandler` throws, the attempt can only fail. -/
theorem Attempt.mayDo_of_error {attempt : Attempt} {message : String}
    {input : ExecInput} (refused : getHandler attempt.job.type = .error message)
    (may : attempt.mayDo input = true) :
    ∃ random, input = .failed message random := by
  unfold mayDo at may
  rw [refused] at may
  cases input with
  | failed error random =>
      cases of_decide_eq_true may
      exact ⟨random, rfl⟩
  | _ => cases may

end Lookup

/-! ## No success without a handler -/

/-- What a call has read is of the type of its job, and only a handler that
has resolved leads to the success transaction. -/
structure HandlersResolved (state : State) : Prop where
  typed : ∀ {call exec job}, state.calls call = some (.exec exec) →
    exec.phase.job? = some job →
    ∃ row, state.world.jobs.get? exec.jobId = some row ∧ row.type = job.type
  resolved : ∀ {call exec attempt durationMs},
    state.calls call = some (.exec exec) →
    exec.phase = .complete attempt durationMs →
    attempt.mayDo .resolved = true

section Steps

variable {env : Env} {state next : State} {action : Action}

theorem JobWrite.same_type {job : JobId} {row row' : Job}
    (write : JobWrite state job action row row') : row'.type = row.type := by
  cases write <;> rfl

theorem step_same_type (taken : step env state action = some next)
    {job : JobId} {row : Job} (found : state.world.jobs.get? job = some row) :
    ∃ row', next.world.jobs.get? job = some row' ∧ row'.type = row.type := by
  obtain ⟨row', found', same | write⟩ := step_job taken found
  · exact ⟨row', found', by rw [same]⟩
  · exact ⟨row', found', write.same_type⟩

theorem ExecStep.complete_origin {world after : World} {exec exec' : ExecCall}
    {input : ExecInput} {attempt : Attempt} {durationMs : Int}
    (case : ExecStep world exec input after (some exec'))
    (reached : exec'.phase = .complete attempt durationMs) :
    exec.phase = .handler attempt ∧ input = .resolved := by
  cases case with
  | resolved phase =>
      cases reached
      exact ⟨phase, rfl⟩
  | rejected =>
      have never : handleFailure world _ _ _ = .complete attempt durationMs :=
        reached
      unfold handleFailure at never
      dsimp only at never
      split at never <;> cases never
  | _ => cases reached

theorem HandlersResolved.step (resolved : HandlersResolved state)
    (taken : Chronos.step env state action = some next)
    (dispatched : Dispatched ⟨state, action, next⟩) :
    HandlersResolved next where
  typed := by
    intro call exec job called read
    have kept : ∀ {id : JobId},
        (∃ row, state.world.jobs.get? id = some row ∧ row.type = job.type) →
        ∃ row, next.world.jobs.get? id = some row ∧ row.type = job.type := by
      rintro id ⟨row, found, type⟩
      obtain ⟨row', found', same⟩ := step_same_type taken found
      exact ⟨row', found', same.trans type⟩
    generalize same : Call.exec exec = value at called
    cases step_call taken called with
    | kept old =>
        subst same
        exact kept (resolved.typed old read)
    | started starts =>
        cases starts with
        | request =>
            rename_i request
            cases request <;> cases same
        | _ => cases same
    | launched =>
        cases same
        cases read
    | exec old case =>
        cases same
        rw [case.same_job]
        apply kept
        rcases case.job? read with earlier | fresh
        · exact resolved.typed old earlier
        · exact ⟨job, fresh, rfl⟩
    | api old case =>
        subst same
        cases case.requests.2
    | _ => cases same
  resolved := by
    intro call exec attempt durationMs called phase
    generalize same : Call.exec exec = value at called
    cases step_call taken called with
    | kept old =>
        subst same
        exact resolved.resolved old phase
    | started starts =>
        cases starts with
        | request =>
            rename_i request
            cases request <;> cases same
        | _ => cases same
    | launched =>
        cases same
        cases phase
    | exec old case =>
        cases same
        obtain ⟨handling, rfl⟩ := case.complete_origin phase
        exact dispatched rfl old handling
    | api old case =>
        subst same
        cases case.requests.2
    | _ => cases same

/-- The step that marks a job `completed` follows the success of a handler for
its type. -/
theorem HandlersResolved.completes (resolved : HandlersResolved state)
    (taken : Chronos.step env state action = some next) {job : JobId}
    {row row' : Job} (found : state.world.jobs.get? job = some row)
    (found' : next.world.jobs.get? job = some row')
    (pending : row.status ≠ .completed) (completed : row'.status = .completed) :
    ∃ attempt : Attempt, attempt.job.type = row'.type ∧
      attempt.mayDo .resolved = true := by
  obtain ⟨other, foundOther, written⟩ := step_job taken found
  cases foundOther.symm.trans found'
  rcases written with rfl | write
  · exact absurd completed pending
  · cases write with
    | complete called isJob phase =>
        subst isJob
        obtain ⟨stored, present, type⟩ :=
          resolved.typed called (by rw [phase]; rfl)
        cases present.symm.trans found
        exact ⟨_, type.symm, resolved.resolved called phase⟩
    | _ => cases completed

end Steps

/-! ## The attempts of a refused job -/

/-- The rows are of the same type, and the same retry policy applies. -/
structure SameOrder (row row' : Job) : Prop where
  type : row'.type = row.type
  queueId : row'.queueId = row.queueId
  retryPolicyId : row'.retryPolicyId = row.retryPolicyId

/-- The attempt at the claimed row has failed and been counted. -/
structure FailureCounted (policy : RetryPolicy) (claimed row : Job) : Prop where
  order : SameOrder claimed row
  attemptCount : row.attemptCount = claimed.attemptCount + 1
  status : row.status =
    if (row.attemptCount : Int) < policy.maxAttempts then .queued
    else .deadLetter

/-- The attempt was made at the claimed row. -/
structure Attempt.Of (attempt : Attempt) (policy : RetryPolicy) (claimed : Job) :
    Prop where
  job : attempt.job = claimed
  policy : attempt.policy = policy

/-- The row of a job without a handler at each await of its `executeJob`
call. -/
def ExecPhase.Refused (policy : RetryPolicy) (claimed row : Job) :
    ExecPhase → Prop
  | .findJob => row = claimed
  | .markRunning job read =>
      SameOrder claimed row ∧ job = claimed ∧ read = policy
  | .publishRunning job read =>
      SameOrder claimed row ∧ job = claimed ∧ read = policy
  | .createExecution job read =>
      SameOrder claimed row ∧ job = claimed ∧ read = policy
  | .handler attempt => SameOrder claimed row ∧ attempt.Of policy claimed
  | .complete _ _ => False
  | .retry attempt _ _ _ =>
      SameOrder claimed row ∧ attempt.Of policy claimed ∧
        (attempt.number : Int) < policy.maxAttempts
  | .deadLetter attempt _ =>
      SameOrder claimed row ∧ attempt.Of policy claimed ∧
        ¬(attempt.number : Int) < policy.maxAttempts
  | .publish _ _ => FailureCounted policy claimed row

def Standing.Refused (policy : RetryPolicy) (claimed row : Job) :
    Standing → Prop
  | .awaiting phase => phase.Refused policy claimed row
  | .settled => FailureCounted policy claimed row
  | .stopped => True

section Refusals

variable {policy : RetryPolicy} {claimed row : Job} {job : JobId}
  {worker : WorkerId} {message : String}

theorem Attempt.Of.number {attempt : Attempt} (made : attempt.Of policy claimed) :
    attempt.number = claimed.attemptCount + 1 := by
  rw [Attempt.number, made.job]

theorem handleFailure_refused {attempt : Attempt}
    (order : SameOrder claimed row) (made : attempt.Of policy claimed)
    (world : World) (error : String) (random : Draw) :
    (handleFailure world attempt error random).Refused policy claimed row := by
  unfold handleFailure
  dsimp only
  rw [made.policy]
  split
  · exact ⟨order, made, ‹_›⟩
  · exact ⟨order, made, ‹_›⟩

theorem ExecStep.refused {world next : World} {phase : ExecPhase}
    {input : ExecInput} {exec' : Option ExecCall}
    (case : ExecStep world ⟨job, worker, phase⟩ input next exec')
    (found : world.jobs.get? job = some row)
    (refused : phase.Refused policy claimed row)
    (isPolicy : world.retryPolicyOf claimed = policy)
    (unknown : getHandler claimed.type = .error message)
    (may : ∀ attempt, phase = .handler attempt → attempt.mayDo input = true)
    (caught : phase.failureEscapes = true →
      ∀ error random, input ≠ .failed error random) :
    ∃ row', next.jobs.get? job = some row' ∧
      (Standing.ofCall exec').Refused policy claimed row' := by
  have written : ∀ {jobs : Table JobId Job} {update : Job → Job},
      jobs = world.jobs.modify job update →
      jobs.get? job = some (update row) := by
    rintro jobs update rfl
    rw [Table.get?_modify_self, found]
    rfl
  have rejects : ∀ {attempt : Attempt}, phase = .handler attempt →
      attempt.Of policy claimed → ∃ random, input = .failed message random := by
    intro attempt isHandler made
    apply Attempt.mayDo_of_error _ (may attempt isHandler)
    rw [made.job]
    exact unknown
  cases case with
  | jobMissing _ absent => exact absurd (absent.symm.trans found) nofun
  | found isPhase present =>
      cases isPhase
      cases present.symm.trans found
      have same : row = claimed := refused
      subst same
      exact ⟨row, found, ⟨rfl, rfl, rfl⟩, rfl, isPolicy⟩
  | marked isPhase =>
      cases isPhase
      obtain ⟨order, isJob, read⟩ := refused
      exact ⟨_, written rfl, ⟨order.type, order.queueId, order.retryPolicyId⟩,
        isJob, read⟩
  | announced isPhase rows =>
      cases isPhase
      exact ⟨row, by rw [rows.jobs, found], refused⟩
  | created isPhase =>
      cases isPhase
      obtain ⟨order, isJob, read⟩ := refused
      exact ⟨row, found, order, isJob, read⟩
  | logged isPhase =>
      cases isPhase
      obtain ⟨_, impossible⟩ := rejects rfl refused.2
      cases impossible
  | resolved isPhase =>
      cases isPhase
      obtain ⟨_, impossible⟩ := rejects rfl refused.2
      cases impossible
  | rejected isPhase =>
      rcases isPhase with isPhase | ⟨_, isPhase⟩ <;> cases isPhase
      · exact ⟨row, found, handleFailure_refused refused.1 refused.2 _ _ _⟩
      · cases refused
  | completed isPhase =>
      cases isPhase
      cases refused
  | retried isPhase =>
      cases isPhase
      obtain ⟨order, made, more⟩ := refused
      refine ⟨_, written rfl, ⟨order.type, order.queueId, order.retryPolicyId⟩,
        made.number, (if_pos more).symm⟩
  | deadLettered isPhase _ success =>
      cases isPhase
      obtain ⟨order, made, last⟩ := refused
      obtain ⟨_, _, _, rfl⟩ := World.commitDeadLetter_spec success
      exact ⟨_, written rfl, ⟨order.type, order.queueId, order.retryPolicyId⟩,
        made.number, (if_neg last).symm⟩
  | published isPhase rows =>
      cases isPhase
      exact ⟨row, by rw [rows.jobs, found], refused⟩
  | abandoned escapes => exact absurd rfl (caught escapes _ _)

/-- While nobody else writes the row of the job and no failure escapes, it is
left as an attempt without a handler leaves it. -/
theorem ExecRun.refused {env : Env} {start last : State} {call : CallId}
    {trace : List (Transition State Action)} {standing : Standing}
    (history : ExecRun env call job worker start trace last standing)
    (found : start.world.jobs.get? job = some claimed)
    (unknown : getHandler claimed.type = .error message)
    (dispatched : ∀ transition ∈ trace, Dispatched transition)
    (caught : ∀ transition ∈ trace, ¬Escapes call transition)
    (alone : ∀ transition ∈ trace, transition.action.actor ≠ some call →
      transition.after.world.jobs.get? job =
        transition.before.world.jobs.get? job) :
    ∃ row, last.world.jobs.get? job = some row ∧
      standing.Refused (start.world.retryPolicyOf claimed) claimed row := by
  induction history with
  | launched => exact ⟨claimed, found, rfl⟩
  | @own trace state next phase input exec' history taken case _ induction =>
      rw [List.forall_mem_append, List.forall_mem_singleton]
        at dispatched caught alone
      obtain ⟨row, present, refused⟩ :=
        induction dispatched.1 caught.1 alone.1
      have called : state.calls call = some (.exec ⟨job, worker, phase⟩) :=
        history.calls
      apply case.refused present refused (retryPolicyOf_of_run history.run _)
        unknown
      · intro attempt isHandler
        exact dispatched.2 rfl called isHandler
      · rintro escapes error random rfl
        exact caught.2 ⟨_, error, random, called, escapes, rfl⟩
  | meanwhile _ _ other _ induction =>
      rw [List.forall_mem_append, List.forall_mem_singleton]
        at dispatched caught alone
      obtain ⟨row, present, refused⟩ :=
        induction dispatched.1 caught.1 alone.1
      exact ⟨row, (alone.2 other).trans present, refused⟩
  | stopped _ _ _ induction =>
      rw [List.forall_mem_append, List.forall_mem_singleton]
        at dispatched caught alone
      obtain ⟨row, present, _⟩ := induction dispatched.1 caught.1 alone.1
      exact ⟨row, (alone.2 nofun).trans present, trivial⟩

end Refusals

/-- One attempt at a claimed job: a call of `executeJob` that settles.  Its
handler steps are those of the registry, no failure escapes, and meanwhile
nobody else writes the row. -/
def Attempted (env : Env) (job : JobId) (start last : State) : Prop :=
  ∃ call worker trace,
    ExecRun env call job worker start trace last .settled ∧
    (∀ transition ∈ trace, Dispatched transition) ∧
    (∀ transition ∈ trace, ¬Escapes call transition) ∧
    ∀ transition ∈ trace, transition.action.actor ≠ some call →
      transition.after.world.jobs.get? job =
        transition.before.world.jobs.get? job

/-- A run that takes the job from `queued` to `claimed` and leaves its row as
it is otherwise. -/
def Reclaimed (env : Env) (job : JobId) (start last : State) : Prop :=
  (∃ trace, Run (step env) start trace last) ∧
    ∃ row txNow, start.world.jobs.get? job = some row ∧
      row.status = .queued ∧
      last.world.jobs.get? job = some (row.claim txNow)

/-- So many attempts at the job, one after the other. -/
inductive Attempts (env : Env) (job : JobId) (start : State) :
    Nat → State → Prop where
  | none : Attempts env job start 0 start
  | another {count : Nat} {queued claimed last : State} :
      Attempts env job start count queued →
      Reclaimed env job queued claimed →
      Attempted env job claimed last →
      Attempts env job start (count + 1) last

/-- After so many attempts at the job all of them have failed; it is queued as
long as its policy allows another one, and then in the dead letter queue. -/
structure AttemptsFailed (first : Job) (limit : Int) (count : Nat)
    (row : Job) : Prop where
  order : SameOrder first row
  attemptCount : row.attemptCount = first.attemptCount + count
  bounded : count = 0 ∨ (first.attemptCount : Int) + count ≤
    max limit (first.attemptCount + 1)
  status : row.status =
    if count = 0 ∨ (row.attemptCount : Int) < limit then .queued
    else .deadLetter

section Attempts

variable {env : Env} {job : JobId} {start last : State} {count : Nat}
  {first row : Job} {message : String}

theorem Attempts.run (attempts : Attempts env job start count last) :
    ∃ trace, Run (step env) start trace last := by
  induction attempts with
  | none => exact ⟨[], .nil⟩
  | another _ reclaimed attempted induction =>
      obtain ⟨earlier, before⟩ := induction
      obtain ⟨⟨between, claims⟩, -⟩ := reclaimed
      obtain ⟨_, _, later, history, -⟩ := attempted
      exact ⟨_, (before.append claims).append history.run⟩

theorem SameOrder.retryPolicyOf (order : SameOrder first row) (world : World) :
    world.retryPolicyOf row = world.retryPolicyOf first := by
  simp only [World.retryPolicyOf, order.queueId, order.retryPolicyId]

theorem AttemptsFailed.another {limit : Int} {policy : RetryPolicy}
    {txNow : Time} {next : Job} (failed : AttemptsFailed first limit count row)
    (queued : row.status = .queued)
    (counted : FailureCounted policy (row.claim txNow) next)
    (isLimit : policy.maxAttempts = limit) :
    AttemptsFailed first limit (count + 1) next := by
  have number : next.attemptCount = row.attemptCount + 1 := counted.attemptCount
  have before := failed.attemptCount
  have allowed : count = 0 ∨ (row.attemptCount : Int) < limit := by
    by_contra exhausted
    have status := failed.status
    rw [if_neg exhausted, queued] at status
    cases status
  refine ⟨?_, by omega, .inr (by omega), ?_⟩
  · exact ⟨counted.order.type.trans failed.order.type,
      counted.order.queueId.trans failed.order.queueId,
      counted.order.retryPolicyId.trans failed.order.retryPolicyId⟩
  · rw [counted.status, isLimit]
    simp only [Nat.succ_ne_zero, false_or]

theorem Attempts.failed (attempts : Attempts env job start count last)
    (found : start.world.jobs.get? job = some first)
    (queued : first.status = .queued)
    (unknown : getHandler first.type = .error message) :
    ∃ row, last.world.jobs.get? job = some row ∧
      AttemptsFailed first (start.world.retryPolicyOf first).maxAttempts count
        row := by
  induction attempts with
  | none =>
      refine ⟨first, found, ⟨rfl, rfl, rfl⟩, rfl, .inl rfl, ?_⟩
      rw [queued, if_pos (.inl rfl)]
  | @another count waiting claimed last earlier reclaimed attempted
      induction =>
      obtain ⟨row, present, failed⟩ := induction
      obtain ⟨⟨between, claims⟩, row', txNow, present', waits, isClaimed⟩ :=
        reclaimed
      cases present.symm.trans present'
      obtain ⟨call, worker, trace, history, dispatched, caught, alone⟩ :=
        attempted
      have sameType : (row.claim txNow).type = first.type := failed.order.type
      obtain ⟨next, left, counted⟩ := history.refused isClaimed
        (by rw [sameType]; exact unknown) dispatched caught alone
      have order : SameOrder first (row.claim txNow) :=
        ⟨failed.order.type, failed.order.queueId, failed.order.retryPolicyId⟩
      obtain ⟨past, before⟩ := earlier.run
      have policy : claimed.world.retryPolicyOf (row.claim txNow) =
          start.world.retryPolicyOf first :=
        (order.retryPolicyOf _).trans
          (retryPolicyOf_of_run (before.append claims) first)
      exact ⟨next, left, failed.another waits counted (by rw [policy])⟩

end Attempts

/-! ## Unregistered types -/

/-- The registry knows the types that it lists and no others, and no job of
another type succeeds. -/
structure UnregisteredFails (type : String) : Prop where
  registered : type ∈ listHandlerTypes →
    ∃ handler, (type, handler) ∈ handlers ∧
      getHandler type = .ok (.handler handler)
  refused : type ∉ listHandlerTypes →
    ∃ message, getHandler type = .error message
  uncompleted : type ∉ listHandlerTypes →
    ∀ {env : Env} {first last : State} {trace : List (Transition State Action)},
      Initial first → Run (step env) first trace last →
      (∀ transition ∈ trace, Dispatched transition) →
      ∀ transition ∈ trace, ∀ {job row row'},
        transition.before.world.jobs.get? job = some row →
        transition.after.world.jobs.get? job = some row' →
        row.status ≠ .completed → row'.status = .completed → row'.type ≠ type
  buried : type ∉ listHandlerTypes →
    ∀ {env : Env} {job : JobId} {start last : State} {count : Nat} {first : Job},
      Attempts env job start count last →
      start.world.jobs.get? job = some first → first.status = .queued →
      first.type = type →
      ∃ row, last.world.jobs.get? job = some row ∧
        AttemptsFailed first (start.world.retryPolicyOf first).maxAttempts
          count row

theorem HandlersResolved.initial {first : State} (initial : Initial first) :
    HandlersResolved first := by
  constructor
  · intro call exec job called
    exact absurd ((initial.calls call).symm.trans called) nofun
  · intro call exec attempt durationMs called
    exact absurd ((initial.calls call).symm.trans called) nofun

/-- In a run whose handler steps are those of the registry, no job of a type
without a handler is marked `completed`. -/
theorem uncompleted_of_unknown {env : Env} {first last : State}
    {trace : List (Transition State Action)} {type message : String}
    (unknown : getHandler type = .error message) (initial : Initial first)
    (run : Run (step env) first trace last)
    (dispatched : ∀ transition ∈ trace, Dispatched transition)
    {transition : Transition State Action} (member : transition ∈ trace)
    {job : JobId} {row row' : Job}
    (found : transition.before.world.jobs.get? job = some row)
    (found' : transition.after.world.jobs.get? job = some row')
    (pending : row.status ≠ .completed) (completed : row'.status = .completed) :
    row'.type ≠ type := by
  rintro rfl
  obtain ⟨resolved, taken⟩ := run.invariant_before HandlersResolved dispatched
    (.initial initial)
    (fun _ dispatched taken resolved => resolved.step taken dispatched) member
  obtain ⟨attempt, sameType, may⟩ :=
    resolved.completes taken found found' pending completed
  obtain ⟨_, impossible⟩ :=
    Attempt.mayDo_of_error (by rw [sameType]; exact unknown) may
  cases impossible

/-- A type is handled as the registry lists it if and only if it is not one of
the names that every object inherits. -/
theorem unregisteredFails_iff (type : String) :
    UnregisteredFails type ↔ ¬InheritedName type := by
  constructor
  · intro fails inherited
    obtain ⟨message, refused⟩ :=
      fails.refused (unregistered_of_inherited inherited)
    obtain ⟨member, found⟩ := getHandler_of_inherited inherited
    exact absurd (found.symm.trans refused) nofun
  · intro own
    refine ⟨getHandler_of_registered, ?_, ?_, ?_⟩
    · intro unregistered
      exact getHandler_of_unknown unregistered own
    · intro unregistered env first last trace initial run dispatched transition
        member job row row' found found' pending completed
      obtain ⟨message, unknown⟩ := getHandler_of_unknown unregistered own
      exact uncompleted_of_unknown unknown initial run dispatched member found
        found' pending completed
    · intro unregistered env job start last count first attempts found queued
        isType
      obtain ⟨message, unknown⟩ := getHandler_of_unknown unregistered own
      exact attempts.failed found queued (isType ▸ unknown)

/-- The request that submits a job of type `constructor`. -/
def submitConstructor : List Action :=
  [.request 5 (.submit 0
      ⟨"constructor", [], none, none, none, none, none⟩),
    .api 5 .ok, .api 5 (.created [7]), .api 5 .ok]

/-- The decidable form of `Dispatched`. -/
def dispatchedNow (transition : Transition State Action) : Bool :=
  match transition.action with
  | .exec call input =>
      match transition.before.calls call with
      | some (.exec ⟨_, _, .handler attempt⟩) => attempt.mayDo input
      | _ => true
  | _ => true

theorem dispatched_of_now {transition : Transition State Action}
    (now : dispatchedNow transition = true) : Dispatched transition := by
  intro call input exec attempt action called phase
  obtain ⟨job, worker, _⟩ := exec
  cases phase
  simpa only [dispatchedNow, action, called] using now

/-- The API accepts a job of type `constructor`; the lookup finds the function
`Object`, which returns, and the job is marked `completed`. -/
theorem constructor_completes :
    "constructor" ∉ listHandlerTypes ∧
    ∃ trace last row,
      Initial (World.sample 1 .empty).idle ∧
      Run (step .sample) (World.sample 1 .empty).idle trace last ∧
      (∀ transition ∈ trace, Dispatched transition) ∧
      last.world.jobs.get? 7 = some row ∧ row.type = "constructor" ∧
      row.status = .completed := by
  refine ⟨by decide, ?_⟩
  obtain ⟨trace, last, run, dispatched, type, completed⟩ :=
    exists_run_of_check (step .sample) (World.sample 1 .empty).idle
      (submitConstructor ++ claimActions 1 1 [7] ++ executeActions 1 2 0 ++
        ([.exec 2 .resolved, .exec 2 .ok] : List Action))
      (fun trace last =>
        (∀ transition ∈ trace, dispatchedNow transition = true) ∧
        (last.world.jobs.get? 7).map (·.type) = some "constructor" ∧
        last.status? 7 = some .completed)
      (by decide)
  obtain ⟨row, found, isType⟩ := Option.map_eq_some_iff.mp type
  obtain ⟨row', found', isCompleted⟩ := Option.map_eq_some_iff.mp completed
  cases found.symm.trans found'
  exact ⟨trace, last, row, World.idle_initial fun _ => rfl, run,
    fun transition member => dispatched_of_now (dispatched transition member),
    found, isType, isCompleted⟩

end Chronos
