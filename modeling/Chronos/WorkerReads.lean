import Chronos.Isolation
import Chronos.HeartbeatHistory
import Chronos.JobReads
import Chronos.Lib.Retention

/-!
# The worker endpoints

`GET /workers`, `GET /workers/:id` and `GET /workers/:id/heartbeats` of
`api/src/routes/workers.ts`, from the point where `requireAuth` has let the
request through.  They read the pruned table of heartbeats, but none of them
reads more samples of a worker than a prune leaves: what they show is what they
would show of the whole history.
-/

namespace Chronos

/-- The query string of `GET /workers`. -/
structure WorkerListQuery where
  status : Option String
  page : Option String
  limit : Option String

inductive WorkerRequest where
  | workers (query : WorkerListQuery)
  | worker (id : WorkerId)
  | heartbeats (id : WorkerId)

/-- The orders in which the database returns the rows of the queries. -/
structure WorkerOrders where
  workers : List WorkerId
  executions : List ExecutionId
  heartbeatsOf : WorkerId → List HeartbeatId

structure WorkerItem where
  id : WorkerId
  hostname : String
  pid : Int
  status : WorkerStatus
  startedAt : Time
  lastHeartbeatAt : Time
  activeJobCount : Nat
  cpuLoad : Option Rat
  lastHeartbeatTimestamp : Option Time

structure HeartbeatItem where
  id : HeartbeatId
  activeJobCount : Nat
  cpuLoad : Option Rat
  timestamp : Time

structure RecentExecution where
  id : ExecutionId
  jobId : JobId
  attemptNumber : Nat
  status : ExecutionStatus
  startedAt : Time
  finishedAt : Option Time
  durationMs : Option Int
  errorMessage : Option String

structure WorkerDetail where
  id : WorkerId
  hostname : String
  pid : Int
  status : WorkerStatus
  startedAt : Time
  lastHeartbeatAt : Time
  totalExecutions : Nat
  recentHeartbeats : List HeartbeatItem
  recentExecutions : List RecentExecution

inductive WorkerBody where
  | workers (data : List WorkerItem) (pagination : PaginationMeta)
  | worker (detail : WorkerDetail)
  | heartbeats (data : List (WorkerId × HeartbeatItem))

abbrev WorkerReply := Except ChronosError WorkerBody

/-- The reply to a request that its JSON schema excludes. -/
def requestInvalid : ChronosError :=
  ⟨"VALIDATION_ERROR", "Request validation failed", 400⟩

def workerNotFound : WorkerReply := .error (notFoundError "Worker not found")

namespace WorkerStatus

def text : WorkerStatus → String
  | .active => "active"
  | .draining => "draining"
  | .dead => "dead"

/-- `enum: ["active", "draining", "dead"]` of the query string's schema. -/
def ofText? (text : String) : Option WorkerStatus :=
  [active, draining, dead].find? fun status => status.text = text

/-- The enumeration's order in the database. -/
def rank : WorkerStatus → Nat
  | .active => 0
  | .draining => 1
  | .dead => 2

end WorkerStatus

/-- `orderBy: [{ status: "asc" }, { lastHeartbeatAt: "desc" }]`. -/
def WorkerRow.before (left right : WorkerRow) : Bool :=
  left.status.rank < right.status.rank ||
    (left.status.rank = right.status.rank &&
      right.lastHeartbeatAt ≤ left.lastHeartbeatAt)

def WorkerRow.sortKey (row : WorkerRow) : Nat ×ₗ Int :=
  toLex (row.status.rank, -row.lastHeartbeatAt)

theorem WorkerRow.before_iff (left right : WorkerRow) :
    left.before right = true ↔ left.sortKey ≤ right.sortKey := by
  simp only [WorkerRow.before, Bool.or_eq_true, Bool.and_eq_true,
    decide_eq_true_eq, WorkerRow.sortKey, Prod.Lex.toLex_le_toLex,
    Int.neg_le_neg_iff]

/-- The filter of a valid query; `none` for a query that is not. -/
def WorkerListQuery.statusFilter (query : WorkerListQuery) :
    Option (Option WorkerStatus) :=
  match query.status with
  | none => some none
  | some text => (WorkerStatus.ofText? text).map some

/-- `orderBy: { startedAt: "desc" }`. -/
def startedLater (left right : JobExecution) : Bool :=
  right.startedAt ≤ left.startedAt

theorem WorkerHeartbeat.latestFirst_trans (a b c : WorkerHeartbeat)
    (first : a.latestFirst b = true) (second : b.latestFirst c = true) :
    a.latestFirst c = true := by
  simp only [latestFirst, decide_eq_true_eq] at first second ⊢
  exact Int.le_trans second first

abbrev Sample := HeartbeatId × WorkerHeartbeat

def HeartbeatItem.ofSample (sample : Sample) : HeartbeatItem :=
  ⟨sample.1, sample.2.activeJobCount, sample.2.cpuLoad, sample.2.timestamp⟩

/-- `orderBy: { timestamp: "desc" }, take`. -/
def newestSamples (heartbeats : Table HeartbeatId WorkerHeartbeat)
    (worker : WorkerId) (take : Nat) (orders : WorkerOrders) :
    Option (List Sample) :=
  heartbeats.findMany (WorkerHeartbeat.ofWorker worker)
    WorkerHeartbeat.latestFirst 0 take (orders.heartbeatsOf worker)

/-- A worker as `GET /workers` shows it with its newest samples. -/
def WorkerItem.of (id : WorkerId) (row : WorkerRow) (newest : List Sample) :
    WorkerItem where
  id := id
  hostname := row.hostname
  pid := row.pid
  status := row.status
  startedAt := row.startedAt
  lastHeartbeatAt := row.lastHeartbeatAt
  activeJobCount := (newest.head?.map (·.2.activeJobCount)).getD 0
  cpuLoad := newest.head?.bind (·.2.cpuLoad)
  lastHeartbeatTimestamp := newest.head?.map (·.2.timestamp)

/-- A worker as `GET /workers/:id` shows it. -/
def WorkerDetail.of (id : WorkerId) (row : WorkerRow) (total : Nat)
    (newest : List Sample) (executions : List (ExecutionId × JobExecution)) :
    WorkerDetail where
  id := id
  hostname := row.hostname
  pid := row.pid
  status := row.status
  startedAt := row.startedAt
  lastHeartbeatAt := row.lastHeartbeatAt
  totalExecutions := total
  recentHeartbeats := newest.map .ofSample
  recentExecutions := executions.map fun execution =>
    ⟨execution.1, execution.2.jobId, execution.2.attemptNumber,
      execution.2.status, execution.2.startedAt, execution.2.finishedAt,
      execution.2.durationMs, execution.2.errorMessage⟩

namespace Database

section Handlers

variable (db : Database) (heartbeats : Table HeartbeatId WorkerHeartbeat)

def getWorkers (prisma : Prisma) (query : WorkerListQuery)
    (orders : WorkerOrders) : Option WorkerReply :=
  let asked := parsePagination query.page query.limit
  match query.statusFilter with
  | none => some (.error requestInvalid)
  | some status =>
      if prisma.acceptsSkip asked.skip then
        let condition := fun (_ : WorkerId) (row : WorkerRow) =>
          status.all (row.status = ·)
        (db.workers.findMany condition WorkerRow.before asked.skip asked.limit
            orders.workers).bind fun workers =>
          (workers.mapM fun worker =>
              (newestSamples heartbeats worker.1 1 orders).map
                (WorkerItem.of worker.1 worker.2)).map fun data =>
            .ok (.workers data (buildMeta (db.workers.count condition)
              asked.page asked.limit))
      else some (.error internalError)

def getWorker (id : WorkerId) (orders : WorkerOrders) : Option WorkerReply :=
  match db.workers.get? id with
  | none => some workerNotFound
  | some row =>
      let condition := fun (_ : ExecutionId) (execution : JobExecution) =>
        decide (execution.workerId = id)
      (newestSamples heartbeats id 5 orders).bind fun newest =>
        (db.executions.findMany condition startedLater 0 10
            orders.executions).map fun executions =>
          .ok (.worker (.of id row (db.executions.count condition) newest
            executions))

def getWorkerHeartbeats (id : WorkerId) (orders : WorkerOrders) :
    Option WorkerReply :=
  match db.workers.get? id with
  | none => some workerNotFound
  | some _ =>
      (newestSamples heartbeats id 20 orders).map fun newest =>
        .ok (.heartbeats (newest.map fun sample =>
          (sample.2.workerId, .ofSample sample)))

def readWorkers (prisma : Prisma) (request : WorkerRequest)
    (orders : WorkerOrders) : Option WorkerReply :=
  match request with
  | .workers query => db.getWorkers heartbeats prisma query orders
  | .worker id => db.getWorker heartbeats id orders
  | .heartbeats id => db.getWorkerHeartbeats heartbeats id orders

end Handlers

theorem exists_sampleOrder (heartbeats : Table HeartbeatId WorkerHeartbeat) :
    ∃ order : WorkerId → List HeartbeatId, ∀ worker take, ∃ answer,
      heartbeats.findMany (WorkerHeartbeat.ofWorker worker)
        WorkerHeartbeat.latestFirst 0 take (order worker) = some answer := by
  have ordered : ∀ worker, ∃ order, ∀ skip take, ∃ answer,
      heartbeats.findMany (WorkerHeartbeat.ofWorker worker)
        WorkerHeartbeat.latestFirst skip take order = some answer := by
    intro worker
    apply heartbeats.exists_findMany
    · exact WorkerHeartbeat.latestFirst_trans
    · intro a b
      simp only [WorkerHeartbeat.latestFirst, decide_eq_true_eq]
      exact Int.le_total _ _
  choose order pages using ordered
  exact ⟨order, fun worker take => pages worker 0 take⟩

theorem exists_orders_workers (db : Database)
    (condition : WorkerId → WorkerRow → Bool) :
    ∃ order, ∀ skip take, ∃ answer,
      db.workers.findMany condition WorkerRow.before skip take order =
        some answer := by
  apply db.workers.exists_findMany
  · intro a b c
    simp only [WorkerRow.before_iff]
    exact le_trans
  · intro a b
    simp only [WorkerRow.before_iff]
    exact le_total _ _

theorem exists_orders_started (db : Database)
    (condition : ExecutionId → JobExecution → Bool) :
    ∃ order, ∀ skip take, ∃ answer,
      db.executions.findMany condition startedLater skip take order =
        some answer := by
  apply db.executions.exists_findMany
  · intro a b c first second
    simp only [startedLater, decide_eq_true_eq] at first second ⊢
    exact Int.le_trans second first
  · intro a b
    simp only [startedLater, decide_eq_true_eq]
    exact Int.le_total _ _

theorem exists_readWorkers (db : Database)
    (heartbeats : Table HeartbeatId WorkerHeartbeat) (prisma : Prisma)
    (request : WorkerRequest) :
    ∃ orders reply,
      db.readWorkers heartbeats prisma request orders = some reply := by
  obtain ⟨sampleOrder, samples⟩ := exists_sampleOrder heartbeats
  cases request with
  | workers query =>
      simp only [readWorkers, getWorkers]
      cases query.statusFilter with
      | none => exact ⟨⟨[], [], sampleOrder⟩, _, rfl⟩
      | some status =>
          obtain ⟨order, pages⟩ := db.exists_orders_workers
            fun _ row => status.all (row.status = ·)
          obtain ⟨workers, answered⟩ := pages
            (parsePagination query.page query.limit).skip
            (parsePagination query.page query.limit).limit
          have items : ∀ worker ∈ workers, ∃ item,
              (newestSamples heartbeats worker.1 1 ⟨order, [], sampleOrder⟩).map
                (WorkerItem.of worker.1 worker.2) = some item := by
            intro worker _
            obtain ⟨shown, found⟩ := samples worker.1 1
            simp only [newestSamples, found]
            exact ⟨_, rfl⟩
          obtain ⟨data, collected⟩ := List.exists_mapM_option items
          refine ⟨⟨order, [], sampleOrder⟩, ?_⟩
          dsimp only
          split
          · rw [answered, Option.bind_some, collected]
            exact ⟨_, rfl⟩
          · exact ⟨_, rfl⟩
  | worker id =>
      simp only [readWorkers, getWorker]
      cases db.workers.get? id with
      | none => exact ⟨⟨[], [], sampleOrder⟩, _, rfl⟩
      | some row =>
          obtain ⟨order, pages⟩ := db.exists_orders_started
            fun _ execution => execution.workerId = id
          obtain ⟨executions, answered⟩ := pages 0 10
          obtain ⟨shown, found⟩ := samples id 5
          refine ⟨⟨[], order, sampleOrder⟩, ?_⟩
          simp only [newestSamples, found, Option.bind_some, answered]
          exact ⟨_, rfl⟩
  | heartbeats id =>
      simp only [readWorkers, getWorkerHeartbeats]
      cases db.workers.get? id with
      | none => exact ⟨⟨[], [], sampleOrder⟩, _, rfl⟩
      | some row =>
          obtain ⟨shown, found⟩ := samples id 20
          refine ⟨⟨[], [], sampleOrder⟩, ?_⟩
          simp only [newestSamples, found]
          exact ⟨_, rfl⟩

end Database

/-! ## The whole history -/

/-- The sample that an action inserts. -/
def HeartbeatAction.inserts (state : HeartbeatState) :
    HeartbeatAction → Option Sample
  | .write call (.created id timestamp) =>
      match state.writes call with
      | some ⟨worker, activeJobCount, cpuLoad, .createHeartbeat⟩ =>
          some (id, ⟨worker, timestamp, activeJobCount, some cpuLoad⟩)
      | _ => none
  | _ => none

/-- The samples of a worker that there are at the start or that are inserted
during a run, whether they have been pruned or not. -/
def everySample (start : HeartbeatState)
    (trace : List (Transition HeartbeatState HeartbeatAction))
    (worker : WorkerId) : List Sample :=
  start.heartbeats.entriesWhere (WorkerHeartbeat.ofWorker worker) ++
    (trace.filterMap fun transition =>
      transition.action.inserts transition.before).filter fun sample =>
        WorkerHeartbeat.ofWorker worker sample.1 sample.2

section Run

variable {env : Env} {state next start last : HeartbeatState}
  {action : HeartbeatAction} {worker : WorkerId}
  {trace : List (Transition HeartbeatState HeartbeatAction)}

/-- What a step does to the table of samples. -/
inductive SampleStep (state : HeartbeatState) (action : HeartbeatAction)
    (heartbeats : Table HeartbeatId WorkerHeartbeat) : Prop where
  | kept :
      action.inserts state = none → heartbeats = state.heartbeats →
      SampleStep state action heartbeats
  | inserted {sample : Sample} :
      action.inserts state = some sample →
      state.heartbeats.insert? sample.1 sample.2 = some heartbeats →
      SampleStep state action heartbeats
  | pruned {worker : WorkerId} {order : List HeartbeatId} :
      action.inserts state = none →
      state.heartbeats.keepFirst (WorkerHeartbeat.ofWorker worker)
        WorkerHeartbeat.latestFirst 100 order = some heartbeats →
      SampleStep state action heartbeats

theorem heartbeatStep_samples
    (taken : heartbeatStep env state action = some next) :
    SampleStep state action next.heartbeats := by
  cases action with
  | system action =>
      obtain ⟨system, _, rfl⟩ := Option.map_eq_some_iff.mp taken
      exact .kept rfl rfl
  | startWrite call worker activeJobCount cpuLoad =>
      simp only [heartbeatStep] at taken
      split at taken
      · cases taken
        exact .kept rfl rfl
      · cases taken
  | write call input =>
      obtain ⟨⟨worker, count, load, phase⟩, system, heartbeats, after, found,
        wrote, rfl⟩ := heartbeatStep_write taken
      cases wrote with
      | updated => exact .kept rfl rfl
      | @created id timestamp _ isPhase inserted =>
          cases isPhase
          have inserts : (HeartbeatAction.write call
              (.created id timestamp)).inserts state =
                some (id, ⟨worker, timestamp, count, some load⟩) := by
            simp [HeartbeatAction.inserts, found]
          exact .inserted inserts inserted
      | pruned _ kept => exact .pruned rfl kept
      | published => exact .kept rfl rfl
      | failed => exact .kept rfl rfl

/-- One step: a sample is inserted, or all but the newest hundred of a worker
are deleted. -/
theorem retains_step {whole : List Sample}
    (retains : Retains (Table.beforeEntry WorkerHeartbeat.latestFirst) 100
      whole (state.heartbeats.entriesWhere (WorkerHeartbeat.ofWorker worker)))
    (taken : heartbeatStep env state action = some next) :
    Retains (Table.beforeEntry WorkerHeartbeat.latestFirst) 100
      (whole ++ (action.inserts state).toList.filter fun sample =>
        WorkerHeartbeat.ofWorker worker sample.1 sample.2)
      (next.heartbeats.entriesWhere (WorkerHeartbeat.ofWorker worker)) := by
  cases heartbeatStep_samples taken with
  | kept silent same =>
      rw [silent, same]
      simpa using retains
  | @inserted sample inserts inserted =>
      rw [inserts, Table.entriesWhere_insert? inserted, Option.toList_some]
      cases own : WorkerHeartbeat.ofWorker worker sample.1 sample.2 with
      | false => simpa [own] using retains
      | true => simpa [own] using retains.add sample
  | @pruned other order silent kept =>
      rw [silent, Option.toList_none, List.filter_nil, List.append_nil]
      by_cases own : other = worker
      · subst other
        apply retains.keep (Table.beforeEntry_trans
          WorkerHeartbeat.latestFirst_trans)
        exact Table.foremost_of_keepFirst kept
      · apply retains.perm (.refl _)
        apply Table.SameWhere.entriesWhere_perm
        intro id row
        rw [Table.get?_keepFirst_eq_some_iff kept]
        have others : WorkerHeartbeat.ofWorker worker id row = true →
            ¬WorkerHeartbeat.ofWorker other id row = true := by
          intro isOwn isOther
          have same := of_decide_eq_true isOwn
          exact own ((of_decide_eq_true isOther).symm.trans same)
        constructor
        · intro found
          exact ⟨⟨found.1, fun isOther =>
            absurd isOther (others found.2)⟩, found.2⟩
        · intro found
          exact ⟨found.1.1, found.2⟩

/-- At any time the table has all samples of a worker but some for each of
which it has a hundred that are no older. -/
theorem retains_run
    (run : Run (heartbeatStep env) start trace last)
    (worker : WorkerId) :
    Retains (Table.beforeEntry WorkerHeartbeat.latestFirst) 100
      (everySample start trace worker)
      (last.heartbeats.entriesWhere (WorkerHeartbeat.ofWorker worker)) := by
  induction run with
  | nil => simpa [everySample] using Retains.refl _
  | @snoc trace middle last action run taken ih =>
      have after := retains_step ih taken
      have whole : everySample start (trace ++ [⟨middle, action, last⟩])
          worker = everySample start trace worker ++
          (action.inserts middle).toList.filter fun sample =>
            WorkerHeartbeat.ofWorker worker sample.1 sample.2 := by
        simp only [everySample, List.filterMap_append, List.filter_append,
          List.append_assoc]
        cases inserts : action.inserts middle <;> simp [inserts]
      rw [whole]
      exact after

end Run

/-! ## What the endpoints show -/

/-- The first samples of a list from the newest on. -/
structure Newest (take : Nat) (whole shown : List Sample) : Prop where
  foremost : Foremost (Table.beforeEntry WorkerHeartbeat.latestFirst) take
    whole shown
  sorted : shown.Pairwise fun left right =>
    Table.beforeEntry WorkerHeartbeat.latestFirst left right = true

/-- The answer shows the newest of all these samples: one of each worker in a
list, five of a single worker, and twenty in the list of its heartbeats. -/
def WorkerRequest.ShowsNewest (whole : WorkerId → List Sample) :
    WorkerRequest → WorkerBody → Prop
  | .workers _, .workers data _ =>
      ∀ item ∈ data, ∃ row shown, Newest 1 (whole item.id) shown ∧
        item = .of item.id row shown
  | .worker id, .worker detail =>
      ∃ shown, Newest 5 (whole id) shown ∧
        detail.recentHeartbeats = shown.map .ofSample
  | .heartbeats id, .heartbeats data =>
      ∃ shown, Newest 20 (whole id) shown ∧
        data = shown.map fun sample => (id, .ofSample sample)
  | _, _ => False

section Shown

variable {env : Env} {start last : HeartbeatState}
  {trace : List (Transition HeartbeatState HeartbeatAction)}

/-- A query for at most a hundred samples has the newest that there ever
were. -/
theorem newestSamples_run (run : Run (heartbeatStep env) start trace last)
    {worker : WorkerId} {take : Nat} (few : take ≤ 100)
    {orders : WorkerOrders} {shown : List Sample}
    (answered : newestSamples last.heartbeats worker take orders =
      some shown) : Newest take (everySample start trace worker) shown := by
  obtain ⟨foremost, sorted⟩ := Table.foremost_of_findMany answered
  refine ⟨?_, sorted⟩
  exact (retains_run run worker).foremost
    (Table.beforeEntry_trans WorkerHeartbeat.latestFirst_trans) few foremost

theorem ofWorker_of_newestSamples
    {heartbeats : Table HeartbeatId WorkerHeartbeat} {worker : WorkerId}
    {take : Nat} {orders : WorkerOrders} {shown : List Sample}
    (answered : newestSamples heartbeats worker take orders = some shown)
    {sample : Sample} (member : sample ∈ shown) :
    sample.2.workerId = worker :=
  of_decide_eq_true (Table.mem_findMany answered member).2

theorem showsNewest_getWorkers {prisma : Prisma} {db : Database}
    {query : WorkerListQuery} {orders : WorkerOrders} {body : WorkerBody}
    (run : Run (heartbeatStep env) start trace last)
    (answered : db.getWorkers last.heartbeats prisma query orders =
      some (.ok body)) :
    (WorkerRequest.workers query).ShowsNewest (everySample start trace)
      body := by
  simp only [Database.getWorkers] at answered
  split at answered
  · cases answered
  · split at answered
    · obtain ⟨workers, _, rest⟩ := Option.bind_eq_some_iff.mp answered
      obtain ⟨data, collected, same⟩ := Option.map_eq_some_iff.mp rest
      cases same
      intro item member
      obtain ⟨worker, _, shows⟩ := List.exists_of_mem_mapM_option collected member
      obtain ⟨shown, found, rfl⟩ := Option.map_eq_some_iff.mp shows
      exact ⟨worker.2, shown, newestSamples_run run (by decide) found, rfl⟩
    · cases answered

theorem showsNewest_getWorker {db : Database} {id : WorkerId}
    {orders : WorkerOrders} {body : WorkerBody}
    (run : Run (heartbeatStep env) start trace last)
    (answered : db.getWorker last.heartbeats id orders = some (.ok body)) :
    (WorkerRequest.worker id).ShowsNewest (everySample start trace) body := by
  unfold Database.getWorker at answered
  split at answered
  · cases answered
  · obtain ⟨shown, found, rest⟩ := Option.bind_eq_some_iff.mp answered
    obtain ⟨executions, _, same⟩ := Option.map_eq_some_iff.mp rest
    cases same
    exact ⟨shown, newestSamples_run run (by decide) found, rfl⟩

theorem showsNewest_getWorkerHeartbeats {db : Database} {id : WorkerId}
    {orders : WorkerOrders} {body : WorkerBody}
    (run : Run (heartbeatStep env) start trace last)
    (answered : db.getWorkerHeartbeats last.heartbeats id orders =
      some (.ok body)) :
    (WorkerRequest.heartbeats id).ShowsNewest (everySample start trace)
      body := by
  unfold Database.getWorkerHeartbeats at answered
  split at answered
  · cases answered
  · obtain ⟨shown, found, same⟩ := Option.map_eq_some_iff.mp answered
    cases same
    refine ⟨shown, newestSamples_run run (by decide) found, ?_⟩
    apply List.map_congr_left
    intro sample member
    rw [ofWorker_of_newestSamples found member]

/-- Nobody sees the prunes: at any time of any run, whatever the writes of the
workers and their prunes have done, a request about workers gets an answer, and
it shows the newest of all samples that were ever written. -/
theorem prunes_not_shown (run : Run (heartbeatStep env) start trace last)
    (prisma : Prisma) (columns : ApiColumns) (request : WorkerRequest) :
    (∃ orders reply, (last.system.world.database columns).readWorkers
      last.heartbeats prisma request orders = some reply) ∧
    ∀ orders body, (last.system.world.database columns).readWorkers
        last.heartbeats prisma request orders = some (.ok body) →
      request.ShowsNewest (everySample start trace) body := by
  refine ⟨Database.exists_readWorkers _ _ _ _, ?_⟩
  intro orders body answered
  cases request with
  | workers query => exact showsNewest_getWorkers run answered
  | worker id => exact showsNewest_getWorker run answered
  | heartbeats id => exact showsNewest_getWorkerHeartbeats run answered

/-- Worker 1 has written 101 samples, and the table has lost the first. -/
theorem prunes_not_shown_pruned : ∃ trace last,
    Run (heartbeatStep .sample) .fullHistory trace last ∧
    (everySample .fullHistory trace 1).length = 101 ∧
    last.heartbeats.get? 0 = none ∧
    ∃ body : WorkerBody, (last.system.world.database .twoOrgs).readWorkers
        last.heartbeats ⟨fun _ => true⟩ (.heartbeats 1)
        ⟨[], [], fun _ => HeartbeatState.newestOrder.take 100⟩ =
          some (.ok body) ∧
      (WorkerRequest.heartbeats 1).ShowsNewest (everySample .fullHistory trace)
        body := by
  have recorded : ∃ trace last,
      record (heartbeatStep .sample) .fullHistory
        [.startWrite 9 1 0 0, .write 9 .ok, .write 9 (.created 101 50),
          .write 9 (.deleted HeartbeatState.newestOrder)] =
            some (trace, last) ∧
      (everySample .fullHistory trace 1).length = 101 ∧
      last.heartbeats.get? 0 = none ∧
      ∃ body : WorkerBody, (last.system.world.database .twoOrgs).readWorkers
        last.heartbeats ⟨fun _ => true⟩ (.heartbeats 1)
        ⟨[], [], fun _ => HeartbeatState.newestOrder.take 100⟩ =
          some (.ok body) :=
    ⟨_, _, rfl, rfl, rfl, _, rfl⟩
  obtain ⟨trace, last, recorded, samples, deleted, body, answered⟩ := recorded
  have run := Run.of_record recorded
  refine ⟨trace, last, run, samples, deleted, body, answered, ?_⟩
  exact (prunes_not_shown run _ _ _).2 _ _ answered

end Shown

end Chronos
