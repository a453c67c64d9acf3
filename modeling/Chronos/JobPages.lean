import Chronos.Isolation

/-!
# All pages of `GET /jobs`

A client that turns the pages of `GET /jobs` sends one query for each page,
and the database orders the jobs anew for each of them.  Jobs with the same
priority and the same times may change places from one query to the next.
-/

namespace Chronos

/-- The same query for another page. -/
def JobListQuery.atPage (query : JobListQuery) (number : Nat) : JobListQuery :=
  { query with page := some (toString number) }

/-- The query without filters. -/
def JobListQuery.ofLimit (limit : String) : JobListQuery :=
  ⟨none, none, none, none, none, some limit⟩

/-- The length of a page under this query. -/
def JobListQuery.pageLimit (query : JobListQuery) : Nat :=
  (parsePagination query.page query.limit).limit

/-- The ids of the jobs in an answer to `GET /jobs`. -/
def listedIds : ReadReply → List JobId
  | .ok (.jobs data _) => data.map (·.id)
  | _ => []

namespace Database

/-- The jobs that the user sees under the filters of the query; there are none
under a status that does not exist. -/
def matching (db : Database) (user : UserId) (query : JobListQuery)
    (row : JobRow) : Bool :=
  query.statusFilter.any fun status => db.listed user query status row

/-- How many jobs match the query. -/
def total (db : Database) (user : UserId) (query : JobListQuery) : Nat :=
  db.jobs.count fun _ row => db.matching user query row

/-- However the database orders the jobs for each page, the pages hold every
matching job exactly once, and no jobs follow on later ones: these are empty or
refused by the database client. -/
def ExactPages (prisma : Prisma) (db : Database) (user : UserId)
    (query : JobListQuery) : Prop :=
  let pagination := buildMeta (db.total user query) 1 query.pageLimit
  ∀ replies : Nat → ReadReply,
    (∀ number, 1 ≤ number →
      db.Answers prisma user (.jobs (query.atPage number)) (replies number)) →
    (∀ number, 1 ≤ number → number ≤ pagination.totalPages →
      ∃ data, replies number =
        .ok (.jobs data { pagination with page := number })) ∧
    ((List.range' 1 pagination.totalPages).flatMap fun number =>
      listedIds (replies number)).Perm
        (db.jobs.keysWhere fun _ row => db.matching user query row) ∧
    ∀ number, pagination.totalPages < number → listedIds (replies number) = []

/-- The matching jobs that compare equal under the sort keys lie on one page,
for every such group. -/
def TiesOnOnePage (db : Database) (user : UserId) (query : JobListQuery) :
    Prop :=
  ∀ id row, db.jobs.get? id = some row → db.matching user query row = true →
    (db.jobs.count fun _ other => db.matching user query other &&
        decide (other.sortKey < row.sortKey)) / query.pageLimit =
      ((db.jobs.count fun _ other => db.matching user query other &&
        decide (other.sortKey ≤ row.sortKey)) - 1) / query.pageLimit

/-- The sort key of a job; the value for other ids does not matter. -/
def sortKeyOf (db : Database) (id : JobId) : Int ×ₗ Int ×ₗ Int :=
  ((db.jobs.get? id).map JobRow.sortKey).getD (toLex (0, toLex (0, 0)))

theorem sortKeyOf_eq {db : Database} {id : JobId} {row : JobRow}
    (found : db.jobs.get? id = some row) : db.sortKeyOf id = row.sortKey := by
  rw [sortKeyOf, found]
  rfl

section Query

variable {prisma : Prisma} {db : Database} {user : UserId}
  {query : JobListQuery}

theorem matching_of_statusFilter {status : Option JobStatus}
    (filter : query.statusFilter = some status) :
    db.matching user query = db.listed user query status := by
  funext row
  rw [matching, filter]
  rfl

/-- The orders of the matching jobs are the arrangements by their sort
keys. -/
theorem orders_matching_iff {order : List JobId} :
    db.jobs.orders (fun _ row => db.matching user query row) JobRow.before
        order = true ↔
      Pages.Arranged db.sortKeyOf
        (db.jobs.keysWhere fun _ row => db.matching user query row) order :=
  Table.orders_iff_arranged JobRow.before_iff
    (fun _ _ found => db.sortKeyOf_eq found)

theorem tiesOnOnePage_iff :
    db.TiesOnOnePage user query ↔
      Pages.Unsplit db.sortKeyOf query.pageLimit
        (db.jobs.keysWhere fun _ row => db.matching user query row) := by
  have less : ∀ row : JobRow,
      (db.jobs.keysWhere fun _ other => db.matching user query other).countP
          (fun id => db.sortKeyOf id < row.sortKey) =
        db.jobs.count fun _ other => db.matching user query other &&
          decide (other.sortKey < row.sortKey) := by
    intro row
    apply Table.countP_keysWhere
    intro id other found
    rw [sortKeyOf_eq found]
  have atMost : ∀ row : JobRow,
      (db.jobs.keysWhere fun _ other => db.matching user query other).countP
          (fun id => db.sortKeyOf id ≤ row.sortKey) =
        db.jobs.count fun _ other => db.matching user query other &&
          decide (other.sortKey ≤ row.sortKey) := by
    intro row
    apply Table.countP_keysWhere
    intro id other found
    rw [sortKeyOf_eq found]
  constructor
  · intro ties id member
    obtain ⟨row, found, matched⟩ := Table.mem_keysWhere.mp member
    unfold Pages.firstPage Pages.lastPage
    rw [sortKeyOf_eq found, less, atMost, ties id row found matched]
  · intro unsplit id row found matched
    have same := unsplit id (Table.mem_keysWhere.mpr ⟨row, found, matched⟩)
    unfold Pages.firstPage Pages.lastPage at same
    rw [sortKeyOf_eq found, less, atMost] at same
    exact Nat.add_right_cancel same

/-- A matching job has a queue, so no row of the answer is dropped. -/
theorem map_id_jobSummary {ids : List JobId}
    (matched : ∀ id ∈ ids,
      id ∈ db.jobs.keysWhere fun _ row => db.matching user query row) :
    (ids.filterMap fun id =>
      (db.jobs.get? id).bind (db.jobSummary id)).map (·.id) = ids := by
  have summaries : ∀ id ∈ ids,
      ((db.jobs.get? id).bind (db.jobSummary id)).map (·.id) = some id := by
    intro id member
    obtain ⟨row, found, visible⟩ := Table.mem_keysWhere.mp (matched id member)
    obtain ⟨status, _, listed⟩ := (Option.any_eq_true _ _).mp visible
    have ofQueue := (Bool.and_eq_true_iff.mp listed).1
    obtain ⟨org, isOrg, _⟩ := (Option.any_eq_true _ _).mp ofQueue
    obtain ⟨queue, isQueue, _⟩ := Option.bind_eq_some_iff.mp isOrg
    rw [found, Option.bind_some, jobSummary, isQueue]
    rfl
  rw [List.map_filterMap, List.filterMap_congr summaries,
    List.filterMap_some]

/-- The answer with the page of this number of an order. -/
def pageReply (db : Database) (user : UserId) (query : JobListQuery)
    (number : Nat) (order : List JobId) : ReadReply :=
  .ok (.jobs
    ((Pages.page query.pageLimit number order).filterMap fun id =>
      (db.jobs.get? id).bind (db.jobSummary id))
    (buildMeta (db.total user query) number query.pageLimit))

theorem getJobs_atPage {number : Nat} (counted : 1 ≤ number)
    {orders : Orders} {reply : ReadReply} {status : Option JobStatus}
    (filter : query.statusFilter = some status)
    (accepted : prisma.acceptsSkip ((number - 1) * query.pageLimit) = true) :
    db.getJobs prisma user (query.atPage number) orders = some reply ↔
      Pages.Arranged db.sortKeyOf
        (db.jobs.keysWhere fun _ row => db.matching user query row)
        orders.jobs ∧
      db.pageReply user query number orders.jobs = reply := by
  have turned : parsePagination (query.atPage number).page
      (query.atPage number).limit =
        ⟨number, query.pageLimit, (number - 1) * query.pageLimit⟩ :=
    parsePagination_toString counted query.page query.limit
  have listed : db.listed user (query.atPage number) status =
      db.matching user query := (matching_of_statusFilter filter).symm
  have filter' : (query.atPage number).statusFilter = some status := filter
  have summaries : ∀ ids : List JobId,
      (ids.filterMap db.jobs.row?).filterMap
          (fun job => db.jobSummary job.1 job.2) =
        ids.filterMap fun id => (db.jobs.get? id).bind (db.jobSummary id) := by
    intro ids
    rw [List.filterMap_filterMap]
    apply List.filterMap_congr
    intro id _
    rw [Table.row?, Option.bind_map]
    rfl
  unfold getJobs
  rw [filter', turned]
  simp only [accepted, if_true, listed, Option.map_eq_some_iff,
    Table.findMany_eq_some_iff, orders_matching_iff]
  constructor
  · intro answered
    obtain ⟨jobs, ⟨arranged, rfl⟩, rfl⟩ := answered
    refine ⟨arranged, ?_⟩
    rw [summaries]
    rfl
  · intro answered
    obtain ⟨arranged, rfl⟩ := answered
    refine ⟨_, ⟨arranged, rfl⟩, ?_⟩
    rw [summaries]
    rfl

theorem getJobs_noStatus (filter : query.statusFilter = none) (number : Nat)
    (orders : Orders) :
    db.getJobs prisma user (query.atPage number) orders =
      some (.error internalError) := by
  have filter' : (query.atPage number).statusFilter = none := filter
  rw [getJobs, filter']

theorem getJobs_refused {status : Option JobStatus}
    (filter : query.statusFilter = some status) {number : Nat}
    (counted : 1 ≤ number)
    (refused : prisma.acceptsSkip ((number - 1) * query.pageLimit) = false)
    (orders : Orders) :
    db.getJobs prisma user (query.atPage number) orders =
      some (.error internalError) := by
  have filter' : (query.atPage number).statusFilter = some status := filter
  have turned : parsePagination (query.atPage number).page
      (query.atPage number).limit = ⟨number, query.pageLimit, _⟩ :=
    parsePagination_toString counted query.page query.limit
  rw [getJobs, filter', turned]
  exact if_neg (Bool.eq_false_iff.mp refused)

theorem exists_getJobs_atPage {order : List JobId}
    (arranged : Pages.Arranged db.sortKeyOf
      (db.jobs.keysWhere fun _ row => db.matching user query row) order)
    {number : Nat} (counted : 1 ≤ number) :
    ∃ reply, db.getJobs prisma user (query.atPage number)
      ⟨order, [], [], fun _ => []⟩ = some reply := by
  cases filter : query.statusFilter with
  | none => exact ⟨_, getJobs_noStatus filter number _⟩
  | some status =>
      cases accepted : prisma.acceptsSkip ((number - 1) * query.pageLimit) with
      | true =>
          exact ⟨_, (getJobs_atPage counted filter accepted).mpr
            ⟨arranged, rfl⟩⟩
      | false => exact ⟨_, getJobs_refused filter counted accepted _⟩

theorem listedIds_pageReply {order : List JobId}
    (arranged : Pages.Arranged db.sortKeyOf
      (db.jobs.keysWhere fun _ row => db.matching user query row) order)
    (number : Nat) :
    listedIds (db.pageReply user query number order) =
      Pages.page query.pageLimit number order := by
  have matched : ∀ id ∈ Pages.page query.pageLimit number order,
      id ∈ db.jobs.keysWhere fun _ row => db.matching user query row := by
    intro id member
    have inOrder := List.drop_subset _ _ (List.take_subset _ _ member)
    exact arranged.1.mem_iff.mp inOrder
  exact map_id_jobSummary matched

/-- The answers list what the arrangements have in turn. -/
theorem flatMap_listedIds {arrangements : Nat → List JobId}
    {replies : Nat → ReadReply}
    (areArranged : ∀ number, Pages.Arranged db.sortKeyOf
      (db.jobs.keysWhere fun _ row => db.matching user query row)
      (arrangements number))
    (answered : ∀ number, 1 ≤ number →
      number ≤ Pages.count query.pageLimit (db.total user query) →
      db.pageReply user query number (arrangements number) = replies number) :
    ((Pages.numbers query.pageLimit (db.total user query)).flatMap
      fun number => listedIds (replies number)) =
      Pages.collected query.pageLimit (db.total user query) arrangements := by
  apply List.flatMap_congr
  intro number member
  obtain ⟨counted, least⟩ := Pages.mem_numbers_iff.mp member
  rw [← answered number counted least]
  exact listedIds_pageReply (areArranged number) number

theorem listedIds_beyond {number : Nat}
    (beyond : Pages.count query.pageLimit (db.total user query) < number)
    {reply : ReadReply}
    (answers : db.Answers prisma user (.jobs (query.atPage number)) reply) :
    listedIds reply = [] := by
  have positive : 0 < query.pageLimit := (limit_parsePagination _ _).1
  have counted : 1 ≤ number := Nat.one_le_of_lt beyond
  obtain ⟨orders, answered⟩ := answers
  replace answered : db.getJobs prisma user (query.atPage number) orders =
    some reply := answered
  cases filter : query.statusFilter with
  | none =>
      rw [getJobs_noStatus filter] at answered
      cases answered
      rfl
  | some status =>
      cases accepted : prisma.acceptsSkip ((number - 1) * query.pageLimit) with
      | true =>
          obtain ⟨arranged, rfl⟩ :=
            (getJobs_atPage counted filter accepted).mp answered
          rw [listedIds_pageReply arranged]
          apply Pages.page_eq_nil positive
          rw [arranged.1.length_eq]
          exact beyond
      | false =>
          rw [getJobs_refused filter counted accepted] at answered
          cases answered
          rfl

theorem matching_none (filter : query.statusFilter = none) :
    (db.jobs.keysWhere fun _ row => db.matching user query row) = [] := by
  apply List.eq_nil_iff_forall_not_mem.mpr
  intro id member
  obtain ⟨row, _, matched⟩ := Table.mem_keysWhere.mp member
  rw [matching, filter] at matched
  cases matched

theorem getJobs_iff_of_le
    (accepts : ∀ skip, skip < db.total user query →
      prisma.acceptsSkip skip = true) {number : Nat} (counted : 1 ≤ number)
    (least : number ≤ Pages.count query.pageLimit (db.total user query))
    {orders : Orders} {reply : ReadReply} :
    db.getJobs prisma user (query.atPage number) orders = some reply ↔
      Pages.Arranged db.sortKeyOf
        (db.jobs.keysWhere fun _ row => db.matching user query row)
        orders.jobs ∧
      db.pageReply user query number orders.jobs = reply := by
  have positive : 0 < query.pageLimit := (limit_parsePagination _ _).1
  have inside := (Pages.le_count_iff positive counted).mp least
  cases filter : query.statusFilter with
  | none =>
      have none : db.total user query = 0 :=
        congrArg List.length (matching_none filter)
      omega
  | some status => exact getJobs_atPage counted filter (accepts _ inside)

end Query

section Exact

variable (prisma : Prisma) (db : Database) (user : UserId)
  (query : JobListQuery)
  (accepts : ∀ skip, skip < db.total user query →
    prisma.acceptsSkip skip = true)

include accepts

theorem unsplit_of_exactPages (exact : db.ExactPages prisma user query) :
    Pages.Unsplit db.sortKeyOf query.pageLimit
      (db.jobs.keysWhere fun _ row => db.matching user query row) := by
  have positive : 0 < query.pageLimit := (limit_parsePagination _ _).1
  apply (Pages.exact_iff_unsplit positive (db.jobs.nodup_keysWhere _)).mp
  intro arrangements areArranged
  have turned : ∀ number, ∃ reply, 1 ≤ number →
      db.getJobs prisma user (query.atPage number)
        ⟨arrangements number, [], [], fun _ => []⟩ = some reply := by
    intro number
    by_cases counted : 1 ≤ number
    · obtain ⟨reply, answered⟩ :=
        exists_getJobs_atPage (areArranged number) counted
      exact ⟨reply, fun _ => answered⟩
    · exact ⟨jobNotFound, fun counted' => absurd counted' counted⟩
  choose replies answered using turned
  obtain ⟨_, collected, _⟩ := exact replies
    fun number counted => ⟨_, answered number counted⟩
  have isReply : ∀ number, 1 ≤ number →
      number ≤ Pages.count query.pageLimit (db.total user query) →
      db.pageReply user query number (arrangements number) =
        replies number := by
    intro number counted least
    exact ((getJobs_iff_of_le accepts counted least).mp
      (answered number counted)).2
  have listed := flatMap_listedIds areArranged isReply
  exact listed ▸ collected

theorem exactPages_of_unsplit
    (unsplit : Pages.Unsplit db.sortKeyOf query.pageLimit
      (db.jobs.keysWhere fun _ row => db.matching user query row)) :
    db.ExactPages prisma user query := by
  have positive : 0 < query.pageLimit := (limit_parsePagination _ _).1
  intro replies answers
  obtain ⟨fallback, isFallback⟩ := Pages.exists_arranged db.sortKeyOf
    (db.jobs.keysWhere fun _ row => db.matching user query row)
  have turned : ∀ number, ∃ order, Pages.Arranged db.sortKeyOf
        (db.jobs.keysWhere fun _ row => db.matching user query row) order ∧
      (1 ≤ number →
        number ≤ Pages.count query.pageLimit (db.total user query) →
        db.pageReply user query number order = replies number) := by
    intro number
    by_cases inside : 1 ≤ number ∧
      number ≤ Pages.count query.pageLimit (db.total user query)
    · obtain ⟨orders, answered⟩ := answers number inside.1
      obtain ⟨arranged, isReply⟩ :=
        (getJobs_iff_of_le accepts inside.1 inside.2).mp answered
      exact ⟨orders.jobs, arranged, fun _ _ => isReply⟩
    · exact ⟨fallback, isFallback, fun counted least =>
        absurd ⟨counted, least⟩ inside⟩
  choose arrangements areArranged isReply using turned
  refine ⟨?_, ?_, ?_⟩
  · intro number counted least
    exact ⟨_, (isReply number counted least).symm⟩
  · have collected := Pages.collected_perm positive
      (db.jobs.nodup_keysWhere _) unsplit areArranged
    have listed := flatMap_listedIds areArranged isReply
    exact listed ▸ collected
  · intro number beyond
    exact listedIds_beyond beyond
      (answers number (Nat.one_le_of_lt beyond))

end Exact

/-- The pages of `GET /jobs` are exact if and only if no page boundary divides
jobs with equal sort keys. -/
theorem jobPages_exact_iff (prisma : Prisma) (db : Database) (user : UserId)
    (query : JobListQuery)
    (accepts : ∀ skip, skip < db.total user query →
      prisma.acceptsSkip skip = true) :
    db.ExactPages prisma user query ↔ db.TiesOnOnePage user query := by
  rw [tiesOnOnePage_iff]
  constructor
  · intro exact
    exact unsplit_of_exactPages prisma db user query accepts exact
  · intro unsplit
    exact exactPages_of_unsplit prisma db user query accepts unsplit

/-- Three jobs of different priorities, in pages of two. -/
theorem jobPages_exact_of_priorities :
    ((World.onePolicy 3
        ⟨[(7, { Job.sample .queued with priority := 2 }),
          (8, { Job.sample .queued with priority := 1 }),
          (9, .sample .queued)], by decide⟩).database
        .twoOrgs).ExactPages ⟨fun _ => true⟩ 1 (.ofLimit "2") := by
  apply (jobPages_exact_iff _ _ _ _ fun _ _ => rfl).mpr
  intro id row found matched
  have member : (id, row) ∈ [(7, JobRow.mk _ none), (8, ⟨_, none⟩),
    (9, ⟨_, none⟩)] := Table.mem_rows_iff.mpr found
  simp only [List.mem_cons, List.not_mem_nil, or_false, Prod.mk.injEq]
    at member
  obtain ⟨rfl, rfl⟩ | ⟨rfl, rfl⟩ | ⟨rfl, rfl⟩ := member <;> decide

end Database

/-- User 1 submits two jobs in one batch. -/
def submitPair : List Action :=
  [.request 5 (.batch 0
      [⟨"echo", [], none, none, none⟩, ⟨"echo", [], none, none, none⟩]),
    .api 5 (.nonce "batch"), .api 5 (.created [7, 8]), .api 5 .ok]

/-- In pages of one the two jobs of a batch may change places between the two
queries, so that one of them is listed twice. -/
theorem batch_listed_twice : ∃ trace last,
    Initial (World.onePolicy 3 .empty).idle ∧
    Run (step .sample) (World.onePolicy 3 .empty).idle trace last ∧
    ¬(last.world.database .twoOrgs).ExactPages ⟨fun _ => true⟩ 1
      (.ofLimit "1") := by
  have recorded : ∃ trace last,
      record (step .sample) (World.onePolicy 3 .empty).idle submitPair =
        some (trace, last) ∧
      7 ∈ (last.world.database .twoOrgs).jobs.keysWhere (fun _ row =>
        (last.world.database .twoOrgs).matching 1 (.ofLimit "1") row) ∧
      Pages.firstPage (last.world.database .twoOrgs).sortKeyOf 1
          ((last.world.database .twoOrgs).jobs.keysWhere fun _ row =>
            (last.world.database .twoOrgs).matching 1 (.ofLimit "1") row) 7 ≠
        Pages.lastPage (last.world.database .twoOrgs).sortKeyOf 1
          ((last.world.database .twoOrgs).jobs.keysWhere fun _ row =>
            (last.world.database .twoOrgs).matching 1 (.ofLimit "1") row) 7 :=
    ⟨_, _, rfl, by decide, by decide⟩
  obtain ⟨trace, last, recorded, member, different⟩ := recorded
  refine ⟨trace, last, World.idle_initial fun _ => rfl, .of_record recorded,
    ?_⟩
  intro exact
  apply different
  exact Database.unsplit_of_exactPages _ _ _ _ (fun _ _ => rfl) exact 7 member

end Chronos
