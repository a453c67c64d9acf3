import Chronos.Claimer
import Chronos.Lib.SkipScan
import Chronos.Lib.Trace
import Chronos.System
import Mathlib.Data.Fin.VecNotation

/-!
# Claims at the granularity of row locks

`claimJobs` takes its locking select as one step.  Here the select of each
transaction goes row by row: it visits the rows of its snapshot in the order
of the `ORDER BY`, locks a row that is free and still matches, passes over any
other without using up the limit, and stops at the limit.  The selects of
overlapping transactions interleave in any way.
-/

namespace Chronos

/-- What a claim transaction awaits.  During the select, `rows` are the rows
still to visit and `ids` those locked so far. -/
inductive ScanPhase where
  | select (rows ids : List JobId)
  | update (ids : List JobId)
  | commit (ids : List JobId)
  | returned (ids : List JobId)
  deriving DecidableEq

/-- A claim transaction that has counted its slots and begun. -/
structure ClaimScan where
  queue : QueueId
  available : Nat
  txNow : Time
  phase : ScanPhase

namespace ScanPhase

def ids : ScanPhase → List JobId
  | .select _ ids => ids
  | .update ids => ids
  | .commit ids => ids
  | .returned ids => ids

/-- `if (ids.length === 0) return []`, after the select. -/
def selected (ids : List JobId) : ScanPhase :=
  if ids = [] then .commit [] else .update ids

/-- The same await in `claimJobs`, once the select has ended. -/
def result (txNow : Time) : ScanPhase → Option ClaimResult
  | .select _ _ => none
  | .update ids => some (.awaiting (.update txNow ids))
  | .commit ids => some (.awaiting (.commit txNow ids))
  | .returned ids => some (.returned ids)

@[simp] theorem ids_selected (ids : List JobId) : (selected ids).ids = ids := by
  unfold selected
  split
  · rename_i none
    exact none.symm
  · rfl

theorem selected_ne_select (ids : List JobId) (rows other : List JobId) :
    selected ids ≠ .select rows other := by
  unfold selected
  split <;> nofun

end ScanPhase

/-- One step of a claim transaction: it visits one row, ends its select,
updates the selected rows or commits. -/
def claimScan (world : World) (call : CallId) (claim : ClaimScan) :
    Option (World × ScanPhase) :=
  match claim.phase with
  | .select [] ids => some (world, .selected ids)
  | .select (row :: rows) ids =>
      if ids.length < claim.available then
        -- The lock is free, and the row still matches once it is held.
        if row ∈ world.claimable claim.queue claim.txNow [] then
          some (world.lock call [row], .select rows (ids ++ [row]))
        else some (world, .select rows ids)
      else some (world, .selected ids)
  | .update ids => some (world, .commit ids)
  | .commit ids =>
      some ((world.markClaimed claim.txNow ids).unlock ids, .returned ids)
  | .returned _ => none

/-- Any number of claim transactions over the same tables. -/
structure ScanState (count : Nat) where
  world : World
  claims : Fin count → ClaimScan

/-- One of the transactions takes a step. -/
def scanStep {count : Nat} (state : ScanState count) (call : Fin count) :
    Option (ScanState count) :=
  (claimScan state.world call.val (state.claims call)).map fun next =>
    { world := next.1
      claims := Function.update state.claims call
        { state.claims call with phase := next.2 } }

namespace ScanState

variable {count : Nat}

/-- All ids that the transactions have locked or returned. -/
def ids (state : ScanState count) : List JobId :=
  (List.finRange count).flatMap fun call => (state.claims call).phase.ids

/-- The transactions are about to scan the queue, each in a sorted order of
its own, and see the jobs that are eligible at `now`; no row is locked. -/
structure Begins (queue : QueueId) (now : Time) (state : ScanState count) :
    Prop where
  unlocked : ∀ job, state.world.locks job = none
  ofQueue : ∀ call, (state.claims call).queue = queue
  sameJobs : ∀ call, state.world.claimable queue (state.claims call).txNow [] =
    state.world.claimable queue now []
  selects : ∀ call, ∃ order, (state.claims call).phase = .select order [] ∧
    state.world.ClaimOrder queue now [] order

end ScanState

/-! ## The select of `claimJobs` is a scan that nobody interrupts -/

section Alone

variable {world : World} {call : CallId} {claim : ClaimScan}

/-- The transaction `claim` takes its steps alone. -/
def scanAlone (call : CallId) (claim : ClaimScan) (state : World × ScanPhase)
    (_ : Unit) : Option (World × ScanPhase) :=
  claimScan state.1 call { claim with phase := state.2 }

@[simp] theorem World.lock_nil (world : World) (call : CallId) :
    world.lock call [] = world := by
  simp [World.lock]

theorem World.lock_append (world : World) (call : CallId)
    (first second : List JobId) :
    (world.lock call first).lock call second =
      world.lock call (first ++ second) := by
  have locks : ((world.lock call first).lock call second).locks =
      (world.lock call (first ++ second)).locks := by
    funext job
    by_cases inSecond : job ∈ second
    · simp [World.lock, inSecond]
    · simp [World.lock, inSecond]
  unfold World.lock at locks ⊢
  simp only [World.mk.injEq, true_and, and_true]
  exact locks

theorem World.mem_claimable_lock {queue : QueueId} {txNow : Time}
    {ids : List JobId} {row : JobId} :
    row ∈ (world.lock call ids).claimable queue txNow [] ↔
      row ∈ world.claimable queue txNow [] ∧ row ∉ ids := by
  unfold World.claimable
  rw [Table.mem_keysWhere, Table.mem_keysWhere]
  change (∃ job, world.jobs.get? row = some job ∧ _) ↔ _
  by_cases member : row ∈ ids
  · simp [World.lock, member]
  · simp [World.lock, member]

/-- From a select in progress the transaction goes on to lock the free rows
that it visits first. -/
theorem scanAlone_select (call : CallId) {rows ids : List JobId} (distinct : rows.Nodup)
    (free : ∀ row ∈ rows,
      row ∈ world.claimable claim.queue claim.txNow [])
    (few : ids.length ≤ claim.available) :
    ∃ trace, Run (scanAlone call claim) (world, .select rows ids) trace
      (world.lock call (rows.take (claim.available - ids.length)),
        .selected (ids ++ rows.take (claim.available - ids.length))) := by
  induction rows generalizing world ids with
  | nil =>
      have taken : scanAlone call claim (world, .select [] ids) () =
          some (world, .selected ids) := rfl
      simpa using ⟨_, Run.single taken⟩
  | cons row rows induction =>
      by_cases room : ids.length < claim.available
      · have rest : ∀ other ∈ rows, other ∈ (world.lock call [row]).claimable
            claim.queue claim.txNow [] := by
          intro other member
          apply World.mem_claimable_lock.mpr
          refine ⟨free other (List.mem_cons_of_mem _ member), ?_⟩
          rw [List.mem_singleton]
          rintro rfl
          exact (List.nodup_cons.mp distinct).1 member
        have one : (ids ++ [row]).length ≤ claim.available := by
          rw [List.length_append, List.length_singleton]
          exact room
        obtain ⟨trace, run⟩ := induction (List.nodup_cons.mp distinct).2 rest one
        have more : claim.available - ids.length =
            claim.available - (ids ++ [row]).length + 1 := by
          rw [List.length_append, List.length_singleton]
          omega
        have taken : scanAlone call claim (world, .select (row :: rows) ids)
            () = some (world.lock call [row], .select rows (ids ++ [row])) := by
          simp [scanAlone, claimScan, room, free row List.mem_cons_self]
        rw [World.lock_append, List.append_assoc] at run
        rw [more, List.take_succ_cons]
        exact ⟨_, run.cons taken⟩
      · have none : claim.available - ids.length = 0 := by omega
        have taken : scanAlone call claim (world, .select (row :: rows) ids)
            () = some (world, .selected ids) := by
          simp [scanAlone, claimScan, room]
        simpa [none] using ⟨_, Run.single taken⟩

/-- A scan without interruption ends as the locking select of `claimJobs`
does, for the same order of the rows. -/
theorem scanAlone_claimJobs {order : List JobId} {limit : Nat}
    (valid : world.ClaimOrder claim.queue claim.txNow [] order) :
    ∃ trace next phase result,
      Run (scanAlone call claim) (world, .select order []) trace (next, phase) ∧
      phase.result claim.txNow = some result ∧
      claimJobs world call ⟨claim.queue, limit⟩
        (.select claim.available claim.txNow) (.rows order []) =
        some (next, result) := by
  have distinct : order.Nodup :=
    valid.1.nodup_iff.mpr (Table.nodup_keysWhere ..)
  have few : ([] : List JobId).length ≤ claim.available := Nat.zero_le _
  obtain ⟨trace, run⟩ := scanAlone_select call distinct
    (fun row member => valid.1.mem_iff.mp member) few
  rw [List.length_nil, Nat.sub_zero, List.nil_append] at run
  cases first : order.take claim.available with
  | nil =>
      rw [first, World.lock_nil] at run
      exact ⟨trace, _, _, _, run, rfl, by simp [claimJobs, valid, first]⟩
  | cons id ids =>
      rw [first] at run
      exact ⟨trace, _, _, _, run, rfl, by simp [claimJobs, valid, first]⟩

end Alone

/-! ## Overlapping scans as scans that skip -/

/-- The scan behind a transaction: `rest` are the rows that its select has not
visited. -/
structure ScanOf (claim : ClaimScan) (scan : Scan JobId) : Prop where
  limit : scan.limit = claim.available
  taken : scan.taken = claim.phase.ids
  rows : ∀ rows ids, claim.phase = .select rows ids → scan.rows = rows
  finished : (∀ rows ids, claim.phase ≠ .select rows ids) → scan.Finished

/-- The transactions stand where these scans stand, and the tables show it: a
row that no scan has taken is as it was at the start, any other is locked or
not queued any more. -/
structure Simulates {count : Nat} (start : ScanState count)
    (state : ScanState count) (scans : Fin count → Scan JobId) : Prop where
  scan : ∀ call, ScanOf (state.claims call) (scans call)
  fixed : ∀ call, ∃ phase,
    state.claims call = { start.claims call with phase := phase }
  free : ∀ job, ¬Scan.Taken scans job → state.world.locks job = none ∧
    state.world.jobs.get? job = start.world.jobs.get? job
  busy : ∀ job row, Scan.Taken scans job →
    state.world.jobs.get? job = some row → row.status = .queued →
    (state.world.locks job).isSome

section Overlapping

variable {count : Nat} {start state next : ScanState count} {queue : QueueId}
  {now : Time} {order : Fin count → List JobId}
  {scans : Fin count → Scan JobId} {call : Fin count}

theorem Simulates.claimable_iff (simulates : Simulates start state scans)
    (call : Fin count) (begins : start.Begins queue now) {row : JobId}
    (eligible : row ∈ start.world.claimable queue now []) :
    row ∈ state.world.claimable (state.claims call).queue
        (state.claims call).txNow [] ↔ ¬Scan.Taken scans row := by
  obtain ⟨phase, same⟩ := simulates.fixed call
  have asBegun : (state.claims call).queue = queue ∧
      (state.claims call).txNow = (start.claims call).txNow := by
    rw [same]
    exact ⟨begins.ofQueue call, rfl⟩
  rw [asBegun.1, asBegun.2]
  constructor
  · intro claimable taken
    obtain ⟨job, found, matched⟩ := Table.mem_keysWhere.mp claimable
    simp only [Bool.and_eq_true, decide_eq_true_eq] at matched
    have locked := simulates.busy row job taken found matched.1.1.1.2
    rw [Option.isNone_iff_eq_none.mp matched.1.2] at locked
    cases locked
  · intro free
    rw [← begins.sameJobs call] at eligible
    obtain ⟨job, found, matched⟩ := Table.mem_keysWhere.mp eligible
    obtain ⟨unlocked, sameRow⟩ := simulates.free row free
    refine Table.mem_keysWhere.mpr ⟨job, sameRow.trans found, ?_⟩
    rw [unlocked]
    rwa [begins.unlocked row] at matched

/-- The rule for a step of one transaction, whatever it does to the tables. -/
theorem Simulates.moved (simulates : Simulates start state scans)
    {phase : ScanPhase} {world : World} {scans' : Fin count → Scan JobId}
    (scan : ScanOf { state.claims call with phase := phase } (scans' call))
    (others : ∀ other, other ≠ call → scans' other = scans other)
    (free : ∀ job, ¬Scan.Taken scans' job → world.locks job = none ∧
      world.jobs.get? job = start.world.jobs.get? job)
    (busy : ∀ job row, Scan.Taken scans' job →
      world.jobs.get? job = some row → row.status = .queued →
      (world.locks job).isSome) :
    Simulates start
      ⟨world, Function.update state.claims call
        { state.claims call with phase := phase }⟩ scans' := by
  refine ⟨?_, ?_, free, busy⟩
  · intro other
    by_cases same : other = call
    · subst other
      simpa only [Function.update_self] using scan
    · simpa only [Function.update_of_ne same, others other same] using
        simulates.scan other
  · intro other
    by_cases same : other = call
    · subst other
      obtain ⟨before, fixed⟩ := simulates.fixed call
      refine ⟨phase, ?_⟩
      simp only [Function.update_self, fixed]
    · simpa only [Function.update_of_ne same] using simulates.fixed other

theorem Simulates.idle (simulates : Simulates start state scans)
    {phase : ScanPhase}
    (scan : ScanOf { state.claims call with phase := phase } (scans call)) :
    Simulates start
      ⟨state.world, Function.update state.claims call
        { state.claims call with phase := phase }⟩ scans :=
  simulates.moved scan (fun _ _ => rfl) simulates.free simulates.busy

theorem Simulates.ends (simulates : Simulates start state scans)
    {rows ids : List JobId} (phase : (state.claims call).phase = .select rows ids)
    (finished : (scans call).Finished) :
    Simulates start
      ⟨state.world, Function.update state.claims call
        { state.claims call with phase := .selected ids }⟩ scans := by
  have scan := simulates.scan call
  have taken := scan.taken
  rw [phase] at taken
  apply simulates.idle
  refine ⟨scan.limit, ?_, ?_, fun _ => finished⟩
  · rw [taken]
    exact (ScanPhase.ids_selected ids).symm
  · intro rows' ids' select
    exact (ScanPhase.selected_ne_select ids rows' ids' select).elim

theorem Simulates.locks (simulates : Simulates start state scans)
    {row : JobId} {rows ids : List JobId}
    (phase : (state.claims call).phase = .select (row :: rows) ids)
    (took : Scan.Step scans call
      (Function.update scans call
        { scans call with
          rows := rows, taken := (scans call).taken ++ [row] })) :
    Simulates start
      ⟨state.world.lock call.val [row], Function.update state.claims call
        { state.claims call with phase := .select rows (ids ++ [row]) }⟩
      (Function.update scans call
        { scans call with
          rows := rows, taken := (scans call).taken ++ [row] }) := by
  have scan := simulates.scan call
  have taken := scan.taken
  rw [phase] at taken
  have locked : (state.world.lock call.val [row]).locks =
      fun job => if job ∈ [row] then some call.val
        else state.world.locks job := rfl
  apply simulates.moved
  · rw [Function.update_self]
    refine ⟨scan.limit, ?_, ?_, ?_⟩
    · dsimp only
      rw [taken]
      rfl
    · rintro _ _ ⟨⟩
      rfl
    · intro notSelect
      exact (notSelect _ _ rfl).elim
  · intro other different
    exact Function.update_of_ne different ..
  · intro job free
    have freeBefore : ¬Scan.Taken scans job :=
      fun before => free (before.of_step took)
    have different : job ∉ [row] := by
      rw [List.mem_singleton]
      rintro rfl
      apply free
      refine ⟨call, ?_⟩
      rw [Function.update_self]
      exact List.mem_append_right _ (List.mem_singleton_self job)
    rw [locked]
    dsimp only
    rw [if_neg different]
    exact simulates.free job freeBefore
  · intro job found taken matches_ queued
    rw [locked]
    dsimp only
    split
    · rfl
    · rename_i different
      refine simulates.busy job found ?_ matches_ queued
      obtain ⟨other, member⟩ := taken
      rcases took.mem_taken member with old | ⟨rfl, free⟩
      · exact ⟨other, old⟩
      · rw [Function.update_self] at member
        rcases List.mem_append.mp member with old | new
        · exact ⟨other, old⟩
        · exact (different new).elim

theorem Simulates.commits (simulates : Simulates start state scans)
    {ids : List JobId} (phase : (state.claims call).phase = .commit ids) :
    Simulates start
      ⟨(state.world.markClaimed (state.claims call).txNow ids).unlock ids,
        Function.update state.claims call
          { state.claims call with phase := .returned ids }⟩ scans := by
  have scan := simulates.scan call
  have taken : (scans call).taken = ids := by
    rw [scan.taken, phase]
    rfl
  have locked : ((state.world.markClaimed (state.claims call).txNow
      ids).unlock ids).locks =
      fun job => if job ∈ ids then none else state.world.locks job := rfl
  have rows : ∀ job, ((state.world.markClaimed (state.claims call).txNow
      ids).unlock ids).jobs.get? job = (state.world.jobs.get? job).map
        fun row => if job ∈ ids then row.claim (state.claims call).txNow
          else row := fun job => Table.get?_mapRows ..
  apply simulates.moved
  · refine ⟨scan.limit, taken, nofun, ?_⟩
    intro _
    exact scan.finished (by rw [phase]; nofun)
  · exact fun _ _ => rfl
  · intro job free
    have notMine : job ∉ ids := by
      rw [← taken]
      exact fun member => free ⟨call, member⟩
    rw [locked, rows]
    simp only [notMine, if_false, Option.map_id']
    exact simulates.free job free
  · intro job row isTaken found queued
    rw [rows, Option.map_eq_some_iff] at found
    obtain ⟨before, foundBefore, rfl⟩ := found
    rw [locked]
    dsimp only
    split
    · rename_i mine
      rw [if_pos mine] at queued
      cases queued
    · rename_i notMine
      rw [if_neg notMine] at queued
      exact simulates.busy job before isTaken foundBefore queued

theorem Simulates.step (simulates : Simulates start state scans)
    (valid : Scan.Valid order scans) (begins : start.Begins queue now)
    (permuted : ∀ call,
      (order call).Perm (start.world.claimable queue now []))
    (stepped : scanStep state call = some next) :
    ∃ scans', Simulates start next scans' ∧ Scan.Valid order scans' := by
  have scan := simulates.scan call
  simp only [scanStep, Option.map_eq_some_iff] at stepped
  obtain ⟨result, stepped, rfl⟩ := stepped
  unfold claimScan at stepped
  split at stepped
  · rename_i ids phase
    cases stepped
    exact ⟨scans, simulates.ends phase (.inr (scan.rows [] ids phase)), valid⟩
  · rename_i row rows ids phase
    have shape := scan.rows _ _ phase
    have length : (scans call).taken.length = ids.length := by
      rw [scan.taken, phase]
      rfl
    have eligible : row ∈ start.world.claimable queue now [] := by
      obtain ⟨passed, whole, -⟩ := valid.passed call
      rw [← (permuted call).mem_iff, whole, shape]
      exact List.mem_append_right _ List.mem_cons_self
    have freeIff := simulates.claimable_iff call begins eligible
    split at stepped
    · rename_i room
      split at stepped
      · rename_i free
        cases stepped
        have took := Scan.Step.take shape (by rw [length, scan.limit]; exact room)
          (freeIff.mp free)
        exact ⟨_, simulates.locks phase took, valid.step took⟩
      · rename_i busy
        cases stepped
        have isTaken : Scan.Taken scans row := by
          by_contra free
          exact busy (freeIff.mpr free)
        have skipped := Scan.Step.skip shape isTaken
        have sameTaken : ∀ job, Scan.Taken (Function.update scans call
            { scans call with rows := rows }) job ↔ Scan.Taken scans job := by
          intro job
          refine ⟨?_, fun before => before.of_step skipped⟩
          rintro ⟨other, member⟩
          rcases skipped.mem_taken member with old | ⟨rfl, -⟩
          · exact ⟨other, old⟩
          · rw [Function.update_self] at member
            exact ⟨other, member⟩
        refine ⟨_, simulates.moved ?_ ?_ ?_ ?_, valid.step skipped⟩
        · rw [Function.update_self]
          refine ⟨scan.limit, ?_, ?_, ?_⟩
          · dsimp only
            rw [scan.taken, phase]
            rfl
          · rintro _ _ ⟨⟩
            rfl
          · intro notSelect
            exact (notSelect _ _ rfl).elim
        · intro other different
          exact Function.update_of_ne different ..
        · intro job free
          exact simulates.free job fun before => free ((sameTaken job).mpr before)
        · intro job found isTaken
          exact simulates.busy job found ((sameTaken job).mp isTaken)
    · rename_i full
      cases stepped
      have bounded := valid.bounded call
      rw [length, scan.limit] at bounded
      refine ⟨scans, simulates.ends phase (.inl ?_), valid⟩
      rw [length, scan.limit]
      omega
  · rename_i ids phase
    cases stepped
    refine ⟨scans, simulates.idle ⟨scan.limit, ?_, nofun, ?_⟩, valid⟩
    · rw [scan.taken, phase]
      rfl
    · intro _
      exact scan.finished (by rw [phase]; nofun)
  · rename_i ids phase
    cases stepped
    exact ⟨scans, simulates.commits phase, valid⟩
  · cases stepped

theorem Simulates.run {trace : List (Transition (ScanState count) (Fin count))}
    {last : ScanState count} (run : Run scanStep start trace last)
    (begins : start.Begins queue now)
    (orders : ∀ call, (start.claims call).phase = .select (order call) [] ∧
      start.world.ClaimOrder queue now [] (order call)) :
    ∃ scans, Simulates start last scans ∧ Scan.Valid order scans := by
  have always : ∀ transition ∈ trace, True := fun _ _ => trivial
  refine run.invariant (fun state => ∃ scans, Simulates start state scans ∧
    Scan.Valid order scans) always ?_ ?_
  · let scans (call : Fin count) : Scan JobId :=
      ⟨(start.claims call).available, order call, []⟩
    have none : ∀ job, ¬Scan.Taken scans job := by
      rintro job ⟨call, member⟩
      cases member
    refine ⟨scans, ⟨?_, ?_, ?_, ?_⟩, .initial (fun _ => rfl) fun _ => rfl⟩
    · intro call
      refine ⟨rfl, ?_, ?_, ?_⟩
      · rw [(orders call).1]
        rfl
      · intro rows ids phase
        rw [(orders call).1] at phase
        cases phase
        rfl
      · intro notSelect
        exact (notSelect _ _ (orders call).1).elim
    · intro call
      exact ⟨_, rfl⟩
    · intro job _
      exact ⟨begins.unlocked job, rfl⟩
    · intro job row taken
      exact (none job taken).elim
  · rintro transition - taken ⟨scans, simulates, valid⟩
    exact simulates.step valid begins (fun call => (orders call).2.1) taken

theorem Simulates.ids (simulates : Simulates start state scans)
    (valid : Scan.Valid order scans) : state.ids.Nodup ∧
      ∀ job, job ∈ state.ids ↔ Scan.Taken scans job := by
  have taken : ∀ call, (state.claims call).phase.ids = (scans call).taken :=
    fun call => (simulates.scan call).taken.symm
  constructor
  · refine List.nodup_flatMap.mpr ⟨?_, ?_⟩
    · intro call _
      rw [taken]
      exact valid.nodup call
    · apply (List.nodup_finRange count).imp
      intro first second different job inFirst inSecond
      simp only [taken] at inFirst inSecond
      exact different (valid.exclusive inFirst inSecond)
  · intro job
    simp only [ScanState.ids, List.mem_flatMap, List.mem_finRange, true_and,
      taken]
    rfl

/-- When overlapping claim transactions on one queue have all committed, the
ids that they return are a prefix of the eligible jobs in an order of the
select, as long as the slots of all of them or as the eligible jobs. -/
theorem claims_in_order {last : ScanState count}
    {trace : List (Transition (ScanState count) (Fin count))}
    (run : Run scanStep start trace last) (begins : start.Begins queue now)
    (finished : ∀ call, ∃ ids, (last.claims call).phase = .returned ids) :
    ∃ jobs, start.world.ClaimOrder queue now [] jobs ∧
      last.ids.Perm (jobs.take
        (min (∑ call, (start.claims call).available) jobs.length)) ∧
      ∀ claimed ∈ last.ids, ∀ job ∈ jobs, job ∉ last.ids →
        start.world.claimsBefore claimed job := by
  choose order orders using begins.selects
  obtain ⟨scans, simulates, valid⟩ := Simulates.run run begins orders
  obtain ⟨nodup, ids⟩ := simulates.ids valid
  have permuted : ∀ call,
      (order call).Perm (start.world.claimable queue now []) :=
    fun call => (orders call).2.1
  have sorted : ∀ call, (order call).Pairwise start.world.claimsBefore :=
    fun call => (orders call).2.2
  have distinct := Table.nodup_keysWhere start.world.jobs fun id job =>
    job.queueId = queue && job.status = .queued && decide (job.runAt ≤ now) &&
      (start.world.locks id).isNone && decide (id ∉ ([] : List JobId))
  have ended : ∀ call, (scans call).Finished := by
    intro call
    obtain ⟨returned, phase⟩ := finished call
    exact (simulates.scan call).finished (by rw [phase]; nofun)
  have limits : ∑ call, (scans call).limit =
      ∑ call, (start.claims call).available := by
    apply Finset.sum_congr rfl
    intro call _
    obtain ⟨phase, same⟩ := simulates.fixed call
    rw [(simulates.scan call).limit, same]
  obtain ⟨some, somePermuted, someSorted⟩ :=
    start.world.exists_claimOrder queue now []
  obtain ⟨jobs, jobsPermuted, jobsSorted, isPrefix⟩ :=
    valid.exists_prefix permuted sorted distinct ended someSorted somePermuted
  rw [limits, ← jobsPermuted.length_eq] at isPrefix
  refine ⟨jobs, ⟨jobsPermuted, jobsSorted⟩, ?_, ?_⟩
  · have jobsDistinct : jobs.Nodup := jobsPermuted.nodup_iff.mpr distinct
    apply (List.perm_ext_iff_of_nodup nodup
      (jobsDistinct.sublist (List.take_sublist ..))).mpr
    intro job
    rw [ids, ← isPrefix, Scan.mem_union]
  · intro claimed isClaimed job inJobs left
    by_contra notBefore
    apply left
    rw [ids] at isClaimed ⊢
    exact valid.closed permuted sorted isClaimed
      (jobsPermuted.mem_iff.mp inJobs) notBefore

end Overlapping

/-- Three queued jobs, of which the last two have a higher priority, and two
claims with one slot and two slots. -/
def ScanState.sample : ScanState 2 where
  world := World.sample 3
    ⟨[(7, .sample .queued), (8, { Job.sample .queued with priority := 5 }),
      (9, { Job.sample .queued with priority := 5 })], by decide⟩
  claims call := ⟨0, call.val + 1, 0, .select (![[8, 9, 7], [9, 8, 7]] call) []⟩

/-- The second claim locks a row that the first one passes over. -/
theorem claims_in_order_interleaved :
    ∃ trace last, Run scanStep ScanState.sample trace last ∧
      last.ids = [8, 9, 7] ∧
      ∃ jobs, ScanState.sample.world.ClaimOrder 0 0 [] jobs ∧
        last.ids.Perm (jobs.take (min
          (∑ call, (ScanState.sample.claims call).available) jobs.length)) := by
  obtain ⟨trace, last, run, first, second, ids⟩ :=
    exists_run_of_check scanStep ScanState.sample
      [1, 0, 1, 1, 0, 0, 0, 1, 1, 1]
      (fun _ last =>
        (last.claims 0).phase = .returned [8] ∧
        (last.claims 1).phase = .returned [9, 7] ∧ last.ids = [8, 9, 7])
      (by decide)
  have begins : ScanState.sample.Begins 0 0 := by
    refine ⟨fun _ => rfl, fun _ => rfl, fun _ => rfl, ?_⟩
    intro call
    refine ⟨_, rfl, ?_⟩
    revert call
    decide
  obtain ⟨jobs, order, isPrefix, -⟩ := claims_in_order run begins (by
    intro call
    match call with
    | 0 => exact ⟨_, first⟩
    | 1 => exact ⟨_, second⟩)
  exact ⟨trace, last, run, ids, jobs, order, isPrefix⟩

end Chronos
