import Chronos.Lib.Pages
import Chronos.Lib.Table

/-!
# Queries over tables

A query selects the rows of a table that satisfy a condition, orders them and
returns one page.  Which of the rows that compare equal comes first is the
database's choice, so the order of the keys is an input of the query and is
checked against the table.  What a query returns depends on the selected rows
only: two tables that have these rows in common answer it alike.
-/

universe u v

theorem List.mapM_option_congr {α : Type u} {β : Type v}
    {left right : α → Option β} {list : List α}
    (agree : ∀ value ∈ list, left value = right value) :
    list.mapM left = list.mapM right := by
  induction list with
  | nil => rfl
  | cons value list induction =>
      have head := agree value List.mem_cons_self
      have tail : list.mapM left = list.mapM right := by
        apply induction
        intro other member
        exact agree other (List.mem_cons_of_mem _ member)
      rw [List.mapM_cons, List.mapM_cons, head, tail]

theorem List.exists_mapM_option {α : Type u} {β : Type v}
    {function : α → Option β} {list : List α}
    (defined : ∀ value ∈ list, ∃ result, function value = some result) :
    ∃ results, list.mapM function = some results := by
  induction list with
  | nil => exact ⟨[], rfl⟩
  | cons value list induction =>
      obtain ⟨result, head⟩ := defined value List.mem_cons_self
      obtain ⟨results, tail⟩ := induction fun other member =>
        defined other (List.mem_cons_of_mem _ member)
      refine ⟨result :: results, ?_⟩
      rw [List.mapM_cons, head, tail]
      rfl

theorem List.exists_of_mem_mapM_option {α : Type u} {β : Type v}
    {function : α → Option β} {list : List α} {results : List β}
    (collected : list.mapM function = some results) {result : β}
    (member : result ∈ results) :
    ∃ value ∈ list, function value = some result := by
  induction list generalizing results with
  | nil =>
      cases collected
      cases member
  | cons value list induction =>
      rw [List.mapM_cons] at collected
      obtain ⟨first, head, rest⟩ := Option.bind_eq_some_iff.mp collected
      obtain ⟨tail, others, isWhole⟩ := Option.bind_eq_some_iff.mp rest
      cases isWhole
      rcases List.mem_cons.mp member with rfl | later
      · exact ⟨value, List.mem_cons_self, head⟩
      · obtain ⟨other, inList, found⟩ := induction others later
        exact ⟨other, List.mem_cons_of_mem _ inList, found⟩

theorem List.map_of_mapM_option {α : Type u} {β γ : Type v}
    {function : α → Option β} {kept : α → γ} {shown : β → γ} {list : List α}
    {results : List β} (collected : list.mapM function = some results)
    (keeps : ∀ value result, function value = some result →
      shown result = kept value) :
    results.map shown = list.map kept := by
  induction list generalizing results with
  | nil =>
      cases collected
      rfl
  | cons value list induction =>
      rw [List.mapM_cons] at collected
      obtain ⟨result, head, rest⟩ := Option.bind_eq_some_iff.mp collected
      obtain ⟨tail, others, isWhole⟩ := Option.bind_eq_some_iff.mp rest
      cases isWhole
      rw [List.map_cons, List.map_cons, keeps value result head,
        induction others]

namespace Table

variable {κ : Type u} {ρ : Type v} [DecidableEq κ]

/-- The order is a possible one: it lists the matching keys, and no row
stands before one that has to precede it. -/
def orders (table : Table κ ρ) (condition : κ → ρ → Bool)
    (before : ρ → ρ → Bool) (order : List κ) : Bool :=
  decide (order.Perm (table.keysWhere condition)) &&
    decide ((order.filterMap table.get?).Pairwise
      fun left right => before left right = true)

/-- The row of a key, together with the key. -/
def row? (table : Table κ ρ) (key : κ) : Option (κ × ρ) :=
  (table.get? key).map fun row => (key, row)

/-- `findMany({ where, orderBy, skip, take })`. -/
def findMany (table : Table κ ρ) (condition : κ → ρ → Bool)
    (before : ρ → ρ → Bool) (skip take : Nat) (order : List κ) :
    Option (List (κ × ρ)) :=
  if table.orders condition before order then
    some (((order.drop skip).take take).filterMap table.row?)
  else none

@[simp] theorem row?_eq_some_iff {table : Table κ ρ} {key : κ}
    {entry : κ × ρ} :
    table.row? key = some entry ↔
      entry.1 = key ∧ table.get? key = some entry.2 := by
  obtain ⟨other, row⟩ := entry
  simp only [row?, Option.map_eq_some_iff, Prod.mk.injEq]
  constructor
  · rintro ⟨row, found, rfl, rfl⟩
    exact ⟨rfl, found⟩
  · rintro ⟨rfl, found⟩
    exact ⟨row, found, rfl, rfl⟩

theorem get?_eq_of_row?_eq {left right : Table κ ρ} {key : κ}
    (same : left.row? key = right.row? key) :
    left.get? key = right.get? key := by
  have rows := congrArg (Option.map Prod.snd) same
  simpa [row?, Function.comp_def] using rows

theorem orders_eq_true_iff {table : Table κ ρ} {condition : κ → ρ → Bool}
    {before : ρ → ρ → Bool} {order : List κ} :
    table.orders condition before order = true ↔
      order.Perm (table.keysWhere condition) ∧
        (order.filterMap table.get?).Pairwise
          fun left right => before left right = true := by
  simp [orders]

theorem findMany_eq_some_iff {table : Table κ ρ} {condition : κ → ρ → Bool}
    {before : ρ → ρ → Bool} {skip take : Nat} {order : List κ}
    {answer : List (κ × ρ)} :
    table.findMany condition before skip take order = some answer ↔
      table.orders condition before order = true ∧
        ((order.drop skip).take take).filterMap table.row? = answer := by
  unfold findMany
  split
  · simp [*]
  · simp [*]

theorem mem_findMany {table : Table κ ρ} {condition : κ → ρ → Bool}
    {before : ρ → ρ → Bool} {skip take : Nat} {order : List κ}
    {answer : List (κ × ρ)}
    (answered : table.findMany condition before skip take order = some answer)
    {key : κ} {row : ρ} (member : (key, row) ∈ answer) :
    table.get? key = some row ∧ condition key row = true := by
  obtain ⟨possible, rfl⟩ := findMany_eq_some_iff.mp answered
  obtain ⟨other, listed, entry⟩ := List.mem_filterMap.mp member
  obtain ⟨rfl, found⟩ := row?_eq_some_iff.mp entry
  have inOrder := List.drop_subset _ _ (List.take_subset _ _ listed)
  have matching := (orders_eq_true_iff.mp possible).1.mem_iff.mp inOrder
  obtain ⟨row', found', holds⟩ := mem_keysWhere.mp matching
  cases found.symm.trans found'
  exact ⟨found, holds⟩

theorem map_fst_of_findMany {table : Table κ ρ} {condition : κ → ρ → Bool}
    {before : ρ → ρ → Bool} {skip take : Nat} {order : List κ}
    {answer : List (κ × ρ)}
    (answered : table.findMany condition before skip take order =
      some answer) :
    answer.map Prod.fst = (order.drop skip).take take := by
  obtain ⟨possible, rfl⟩ := findMany_eq_some_iff.mp answered
  have selected : ∀ key ∈ (order.drop skip).take take,
      (table.row? key).map Prod.fst = some key := by
    intro key member
    have inOrder := List.drop_subset _ _ (List.take_subset _ _ member)
    obtain ⟨row, found, _⟩ := mem_keysWhere.mp
      ((orders_eq_true_iff.mp possible).1.mem_iff.mp inOrder)
    rw [row?, found]
    rfl
  rw [List.map_filterMap, List.filterMap_congr selected, List.filterMap_some]

/-- The selected keys, if no row may stand before one that they list earlier,
are the only possible order. -/
theorem eq_of_orders {table : Table κ ρ} {condition : κ → ρ → Bool}
    {before : ρ → ρ → Bool} {order keys : List κ}
    (possible : table.orders condition before order = true)
    (permutation : keys.Perm (table.keysWhere condition))
    (strict : keys.Pairwise fun first second =>
      ∀ row ∈ table.get? first, ∀ row' ∈ table.get? second,
        before row' row = false) :
    order = keys := by
  obtain ⟨listed, sorted⟩ := orders_eq_true_iff.mp possible
  have same : order.Perm keys := listed.trans permutation.symm
  have rows : ∀ key ∈ order, ∃ row, table.get? key = some row := by
    intro key member
    obtain ⟨row, found, _⟩ := mem_keysWhere.mp (listed.mem_iff.mp member)
    exact ⟨row, found⟩
  rw [List.pairwise_filterMap] at sorted
  clear possible permutation listed
  induction order generalizing keys with
  | nil => exact (List.nil_perm.mp same).symm
  | cons key order induction =>
      cases keys with
      | nil => exact List.perm_nil.mp same
      | cons first keys =>
          simp only [List.pairwise_cons] at strict sorted
          simp only [List.forall_mem_cons] at rows
          by_cases isFirst : key = first
          · subst first
            rw [induction strict.2 sorted.2 same.cons_inv rows.2]
          · have later : key ∈ keys := by
              apply List.mem_of_ne_of_mem isFirst
              exact same.subset List.mem_cons_self
            have earlier : first ∈ order := by
              apply List.mem_of_ne_of_mem (Ne.symm isFirst)
              exact same.symm.subset List.mem_cons_self
            obtain ⟨row, found⟩ := rows.1
            obtain ⟨row', found'⟩ := rows.2 first earlier
            have stands := sorted.1 first earlier row found row' found'
            rw [strict.1 key later row' found' row found] at stands
            cases stands

/-- Every query over a total preorder has a possible order. -/
theorem exists_orders (table : Table κ ρ) (condition : κ → ρ → Bool)
    {before : ρ → ρ → Bool}
    (transitive : ∀ a b c, before a b = true → before b c = true →
      before a c = true)
    (total : ∀ a b, before a b = true ∨ before b a = true) :
    ∃ order, table.orders condition before order = true := by
  let rows := table.rows.filter fun row => condition row.1 row.2
  let sorted := rows.mergeSort fun left right => before left.2 right.2
  have permutation : sorted.Perm rows := List.mergeSort_perm _ _
  have lookup : (sorted.map Prod.fst).filterMap table.get? =
      sorted.map Prod.snd := by
    rw [List.filterMap_map, ← List.filterMap_eq_map]
    apply List.filterMap_congr
    rintro ⟨key, row⟩ member
    have inTable := (List.mem_filter.mp (permutation.mem_iff.mp member)).1
    exact mem_rows_iff.mp inTable
  refine ⟨sorted.map Prod.fst, orders_eq_true_iff.mpr ⟨?_, ?_⟩⟩
  · exact permutation.map Prod.fst
  · rw [lookup, List.pairwise_map]
    apply List.pairwise_mergeSort
    · intro a b c
      exact transitive a.2 b.2 c.2
    · intro a b
      simpa using total a.2 b.2

theorem exists_findMany (table : Table κ ρ) (condition : κ → ρ → Bool)
    {before : ρ → ρ → Bool}
    (transitive : ∀ a b c, before a b = true → before b c = true →
      before a c = true)
    (total : ∀ a b, before a b = true ∨ before b a = true) :
    ∃ order, ∀ skip take, ∃ answer,
      table.findMany condition before skip take order = some answer := by
  obtain ⟨order, possible⟩ := table.exists_orders condition transitive total
  refine ⟨order, fun skip take => ?_⟩
  unfold findMany
  rw [if_pos possible]
  exact ⟨_, rfl⟩

/-! ## Sort keys -/

theorem countP_keysWhere (table : Table κ ρ) (condition extra : κ → ρ → Bool)
    {property : κ → Bool}
    (agree : ∀ key row, table.get? key = some row →
      property key = extra key row) :
    (table.keysWhere condition).countP property =
      table.count fun key row => condition key row && extra key row := by
  rw [keysWhere, List.countP_map, List.countP_filter, count, keysWhere,
    List.length_map, ← List.countP_eq_length_filter]
  apply List.countP_congr
  intro entry member
  have found := mem_rows_iff.mp member
  simp only [Function.comp_apply, agree entry.1 entry.2 found, Bool.and_comm]

theorem orders_iff_arranged {β : Type*} [LinearOrder β] {table : Table κ ρ}
    {condition : κ → ρ → Bool} {before : ρ → ρ → Bool} {sortKey : ρ → β}
    (before_iff : ∀ left right,
      before left right = true ↔ sortKey left ≤ sortKey right)
    {keyOf : κ → β} (agree : ∀ key row, table.get? key = some row →
      keyOf key = sortKey row) {order : List κ} :
    table.orders condition before order = true ↔
      Pages.Arranged keyOf (table.keysWhere condition) order := by
  rw [orders_eq_true_iff, Pages.Arranged, List.pairwise_filterMap]
  apply and_congr_right
  intro permutation
  have rows : ∀ key ∈ order, ∃ row, table.get? key = some row := by
    intro key member
    obtain ⟨row, found, _⟩ := mem_keysWhere.mp (permutation.mem_iff.mp member)
    exact ⟨row, found⟩
  apply List.Pairwise.iff_of_mem
  intro left right leftMember rightMember
  obtain ⟨row, found⟩ := rows left leftMember
  obtain ⟨row', found'⟩ := rows right rightMember
  rw [agree left row found, agree right row' found', ← before_iff]
  constructor
  · intro stands
    exact stands row found row' found'
  · intro stands other foundOther other' foundOther'
    cases found.symm.trans foundOther
    cases found'.symm.trans foundOther'
    exact stands

/-! ## Keeping the first rows -/

/-- `DELETE FROM … WHERE`. -/
def deleteWhere (table : Table κ ρ) (condition : κ → ρ → Bool) :
    Table κ ρ where
  rows := table.rows.filter fun row => !condition row.1 row.2
  nodup := table.nodup.sublist (List.Sublist.map _ List.filter_sublist)

/-- Delete the selected rows but for the first ones of an order that the
database chooses. -/
def keepFirst (table : Table κ ρ) (condition : κ → ρ → Bool)
    (before : ρ → ρ → Bool) (limit : Nat) (order : List κ) :
    Option (Table κ ρ) :=
  if table.orders condition before order then
    some (table.deleteWhere fun key row =>
      condition key row && !decide (key ∈ order.take limit))
  else none

theorem get?_deleteWhere_eq_some_iff {table : Table κ ρ}
    {condition : κ → ρ → Bool} {key : κ} {row : ρ} :
    (table.deleteWhere condition).get? key = some row ↔
      table.get? key = some row ∧ condition key row = false := by
  rw [← mem_rows_iff, ← mem_rows_iff, deleteWhere, List.mem_filter,
    Bool.not_eq_true']

section KeepFirst

variable {table kept : Table κ ρ} {condition : κ → ρ → Bool}
  {before : ρ → ρ → Bool} {limit : Nat} {order : List κ}
  (success : table.keepFirst condition before limit order = some kept)

include success

theorem get?_keepFirst_eq_some_iff {key : κ} {row : ρ} :
    kept.get? key = some row ↔ table.get? key = some row ∧
      (condition key row = true → key ∈ order.take limit) := by
  unfold keepFirst at success
  split at success
  · cases success
    rw [get?_deleteWhere_eq_some_iff]
    cases condition key row <;> simp
  · cases success

theorem orders_of_keepFirst :
    table.orders condition before order = true := by
  unfold keepFirst at success
  split at success
  · assumption
  · cases success

theorem count_keepFirst :
    kept.count condition = min limit (table.count condition) := by
  obtain ⟨permutation, _⟩ :=
    orders_eq_true_iff.mp (orders_of_keepFirst success)
  have nodup : order.Nodup :=
    permutation.nodup_iff.mpr (table.nodup_keysWhere condition)
  have left : (kept.keysWhere condition).Perm (order.take limit) := by
    apply (List.perm_ext_iff_of_nodup (kept.nodup_keysWhere condition)
      (nodup.sublist (List.take_sublist _ _))).mpr
    intro key
    rw [mem_keysWhere]
    constructor
    · intro selected
      obtain ⟨row, found, holds⟩ := selected
      exact ((get?_keepFirst_eq_some_iff success).mp found).2 holds
    · intro listed
      have inOrder := List.take_subset _ _ listed
      obtain ⟨row, found, holds⟩ :=
        mem_keysWhere.mp (permutation.mem_iff.mp inOrder)
      exact ⟨row, (get?_keepFirst_eq_some_iff success).mpr
        ⟨found, fun _ => listed⟩, holds⟩
  rw [count, left.length_eq, List.length_take, permutation.length_eq, count]

/-- No deleted row stands before a selected one that is left. -/
theorem before_of_keepFirst {key other : κ} {row otherRow : ρ}
    (isKept : kept.get? key = some row) (holds : condition key row = true)
    (found : table.get? other = some otherRow)
    (deleted : kept.get? other = none) : before row otherRow = true := by
  obtain ⟨permutation, sorted⟩ :=
    orders_eq_true_iff.mp (orders_of_keepFirst success)
  obtain ⟨present, first⟩ := (get?_keepFirst_eq_some_iff success).mp isKept
  have wasSelected :
      condition other otherRow = true ∧ other ∉ order.take limit := by
    by_contra stays
    have isLeft : kept.get? other = some otherRow := by
      apply (get?_keepFirst_eq_some_iff success).mpr
      refine ⟨found, fun selected => ?_⟩
      by_contra absent
      exact stays ⟨selected, absent⟩
    rw [deleted] at isLeft
    cases isLeft
  obtain ⟨selected, notFirst⟩ := wasSelected
  have inOrder : other ∈ order := permutation.mem_iff.mpr
    (mem_keysWhere.mpr ⟨otherRow, found, selected⟩)
  have later : other ∈ order.drop limit := by
    rw [← List.take_append_drop limit order] at inOrder
    exact (List.mem_append.mp inOrder).resolve_left notFirst
  rw [List.pairwise_filterMap, ← List.take_append_drop limit order]
    at sorted
  exact (List.pairwise_append.mp sorted).2.2 key (first holds) other later
    row present otherRow found

end KeepFirst

/-! ## Entries -/

/-- The selected rows with their keys. -/
def entriesWhere (table : Table κ ρ) (condition : κ → ρ → Bool) :
    List (κ × ρ) :=
  table.rows.filter fun entry => condition entry.1 entry.2

omit [DecidableEq κ] in
theorem nodup_entriesWhere (table : Table κ ρ) (condition : κ → ρ → Bool) :
    (table.entriesWhere condition).Nodup :=
  (List.Nodup.of_map Prod.fst table.nodup).filter _

theorem mem_entriesWhere {table : Table κ ρ} {condition : κ → ρ → Bool}
    {key : κ} {row : ρ} :
    (key, row) ∈ table.entriesWhere condition ↔
      table.get? key = some row ∧ condition key row = true := by
  rw [entriesWhere, List.mem_filter, mem_rows_iff]

/-! ## Tables that share the selected rows -/

/-- The rows of one condition in one table are those of another condition in
another table. -/
def SameWhere (left right : Table κ ρ)
    (leftCondition rightCondition : κ → ρ → Bool) : Prop :=
  ∀ key row,
    left.get? key = some row ∧ leftCondition key row = true ↔
      right.get? key = some row ∧ rightCondition key row = true

namespace SameWhere

variable {left right : Table κ ρ}
  {leftCondition rightCondition : κ → ρ → Bool}

theorem symm (same : SameWhere left right leftCondition rightCondition) :
    SameWhere right left rightCondition leftCondition :=
  fun key row => (same key row).symm

theorem refl (table : Table κ ρ) (condition : κ → ρ → Bool) :
    SameWhere table table condition condition :=
  fun _ _ => Iff.rfl

theorem trans {middle : Table κ ρ} {middleCondition : κ → ρ → Bool}
    (first : SameWhere left middle leftCondition middleCondition)
    (second : SameWhere middle right middleCondition rightCondition) :
    SameWhere left right leftCondition rightCondition :=
  fun key row => (first key row).trans (second key row)

theorem get? (same : SameWhere left right leftCondition rightCondition)
    {key : κ} {row : ρ} (found : left.get? key = some row)
    (holds : leftCondition key row = true) :
    right.get? key = some row ∧ rightCondition key row = true :=
  (same key row).mp ⟨found, holds⟩

theorem any_eq (same : SameWhere left right leftCondition rightCondition)
    (key : κ) :
    (left.get? key).any (leftCondition key) =
      (right.get? key).any (rightCondition key) := by
  rw [Bool.eq_iff_iff, Option.any_eq_true, Option.any_eq_true]
  exact exists_congr (same key)

/-- Key by key: the tables hold the same row, which both select or none does,
or neither selects what it holds. -/
theorem of_keys
    (each : ∀ key,
      (left.get? key = right.get? key ∧ ∀ row, left.get? key = some row →
        leftCondition key row = rightCondition key row) ∨
      (∀ row, left.get? key = some row → leftCondition key row = false) ∧
        ∀ row, right.get? key = some row → rightCondition key row = false) :
    SameWhere left right leftCondition rightCondition := by
  intro key row
  rcases each key with ⟨same, alike⟩ | ⟨outside, outside'⟩
  · rw [← same]
    apply and_congr_right
    intro found
    rw [alike row found]
  · constructor
    · rintro ⟨found, holds⟩
      rw [outside row found] at holds
      cases holds
    · rintro ⟨found, holds⟩
      rw [outside' row found] at holds
      cases holds

theorem and (same : SameWhere left right leftCondition rightCondition)
    (leftExtra rightExtra : κ → ρ → Bool)
    (agree : ∀ key row, left.get? key = some row →
      leftCondition key row = true →
      leftExtra key row = rightExtra key row) :
    SameWhere left right
      (fun key row => leftCondition key row && leftExtra key row)
      (fun key row => rightCondition key row && rightExtra key row) := by
  intro key row
  simp only [Bool.and_eq_true]
  constructor
  · rintro ⟨found, holds, extra⟩
    obtain ⟨found', holds'⟩ := same.get? found holds
    exact ⟨found', holds', (agree key row found holds).symm.trans extra⟩
  · rintro ⟨found', holds', extra⟩
    obtain ⟨found, holds⟩ := same.symm.get? found' holds'
    exact ⟨found, holds, (agree key row found holds).trans extra⟩

theorem mapValues {σ : Type v}
    (same : SameWhere left right leftCondition rightCondition)
    {leftValue rightValue : κ → ρ → σ} {leftTest rightTest : κ → σ → Bool}
    (inLeft : ∀ key row,
      leftTest key (leftValue key row) = leftCondition key row)
    (inRight : ∀ key row,
      rightTest key (rightValue key row) = rightCondition key row)
    (agree : ∀ key row, left.get? key = some row →
      leftCondition key row = true → leftValue key row = rightValue key row) :
    SameWhere (left.mapValues leftValue) (right.mapValues rightValue) leftTest
      rightTest := by
  intro key value
  simp only [get?_mapValues, Option.map_eq_some_iff]
  constructor
  · rintro ⟨⟨row, found, rfl⟩, holds⟩
    rw [inLeft] at holds
    obtain ⟨found', holds'⟩ := same.get? found holds
    exact ⟨⟨row, found', (agree key row found holds).symm⟩, by
      rw [agree key row found holds, inRight, holds']⟩
  · rintro ⟨⟨row, found', rfl⟩, holds'⟩
    rw [inRight] at holds'
    obtain ⟨found, holds⟩ := same.symm.get? found' holds'
    have values := agree key row found holds
    exact ⟨⟨row, found, values⟩, by rw [← values, inLeft, holds]⟩

theorem of_imp (same : SameWhere left right leftCondition rightCondition)
    (condition : κ → ρ → Bool)
    (inLeft : ∀ key row, condition key row = true →
      leftCondition key row = true)
    (inRight : ∀ key row, condition key row = true →
      rightCondition key row = true) :
    SameWhere left right condition condition := by
  intro key row
  constructor
  · rintro ⟨found, holds⟩
    exact ⟨(same.get? found (inLeft key row holds)).1, holds⟩
  · rintro ⟨found, holds⟩
    exact ⟨(same.symm.get? found (inRight key row holds)).1, holds⟩

theorem keysWhere_perm
    (same : SameWhere left right leftCondition rightCondition) :
    (left.keysWhere leftCondition).Perm (right.keysWhere rightCondition) := by
  apply (List.perm_ext_iff_of_nodup (left.nodup_keysWhere _)
    (right.nodup_keysWhere _)).mpr
  intro key
  rw [mem_keysWhere, mem_keysWhere]
  exact exists_congr (same key)

theorem entriesWhere_perm
    (same : SameWhere left right leftCondition rightCondition) :
    (left.entriesWhere leftCondition).Perm
      (right.entriesWhere rightCondition) := by
  apply (List.perm_ext_iff_of_nodup (left.nodup_entriesWhere _)
    (right.nodup_entriesWhere _)).mpr
  rintro ⟨key, row⟩
  rw [mem_entriesWhere, mem_entriesWhere]
  exact same key row

theorem count_eq (same : SameWhere left right leftCondition rightCondition) :
    left.count leftCondition = right.count rightCondition :=
  same.keysWhere_perm.length_eq

theorem get?_eq (same : SameWhere left right leftCondition rightCondition)
    {key : κ} (member : key ∈ left.keysWhere leftCondition) :
    left.get? key = right.get? key := by
  obtain ⟨row, found, holds⟩ := mem_keysWhere.mp member
  rw [found, (same.get? found holds).1]

private theorem findMany_of_answered
    (same : SameWhere left right leftCondition rightCondition)
    {before : ρ → ρ → Bool} {order : List κ}
    (possible : left.orders leftCondition before order = true) :
    right.orders rightCondition before order = true ∧
      ∀ page ⊆ order,
        page.filterMap left.row? = page.filterMap right.row? := by
  obtain ⟨permutation, sorted⟩ := orders_eq_true_iff.mp possible
  have lookup : ∀ key ∈ order, left.get? key = right.get? key := by
    intro key member
    exact same.get?_eq (permutation.mem_iff.mp member)
  have rows : order.filterMap left.get? = order.filterMap right.get? :=
    List.filterMap_congr lookup
  constructor
  · apply orders_eq_true_iff.mpr
    exact ⟨permutation.trans same.keysWhere_perm, rows ▸ sorted⟩
  · intro page subset
    apply List.filterMap_congr
    intro key member
    rw [row?, row?, lookup key (subset member)]

/-- Both tables answer the query alike, whatever order the database
chooses. -/
theorem findMany_eq (same : SameWhere left right leftCondition rightCondition)
    (before : ρ → ρ → Bool) (skip take : Nat) (order : List κ) :
    left.findMany leftCondition before skip take order =
      right.findMany rightCondition before skip take order := by
  unfold findMany
  cases possible : left.orders leftCondition before order with
  | true =>
      obtain ⟨possible', pages⟩ := same.findMany_of_answered possible
      have inOrder : (order.drop skip).take take ⊆ order :=
        List.Subset.trans (List.take_subset _ _) (List.drop_subset _ _)
      simp [possible', pages _ inOrder]
  | false =>
      cases possible' : right.orders rightCondition before order with
      | true =>
          have back := (same.symm.findMany_of_answered possible').1
          rw [possible] at back
          cases back
      | false => rfl

end SameWhere

end Table
