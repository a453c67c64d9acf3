import Mathlib.Data.List.Nodup
import Mathlib.Data.List.Perm.Subperm
import Mathlib.Data.Fintype.EquivFin

/-!
# Tables with a primary key

A table is a finite list of rows addressed by pairwise distinct keys.  Rows
keep the order in which they were inserted.  The operations are the ones a
relational store offers: point lookup, insertion of a fresh key, update of
the rows in place, deletion, and the scan for all keys whose row satisfies a
condition.
-/

universe u v

/-- A finite table with pairwise distinct keys, in insertion order. -/
structure Table (κ : Type u) (ρ : Type v) where
  rows : List (κ × ρ)
  nodup : (rows.map Prod.fst).Nodup

namespace Table

variable {κ : Type u} {ρ : Type v}

/-- The table without rows. -/
def empty : Table κ ρ := ⟨[], List.nodup_nil⟩

/-- Update every row in place; keys do not change. -/
def mapRows (table : Table κ ρ) (update : κ → ρ → ρ) : Table κ ρ where
  rows := table.rows.map fun row => (row.1, update row.1 row.2)
  nodup := by
    rw [List.map_map]
    exact table.nodup

/-- The same keys, with rows of another type. -/
def mapValues {σ : Type*} (table : Table κ ρ) (value : κ → ρ → σ) :
    Table κ σ where
  rows := table.rows.map fun row => (row.1, value row.1 row.2)
  nodup := by
    rw [List.map_map]
    exact table.nodup

/-- The table of a list, whose entries get pairwise distinct keys by their
position. -/
def ofList (key : Nat ↪ κ) (list : List ρ) : Table κ ρ where
  rows := list.zipIdx.map fun entry => (key entry.2, entry.1)
  nodup := by
    have keys : (list.zipIdx.map fun entry => (key entry.2, entry.1)).map
        Prod.fst = (List.range' 0 list.length).map key := by
      rw [List.map_map, ← List.zipIdx_map_snd, List.map_map]
      rfl
    rw [keys]
    exact List.Nodup.map key.injective List.nodup_range'

/-- The keys of the rows that satisfy a condition, in insertion order. -/
def keysWhere (table : Table κ ρ) (condition : κ → ρ → Bool) : List κ :=
  (table.rows.filter fun row => condition row.1 row.2).map Prod.fst

/-- The rows that satisfy a condition with their keys, in insertion order. -/
def rowsWhere (table : Table κ ρ) (condition : ρ → Bool) : List (κ × ρ) :=
  table.rows.filter fun entry => condition entry.2

/-- The number of rows that satisfy a condition. -/
def count (table : Table κ ρ) (condition : κ → ρ → Bool) : Nat :=
  (table.keysWhere condition).length

theorem nodup_keysWhere (table : Table κ ρ) (condition : κ → ρ → Bool) :
    (table.keysWhere condition).Nodup :=
  table.nodup.sublist (List.Sublist.map _ List.filter_sublist)

theorem nodup_rowsWhere (table : Table κ ρ) (condition : ρ → Bool) :
    ((table.rowsWhere condition).map Prod.fst).Nodup :=
  table.nodup.sublist (List.Sublist.map _ List.filter_sublist)

variable [DecidableEq κ]

/-- Point lookup. -/
def get? (table : Table κ ρ) (key : κ) : Option ρ :=
  (table.rows.find? fun row => row.1 = key).map Prod.snd

/-- Insertion at the end; refused when the key is taken. -/
def insert? (table : Table κ ρ) (key : κ) (row : ρ) : Option (Table κ ρ) :=
  if fresh : key ∉ table.rows.map Prod.fst then
    some
      { rows := table.rows ++ [(key, row)]
        nodup := by
          rw [List.map_append]
          refine List.Nodup.append table.nodup (by simp) ?_
          intro other member single
          simp only [List.map_cons, List.map_nil, List.mem_singleton] at single
          exact fresh (single ▸ member) }
  else none

/-- Update the row of one key. -/
def modify (table : Table κ ρ) (key : κ) (update : ρ → ρ) : Table κ ρ :=
  table.mapRows fun other row => if other = key then update row else row

/-- Delete the row of one key. -/
def erase (table : Table κ ρ) (key : κ) : Table κ ρ where
  rows := table.rows.filter fun row => row.1 ≠ key
  nodup := table.nodup.sublist (List.Sublist.map _ List.filter_sublist)

private theorem find?_key_eq_some_iff {rows : List (κ × ρ)}
    (nodup : (rows.map Prod.fst).Nodup) {key : κ} {row : ρ} :
    (rows.find? fun entry => entry.1 = key).map Prod.snd = some row ↔
      (key, row) ∈ rows := by
  induction rows with
  | nil => simp
  | cons head tail induction =>
      obtain ⟨headKey, headRow⟩ := head
      simp only [List.map_cons, List.nodup_cons] at nodup
      by_cases same : headKey = key
      · subst headKey
        have absent : (key, row) ∉ tail := by
          intro member
          exact nodup.1 (List.mem_map.mpr ⟨_, member, rfl⟩)
        simp [absent, eq_comm]
      · have different : key ≠ headKey := Ne.symm same
        simp [same, different, induction nodup.2]

theorem mem_rows_iff {table : Table κ ρ} {key : κ} {row : ρ} :
    (key, row) ∈ table.rows ↔ table.get? key = some row :=
  (find?_key_eq_some_iff table.nodup).symm

@[simp] theorem get?_empty (key : κ) :
    (empty : Table κ ρ).get? key = none := rfl

theorem mem_keysWhere {table : Table κ ρ} {condition : κ → ρ → Bool}
    {key : κ} :
    key ∈ table.keysWhere condition ↔
      ∃ row, table.get? key = some row ∧ condition key row = true := by
  simp only [keysWhere, List.mem_map, List.mem_filter, Prod.exists,
    ← mem_rows_iff]
  constructor
  · rintro ⟨other, row, ⟨member, holds⟩, rfl⟩
    exact ⟨row, member, holds⟩
  · rintro ⟨row, member, holds⟩
    exact ⟨key, row, ⟨member, holds⟩, rfl⟩

@[simp] theorem get?_mapValues {σ : Type*} (table : Table κ ρ)
    (value : κ → ρ → σ) (key : κ) :
    (table.mapValues value).get? key = (table.get? key).map (value key) := by
  have keys : (fun row : κ × σ => decide (row.1 = key)) ∘
      (fun row : κ × ρ => (row.1, value row.1 row.2)) =
      fun row => decide (row.1 = key) := rfl
  unfold get? mapValues
  rw [List.find?_map, keys, Option.map_map, Option.map_map]
  apply Option.map_congr
  intro row found
  have same : row.1 = key := by simpa using List.find?_some found
  rw [Function.comp_apply, Function.comp_apply, same]

@[simp] theorem get?_mapRows (table : Table κ ρ) (update : κ → ρ → ρ)
    (key : κ) :
    (table.mapRows update).get? key = (table.get? key).map (update key) :=
  get?_mapValues table update key

theorem get?_ofList_eq_some_iff {key : Nat ↪ κ} {list : List ρ} {other : κ}
    {row : ρ} :
    (ofList key list).get? other = some row ↔
      ∃ position, key position = other ∧ list[position]? = some row := by
  rw [← mem_rows_iff]
  simp only [ofList, List.mem_map, Prod.mk.injEq, Prod.exists,
    List.mem_zipIdx_iff_getElem?]
  constructor
  · rintro ⟨row, position, found, rfl, rfl⟩
    exact ⟨position, rfl, found⟩
  · rintro ⟨position, rfl, found⟩
    exact ⟨row, position, found, rfl, rfl⟩

theorem get?_ofList_append (key : Nat ↪ κ) (list added : List ρ) (other : κ) :
    (ofList key (list ++ added)).get? other = (ofList key list).get? other ∨
      (ofList key list).get? other = none ∧
        ∃ row ∈ added,
          (ofList key (list ++ added)).get? other = some row := by
  cases found : (ofList key (list ++ added)).get? other with
  | none =>
      refine .inl (Eq.symm ?_)
      rw [Option.eq_none_iff_forall_ne_some] at found ⊢
      intro row present
      obtain ⟨position, isKey, isRow⟩ := get?_ofList_eq_some_iff.mp present
      apply found row
      rw [get?_ofList_eq_some_iff]
      refine ⟨position, isKey, ?_⟩
      rw [List.getElem?_append_left (List.getElem?_eq_some_iff.mp isRow).1]
      exact isRow
  | some row =>
      obtain ⟨position, isKey, isRow⟩ := get?_ofList_eq_some_iff.mp found
      by_cases old : position < list.length
      · rw [List.getElem?_append_left old] at isRow
        exact .inl (get?_ofList_eq_some_iff.mpr ⟨position, isKey, isRow⟩).symm
      · have later : list.length ≤ position := Nat.not_lt.mp old
        rw [List.getElem?_append_right later] at isRow
        refine .inr ⟨?_, row, List.mem_of_getElem? isRow, rfl⟩
        rw [Option.eq_none_iff_forall_ne_some]
        intro row' present
        obtain ⟨position', isKey', isRow'⟩ :=
          get?_ofList_eq_some_iff.mp present
        cases key.injective (isKey'.trans isKey.symm)
        exact old (List.getElem?_eq_some_iff.mp isRow').1

theorem get?_modify (table : Table κ ρ) (key other : κ) (update : ρ → ρ) :
    (table.modify key update).get? other =
      (table.get? other).map fun row =>
        if other = key then update row else row :=
  get?_mapRows ..

@[simp] theorem get?_modify_self (table : Table κ ρ) (key : κ)
    (update : ρ → ρ) :
    (table.modify key update).get? key = (table.get? key).map update := by
  simp [get?_modify]

@[simp] theorem get?_modify_of_ne (table : Table κ ρ) {key other : κ}
    (update : ρ → ρ) (different : other ≠ key) :
    (table.modify key update).get? other = table.get? other := by
  simp [get?_modify, different]

theorem modify_eq_self_iff {table : Table κ ρ} {key : κ} {update : ρ → ρ} :
    table.modify key update = table ↔
      ∀ row, table.get? key = some row → update row = row := by
  constructor
  · intro same row found
    have after := get?_modify_self table key update
    rw [same, found] at after
    exact (Option.some.inj after).symm
  · intro fixed
    obtain ⟨rows, nodup⟩ := table
    simp only [modify, mapRows, Table.mk.injEq]
    refine (List.map_congr_left ?_).trans (List.map_id rows)
    rintro ⟨other, row⟩ member
    by_cases same : other = key
    · subst other
      simp [fixed row (mem_rows_iff.mp member)]
    · simp [same]

theorem get?_eq_none_iff {table : Table κ ρ} {key : κ} :
    table.get? key = none ↔ key ∉ table.rows.map Prod.fst := by
  constructor
  · intro absent member
    obtain ⟨⟨other, row⟩, rowMember, rfl⟩ := List.mem_map.mp member
    simp [mem_rows_iff.mp rowMember] at absent
  · intro absent
    cases found : table.get? key with
    | none => rfl
    | some row =>
        exact (absent
          (List.mem_map.mpr ⟨_, mem_rows_iff.mpr found, rfl⟩)).elim

theorem insert?_eq_some_iff {table inserted : Table κ ρ} {key : κ} {row : ρ} :
    table.insert? key row = some inserted ↔
      table.get? key = none ∧ inserted.rows = table.rows ++ [(key, row)] := by
  rw [get?_eq_none_iff, insert?]
  split <;> rename_i fresh
  · obtain ⟨rows, nodup⟩ := inserted
    simp only [Option.some.injEq, Table.mk.injEq]
    exact ⟨fun equality => ⟨fresh, equality.symm⟩, fun both => both.2.symm⟩
  · constructor
    · intro impossible
      cases impossible
    · intro both
      exact (fresh both.1).elim

theorem get?_insert? {table inserted : Table κ ρ} {key other : κ} {row : ρ}
    (success : table.insert? key row = some inserted) :
    inserted.get? other =
      if other = key then some row else table.get? other := by
  obtain ⟨absent, rows⟩ := insert?_eq_some_iff.mp success
  have lookup : inserted.get? other = (table.get? other).or
      (if other = key then some row else none) := by
    rw [get?, rows, List.find?_append, Option.map_or]
    congr 1
    by_cases same : other = key
    · simp [same]
    · have reverse : key ≠ other := Ne.symm same
      simp [same, reverse]
  rw [lookup]
  by_cases same : other = key
  · simp [same, absent]
  · simp [same]

theorem exists_insert? {table : Table κ ρ} {key : κ} (row : ρ)
    (absent : table.get? key = none) :
    ∃ inserted, table.insert? key row = some inserted := by
  simp [insert?, get?_eq_none_iff.mp absent]

@[simp] theorem get?_erase (table : Table κ ρ) (key other : κ) :
    (table.erase key).get? other =
      if other = key then none else table.get? other := by
  rw [Option.ext_iff]
  intro row
  rw [← mem_rows_iff]
  by_cases same : other = key
  · simp [erase, same]
  · simp [erase, same, mem_rows_iff]

omit [DecidableEq κ] in
theorem count_ofList (key : Nat ↪ κ) (list : List ρ) (condition : ρ → Bool) :
    (ofList key list).count (fun _ row => condition row) =
      list.countP condition := by
  have rows : list.zipIdx.map Prod.fst = list := List.zipIdx_map_fst 0 list
  calc (ofList key list).count (fun _ row => condition row)
      = (list.zipIdx.map fun entry => (key entry.2, entry.1)).countP
          fun row => condition row.2 := by
        rw [count, keysWhere, List.length_map, List.countP_eq_length_filter]
        rfl
    _ = (list.zipIdx.map Prod.fst).countP condition := by
        rw [List.countP_map, List.countP_map]
        rfl
    _ = list.countP condition := by rw [rows]

/-- Counting is monotone in the set of counted keys, also across two tables
and two conditions. -/
theorem count_le_of_imp {small large : Table κ ρ}
    {smallCondition largeCondition : κ → ρ → Bool}
    (included : ∀ key row, small.get? key = some row →
      smallCondition key row = true →
      ∃ other, large.get? key = some other ∧
        largeCondition key other = true) :
    small.count smallCondition ≤ large.count largeCondition := by
  refine ((small.nodup_keysWhere smallCondition).subperm ?_).length_le
  intro key member
  obtain ⟨row, found, holds⟩ := mem_keysWhere.mp member
  exact mem_keysWhere.mpr (included key row found holds)

/-- If the counted keys of the larger table are among those of the smaller
one and a list of extra keys, its count grew by at most that many. -/
theorem count_le_add_length {small large : Table κ ρ} {extra : List κ}
    {smallCondition largeCondition : κ → ρ → Bool}
    (covered : ∀ key row, large.get? key = some row →
      largeCondition key row = true → key ∉ extra →
      ∃ other, small.get? key = some other ∧
        smallCondition key other = true) :
    large.count largeCondition ≤
      small.count smallCondition + extra.length := by
  rw [count, count, ← List.length_append]
  refine ((large.nodup_keysWhere largeCondition).subperm ?_).length_le
  intro key member
  obtain ⟨row, found, holds⟩ := mem_keysWhere.mp member
  by_cases isExtra : key ∈ extra
  · exact List.mem_append_right _ isExtra
  · exact List.mem_append_left _
      (mem_keysWhere.mpr (covered key row found holds isExtra))

theorem count_lt_of_imp {small large : Table κ ρ} {key : κ} {row : ρ}
    {smallCondition largeCondition : κ → ρ → Bool}
    (included : ∀ key row, small.get? key = some row →
      smallCondition key row = true →
      ∃ other, large.get? key = some other ∧
        largeCondition key other = true)
    (found : large.get? key = some row)
    (counted : largeCondition key row = true)
    (lost : ∀ other, small.get? key = some other →
      smallCondition key other = false) :
    small.count smallCondition < large.count largeCondition := by
  have absent : key ∉ small.keysWhere smallCondition := by
    intro member
    obtain ⟨other, otherFound, holds⟩ := mem_keysWhere.mp member
    simp [lost other otherFound] at holds
  have nodup : (key :: small.keysWhere smallCondition).Nodup :=
    List.nodup_cons.mpr ⟨absent, small.nodup_keysWhere smallCondition⟩
  refine (nodup.subperm ?_).length_le
  intro other member
  rcases List.mem_cons.mp member with rfl | tail
  · exact mem_keysWhere.mpr ⟨row, found, counted⟩
  · obtain ⟨otherRow, otherFound, holds⟩ := mem_keysWhere.mp tail
    exact mem_keysWhere.mpr (included other otherRow otherFound holds)

/-- A table is finite, so over an infinite key type some key is free. -/
theorem exists_fresh [Infinite κ] (table : Table κ ρ) :
    ∃ key, table.get? key = none := by
  obtain ⟨key, absent⟩ := Infinite.exists_notMem_finset
    (table.rows.map Prod.fst).toFinset
  exact ⟨key, get?_eq_none_iff.mpr (by simpa using absent)⟩

/-! ## The rows of a condition -/

theorem rowsWhere_insert? {table inserted : Table κ ρ} {key : κ} {row : ρ}
    (condition : ρ → Bool) (success : table.insert? key row = some inserted) :
    inserted.rowsWhere condition = table.rowsWhere condition ++
      if condition row then [(key, row)] else [] := by
  obtain ⟨-, rows⟩ := insert?_eq_some_iff.mp success
  simp only [rowsWhere, rows, List.filter_append]
  cases holds : condition row <;> simp [holds]

theorem rowsWhere_modify (table : Table κ ρ) (key : κ) {update : ρ → ρ}
    {condition : ρ → Bool}
    (keeps : ∀ row, condition (update row) = condition row) :
    (table.modify key update).rowsWhere condition =
      (table.rowsWhere condition).map fun entry =>
        (entry.1, if entry.1 = key then update entry.2 else entry.2) := by
  simp only [rowsWhere, modify, mapRows, List.filter_map]
  congr 2
  funext entry
  simp only [Function.comp_apply]
  split
  · exact keeps entry.2
  · rfl

theorem rowsWhere_modify_of_not {table : Table κ ρ} {key : κ} {row : ρ}
    {update : ρ → ρ} {condition : ρ → Bool}
    (keeps : ∀ row, condition (update row) = condition row)
    (found : table.get? key = some row) (outside : condition row = false) :
    (table.modify key update).rowsWhere condition =
      table.rowsWhere condition := by
  rw [rowsWhere_modify table key keeps]
  have unchanged : ∀ entry ∈ table.rowsWhere condition,
      (entry.1, if entry.1 = key then update entry.2 else entry.2) =
        entry := by
    rintro ⟨other, otherRow⟩ member
    obtain ⟨inRows, holds⟩ := List.mem_filter.mp member
    rw [if_neg]
    rintro rfl
    have same := found.symm.trans (mem_rows_iff.mp inRows)
    cases same
    simp [outside] at holds
  rw [List.map_congr_left unchanged, List.map_id']

theorem rowsWhere_modify_last {table : Table κ ρ} {key : κ} {row : ρ}
    {update : ρ → ρ} {condition : ρ → Bool} {earlier : List (κ × ρ)}
    (keeps : ∀ row, condition (update row) = condition row)
    (rows : table.rowsWhere condition = earlier ++ [(key, row)]) :
    (table.modify key update).rowsWhere condition =
      earlier ++ [(key, update row)] := by
  have distinct := table.nodup_rowsWhere condition
  rw [rows, List.map_append, List.nodup_append] at distinct
  rw [rowsWhere_modify table key keeps, rows, List.map_append]
  have unchanged : ∀ entry ∈ earlier,
      (entry.1, if entry.1 = key then update entry.2 else entry.2) =
        entry := by
    intro entry member
    rw [if_neg]
    exact distinct.2.2 _ (List.mem_map_of_mem member) key (by simp)
  rw [List.map_congr_left unchanged, List.map_id']
  simp

end Table
