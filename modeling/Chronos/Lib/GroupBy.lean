import Chronos.Lib.Query
import Mathlib.Algebra.BigOperators.Group.List.Lemmas
import Mathlib.Algebra.GroupWithZero.Nat

/-!
# Grouping and counting

`groupBy` counts the selected rows of a table by one of their values in a
single query.  The database returns the groups in an order of its choice, and
returns none that is empty.  The counts are those of separate queries, one for
each group, and add up to the count of all selected rows.
-/

universe u v w

/-- Written in turn, entries with different keys are all kept. -/
theorem List.foldl_update_eq {α : Type u} {β : Type v} [DecidableEq α]
    {entries : List (α × β)} (nodup : (entries.map Prod.fst).Nodup)
    (initial : α → β) (key : α) :
    (∀ value, (key, value) ∈ entries →
      entries.foldl (fun written entry =>
        Function.update written entry.1 entry.2) initial key = value) ∧
    ((∀ value, (key, value) ∉ entries) →
      entries.foldl (fun written entry =>
        Function.update written entry.1 entry.2) initial key =
          initial key) := by
  induction entries generalizing initial with
  | nil =>
      constructor
      · intro value member
        cases member
      · intro absent
        rfl
  | cons entry entries induction =>
      obtain ⟨first, nodup⟩ := List.nodup_cons.mp nodup
      have rest := induction nodup (Function.update initial entry.1 entry.2)
      rw [List.foldl_cons]
      constructor
      · intro value member
        rcases List.mem_cons.mp member with rfl | later
        · rw [rest.2, Function.update_self]
          intro other member
          exact first (List.mem_map.mpr ⟨_, member, rfl⟩)
        · exact rest.1 value later
      · intro absent
        rw [rest.2, Function.update_of_ne]
        · intro same
          exact absent entry.2 (by rw [same]; exact List.mem_cons_self)
        · intro value member
          exact absent value (List.mem_cons_of_mem _ member)

namespace Table

variable {κ : Type u} {ρ : Type v} {γ : Type w} {table : Table κ ρ}
  {condition : κ → ρ → Bool} {value : ρ → γ}

/-- The values of the selected rows, once for each row. -/
def valuesWhere (table : Table κ ρ) (condition : κ → ρ → Bool)
    (value : ρ → γ) : List γ :=
  (table.entriesWhere condition).map fun entry => value entry.2

theorem length_valuesWhere (table : Table κ ρ) (condition : κ → ρ → Bool)
    (value : ρ → γ) :
    (table.valuesWhere condition value).length = table.count condition := by
  rw [valuesWhere, List.length_map, count, keysWhere, List.length_map,
    entriesWhere]

variable [DecidableEq γ]

/-- `groupBy({ by, where, _count })`. -/
def groupBy (table : Table κ ρ) (condition : κ → ρ → Bool) (value : ρ → γ)
    (order : List γ) : Option (List (γ × Nat)) :=
  if order.Perm (table.valuesWhere condition value).dedup then
    some (order.map fun group =>
      (group, (table.valuesWhere condition value).count group))
  else none

theorem groupBy_eq_some_iff {order : List γ} {groups : List (γ × Nat)} :
    table.groupBy condition value order = some groups ↔
      order.Perm (table.valuesWhere condition value).dedup ∧
        order.map (fun group =>
          (group, (table.valuesWhere condition value).count group)) =
          groups := by
  unfold groupBy
  split
  · simp [*]
  · simp [*]

theorem count_valuesWhere (group : γ) :
    (table.valuesWhere condition value).count group =
      table.count fun key row => condition key row && value row = group := by
  rw [count, keysWhere, List.length_map, valuesWhere, entriesWhere, List.count,
    List.countP_map, List.countP_filter, List.countP_eq_length_filter]
  congr 1
  apply List.filter_congr
  intro entry _
  simp only [Function.comp_apply, beq_eq_decide, Bool.and_comm]

theorem exists_groupBy (table : Table κ ρ) (condition : κ → ρ → Bool)
    (value : ρ → γ) :
    ∃ order groups, table.groupBy condition value order = some groups :=
  ⟨_, _, groupBy_eq_some_iff.mpr ⟨.refl _, rfl⟩⟩

section Answered

variable {order : List γ} {groups : List (γ × Nat)}
  (answered : table.groupBy condition value order = some groups)

include answered

theorem mem_groupBy (group : γ) (number : Nat) :
    (group, number) ∈ groups ↔ 0 < number ∧ number =
      table.count fun key row => condition key row && value row = group := by
  obtain ⟨permutation, rfl⟩ := groupBy_eq_some_iff.mp answered
  have listed : group ∈ order ↔
      0 < (table.valuesWhere condition value).count group := by
    rw [permutation.mem_iff, List.mem_dedup, List.count_pos_iff]
  rw [← count_valuesWhere]
  constructor
  · intro member
    obtain ⟨other, inOrder, same⟩ := List.mem_map.mp member
    cases same
    exact ⟨listed.mp inOrder, rfl⟩
  · intro counted
    obtain ⟨positive, rfl⟩ := counted
    exact List.mem_map.mpr ⟨group, listed.mpr positive, rfl⟩

theorem nodup_groupBy : (groups.map Prod.fst).Nodup := by
  obtain ⟨permutation, rfl⟩ := groupBy_eq_some_iff.mp answered
  rw [List.map_map]
  have keys : (order.map (Prod.fst ∘ fun group =>
      (group, (table.valuesWhere condition value).count group))) = order :=
    List.map_id' order
  rw [keys]
  exact permutation.nodup_iff.mpr (List.nodup_dedup _)

theorem sum_groupBy : (groups.map Prod.snd).sum = table.count condition := by
  obtain ⟨permutation, rfl⟩ := groupBy_eq_some_iff.mp answered
  have counts : ((order.map fun group =>
      (table.valuesWhere condition value).count group)).sum =
      (table.valuesWhere condition value).length := by
    rw [(permutation.map _).sum_nat]
    exact List.sum_map_count_dedup_eq_length _
  rw [List.map_map, ← length_valuesWhere table condition value]
  exact counts

end Answered

private theorem countP_contains_cons {α : Type u} {parent : γ}
    {parents : List γ} (absent : parent ∉ parents) (parentOf : α → γ)
    (holds : α → Bool) (list : List α) :
    (list.countP fun entry =>
        (parent :: parents).contains (parentOf entry) && holds entry) =
      (list.countP fun entry =>
          decide (parentOf entry = parent) && holds entry) +
        list.countP fun entry =>
          parents.contains (parentOf entry) && holds entry := by
  induction list with
  | nil => rfl
  | cons entry list induction =>
      simp only [List.countP_cons, induction]
      by_cases same : parentOf entry = parent
      · have outside : parents.contains parent = false := by
          rw [List.contains_eq_mem]
          exact decide_eq_false absent
        simp only [List.contains_cons, outside, same, beq_self_eq_true,
          decide_true, Bool.true_or, Bool.true_and, Bool.false_and,
          Bool.false_eq_true, if_false]
        omega
      · have other : (parentOf entry == parent) = false :=
          beq_eq_false_iff_ne.mpr same
        simp only [List.contains_cons, other, same, decide_false,
          Bool.false_or, Bool.false_and, Bool.false_eq_true, if_false]
        omega

/-- A count over the rows with one of several parents is the sum of the
counts for each of them. -/
theorem count_contains_eq_sum (table : Table κ ρ)
    (condition : κ → ρ → Bool) (value : ρ → γ) {parents : List γ}
    (nodup : parents.Nodup) :
    (table.count fun key row =>
        parents.contains (value row) && condition key row) =
      (parents.map fun parent => table.count fun key row =>
        decide (value row = parent) && condition key row).sum := by
  induction parents with
  | nil => simp [count, keysWhere]
  | cons parent parents induction =>
      obtain ⟨absent, nodup⟩ := List.nodup_cons.mp nodup
      rw [List.map_cons, List.sum_cons, ← induction nodup]
      simp only [count, keysWhere, List.length_map,
        ← List.countP_eq_length_filter]
      exact countP_contains_cons absent (fun entry => value entry.2)
        (fun entry => condition entry.1 entry.2) table.rows

end Table

namespace Table.SameWhere

variable {κ : Type u} {ρ : Type v} {γ : Type w} [DecidableEq κ]
  [DecidableEq γ] {left right : Table κ ρ}
  {leftCondition rightCondition : κ → ρ → Bool}

omit [DecidableEq γ] in
theorem valuesWhere_perm
    (same : SameWhere left right leftCondition rightCondition)
    (value : ρ → γ) :
    (left.valuesWhere leftCondition value).Perm
      (right.valuesWhere rightCondition value) :=
  same.entriesWhere_perm.map _

theorem groupBy_eq
    (same : SameWhere left right leftCondition rightCondition)
    (value : ρ → γ) (order : List γ) :
    left.groupBy leftCondition value order =
      right.groupBy rightCondition value order := by
  have values := same.valuesWhere_perm value
  have groups := values.dedup
  unfold groupBy
  simp only [values.count_eq]
  congr 1
  exact propext ⟨fun first => first.trans groups,
    fun first => first.trans groups.symm⟩

end Table.SameWhere
