import Chronos.Lib.Query

/-!
# Bounded retention

A history grows by entries, and only the first ones of an order are kept of it.
Whoever reads no more of the first entries than are kept cannot tell that the
others are gone: it reads first entries of the whole history.
-/

universe u v

section Lists

variable {α : Type u} {before : α → α → Bool} {limit : Nat}
  {whole kept part : List α}

/-- The part has as many entries of the whole as the limit allows, and none
that is left out has to come before them. -/
structure Foremost (before : α → α → Bool) (limit : Nat)
    (whole part : List α) : Prop where
  length : part.length = min limit whole.length
  behind : ∃ rest, whole.Perm (part ++ rest) ∧
    ∀ entry ∈ part, ∀ other ∈ rest, before entry other = true

/-- Of the whole, only entries are lost that stand behind as many kept ones as
the limit says. -/
def Retains (before : α → α → Bool) (limit : Nat) (whole kept : List α) :
    Prop :=
  ∃ lost, whole.Perm (kept ++ lost) ∧
    ∀ entry ∈ lost, limit ≤ kept.countP (before · entry)

theorem Foremost.of_take {arranged : List α} (same : arranged.Perm whole)
    (sorted : arranged.Pairwise fun first other => before first other = true) :
    Foremost before limit whole (arranged.take limit) := by
  refine ⟨?_, arranged.drop limit, ?_, ?_⟩
  · rw [List.length_take, same.length_eq]
  · rw [List.take_append_drop]
    exact same.symm
  · rw [← List.take_append_drop limit arranged] at sorted
    exact (List.pairwise_append.mp sorted).2.2

theorem Foremost.perm {part' : List α}
    (foremost : Foremost before limit whole part) (same : part.Perm part') :
    Foremost before limit whole part' := by
  obtain ⟨length, rest, split, behind⟩ := foremost
  refine ⟨same.length_eq ▸ length, rest, ?_, ?_⟩
  · exact split.trans (same.append_right rest)
  · intro entry member
    exact behind entry (same.mem_iff.mpr member)

/-- If one entry of a part does not come before an entry, then nothing that
comes behind the part does. -/
private theorem countP_behind {entry : α} {rest : List α}
    (transitive : ∀ a b c, before a b = true → before b c = true →
      before a c = true)
    (behind : ∀ first ∈ part, ∀ other ∈ rest, before first other = true)
    {first : α} (member : first ∈ part)
    (stands : ¬before first entry = true) :
    rest.countP (before · entry) = 0 := by
  apply List.countP_eq_zero.mpr
  intro other inRest precedes
  exact stands (transitive _ _ _ (behind first member other inRest) precedes)

namespace Retains

theorem refl (list : List α) : Retains before limit list list :=
  ⟨[], by simp, by simp⟩

theorem perm {whole' kept' : List α} (retains : Retains before limit whole kept)
    (same : whole.Perm whole') (same' : kept.Perm kept') :
    Retains before limit whole' kept' := by
  obtain ⟨lost, split, many⟩ := retains
  refine ⟨lost, same.symm.trans (split.trans (same'.append_right lost)), ?_⟩
  intro entry member
  rw [← same'.countP_eq]
  exact many entry member

theorem add (retains : Retains before limit whole kept) (entry : α) :
    Retains before limit (whole ++ [entry]) (kept ++ [entry]) := by
  obtain ⟨lost, split, many⟩ := retains
  refine ⟨lost, ?_, ?_⟩
  · apply (split.append_right [entry]).trans
    simp only [List.append_assoc]
    exact List.perm_append_comm.append_left kept
  · intro other member
    rw [List.countP_append]
    exact Nat.le_add_right_of_le (many other member)

/-- Then all but the first ones are lost. -/
theorem keep
    (transitive : ∀ a b c, before a b = true → before b c = true →
      before a c = true)
    (retains : Retains before limit whole kept)
    (foremost : Foremost before limit kept part) :
    Retains before limit whole part := by
  obtain ⟨lost, split, many⟩ := retains
  obtain ⟨length, dropped, rest, behind⟩ := foremost
  have counts : ∀ entry, kept.countP (before · entry) =
      part.countP (before · entry) + dropped.countP (before · entry) := by
    intro entry
    rw [rest.countP_eq, List.countP_append]
  have size : kept.length = part.length + dropped.length := by
    rw [rest.length_eq, List.length_append]
  refine ⟨dropped ++ lost, ?_, ?_⟩
  · rw [← List.append_assoc]
    exact split.trans (rest.append_right lost)
  · intro entry member
    by_cases all : ∀ first ∈ part, before first entry = true
    · rw [List.countP_eq_length.mpr all]
      rcases List.mem_append.mp member with fresh | old
      · have nonempty := List.length_pos_of_mem fresh
        omega
      · have enough := many entry old
        have most := List.countP_le_length (p := (before · entry)) (l := kept)
        omega
    · push Not at all
      obtain ⟨first, inPart, stands⟩ := all
      rcases List.mem_append.mp member with fresh | old
      · exact absurd (behind first inPart entry fresh) stands
      · have none := countP_behind transitive behind inPart stands
        have enough := many entry old
        rw [counts, none] at enough
        exact enough

/-- Who reads at most as many entries as are kept reads first entries of the
whole history. -/
theorem foremost
    (transitive : ∀ a b c, before a b = true → before b c = true →
      before a c = true)
    (retains : Retains before limit whole kept) {take : Nat}
    (few : take ≤ limit) (foremost : Foremost before take kept part) :
    Foremost before take whole part := by
  obtain ⟨lost, split, many⟩ := retains
  obtain ⟨length, rest, split', behind⟩ := foremost
  have size : whole.length = kept.length + lost.length := by
    rw [split.length_eq, List.length_append]
  refine ⟨?_, rest ++ lost, ?_, ?_⟩
  · cases lost with
    | nil => simpa [size] using length
    | cons entry lost =>
        have enough := many entry List.mem_cons_self
        have most := List.countP_le_length (p := (before · entry)) (l := kept)
        omega
  · rw [← List.append_assoc]
    exact split.trans (split'.append_right lost)
  · intro first inPart entry member
    rcases List.mem_append.mp member with shown | old
    · exact behind first inPart entry shown
    · by_contra stands
      -- the entry would stand behind fewer kept ones than the limit says
      have none := countP_behind transitive behind inPart stands
      have enough := many entry old
      rw [split'.countP_eq, List.countP_append, none] at enough
      have less : part.countP (before · entry) < part.length := by
        apply lt_of_le_of_ne List.countP_le_length
        intro full
        exact stands (List.countP_eq_length.mp full first inPart)
      omega

end Retains

end Lists

/-! ## Rows of a table -/

namespace Table

variable {κ : Type u} {ρ : Type v} {table kept : Table κ ρ}
  {condition : κ → ρ → Bool} {before : ρ → ρ → Bool}

/-- Of two entries, the order compares the rows. -/
def beforeEntry (before : ρ → ρ → Bool) (left right : κ × ρ) : Bool :=
  before left.2 right.2

theorem beforeEntry_trans
    (transitive : ∀ a b c, before a b = true → before b c = true →
      before a c = true) (a b c : κ × ρ)
    (first : beforeEntry before a b = true)
    (second : beforeEntry before b c = true) :
    beforeEntry before a c = true :=
  transitive _ _ _ first second

variable [DecidableEq κ] {limit : Nat} {order : List κ}

theorem entriesWhere_insert? {inserted : Table κ ρ} {key : κ} {row : ρ}
    (success : table.insert? key row = some inserted) :
    inserted.entriesWhere condition = table.entriesWhere condition ++
      if condition key row then [(key, row)] else [] := by
  obtain ⟨_, rows⟩ := insert?_eq_some_iff.mp success
  rw [entriesWhere, entriesWhere, rows, List.filter_append, List.filter_cons]
  rfl

theorem filterMap_row? {entries : List (κ × ρ)}
    (found : ∀ entry ∈ entries, table.get? entry.1 = some entry.2) :
    (entries.map Prod.fst).filterMap table.row? = entries := by
  rw [List.filterMap_map]
  have same : ∀ entry ∈ entries,
      (table.row? ∘ Prod.fst) entry = some entry := by
    intro entry member
    rw [Function.comp_apply, row?_eq_some_iff]
    exact ⟨rfl, found entry member⟩
  rw [List.filterMap_congr same, List.filterMap_some]

theorem exists_entries
    (possible : table.orders condition before order = true) :
    ∃ entries : List (κ × ρ), entries.map Prod.fst = order ∧
      entries.Perm (table.entriesWhere condition) ∧
      (∀ entry ∈ entries, table.get? entry.1 = some entry.2) ∧
      entries.Pairwise fun left right =>
        beforeEntry before left right = true := by
  obtain ⟨permutation, sorted⟩ := orders_eq_true_iff.mp possible
  have inTable : ∀ entry ∈ order.filterMap table.row?,
      table.get? entry.1 = some entry.2 := by
    intro entry member
    obtain ⟨key, _, isRow⟩ := List.mem_filterMap.mp member
    obtain ⟨rfl, found⟩ := row?_eq_some_iff.mp isRow
    exact found
  refine ⟨order.filterMap table.row?, ?_, ?_, inTable, ?_⟩
  · have selected : ∀ key ∈ order,
        (table.row? key).map Prod.fst = some key := by
      intro key member
      obtain ⟨row, found, _⟩ :=
        mem_keysWhere.mp (permutation.mem_iff.mp member)
      rw [row?, found]
      rfl
    rw [List.map_filterMap, List.filterMap_congr selected,
      List.filterMap_some]
  · apply (permutation.filterMap table.row?).trans
    apply List.Perm.of_eq
    apply filterMap_row?
    intro entry member
    exact (mem_entriesWhere.mp member).1
  · rw [List.pairwise_filterMap] at sorted ⊢
    apply sorted.imp
    intro left right stands entry isLeft other isRight
    obtain ⟨rfl, found⟩ := row?_eq_some_iff.mp isLeft
    obtain ⟨rfl, found'⟩ := row?_eq_some_iff.mp isRight
    exact stands _ found _ found'

theorem foremost_of_findMany {answer : List (κ × ρ)}
    (answered : table.findMany condition before 0 limit order =
      some answer) :
    Foremost (beforeEntry before) limit (table.entriesWhere condition)
        answer ∧
      answer.Pairwise fun left right =>
        beforeEntry before left right = true := by
  obtain ⟨possible, rfl⟩ := findMany_eq_some_iff.mp answered
  obtain ⟨entries, rfl, same, found, sorted⟩ := exists_entries possible
  have first : ∀ entry ∈ entries.take limit,
      table.get? entry.1 = some entry.2 :=
    fun entry member => found entry (List.take_subset _ _ member)
  rw [List.drop_zero, ← List.map_take, filterMap_row? first]
  exact ⟨.of_take same sorted, sorted.sublist (List.take_sublist _ _)⟩

theorem foremost_of_keepFirst
    (success : table.keepFirst condition before limit order = some kept) :
    Foremost (beforeEntry before) limit (table.entriesWhere condition)
      (kept.entriesWhere condition) := by
  obtain ⟨entries, rfl, same, found, sorted⟩ :=
    exists_entries (orders_of_keepFirst success)
  apply (Foremost.of_take same sorted).perm
  have nodup : entries.Nodup :=
    same.nodup_iff.mpr (table.nodup_entriesWhere condition)
  apply (List.perm_ext_iff_of_nodup
    (nodup.sublist (List.take_sublist _ _))
    (kept.nodup_entriesWhere condition)).mpr
  rintro ⟨key, row⟩
  rw [mem_entriesWhere, get?_keepFirst_eq_some_iff success, ← List.map_take]
  constructor
  · intro member
    have whole := List.take_subset _ _ member
    have selected := mem_entriesWhere.mp (same.mem_iff.mp whole)
    exact ⟨⟨selected.1, fun _ => List.mem_map_of_mem member⟩, selected.2⟩
  · intro isKept
    obtain ⟨⟨inTable, first⟩, holds⟩ := isKept
    obtain ⟨⟨key', row'⟩, member, rfl⟩ := List.mem_map.mp (first holds)
    have inTable' := found _ (List.take_subset _ _ member)
    cases inTable.symm.trans inTable'
    exact member

end Table
