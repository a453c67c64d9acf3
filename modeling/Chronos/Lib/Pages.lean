import Mathlib.Data.List.Count
import Mathlib.Data.List.Nodup
import Mathlib.Data.List.Pairwise
import Mathlib.Data.List.Perm.Basic
import Mathlib.Data.List.Sort
import Mathlib.Data.Prod.Lex
import Mathlib.Order.Basic

/-!
# Pages of a list

A list is cut into pages of a fixed length, counted from 1.  The pages make up
the list as long as all of them are cut from the same list.  When each page is
cut from an arrangement of its own, sorted by a key that several elements may
share, they still do so exactly if no group of equal keys lies on two pages.
-/

universe u v

namespace Pages

variable {α : Type u}

/-- One page of the list. -/
def page (limit number : Nat) (list : List α) : List α :=
  (list.drop ((number - 1) * limit)).take limit

/-- How many pages there are: the quotient, rounded up. -/
def count (limit total : Nat) : Nat := (total + limit - 1) / limit

/-- The pages from 1 to `count`. -/
def numbers (limit total : Nat) : List Nat :=
  List.range' 1 (count limit total)

section Arithmetic

variable {limit : Nat} (positive : 0 < limit)

include positive

theorem le_count_iff {number total : Nat} (counted : 1 ≤ number) :
    number ≤ count limit total ↔ (number - 1) * limit < total := by
  obtain ⟨before, rfl⟩ := Nat.exists_eq_add_of_le' counted
  rw [count, Nat.le_div_iff_mul_le positive, Nat.add_sub_cancel,
    Nat.add_one_mul]
  omega

theorem le_count_mul (total : Nat) : total ≤ count limit total * limit := by
  by_contra less
  have next : count limit total + 1 ≤ count limit total := by
    apply (le_count_iff positive (Nat.le_add_left 1 _)).mpr
    rw [Nat.add_sub_cancel]
    exact Nat.lt_of_not_le less
  exact absurd next (Nat.not_succ_le_self _)

end Arithmetic

theorem mem_numbers_iff {limit total number : Nat} :
    number ∈ numbers limit total ↔
      1 ≤ number ∧ number ≤ count limit total := by
  rw [numbers, List.mem_range'_1]
  omega

/-! ## One list -/

section OneList

variable {limit : Nat}

theorem length_page (limit number : Nat) (list : List α) :
    (page limit number list).length =
      min limit (list.length - (number - 1) * limit) := by
  simp [page]

theorem nodup_page {list : List α} (nodup : list.Nodup)
    (limit number : Nat) : (page limit number list).Nodup := by
  apply List.Nodup.sublist ?_ nodup
  exact (List.take_sublist _ _).trans (List.drop_sublist _ _)

theorem flatMap_range (limit pages : Nat) (list : List α) :
    ((List.range' 1 pages).flatMap fun number => page limit number list) =
      list.take (pages * limit) := by
  induction pages with
  | zero => simp
  | succ pages induction =>
      rw [List.range'_concat, List.flatMap_append, induction,
        Nat.add_one_mul pages limit, List.take_add]
      simp [page, Nat.add_comm]

variable (positive : 0 < limit)

include positive

theorem flatMap_numbers (list : List α) :
    ((numbers limit list.length).flatMap fun number =>
      page limit number list) = list := by
  rw [numbers, flatMap_range]
  apply List.take_of_length_le
  exact le_count_mul positive list.length

theorem length_page_of_lt {list : List α} {number : Nat}
    (counted : 1 ≤ number) (less : number < count limit list.length) :
    (page limit number list).length = limit := by
  have next := (le_count_iff positive (Nat.le_add_left 1 number)).mp less
  obtain ⟨before, rfl⟩ := Nat.exists_eq_add_of_le' counted
  rw [Nat.add_sub_cancel, Nat.add_one_mul] at next
  rw [length_page, Nat.add_sub_cancel]
  omega

theorem page_ne_nil {list : List α} {number : Nat}
    (counted : 1 ≤ number) (least : number ≤ count limit list.length) :
    page limit number list ≠ [] := by
  have reached := (le_count_iff positive counted).mp least
  apply List.ne_nil_of_length_pos
  rw [length_page]
  omega

theorem page_eq_nil {list : List α} {number : Nat}
    (beyond : count limit list.length < number) :
    page limit number list = [] := by
  have counted : 1 ≤ number := by omega
  have ended : list.length ≤ (number - 1) * limit := by
    by_contra longer
    have least := (le_count_iff positive counted).mpr (Nat.lt_of_not_le longer)
    omega
  rw [page, List.drop_of_length_le ended, List.take_nil]

/-- A page holds the elements whose positions have its quotient. -/
theorem mem_page_iff {list : List α} {number : Nat} (counted : 1 ≤ number)
    {value : α} :
    value ∈ page limit number list ↔
      ∃ position, list[position]? = some value ∧
        position / limit + 1 = number := by
  obtain ⟨before, rfl⟩ := Nat.exists_eq_add_of_le' counted
  rw [page, List.mem_iff_getElem?, Nat.add_sub_cancel]
  constructor
  · intro listed
    obtain ⟨offset, found⟩ := listed
    have small : offset < limit := by
      have inPage := (List.getElem?_eq_some_iff.mp found).1
      rw [List.length_take] at inPage
      omega
    rw [List.getElem?_take_of_lt small, List.getElem?_drop] at found
    refine ⟨before * limit + offset, found, ?_⟩
    rw [Nat.mul_comm, Nat.mul_add_div positive, Nat.div_eq_of_lt small,
      Nat.add_zero]
  · intro listed
    obtain ⟨position, found, quotient⟩ := listed
    refine ⟨position % limit, ?_⟩
    rw [List.getElem?_take_of_lt (Nat.mod_lt _ positive), List.getElem?_drop,
      ← Nat.add_right_cancel quotient, Nat.mul_comm, Nat.div_add_mod]
    exact found

end OneList

theorem mem_page_of_getElem? {limit : Nat} (positive : 0 < limit)
    {list : List α} {position : Nat} {value : α}
    (found : list[position]? = some value) :
    value ∈ page limit (position / limit + 1) list :=
  (mem_page_iff positive (Nat.le_add_left 1 _)).mpr ⟨position, found, rfl⟩

theorem mem_numbers_of_lt {limit : Nat} (positive : 0 < limit)
    {total position : Nat} (less : position < total) :
    position / limit + 1 ∈ numbers limit total := by
  apply mem_numbers_iff.mpr
  refine ⟨Nat.le_add_left 1 _, ?_⟩
  apply (le_count_iff positive (Nat.le_add_left 1 _)).mpr
  rw [Nat.add_sub_cancel]
  exact (Nat.div_mul_le_self position limit).trans_lt less

/-! ## An arrangement of its own for each page -/

section Arrangements

variable {β : Type v} [LinearOrder β] (key : α → β)

/-- A list of the elements, sorted by their keys. -/
def Arranged (list arranged : List α) : Prop :=
  arranged.Perm list ∧
    arranged.Pairwise fun left right => key left ≤ key right

/-- The first page on which an arrangement can have the element. -/
def firstPage (limit : Nat) (list : List α) (value : α) : Nat :=
  list.countP (fun other => key other < key value) / limit + 1

/-- The last page on which an arrangement can have the element. -/
def lastPage (limit : Nat) (list : List α) (value : α) : Nat :=
  (list.countP (fun other => key other ≤ key value) - 1) / limit + 1

/-- Every group of equal keys lies on one page. -/
def Unsplit (limit : Nat) (list : List α) : Prop :=
  ∀ value ∈ list, firstPage key limit list value = lastPage key limit list value

variable {key} {limit : Nat} {list arranged : List α}

theorem Arranged.position (isArranged : Arranged key list arranged)
    {position : Nat} {value : α} (found : arranged[position]? = some value) :
    list.countP (fun other => key other < key value) ≤ position ∧
      position < list.countP (fun other => key other ≤ key value) := by
  obtain ⟨permutation, sorted⟩ := isArranged
  obtain ⟨inside, isValue⟩ := List.getElem?_eq_some_iff.mp found
  have cut : arranged = arranged.take position ++
      value :: arranged.drop (position + 1) := by
    rw [← isValue, List.getElem_cons_drop, List.take_append_drop]
  have length : (arranged.take position).length = position :=
    List.length_take_of_le inside.le
  rw [← permutation.countP_eq, ← permutation.countP_eq]
  rw [cut] at sorted ⊢
  generalize arranged.take position = front at *
  generalize arranged.drop (position + 1) = back at *
  obtain ⟨_, behind, before⟩ := List.pairwise_append.mp sorted
  constructor
  · have none : back.countP (fun other => key other < key value) = 0 := by
      rw [List.countP_eq_zero]
      intro other member
      have atLeast := (List.pairwise_cons.mp behind).1 other member
      simpa using atLeast
    have bounded := front.countP_le_length (p := fun other =>
      decide (key other < key value))
    simp only [List.countP_append, List.countP_cons, none]
    simp
    omega
  · have all : front.countP (fun other => key other ≤ key value) =
        front.length := by
      rw [List.countP_eq_length]
      intro other member
      have atMost := before other member value List.mem_cons_self
      simpa using atMost
    simp only [List.countP_append, List.countP_cons, all]
    simp
    omega

theorem exists_arranged (key : α → β) (list : List α) :
    ∃ arranged, Arranged key list arranged := by
  have sorted : (list.mergeSort fun left right => key left ≤ key right).Pairwise
      fun left right => decide (key left ≤ key right) = true := by
    apply List.pairwise_mergeSort
    · intro first second third before after
      simp only [decide_eq_true_eq] at *
      exact before.trans after
    · intro first second
      simpa using le_total (key first) (key second)
  exact ⟨_, List.mergeSort_perm _ _, sorted.imp fun before => by
    simpa using before⟩

theorem Arranged.of_tieBreaker {tieBreaker : α → Nat}
    (isArranged : Arranged
      (fun value => toLex (key value, tieBreaker value)) list arranged) :
    Arranged key list arranged := by
  refine ⟨isArranged.1, isArranged.2.imp ?_⟩
  intro left right before
  rcases Prod.Lex.toLex_le_toLex.mp before with less | tie
  · exact less.le
  · exact tie.1.le

/-- In a list without repetition two conditions that agree on all but one
value count at most one element more. -/
theorem countP_le_succ [DecidableEq α] (nodup : list.Nodup) (value : α)
    {condition other : α → Bool}
    (implied : ∀ element, element ≠ value → condition element = true →
      other element = true) :
    list.countP condition ≤ list.countP other + 1 := by
  have rest : (list.erase value).countP condition ≤
      (list.erase value).countP other := by
    apply List.countP_mono_left
    intro element member
    exact implied element (nodup.mem_erase_iff.mp member).1
  have fewer : (list.erase value).countP other ≤ list.countP other :=
    List.erase_sublist.countP_le
  by_cases member : value ∈ list
  · rw [(List.perm_cons_erase member).countP_eq, List.countP_cons]
    split <;> omega
  · rw [List.erase_of_not_mem member] at rest
    omega

section Split

variable [DecidableEq α] (nodup : list.Nodup) {value : α}
  (member : value ∈ list)

include nodup member

/-- The database may put an element before all that share its key. -/
theorem exists_arranged_first (key : α → β) :
    ∃ arranged, Arranged key list arranged ∧
      arranged[list.countP fun other => key other < key value]? =
        some value := by
  let tieBreaker := fun other : α => if other = value then 0 else 1
  obtain ⟨arranged, isArranged⟩ := exists_arranged
    (fun other => toLex (key other, tieBreaker other)) list
  refine ⟨arranged, isArranged.of_tieBreaker, ?_⟩
  obtain ⟨position, found⟩ := List.mem_iff_getElem?.mp
    (isArranged.1.mem_iff.mpr member)
  obtain ⟨_, most⟩ := isArranged.position found
  obtain ⟨least, _⟩ := isArranged.of_tieBreaker.position found
  have atMost : list.countP (fun other =>
        toLex (key other, tieBreaker other) ≤
          toLex (key value, tieBreaker value)) ≤
      list.countP (fun other => key other < key value) + 1 := by
    apply countP_le_succ nodup value
    intro other different before
    simpa [Prod.Lex.toLex_le_toLex, tieBreaker, different] using before
  rw [show list.countP (fun other => key other < key value) = position by
    omega]
  exact found

theorem exists_arranged_last (key : α → β) :
    ∃ arranged, Arranged key list arranged ∧
      arranged[list.countP (fun other => key other ≤ key value) - 1]? =
        some value := by
  let tieBreaker := fun other : α => if other = value then 1 else 0
  obtain ⟨arranged, isArranged⟩ := exists_arranged
    (fun other => toLex (key other, tieBreaker other)) list
  refine ⟨arranged, isArranged.of_tieBreaker, ?_⟩
  obtain ⟨position, found⟩ := List.mem_iff_getElem?.mp
    (isArranged.1.mem_iff.mpr member)
  obtain ⟨least, _⟩ := isArranged.position found
  obtain ⟨_, most⟩ := isArranged.of_tieBreaker.position found
  have atMost : list.countP (fun other => key other ≤ key value) ≤
      list.countP (fun other => toLex (key other, tieBreaker other) <
        toLex (key value, tieBreaker value)) + 1 := by
    apply countP_le_succ nodup value
    intro other different before
    simpa [Prod.Lex.toLex_lt_toLex, tieBreaker, different, le_iff_lt_or_eq]
      using before
  rw [show list.countP (fun other => key other ≤ key value) - 1 = position by
    omega]
  exact found

end Split

/-- The pages that the arrangements have in turn. -/
def collected (limit total : Nat) (arrangements : Nat → List α) : List α :=
  (numbers limit total).flatMap fun number =>
    page limit number (arrangements number)

section Exact

variable (positive : 0 < limit)

include positive

/-- If no group is split, every arrangement has the same pages. -/
theorem mem_page_iff_of_unsplit (unsplit : Unsplit key limit list)
    (isArranged : Arranged key list arranged) {number : Nat}
    (counted : 1 ≤ number) {value : α} :
    value ∈ page limit number arranged ↔
      value ∈ list ∧ firstPage key limit list value = number := by
  have onPage : ∀ {position : Nat}, arranged[position]? = some value →
      position / limit + 1 = firstPage key limit list value := by
    intro position found
    have member : value ∈ list :=
      isArranged.1.mem_iff.mp (List.mem_of_getElem? found)
    obtain ⟨least, most⟩ := isArranged.position found
    have one := unsplit value member
    have lower := Nat.div_le_div_right (c := limit) least
    have upper := Nat.div_le_div_right (c := limit) (Nat.le_sub_one_of_lt most)
    unfold firstPage lastPage at *
    omega
  rw [mem_page_iff positive counted]
  constructor
  · intro listed
    obtain ⟨position, found, isNumber⟩ := listed
    have member := isArranged.1.mem_iff.mp (List.mem_of_getElem? found)
    exact ⟨member, (onPage found).symm.trans isNumber⟩
  · intro listed
    obtain ⟨member, isNumber⟩ := listed
    obtain ⟨position, found⟩ := List.mem_iff_getElem?.mp
      (isArranged.1.mem_iff.mpr member)
    exact ⟨position, found, (onPage found).trans isNumber⟩

theorem collected_perm (nodup : list.Nodup) (unsplit : Unsplit key limit list)
    {arrangements : Nat → List α}
    (areArranged : ∀ number, Arranged key list (arrangements number)) :
    (collected limit list.length arrangements).Perm list := by
  obtain ⟨arranged, isArranged⟩ := exists_arranged key list
  have whole := flatMap_numbers positive arranged
  rw [isArranged.1.length_eq] at whole
  apply List.Perm.trans ?_ isArranged.1
  rw [← whole]
  apply List.Perm.flatMap_left
  intro number member
  have counted := (mem_numbers_iff.mp member).1
  have distinct : ∀ {other : List α}, Arranged key list other →
      (page limit number other).Nodup :=
    fun isArranged => nodup_page (isArranged.1.nodup_iff.mpr nodup) _ _
  apply (List.perm_ext_iff_of_nodup (distinct (areArranged number))
    (distinct isArranged)).mpr
  intro value
  rw [mem_page_iff_of_unsplit positive unsplit (areArranged number) counted,
    mem_page_iff_of_unsplit positive unsplit isArranged counted]

/-- The pages are exact for all arrangements exactly if no group is split. -/
theorem exact_iff_unsplit [DecidableEq α] (nodup : list.Nodup) :
    (∀ arrangements : Nat → List α,
      (∀ number, Arranged key list (arrangements number)) →
      (collected limit list.length arrangements).Perm list) ↔
    Unsplit key limit list := by
  constructor
  · intro exact value member
    by_contra different
    obtain ⟨first, isFirst, atFirst⟩ := exists_arranged_first nodup member key
    obtain ⟨last, isLast, atLast⟩ := exists_arranged_last nodup member key
    -- The page of the last place is cut from the arrangement with that place.
    let arrangements := fun number =>
      if number = lastPage key limit list value then last else first
    have areArranged : ∀ number, Arranged key list (arrangements number) := by
      intro number
      dsimp only [arrangements]
      split
      · exact isLast
      · exact isFirst
    have once : (collected limit list.length arrangements).Nodup :=
      (exact arrangements areArranged).nodup_iff.mpr nodup
    have apart := (List.nodup_flatMap.mp once).2
    have inside : ∀ {arranged : List α} {position : Nat},
        Arranged key list arranged → arranged[position]? = some value →
        position / limit + 1 ∈ numbers limit list.length := by
      intro arranged position isArranged found
      have less := (List.getElem?_eq_some_iff.mp found).1
      rw [isArranged.1.length_eq] at less
      exact mem_numbers_of_lt positive less
    have symmetric : Std.Symm (Function.onFun List.Disjoint fun number =>
        page limit number (arrangements number)) :=
      ⟨fun left right separate value onRight onLeft =>
        separate onLeft onRight⟩
    have disjoint := apart.forall (inside isFirst atFirst)
      (inside isLast atLast) different
    have fromFirst : arrangements (firstPage key limit list value) = first :=
      if_neg different
    have fromLast : arrangements (lastPage key limit list value) = last :=
      if_pos rfl
    have onFirst : value ∈ page limit (firstPage key limit list value)
        (arrangements (firstPage key limit list value)) := by
      rw [fromFirst]
      exact mem_page_of_getElem? positive atFirst
    have onLast : value ∈ page limit (lastPage key limit list value)
        (arrangements (lastPage key limit list value)) := by
      rw [fromLast]
      exact mem_page_of_getElem? positive atLast
    exact disjoint onFirst onLast
  · intro unsplit arrangements areArranged
    exact collected_perm positive nodup unsplit areArranged

end Exact

end Arrangements

end Pages
