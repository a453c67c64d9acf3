import Mathlib.Algebra.BigOperators.Group.Finset.Basic
import Mathlib.Algebra.Order.BigOperators.Group.Finset
import Mathlib.Data.Finset.Card
import Mathlib.Data.Finset.Union
import Mathlib.Data.Fintype.Basic
import Mathlib.Data.List.Perm.Basic
import Mathlib.Logic.Function.Basic

/-!
# Concurrent scans that skip what others have taken

Several scans go over the same rows, each in its own order, and take rows up
to a limit.  A row that any scan has taken is skipped by the others without
using up their limit.  The scans move on row by row in any interleaving.

If every order is sorted by one total preorder, the rows taken in the end are
a prefix of the rows in such an order.
-/

universe u v

variable {ι : Type u} {α : Type v}

/-- A scan: the rows that it still has to visit, and those it has taken. -/
structure Scan (α : Type v) where
  limit : Nat
  rows : List α
  taken : List α

namespace Scan

/-- The limit is reached, or no row is left. -/
def Finished (scan : Scan α) : Prop :=
  scan.taken.length = scan.limit ∨ scan.rows = []

/-- Some scan has taken the row. -/
def Taken (scans : ι → Scan α) (row : α) : Prop :=
  ∃ scan, row ∈ (scans scan).taken

/-- One scan visits its next row. -/
inductive Step [DecidableEq ι] (scans : ι → Scan α) (scan : ι) :
    (ι → Scan α) → Prop where
  | skip {row : α} {rows : List α} :
      (scans scan).rows = row :: rows →
      Taken scans row →
      Step scans scan
        (Function.update scans scan { scans scan with rows := rows })
  | take {row : α} {rows : List α} :
      (scans scan).rows = row :: rows →
      (scans scan).taken.length < (scans scan).limit →
      ¬Taken scans row →
      Step scans scan
        (Function.update scans scan
          { scans scan with
            rows := rows, taken := (scans scan).taken ++ [row] })

/-- What holds of scans in progress that began with these orders of the rows:
the rows that a scan has passed are taken, and it took its own among them. -/
structure Valid (order : ι → List α) (scans : ι → Scan α) : Prop where
  passed : ∀ scan, ∃ passed, order scan = passed ++ (scans scan).rows ∧
    (∀ row ∈ passed, Taken scans row) ∧
    ∀ row ∈ (scans scan).taken, row ∈ passed
  nodup : ∀ scan, (scans scan).taken.Nodup
  exclusive : ∀ {first second row}, row ∈ (scans first).taken →
    row ∈ (scans second).taken → first = second
  bounded : ∀ scan, (scans scan).taken.length ≤ (scans scan).limit

section Steps

variable [DecidableEq ι] {order : ι → List α} {scans next : ι → Scan α}
  {scan : ι}

theorem Taken.of_step (step : Step scans scan next) {row : α}
    (taken : Taken scans row) : Taken next row := by
  obtain ⟨other, member⟩ := taken
  refine ⟨other, ?_⟩
  cases step with
  | skip =>
      rw [Function.update_apply]
      split
      · rename_i same
        exact same ▸ member
      · exact member
  | take =>
      rw [Function.update_apply]
      split
      · rename_i same
        exact List.mem_append_left _ (same ▸ member)
      · exact member

theorem Step.mem_taken (step : Step scans scan next) {other : ι} {row : α}
    (member : row ∈ (next other).taken) :
    row ∈ (scans other).taken ∨
      other = scan ∧ ¬Taken scans row := by
  cases step with
  | skip =>
      rw [Function.update_apply] at member
      split at member
      · rename_i same
        exact .inl (same ▸ member)
      · exact .inl member
  | take _ _ free =>
      rw [Function.update_apply] at member
      split at member
      · rename_i same
        rcases List.mem_append.mp member with old | new
        · exact .inl (same ▸ old)
        · rw [List.mem_singleton.mp new]
          exact .inr ⟨same, free⟩
      · exact .inl member

theorem Valid.step (valid : Valid order scans) (step : Step scans scan next) :
    Valid order next := by
  refine ⟨?_, ?_, ?_, ?_⟩
  · intro other
    obtain ⟨passed, whole, all, own⟩ := valid.passed other
    have still : ∀ row ∈ passed, Taken next row := by
      intro row member
      exact (all row member).of_step step
    by_cases same : other = scan
    · subst other
      cases step with
      | @skip row rows shape taken =>
          refine ⟨passed ++ [row], ?_, List.forall_mem_append.mpr ⟨still, ?_⟩,
            ?_⟩
          · rw [whole, shape, Function.update_self, List.append_assoc,
              List.singleton_append]
          · rw [List.forall_mem_singleton]
            exact taken.of_step (.skip shape taken)
          · intro mine member
            rw [Function.update_self] at member
            exact List.mem_append_left _ (own mine member)
      | @take row rows shape room free =>
          refine ⟨passed ++ [row], ?_, List.forall_mem_append.mpr ⟨still, ?_⟩,
            ?_⟩
          · rw [whole, shape, Function.update_self, List.append_assoc,
              List.singleton_append]
          · rw [List.forall_mem_singleton]
            refine ⟨scan, ?_⟩
            rw [Function.update_self]
            exact List.mem_append_right _ (List.mem_singleton_self row)
          · intro mine member
            rw [Function.update_self] at member
            rcases List.mem_append.mp member with old | new
            · exact List.mem_append_left _ (own mine old)
            · exact List.mem_append_right _ new
    · have kept : next other = scans other := by
        cases step <;> rw [Function.update_of_ne same]
      rw [kept]
      exact ⟨passed, whole, still, own⟩
  · intro other
    cases step with
    | skip =>
        rw [Function.update_apply]
        split
        · exact valid.nodup scan
        · exact valid.nodup other
    | @take row _ _ _ free =>
        rw [Function.update_apply]
        split
        · refine List.Nodup.append (valid.nodup scan)
            (List.nodup_singleton row) ?_
          intro taken member new
          rw [List.mem_singleton.mp new] at member
          exact free ⟨scan, member⟩
        · exact valid.nodup other
  · intro first second row inFirst inSecond
    rcases step.mem_taken inFirst with old | ⟨rfl, free⟩
    · rcases step.mem_taken inSecond with old' | ⟨rfl, free⟩
      · exact valid.exclusive old old'
      · exact (free ⟨first, old⟩).elim
    · rcases step.mem_taken inSecond with old' | ⟨rfl, -⟩
      · exact (free ⟨second, old'⟩).elim
      · rfl
  · intro other
    cases step with
    | skip =>
        rw [Function.update_apply]
        split
        · exact valid.bounded scan
        · exact valid.bounded other
    | take _ room _ =>
        rw [Function.update_apply]
        split
        · rw [List.length_append, List.length_singleton]
          exact room
        · exact valid.bounded other

end Steps

theorem Valid.initial {order : ι → List α} {scans : ι → Scan α}
    (rows : ∀ scan, (scans scan).rows = order scan)
    (taken : ∀ scan, (scans scan).taken = []) : Valid order scans := by
  refine ⟨?_, ?_, ?_, ?_⟩
  · intro scan
    refine ⟨[], by rw [rows, List.nil_append], by simp, ?_⟩
    rw [taken]
    exact fun _ member => member
  · intro scan
    rw [taken]
    exact List.nodup_nil
  · intro first second row member
    rw [taken] at member
    cases member
  · intro scan
    rw [taken]
    exact Nat.zero_le _

/-! ## When all scans are finished -/

/-- All rows that are taken. -/
def union [Fintype ι] [DecidableEq α] (scans : ι → Scan α) : Finset α :=
  Finset.univ.biUnion fun scan => (scans scan).taken.toFinset

theorem mem_union [Fintype ι] [DecidableEq α] {scans : ι → Scan α} {row : α} :
    row ∈ union scans ↔ Taken scans row := by
  simp [union, Taken]

namespace Valid

variable {order : ι → List α} {eligible : List α} {scans : ι → Scan α}
  {before : α → α → Prop}

theorem mem_order (valid : Valid order scans) {scan : ι} {row : α}
    (taken : row ∈ (scans scan).taken) : row ∈ order scan := by
  obtain ⟨passed, whole, -, own⟩ := valid.passed scan
  rw [whole]
  exact List.mem_append_left _ (own row taken)

/-- A row that none has taken does not strictly precede a taken one: the scan
that took the other row has passed it. -/
theorem closed (valid : Valid order scans)
    (permuted : ∀ scan, (order scan).Perm eligible)
    (sorted : ∀ scan, (order scan).Pairwise before)
    {row other : α} (taken : Taken scans row) (isEligible : other ∈ eligible)
    (precedes : ¬before row other) : Taken scans other := by
  obtain ⟨scan, member⟩ := taken
  obtain ⟨passed, whole, all, own⟩ := valid.passed scan
  have inOrder : other ∈ order scan := (permuted scan).mem_iff.mpr isEligible
  have pairs := sorted scan
  rw [whole] at inOrder pairs
  rcases List.mem_append.mp inOrder with earlier | ahead
  · exact all other earlier
  · exact (precedes ((List.pairwise_append.mp pairs).2.2 row (own row member)
      other ahead)).elim

variable [Fintype ι]

/-- Every row is taken, or every scan has taken as many rows as it may. -/
theorem taken_or_full (valid : Valid order scans)
    (permuted : ∀ scan, (order scan).Perm eligible)
    (finished : ∀ scan, (scans scan).Finished) :
    (∀ row ∈ eligible, Taken scans row) ∨
      ∀ scan, (scans scan).taken.length = (scans scan).limit := by
  by_cases full : ∀ scan, (scans scan).taken.length = (scans scan).limit
  · exact .inr full
  · left
    obtain ⟨scan, notFull⟩ := not_forall.mp full
    obtain ⟨passed, whole, all, -⟩ := valid.passed scan
    have ended : (scans scan).rows = [] := (finished scan).resolve_left notFull
    rw [ended, List.append_nil] at whole
    intro row member
    apply all
    rw [← whole]
    exact (permuted scan).mem_iff.mpr member

variable [DecidableEq α]

theorem card_union (valid : Valid order scans) :
    (union scans).card = ∑ scan, (scans scan).taken.length := by
  unfold union
  rw [Finset.card_biUnion]
  · apply Finset.sum_congr rfl
    intro scan _
    exact List.toFinset_card_of_nodup (valid.nodup scan)
  · intro first _ second _ different
    apply Finset.disjoint_left.mpr
    intro row inFirst inSecond
    exact different (valid.exclusive (List.mem_toFinset.mp inFirst)
      (List.mem_toFinset.mp inSecond))

theorem card_union_eq_min (valid : Valid order scans)
    (permuted : ∀ scan, (order scan).Perm eligible) (distinct : eligible.Nodup)
    (finished : ∀ scan, (scans scan).Finished) :
    (union scans).card =
      min (∑ scan, (scans scan).limit) eligible.length := by
  have within : union scans ⊆ eligible.toFinset := by
    intro row member
    obtain ⟨scan, taken⟩ := mem_union.mp member
    exact List.mem_toFinset.mpr
      ((permuted scan).mem_iff.mp (valid.mem_order taken))
  have atMost : (union scans).card ≤ eligible.length := by
    rw [← List.toFinset_card_of_nodup distinct]
    exact Finset.card_le_card within
  have limited : (union scans).card ≤ ∑ scan, (scans scan).limit := by
    rw [valid.card_union]
    exact Finset.sum_le_sum fun scan _ => valid.bounded scan
  rcases valid.taken_or_full permuted finished with all | full
  · have whole : eligible.toFinset ⊆ union scans := by
      intro row member
      exact mem_union.mpr (all row (List.mem_toFinset.mp member))
    have atLeast := Finset.card_le_card whole
    rw [List.toFinset_card_of_nodup distinct] at atLeast
    omega
  · have exact : (union scans).card = ∑ scan, (scans scan).limit := by
      rw [valid.card_union]
      exact Finset.sum_congr rfl fun scan _ => full scan
    omega

/-- The taken rows are a prefix of the eligible ones in some sorted order. -/
theorem exists_prefix (valid : Valid order scans)
    (permuted : ∀ scan, (order scan).Perm eligible)
    (sorted : ∀ scan, (order scan).Pairwise before)
    (distinct : eligible.Nodup)
    (finished : ∀ scan, (scans scan).Finished)
    {some : List α} (someSorted : some.Pairwise before)
    (somePermuted : some.Perm eligible) :
    ∃ all : List α, all.Perm eligible ∧ all.Pairwise before ∧
      ∀ row, row ∈ union scans ↔
        row ∈ all.take (min (∑ scan, (scans scan).limit) eligible.length) := by
  have inside : (some.filter (· ∈ union scans)).length =
      min (∑ scan, (scans scan).limit) eligible.length := by
    rw [← valid.card_union_eq_min permuted distinct finished]
    have nodup : (some.filter (· ∈ union scans)).Nodup :=
      (somePermuted.nodup_iff.mpr distinct).filter _
    rw [← List.toFinset_card_of_nodup nodup]
    congr 1
    ext row
    simp only [List.mem_toFinset, List.mem_filter, decide_eq_true_eq,
      and_iff_right_iff_imp]
    intro member
    obtain ⟨scan, taken⟩ := mem_union.mp member
    exact somePermuted.mem_iff.mpr
      ((permuted scan).mem_iff.mp (valid.mem_order taken))
  refine ⟨some.filter (· ∈ union scans) ++
    some.filter (· ∉ union scans), ?_, ?_, ?_⟩
  · refine List.Perm.trans ?_ somePermuted
    simpa using List.filter_append_perm (· ∈ union scans) some
  · refine List.pairwise_append.mpr
      ⟨someSorted.filter _, someSorted.filter _, ?_⟩
    intro row taken other left
    simp only [List.mem_filter, decide_eq_true_eq] at taken left
    by_contra notBefore
    apply left.2
    exact mem_union.mpr (valid.closed permuted sorted (mem_union.mp taken.2)
      (somePermuted.mem_iff.mp left.1) notBefore)
  · intro row
    rw [List.take_left' inside]
    simp only [List.mem_filter, decide_eq_true_eq, iff_and_self]
    intro member
    obtain ⟨scan, taken⟩ := mem_union.mp member
    exact somePermuted.mem_iff.mpr
      ((permuted scan).mem_iff.mp (valid.mem_order taken))

end Valid

end Scan
