import Mathlib.Data.List.Induction
import Mathlib.Data.List.Basic
import Mathlib.Data.Nat.Init

/-!
# Finite runs of a partial step function

A system is given by `step : σ → α → Option σ`.  `Run step start trace last`
says that the transitions of `trace`, taken in order, lead from `start` to
`last`.  A trace keeps the states around every action, so properties of
histories are stated on transitions and need no extra fields in the state.

`Reaches` forgets the trace and keeps only that every transition was allowed.
-/

universe u v

/-- One step of a run together with the states around it. -/
structure Transition (σ : Type u) (α : Type v) where
  before : σ
  action : α
  after : σ

variable {σ : Type u} {α : Type v}

theorem List.forall_mem_snoc {entries : List α} {entry : α} {property : α → Prop}
    (earlier : ∀ other ∈ entries, property other) (last : property entry) :
    ∀ other ∈ entries ++ [entry], property other :=
  List.forall_mem_append.mpr ⟨earlier, List.forall_mem_singleton.mpr last⟩

theorem List.exists_mem_snoc {entries : List α} {entry : α}
    {property : α → Prop} :
    (∃ other ∈ entries ++ [entry], property other) ↔
      (∃ other ∈ entries, property other) ∨ property entry := by
  simp only [List.mem_append, List.mem_singleton, or_and_right, exists_or,
    exists_eq_left]

/-- A finite run, with its transitions from first to last. -/
inductive Run (step : σ → α → Option σ) (start : σ) :
    List (Transition σ α) → σ → Prop where
  | nil : Run step start [] start
  | snoc {trace : List (Transition σ α)} {middle last : σ} {action : α} :
      Run step start trace middle →
      step middle action = some last →
      Run step start (trace ++ [⟨middle, action, last⟩]) last

namespace Run

variable {step : σ → α → Option σ} {start middle last : σ}
  {trace first second : List (Transition σ α)}

theorem single {action : α} (taken : step start action = some last) :
    Run step start [⟨start, action, last⟩] last :=
  Run.snoc .nil taken

theorem append (left : Run step start first middle)
    (right : Run step middle second last) :
    Run step start (first ++ second) last := by
  induction right with
  | nil => simpa using left
  | snoc _ taken induction =>
      rw [← List.append_assoc]
      exact .snoc induction taken

theorem cons {action : α} (taken : step start action = some middle)
    (run : Run step middle trace last) :
    Run step start (⟨start, action, middle⟩ :: trace) last :=
  (single taken).append run

theorem eq_of_nil (run : Run step start [] last) : last = start := by
  generalize empty : ([] : List (Transition σ α)) = trace at run
  cases run with
  | nil => rfl
  | snoc => simp at empty

theorem of_snoc {transition : Transition σ α}
    (run : Run step start (trace ++ [transition]) last) :
    Run step start trace transition.before ∧
      step transition.before transition.action = some transition.after ∧
      last = transition.after := by
  generalize whole : trace ++ [transition] = full at run
  cases run with
  | nil => simp at whole
  | snoc run taken =>
      obtain ⟨rfl, same⟩ := List.append_inj' whole rfl
      cases same
      exact ⟨run, taken, rfl⟩

theorem split (run : Run step start (first ++ second) last) :
    ∃ middle, Run step start first middle ∧ Run step middle second last := by
  induction second using List.reverseRecOn generalizing last with
  | nil => exact ⟨last, by simpa using run, .nil⟩
  | append_singleton second transition induction =>
      rw [← List.append_assoc] at run
      obtain ⟨before, taken, rfl⟩ := run.of_snoc
      obtain ⟨middle, left, right⟩ := induction before
      exact ⟨middle, left, .snoc right taken⟩

theorem of_cons {transition : Transition σ α}
    (run : Run step start (transition :: trace) last) :
    transition.before = start ∧
      step transition.before transition.action = some transition.after ∧
      Run step transition.after trace last := by
  have whole : Run step start ([transition] ++ trace) last := run
  obtain ⟨middle, left, right⟩ := whole.split
  have first : Run step start ([] ++ [transition]) middle := left
  obtain ⟨before, taken, rfl⟩ := first.of_snoc
  exact ⟨before.eq_of_nil, taken, right⟩

/-- A run through a given transition: what comes before it, the step itself,
and what comes after it. -/
theorem around {transition : Transition σ α}
    (run : Run step start (first ++ transition :: second) last) :
    Run step start first transition.before ∧
      step transition.before transition.action = some transition.after ∧
      Run step transition.after second last := by
  obtain ⟨middle, left, right⟩ := run.split
  obtain ⟨same, taken, rest⟩ := right.of_cons
  exact ⟨same ▸ left, taken, rest⟩

theorem taken (run : Run step start trace last)
    {transition : Transition σ α} (member : transition ∈ trace) :
    step transition.before transition.action = some transition.after := by
  obtain ⟨earlier, later, rfl⟩ := List.append_of_mem member
  exact run.around.2.1

/-- The rule for invariants: what holds at the start and is kept by every
allowed step holds at the end of every run of allowed steps. -/
theorem invariant (run : Run step start trace last) (property : σ → Prop)
    {allowed : Transition σ α → Prop}
    (steps : ∀ transition ∈ trace, allowed transition)
    (initial : property start)
    (preserved : ∀ transition, allowed transition →
      step transition.before transition.action = some transition.after →
      property transition.before → property transition.after) :
    property last := by
  induction run with
  | nil => exact initial
  | @snoc trace middle last action _ taken induction =>
      refine preserved ⟨middle, action, last⟩ (steps _ (by simp)) taken
        (induction ?_)
      intro transition member
      exact steps transition (by simp [member])

/-- An invariant also holds before every transition of the run. -/
theorem invariant_before (run : Run step start trace last)
    (property : σ → Prop) {allowed : Transition σ α → Prop}
    (steps : ∀ transition ∈ trace, allowed transition)
    (initial : property start)
    (preserved : ∀ transition, allowed transition →
      step transition.before transition.action = some transition.after →
      property transition.before → property transition.after)
    {transition : Transition σ α} (member : transition ∈ trace) :
    property transition.before ∧
      step transition.before transition.action = some transition.after := by
  obtain ⟨first, second, rfl⟩ := List.append_of_mem member
  obtain ⟨before, taken, _⟩ := run.around
  refine ⟨before.invariant property ?_ initial preserved, taken⟩
  intro other otherMember
  exact steps other (by simp [otherMember])

/-- A property that fails at the start and holds at the end is established by
some step of the run. -/
theorem exists_crossing (run : Run step start trace last) (property : σ → Prop)
    (initial : ¬property start) (final : property last) :
    ∃ transition ∈ trace,
      ¬property transition.before ∧ property transition.after := by
  induction run with
  | nil => exact (initial final).elim
  | @snoc trace middle last action _ taken induction =>
      by_cases earlier : property middle
      · obtain ⟨transition, member, crossing⟩ := induction earlier
        exact ⟨transition, by simp [member], crossing⟩
      · exact ⟨⟨middle, action, last⟩, by simp, earlier, final⟩

/-- The last such step: the property then holds up to the end of the run. -/
theorem exists_last_crossing (run : Run step start trace last)
    (property : σ → Prop)
    (initial : ¬property start) (final : property last) :
    ∃ earlier transition later, trace = earlier ++ transition :: later ∧
      ¬property transition.before ∧ property transition.after ∧
      ∀ other ∈ later, property other.before := by
  induction run with
  | nil => exact (initial final).elim
  | @snoc trace middle last action _ taken induction =>
      by_cases kept : property middle
      · obtain ⟨earlier, transition, later, rfl, crossing, after, held⟩ :=
          induction kept
        exact ⟨earlier, transition, later ++ [⟨middle, action, last⟩],
          by simp, crossing, after, List.forall_mem_snoc held kept⟩
      · exact ⟨trace, ⟨middle, action, last⟩, [], rfl, kept, final, by simp⟩

end Run

/-- Take a list of actions in order and record the transitions. -/
def record (step : σ → α → Option σ) :
    σ → List α → Option (List (Transition σ α) × σ)
  | start, [] => some ([], start)
  | start, action :: actions =>
      match step start action with
      | none => none
      | some next =>
          match record step next actions with
          | none => none
          | some (trace, last) => some (⟨start, action, next⟩ :: trace, last)

theorem Run.of_record {step : σ → α → Option σ} {start last : σ}
    {actions : List α} {trace : List (Transition σ α)}
    (recorded : record step start actions = some (trace, last)) :
    Run step start trace last := by
  induction actions generalizing start trace with
  | nil =>
      cases recorded
      exact .nil
  | cons action actions induction =>
      rw [record] at recorded
      cases taken : step start action with
      | none => simp [taken] at recorded
      | some next =>
          rw [taken] at recorded
          cases rest : record step next actions with
          | none => simp [rest] at recorded
          | some result =>
              obtain ⟨tail, final⟩ := result
              simp only [rest, Option.some.injEq, Prod.mk.injEq] at recorded
              obtain ⟨rfl, rfl⟩ := recorded
              exact .cons taken (induction rest)

/-- A decidable property of the record of a list of actions is a property of
a run. -/
theorem exists_run_of_check (step : σ → α → Option σ) (start : σ)
    (actions : List α) (check : List (Transition σ α) → σ → Prop)
    [∀ trace last, Decidable (check trace last)]
    (passed : (record step start actions).any
      (fun result => decide (check result.1 result.2)) = true) :
    ∃ trace last, Run step start trace last ∧ check trace last := by
  cases recorded : record step start actions with
  | none => simp [recorded] at passed
  | some result =>
      obtain ⟨trace, last⟩ := result
      exact ⟨trace, last, .of_record recorded, by simpa [recorded] using passed⟩

theorem List.eq_take_append_cons {entries : List α} {position : Nat}
    {entry : α} (isEntry : entry ∈ (entries.drop position).head?) :
    entries =
      entries.take position ++ entry :: entries.drop (position + 1) := by
  have rest : entries.drop position = entry :: entries.drop (position + 1) := by
    rw [List.eq_cons_of_mem_head? isEntry, List.tail_drop]
  rw [← rest, List.take_append_drop]

theorem List.eq_around_of_head? {entries : List α} {position : Nat}
    {first second : α} (isFirst : first ∈ (entries.drop position).head?)
    (isSecond : second ∈ (entries.drop (position + 1)).head?) :
    entries = entries.take position ++
      first :: ([] ++ second :: (entries.drop (position + 1)).tail) := by
  rw [List.nil_append, ← List.eq_cons_of_mem_head? isSecond]
  exact List.eq_take_append_cons isFirst

/-- Some run of allowed transitions leads from one state to the other. -/
def Reaches (step : σ → α → Option σ) (allowed : Transition σ α → Prop)
    (start last : σ) : Prop :=
  ∃ trace, Run step start trace last ∧ ∀ transition ∈ trace, allowed transition

namespace Reaches

variable {step : σ → α → Option σ} {allowed : Transition σ α → Prop}
  {start middle last : σ}

theorem refl (start : σ) : Reaches step allowed start start :=
  ⟨[], .nil, by simp⟩

theorem trans (left : Reaches step allowed start middle)
    (right : Reaches step allowed middle last) :
    Reaches step allowed start last := by
  obtain ⟨first, firstRun, firstAllowed⟩ := left
  obtain ⟨second, secondRun, secondAllowed⟩ := right
  refine ⟨first ++ second, firstRun.append secondRun, ?_⟩
  intro transition member
  rcases List.mem_append.mp member with inFirst | inSecond
  · exact firstAllowed transition inFirst
  · exact secondAllowed transition inSecond

theorem single {action : α} (taken : step start action = some last)
    (permitted : allowed ⟨start, action, last⟩) :
    Reaches step allowed start last :=
  ⟨_, .single taken, by simpa using permitted⟩

theorem invariant (reaches : Reaches step allowed start last)
    (property : σ → Prop)
    (initial : property start)
    (preserved : ∀ transition, allowed transition →
      step transition.before transition.action = some transition.after →
      property transition.before → property transition.after) :
    property last := by
  obtain ⟨trace, run, steps⟩ := reaches
  exact run.invariant property steps initial preserved

/-- The rule for progress: if from every state with the invariant that is not
yet a goal the system can move to one with the invariant and a smaller
measure, then it can reach a goal. -/
theorem of_measure {property goal : σ → Prop} (measure : σ → Nat)
    (progress : ∀ state, property state → ¬goal state →
      ∃ next, Reaches step allowed state next ∧ property next ∧
        measure next < measure state)
    {state : σ} (initial : property state) :
    ∃ last, Reaches step allowed state last ∧ property last ∧ goal last := by
  induction bound : measure state using Nat.strong_induction_on
    generalizing state with
  | _ size induction =>
      by_cases done : goal state
      · exact ⟨state, refl state, initial, done⟩
      · obtain ⟨next, move, kept, smaller⟩ := progress state initial done
        obtain ⟨last, rest, lastKept, reached⟩ :=
          induction (measure next) (bound ▸ smaller) kept rfl
        exact ⟨last, move.trans rest, lastKept, reached⟩

end Reaches
