import Mathlib.Data.List.Induction
import Mathlib.Data.List.Basic

/-!
# The latest word of a log

Many histories are read through their last relevant entry: the last value
written to a register, the last time a flag was set or cleared.  `latest read
log` is the last defined value of `read` along the log.  A state that every
entry overwrites or leaves alone shows exactly this value after a replay.
-/

universe u v w

variable {α : Type u} {β : Type v} {σ : Type w}

/-- The value that the last entry with a value has. -/
def latest (read : α → Option β) (log : List α) : Option β :=
  (log.filterMap read).getLast?

section Latest

variable {read : α → Option β}

theorem latest_append (first second : List α) :
    latest read (first ++ second) =
      (latest read second).or (latest read first) := by
  simp only [latest, List.filterMap_append, List.getLast?_append]

@[simp] theorem latest_snoc (log : List α) (entry : α) :
    latest read (log ++ [entry]) = (read entry).or (latest read log) := by
  rw [latest_append]
  cases said : read entry with
  | none => simp [latest, said]
  | some value => simp [latest, said]

theorem latest_snoc_of_some {log : List α} {entry : α} {value : β}
    (said : read entry = some value) :
    latest read (log ++ [entry]) = some value := by
  rw [latest_snoc, said]
  rfl

theorem latest_snoc_of_none {log : List α} {entry : α}
    (silent : read entry = none) :
    latest read (log ++ [entry]) = latest read log := by
  rw [latest_snoc, silent]
  rfl

theorem latest_eq_none_iff {log : List α} :
    latest read log = none ↔ ∀ entry ∈ log, read entry = none := by
  simp [latest]

/-- A replay shows the latest word, if every entry either overwrites what is
shown or leaves it. -/
theorem shown_foldl (update : σ → α → σ) (shown : σ → β)
    (overwrites : ∀ state entry,
      shown (update state entry) = (read entry).getD (shown state))
    (log : List α) (start : σ) :
    shown (log.foldl update start) = (latest read log).getD (shown start) := by
  induction log using List.reverseRecOn with
  | nil => rfl
  | append_singleton log entry induction =>
      rw [List.foldl_append, List.foldl_cons, List.foldl_nil, overwrites,
        induction, latest_snoc]
      cases read entry with
      | none => rfl
      | some value => rfl

end Latest
