import Chronos.Lib.Trace
import Mathlib.Algebra.BigOperators.Group.List.Basic
import Mathlib.Tactic.Ring

/-!
# Abstract machines and what they say about runs

An abstract machine is a labelled relation on abstract states.  A system
simulates it along an abstraction when every step is silent and leaves the
abstract state alone, or is observed as a label and takes an edge of the
machine.  The observations of a run then form a path of the machine, and
whatever balances along the edges balances over the run.
-/

universe u v w x

/-- A path of an abstract machine, with its labels. -/
inductive LabelledPath {τ : Type u} {β : Type v} (edge : τ → β → τ → Prop)
    (start : τ) : List β → τ → Prop where
  | nil : LabelledPath edge start [] start
  | snoc {labels : List β} {middle last : τ} {label : β} :
      LabelledPath edge start labels middle →
      edge middle label last →
      LabelledPath edge start (labels ++ [label]) last

namespace LabelledPath

variable {τ : Type u} {β : Type v} {edge : τ → β → τ → Prop}
  {start last : τ} {labels : List β}

/-- A quantity that every edge changes by the weight of its label is changed
by a path by the total weight. -/
theorem balance (level : τ → Int) (weight : β → Int)
    (balanced : ∀ {before label after}, edge before label after →
      level after = level before + weight label)
    (path : LabelledPath edge start labels last) :
    level last = level start + (labels.map weight).sum := by
  induction path with
  | nil => simp
  | snoc _ taken ih =>
      rw [balanced taken, ih, List.map_append, List.sum_append]
      simp only [List.map_cons, List.map_nil, List.sum_cons, List.sum_nil]
      ring

end LabelledPath

namespace Run

variable {σ : Type u} {α : Type v} {τ : Type w} {β : Type x}
  {step : σ → α → Option σ} {start last : σ} {trace : List (Transition σ α)}

/-- The observations of a run of a system that simulates a machine form a path
of the machine. -/
theorem path (run : Run step start trace last) {edge : τ → β → τ → Prop}
    (abstraction : σ → τ) (observed : Transition σ α → Option β)
    {invariant : σ → Prop} {allowed : Transition σ α → Prop}
    (steps : ∀ transition ∈ trace, allowed transition)
    (initial : invariant start)
    (preserved : ∀ transition, allowed transition →
      step transition.before transition.action = some transition.after →
      invariant transition.before → invariant transition.after)
    (silent : ∀ transition,
      step transition.before transition.action = some transition.after →
      invariant transition.before → observed transition = none →
      abstraction transition.after = abstraction transition.before)
    (visible : ∀ transition, allowed transition →
      step transition.before transition.action = some transition.after →
      invariant transition.before →
      ∀ label, observed transition = some label →
        edge (abstraction transition.before) label
          (abstraction transition.after)) :
    LabelledPath edge (abstraction start) (trace.filterMap observed)
      (abstraction last) := by
  induction run with
  | nil => exact .nil
  | @snoc trace middle last action run taken ih =>
      have earlier := fun transition member =>
        steps transition (List.mem_append_left _ member)
      have permitted := steps ⟨middle, action, last⟩
        (List.mem_append_right _ (List.mem_singleton_self _))
      have holds : invariant middle :=
        run.invariant invariant earlier initial preserved
      rw [List.filterMap_append]
      cases label : observed ⟨middle, action, last⟩ with
      | none =>
          have same := silent ⟨middle, action, last⟩ taken holds label
          dsimp only at same
          rw [same]
          simpa [List.filterMap, label] using ih earlier
      | some event =>
          have edge := visible _ permitted taken holds event label
          simpa [List.filterMap, label] using (ih earlier).snoc edge

end Run
