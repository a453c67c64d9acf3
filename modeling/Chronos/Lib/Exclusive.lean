import Mathlib.Logic.Basic

/-!
# Exclusive holding

Agents hold resources, and some resources are free.  Holding is exclusive when
a resource has at most one holder and a free resource has none.  The rule
`Exclusive.step` says when a change of the holdings keeps this: only one agent
gains, and what it gains was free before or was handed over by its holder.
-/

universe u v

/-- No resource has two holders, and no free resource has one. -/
structure Exclusive {κ : Type u} {ρ : Type v}
    (free : ρ → Prop) (holds : κ → ρ → Prop) : Prop where
  unique : ∀ {resource first second},
    holds first resource → holds second resource → first = second
  busy : ∀ {resource holder}, holds holder resource → ¬free resource

namespace Exclusive

variable {κ : Type u} {ρ : Type v} {free free' : ρ → Prop}
  {holds holds' : κ → ρ → Prop}

/-- One agent may gain resources that were free and no longer are, or that
their holder gives up; every other agent only loses resources; and a resource
becomes free only when nobody holds it any more. -/
theorem step (exclusive : Exclusive free holds) (agent : κ)
    (others : ∀ {resource holder},
      holds' holder resource → holder ≠ agent → holds holder resource)
    (gained : ∀ {resource}, holds' agent resource →
      holds agent resource ∨ (free resource ∧ ¬free' resource) ∨
        ∃ giver, holds giver resource ∧ ¬holds' giver resource)
    (freed : ∀ {resource}, free' resource →
      free resource ∨ ∀ holder, ¬holds' holder resource) :
    Exclusive free' holds' := by
  have against : ∀ {resource other}, holds' agent resource →
      holds' other resource → other = agent := by
    intro resource other mine theirs
    by_cases same : other = agent
    · exact same
    · have old := others theirs same
      rcases gained mine with held | ⟨wasFree, _⟩ | ⟨giver, gave, gone⟩
      · exact exclusive.unique old held
      · exact (exclusive.busy old wasFree).elim
      · exact (gone (exclusive.unique old gave ▸ theirs)).elim
  constructor
  · intro resource first second firstHolds secondHolds
    by_cases firstAgent : first = agent
    · exact firstAgent.trans
        (against (firstAgent ▸ firstHolds) secondHolds).symm
    · by_cases secondAgent : second = agent
      · exact (against (secondAgent ▸ secondHolds) firstHolds).trans
          secondAgent.symm
      · exact exclusive.unique (others firstHolds firstAgent)
          (others secondHolds secondAgent)
  · intro resource holder held nowFree
    rcases freed nowFree with wasFree | unheld
    · by_cases same : holder = agent
      · subst holder
        rcases gained held with old | ⟨_, notFree⟩ | ⟨giver, gave, _⟩
        · exact exclusive.busy old wasFree
        · exact notFree nowFree
        · exact exclusive.busy gave wasFree
      · exact exclusive.busy (others held same) wasFree
    · exact unheld holder held

/-- Losing resources keeps holding exclusive as long as nothing held becomes
free. -/
theorem mono (exclusive : Exclusive free holds)
    (shrinks : ∀ {resource holder},
      holds' holder resource → holds holder resource)
    (freed : ∀ {resource}, free' resource →
      free resource ∨ ∀ holder, ¬holds' holder resource) :
    Exclusive free' holds' := by
  constructor
  · intro resource first second firstHolds secondHolds
    exact exclusive.unique (shrinks firstHolds) (shrinks secondHolds)
  · intro resource holder held nowFree
    rcases freed nowFree with wasFree | unheld
    · exact exclusive.busy (shrinks held) wasFree
    · exact unheld holder held

end Exclusive
