import Mathlib.Data.Set.Basic

/-! What is reached from a list of tips in a graph of objects, and what has to be added to a
holder of one such set for it to hold another. -/

namespace Buzz.Library.Reachability

variable {Object : Type} (refers : Object → Object → Prop)

def closure (tips : List Object) : Set Object :=
  {object | ∃ tip ∈ tips, Relation.ReflTransGen refers tip object}

variable {refers}

theorem closure_nil : closure refers [] = ∅ := by
  apply Set.eq_empty_of_forall_notMem
  rintro object ⟨tip, member, -⟩
  cases member

theorem closure_mono {first second : List Object} (within : first ⊆ second) :
    closure refers first ⊆ closure refers second := by
  rintro object ⟨tip, member, reached⟩
  exact ⟨tip, within member, reached⟩

theorem closure_subset_of_delta {before after : List Object} {held added : Set Object}
    (holds : closure refers before ⊆ held)
    (missing : closure refers after \ closure refers before ⊆ added) :
    closure refers after ⊆ held ∪ added := by
  intro object reached
  by_cases old : object ∈ closure refers before
  · exact Or.inl (holds old)
  · exact Or.inr (missing ⟨reached, old⟩)

end Buzz.Library.Reachability
