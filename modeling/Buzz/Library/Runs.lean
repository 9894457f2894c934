import Mathlib.Algebra.Group.Int.Defs
import Mathlib.Algebra.Group.Nat.Defs
import Mathlib.Data.Nat.Notation
import Mathlib.Tactic.Common

/-! Runs of a labelled transition relation, and the invariant rule. -/

namespace Buzz.Library.Transition

variable {State Label : Type}

inductive Run (step : State → Label → State → Prop) : State → List Label → State → Prop
  | nil (state : State) : Run step state [] state
  | cons {first middle last : State} {label : Label} {labels : List Label}
      (head : step first label middle) (tail : Run step middle labels last) :
      Run step first (label :: labels) last

/-- Steps taken where a condition holds. -/
def Guarded (condition : State → Label → Prop) (step : State → Label → State → Prop)
    (state : State) (label : Label) (next : State) : Prop :=
  condition state label ∧ step state label next

variable {step : State → Label → State → Prop}

theorem Run.invariant {Inv : State → Prop}
    (preserved : ∀ state label next, Inv state → step state label next → Inv next)
    {first last : State} {labels : List Label} (run : Run step first labels last)
    (start : Inv first) : Inv last := by
  induction run with
  | nil state => exact start
  | cons head tail ih => exact ih (preserved _ _ _ start head)

variable {first last : State}

theorem Run.append {middle : State} {labels more : List Label}
    (run : Run step first labels middle) (continued : Run step middle more last) :
    Run step first (labels ++ more) last := by
  induction run with
  | nil state => exact continued
  | cons head tail ih => exact .cons head (ih continued)

variable {condition : State → Label → Prop}

theorem Run.weaken {weaker : State → Label → Prop}
    (implied : ∀ state label, condition state label → weaker state label)
    {labels : List Label} (run : Run (Guarded condition step) first labels last) :
    Run (Guarded weaker step) first labels last := by
  induction run with
  | nil state => exact .nil state
  | cons head tail ih => exact .cons ⟨implied _ _ head.1, head.2⟩ ih

theorem Run.unguarded {labels : List Label} (run : Run (Guarded condition step) first labels last) :
    Run step first labels last := by
  induction run with
  | nil state => exact .nil state
  | cons head tail ih => exact .cons head.2 ih

end Buzz.Library.Transition

/-! Runs of a step function over a list of labels, and the invariant rules for them. -/

namespace Buzz.Library.Runs

variable {State Label : Type} {step : State → Label → State}

def EachStep (step : State → Label → State) (holds : State → Label → Prop) (state : State) :
    List Label → Prop
  | [] => True
  | label :: rest => holds state label ∧ EachStep step holds (step state label) rest

instance EachStep.decidable {holds : State → Label → Prop}
    [∀ state label, Decidable (holds state label)] :
    ∀ state labels, Decidable (EachStep step holds state labels)
  | _, [] => isTrue True.intro
  | state, label :: rest =>
    have : Decidable (EachStep step holds (step state label) rest) := EachStep.decidable _ rest
    inferInstanceAs (Decidable (holds state label ∧ EachStep step holds (step state label) rest))

variable {state : State}

theorem EachStep.any (labels : List Label) :
    EachStep step (fun _ _ => True) state labels := by
  induction labels generalizing state with
  | nil => exact True.intro
  | cons label rest ih => exact ⟨True.intro, ih⟩

variable {labels : List Label}

theorem EachStep.of_forall {holds : Label → Prop}
    (all : ∀ label ∈ labels, holds label) : EachStep step (fun _ label => holds label) state labels := by
  induction labels generalizing state with
  | nil => exact True.intro
  | cons label rest ih =>
    exact ⟨all label List.mem_cons_self, ih fun other later => all other (List.mem_cons_of_mem _ later)⟩

variable {holds : State → Label → Prop}

theorem EachStep.append {before after : List Label} :
    EachStep step holds state (before ++ after) ↔
      EachStep step holds state before ∧ EachStep step holds (before.foldl step state) after := by
  induction before generalizing state with
  | nil => simp [EachStep]
  | cons label rest ih => simp [EachStep, ih, and_assoc]

theorem EachStep.and {first second : State → Label → Prop}
    (one : EachStep step first state labels) (other : EachStep step second state labels) :
    EachStep step (fun state label => first state label ∧ second state label) state labels := by
  induction labels generalizing state with
  | nil => exact True.intro
  | cons label rest ih => exact ⟨⟨one.1, other.1⟩, ih one.2 other.2⟩

variable {within : State → Label → Prop}

theorem EachStep.ensures {Inv : State → Prop}
    (preserved : ∀ state label, Inv state → within state label → Inv (step state label))
    (ensured : ∀ state label, Inv state → within state label → holds state label)
    (start : Inv state)
    (each : EachStep step within state labels) : EachStep step holds state labels := by
  induction labels generalizing state with
  | nil => exact trivial
  | cons label rest ih =>
    exact ⟨ensured state label start each.1, ih (preserved state label start each.1) each.2⟩

theorem EachStep.invariant {within : State → Label → Prop} {Inv : State → Prop}
    (preserved : ∀ state label, Inv state → within state label → Inv (step state label))
    {state : State} {labels : List Label} (start : Inv state)
    (each : EachStep step within state labels) : Inv (labels.foldl step state) := by
  induction labels generalizing state with
  | nil => exact start
  | cons label rest ih => exact ih (preserved state label start each.1) each.2

/-- A run keeps it exactly when every step does. -/
theorem EachStep.exact {Inv Good : State → Prop}
    (preserved : ∀ state label, Inv state → Inv (step state label))
    (exact : ∀ state label, Inv state → (Good (step state label) ↔ Good state ∧ within state label))
    (start : Inv state) :
    Good (labels.foldl step state) ↔ Good state ∧ EachStep step within state labels := by
  induction labels generalizing state with
  | nil => exact ⟨fun good => ⟨good, trivial⟩, fun both => both.1⟩
  | cons label rest ih =>
    rw [List.foldl_cons, ih (preserved state label start), exact state label start, and_assoc]
    rfl

end Buzz.Library.Runs

/-! Traces of a deterministic machine with a clock that never runs back. -/

namespace Buzz.Library.StampedTrace

variable {State Op Event : Type}

def trace (step : State → Op → State × Event) : State → List Op → List Event
  | _, [] => []
  | state, op :: ops => (step state op).2 :: trace step (step state op).1 ops

def final (step : State → Op → State × Event) (state : State) (ops : List Op) : State :=
  ops.foldl (fun state op => (step state op).1) state

/-- A clock that steps only raise, with a bound for each event. -/
structure Clocked (step : State → Op → State × Event) (Inv : State → Prop) (clock : State → ℕ)
    (Fact : ℕ → ℕ → Event → Prop) : Prop where
  preserved : ∀ state op, Inv state → Inv (step state op).1
  raised : ∀ state op, Inv state → clock state ≤ clock (step state op).1
  stamped : ∀ state op, Inv state → Fact (clock state) (clock (step state op).1) (step state op).2

variable {step : State → Op → State × Event} {Inv : State → Prop} {clock : State → ℕ}
variable {Fact : ℕ → ℕ → Event → Prop}

theorem Clocked.trace_mem (clocked : Clocked step Inv clock Fact) {state : State}
    (inv : Inv state) (ops : List Op) :
    ∀ event ∈ trace step state ops, ∃ before after, clock state ≤ before ∧ before ≤ after ∧
      Fact before after event := by
  induction ops generalizing state with
  | nil =>
    intro event member
    cases member
  | cons op ops ih =>
    intro event member
    rcases List.mem_cons.mp member with rfl | later
    · exact ⟨clock state, clock (step state op).1, Nat.le_refl _, clocked.raised state op inv,
        clocked.stamped state op inv⟩
    · obtain ⟨before, after, low, ordered, fact⟩ :=
        ih (clocked.preserved state op inv) event later
      exact ⟨before, after, Nat.le_trans (clocked.raised state op inv) low, ordered, fact⟩

theorem Clocked.trace_pairwise (clocked : Clocked step Inv clock Fact) {state : State}
    (inv : Inv state) (ops : List Op) :
    (trace step state ops).Pairwise fun earlier later =>
      ∃ a b c d, Fact a b earlier ∧ Fact c d later ∧ a ≤ b ∧ b ≤ c ∧ c ≤ d := by
  induction ops generalizing state with
  | nil => exact List.Pairwise.nil
  | cons op ops ih =>
    apply List.Pairwise.cons
    · intro later member
      obtain ⟨before, after, low, ordered, fact⟩ :=
        clocked.trace_mem (clocked.preserved state op inv) ops later member
      exact ⟨_, _, before, after, clocked.stamped state op inv, fact,
        clocked.raised state op inv, low, ordered⟩
    · exact ih (clocked.preserved state op inv)

end Buzz.Library.StampedTrace
