import Mathlib.Order.Bounds.Basic
import Mathlib.Tactic.Common

/-! Marks that are only raised, where one that is not set counts as the lowest. -/

namespace Buzz.Library.HighWater

variable {Level : Type} [LinearOrder Level] [OrderBot Level]

def level (mark : Option Level) : Level := mark.getD ⊥

def raise (mark : Option Level) (offer : Level) : Option Level :=
  if offer ≤ level mark then mark else some offer

variable {mark other : Option Level} {offer : Level} {offers more : List Level}

theorem level_raise : level (raise mark offer) = max (level mark) offer := by
  unfold raise
  split
  next low => exact (max_eq_left low).symm
  next high => exact (max_eq_right (le_of_lt (not_le.mp high))).symm

def Proper (mark : Option Level) : Prop := mark ≠ some ⊥

theorem Proper.raise (proper : Proper mark) : Proper (raise mark offer) := by
  unfold HighWater.raise
  split
  · exact proper
  next high =>
    intro same
    injection same with lowest
    exact high (lowest ▸ bot_le)

theorem Proper.raiseAll (proper : Proper mark) : Proper (offers.foldl HighWater.raise mark) := by
  induction offers generalizing mark with
  | nil => exact proper
  | cons offer rest ih => exact ih proper.raise

theorem Proper.eq_of_level (proper : Proper mark) (proper' : Proper other)
    (same : level mark = level other) : mark = other := by
  cases mark with
  | none =>
    cases other with
    | none => rfl
    | some held => exact absurd (congrArg some same.symm) proper'
  | some held =>
    cases other with
    | none => exact absurd (congrArg some same) proper
    | some kept => exact congrArg some same

theorem level_le_raiseAll : level mark ≤ level (offers.foldl raise mark) := by
  induction offers generalizing mark with
  | nil => exact le_rfl
  | cons offer rest ih =>
    calc
      level mark ≤ level (raise mark offer) := by
        rw [level_raise]
        exact le_max_left _ _
      _ ≤ level (rest.foldl raise (raise mark offer)) := ih

theorem isGreatest_raiseAll {levels : Set Level} (start : IsGreatest levels (level mark)) :
    IsGreatest (levels ∪ {offer | offer ∈ offers}) (level (offers.foldl raise mark)) := by
  induction offers generalizing mark levels with
  | nil => simpa using start
  | cons offer rest ih =>
    have raised : IsGreatest (levels ∪ {offer}) (level (raise mark offer)) := by
      rw [level_raise]
      exact start.union isGreatest_singleton
    have later := ih raised
    rw [Set.union_assoc] at later
    have offered : {offer} ∪ {other | other ∈ rest} = {other | other ∈ offer :: rest} := by
      ext other
      simp
    rwa [offered] at later

end Buzz.Library.HighWater

/-! A register that keeps the greatest stamp it was offered. -/

namespace Buzz.Library.Register

open List Option

variable {Stamp : Type} [LinearOrder Stamp]

def offer (held : Option Stamp) (stamp : Stamp) : Option Stamp :=
  if ∃ accepted ∈ held, stamp ≤ accepted then held else some stamp

def Covers (held : Option Stamp) (stamp : Stamp) : Prop := ∃ accepted ∈ held, stamp ≤ accepted

instance (held : Option Stamp) (stamp : Stamp) : Decidable (Covers held stamp) :=
  inferInstanceAs (Decidable (∃ accepted ∈ held, stamp ≤ accepted))

variable {held : Option Stamp} {stamp other : Stamp} {stamps more : List Stamp}

theorem covers_some : Covers (some other) stamp ↔ stamp ≤ other := by
  simp [Covers]

theorem not_covers_none : ¬ Covers none stamp := by
  simp [Covers]

theorem Covers.le (covered : Covers held stamp) (smaller : other ≤ stamp) :
    Covers held other := by
  obtain ⟨accepted, same, greater⟩ := covered
  exact ⟨accepted, same, smaller.trans greater⟩

theorem offer_of_covers (covered : Covers held stamp) : offer held stamp = held :=
  if_pos covered

theorem offer_of_not_covers (uncovered : ¬ Covers held stamp) : offer held stamp = some stamp :=
  if_neg uncovered

theorem covers_offer_self : Covers (offer held stamp) stamp := by
  by_cases covered : Covers held stamp
  · rw [offer_of_covers covered]
    exact covered
  · rw [offer_of_not_covers covered, covers_some]

theorem Covers.offer (covered : Covers held other) : Covers (offer held stamp) other := by
  by_cases also : Covers held stamp
  · rw [offer_of_covers also]
    exact covered
  · rw [offer_of_not_covers also, covers_some]
    obtain ⟨accepted, same, greater⟩ := covered
    by_contra smaller
    exact also ⟨accepted, same, (lt_of_not_ge smaller).le.trans greater⟩

theorem Covers.le_of_not_covers (covered : Covers held other) (uncovered : ¬ Covers held stamp) :
    other ≤ stamp := by
  have offered : Covers (Register.offer held stamp) other := covered.offer
  rwa [offer_of_not_covers uncovered, covers_some] at offered

def Holds (held : Option Stamp) (stamps : List Stamp) : Prop :=
  (∀ stamp ∈ stamps, Covers held stamp) ∧ ∀ accepted ∈ held, accepted ∈ stamps

theorem holds_nil : Holds (none : Option Stamp) [] := by
  simp [Holds]

theorem Holds.offer (holds : Holds held stamps) : Holds (offer held stamp) (stamps ++ [stamp]) := by
  constructor
  · intro earlier member
    rcases mem_append.mp member with before | last
    · exact (holds.1 earlier before).offer
    · rw [mem_singleton.mp last]
      exact covers_offer_self
  · intro accepted same
    by_cases covered : Covers held stamp
    · rw [offer_of_covers covered] at same
      exact mem_append_left _ (holds.2 accepted same)
    · rw [offer_of_not_covers covered, mem_some_iff] at same
      exact same ▸ mem_append_right _ (mem_singleton_self stamp)

theorem holds_foldl (holds : Holds held stamps) :
    Holds (more.foldl Register.offer held) (stamps ++ more) := by
  induction more generalizing held stamps with
  | nil => simpa using holds
  | cons next rest ih =>
    have first : Holds (Register.offer held next) (stamps ++ [next]) := holds.offer
    have step := ih first
    rwa [append_assoc, singleton_append] at step

theorem Holds.isGreatest (holds : Holds (some stamp) stamps) :
    IsGreatest {offered | offered ∈ stamps} stamp :=
  ⟨holds.2 stamp rfl, fun offered member => covers_some.mp (holds.1 offered member)⟩

theorem Holds.eq_none_iff (holds : Holds held stamps) : held = none ↔ stamps = [] := by
  constructor
  · intro empty
    rw [eq_nil_iff_forall_not_mem]
    intro offered member
    have covered := holds.1 offered member
    rw [empty] at covered
    exact not_covers_none covered
  · intro empty
    rw [eq_none_iff_forall_not_mem]
    intro accepted same
    have member := holds.2 accepted same
    rw [empty] at member
    cases member

theorem Holds.unique {again : Option Stamp} (holds : Holds held stamps) (second : Holds again more)
    (same : ∀ offered, offered ∈ stamps ↔ offered ∈ more) : held = again := by
  cases held with
  | none =>
    have empty := holds.eq_none_iff.mp rfl
    symm
    rw [second.eq_none_iff, eq_nil_iff_forall_not_mem]
    intro offered member
    rw [← same, empty] at member
    cases member
  | some stamp =>
    cases again with
    | none =>
      have empty := second.eq_none_iff.mp rfl
      have member := (same stamp).mp (holds.2 stamp rfl)
      rw [empty] at member
      cases member
    | some other =>
      have greatest := holds.isGreatest
      have alsoGreatest := second.isGreatest
      have sets : {offered | offered ∈ stamps} = {offered | offered ∈ more} := Set.ext same
      rw [sets] at greatest
      rw [greatest.unique alsoGreatest]

end Buzz.Library.Register
