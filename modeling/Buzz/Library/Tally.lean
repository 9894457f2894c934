import Mathlib.Data.List.Count
import Mathlib.Data.List.Nodup

/-! Tallies that rows keep of the items that name their keys. -/

namespace Buzz.Library.Tally

open List

section rows

variable {Row Key : Type} {key : Row → Key} {tally : Row → ℕ} {rows : List Row} {row : Row}
  {count : Key → ℕ}

def Agrees (key : Row → Key) (tally : Row → ℕ) (rows : List Row) (count : Key → ℕ) : Prop :=
  ∀ row ∈ rows, tally row = count (key row)

theorem Agrees.concat (agrees : Agrees key tally rows count) (new : tally row = count (key row)) :
    Agrees key tally (rows ++ [row]) count := by
  intro other member
  cases mem_append.mp member with
  | inl before => exact agrees other before
  | inr last =>
    rw [mem_singleton.mp last]
    exact new

theorem Agrees.map (agrees : Agrees key tally rows count) {change : Row → Row}
    {shift : Key → ℕ → ℕ} (same : ∀ row, key (change row) = key row)
    (shifts : ∀ row, tally (change row) = shift (key row) (tally row)) :
    Agrees key tally (rows.map change) fun key => shift key (count key) := by
  intro row member
  obtain ⟨old, within, rfl⟩ := mem_map.mp member
  rw [shifts, same, agrees old within]

end rows

section items

variable {Item Key : Type} {key : Item → Key} {items : List Item} {item : Item}
  {change : Item → Item} {counted : Item → Bool}

theorem countP_change (nodup : (items.map key).Nodup) (member : item ∈ items)
    (same : ∀ other, key other ≠ key item → change other = other)
    (dropped : ∀ other, key other = key item → counted (change other) = false) :
    (items.map change).countP counted + (if counted item then 1 else 0) = items.countP counted := by
  induction items with
  | nil => exact absurd member not_mem_nil
  | cons head tail ih =>
    rw [map_cons, nodup_cons] at nodup
    rw [map_cons, countP_cons, countP_cons]
    cases mem_cons.mp member with
    | inl first =>
      have rest : tail.map change = tail := by
        conv_rhs => rw [← map_id tail]
        apply map_congr_left
        intro other within
        apply same
        rw [first]
        exact fun again => nodup.1 (again ▸ mem_map_of_mem within)
      rw [rest, dropped head (by rw [first]), first]
      simp
    | inr later =>
      have apart : key head ≠ key item := fun again =>
        nodup.1 (again ▸ mem_map_of_mem later)
      rw [same head apart]
      have rest := ih nodup.2 later
      omega

end items

end Buzz.Library.Tally

/-! Items kept in places by their key. A change of the places is accounted for by what comes in
and what goes out, counted by item. -/

namespace Buzz.Library.Placement

open List

variable {Key Item : Type}

def Keyed (key : Item → Key) (stored : Key → List Item) : Prop :=
  ∀ place, ∀ item ∈ stored place, key item = place

structure Moves [DecidableEq Item] (key : Item → Key) (before after : Key → List Item)
    (incoming outgoing : List Item) : Prop where
  keyed : Keyed key after
  counts : ∀ item, (after (key item)).count item + outgoing.count item =
    (before (key item)).count item + incoming.count item

variable [DecidableEq Item] {key : Item → Key} {before middle after : Key → List Item}

theorem Moves.unchanged (keyed : Keyed key before) (same : ∀ place, after place = before place) :
    Moves key before after [] [] where
  keyed := by
    intro place item member
    rw [same] at member
    exact keyed place item member
  counts := by
    intro item
    rw [same]

theorem Moves.onePlace {incoming outgoing : List Item} (changed : Key)
    (keyed : Keyed key before) (others : ∀ place, place ≠ changed → after place = before place)
    (arrived : ∀ item ∈ incoming, key item = changed)
    (perm : (after changed ++ outgoing).Perm (before changed ++ incoming)) :
    Moves key before after incoming outgoing := by
  have known (item : Item) (member : item ∈ after changed ++ outgoing) : key item = changed := by
    rcases mem_append.mp (perm.mem_iff.mp member) with old | new
    · exact keyed changed item old
    · exact arrived item new
  constructor
  · intro place item member
    by_cases here : place = changed
    · rw [here] at member ⊢
      exact known item (mem_append_left outgoing member)
    · rw [others place here] at member
      exact keyed place item member
  · intro item
    by_cases here : key item = changed
    · have counted := perm.count_eq item
      rw [count_append, count_append] at counted
      rw [here]
      exact counted
    · have gone : outgoing.count item = 0 := by
        apply count_eq_zero_of_not_mem
        intro member
        exact here (known item (mem_append_right _ member))
      have absent : incoming.count item = 0 := by
        apply count_eq_zero_of_not_mem
        intro member
        exact here (arrived item member)
      rw [others _ here, gone, absent]

end Buzz.Library.Placement
