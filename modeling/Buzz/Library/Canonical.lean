import Mathlib.Data.List.Sort

/-! One list for a finite set: sorted, each member once. -/

namespace Buzz.Library.Canonical

open List

variable {Item : Type} [DecidableEq Item]

def dropRepeats : List Item → List Item
  | [] => []
  | [item] => [item]
  | item :: next :: rest =>
    if item = next then dropRepeats (next :: rest) else item :: dropRepeats (next :: rest)

def canonical (le : Item → Item → Prop) [DecidableRel le] (items : List Item) : List Item :=
  dropRepeats (items.insertionSort le)

variable {le : Item → Item → Prop}

theorem mem_dropRepeats {item : Item} : ∀ {items : List Item}, item ∈ dropRepeats items ↔ item ∈ items
  | [] => Iff.rfl
  | [_] => Iff.rfl
  | first :: next :: rest => by
    have rule := @mem_dropRepeats item (next :: rest)
    unfold dropRepeats
    split
    next same =>
      rw [rule, same]
      simp
    · rw [mem_cons, rule]
      exact mem_cons.symm

theorem dropRepeats_sublist : ∀ items : List Item, (dropRepeats items).Sublist items
  | [] => List.Sublist.refl _
  | [_] => List.Sublist.refl _
  | first :: next :: rest => by
    have rule := dropRepeats_sublist (next :: rest)
    unfold dropRepeats
    split
    · exact rule.cons first
    · exact rule.cons_cons first

theorem dropRepeats_nodup [Std.Antisymm le] :
    ∀ {items : List Item}, items.Pairwise le → (dropRepeats items).Nodup
  | [], _ => nodup_nil
  | [item], _ => nodup_singleton item
  | first :: next :: rest, sorted => by
    obtain ⟨least, tail⟩ := pairwise_cons.mp sorted
    have rule := dropRepeats_nodup tail
    unfold dropRepeats
    split
    · exact rule
    next apart =>
      refine nodup_cons.mpr ⟨fun again => ?_, rule⟩
      cases mem_cons.mp (mem_dropRepeats.mp again) with
      | inl same => exact apart same
      | inr later =>
        have below := (pairwise_cons.mp tail).1 first later
        have above := least next mem_cons_self
        exact apart (Std.Antisymm.antisymm first next above below)

variable [DecidableRel le] {items : List Item}

theorem mem_canonical {item : Item} :
    item ∈ canonical le items ↔ item ∈ items := by
  rw [canonical, mem_dropRepeats, mem_insertionSort]

theorem canonical_congr [Std.Total le] [IsTrans Item le] [Std.Antisymm le] {others : List Item}
    (same : ∀ item, item ∈ items ↔ item ∈ others) :
    canonical le items = canonical le others := by
  have sorted (list : List Item) : (canonical le list).Pairwise le :=
    (pairwise_insertionSort le list).sublist (dropRepeats_sublist _)
  have nodup (list : List Item) : (canonical le list).Nodup :=
    dropRepeats_nodup (pairwise_insertionSort le list)
  have permuted : (canonical le items).Perm (canonical le others) := by
    apply (perm_ext_iff_of_nodup (nodup items) (nodup others)).mpr
    intro item
    rw [mem_canonical, mem_canonical]
    exact same item
  exact permuted.eq_of_pairwise (fun first second _ _ below above =>
    Std.Antisymm.antisymm first second below above) (sorted items) (sorted others)

end Buzz.Library.Canonical
