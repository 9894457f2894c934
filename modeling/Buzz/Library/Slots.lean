import Mathlib.Data.List.Basic

/-! Lists of slots of which one is changed at a time. -/

namespace Buzz.Library.Slots

open List

variable {α β : Type} {slots : List α} {index : ℕ} {change : α → α} {slot : α} {p : α → Bool}

theorem map_modify {view : α → β} (same : ∀ slot, view (change slot) = view slot) :
    (slots.modify index change).map view = slots.map view := by
  induction slots generalizing index with
  | nil => simp
  | cons head tail ih =>
    cases index with
    | zero => simp [same]
    | succ index => simp [ih]

theorem modify_concat_length : (slots ++ [slot]).modify slots.length change =
    slots ++ [change slot] := by
  induction slots with
  | nil => rfl
  | cons head tail ih => rw [cons_append, length_cons, modify_succ_cons, ih,
      cons_append]

theorem mem_modify (member : slot ∈ slots.modify index change) :
    slot ∈ slots ∨ ∃ old, slots[index]? = some old ∧ slot = change old := by
  induction slots generalizing index with
  | nil => simp at member
  | cons head tail ih =>
    cases index with
    | zero =>
      rw [modify_zero_cons, mem_cons] at member
      cases member with
      | inl changed => exact .inr ⟨head, rfl, changed⟩
      | inr later => exact .inl (mem_cons_of_mem head later)
    | succ index =>
      rw [modify_succ_cons, mem_cons] at member
      cases member with
      | inl first => exact .inl (first ▸ mem_cons_self)
      | inr later =>
        cases ih later with
        | inl before => exact .inl (mem_cons_of_mem head before)
        | inr found => exact .inr found

theorem countP_modify_le
    (weaker : ∀ old, slots[index]? = some old → p (change old) → p old) :
    (slots.modify index change).countP p ≤ slots.countP p := by
  induction slots generalizing index with
  | nil => simp
  | cons head tail ih =>
    cases index with
    | zero =>
      have first := weaker head rfl
      rw [modify_zero_cons, countP_cons, countP_cons]
      cases changed : p (change head) with
      | false => simp
      | true => simp [first changed]
    | succ index =>
      have rest : (tail.modify index change).countP p ≤ tail.countP p := ih weaker
      rw [modify_succ_cons, countP_cons, countP_cons]
      omega

theorem countP_modify_add_one (found : slots[index]? = some slot) (counted : p slot)
    (dropped : p (change slot) = false) :
    (slots.modify index change).countP p + 1 = slots.countP p := by
  induction slots generalizing index with
  | nil => simp at found
  | cons head tail ih =>
    cases index with
    | zero =>
      rw [getElem?_cons_zero, Option.some.injEq] at found
      rw [modify_zero_cons, countP_cons, countP_cons, found, counted, dropped]
      simp
    | succ index =>
      rw [getElem?_cons_succ] at found
      have rest := ih found
      rw [modify_succ_cons, countP_cons, countP_cons]
      omega

end Buzz.Library.Slots

/-! Locks that the slots of a list hold, one slot of which takes a step at a time. -/

namespace Buzz.Library.Locks

open List

variable {α Key : Type} {slots : List α} {index : ℕ} {test : α → Bool} {holds : α → Key → Bool}
  {slot : α}

def others (index : ℕ) (test : α → Bool) (slots : List α) : Bool :=
  slots.zipIdx.any fun entry => entry.2 ≠ index && test entry.1

theorem others_eq_false : others index test slots = false ↔
    ∀ other slot, other ≠ index → slots[other]? = some slot → test slot = false := by
  rw [others, any_eq_false]
  constructor
  · intro none other slot apart found
    have entry := none (slot, other) (mem_zipIdx_iff_getElem?.mpr found)
    simpa [apart] using entry
  · intro none entry member
    have found := mem_zipIdx_iff_getElem?.mp member
    by_cases apart : entry.2 = index
    · simp [apart]
    · simp [none entry.2 entry.1 apart found]

def Exclusive (holds : α → Key → Bool) (slots : List α) : Prop :=
  ∀ (first second : ℕ) (one two : α) (key : Key), slots[first]? = some one →
    slots[second]? = some two → holds one key → holds two key → first = second

theorem getElem?_set {other : ℕ} {found : α} (isFound : (slots.set index slot)[other]? = some found) :
    other = index ∧ found = slot ∨ other ≠ index ∧ slots[other]? = some found := by
  rw [List.getElem?_set] at isFound
  split at isFound
  next same =>
    split at isFound
    · exact .inl ⟨same.symm, (Option.some.inj isFound).symm⟩
    · cases isFound
  next apart => exact .inr ⟨fun same => apart same.symm, isFound⟩

theorem Exclusive.set (exclusive : Exclusive holds slots)
    (taken : ∀ key, holds slot key →
      (∃ old, slots[index]? = some old ∧ holds old key) ∨
        others index (fun other => holds other key) slots = false) :
    Exclusive holds (slots.set index slot) := by
  have apart {other : ℕ} {one : α} {key : Key} (found : slots[other]? = some one)
      (different : other ≠ index) (held : holds one key) : holds slot key = false := by
    by_contra holding
    cases taken key (eq_true_of_ne_false holding) with
    | inl before =>
      obtain ⟨old, isOld, oldHeld⟩ := before
      exact different (exclusive other index one old key found isOld held oldHeld)
    | inr free =>
      have idle := others_eq_false.mp free other one different found
      rw [held] at idle
      cases idle
  intro first second one two key isOne isTwo oneHeld twoHeld
  cases getElem?_set isOne with
  | inl changed =>
    obtain ⟨rfl, rfl⟩ := changed
    cases getElem?_set isTwo with
    | inl both => exact both.1.symm
    | inr kept =>
      rw [apart kept.2 kept.1 twoHeld] at oneHeld
      cases oneHeld
  | inr before =>
    cases getElem?_set isTwo with
    | inl changed =>
      obtain ⟨rfl, rfl⟩ := changed
      rw [apart before.2 before.1 oneHeld] at twoHeld
      cases twoHeld
    | inr kept => exact exclusive first second one two key before.2 kept.2 oneHeld twoHeld

theorem getElem?_concat {other : ℕ} {found : α} (isFound : (slots ++ [slot])[other]? = some found) :
    slots[other]? = some found ∨ other = slots.length ∧ found = slot := by
  rw [getElem?_append] at isFound
  split at isFound
  · exact .inl isFound
  · right
    have bound := (List.getElem?_eq_some_iff.mp isFound).1
    rw [length_singleton] at bound
    have last : other = slots.length := by omega
    rw [last, Nat.sub_self, getElem?_cons_zero, Option.some.injEq] at isFound
    exact ⟨last, isFound.symm⟩

theorem Exclusive.concat (exclusive : Exclusive holds slots) (idle : ∀ key, holds slot key = false) :
    Exclusive holds (slots ++ [slot]) := by
  intro first second one two key isOne isTwo oneHeld twoHeld
  cases getElem?_concat isOne with
  | inl before =>
    cases getElem?_concat isTwo with
    | inl other => exact exclusive first second one two key before other oneHeld twoHeld
    | inr last =>
      rw [last.2, idle key] at twoHeld
      cases twoHeld
  | inr last =>
    rw [last.2, idle key] at oneHeld
    cases oneHeld

end Buzz.Library.Locks
