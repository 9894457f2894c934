import Buzz.Nostr.Event
import Mathlib.Data.List.MinMax
import Mathlib.Data.Prod.Lex
import Mathlib.Data.String.Basic

/-! The head among the events of one slug, and the time that a new write takes. -/

namespace Buzz.Engram

open Nostr List

def u64Max : ℕ := 2 ^ 64 - 1

/-- The later one, at the same time the one of the lower id. -/
def laterOf (a b : Event) : Event :=
  if b.createdAt > a.createdAt then b
  else if a.createdAt > b.createdAt then a
  else if b.id.toHex < a.id.toHex then b
  else a

def selectHead : List Event → Option Event
  | [] => none
  | first :: rest => some (rest.foldl laterOf first)

def monotonicCreatedAt (now : ℕ) : Option ℕ → ℕ
  | some head => max now (min (head + 1) u64Max)
  | none => now

section order

def Event.stamp (event : Event) : ℕ ×ₗ Stringᵒᵈ :=
  toLex (event.createdAt, OrderDual.toDual event.id.toHex)

variable {a b : Event} {events others : List Event}

theorem stamp_lt :
    Event.stamp a < Event.stamp b ↔
      a.createdAt < b.createdAt ∨ a.createdAt = b.createdAt ∧ b.id.toHex < a.id.toHex := by
  simp [Event.stamp, Prod.Lex.toLex_lt_toLex]

theorem laterOf_eq : laterOf a b = if Event.stamp a < Event.stamp b then b else a := by
  unfold laterOf
  rcases Nat.lt_trichotomy a.createdAt b.createdAt with earlier | same | later
  · rw [if_pos earlier, if_pos (stamp_lt.mpr (Or.inl earlier))]
  · by_cases lower : b.id.toHex < a.id.toHex
    · simp [stamp_lt, same, lower]
    · simp [stamp_lt, same, lower]
  · have kept : ¬ Event.stamp a < Event.stamp b := by
      rw [stamp_lt]
      omega
    rw [if_neg (by omega), if_pos later, if_neg kept]

theorem foldl_laterOf :
    events.foldl (List.argAux fun b c => Event.stamp c < Event.stamp b) (some a) =
      some (events.foldl laterOf a) := by
  induction events generalizing a with
  | nil => rfl
  | cons next rest ih =>
    have step : List.argAux (fun b c => Event.stamp c < Event.stamp b) (some a) next =
        some (laterOf a next) := by
      rw [laterOf_eq]
      exact (apply_ite some _ _ _).symm
    rw [foldl_cons, foldl_cons, step, ih]

theorem selectHead_eq : selectHead events = List.argmax Event.stamp events := by
  cases events with
  | nil => rfl
  | cons first rest => exact foldl_laterOf.symm

theorem stamp_inj (same : Event.stamp a = Event.stamp b) : a.id = b.id :=
  toHex_injective (congrArg (fun stamp => OrderDual.ofDual (ofLex stamp).2) same)

theorem selectHead_perm (order : events.Perm others) (distinct : (events.map Event.id).Nodup) :
    selectHead events = selectHead others := by
  cases found : selectHead others with
  | none =>
    rw [selectHead_eq, argmax_eq_none] at found
    rw [found] at order
    rw [order.eq_nil]
    rfl
  | some head =>
    cases again : selectHead events with
    | none =>
      rw [selectHead_eq, argmax_eq_none] at again
      rw [again] at order
      rw [← order.nil_eq] at found
      cases found
    | some chosen =>
      rw [selectHead_eq] at found again
      have first := argmax_mem again
      have second := order.mem_iff.mpr (argmax_mem found)
      have atMost := le_of_mem_argmax (order.mem_iff.mp first) found
      have atLeast := le_of_mem_argmax second again
      have ids := stamp_inj (le_antisymm atMost atLeast)
      rw [inj_on_of_nodup_map distinct first second ids]

end order

section writes

/-- The events written to a slug that held `start`. -/
inductive Writes (start : List Event) : List Event → Prop
  | none : Writes start []
  | write (written : List Event) (now : ℕ) (event : Event) :
      Writes start written →
      (∀ head ∈ selectHead (start ++ written), head.createdAt < u64Max) →
      event.createdAt =
        monotonicCreatedAt now ((selectHead (start ++ written)).map Event.createdAt) →
      Writes start (written ++ [event])

variable {start written : List Event} {last : Event}

theorem monotonicCreatedAt_gt {now head : ℕ} (below : head < u64Max) :
    head < monotonicCreatedAt now (some head) := by
  simp only [monotonicCreatedAt]
  omega

theorem selectHead_append_later {events : List Event}
    (later : ∀ head ∈ selectHead events, head.createdAt < last.createdAt) :
    selectHead (events ++ [last]) = some last := by
  rw [selectHead_eq] at later ⊢
  rw [argmax_concat]
  cases found : List.argmax Event.stamp events with
  | none => rfl
  | some head => exact if_pos (stamp_lt.mpr (Or.inl (later head found)))

theorem selectHead_last (writes : Writes start (written ++ [last])) :
    selectHead (start ++ (written ++ [last])) = some last := by
  generalize all : written ++ [last] = events at writes
  cases writes with
  | none => simp at all
  | write before now event _ below time =>
    obtain ⟨rfl, same⟩ := append_inj' all rfl
    cases same
    rw [← append_assoc]
    apply selectHead_append_later
    intro head found
    rw [time, found, Option.map_some]
    exact monotonicCreatedAt_gt (below head found)

theorem latest_write_wins :
    (∀ events others : List Event, events.Perm others → (events.map Event.id).Nodup →
      selectHead events = selectHead others) ∧
    ∀ (start written : List Event) (last : Event), Writes start (written ++ [last]) →
      selectHead (start ++ (written ++ [last])) = some last :=
  ⟨fun _ _ => selectHead_perm, fun _ _ _ => selectHead_last⟩

theorem latest_write_wins_future :
    let head : Event := ⟨⟨replicate 32 7, rfl⟩, ⟨replicate 32 1, rfl⟩, 90, 30174, [], "", []⟩
    let last : Event := ⟨⟨replicate 32 9, rfl⟩, ⟨replicate 32 1, rfl⟩, 91, 30174, [], "", []⟩
    selectHead [head, last] = selectHead [last, head] ∧ selectHead [head, last] = some last :=
  ⟨latest_write_wins.1 _ _ (List.Perm.swap _ _ _) (by decide),
    latest_write_wins.2 [_] [] _ (.write [] 40 _ .none (by simp [selectHead, u64Max])
      (by simp [selectHead, monotonicCreatedAt, u64Max]))⟩

end writes

end Buzz.Engram
