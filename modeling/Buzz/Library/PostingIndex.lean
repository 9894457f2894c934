import Mathlib.Data.List.AList

/-! Inverted indexes: a finite map from keys to lists of entries. -/

namespace Buzz.Library.PostingIndex

open List

variable {K E : Type*} [DecidableEq K] [DecidableEq E]

abbrev Index (K E : Type*) := AList fun _ : K => List E

def postings (index : Index K E) (key : K) : List E := (index.lookup key).getD []

def insertEntry (entry : E) (index : Index K E) (key : K) : Index K E :=
  index.insert key (postings index key ++ [entry])

def removeEntry (entry : E) (index : Index K E) (key : K) : Index K E :=
  match index.lookup key with
  | none => index
  | some entries =>
    let kept := entries.filter fun e => !decide (e = entry)
    if kept.isEmpty then index.erase key else index.insert key kept

def insertEntries (index : Index K E) (keys : List K) (entry : E) : Index K E :=
  keys.foldl (insertEntry entry) index

def removeEntries (index : Index K E) (keys : List K) (entry : E) : Index K E :=
  keys.foldl (removeEntry entry) index

omit [DecidableEq E] in
@[simp] theorem postings_empty (key : K) : postings (∅ : Index K E) key = [] := rfl

omit [DecidableEq E] in
theorem postings_insertEntry (index : Index K E) (key other : K) (entry : E) :
    postings (insertEntry entry index key) other =
      if other = key then postings index key ++ [entry] else postings index other := by
  unfold postings insertEntry
  by_cases same : other = key
  · subst same
    rw [AList.lookup_insert, if_pos rfl]
    rfl
  · rw [AList.lookup_insert_ne same, if_neg same]

theorem postings_removeEntry (index : Index K E) (key other : K) (entry : E) :
    postings (removeEntry entry index key) other =
      if other = key then (postings index key).filter (fun e => !decide (e = entry))
      else postings index other := by
  unfold postings removeEntry
  cases found : index.lookup key with
  | none =>
    by_cases same : other = key
    · subst same
      simp [found]
    · rw [if_neg same]
  | some entries =>
    by_cases same : other = key
    · subst same
      simp only [if_pos, Option.getD_some]
      by_cases empty : (entries.filter fun e => !decide (e = entry)) = []
      · simp [empty]
      · simp [empty]
    · simp only [if_neg same]
      split
      · rw [AList.lookup_erase_ne same]
      · rw [AList.lookup_insert_ne same]

omit [DecidableEq E] in
theorem mem_postings_insertEntry (index : Index K E) (key other : K) (entry e : E) :
    e ∈ postings (insertEntry entry index key) other ↔
      e ∈ postings index other ∨ other = key ∧ e = entry := by
  rw [postings_insertEntry]
  by_cases same : other = key
  · subst same
    simp
  · simp [same]

theorem mem_postings_removeEntry (index : Index K E) (key other : K) (entry e : E) :
    e ∈ postings (removeEntry entry index key) other ↔
      e ∈ postings index other ∧ ¬ (other = key ∧ e = entry) := by
  rw [postings_removeEntry]
  by_cases same : other = key
  · subst same
    simp
  · simp [same]

omit [DecidableEq E] in
theorem mem_postings_insertEntries (index : Index K E) (keys : List K) (entry e : E) (key : K) :
    e ∈ postings (insertEntries index keys entry) key ↔
      e ∈ postings index key ∨ key ∈ keys ∧ e = entry := by
  unfold insertEntries
  induction keys generalizing index with
  | nil => simp
  | cons head rest ih =>
    rw [foldl_cons, ih, mem_postings_insertEntry, mem_cons]
    tauto

theorem mem_postings_removeEntries (index : Index K E) (keys : List K) (entry e : E) (key : K) :
    e ∈ postings (removeEntries index keys entry) key ↔
      e ∈ postings index key ∧ ¬ (key ∈ keys ∧ e = entry) := by
  unfold removeEntries
  induction keys generalizing index with
  | nil => simp
  | cons head rest ih =>
    rw [foldl_cons, ih, mem_postings_removeEntry, mem_cons]
    tauto

end Buzz.Library.PostingIndex
