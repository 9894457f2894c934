import Mathlib.Data.List.Nodup

/-! Maps that are a list of entries, one for each key. -/

namespace Buzz.Library

open List Option

structure Keyed (Key Value : Type) where
  entries : List (Key × Value)
  distinct : (entries.map Prod.fst).Nodup

namespace Keyed

variable {Key Value : Type}

def empty : Keyed Key Value := ⟨[], nodup_nil⟩

def filter (self : Keyed Key Value) (keep : Key × Value → Bool) : Keyed Key Value where
  entries := self.entries.filter keep
  distinct := self.distinct.sublist (filter_sublist.map _)

variable {keep : Key × Value → Bool}

theorem mem_filter {self : Keyed Key Value} {entry : Key × Value} :
    entry ∈ (self.filter keep).entries ↔ entry ∈ self.entries ∧ keep entry :=
  List.mem_filter

variable [DecidableEq Key] (self : Keyed Key Value) {key other : Key} {value : Value}
  {entry : Key × Value}

def get (key : Key) : Option Value :=
  (self.entries.find? (·.1 = key)).map Prod.snd

def erase (key : Key) : Keyed Key Value where
  entries := self.entries.filter (·.1 ≠ key)
  distinct := self.distinct.sublist (filter_sublist.map _)

theorem mem_erase : entry ∈ (self.erase key).entries ↔ entry ∈ self.entries ∧ entry.1 ≠ key := by
  simp [erase]

def insert (key : Key) (value : Value) : Keyed Key Value where
  entries := (key, value) :: (self.erase key).entries
  distinct := by
    rw [map_cons, nodup_cons]
    constructor
    · intro member
      obtain ⟨entry, isEntry, same⟩ := mem_map.mp member
      exact (self.mem_erase.mp isEntry).2 same
    · exact (self.erase key).distinct

theorem mem_insert : entry ∈ (self.insert key value).entries ↔
    entry = (key, value) ∨ entry ∈ self.entries ∧ entry.1 ≠ key := by
  rw [insert, mem_cons, mem_erase]

theorem get_eq_some : self.get key = some value ↔ (key, value) ∈ self.entries := by
  unfold get
  constructor
  · intro found
    obtain ⟨entry, isEntry, rfl⟩ := map_eq_some_iff.mp found
    have isKey := find?_some isEntry
    rw [← of_decide_eq_true isKey]
    exact mem_of_find?_eq_some isEntry
  · intro member
    cases found : self.entries.find? fun entry => decide (entry.1 = key) with
    | none =>
      have absent := find?_eq_none.mp found _ member
      simp at absent
    | some entry =>
      have isKey := find?_some found
      rw [inj_on_of_nodup_map self.distinct (mem_of_find?_eq_some found) member
        (of_decide_eq_true isKey)]
      rfl

theorem get_filter :
    (self.filter keep).get key = some value ↔ self.get key = some value ∧ keep (key, value) := by
  rw [get_eq_some, get_eq_some, mem_filter]

theorem get_eq_none : self.get key = none ↔ ∀ entry ∈ self.entries, entry.1 ≠ key := by
  rw [eq_none_iff_forall_ne_some]
  constructor
  · rintro absent entry member rfl
    exact absent entry.2 (self.get_eq_some.mpr member)
  · intro absent value found
    exact absent _ (self.get_eq_some.mp found) rfl

@[simp] theorem get_insert : (self.insert key value).get other =
    if other = key then some value else self.get other := by
  apply Option.ext
  intro found
  rw [get_eq_some, mem_insert]
  by_cases same : other = key
  · subst same
    simp [eq_comm]
  · rw [if_neg same, get_eq_some]
    simp [same]

@[simp] theorem get_erase : (self.erase key).get other =
    if other = key then none else self.get other := by
  apply Option.ext
  intro found
  rw [get_eq_some, mem_erase]
  by_cases same : other = key
  · subst same
    simp
  · rw [if_neg same, get_eq_some]
    simp [same]

theorem get_erase_eq_some : (self.erase key).get other = some value ↔
    other ≠ key ∧ self.get other = some value := by
  simp [get_erase]

theorem length_erase_le : (self.erase key).entries.length ≤ self.entries.length :=
  length_filter_le _ _

theorem length_insert_le : (self.insert key value).entries.length ≤ self.entries.length + 1 :=
  Nat.succ_le_succ self.length_erase_le

theorem perm_erase (member : (key, value) ∈ self.entries) :
    self.entries.Perm ((key, value) :: (self.erase key).entries) := by
  obtain ⟨entries, distinct⟩ := self
  dsimp only [erase] at member ⊢
  induction entries with
  | nil => cases member
  | cons first rest ih =>
    rw [map_cons, nodup_cons] at distinct
    rcases mem_cons.mp member with rfl | later
    · have others : rest.filter (·.1 ≠ key) = rest := by
        apply filter_eq_self.mpr
        intro entry isEntry
        apply decide_eq_true
        intro same
        exact distinct.1 (mem_map.mpr ⟨entry, isEntry, same⟩)
      rw [filter_cons_of_neg (by simp), others]
    · have other : first.1 ≠ key := by
        intro same
        exact distinct.1 (mem_map.mpr ⟨_, later, same.symm⟩)
      rw [filter_cons_of_pos (by simpa using other)]
      exact ((ih distinct.2 later).cons first).trans (.swap ..)

end Keyed

end Buzz.Library

/-! Maps whose entries stand in the order in which their keys were first set. -/

namespace Buzz.Library

open List

structure Ordered (Key Value : Type) where
  entries : List (Key × Value)
  distinct : (entries.map Prod.fst).Nodup

namespace Ordered

variable {Key Value : Type}

def empty : Ordered Key Value := ⟨[], nodup_nil⟩

def filter (self : Ordered Key Value) (keep : Key × Value → Bool) : Ordered Key Value where
  entries := self.entries.filter keep
  distinct := self.distinct.sublist (filter_sublist.map _)

variable [DecidableEq Key]

def getEntry (entries : List (Key × Value)) (key : Key) : Option Value :=
  match entries with
  | [] => none
  | entry :: rest => if entry.1 = key then some entry.2 else getEntry rest key

def setEntry (entries : List (Key × Value)) (key : Key) (value : Value) : List (Key × Value) :=
  match entries with
  | [] => [(key, value)]
  | entry :: rest =>
    if entry.1 = key then (key, value) :: rest else entry :: setEntry rest key value

variable {entries : List (Key × Value)} {key other : Key} {value : Value}

theorem keys_setEntry : (setEntry entries key value).map Prod.fst =
    if key ∈ entries.map Prod.fst then entries.map Prod.fst else entries.map Prod.fst ++ [key] := by
  induction entries with
  | nil => rfl
  | cons entry rest ih =>
    rw [setEntry]
    split
    next same => simp [same]
    next differs =>
      rw [map_cons, ih, map_cons]
      by_cases member : key ∈ rest.map Prod.fst
      · rw [if_pos member, if_pos (mem_cons_of_mem _ member)]
      · have absent : key ∉ entry.1 :: rest.map Prod.fst := by
          rw [mem_cons]
          exact not_or.mpr ⟨fun same => differs same.symm, member⟩
        rw [if_neg member, if_neg absent]
        rfl

theorem nodup_setEntry (distinct : (entries.map Prod.fst).Nodup) :
    ((setEntry entries key value).map Prod.fst).Nodup := by
  rw [keys_setEntry]
  split
  · exact distinct
  next absent =>
    exact nodup_append.mpr ⟨distinct, nodup_singleton _, fun found member last single =>
      fun same => absent (by rwa [← mem_singleton.mp single, ← same])⟩

theorem getEntry_setEntry : getEntry (setEntry entries key value) other =
    if other = key then some value else getEntry entries other := by
  induction entries with
  | nil => simp [setEntry, getEntry, eq_comm]
  | cons entry rest ih =>
    rw [setEntry]
    split
    next same =>
      rw [getEntry, getEntry, same]
      split
      next isKey => rw [if_pos isKey.symm]
      next notKey => rw [if_neg (Ne.symm notKey)]
    next differs =>
      rw [getEntry, getEntry, ih]
      split
      next isEntry => rw [if_neg (isEntry ▸ differs)]
      · rfl

theorem getEntry_eq_none (absent : key ∉ entries.map Prod.fst) : getEntry entries key = none := by
  induction entries with
  | nil => rfl
  | cons entry rest ih =>
    rw [map_cons, mem_cons, not_or] at absent
    rw [getEntry, if_neg (Ne.symm absent.1), ih absent.2]

variable (self : Ordered Key Value)

def get (key : Key) : Option Value := getEntry self.entries key

def set (key : Key) (value : Value) : Ordered Key Value where
  entries := setEntry self.entries key value
  distinct := nodup_setEntry self.distinct

@[simp] theorem get_set : (self.set key value).get other =
    if other = key then some value else self.get other := getEntry_setEntry

@[simp] theorem get_empty : (empty : Ordered Key Value).get key = none := rfl

end Ordered

end Buzz.Library
