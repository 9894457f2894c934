import Mathlib.Data.List.AList
import Mathlib.Data.List.Count

/-! A table of reference counts in which an entry goes when its count reaches zero, and the
holders that such a table counts. -/

namespace Buzz.Library.RefCount

open List

variable {Key Holder : Type} [DecidableEq Key]

abbrev Counts (Key : Type) := AList fun _ : Key => ℕ

def count (counts : Counts Key) (key : Key) : ℕ := (counts.lookup key).getD 0

def retain (counts : Counts Key) (key : Key) : Counts Key × Bool :=
  (counts.insert key (count counts key + 1), count counts key == 0)

/-- The second component: has the count become zero? -/
def release (counts : Counts Key) (key : Key) : Counts Key × Bool :=
  match counts.lookup key with
  | none => (counts, false)
  | some held =>
    if held - 1 = 0 then (counts.erase key, true) else (counts.insert key (held - 1), false)

theorem count_retain (counts : Counts Key) (key other : Key) :
    count (retain counts key).1 other =
      if other = key then count counts key + 1 else count counts other := by
  by_cases same : other = key
  · subst same
    simp [count, retain]
  · simp [count, retain, same]

theorem count_release (counts : Counts Key) (key other : Key) :
    count (release counts key).1 other =
      if other = key then count counts key - 1 else count counts other := by
  unfold release
  cases found : counts.lookup key with
  | none =>
    by_cases same : other = key
    · subst same
      simp [count, found]
    · simp [same]
  | some held =>
    by_cases last : held - 1 = 0
    · by_cases same : other = key
      · subst same
        simp [count, found, last]
      · simp [count, last, same]
    · by_cases same : other = key
      · subst same
        simp [count, found, last]
      · simp [count, last, same]

variable [BEq Holder] [LawfulBEq Holder]

def Accounts (counts : Counts Key) (key : Holder → Key) (holders : List Holder) : Prop :=
  ∀ wanted, count counts wanted = holders.countP fun holder => key holder = wanted

namespace Accounts

variable {counts : Counts Key} {key : Holder → Key} {holders : List Holder}

omit [BEq Holder] [LawfulBEq Holder] in
theorem none : Accounts (∅ : Counts Key) key [] := by
  intro wanted
  rfl

omit [BEq Holder] [LawfulBEq Holder] in
theorem retain (accounts : Accounts counts key holders) (holder : Holder) :
    Accounts (RefCount.retain counts (key holder)).1 key (holder :: holders) := by
  intro wanted
  rw [count_retain, countP_cons]
  by_cases same : wanted = key holder
  · subst same
    simp [accounts (key holder)]
  · simp [same, Ne.symm same, accounts wanted]

theorem release (accounts : Accounts counts key holders) {holder : Holder}
    (holds : holder ∈ holders) :
    Accounts (RefCount.release counts (key holder)).1 key (holders.erase holder) := by
  intro wanted
  rw [count_release, countP_erase]
  by_cases same : wanted = key holder
  · subst same
    simp [accounts (key holder), holds]
  · simp [same, Ne.symm same, accounts wanted]

omit [BEq Holder] [LawfulBEq Holder] in
theorem countP_le (accounts : Accounts counts key holders) {chosen : List Holder}
    (distinct : chosen.Nodup) (inside : ∀ holder ∈ chosen, holder ∈ holders) (wanted : Key) :
    (chosen.countP fun holder => key holder = wanted) ≤ count counts wanted := by
  rw [accounts wanted]
  exact (subperm_of_subset distinct inside).countP_le _

omit [BEq Holder] [LawfulBEq Holder] in
theorem countP_eq (accounts : Accounts counts key holders) {all : List Holder}
    (distinct : all.Nodup) (holdersDistinct : holders.Nodup)
    (same : ∀ holder, holder ∈ all ↔ holder ∈ holders) (wanted : Key) :
    (all.countP fun holder => key holder = wanted) = count counts wanted := by
  rw [accounts wanted]
  exact ((perm_ext_iff_of_nodup distinct holdersDistinct).mpr same).countP_eq _

end Accounts

end Buzz.Library.RefCount
