import Mathlib.Algebra.Order.Monoid.Unbundled.WithTop
import Mathlib.Data.List.AList
import Mathlib.Order.BoundedOrder.Lattice
import Mathlib.Order.Lattice.Nat
import Mathlib.Order.MinMax
import Mathlib.Order.WithBot

/-! Tables of committed rows. A row has an incarnation, which its updates keep and a new insert does
not. -/

namespace Buzz.Library.RowVersions

open List

variable {Key Value : Type}

structure Row (Value : Type) where
  incarnation : ℕ
  value : Value
  deriving DecidableEq

abbrev Table (Key Value : Type) := AList fun _ : Key => Row Value

def Table.matching (table : Table Key Value) (wanted : Key → Value → Bool) : List (Key × ℕ) :=
  (table.entries.filter fun entry => wanted entry.1 entry.2.value).map fun entry =>
    (entry.1, entry.2.incarnation)

variable {wanted : Key → Value → Bool}

theorem matching_nodup {table : Table Key Value} :
    ((table.matching wanted).map Prod.fst).Nodup := by
  rw [Table.matching, map_map]
  have keys : (table.entries.map Sigma.fst).Nodup := table.nodupKeys
  exact List.Nodup.sublist (filter_sublist.map Sigma.fst) keys

variable [DecidableEq Key]

def Table.publish (table written : Table Key Value) : Table Key Value := written ∪ table

variable {table written : Table Key Value} {key : Key}

theorem mem_matching {incarnation : ℕ} :
    (key, incarnation) ∈ table.matching wanted ↔
      ∃ value, table.lookup key = some ⟨incarnation, value⟩ ∧ wanted key value := by
  rw [Table.matching, mem_map]
  constructor
  · intro found
    obtain ⟨entry, member, same⟩ := found
    obtain ⟨present, isWanted⟩ := mem_filter.mp member
    cases same
    exact ⟨entry.2.value, AList.mem_lookup_iff.mpr present, isWanted⟩
  · intro found
    obtain ⟨value, present, isWanted⟩ := found
    have member := AList.mem_lookup_iff.mp present
    exact ⟨⟨key, ⟨incarnation, value⟩⟩, mem_filter.mpr ⟨member, isWanted⟩, rfl⟩

theorem lookup_publish :
    (table.publish written).lookup key = (written.lookup key).or (table.lookup key) := by
  rw [Table.publish]
  by_cases member : key ∈ written
  · rw [AList.lookup_union_left member]
    obtain ⟨row, present⟩ := Option.isSome_iff_exists.mp (AList.lookup_isSome.mpr member)
    rw [present, Option.some_or]
  · rw [AList.lookup_union_right member, AList.lookup_eq_none.mpr member, Option.none_or]

end Buzz.Library.RowVersions

/-! Tables that keep, for each key, the record of the highest version that was written. -/

namespace Buzz.Library.Latest

open List

variable {Key Record : Type}

structure Versioned (Key Record : Type) where
  key : Record → Key
  version : Record → ℕ

variable (kind : Versioned Key Record)

def rank (held : Option Record) : WithBot ℕ := held.map kind.version |>.elim ⊥ (fun version => version)

@[simp] theorem rank_none : rank kind (none : Option Record) = ⊥ := rfl

@[simp] theorem rank_some (record : Record) : rank kind (some record) = kind.version record := rfl

variable [DecidableEq Key]

def write (table : Key → Option Record) (record : Record) : Key → Option Record := fun key =>
  if key = kind.key record ∧ rank kind (table key) < kind.version record then some record
  else table key

def writeAll (table : Key → Option Record) (records : List Record) : Key → Option Record :=
  records.foldl (write kind) table

def offered (key : Key) : List Record → WithBot ℕ
  | [] => ⊥
  | record :: rest =>
    max (if kind.key record = key then (kind.version record : WithBot ℕ) else ⊥) (offered key rest)

variable {kind} {table other : Key → Option Record} {record : Record} {records more : List Record}
  {key : Key}

theorem rank_write : rank kind (write kind table record key) =
    max (rank kind (table key)) (if kind.key record = key then (kind.version record : WithBot ℕ)
      else ⊥) := by
  unfold write
  by_cases same : kind.key record = key
  · by_cases newer : rank kind (table key) < kind.version record
    · rw [if_pos ⟨same.symm, newer⟩, if_pos same, rank_some, max_eq_right newer.le]
    · rw [if_neg fun both => newer both.2, if_pos same, max_eq_left (not_lt.mp newer)]
  · rw [if_neg fun both => same both.1.symm, if_neg same, max_bot_right]

theorem rank_writeAll : rank kind (writeAll kind table records key) =
    max (rank kind (table key)) (offered kind key records) := by
  induction records generalizing table with
  | nil => exact (max_bot_right _).symm
  | cons record rest ih =>
    calc
      _ = max (rank kind (write kind table record key)) (offered kind key rest) := ih
      _ = _ := by rw [rank_write, max_assoc]; rfl

theorem le_rank_writeAll :
    rank kind (table key) ≤ rank kind (writeAll kind table records key) := by
  rw [rank_writeAll]
  exact le_max_left _ _

theorem le_offered (member : record ∈ records) :
    (kind.version record : WithBot ℕ) ≤ offered kind (kind.key record) records := by
  induction records with
  | nil => cases member
  | cons first rest ih =>
    rcases mem_cons.mp member with rfl | later
    · exact le_max_of_le_left (le_of_eq (if_pos rfl).symm)
    · exact le_max_of_le_right (ih later)

theorem offered_le {bound : WithBot ℕ}
    (each : ∀ record ∈ records, kind.key record = key → (kind.version record : WithBot ℕ) ≤ bound) :
    offered kind key records ≤ bound := by
  induction records with
  | nil => exact bot_le
  | cons first rest ih =>
    apply max_le
    · split
      next same => exact each first mem_cons_self same
      · exact bot_le
    · exact ih fun record member => each record (mem_cons_of_mem _ member)

theorem offered_perm (perm : records.Perm more) : offered kind key records = offered kind key more := by
  induction perm with
  | nil => rfl
  | cons record _ ih => rw [offered, offered, ih]
  | swap first second rest => rw [offered, offered, offered, offered, max_left_comm]
  | trans _ _ first second => exact first.trans second

theorem write_of_le
    (old : (kind.version record : WithBot ℕ) ≤ rank kind (table (kind.key record))) :
    write kind table record = table := by
  funext key
  unfold write
  rw [if_neg]
  rintro ⟨rfl, newer⟩
  exact absurd old (not_le.mpr newer)

theorem writeAll_of_le
    (old : ∀ record ∈ records,
      (kind.version record : WithBot ℕ) ≤ rank kind (table (kind.key record))) :
    writeAll kind table records = table := by
  induction records with
  | nil => rfl
  | cons record rest ih =>
    have same := write_of_le (old record mem_cons_self)
    calc
      writeAll kind table (record :: rest) = writeAll kind table rest := by
        rw [writeAll, foldl_cons, same]
        rfl
      _ = table := ih fun later member => old later (mem_cons_of_mem _ member)

theorem writeAll_idem : writeAll kind (writeAll kind table records) records =
    writeAll kind table records := by
  apply writeAll_of_le
  intro record member
  rw [rank_writeAll]
  exact le_max_of_le_right (le_offered member)

theorem writeAll_cases {held : Record} (isHeld : writeAll kind table records key = some held) :
    table key = some held ∨ held ∈ records ∧ kind.key held = key := by
  induction records generalizing table with
  | nil => exact .inl isHeld
  | cons record rest ih =>
    rcases ih isHeld with written | later
    · unfold write at written
      split at written
      next fits =>
        cases written
        exact .inr ⟨mem_cons_self, fits.1.symm⟩
      · exact .inl written
    · exact .inr ⟨mem_cons_of_mem _ later.1, later.2⟩

structure IsDelta (kind : Versioned Key Record) (table other : Key → Option Record)
    (records : List Record) : Prop where
  held : ∀ record ∈ records, table (kind.key record) = some record
  all : ∀ key record, table key = some record → kind.key record = key ∧
    (rank kind (other key) < kind.version record → record ∈ records)

theorem IsDelta.rank (delta : IsDelta kind table other records) :
    Latest.rank kind (writeAll kind other records key) =
      max (Latest.rank kind (other key)) (Latest.rank kind (table key)) := by
  rw [rank_writeAll]
  apply le_antisymm
  · apply max_le (le_max_left _ _)
    apply offered_le
    rintro record member rfl
    rw [delta.held record member, rank_some]
    exact le_max_right _ _
  · apply max_le (le_max_left _ _)
    cases isHeld : table key with
    | none => exact bot_le
    | some record =>
      obtain ⟨rfl, missing⟩ := delta.all key record isHeld
      rw [rank_some]
      by_cases behind : Latest.rank kind (other (kind.key record)) < kind.version record
      · exact le_max_of_le_right (le_offered (missing behind))
      · exact le_max_of_le_left (not_lt.mp behind)

section agreement

def Agree (kind : Versioned Key Record) (settled : ℕ → Prop) (used : Record → Prop) : Prop :=
  ∀ first second, used first → used second → kind.key first = kind.key second →
    kind.version first = kind.version second → settled (kind.version first) → first = second

variable {settled : ℕ → Prop} {used : Record → Prop}

theorem Agree.writeAll_perm (agree : Agree kind settled used) (perm : records.Perm more)
    (tableUsed : ∀ record, table key = some record → used record ∧ kind.key record = key)
    (recordsUsed : ∀ record ∈ records, used record) {held : Record}
    (isHeld : writeAll kind table records key = some held) (isSettled : settled (kind.version held)) :
    writeAll kind table more key = some held := by
  have known : ∀ {list : List Record} {found : Record}, list.Perm records →
      writeAll kind table list key = some found → used found ∧ kind.key found = key := by
    intro list found same isFound
    rcases writeAll_cases isFound with before | ⟨member, isKey⟩
    · exact tableUsed found before
    · exact ⟨recordsUsed found (same.mem_iff.mp member), isKey⟩
  have sameRank : rank kind (writeAll kind table more key) = kind.version held := by
    rw [rank_writeAll, ← offered_perm perm, ← rank_writeAll, isHeld, rank_some]
  cases found : writeAll kind table more key with
  | none =>
    rw [found, rank_none] at sameRank
    exact absurd sameRank.symm WithBot.coe_ne_bot
  | some other =>
    rw [found, rank_some] at sameRank
    have first := known (.refl _) isHeld
    have second := known perm.symm found
    have sameVersion : kind.version held = kind.version other :=
      (WithBot.coe_injective sameRank).symm
    rw [agree held other first.1 second.1 (first.2.trans second.2.symm) sameVersion isSettled]

end agreement

end Buzz.Library.Latest
