import Buzz.Audit.Entry
import Buzz.Library.Forest

/-! Verification of one community's chain, and what an edit of the stored rows can get past. -/

namespace Buzz.Audit

open Nostr Library.LinkedSegment List

/-- The `audit_log` table with its primary key and its unique index. -/
structure AuditTable where
  rows : List AuditRow
  primaryKey : (rows.map fun row => (row.communityId, row.seq)).Nodup
  hashIndex : (rows.map fun row => (row.communityId, row.hash)).Nodup

namespace AuditTable

def empty : AuditTable := ⟨[], nodup_nil, nodup_nil⟩

/-- `SELECT .. WHERE community_id = $1 AND seq BETWEEN $2 AND $3 ORDER BY seq ASC`. -/
def selectRange (table : AuditTable) (community : CommunityId) (fromSeq toSeq : ℤ) :
    List AuditRow :=
  (table.rows.filter fun row => row.communityId = community.uuid &&
    (fromSeq ≤ row.seq && row.seq ≤ toSeq)).insertionSort
      fun first second => first.seq ≤ second.seq

end AuditTable

variable (externals : Externals)

/-- The loop of `verify_chain`. -/
def verifyRows : Option Bytes → List AuditRow → Except Failure Bool
  | _, [] => .ok true
  | expectedPrev, row :: rows =>
    match externals.rowToAuditEntry row with
    | .error failure => .error failure
    | .ok entry =>
      if expectedPrev.isSome ∧ entry.prevHash ≠ expectedPrev then
        .error (.error (.chainViolation entry.seq))
      else if externals.computeHash entry ≠ entry.hash then
        .error (.error (.hashMismatch entry.seq))
      else verifyRows (some entry.hash) rows

def verifyChain (table : AuditTable) (community : CommunityId) (fromSeq toSeq : ℤ) :
    Except Failure Bool :=
  let rows := table.selectRange community fromSeq toSeq
  if rows.isEmpty then .ok false else verifyRows externals none rows

def PrevLinked (first second : AuditEntry) : Prop := second.prevHash = some first.hash

def readRange (table : AuditTable) (community : CommunityId) (fromSeq toSeq : ℤ) :
    Except Failure (List AuditEntry) :=
  (table.selectRange community fromSeq toSeq).mapM externals.rowToAuditEntry

variable {entries : List AuditEntry} {rows : List AuditRow} {row : AuditRow}

theorem mapM_rowToAuditEntry_cons :
    (row :: rows).mapM externals.rowToAuditEntry = .ok entries ↔
      ∃ entry rest, externals.rowToAuditEntry row = .ok entry ∧
        rows.mapM externals.rowToAuditEntry = .ok rest ∧ entries = entry :: rest := by
  rw [mapM_cons]
  cases externals.rowToAuditEntry row with
  | error failure => simp [bind, Except.bind]
  | ok entry =>
    cases rows.mapM externals.rowToAuditEntry with
    | error failure => simp [bind, Except.bind]
    | ok rest => simp [bind, Except.bind, pure, Except.pure, eq_comm]

theorem verifyRows_cons (expectedPrev : Option Bytes) (row : AuditRow) (rows : List AuditRow) :
    verifyRows externals expectedPrev (row :: rows) = .ok true ↔
      ∃ entry, externals.rowToAuditEntry row = .ok entry ∧
        (∀ expected, expectedPrev = some expected → entry.prevHash = some expected) ∧
        externals.computeHash entry = entry.hash ∧
        verifyRows externals (some entry.hash) rows = .ok true := by
  rw [verifyRows]
  cases externals.rowToAuditEntry row with
  | error failure => simp
  | ok entry =>
    have linkCheck : ¬ (expectedPrev.isSome ∧ entry.prevHash ≠ expectedPrev) ↔
        ∀ expected, expectedPrev = some expected → entry.prevHash = some expected := by
      cases expectedPrev <;> simp
    by_cases broken : expectedPrev.isSome ∧ entry.prevHash ≠ expectedPrev
    · simp [← linkCheck, broken]
    · by_cases mismatch : externals.computeHash entry ≠ entry.hash
      · simp [if_neg broken, mismatch]
      · have linked := linkCheck.mp broken
        rw [not_not] at mismatch
        simp only [if_neg broken, mismatch, ne_eq, not_true, if_false, Except.ok.injEq,
          exists_eq_left', true_and]
        exact ⟨fun accepted => ⟨linked, accepted⟩, And.right⟩

theorem verifyRows_iff (expectedPrev : Option Bytes) (rows : List AuditRow) :
    verifyRows externals expectedPrev rows = .ok true ↔
      ∃ entries, rows.mapM externals.rowToAuditEntry = .ok entries ∧
        (∀ entry ∈ entries, externals.computeHash entry = entry.hash) ∧
        entries.IsChain PrevLinked ∧
        ∀ expected, expectedPrev = some expected → ∀ entry ∈ entries.head?,
          entry.prevHash = some expected := by
  induction rows generalizing expectedPrev with
  | nil => simp [verifyRows, pure, Except.pure]
  | cons row rows ih =>
    rw [verifyRows_cons]
    constructor
    · rintro ⟨entry, read, first, hash, accepted⟩
      obtain ⟨rest, readRest, hashes, linked, next⟩ := (ih _).mp accepted
      refine ⟨entry :: rest, ?_, ?_, ?_, ?_⟩
      · exact (mapM_rowToAuditEntry_cons externals).mpr ⟨entry, rest, read, readRest, rfl⟩
      · intro other member
        rcases mem_cons.mp member with rfl | later
        · exact hash
        · exact hashes other later
      · exact isChain_cons.mpr ⟨next entry.hash rfl, linked⟩
      · intro expected given other head
        rw [head?_cons, Option.mem_some_iff] at head
        rw [← head]
        exact first expected given
    · rintro ⟨entries, readAll, hashes, linked, first⟩
      obtain ⟨entry, rest, read, readRest, rfl⟩ :=
        (mapM_rowToAuditEntry_cons externals).mp readAll
      rw [isChain_cons] at linked
      refine ⟨entry, read, fun expected given => first expected given entry rfl,
        hashes entry mem_cons_self, (ih _).mpr ⟨rest, readRest, ?_, linked.2, ?_⟩⟩
      · intro other member
        exact hashes other (mem_cons_of_mem entry member)
      · intro expected given other head
        rw [Option.some.injEq] at given
        rw [← given]
        exact linked.1 other head

/-- A nonempty range of rows with matching, linked hashes. -/
theorem verifyChain_iff (table : AuditTable) (community : CommunityId) (fromSeq toSeq : ℤ) :
    verifyChain externals table community fromSeq toSeq = .ok true ↔
      ∃ entries, readRange externals table community fromSeq toSeq = .ok entries ∧
        entries ≠ [] ∧ (∀ entry ∈ entries, externals.computeHash entry = entry.hash) ∧
        entries.IsChain PrevLinked := by
  unfold verifyChain readRange
  cases table.selectRange community fromSeq toSeq with
  | nil => simp [pure, Except.pure]
  | cons row rows =>
    simp only [isEmpty_cons, Bool.false_eq_true, if_false]
    rw [verifyRows_iff]
    constructor
    · rintro ⟨entries, read, hashes, linked, -⟩
      refine ⟨entries, read, ?_, hashes, linked⟩
      obtain ⟨entry, rest, -, -, rfl⟩ := (mapM_rowToAuditEntry_cons externals).mp read
      exact cons_ne_nil entry rest
    · rintro ⟨entries, read, -, hashes, linked⟩
      exact ⟨entries, read, hashes, linked, nofun⟩

structure ValidChain (community : CommunityId) (entries : List AuditEntry) : Prop where
  sameCommunity : ∀ entry ∈ entries, entry.communityId = community.uuid
  numbered : ∀ index (bound : index < entries.length), entries[index].seq = index + 1
  genesis : ∀ entry ∈ entries.head?, entry.prevHash = none
  linked : entries.IsChain PrevLinked
  hashes : ∀ entry ∈ entries, externals.computeHash entry = entry.hash

def AuditEntry.content (self : AuditEntry) : AuditEntry := { self with hash := [] }

/-- `compute_hash` is injective on the entries of the chain and of the table. -/
def HashInjectiveOn (chain : List AuditEntry) (table : AuditTable) : Prop :=
  let occurs (entry : AuditEntry) := entry ∈ chain ∨
    ∃ row ∈ table.rows, externals.rowToAuditEntry row = .ok entry
  ∀ first second, occurs first → occurs second →
    externals.computeHash first = externals.computeHash second → first.content = second.content

/-- A row whose hash column fits its content has it from the chain. -/
def HashesNotRecomputed (community : CommunityId) (chain : List AuditEntry)
    (table : AuditTable) : Prop :=
  ∀ row ∈ table.rows, row.communityId = community.uuid →
    ∀ entry, externals.rowToAuditEntry row = .ok entry →
      externals.computeHash entry = entry.hash → ∃ original ∈ chain, original.hash = entry.hash

theorem mapM_rowToAuditEntry_mem (read : rows.mapM externals.rowToAuditEntry = .ok entries) :
    ∀ entry ∈ entries, ∃ row ∈ rows, externals.rowToAuditEntry row = .ok entry := by
  induction rows generalizing entries with
  | nil =>
    intro entry member
    rw [mapM_nil, pure, Applicative.toPure] at read
    cases read
    cases member
  | cons row rows ih =>
    obtain ⟨first, rest, readFirst, readRest, rfl⟩ :=
      (mapM_rowToAuditEntry_cons externals).mp read
    intro entry member
    rcases mem_cons.mp member with rfl | later
    · exact ⟨row, mem_cons_self, readFirst⟩
    · obtain ⟨origin, present, same⟩ := ih readRest entry later
      exact ⟨origin, mem_cons_of_mem row present, same⟩

variable {table : AuditTable} {community : CommunityId}

theorem readRange_mem {fromSeq toSeq : ℤ}
    (read : readRange externals table community fromSeq toSeq = .ok entries) :
    ∀ entry ∈ entries, ∃ row ∈ table.rows, row.communityId = community.uuid ∧
      externals.rowToAuditEntry row = .ok entry := by
  intro entry member
  obtain ⟨row, selected, same⟩ := mapM_rowToAuditEntry_mem externals read entry member
  have filtered := (mem_insertionSort _).mp selected
  rw [mem_filter, Bool.and_eq_true, decide_eq_true_eq] at filtered
  exact ⟨row, filtered.1, filtered.2.1, same⟩

theorem AuditEntry.eq_of_content {first second : AuditEntry} (hash : first.hash = second.hash)
    (content : first.content = second.content) : first = second := by
  cases first
  cases second
  simp only [AuditEntry.content, AuditEntry.mk.injEq] at hash content ⊢
  tauto

theorem ValidChain.successor {chain : List AuditEntry}
    (valid : ValidChain externals community chain)
    (injective : HashInjectiveOn externals chain table) (i j : ℕ) (first : i < chain.length)
    (second : j < chain.length) (linked : PrevLinked chain[i] chain[j]) : j = i + 1 := by
  cases j with
  | zero =>
    have genesis : chain[0].prevHash = none := by
      apply valid.genesis
      rw [head?_eq_getElem?, getElem?_eq_getElem second]
      rfl
    rw [PrevLinked, genesis] at linked
    cases linked
  | succ k =>
    have before : PrevLinked chain[k] chain[k + 1] :=
      isChain_iff_getElem.mp valid.linked k second
    have sameHash : chain[k].hash = chain[i].hash := by
      rw [PrevLinked] at before linked
      rw [before, Option.some.injEq] at linked
      exact linked
    have sameContent : chain[k].content = chain[i].content := by
      apply injective
      · exact .inl (getElem_mem _)
      · exact .inl (getElem_mem first)
      · rw [valid.hashes _ (getElem_mem _), valid.hashes _ (getElem_mem first), sameHash]
    have sameSeq : chain[k].content.seq = chain[i].content.seq := by rw [sameContent]
    change chain[k].seq = chain[i].seq at sameSeq
    rw [valid.numbered, valid.numbered] at sameSeq
    omega

/-- What it reads of an edited table is a nonempty contiguous segment of the chain. -/
theorem verifyChain_segment_iff {community : CommunityId} {chain : List AuditEntry}
    {table : AuditTable} (valid : ValidChain externals community chain)
    (injective : HashInjectiveOn externals chain table)
    (notRecomputed : HashesNotRecomputed externals community chain table) :
    verifyChain externals table community 1 chain.length = .ok true ↔
      ∃ start length, 0 < length ∧ start + length ≤ chain.length ∧
        readRange externals table community 1 chain.length =
          .ok (segment start length chain) := by
  rw [verifyChain_iff]
  constructor
  · rintro ⟨entries, read, nonempty, hashes, linked⟩
    have members : ∀ entry ∈ entries, entry ∈ chain := by
      intro entry member
      obtain ⟨row, present, scope, same⟩ := readRange_mem externals read entry member
      obtain ⟨original, kept, sameHash⟩ :=
        notRecomputed row present scope entry same (hashes entry member)
      have sameContent : original.content = entry.content := by
        apply injective original entry (.inl kept) (.inr ⟨row, present, same⟩)
        rw [valid.hashes original kept, hashes entry member, sameHash]
      rw [← AuditEntry.eq_of_content sameHash sameContent]
      exact kept
    obtain ⟨start, within, shape⟩ :=
      segment_of_linked (valid.successor externals injective) members linked nonempty
    exact ⟨start, entries.length, length_pos_of_ne_nil nonempty, within, shape ▸ read⟩
  · rintro ⟨start, length, positive, within, read⟩
    refine ⟨_, read, ?_, ?_, segment_isChain valid.linked start length⟩
    · intro empty
      have size := segment_length within
      rw [empty, length_nil] at size
      omega
    · intro entry member
      exact valid.hashes entry (segment_members member)

def sampleSha256 (bytes : Bytes) : FixedBytes 32 :=
  if bytes.getD 23 0 = 1 then
    ⟨[209, 16, 167, 142, 10, 75, 157, 124, 187, 69, 19, 19, 178, 221, 136, 168,
      203, 182, 138, 30, 98, 120, 154, 137, 109, 235, 94, 61, 31, 56, 131, 69], rfl⟩
  else
    ⟨[189, 183, 56, 118, 32, 87, 202, 48, 39, 37, 218, 251, 25, 227, 158, 122,
      193, 129, 206, 72, 253, 100, 230, 50, 85, 26, 112, 134, 58, 199, 189, 214], rfl⟩

def sampleExternals : Externals where
  sha256 := sampleSha256
  toRfc3339 := fun _ => "2026-01-01T00:00:00+00:00"
  formatFloat := fun _ => "0.0"
  readFloat := fun _ => .zero

def sampleCommunity : CommunityId := ⟨⟨replicate 15 0 ++ [1], rfl⟩⟩

def sampleFirst : AuditEntry where
  communityId := sampleCommunity.uuid
  seq := 1
  hash := (sampleSha256 (replicate 23 0 ++ [1])).val
  prevHash := none
  action := .eventCreated
  actorPubkey := none
  objectId := none
  detail := ⟨.null, trivial⟩
  createdAt := 1767225600000000000

def sampleSecond : AuditEntry where
  communityId := sampleCommunity.uuid
  seq := 2
  hash := (sampleSha256 []).val
  prevHash := some sampleFirst.hash
  action := .eventDeleted
  actorPubkey := none
  objectId := none
  detail := ⟨.null, trivial⟩
  createdAt := 1767225600000000000

def firstRowRemoved : AuditTable := ⟨[sampleSecond.toRow], by simp, by simp⟩

theorem sample_validChain :
    ValidChain sampleExternals sampleCommunity [sampleFirst, sampleSecond] where
  sameCommunity := by simp [sampleFirst, sampleSecond]
  numbered := by
    intro index bound
    rcases index with - | - | index
    · rfl
    · rfl
    · exact absurd bound (by simp)
  genesis := by simp [sampleFirst]
  linked := isChain_pair.mpr rfl
  hashes := by
    intro entry member
    rcases mem_pair.mp member with rfl | rfl
    · decide
    · decide

theorem sample_read (present : row ∈ firstRowRemoved.rows) {entry : AuditEntry}
    (read : sampleExternals.rowToAuditEntry row = .ok entry) : entry = sampleSecond := by
  rw [mem_singleton.mp present, rowToAuditEntry_toRow sampleExternals sampleSecond
    1767225600000000000 rfl trivial, Except.ok.injEq] at read
  exact read.symm

theorem sample_injective :
    HashInjectiveOn sampleExternals [sampleFirst, sampleSecond] firstRowRemoved := by
  have known {entry : AuditEntry} (occurs : entry ∈ [sampleFirst, sampleSecond] ∨
      ∃ row ∈ firstRowRemoved.rows, sampleExternals.rowToAuditEntry row = .ok entry) :
      entry = sampleFirst ∨ entry = sampleSecond := by
    rcases occurs with member | ⟨row, present, read⟩
    · exact mem_pair.mp member
    · exact .inr (sample_read present read)
  intro first second left right same
  rcases known left with rfl | rfl <;> rcases known right with rfl | rfl
  · rfl
  · exact absurd same (by decide)
  · exact absurd same (by decide)
  · rfl

theorem sample_notRecomputed :
    HashesNotRecomputed sampleExternals sampleCommunity [sampleFirst, sampleSecond]
      firstRowRemoved := by
  intro row present _ entry read _
  exact ⟨sampleSecond, by simp, by rw [sample_read present read]⟩

theorem verifyChain_segment_iff_firstRowRemoved :
    verifyChain sampleExternals firstRowRemoved sampleCommunity 1 2 = .ok true ↔
      ∃ start length, 0 < length ∧ start + length ≤ 2 ∧
        readRange sampleExternals firstRowRemoved sampleCommunity 1 2 =
          .ok (segment start length [sampleFirst, sampleSecond]) :=
  verifyChain_segment_iff sampleExternals sample_validChain sample_injective sample_notRecomputed

/-- Removing the first row is not noticed. -/
theorem verifyChain_accepts_firstRowRemoved :
    ValidChain sampleExternals sampleCommunity [sampleFirst, sampleSecond] ∧
      HashInjectiveOn sampleExternals [sampleFirst, sampleSecond] firstRowRemoved ∧
      HashesNotRecomputed sampleExternals sampleCommunity [sampleFirst, sampleSecond]
        firstRowRemoved ∧
      (∀ kept, firstRowRemoved.rows ≠
        ([sampleFirst, sampleSecond].take kept).map AuditEntry.toRow) ∧
      verifyChain sampleExternals firstRowRemoved sampleCommunity 1 2 = .ok true := by
  refine ⟨sample_validChain, sample_injective, sample_notRecomputed, ?_, by decide⟩
  intro kept same
  have seqs := congrArg (List.map AuditRow.seq) same
  match kept, seqs with
  | 0, seqs => simp [firstRowRemoved] at seqs
  | kept + 1, seqs => simp [firstRowRemoved, AuditEntry.toRow, sampleFirst, sampleSecond] at seqs

end Buzz.Audit
