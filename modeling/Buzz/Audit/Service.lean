import Buzz.Audit.Chain
import Buzz.Library.Runs

/-! Concurrent `log` calls. Each call holds its community's advisory lock from before it reads
the head until after its insert has committed. -/

namespace Buzz.Audit

open Nostr Library.LinkedSegment Library.Transition List

variable (externals : Externals)

/-- `SELECT seq, hash .. WHERE community_id = $1 ORDER BY seq DESC LIMIT 1`. -/
def AuditTable.head (table : AuditTable) (community : CommunityId) : Option AuditRow :=
  ((table.rows.filter (·.communityId = community.uuid)).insertionSort
    fun first second => second.seq ≤ first.seq).head?

/-- `prev_seq + 1` on `i64`, as it wraps in a release build. -/
def nextSeq (prevSeq : ℤ) : ℤ := (prevSeq + 1).bmod (2 ^ 64)

/-- The entry that `log_inner` builds from the head it read and the clock. -/
def auditEntry (table : AuditTable) (entry : NewAuditEntry) (now : ℤ) : AuditEntry :=
  let head := table.head entry.communityId
  let audit : AuditEntry := {
    communityId := entry.communityId.uuid
    seq := nextSeq ((head.map AuditRow.seq).getD 0)
    hash := []
    prevHash := head.map AuditRow.hash
    action := entry.action
    actorPubkey := entry.actorPubkey
    objectId := entry.objectId
    detail := entry.detail
    createdAt := toStoragePrecision now }
  { audit with hash := externals.computeHash audit }

inductive LogCall
  | idle
  | waiting (entry : NewAuditEntry)
  | locked (entry : NewAuditEntry)
  | prepared (entry : NewAuditEntry) (audit : AuditEntry)
  | committed (community : CommunityId)

namespace LogCall

def holds : LogCall → Option CommunityId
  | .locked entry => some entry.communityId
  | .prepared entry _ => some entry.communityId
  | .committed community => some community
  | _ => none

end LogCall

structure World where
  table : AuditTable
  calls : ℕ → LogCall

def World.initial : World := ⟨.empty, fun _ => .idle⟩

def World.setCall (self : World) (call : ℕ) (phase : LogCall) : World :=
  { self with calls := Function.update self.calls call phase }

inductive Action
  | begin (call : ℕ) (entry : NewAuditEntry)
  | acquire (call : ℕ)
  | readHead (call : ℕ) (now : ℤ)
  | insert (call : ℕ)
  | unlock (call : ℕ)
  | fail (call : ℕ)

/-- An insert that would break a unique index fails. -/
inductive Step : World → Action → World → Prop
  | begin {world : World} {call : ℕ} {entry : NewAuditEntry} (idle : world.calls call = .idle) :
      Step world (.begin call entry) (world.setCall call (.waiting entry))
  | acquire {world : World} {call : ℕ} {entry : NewAuditEntry}
      (waiting : world.calls call = .waiting entry)
      (free : ∀ other, (world.calls other).holds ≠ some entry.communityId) :
      Step world (.acquire call) (world.setCall call (.locked entry))
  | readHead {world : World} {call : ℕ} {now : ℤ} {entry : NewAuditEntry}
      (locked : world.calls call = .locked entry) :
      Step world (.readHead call now)
        (world.setCall call (.prepared entry (auditEntry externals world.table entry now)))
  | insert {world : World} {call : ℕ} {entry : NewAuditEntry} {audit : AuditEntry}
      {table : AuditTable} (prepared : world.calls call = .prepared entry audit)
      (inserted : table.rows = world.table.rows ++ [audit.toRow]) :
      Step world (.insert call)
        { world.setCall call (.committed entry.communityId) with table }
  | unlock {world : World} {call : ℕ} {community : CommunityId}
      (committed : world.calls call = .committed community) :
      Step world (.unlock call) (world.setCall call .idle)
  | fail {world : World} {call : ℕ} : Step world (.fail call) (world.setCall call .idle)

def StorageKeeps (world : World) : Action → Prop
  | .begin _ entry => entry.detail.Kept externals.readFloat
  | .readHead call _ => ∀ entry, world.calls call = .locked entry →
      ∀ row ∈ world.table.head entry.communityId, row.seq < 2 ^ 63 - 1
  | _ => True

def Sound (table : AuditTable) (community : CommunityId) : Prop :=
  ∃ entries, (table.rows.filter (·.communityId = community.uuid)).mapM
      externals.rowToAuditEntry = .ok entries ∧ ValidChain externals community entries

variable {rows : List AuditRow} {entries : List AuditEntry}

theorem mapM_rowToAuditEntry_columns (read : rows.mapM externals.rowToAuditEntry = .ok entries) :
    entries.map AuditEntry.seq = rows.map AuditRow.seq ∧
      entries.map AuditEntry.hash = rows.map AuditRow.hash := by
  induction rows generalizing entries with
  | nil =>
    rw [mapM_nil, pure, Applicative.toPure] at read
    cases read
    exact ⟨rfl, rfl⟩
  | cons row rows ih =>
    obtain ⟨entry, rest, readFirst, readRest, rfl⟩ :=
      (mapM_rowToAuditEntry_cons externals).mp read
    obtain ⟨-, seq, hash, -⟩ := rowToAuditEntry_columns readFirst
    obtain ⟨seqs, hashes⟩ := ih readRest
    simp only [map_cons, seq, seqs, hash, hashes, and_self]

theorem mapM_rowToAuditEntry_snoc {row : AuditRow} {entry : AuditEntry}
    (read : rows.mapM externals.rowToAuditEntry = .ok entries)
    (last : externals.rowToAuditEntry row = .ok entry) :
    (rows ++ [row]).mapM externals.rowToAuditEntry = .ok (entries ++ [entry]) := by
  simp [mapM_append, read, last, bind, Except.bind, pure, Except.pure]

theorem mapM_rowToAuditEntry_filter
    (keep : ℤ → Bool) (read : rows.mapM externals.rowToAuditEntry = .ok entries) :
    (rows.filter fun row => keep row.seq).mapM externals.rowToAuditEntry =
      .ok (entries.filter fun entry => keep entry.seq) := by
  induction rows generalizing entries with
  | nil =>
    rw [mapM_nil, pure, Applicative.toPure] at read
    cases read
    rfl
  | cons row rows ih =>
    obtain ⟨entry, rest, readFirst, readRest, rfl⟩ :=
      (mapM_rowToAuditEntry_cons externals).mp read
    obtain ⟨-, seq, -, -⟩ := rowToAuditEntry_columns readFirst
    cases kept : keep row.seq with
    | false =>
      rw [filter_cons_of_neg (by simp [kept]),
        filter_cons_of_neg (by simp [seq, kept])]
      exact ih readRest
    | true =>
      rw [filter_cons_of_pos (by simp [kept]),
        filter_cons_of_pos (by simp [seq, kept]), mapM_rowToAuditEntry_cons]
      exact ⟨entry, _, readFirst, ih readRest, rfl⟩

variable {community : CommunityId}

theorem ValidChain.rows_increasing (valid : ValidChain externals community entries)
    (read : rows.mapM externals.rowToAuditEntry = .ok entries) :
    rows.Pairwise fun first second => first.seq < second.seq := by
  have seqs := (mapM_rowToAuditEntry_columns externals read).1
  have ordered : (entries.map AuditEntry.seq).Pairwise (· < ·) := by
    rw [pairwise_map, pairwise_iff_getElem]
    intro i j first second below
    rw [valid.numbered i first, valid.numbered j second]
    omega
  rw [seqs] at ordered
  exact pairwise_map.mp ordered

theorem insertionSort_increasing
    (increasing : rows.Pairwise fun first second => first.seq < second.seq) :
    (rows.insertionSort fun first second => first.seq ≤ second.seq) = rows :=
  List.Pairwise.insertionSort_eq (increasing.imp le_of_lt)

theorem insertionSort_decreasing
    (increasing : rows.Pairwise fun first second => first.seq < second.seq) :
    (rows.insertionSort fun first second => second.seq ≤ first.seq) = rows.reverse := by
  have total : Std.Total fun first second : AuditRow => second.seq ≤ first.seq :=
    ⟨fun first second => le_total second.seq first.seq⟩
  have transitive : IsTrans AuditRow fun first second => second.seq ≤ first.seq :=
    ⟨fun _ _ _ above below => le_trans below above⟩
  have permuted : (rows.insertionSort fun first second => second.seq ≤ first.seq).Perm
      rows.reverse := (perm_insertionSort _ rows).trans (reverse_perm rows).symm
  have reversed : rows.reverse.Pairwise fun first second => second.seq < first.seq :=
    pairwise_reverse.mpr increasing
  apply permuted.eq_of_pairwise _ (pairwise_insertionSort _ rows) (reversed.imp le_of_lt)
  intro first second left right below above
  have distinct : (rows.map AuditRow.seq).Nodup :=
    pairwise_map.mpr (increasing.imp ne_of_lt)
  apply inj_on_of_nodup_map distinct _ _ (le_antisymm above below)
  · exact mem_reverse.mp (permuted.mem_iff.mp left)
  · exact mem_reverse.mp right

variable {audit : AuditEntry}

theorem ValidChain.snoc (valid : ValidChain externals community entries)
    (scope : audit.communityId = community.uuid) (seq : audit.seq = entries.length + 1)
    (prevHash : audit.prevHash = entries.getLast?.map AuditEntry.hash)
    (hash : externals.computeHash audit = audit.hash) :
    ValidChain externals community (entries ++ [audit]) where
  sameCommunity := by
    intro entry member
    rcases mem_append.mp member with old | new
    · exact valid.sameCommunity entry old
    · rw [mem_singleton.mp new, scope]
  numbered := by
    intro index bound
    rw [length_append, length_singleton] at bound
    by_cases old : index < entries.length
    · rw [getElem_append_left old]
      exact valid.numbered index old
    · have last : index = entries.length := by omega
      subst last
      simp only [getElem_concat_length, seq]
  genesis := by
    intro entry head
    cases entries with
    | nil =>
      rw [nil_append, head?_cons, Option.mem_some_iff] at head
      rw [← head, prevHash]
      rfl
    | cons first rest => exact valid.genesis entry head
  linked := by
    rw [isChain_append]
    refine ⟨valid.linked, isChain_singleton audit, ?_⟩
    intro last atEnd next atHead
    rw [head?_cons, Option.mem_some_iff] at atHead
    rw [Option.mem_def] at atEnd
    rw [PrevLinked, ← atHead, prevHash, atEnd]
    rfl
  hashes := by
    intro entry member
    rcases mem_append.mp member with old | new
    · exact valid.hashes entry old
    · rw [mem_singleton.mp new]
      exact hash

variable {table : AuditTable}

theorem ValidChain.head (valid : ValidChain externals community entries)
    (read : (table.rows.filter (·.communityId = community.uuid)).mapM
      externals.rowToAuditEntry = .ok entries) :
    (table.head community).map AuditRow.seq = entries.getLast?.map AuditEntry.seq ∧
      (table.head community).map AuditRow.hash = entries.getLast?.map AuditEntry.hash := by
  obtain ⟨seqs, hashes⟩ := mapM_rowToAuditEntry_columns externals read
  unfold AuditTable.head
  rw [insertionSort_decreasing (valid.rows_increasing externals read), head?_reverse]
  constructor
  · rw [← getLast?_map, ← getLast?_map, seqs]
  · rw [← getLast?_map, ← getLast?_map, hashes]

/-- What it has read, while the table still has the same head. -/
structure Ready (table : AuditTable) (entry : NewAuditEntry) (audit : AuditEntry) : Prop where
  kept : entry.detail.Kept externals.readFloat
  room : ∀ row ∈ table.head entry.communityId, row.seq < 2 ^ 63 - 1
  built : ∃ now, audit = auditEntry externals table entry now

theorem nextSeq_of_room {seq : ℤ} (low : 0 ≤ seq) (room : seq < 2 ^ 63 - 1) :
    nextSeq seq = seq + 1 := by
  unfold nextSeq
  apply Int.bmod_eq_of_le <;> omega

theorem ValidChain.seq_last (valid : ValidChain externals community entries) :
    (entries.getLast?.map AuditEntry.seq).getD 0 = entries.length := by
  cases size : entries.length with
  | zero =>
    rw [eq_nil_of_length_eq_zero size]
    rfl
  | succ n =>
    rw [getLast?_eq_getElem?, size, Nat.add_sub_cancel, getElem?_eq_getElem (by omega),
      Option.map_some, Option.getD_some, valid.numbered]
    omega

variable {world : AuditTable} {entry : NewAuditEntry}

theorem Ready.sound_insert
    (ready : Ready externals world entry audit) (sound : Sound externals world entry.communityId)
    (inserted : table.rows = world.rows ++ [audit.toRow]) :
    Sound externals table entry.communityId := by
  obtain ⟨entries, read, valid⟩ := sound
  obtain ⟨now, built⟩ := ready.built
  obtain ⟨headSeq, headHash⟩ := valid.head externals read
  have room : (entries.length : ℤ) < 2 ^ 63 - 1 := by
    rw [← valid.seq_last, ← headSeq]
    cases found : world.head entry.communityId with
    | none => decide
    | some row => exact ready.room row found
  have seq : audit.seq = entries.length + 1 := by
    rw [built]
    change nextSeq (((world.head entry.communityId).map AuditRow.seq).getD 0) = _
    rw [headSeq, valid.seq_last, nextSeq_of_room (by omega) room]
  have extended : ValidChain externals entry.communityId (entries ++ [audit]) := by
    apply valid.snoc externals _ seq
    · rw [built, ← headHash]
      rfl
    · rw [built]
      rfl
    · rw [built]
      rfl
  have stored : externals.rowToAuditEntry audit.toRow = .ok audit := by
    apply rowToAuditEntry_toRow externals audit now
    · rw [built]
      rfl
    · rw [built]
      exact ready.kept
  have scope : audit.toRow.communityId = entry.communityId.uuid := by
    rw [built]
    rfl
  refine ⟨entries ++ [audit], ?_, extended⟩
  rw [inserted, filter_append, filter_cons_of_pos (by simp [scope])]
  exact mapM_rowToAuditEntry_snoc externals read stored

theorem filter_insert_other {audit : AuditRow} (inserted : table.rows = world.rows ++ [audit])
    (other : audit.communityId ≠ community.uuid) :
    (table.rows.filter (·.communityId = community.uuid)) =
      world.rows.filter fun row => decide (row.communityId = community.uuid) := by
  rw [inserted, filter_append, filter_cons_of_neg (by simp [other]), filter_nil,
    append_nil]

structure Inv (world : World) : Prop where
  sound : ∀ community, Sound externals world.table community
  exclusive : ∀ first second community, (world.calls first).holds = some community →
    (world.calls second).holds = some community → first = second
  pending : ∀ call entry, world.calls call = .waiting entry ∨ world.calls call = .locked entry →
    entry.detail.Kept externals.readFloat
  ready : ∀ call entry audit, world.calls call = .prepared entry audit →
    Ready externals world.table entry audit

theorem inv_initial : Inv externals World.initial where
  sound := by
    intro community
    refine ⟨[], rfl, ?_⟩
    constructor <;> simp
  exclusive := by
    intro first second community held
    cases held
  pending := by
    intro call entry pending
    rcases pending with waiting | locked
    · cases waiting
    · cases locked
  ready := by
    intro call entry audit prepared
    cases prepared

theorem setCall_calls (world : World) (call other : ℕ) (phase : LogCall) :
    (world.setCall call phase).calls other = if other = call then phase else world.calls other :=
  Function.update_apply world.calls call phase other

theorem Inv.setCall {world : World} (inv : Inv externals world) {call : ℕ} {phase : LogCall}
    (free : ∀ other community, other ≠ call → phase.holds = some community →
      (world.calls other).holds ≠ some community)
    (pending : ∀ entry, phase = .waiting entry ∨ phase = .locked entry →
      entry.detail.Kept externals.readFloat)
    (ready : ∀ entry audit, phase = .prepared entry audit →
      Ready externals world.table entry audit) :
    Inv externals (world.setCall call phase) where
  sound := inv.sound
  exclusive := by
    intro first second community left right
    rw [setCall_calls] at left right
    by_cases mine : first = call
    · by_cases yours : second = call
      · rw [mine, yours]
      · rw [if_pos mine] at left
        rw [if_neg yours] at right
        exact absurd right (free second community yours left)
    · by_cases yours : second = call
      · rw [if_pos yours] at right
        rw [if_neg mine] at left
        exact absurd left (free first community mine right)
      · rw [if_neg mine] at left
        rw [if_neg yours] at right
        exact inv.exclusive first second community left right
  pending := by
    intro other entry
    rw [setCall_calls]
    by_cases mine : other = call
    · rw [if_pos mine]
      exact pending entry
    · rw [if_neg mine]
      exact inv.pending other entry
  ready := by
    intro other entry audit
    rw [setCall_calls]
    by_cases mine : other = call
    · rw [if_pos mine]
      exact ready entry audit
    · rw [if_neg mine]
      exact inv.ready other entry audit

theorem Inv.setIdle {world : World} (inv : Inv externals world) {call : ℕ} :
    Inv externals (world.setCall call .idle) := by
  apply inv.setCall externals
  · intro other community _ held
    cases held
  · intro entry pending
    rcases pending with waiting | locked
    · cases waiting
    · cases locked
  · intro entry audit prepared
    cases prepared

theorem Ready.of_other (ready : Ready externals world entry audit)
    (same : table.head entry.communityId = world.head entry.communityId) :
    Ready externals table entry audit where
  kept := ready.kept
  room := by
    rw [same]
    exact ready.room
  built := by
    obtain ⟨now, built⟩ := ready.built
    refine ⟨now, ?_⟩
    rw [built]
    simp only [auditEntry, same]

theorem Inv.step {world next : World} {action : Action} (inv : Inv externals world)
    (keeps : StorageKeeps externals world action) (step : Step externals world action next) :
    Inv externals next := by
  cases step with
  | begin idle =>
    apply inv.setCall externals
    · intro other community _ held
      cases held
    · intro entry pending
      rcases pending with waiting | locked
      · cases waiting
        exact keeps
      · cases locked
    · intro entry audit prepared
      cases prepared
  | acquire waiting free =>
    apply inv.setCall externals
    · intro other community _ held
      cases held
      exact free other
    · intro entry pending
      rcases pending with stillWaiting | locked
      · cases stillWaiting
      · cases locked
        exact inv.pending _ _ (Or.inl waiting)
    · intro entry audit prepared
      cases prepared
  | readHead locked =>
    apply inv.setCall externals
    · intro other community different held taken
      apply different
      apply inv.exclusive other _ community taken
      rw [locked]
      exact held
    · intro entry pending
      rcases pending with waiting | stillLocked
      · cases waiting
      · cases stillLocked
    · intro entry audit prepared
      cases prepared
      exact ⟨inv.pending _ _ (Or.inr locked), keeps _ locked, _, rfl⟩
  | @insert call entry audit table prepared inserted =>
    have ready := inv.ready call entry audit prepared
    have scope : audit.toRow.communityId = entry.communityId.uuid := by
      obtain ⟨now, built⟩ := ready.built
      rw [built]
      rfl
    have untouched {community : CommunityId} (other : community ≠ entry.communityId) :
        (table.rows.filter (·.communityId = community.uuid)) =
          world.table.rows.filter fun row => decide (row.communityId = community.uuid) := by
      apply filter_insert_other inserted
      rw [scope]
      intro same
      apply other
      cases community
      cases shape : entry.communityId
      rw [shape] at same
      rw [CommunityId.mk.injEq]
      exact same.symm
    have moved : Inv externals (world.setCall call (.committed entry.communityId)) := by
      apply inv.setCall externals
      · intro other community different held taken
        apply different
        apply inv.exclusive other call community taken
        rw [prepared]
        exact held
      · intro other pending
        rcases pending with waiting | locked
        · cases waiting
        · cases locked
      · intro other built impossible
        cases impossible
    refine ⟨?_, moved.exclusive, moved.pending, ?_⟩
    · intro community
      by_cases same : community = entry.communityId
      · rw [same]
        exact ready.sound_insert externals (inv.sound entry.communityId) inserted
      · obtain ⟨entries, read, valid⟩ := inv.sound community
        refine ⟨entries, ?_, valid⟩
        rw [untouched same]
        exact read
    · intro other waiting built found
      have old := moved.ready other waiting built found
      apply old.of_other externals
      have different : waiting.communityId ≠ entry.communityId := by
        intro same
        have mine : other = call := by
          apply inv.exclusive other call entry.communityId
          · have phase := setCall_calls world call other (.committed entry.communityId)
            rw [found] at phase
            by_cases here : other = call
            · rw [if_pos here] at phase
              cases phase
            · rw [if_neg here] at phase
              rw [← phase, ← same]
              rfl
          · rw [prepared]
            rfl
        change (world.setCall call (.committed entry.communityId)).calls other = _ at found
        rw [setCall_calls, if_pos mine] at found
        cases found
      unfold AuditTable.head
      rw [untouched different]
      rfl
  | unlock committed | fail => exact inv.setIdle externals

def AuditTable.chainRows (table : AuditTable) (community : CommunityId) : List AuditRow :=
  (table.rows.filter (·.communityId = community.uuid)).insertionSort
    fun first second => first.seq ≤ second.seq

theorem ValidChain.readRange (valid : ValidChain externals community entries)
    (read : (table.rows.filter (·.communityId = community.uuid)).mapM
      externals.rowToAuditEntry = .ok entries) {fromSeq toSeq : ℕ} (positive : 1 ≤ fromSeq)
    (within : toSeq ≤ entries.length) :
    readRange externals table community fromSeq toSeq =
      .ok (segment (fromSeq - 1) (toSeq + 1 - fromSeq) entries) := by
  let inRange (seq : ℤ) := (fromSeq : ℤ) ≤ seq && seq ≤ (toSeq : ℤ)
  have increasing := (valid.rows_increasing externals read).filter fun row => inRange row.seq
  have selected : table.selectRange community fromSeq toSeq =
      (table.rows.filter (·.communityId = community.uuid)).filter
        fun row => inRange row.seq := by
    rw [← insertionSort_increasing increasing, filter_filter]
    unfold AuditTable.selectRange
    simp only [inRange, Bool.and_comm]
  unfold Audit.readRange
  rw [selected, mapM_rowToAuditEntry_filter externals inRange read]
  exact congrArg Except.ok (filter_numbered valid.numbered positive within)

theorem ValidChain.verifyChain (valid : ValidChain externals community entries)
    (read : (table.rows.filter (·.communityId = community.uuid)).mapM
      externals.rowToAuditEntry = .ok entries) {fromSeq toSeq : ℕ} (positive : 1 ≤ fromSeq)
    (nonempty : fromSeq ≤ toSeq) (within : toSeq ≤ entries.length) :
    verifyChain externals table community fromSeq toSeq = .ok true := by
  rw [verifyChain_iff]
  refine ⟨_, valid.readRange externals read positive within, ?_, ?_,
    segment_isChain valid.linked _ _⟩
  · intro empty
    have size : (segment (fromSeq - 1) (toSeq + 1 - fromSeq) entries).length =
        toSeq + 1 - fromSeq := segment_length (by omega)
    rw [empty, length_nil] at size
    omega
  · intro entry member
    exact valid.hashes entry (segment_members member)

/-- Verification accepts each nonempty subrange of a community's rows. -/
theorem log_chain_integrity {actions : List Action} {world : World}
    (run : Run (Guarded (StorageKeeps externals) (Step externals)) World.initial actions world)
    (community : CommunityId) :
    ∃ entries, (world.table.chainRows community).mapM externals.rowToAuditEntry = .ok entries ∧
      ValidChain externals community entries ∧
      ∀ fromSeq toSeq : ℕ, 1 ≤ fromSeq → fromSeq ≤ toSeq → toSeq ≤ entries.length →
        verifyChain externals world.table community fromSeq toSeq = .ok true := by
  have inv : Inv externals world := by
    apply run.invariant _ (inv_initial externals)
    intro state action next inv taken
    exact inv.step externals taken.1 taken.2
  obtain ⟨entries, read, valid⟩ := inv.sound community
  refine ⟨entries, ?_, valid, ?_⟩
  · unfold AuditTable.chainRows
    rw [insertionSort_increasing (valid.rows_increasing externals read)]
    exact read
  · intro fromSeq toSeq positive nonempty within
    exact valid.verifyChain externals read positive nonempty within

def logOnce (entry : NewAuditEntry) (now : ℤ) : List Action :=
  [.begin 0 entry, .acquire 0, .readHead 0 now, .insert 0, .unlock 0]

def onceTable (audit : AuditEntry) : AuditTable := ⟨[audit.toRow], by simp, by simp⟩

theorem free_waiting (entry : NewAuditEntry) (other : ℕ) :
    ((World.initial.setCall 0 (.waiting entry)).calls other).holds ≠ some entry.communityId := by
  rw [setCall_calls]
  split
  · exact nofun
  · exact nofun

def nullEntry : NewAuditEntry := ⟨sampleCommunity, .eventCreated, none, none, ⟨.null, trivial⟩⟩

theorem log_chain_integrity_nullEntry :
    ∃ world : World, world.table = onceTable sampleFirst ∧
      ∃ entries, (world.table.chainRows sampleCommunity).mapM sampleExternals.rowToAuditEntry =
          .ok entries ∧
        ValidChain sampleExternals sampleCommunity entries ∧
        ∀ fromSeq toSeq : ℕ, 1 ≤ fromSeq → fromSeq ≤ toSeq → toSeq ≤ entries.length →
          verifyChain sampleExternals world.table sampleCommunity fromSeq toSeq = .ok true := by
  have run : Run (Guarded (StorageKeeps sampleExternals) (Step sampleExternals)) World.initial
      (logOnce nullEntry 1767225600000000000) _ :=
    .cons ⟨trivial, .begin rfl⟩ <|
    .cons ⟨trivial, .acquire rfl (free_waiting nullEntry)⟩ <|
    .cons ⟨fun _ _ _ => nofun, .readHead rfl⟩ <|
    .cons ⟨trivial, @Step.insert _ _ _ _ _ (onceTable sampleFirst) rfl rfl⟩ <|
    .cons ⟨trivial, .unlock rfl⟩ (.nil _)
  exact ⟨_, rfl, log_chain_integrity sampleExternals run sampleCommunity⟩

def exponentSha256 (bytes : Bytes) : FixedBytes 32 :=
  if bytes.length = 101 then
    ⟨[119, 56, 134, 141, 122, 60, 38, 25, 184, 45, 202, 231, 93, 157, 246, 211,
      87, 165, 31, 253, 6, 8, 132, 99, 72, 114, 152, 144, 190, 10, 157, 23], rfl⟩
  else
    ⟨[175, 55, 239, 154, 185, 13, 219, 28, 152, 9, 136, 235, 35, 245, 38, 148,
      219, 13, 224, 4, 132, 47, 170, 79, 64, 191, 226, 51, 206, 230, 219, 188], rfl⟩

def exponentExternals : Externals where
  sha256 := exponentSha256
  toRfc3339 := fun _ => "2026-01-01T00:00:00+00:00"
  formatFloat := fun _ => "1e+16"
  readFloat := fun _ => ⟨false, 1, 16, by decide, by decide⟩

def exponentEntry : NewAuditEntry :=
  ⟨sampleCommunity, .eventCreated, none, none,
    ⟨.number (.float ⟨false, 1, 16, by decide, by decide⟩), trivial⟩⟩

/-- A float `1e16` comes back as an integer, and the hash no longer fits. -/
theorem log_exponentEntry_mismatch :
    ∃ world : World,
      Run (Step exponentExternals) World.initial (logOnce exponentEntry 1767225600000000000)
        world ∧
      verifyChain exponentExternals world.table sampleCommunity 1 1 =
        .error (.error (.hashMismatch 1)) := by
  have run : Run (Step exponentExternals) World.initial
      (logOnce exponentEntry 1767225600000000000) _ :=
    .cons (.begin rfl) <|
    .cons (.acquire rfl (free_waiting exponentEntry)) <|
    .cons (.readHead rfl) <|
    .cons (@Step.insert _ _ _ _ _ (onceTable
      (auditEntry exponentExternals .empty exponentEntry 1767225600000000000)) rfl rfl) <|
    .cons (.unlock rfl) (.nil _)
  exact ⟨_, run, by decide⟩

end Buzz.Audit
