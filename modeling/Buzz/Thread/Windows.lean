import Buzz.Thread.Paging

/-! The windows of a channel: one more row than the limit is read. -/

namespace Buzz.Thread.Windows

open Nostr Library Library.Scroll List

structure EventRow where
  communityId : CommunityId
  id : Bytes
  pubkey : Bytes
  createdAt : ℤ
  kind : ℤ
  tags : Json Number
  content : String
  sig : Bytes
  channelId : Option Uuid
  deletedAt : Option ℤ

structure MetadataRow where
  communityId : CommunityId
  eventCreatedAt : ℤ
  eventId : Bytes
  rootEventId : Option Bytes
  depth : ℤ
  replyCount : ℤ
  descendantCount : ℤ
  lastReplyAt : Option ℤ
  broadcast : Bool

def EventRow.primaryKey (self : EventRow) : CommunityId × ℤ × Bytes :=
  (self.communityId, self.createdAt, self.id)

def MetadataRow.primaryKey (self : MetadataRow) : CommunityId × ℤ × Bytes :=
  (self.communityId, self.eventCreatedAt, self.eventId)

structure Tables where
  events : List EventRow
  threadMetadata : List MetadataRow
  eventKeys : (events.map EventRow.primaryKey).Nodup
  metadataKeys : (threadMetadata.map MetadataRow.primaryKey).Nodup

/-- A row of the `LEFT JOIN`. -/
structure JoinedRow where
  event : EventRow
  metadata : Option MetadataRow

def leftJoin (metadata : List MetadataRow) (event : EventRow) : List JoinedRow :=
  match metadata.filter fun tm => decide (tm.primaryKey = event.primaryKey) with
  | [] => [⟨event, none⟩]
  | found => found.map fun tm => ⟨event, some tm⟩

def Tables.joined (self : Tables) : List JoinedRow :=
  self.events.flatMap (leftJoin self.threadMetadata)

abbrev Cursor := ℤ × Bytes

/-- `bytea` compares byte by byte. -/
def bytea (bytes : Bytes) : List ℕ := bytes.map UInt8.toNat

structure Query where
  communityId : CommunityId
  channelId : Uuid
  limit : UInt32
  kindFilter : Option (List UInt32)

/-- And the depth-1 replies that are broadcast. -/
def JoinedRow.topLevel (query : Query) (self : JoinedRow) : Bool :=
  self.event.communityId = query.communityId &&
    self.event.channelId = some query.channelId && self.event.deletedAt.isNone &&
    (self.metadata.all fun tm =>
      decide (tm.depth = 0) || (tm.depth = 1 && tm.broadcast)) &&
    query.kindFilter.all fun kinds =>
      kinds.isEmpty || kinds.any fun kind => (kind.toNat : ℤ) = self.event.kind

def JoinedRow.afterCursor (cursor : Option Cursor) (self : JoinedRow) : Bool :=
  match cursor with
  | some (ts, id) => decide (self.event.createdAt < ts ∨
      self.event.createdAt = ts ∧ bytea id < bytea self.event.id)
  | none => true

/-- `ORDER BY e.created_at DESC, e.id ASC`. -/
def rowLe (first second : JoinedRow) : Bool :=
  decide (second.event.createdAt < first.event.createdAt ∨
    first.event.createdAt = second.event.createdAt ∧
      bytea first.event.id ≤ bytea second.event.id)

structure ThreadSummary where
  replyCount : ℤ
  descendantCount : ℤ
  lastReplyAt : Option ℤ
  participants : List Bytes

structure ChannelWindowRow where
  storedEvent : StoredEvent
  threadSummary : Option ThreadSummary

structure ChannelWindow where
  rows : List ChannelWindowRow
  hasMore : Bool
  nextCursor : Option Cursor

section window

-- the deserialization of an event from the columns of its row
variable (parse : EventRow → Option Event) (tables : Tables) (query : Query)

def rowToStoredEvent (row : EventRow) : Except DbError (Option StoredEvent) :=
  if 0 ≤ row.kind ∧ row.kind ≤ 65535 then
    .ok ((parse row).map fun event => ⟨event, row.channelId⟩)
  else .error (.invalidData ("kind out of u16 range: " ++ toString row.kind))

def threadSummary (metadata : Option MetadataRow) : Option ThreadSummary :=
  (metadata.filter fun tm => 0 < tm.replyCount).map fun tm =>
    ⟨tm.replyCount, tm.descendantCount, tm.lastReplyAt, []⟩

/-- Rows that are no event any more are skipped. -/
def rebuild : List JoinedRow → Except DbError (List ChannelWindowRow)
  | [] => .ok []
  | row :: rows => do
    let stored ← rowToStoredEvent parse row.event
    let later ← rebuild rows
    match stored with
    | some stored => .ok (⟨stored, threadSummary row.metadata⟩ :: later)
    | none => .ok later

def replies (root : Bytes) : List EventRow :=
  (tables.threadMetadata.filter fun tm => tm.communityId = query.communityId &&
    tm.rootEventId = some root).flatMap fun tm => tables.events.filter fun event =>
      event.primaryKey = tm.primaryKey && event.deletedAt.isNone

def participants (root : Bytes) : List Bytes :=
  let lastSeen (pubkey : Bytes) : ℤ :=
    (((replies tables query root).filter fun event => event.pubkey = pubkey).map
      EventRow.createdAt).max?.getD 0
  (((replies tables query root).map EventRow.pubkey).dedup.mergeSort fun first second =>
    lastSeen second ≤ lastSeen first).take 10

def fillParticipants (byRoot : EventId → Option (List Bytes)) :
    List ChannelWindowRow → List ChannelWindowRow
  | [] => []
  | row :: rows =>
    match row.threadSummary, byRoot row.storedEvent.event.id with
    | some summary, some found =>
      { row with threadSummary := some { summary with participants := found } } ::
        fillParticipants (Function.update byRoot row.storedEvent.event.id none) rows
    | _, _ => row :: fillParticipants byRoot rows

def byRoot (rows : List ChannelWindowRow) (id : EventId) : Option (List Bytes) :=
  if (rows.any fun row => row.threadSummary.isSome && row.storedEvent.event.id = id) &&
      !(participants tables query id.val).isEmpty then
    some (participants tables query id.val)
  else none

def dbRows (cursor : Option Cursor) : List JoinedRow :=
  Page.page rowLe (fun row => row.topLevel query && row.afterCursor cursor)
    (query.limit.toNat + 1) tables.joined

def JoinedRow.cursor (self : JoinedRow) : Cursor := (self.event.createdAt, self.event.id)

/-- The row past the limit only tells that there are more. -/
def getChannelWindowOn (cursor : Option Cursor) : Except DbError ChannelWindow := do
  let dbRows := dbRows tables query cursor
  let hasMore := decide (query.limit.toNat < dbRows.length)
  let retained := dbRows.take query.limit.toNat
  let nextCursor := if hasMore then retained.getLast?.map JoinedRow.cursor else none
  let rows ← rebuild parse retained
  .ok ⟨fillParticipants (byRoot tables query rows) rows, hasMore, nextCursor⟩

/-- The windows that a client gets by following `next_cursor`. -/
inductive Follows : Option Cursor → List ChannelWindow → Prop
  | last {cursor : Option Cursor} {window : ChannelWindow}
      (read : getChannelWindowOn parse tables query cursor = .ok window)
      (final : window.nextCursor = none) : Follows cursor [window]
  | more {cursor : Option Cursor} {window : ChannelWindow} {next : Cursor}
      {windows : List ChannelWindow}
      (read : getChannelWindowOn parse tables query cursor = .ok window)
      (isNext : window.nextCursor = some next) (rest : Follows (some next) windows) :
      Follows cursor (window :: windows)

def topLevelRows : List JoinedRow := (tables.joined.filter (JoinedRow.topLevel query)).mergeSort rowLe

end window

variable {row : JoinedRow} {parse : EventRow → Option Event} {tables : Tables} {query : Query}

abbrev RowKey := (OrderDual ℤ) ×ₗ List ℕ

def cursorKey (cursor : Cursor) : RowKey := toLex (OrderDual.toDual cursor.1, bytea cursor.2)

def JoinedRow.key (self : JoinedRow) : RowKey := cursorKey self.cursor

theorem bytea_injective : Function.Injective bytea :=
  map_injective_iff.mpr fun _ _ same => UInt8.toNat_inj.mp same

theorem cursorKey_injective : Function.Injective cursorKey := by
  intro first second same
  have parts := Prod.ext_iff.mp (toLex.injective same)
  exact Prod.ext (OrderDual.toDual.injective parts.1) (bytea_injective parts.2)

theorem rowLe_iff (first second : JoinedRow) :
    rowLe first second ↔ first.key ≤ second.key := by
  rw [rowLe, decide_eq_true_eq, JoinedRow.key, JoinedRow.key, cursorKey, cursorKey,
    Prod.Lex.toLex_le_toLex, OrderDual.toDual_lt_toDual, OrderDual.toDual_inj]
  rfl

theorem afterCursor_iff {cursor : Option Cursor} :
    row.afterCursor cursor ↔ Past JoinedRow.key (cursor.map cursorKey) row := by
  cases cursor with
  | none => exact ⟨fun _ => nofun, fun _ => rfl⟩
  | some last =>
    have past : Past JoinedRow.key (some (cursorKey last)) row ↔ cursorKey last < row.key := by
      constructor
      · exact (· _ rfl)
      · rintro after _ ⟨⟩
        exact after
    rw [Option.map_some, past, JoinedRow.key, cursorKey, cursorKey, Prod.Lex.toLex_lt_toLex,
      OrderDual.toDual_lt_toDual, OrderDual.toDual_inj, JoinedRow.afterCursor,
      decide_eq_true_eq, eq_comm (a := last.1)]
    rfl

theorem map_leftJoin {metadata : List MetadataRow}
    (keys : (metadata.map MetadataRow.primaryKey).Nodup) (event : EventRow) :
    (leftJoin metadata event).map JoinedRow.event = [event] := by
  have distinct := keys.sublist ((filter_sublist
    (p := fun tm : MetadataRow => tm.primaryKey = event.primaryKey)).map
      MetadataRow.primaryKey)
  have same (tm : MetadataRow) (member : tm ∈ metadata.filter fun tm =>
      tm.primaryKey = event.primaryKey) : tm.primaryKey = event.primaryKey :=
    of_decide_eq_true (mem_filter.mp member).2
  unfold leftJoin
  cases found : metadata.filter fun tm => decide (tm.primaryKey = event.primaryKey) with
  | nil => rfl
  | cons first rest =>
    cases rest with
    | nil => rfl
    | cons second rest =>
      rw [found] at distinct same
      have equal := (same first mem_cons_self).trans
        (same second (mem_cons_of_mem _ mem_cons_self)).symm
      exact absurd (equal ▸ mem_cons_self) (nodup_cons.mp distinct).1

theorem map_joined (tables : Tables) : tables.joined.map JoinedRow.event = tables.events := by
  rw [Tables.joined, map_flatMap]
  simp only [map_leftJoin tables.metadataKeys]
  exact flatMap_singleton' _

theorem topLevel_community (topLevel : row.topLevel query) :
    row.event.communityId = query.communityId := by
  simp only [JoinedRow.topLevel, Bool.and_eq_true, decide_eq_true_eq] at topLevel
  exact topLevel.1.1.1.1

theorem topLevel_keys (tables : Tables) (query : Query) :
    ((tables.joined.filter (JoinedRow.topLevel query)).map JoinedRow.key).Nodup := by
  have whole : (tables.joined.map (·.event.primaryKey)).Nodup := by
    have keys := tables.eventKeys
    rw [← map_joined tables, map_map] at keys
    exact keys
  have kept := whole.sublist
    ((filter_sublist (p := JoinedRow.topLevel query)).map (·.event.primaryKey))
  apply pairwise_map.mpr
  apply (pairwise_map.mp kept).imp_of_mem
  intro first second firstIn secondIn differ same
  apply differ
  have communities := (topLevel_community (mem_filter.mp firstIn).2).trans
    (topLevel_community (mem_filter.mp secondIn).2).symm
  exact Prod.ext communities (cursorKey_injective same)

theorem rowOrder : Page.TotalOrder rowLe := totalOrder_of_key rowLe_iff

theorem topLevelRows_inOrder (tables : Tables) (query : Query) :
    InOrder JoinedRow.key (topLevelRows tables query) := by
  have sorted : InOrder JoinedRow.key (mergeSort (List.filter (fun _ => true) _) rowLe) :=
    inOrder_mergeSort (topLevel_keys tables query) rowLe_iff rowOrder
  rw [filter_true] at sorted
  exact sorted

theorem dbRows_eq (cursor : Option Cursor) : dbRows tables query cursor =
    ((topLevelRows tables query).filter (JoinedRow.afterCursor cursor)).take
      (query.limit.toNat + 1) := by
  have split : mergeSort (List.filter (fun row => true && row.afterCursor cursor) _) rowLe = _ :=
    mergeSort_filter (topLevel_keys tables query) rowLe_iff rowOrder
  simp only [Bool.true_and, filter_true] at split
  have order : (fun row : JoinedRow => row.topLevel query && row.afterCursor cursor) =
      fun row => row.afterCursor cursor && row.topLevel query :=
    funext fun row => Bool.and_comm _ _
  rw [dbRows, Page.page, topLevelRows, ← split, filter_filter, order]

section rebuilding

def JoinedRow.rebuilt (parse : EventRow → Option Event) (self : JoinedRow) : Option StoredEvent :=
  (parse self.event).map fun event => ⟨event, self.event.channelId⟩

theorem fillParticipants_events (byRoot : EventId → Option (List Bytes))
    (rows : List ChannelWindowRow) : (fillParticipants byRoot rows).map
      ChannelWindowRow.storedEvent = rows.map ChannelWindowRow.storedEvent := by
  induction rows generalizing byRoot with
  | nil => rfl
  | cons row rows ih =>
    unfold fillParticipants
    split
    · rw [map_cons, map_cons, ih]
    · rw [map_cons, map_cons, ih]

variable {rows : List JoinedRow}

theorem rebuild_events {rebuilt : List ChannelWindowRow} (ok : rebuild parse rows = .ok rebuilt) :
    rebuilt.map ChannelWindowRow.storedEvent = rows.filterMap (JoinedRow.rebuilt parse) := by
  induction rows generalizing rebuilt with
  | nil =>
    cases ok
    rfl
  | cons row rows ih =>
    unfold rebuild rowToStoredEvent at ok
    split at ok
    · cases rest : rebuild parse rows with
      | error error =>
        rw [rest] at ok
        cases ok
      | ok later =>
        rw [rest] at ok
        have known := ih rest
        cases parsed : parse row.event with
        | none =>
          rw [parsed] at ok
          cases ok
          rw [known, filterMap_cons_none]
          rw [JoinedRow.rebuilt, parsed]
          rfl
        | some event =>
          rw [parsed] at ok
          cases ok
          rw [map_cons, known, filterMap_cons_some]
          rw [JoinedRow.rebuilt, parsed]
          rfl
    · cases ok

/-- As those of every insertion do. -/
def KindsFit (tables : Tables) : Prop :=
  ∀ event ∈ tables.events, 0 ≤ event.kind ∧ event.kind ≤ 65535

theorem rebuild_ok (parse : EventRow → Option Event)
    (fit : ∀ row ∈ rows, 0 ≤ row.event.kind ∧ row.event.kind ≤ 65535) :
    ∃ rebuilt, rebuild parse rows = .ok rebuilt := by
  induction rows with
  | nil => exact ⟨[], rfl⟩
  | cons row rows ih =>
    obtain ⟨later, rest⟩ := ih fun other member => fit other (mem_cons_of_mem _ member)
    unfold rebuild rowToStoredEvent
    rw [if_pos (fit row mem_cons_self), rest]
    cases parse row.event with
    | none | some event => exact ⟨_, rfl⟩

theorem mem_topLevelRows : row ∈ topLevelRows tables query ↔
    row ∈ tables.joined ∧ row.topLevel query := by
  rw [topLevelRows, (mergeSort_perm _ _).mem_iff, mem_filter]

theorem KindsFit.topLevel (fit : KindsFit tables)
    (member : row ∈ topLevelRows tables query) : 0 ≤ row.event.kind ∧ row.event.kind ≤ 65535 := by
  apply fit
  rw [← map_joined tables]
  exact mem_map.mpr ⟨row, (mem_topLevelRows.mp member).1, rfl⟩

end rebuilding

section windows

variable {cursor : Option Cursor} {window : ChannelWindow} {windows : List ChannelWindow}

def remaining (tables : Tables) (query : Query) (cursor : Option Cursor) : List JoinedRow :=
  (topLevelRows tables query).filter (JoinedRow.afterCursor cursor)

structure WindowOf (parse : EventRow → Option Event) (limit : ℕ) (rows : List JoinedRow)
    (window : ChannelWindow) : Prop where
  hasMore : window.hasMore = decide (limit < rows.length)
  nextCursor : window.nextCursor =
    if limit < rows.length then (rows.take limit).getLast?.map JoinedRow.cursor else none
  events : window.rows.map ChannelWindowRow.storedEvent =
    (rows.take limit).filterMap (JoinedRow.rebuilt parse)

theorem windowOf_read (read : getChannelWindowOn parse tables query cursor = .ok window) :
    WindowOf parse query.limit.toNat (remaining tables query cursor) window := by
  unfold getChannelWindowOn at read
  rw [dbRows_eq] at read
  have more : query.limit.toNat < ((remaining tables query cursor).take
      (query.limit.toNat + 1)).length ↔ query.limit.toNat < (remaining tables query cursor).length := by
    rw [length_take]
    omega
  have retained : ((remaining tables query cursor).take (query.limit.toNat + 1)).take
      query.limit.toNat = (remaining tables query cursor).take query.limit.toNat := by
    rw [take_take, Nat.min_eq_left (Nat.le_succ _)]
  change (rebuild parse (((remaining tables query cursor).take (query.limit.toNat + 1)).take
    query.limit.toNat) >>= fun rows => Except.ok _) = Except.ok window at read
  rw [retained] at read
  cases built : rebuild parse ((remaining tables query cursor).take query.limit.toNat) with
  | error error =>
    rw [built] at read
    cases read
  | ok rows =>
    rw [built] at read
    cases read
    constructor
    · exact decide_eq_decide.mpr more
    · simp only [decide_eq_true_eq]
      rw [← retained]
      exact if_congr more rfl rfl
    · exact (fillParticipants_events _ rows).trans (rebuild_events built)

theorem read_ok (parse : EventRow → Option Event) (query : Query) (fit : KindsFit tables)
    (cursor : Option Cursor) :
    ∃ window, getChannelWindowOn parse tables query cursor = .ok window := by
  have fits : ∀ row ∈ (dbRows tables query cursor).take query.limit.toNat,
      0 ≤ row.event.kind ∧ row.event.kind ≤ 65535 := by
    intro row member
    have taken := mem_of_mem_take member
    rw [dbRows_eq] at taken
    exact fit.topLevel (mem_of_mem_filter (mem_of_mem_take taken))
  obtain ⟨rows, built⟩ := rebuild_ok parse fits
  unfold getChannelWindowOn
  simp only [built]
  exact ⟨_, rfl⟩

variable {taken rest : List JoinedRow}

theorem remaining_eq (split : topLevelRows tables query = taken ++ rest)
    (at_last : cursor = taken.getLast?.map JoinedRow.cursor) : remaining tables query cursor = rest := by
  have sorted := topLevelRows_inOrder tables query
  rw [split] at sorted
  rw [remaining, split]
  apply filter_past sorted
  intro row
  rw [afterCursor_iff, at_last, Option.map_map]
  rfl

theorem split_further (taken rest : List JoinedRow) (limit : ℕ) :
    taken ++ rest = (taken ++ rest.take limit) ++ rest.drop limit := by
  rw [append_assoc, take_append_drop]

theorem getLast?_taken (taken : List JoinedRow) {limit : ℕ}
    (positive : 0 < limit) (more : limit < rest.length) :
    (taken ++ rest.take limit).getLast? = (rest.take limit).getLast? := by
  apply getLast?_append_of_ne_nil
  intro empty
  have length := congrArg List.length empty
  rw [length_take, length_nil] at length
  omega

theorem Follows.events (positive : 0 < query.limit.toNat)
    (follows : Follows parse tables query cursor windows)
    (split : topLevelRows tables query = taken ++ rest)
    (at_last : cursor = taken.getLast?.map JoinedRow.cursor) :
    (windows.flatMap ChannelWindow.rows).map ChannelWindowRow.storedEvent =
      rest.filterMap (JoinedRow.rebuilt parse) := by
  induction follows generalizing taken rest with
  | @last cursor window read final =>
    have spec := windowOf_read read
    rw [remaining_eq split at_last] at spec
    have whole : rest.length ≤ query.limit.toNat := by
      by_contra longer
      have next := spec.nextCursor
      rw [final, if_pos (Nat.lt_of_not_le longer)] at next
      have none := (Option.map_eq_none_iff.mp next.symm)
      rw [getLast?_eq_none_iff, take_eq_nil_iff] at none
      rcases none with zero | empty
      · omega
      · rw [empty] at longer
        exact longer (Nat.zero_le _)
    rw [flatMap_singleton, spec.events, take_of_length_le whole]
  | @more cursor window next windows read isNext follows ih =>
    have spec := windowOf_read read
    rw [remaining_eq split at_last] at spec
    have next_eq := spec.nextCursor
    rw [isNext] at next_eq
    by_cases longer : query.limit.toNat < rest.length
    · rw [if_pos longer, ← getLast?_taken taken positive longer] at next_eq
      have later := ih (split.trans (split_further taken rest query.limit.toNat)) next_eq
      rw [flatMap_cons, map_append, spec.events, later, ← filterMap_append,
        take_append_drop]
    · rw [if_neg longer] at next_eq
      cases next_eq

theorem follows_exists (parse : EventRow → Option Event) (fit : KindsFit tables)
    (positive : 0 < query.limit.toNat) (length : ℕ) (bound : rest.length ≤ length)
    (split : topLevelRows tables query = taken ++ rest)
    (at_last : cursor = taken.getLast?.map JoinedRow.cursor) :
    ∃ windows, Follows parse tables query cursor windows := by
  induction length generalizing cursor taken rest with
  | zero =>
    obtain ⟨window, read⟩ := read_ok parse query fit cursor
    have spec := windowOf_read read
    rw [remaining_eq split at_last] at spec
    have final := spec.nextCursor
    rw [if_neg (by omega)] at final
    exact ⟨_, .last read final⟩
  | succ length ih =>
    obtain ⟨window, read⟩ := read_ok parse query fit cursor
    have spec := windowOf_read read
    rw [remaining_eq split at_last] at spec
    cases isNext : window.nextCursor with
    | none => exact ⟨_, .last read isNext⟩
    | some next =>
      have next_eq := spec.nextCursor
      rw [isNext] at next_eq
      by_cases longer : query.limit.toNat < rest.length
      · rw [if_pos longer, ← getLast?_taken taken positive longer] at next_eq
        have shorter : (rest.drop query.limit.toNat).length ≤ length := by
          rw [length_drop]
          omega
        rcases ih shorter (split.trans (split_further taken rest query.limit.toNat)) next_eq with
          ⟨windows, follows⟩
        exact ⟨_, .more read isNext follows⟩
      · rw [if_neg longer] at next_eq
        cases next_eq

def retained (tables : Tables) (query : Query) (cursor : Option Cursor) : List JoinedRow :=
  (remaining tables query cursor).take query.limit.toNat

theorem hasMore_iff (read : getChannelWindowOn parse tables query cursor = .ok window) :
    window.hasMore ↔ ∃ row ∈ topLevelRows tables query,
      row.afterCursor cursor ∧ row ∉ retained tables query cursor := by
  have sorted := (topLevelRows_inOrder tables query).filter (JoinedRow.afterCursor cursor)
  change InOrder JoinedRow.key (remaining tables query cursor) at sorted
  rw [(windowOf_read read).hasMore, decide_eq_true_eq]
  constructor
  · intro longer
    obtain ⟨row, rest, shape⟩ := exists_cons_of_length_pos
      (l := (remaining tables query cursor).drop query.limit.toNat)
      (by rw [length_drop]; omega)
    have dropped : row ∈ (remaining tables query cursor).drop query.limit.toNat := by
      rw [shape]
      exact mem_cons_self
    have kept := mem_filter.mp (mem_of_mem_drop dropped)
    refine ⟨row, kept.1, kept.2, ?_⟩
    intro taken
    rw [← take_append_drop query.limit.toNat (remaining tables query cursor)] at sorted
    exact lt_irrefl _ ((pairwise_append.mp sorted).2.2 row taken row dropped)
  · rintro ⟨row, member, after, missing⟩
    by_contra short
    apply missing
    rw [retained, take_of_length_le (Nat.le_of_not_lt short)]
    exact mem_filter.mpr ⟨member, after⟩

theorem nextCursor_iff (positive : 0 < query.limit.toNat)
    (read : getChannelWindowOn parse tables query cursor = .ok window) :
    window.nextCursor.isSome = window.hasMore := by
  have spec := windowOf_read read
  rw [spec.nextCursor, spec.hasMore]
  by_cases longer : query.limit.toNat < (remaining tables query cursor).length
  · have some_retained : (remaining tables query cursor).take query.limit.toNat ≠ [] := by
      apply ne_nil_of_length_pos
      rw [length_take]
      omega
    rw [if_pos longer, decide_eq_true longer, Option.isSome_map,
      getLast?_eq_some_getLast some_retained]
    rfl
  · rw [if_neg longer, decide_eq_false longer]
    rfl

end windows

/-- Paging gives each row that can be rebuilt, in order and once. -/
theorem windows_tile (parse : EventRow → Option Event) (tables : Tables) (query : Query)
    (positive : 1 ≤ query.limit.toNat) (fit : KindsFit tables) :
    (∃ windows, Follows parse tables query none windows) ∧
    (∀ windows, Follows parse tables query none windows →
      (windows.flatMap ChannelWindow.rows).map ChannelWindowRow.storedEvent =
        (topLevelRows tables query).filterMap (JoinedRow.rebuilt parse)) ∧
    (∀ row, row ∈ topLevelRows tables query ↔
      row ∈ tables.joined ∧ row.topLevel query) ∧
    InOrder JoinedRow.key (topLevelRows tables query) ∧
    ∀ cursor window, getChannelWindowOn parse tables query cursor = .ok window →
      window.nextCursor.isSome = window.hasMore ∧
      (window.hasMore ↔ ∃ row ∈ topLevelRows tables query,
        row.afterCursor cursor ∧ row ∉ retained tables query cursor) := by
  refine ⟨?_, ?_, fun row => mem_topLevelRows, topLevelRows_inOrder tables query, ?_⟩
  · exact follows_exists parse fit positive _ le_rfl (nil_append _).symm rfl
  · exact fun windows follows => follows.events positive (nil_append _).symm rfl
  · exact fun cursor window read => ⟨nextCursor_iff positive read, hasMore_iff read⟩

/-- The deserialization of rows without tags. -/
def sampleParse (row : EventRow) : Option Event :=
  if id : row.id.length = 32 then
    if pubkey : row.pubkey.length = 32 then
      if row.sig.length = 64 then
        some ⟨⟨row.id, id⟩, ⟨row.pubkey, pubkey⟩, (row.createdAt / 1000000).toNat,
          UInt16.ofNat row.kind.toNat, [], row.content, row.sig⟩
      else none
    else none
  else none

def sampleQuery : Query := ⟨⟨.fill 1⟩, .fill 2, 1, none⟩

def sampleRow (idLength : ℕ) : EventRow :=
  ⟨sampleQuery.communityId, replicate idLength 3, replicate 32 4, 1767225600000000, 9,
    .array [], "hello", replicate 64 5, some sampleQuery.channelId, none⟩

def sampleTables (idLength : ℕ) : Tables :=
  ⟨[sampleRow idLength], [], nodup_singleton _, nodup_nil⟩

theorem sampleTables_fit (idLength : ℕ) : KindsFit (sampleTables idLength) := by
  intro event member
  rw [mem_singleton.mp member]
  change (0 : ℤ) ≤ 9 ∧ (9 : ℤ) ≤ 65535
  decide

theorem windows_tile_sample : ∃ windows,
    Follows sampleParse (sampleTables 32) sampleQuery none windows ∧
      (windows.flatMap ChannelWindow.rows).map ChannelWindowRow.storedEvent =
        (topLevelRows (sampleTables 32) sampleQuery).filterMap (JoinedRow.rebuilt sampleParse) := by
  obtain ⟨⟨windows, follows⟩, rows, -⟩ :=
    windows_tile sampleParse (sampleTables 32) sampleQuery (by decide) (sampleTables_fit 32)
  exact ⟨windows, follows, rows windows follows⟩

/-- A row whose id is too short to be one is in no window. -/
theorem not_all_listed : ¬ ∀ (parse : EventRow → Option Event) (tables : Tables) (query : Query)
    (windows : List ChannelWindow), Follows parse tables query none windows →
      (windows.flatMap ChannelWindow.rows).length = (topLevelRows tables query).length := by
  intro always
  obtain ⟨windows, follows⟩ := follows_exists sampleParse (sampleTables_fit 31)
    (show 0 < sampleQuery.limit.toNat by decide) _ le_rfl (nil_append _).symm rfl
  have listed := always _ _ _ windows follows
  have events := follows.events (by decide) (nil_append _).symm rfl
  have damaged : (topLevelRows (sampleTables 31) sampleQuery).filterMap
      (JoinedRow.rebuilt sampleParse) = [] := by
    apply filterMap_eq_nil_iff.mpr
    intro row member
    have joined := (mem_topLevelRows.mp member).1
    rw [mem_singleton.mp joined]
    rfl
  rw [damaged, map_eq_nil_iff] at events
  rw [events, length_nil] at listed
  have present : ⟨sampleRow 31, none⟩ ∈ topLevelRows (sampleTables 31) sampleQuery :=
    mem_topLevelRows.mpr ⟨mem_singleton_self _, rfl⟩
  rw [length_eq_zero_iff.mp listed.symm] at present
  cases present

end Buzz.Thread.Windows
