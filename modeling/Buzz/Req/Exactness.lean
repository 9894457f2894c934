import Buzz.Req.Count
import Buzz.Req.Reading

/-! COUNT against the events that it should count. -/

namespace Buzz.Req

open Nostr Buzz.Subscription List
open Option (all_some any_some)
open Bool (and_eq_true false_eq_true or_eq_true)

section visibility

variable {filter : Filter} {stored : StoredEvent} {pubkey : PublicKey}

theorem mem_hexEncode {bytes : Bytes} {c : Char} (member : c ∈ hexEncode bytes) :
    ∃ n < 16, c = hexDigit n := by
  obtain ⟨byte, -, inside⟩ := mem_flatMap.mp member
  have bound := byte.toNat_lt
  rcases mem_pair.mp inside with rfl | rfl
  · exact ⟨byte.toNat / 16, by omega, rfl⟩
  · exact ⟨byte.toNat % 16, by omega, rfl⟩

theorem toLower_hex (key : PublicKey) :
    key.toHex.toList.map Char.toLower = key.toHex.toList := by
  have digits : ∀ n < 16, (hexDigit n).toLower = hexDigit n := by decide
  have kept : ∀ c ∈ key.toHex.toList, c.toLower = id c := by
    intro c member
    rw [FixedBytes.toHex, String.toList_ofList] at member
    obtain ⟨n, bound, rfl⟩ := mem_hexEncode member
    exact digits n bound
  calc key.toHex.toList.map Char.toLower = key.toHex.toList.map id := map_congr_left kept
    _ = key.toHex.toList := map_id _

theorem eqIgnoreAsciiCase_hex {first second : PublicKey}
    (same : eqIgnoreAsciiCase first.toHex second.toHex) : first = second := by
  rw [eqIgnoreAsciiCase, toLower_hex, toLower_hex] at same
  exact toHex_injective (String.toList_inj.mp (eq_of_beq same))

section

variable (matched : Matched filter stored)

include matched

theorem Matched.kind_not_mem {gated : List ℕ}
    (cannot : canMatchKinds gated filter = false) : eventKindU32 stored.event ∉ gated := by
  intro member
  unfold canMatchKinds at cannot
  cases present : filter.kinds with
  | none => simp [present] at cannot
  | some kinds =>
    rw [present, all_some, any_eq_false] at cannot
    exact cannot _ (matched.kinds kinds present) (contains_iff_mem.mpr member)

theorem Matched.author
    (isReader : authorsAreReader filter pubkey.toHex) : stored.event.pubkey = pubkey := by
  rw [authorsAreReader, Option.any_eq_true] at isReader
  obtain ⟨authors, present, only⟩ := isReader
  have every := (Bool.and_eq_true_iff.mp only).2
  exact eqIgnoreAsciiCase_hex (all_eq_true.mp every _ (matched.authors authors present))

theorem Matched.reader_tagged (isReader : pTagIsReader filter pubkey.toHex) :
    pubkey.toHex ∈ tagContents "p" stored.event.tags := by
  rw [pTagIsReader, Option.any_eq_true] at isReader
  obtain ⟨values, present, only⟩ := isReader
  have every := (Bool.and_eq_true_iff.mp only).2
  obtain ⟨value, member, tagged⟩ := matched.tagged present (by decide)
  have same : value = pubkey.toHex := eq_of_beq (all_eq_true.mp every value member)
  exact same ▸ tagged

theorem Matched.visible (fast : countsInSql filter pubkey.toHex) :
    eventVisibleToReader stored.event pubkey := by
  simp only [countsInSql, and_eq_true, or_eq_true, Bool.not_eq_true',
    Bool.and_eq_false_iff, Bool.not_eq_false'] at fast
  obtain ⟨⟨⟨-, authors⟩, results⟩, shared⟩ := fast
  have notAuthorOnly : isAuthorOnlyEvent stored.event pubkey = false := by
    rcases authors with cannot | isReader
    · have outside := matched.kind_not_mem cannot
      simp [isAuthorOnlyEvent, outside]
    · simp [isAuthorOnlyEvent, matched.author isReader]
  have notUnshared : isUnsharedGatedEvent stored.event pubkey = false := by
    have outside := matched.kind_not_mem shared
    simp [isUnsharedGatedEvent, isSharedGatedKind, outside]
  have authorized : readerAuthorizedForEvent stored.event pubkey.toHex := by
    unfold readerAuthorizedForEvent
    split
    · rfl
    next gated =>
      rcases results with cannot | isReader
      · have outside := matched.kind_not_mem cannot
        simp only [resultGatedKinds, mem_cons, not_mem_nil, or_false, not_or] at outside
        exact absurd outside gated
      · exact contains_iff_mem.mpr (matched.reader_tagged isReader)
  exact eventVisibleToReader_iff.mpr ⟨notAuthorOnly, notUnshared, authorized⟩

end

end visibility

section counting

variable {rows : List EventRow} {q : EventQuery}

theorem selects_of_matchesNothing (nothing : q.matchesNothing) (row : EventRow) :
    q.selects row = false := by
  have refuted {T : Type} {values : Option (List T)} {kept : List T → Bool}
      (empty : values.any List.isEmpty) (passes : values.all kept) :
      kept [] := by
    obtain ⟨list, present, isEmpty⟩ := (Option.any_eq_true ..).mp empty
    rw [present, all_some, List.isEmpty_iff.mp isEmpty] at passes
    exact passes
  rw [Bool.eq_false_iff]
  intro selected
  simp only [EventQuery.selects, and_eq_true] at selected
  obtain ⟨⟨⟨⟨⟨⟨⟨⟨-, byKind⟩, -⟩, byAuthor⟩, byId⟩, byTag⟩, -⟩, -⟩, -⟩ := selected
  simp only [EventQuery.matchesNothing, or_eq_true] at nothing
  rcases nothing with ((kinds | authors) | ids) | tags
  · exact absurd (refuted kinds byKind) (by simp)
  · exact absurd (refuted authors byAuthor) (by simp)
  · exact absurd (refuted ids byId) (by simp)
  · exact absurd (refuted tags byTag) (by simp)

theorem countP_of_matchesNothing (nothing : q.matchesNothing) (kept : EventRow → Bool) :
    rows.countP (fun row => q.selects row && kept row) = 0 := by
  rw [countP_eq_zero]
  intro row _
  rw [selects_of_matchesNothing nothing, Bool.false_and]
  exact Bool.false_ne_true

variable {n : ℕ}

theorem countEventsOn_ok (answered : countEventsOn rows q = .ok n) :
    n = rows.countP q.selects := by
  unfold countEventsOn at answered
  split at answered
  next nothing =>
    have none := @countP_of_matchesNothing rows _ nothing fun _ => true
    simp only [Bool.and_true] at none
    rw [none]
    exact (Except.ok.inj answered).symm
  · split at answered
    · cases answered
    · exact (Except.ok.inj answered).symm

theorem queryEventsOn_ok {events : List StoredEvent} (answered : queryEventsOn rows q = .ok events)
    (small : (events.length : ℤ) < q.limitVal) (kept : StoredEvent → Bool) :
    events.countP kept =
      rows.countP fun row => q.selects row && (q.sharedClause row && kept row.stored) := by
  unfold queryEventsOn at answered
  split at answered
  next nothing =>
    rw [countP_of_matchesNothing nothing, ← Except.ok.inj answered]
    rfl
  · split at answered
    · cases answered
    · split at answered
      · cases answered
      · rw [← Except.ok.inj answered] at small ⊢
        have whole {events : List StoredEvent}
            (cut : ((events.take q.limitVal.toNat).length : ℤ) < q.limitVal) :
            events.take q.limitVal.toNat = events := by
          apply take_of_length_le
          rw [length_take] at cut
          omega
        rw [whole small, (mergeSort_perm _ _).countP_eq, countP_map, countP_filter]
        apply countP_congr
        intro row _
        simp only [Function.comp_apply, and_eq_true]
        tauto

def counts (pubkey : PublicKey) (filter : Filter) (q : EventQuery) (row : EventRow) : Bool :=
  q.selects row &&
    (countsInSql filter pubkey.toHex ||
      filtersMatch [filter] row.stored && eventVisibleToReader row.stored.event pubkey)

variable {pubkey : PublicKey}

theorem sharedClause_of_visible {row : EventRow}
    (reader : ∀ key, q.sharedGatedReader = some key → key = pubkey)
    (visible : eventVisibleToReader row.stored.event pubkey) : q.sharedClause row := by
  unfold EventQuery.sharedClause
  rw [all_option_iff]
  intro key present
  rw [reader key present]
  have shared := (eventVisibleToReader_iff.mp visible).2.1
  simp only [isUnsharedGatedEvent, Bool.and_eq_false_iff, decide_eq_false_iff_not, not_not,
    Bool.not_eq_false'] at shared
  rcases shared with (ungated | own) | isShared
  · simp [ungated]
  · simp [own]
  · have counted := of_decide_eq_true isShared
    obtain ⟨tag, member, exactShape⟩ := exists_shared_of_countShared counted Nat.one_pos
    have contained : tagsContain row.stored.event.tags ["shared", "true"] := by
      rw [tagsContain, List.any_eq_true]
      exact ⟨tag, member, by simp [exactShape]⟩
    simp [contained]

def fallbackQuery (pubkey : PublicKey) (filter : Filter) (q : EventQuery) : EventQuery :=
  applyCountFallbackLimit (pushSharedGatedReader filter pubkey q)

theorem fallbackQuery_limitVal (pubkey : PublicKey) (filter : Filter) (q : EventQuery) :
    (fallbackQuery pubkey filter q).limitVal = 5001 := by
  unfold fallbackQuery pushSharedGatedReader
  cases filterCanMatchSharedGatedKinds filter <;> rfl

theorem fallbackQuery_limited (pubkey : PublicKey) (filter : Filter) (q : EventQuery) :
    0 ≤ (fallbackQuery pubkey filter q).limitVal := by
  rw [fallbackQuery_limitVal]
  decide

theorem fallbackQuery_selects (pubkey : PublicKey) (filter : Filter) (q : EventQuery)
    (row : EventRow) : (fallbackQuery pubkey filter q).selects row = q.selects row := by
  unfold fallbackQuery pushSharedGatedReader
  cases filterCanMatchSharedGatedKinds filter <;> rfl

variable {filter : Filter}

theorem fallbackQuery_reader (plain : q.sharedGatedReader = none) (key : PublicKey)
    (reader : (fallbackQuery pubkey filter q).sharedGatedReader = some key) : key = pubkey := by
  unfold fallbackQuery pushSharedGatedReader at reader
  split at reader
  · exact (Option.some.inj reader).symm
  · cases plain.symm.trans reader

theorem pushSharedGatedReader_selects (filter : Filter) (pubkey : PublicKey) (q : EventQuery)
    (row : EventRow) : (pushSharedGatedReader filter pubkey q).selects row = q.selects row := by
  unfold pushSharedGatedReader
  cases filterCanMatchSharedGatedKinds filter <;> rfl

theorem countBySql_ok (answered : countBySql rows q = .ok n) :
    n = rows.countP q.selects := by
  unfold countBySql at answered
  split at answered
  next counted =>
    rw [← Except.ok.inj answered]
    exact countEventsOn_ok counted
  · cases answered

theorem countByFetching_ok (plain : q.sharedGatedReader = none)
    (answered : countByFetching pubkey rows filter (pushSharedGatedReader filter pubkey q) = .ok n) :
    n = rows.countP fun row => q.selects row &&
      (filtersMatch [filter] row.stored && eventVisibleToReader row.stored.event pubkey) := by
  unfold countByFetching at answered
  split at answered
  next events fetched =>
    split at answered
    · cases answered
    next bounded =>
      rw [← Except.ok.inj answered]
      have small : (events.length : ℤ) < (fallbackQuery pubkey filter q).limitVal := by
        simp only [countFallbackExceeded, decide_eq_true_eq, Nat.not_lt] at bounded
        rw [fallbackQuery_limitVal]
        unfold countFallbackCandidateLimit at bounded
        omega
      rw [queryEventsOn_ok fetched small]
      apply countP_congr
      intro row _
      simp only [and_eq_true]
      have same := fallbackQuery_selects pubkey filter q row
      constructor
      · rintro ⟨selected, -, kept⟩
        exact ⟨same ▸ selected, kept⟩
      · rintro ⟨selected, matched, visible⟩
        exact ⟨same.symm ▸ selected,
          sharedClause_of_visible (fallbackQuery_reader plain) visible, matched, visible⟩
  · cases answered

theorem countQuery_ok
    (plain : q.sharedGatedReader = none) (answered : countQuery pubkey rows filter q = .ok n) :
    n = rows.countP (counts pubkey filter q) := by
  unfold countQuery at answered
  unfold counts
  cases fast : countsInSql filter pubkey.toHex with
  | true =>
    simp only [fast, if_true] at answered
    simp only [Bool.true_or, Bool.and_true]
    rw [countBySql_ok answered]
    exact countP_congr fun row _ => by rw [pushSharedGatedReader_selects]
  | false =>
    simp only [fast, false_eq_true, if_false] at answered
    simp only [Bool.false_or]
    exact countByFetching_ok plain answered

def EventQuery.accepted (q : EventQuery) : Bool := q.matchesNothing || q.bindable

theorem pushSharedGatedReader_accepted (filter : Filter) (pubkey : PublicKey) (q : EventQuery) :
    (pushSharedGatedReader filter pubkey q).accepted = q.accepted := by
  unfold pushSharedGatedReader
  cases filterCanMatchSharedGatedKinds filter <;> rfl

theorem fallbackQuery_accepted (pubkey : PublicKey) (filter : Filter) (q : EventQuery) :
    (fallbackQuery pubkey filter q).accepted = q.accepted :=
  pushSharedGatedReader_accepted filter pubkey q

theorem countEventsOn_cases (rows : List EventRow) (q : EventQuery) :
    (q.accepted ∧ ∃ n, countEventsOn rows q = .ok n) ∨
      (q.accepted = false ∧ ∃ error, countEventsOn rows q = .error error) := by
  unfold EventQuery.accepted countEventsOn
  cases q.matchesNothing with
  | true => exact .inl ⟨rfl, 0, rfl⟩
  | false =>
    cases q.bindable with
    | true => exact .inl ⟨rfl, _, rfl⟩
    | false => exact .inr ⟨rfl, _, rfl⟩

theorem queryEventsOn_cases (rows : List EventRow) (limited : 0 ≤ q.limitVal) :
    (q.accepted ∧ ∃ events, queryEventsOn rows q = .ok events ∧
        events.length ≤ rows.length) ∨
      (q.accepted = false ∧ ∃ error, queryEventsOn rows q = .error error) := by
  unfold EventQuery.accepted queryEventsOn
  cases q.matchesNothing with
  | true => exact .inl ⟨rfl, [], rfl, Nat.zero_le _⟩
  | false =>
    cases q.bindable with
    | true =>
      refine .inl ⟨rfl, _, if_neg (Int.not_lt.mpr limited), ?_⟩
      rw [length_take, length_mergeSort, length_map]
      have fewer := length_filter_le
        (fun row => q.selects row && q.sharedClause row) rows
      omega
    | false => exact .inr ⟨rfl, _, rfl⟩

theorem accepted_of_countQuery_ok
    (answered : countQuery pubkey rows filter q = .ok n) : q.accepted := by
  unfold countQuery at answered
  cases fast : countsInSql filter pubkey.toHex with
  | true =>
    simp only [fast, if_true, countBySql] at answered
    split at answered
    next counted =>
      rw [← pushSharedGatedReader_accepted filter pubkey]
      rcases countEventsOn_cases rows (pushSharedGatedReader filter pubkey q) with
        ⟨accepted, -⟩ | ⟨-, error, failed⟩
      · exact accepted
      · cases counted.symm.trans failed
    · cases answered
  | false =>
    simp only [fast, false_eq_true, if_false, countByFetching] at answered
    split at answered
    next fetched =>
      rw [← fallbackQuery_accepted pubkey filter]
      rcases queryEventsOn_cases rows (fallbackQuery_limited pubkey filter q) with
        ⟨accepted, -⟩ | ⟨-, error, failed⟩
      · exact accepted
      · cases fetched.symm.trans failed
    · cases answered

theorem countQuery_isOk (accepted : q.accepted) (few : rows.length ≤ countFallbackCandidateLimit) :
    ∃ n, countQuery pubkey rows filter q = .ok n := by
  unfold countQuery
  cases fast : countsInSql filter pubkey.toHex with
  | true =>
    simp only [if_true, countBySql]
    rw [← pushSharedGatedReader_accepted filter pubkey] at accepted
    rcases countEventsOn_cases rows (pushSharedGatedReader filter pubkey q) with
      ⟨-, n, counted⟩ | ⟨refused, -⟩
    · exact ⟨n, by rw [counted]⟩
    · cases accepted.symm.trans refused
  | false =>
    simp only [false_eq_true, if_false, countByFetching]
    rw [← fallbackQuery_accepted pubkey filter] at accepted
    rcases queryEventsOn_cases rows (fallbackQuery_limited pubkey filter q) with
      ⟨-, events, fetched, fewer⟩ | ⟨refused, -⟩
    · have bounded : countFallbackExceeded events.length = false := by
        simp only [countFallbackExceeded, decide_eq_false_iff_not]
        omega
      rw [fallbackQuery] at fetched
      simp only [fetched, bounded, false_eq_true, if_false]
      exact ⟨_, rfl⟩
    · cases accepted.symm.trans refused

end counting

section plans

variable {parseUuid : String → Option Uuid}

def Caller.canAccess (caller : Caller) (token : Option (List Uuid)) (channelId : Uuid) :
    Bool :=
  tokenAllows token channelId &&
    (caller.accessible.any (·.contains channelId) ||
      caller.isMember channelId = some true)

/-- Unless the filter names one. -/
def listedChannels (parseUuid : String → Option Uuid) (accessible : List Uuid) (filter : Filter) :
    Option (List Uuid) :=
  match extractChannelFromFilter parseUuid filter with
  | some _ => none
  | none => some accessible

variable {channel : Uuid}

theorem extractChannelId_of_single {filter : Filter}
    (single : extractChannelFromFilter parseUuid filter = some channel) :
    extractChannelIdFromFilter parseUuid filter = some channel := by
  unfold extractChannelFromFilter at single
  unfold extractChannelIdFromFilter
  split at single
  next value only =>
    rw [only]
    simp [single]
  · cases single

variable {ids : List Uuid} {token : Option (List Uuid)}

theorem resolve_spec {caller : Caller}
    {member : Option Bool} (listed : caller.accessible = some ids)
    (asked : (ids.filter (tokenAllows token)).contains channel = false →
      caller.isMember channel = member) :
    (resolveRequestLocalAccess (ids.filter (tokenAllows token)) channel (tokenAllows token channel)
      member).isSome ↔ caller.canAccess token channel := by
  unfold resolveRequestLocalAccess Caller.canAccess
  rw [listed, any_some]
  cases allowed : tokenAllows token channel with
  | false => simp
  | true =>
    cases cached : ids.contains channel with
    | true =>
      have present : (ids.filter (tokenAllows token)).contains channel := by
        rw [contains_iff_mem, mem_filter]
        exact ⟨contains_iff_mem.mp cached, allowed⟩
      simp only [present, Bool.not_true, false_eq_true, if_false, if_true,
        Option.isSome_some, Bool.true_or, Bool.and_self]
    | false =>
      have missing : (ids.filter (tokenAllows token)).contains channel = false := by
        rw [Bool.eq_false_iff] at cached ⊢
        intro present
        rw [contains_iff_mem, mem_filter] at present
        exact cached (contains_iff_mem.mpr present.1)
      rw [missing, asked missing]
      match member with
      | none | some true | some false => simp

theorem planCount_spec {caller : Caller}
    {filter : Filter} {plan : CountPlan} (listed : caller.accessible = some ids)
    (planned : planCount parseUuid caller token (ids.filter (tokenAllows token)) filter = .ok plan) :
    (plan.query = some (scopedQuery filter (extractChannelIdFromFilter parseUuid filter)
        (listedChannels parseUuid (ids.filter (tokenAllows token)) filter) caller.communityId) ∧
      ∀ row, Selected filter (extractChannelIdFromFilter parseUuid filter)
          (listedChannels parseUuid (ids.filter (tokenAllows token)) filter) caller.communityId row →
        ∀ channel, row.stored.channelId = some channel → caller.canAccess token channel) ∨
      (plan.query = none ∧ ∃ channel,
        extractChannelIdFromFilter parseUuid filter = some channel ∧
          caller.canAccess token channel = false) := by
  unfold planCount at planned
  unfold listedChannels
  cases single : extractChannelFromFilter parseUuid filter with
  | none =>
    rw [single] at planned
    rw [← Except.ok.inj planned]
    refine .inl ⟨rfl, fun row selected channel inChannel => ?_⟩
    have member := selected.accessible _ rfl channel inChannel
    obtain ⟨cached, allowed⟩ := mem_filter.mp member
    simp [Caller.canAccess, allowed, listed, cached]
  | some channel =>
    have named := extractChannelId_of_single single
    have resolved (member : Option Bool) (asked : (ids.filter (tokenAllows token)).contains channel =
        false → caller.isMember channel = member)
        (granted : ∀ repaired, resolveRequestLocalAccess (ids.filter (tokenAllows token)) channel
          (tokenAllows token channel) member = some repaired → plan.query =
            some (buildEventQueryFromFilter parseUuid filter caller.communityId))
        (refused : resolveRequestLocalAccess (ids.filter (tokenAllows token)) channel
          (tokenAllows token channel) member = none → plan.query = none) :
        (plan.query = some (scopedQuery filter (extractChannelIdFromFilter parseUuid filter) none
          caller.communityId) ∧ caller.canAccess token channel) ∨
        (plan.query = none ∧ caller.canAccess token channel = false) := by
      have access := resolve_spec listed asked
      cases found : resolveRequestLocalAccess (ids.filter (tokenAllows token)) channel
          (tokenAllows token channel) member with
      | some repaired =>
        rw [found, Option.isSome_some] at access
        exact .inl ⟨granted repaired found, access.mp rfl⟩
      | none =>
        rw [found, Option.isSome_none] at access
        refine .inr ⟨refused found, Bool.eq_false_iff.mpr fun readable => ?_⟩
        cases access.mpr readable
    have outcome : (plan.query = some (scopedQuery filter
          (extractChannelIdFromFilter parseUuid filter) none caller.communityId) ∧
          caller.canAccess token channel) ∨
        (plan.query = none ∧ caller.canAccess token channel = false) := by
      simp only [single] at planned
      split at planned
      next present =>
        refine resolved none ?_ ?_ ?_
        · intro missing
          cases present.symm.trans missing
        · intro repaired found
          rw [found] at planned
          rw [← Except.ok.inj planned]
        · intro found
          rw [found] at planned
          rw [← Except.ok.inj planned]
      · split at planned
        · cases planned
        next member answered =>
          refine resolved (some member) (fun _ => answered) ?_ ?_
          · intro repaired found
            rw [found] at planned
            rw [← Except.ok.inj planned]
          · intro found
            rw [found] at planned
            rw [← Except.ok.inj planned]
    rcases outcome with ⟨query, access⟩ | ⟨query, refused⟩
    · refine .inl ⟨query, fun row selected other inChannel => ?_⟩
      have same := (selected.inChannel channel named).symm.trans inChannel
      rw [← Option.some.inj same]
      exact access
    · exact .inr ⟨query, channel, named, refused⟩

end plans

section exactness

variable (parseUuid : String → Option Uuid)

def Caller.wanted (caller : Caller) (pubkey : PublicKey) (token : Option (List Uuid))
    (filter : Filter) (row : EventRow) : Bool :=
  row.communityId = caller.communityId && !row.deleted &&
    filtersMatch [filter] row.stored && row.stored.channelId.all (caller.canAccess token) &&
    eventVisibleToReader row.stored.event pubkey

/-- By SQL and by fetching alike. -/
structure CountExact (caller : Caller) (filter : Filter) (rows : List EventRow) : Prop where
  answer : ∀ store, store.Sublist rows → ∀ pubkey token, caller.authed = some (pubkey, token) →
    ∀ n, handleCount parseUuid caller store [filter] = .ok n →
      n = store.countP (caller.wanted pubkey token filter)
  paths : ∀ store, store.Sublist rows → ∀ pubkey token accessible plan query,
    admitCount caller [filter] = .ok (pubkey, token, accessible) →
      planCount parseUuid caller token accessible filter = .ok plan → plan.query = some query →
        countsInSql filter pubkey.toHex → ∀ n m,
          countBySql store (pushSharedGatedReader filter pubkey query) = .ok n →
            countByFetching pubkey store filter (pushSharedGatedReader filter pubkey query) = .ok m →
              n = m

/-- The SQL predicate passes it by, or the fast path counts it wrongly. -/
def Misread (caller : Caller) (pubkey : PublicKey) (token : Option (List Uuid))
    (accessible : List Uuid) (filter : Filter) (plan : CountPlan) (row : EventRow) : Prop :=
  (caller.wanted pubkey token filter row ∧
      Unread filter (extractChannelIdFromFilter parseUuid filter)
        (listedChannels parseUuid accessible filter) row) ∨
    (countsInSql filter pubkey.toHex ∧ plan.query.any (EventQuery.selects · row) ∧
      Unmet filter row)

/-- Or none of the rows is misread. -/
def ReadRight (caller : Caller) (filter : Filter) (rows : List EventRow) : Prop :=
  ∀ pubkey token accessible plan,
    admitCount caller [filter] = .ok (pubkey, token, accessible) →
      planCount parseUuid caller token accessible filter = .ok plan →
        plan.query.all EventQuery.accepted →
          ∀ row ∈ rows, ¬ Misread parseUuid caller pubkey token accessible filter plan row

variable {parseUuid} {caller : Caller} {filter : Filter} {rows : List EventRow}
  {pubkey : PublicKey} {token : Option (List Uuid)} {accessible : List Uuid}

theorem admitCount_ok {filters : List Filter}
    (admitted : admitCount caller filters = .ok (pubkey, token, accessible)) :
    caller.authed = some (pubkey, token) ∧
      ∃ ids, caller.accessible = some ids ∧ accessible = ids.filter (tokenAllows token) := by
  unfold admitCount at admitted
  split at admitted
  · cases admitted
  next key scope authed =>
    split at admitted
    · cases admitted
    · split at admitted
      · cases admitted
      · split at admitted
        · cases admitted
        · split at admitted
          · cases admitted
          next ids listed =>
            have same := Except.ok.inj admitted
            cases same
            exact ⟨authed, ids, listed, rfl⟩

variable {plan : CountPlan}

theorem handleCount_single (admitted : admitCount caller [filter] = .ok (pubkey, token, accessible))
    (planned : planCount parseUuid caller token accessible filter = .ok plan) :
    handleCount parseUuid caller rows [filter] =
      match plan.query with
      | none => .ok 0
      | some query => countQuery pubkey rows filter query := by
  unfold handleCount
  simp only [admitted, foldlM_cons, foldlM_nil, countFilter, planned]
  cases plan.query with
  | none => rfl
  | some query =>
    simp only []
    cases countQuery pubkey rows filter query with
    | error refusal => rfl
    | ok n =>
      simp only [Nat.zero_add]
      rfl

theorem admitted_of_handleCount_ok {n : ℕ}
    (answered : handleCount parseUuid caller rows [filter] = .ok n) :
    ∃ pubkey token accessible plan,
      admitCount caller [filter] = .ok (pubkey, token, accessible) ∧
        planCount parseUuid caller token accessible filter = .ok plan := by
  cases admitted : admitCount caller [filter] with
  | error refusal =>
    rw [handleCount, admitted] at answered
    cases answered
  | ok admission =>
    obtain ⟨pubkey, token, accessible⟩ := admission
    refine ⟨pubkey, token, accessible, ?_⟩
    cases planned : planCount parseUuid caller token accessible filter with
    | error refusal =>
      rw [handleCount, admitted] at answered
      simp only [foldlM_cons, countFilter, planned] at answered
      cases answered
    | ok plan => exact ⟨plan, rfl, rfl⟩

theorem handleCount_ok {n : ℕ}
    (admitted : admitCount caller [filter] = .ok (pubkey, token, accessible))
    (planned : planCount parseUuid caller token accessible filter = .ok plan)
    (plain : ∀ query, plan.query = some query → query.sharedGatedReader = none)
    (answered : handleCount parseUuid caller rows [filter] = .ok n) :
    plan.query.all EventQuery.accepted ∧
      n = rows.countP fun row => plan.query.any fun query => counts pubkey filter query row := by
  rw [handleCount_single admitted planned] at answered
  cases query : plan.query with
  | none =>
    rw [query] at answered
    rw [← Except.ok.inj answered]
    simp
  | some q =>
    rw [query] at answered
    exact ⟨accepted_of_countQuery_ok answered, countQuery_ok (plain q query) answered⟩

theorem wanted_iff {row : EventRow} :
    caller.wanted pubkey token filter row ↔
      row.communityId = caller.communityId ∧ row.deleted = false ∧ Matched filter row.stored ∧
        (∀ channel, row.stored.channelId = some channel → caller.canAccess token channel) ∧
        eventVisibleToReader row.stored.event pubkey := by
  simp only [Caller.wanted, and_eq_true, decide_eq_true_eq, Bool.not_eq_true',
    filtersMatch_iff, all_option_iff, and_assoc]

theorem counts_iff {q : EventQuery} {row : EventRow} :
    counts pubkey filter q row ↔ q.selects row ∧
      (countsInSql filter pubkey.toHex ∨
        Matched filter row.stored ∧ eventVisibleToReader row.stored.event pubkey) := by
  simp only [counts, and_eq_true, or_eq_true, filtersMatch_iff]

variable {ids : List Uuid}

theorem counted_eq_wanted_iff (listed : caller.accessible = some ids)
    (planned : planCount parseUuid caller token (ids.filter (tokenAllows token)) filter = .ok plan)
    (row : EventRow) :
    (plan.query.any fun query => counts pubkey filter query row) =
        caller.wanted pubkey token filter row ↔
      ¬ Misread parseUuid caller pubkey token (ids.filter (tokenAllows token)) filter plan row := by
  rcases planCount_spec listed planned with ⟨query, granted⟩ | ⟨query, channel, named, refused⟩
  · rw [query, any_some]
    constructor
    · intro same misread
      rcases misread with ⟨wanted, unread⟩ | ⟨fast, selected, unmet⟩
      · obtain ⟨community, live, matched, -⟩ := wanted_iff.mp wanted
        have selected := (counts_iff.mp (same.trans wanted)).1
        exact (matched.selected_iff community live).mp (selects_iff.mp selected) unread
      · rw [query, any_some] at selected
        have counted := counts_iff.mpr ⟨selected, .inl fast⟩
        have matched := (wanted_iff.mp (same.symm.trans counted)).2.2.1
        exact (selects_iff.mp selected).matched_iff.mp matched unmet
    · intro right
      rw [Bool.eq_iff_iff, counts_iff, wanted_iff]
      constructor
      · rintro ⟨selected, kept⟩
        have reads := selects_iff.mp selected
        have kept : Matched filter row.stored ∧
            eventVisibleToReader row.stored.event pubkey := by
          rcases kept with fast | kept
          · have matched : Matched filter row.stored := by
              rw [reads.matched_iff]
              intro unmet
              apply right
              exact .inr ⟨fast, by rw [query]; exact selected, unmet⟩
            exact ⟨matched, matched.visible fast⟩
          · exact kept
        exact ⟨reads.community, reads.live, kept.1, granted row reads, kept.2⟩
      · rintro ⟨community, live, matched, access, visible⟩
        have wanted := (@wanted_iff caller filter pubkey token row).mpr
          ⟨community, live, matched, access, visible⟩
        have reads := (matched.selected_iff community live).mpr fun unread =>
          right (.inl ⟨wanted, unread⟩)
        exact ⟨selects_iff.mpr reads, .inr ⟨matched, visible⟩⟩
  · rw [query, Option.any_none]
    constructor
    · intro same misread
      rcases misread with ⟨wanted, -⟩ | ⟨-, selected, -⟩
      · cases same.trans wanted
      · rw [query] at selected
        cases selected
    · intro right
      by_contra counted
      have wanted : caller.wanted pubkey token filter row := by
        simpa using Ne.symm counted
      apply right
      refine .inl ⟨wanted, .elsewhere channel named fun inChannel => ?_⟩
      have access := (wanted_iff.mp wanted).2.2.2.1 channel inChannel
      cases refused.symm.trans access

theorem planCount_plain (listed : caller.accessible = some ids)
    (planned : planCount parseUuid caller token (ids.filter (tokenAllows token)) filter = .ok plan)
    (query : EventQuery) (present : plan.query = some query) : query.sharedGatedReader = none := by
  rcases planCount_spec listed planned with ⟨built, -⟩ | ⟨missing, -⟩
  · rw [← Option.some.inj (built.symm.trans present)]
    rfl
  · cases missing.symm.trans present

theorem handleCount_row (admitted : admitCount caller [filter] = .ok (pubkey, token, accessible))
    (planned : planCount parseUuid caller token accessible filter = .ok plan)
    (accepted : plan.query.all EventQuery.accepted) (row : EventRow) :
    ∃ n, handleCount parseUuid caller [row] [filter] = .ok n := by
  rw [handleCount_single admitted planned]
  cases query : plan.query with
  | none => exact ⟨0, rfl⟩
  | some q =>
    rw [query, all_some] at accepted
    apply countQuery_isOk accepted
    rw [length_singleton]
    decide

theorem eq_of_countP_singleton {T : Type} {first second : T → Bool} {item : T}
    (same : [item].countP first = [item].countP second) : first item = second item := by
  rw [countP_singleton, countP_singleton] at same
  cases left : first item <;> cases right : second item <;> simp [left, right] at same ⊢

theorem accepted_of_countBySql_ok {query : EventQuery} {n : ℕ}
    (answered : countBySql rows (pushSharedGatedReader filter pubkey query) = .ok n) :
    query.accepted := by
  rw [← pushSharedGatedReader_accepted filter pubkey]
  rcases countEventsOn_cases rows (pushSharedGatedReader filter pubkey query) with
    ⟨accepted, -⟩ | ⟨-, error, failed⟩
  · exact accepted
  · rw [countBySql, failed] at answered
    cases answered

theorem exact_of_readRight (right : ReadRight parseUuid caller filter rows) :
    CountExact parseUuid caller filter rows where
  answer := by
    intro store drawn pubkey token authed n answered
    obtain ⟨key, scope, accessible, plan, admitted, planned⟩ := admitted_of_handleCount_ok answered
    obtain ⟨same, ids, listed, rfl⟩ := admitCount_ok admitted
    cases authed.symm.trans same
    obtain ⟨accepted, counted⟩ :=
      handleCount_ok admitted planned (planCount_plain listed planned) answered
    rw [counted]
    apply countP_congr
    intro row member
    rw [(counted_eq_wanted_iff listed planned row).mpr
      (right _ _ _ plan admitted planned accepted row (drawn.subset member))]
  paths := by
    intro store drawn pubkey token accessible plan query admitted planned present fast n m bySql
      fetched
    obtain ⟨-, ids, listed, rfl⟩ := admitCount_ok admitted
    have accepted : plan.query.all EventQuery.accepted := by
      rw [present]
      exact accepted_of_countBySql_ok bySql
    rw [countBySql_ok bySql, countByFetching_ok (planCount_plain listed planned query present) fetched]
    apply countP_congr
    intro row member
    rw [pushSharedGatedReader_selects]
    have same := (counted_eq_wanted_iff listed planned row).mpr
      (right _ _ _ plan admitted planned accepted row (drawn.subset member))
    rw [present, any_some, Bool.eq_iff_iff, counts_iff, wanted_iff] at same
    rw [and_eq_true, and_eq_true, filtersMatch_iff]
    constructor
    · intro selected
      obtain ⟨-, -, matched, -, visible⟩ := same.mp ⟨selected, .inl fast⟩
      exact ⟨selected, matched, visible⟩
    · exact (·.1)

theorem readRight_of_exact (exactly : CountExact parseUuid caller filter rows) :
    ReadRight parseUuid caller filter rows := by
  intro pubkey token accessible plan admitted planned accepted row member
  obtain ⟨authed, ids, listed, rfl⟩ := admitCount_ok admitted
  obtain ⟨n, answered⟩ := handleCount_row admitted planned accepted row
  have drawn : [row].Sublist rows := singleton_sublist.mpr member
  have right := exactly.answer [row] drawn pubkey token authed n answered
  have counted := (handleCount_ok admitted planned (planCount_plain listed planned) answered).2
  have same := eq_of_countP_singleton (counted.symm.trans right)
  exact (counted_eq_wanted_iff listed planned row).mp same

theorem count_exact_iff (parseUuid : String → Option Uuid) (caller : Caller) (filter : Filter)
    (rows : List EventRow) :
    CountExact parseUuid caller filter rows ↔ ReadRight parseUuid caller filter rows := by
  constructor
  · exact readRight_of_exact
  · exact exact_of_readRight

end exactness

def demoCommunity : CommunityId := ⟨.fill 7⟩

def demoKey : PublicKey := .fill 1

def demoCaller : Caller := ⟨demoCommunity, some (demoKey, none), some [], fun _ => some false⟩

def demoNote : EventRow where
  communityId := demoCommunity
  stored := ⟨⟨.fill 2, demoKey, 100, 1, [], "", []⟩, none⟩
  deleted := false
  mentioned := true
  dated := by decide

def lobbyFilter : Filter :=
  ⟨none, none, some [1], none, none, none, none, (∅ : AList _).insert hTag ["lobby"]⟩

/-- The filter still counts as fully pushed. -/
theorem unparsed_channel_counted :
    handleCount (fun _ => none) demoCaller [demoNote] [lobbyFilter] = .ok 1 ∧
      [demoNote].countP (demoCaller.wanted demoKey none lobbyFilter) = 0 := by
  constructor
  · rfl
  · decide

end Buzz.Req
