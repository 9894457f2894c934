import Buzz.Req.Exactness
import Buzz.Req.Historical

/-! The historical delivery of one filter against the newest events that its reader may see. -/

namespace Buzz.Req

open Nostr Buzz.Subscription Library.Page List

/-- An id is the hash of its event: a community stores an event once. -/
structure EventStore where
  rows : List EventRow
  keyed : rows.Pairwise fun first second =>
    first.communityId = second.communityId → first.stored.event.id ≠ second.stored.event.id

/-- `ORDER BY created_at DESC, id ASC` on rows. -/
def rowOrdered (first second : EventRow) : Bool := EventQuery.ordered first.stored second.stored

namespace ReqAdmission

variable (self : ReqAdmission) (filter : Filter)

/-- In an accessible channel or in none. -/
def shows (stored : StoredEvent) : Bool :=
  filtersMatch [filter] stored &&
    stored.channelId.all (fun chId => self.accessibleChannels.contains chId) &&
    eventVisibleToReader stored.event self.pubkey

def wants (community : CommunityId) (row : EventRow) : Bool :=
  row.communityId = community && !row.deleted && self.shows filter row.stored

end ReqAdmission

def askedFor (filter : Filter) : ℕ :=
  min (filter.limit.getD defaultMaxPageLimit.toNat) defaultMaxPageLimit.toNat

theorem ordered_iff {first second : StoredEvent} :
    EventQuery.ordered first second ↔
      second.event.createdAt < first.event.createdAt ∨
        first.event.createdAt = second.event.createdAt ∧
          first.event.id.val ≤ second.event.id.val := by
  simp only [EventQuery.ordered, Bool.or_eq_true, Bool.and_eq_true, decide_eq_true_eq]

theorem rowOrdered_totalOrder : TotalOrder rowOrdered where
  trans := by
    intro first second third before after
    unfold rowOrdered at before after ⊢
    rw [ordered_iff] at before after ⊢
    rcases before with newer | ⟨sameTime, smaller⟩
    · left
      omega
    · rcases after with newer | ⟨againTime, smallest⟩
      · left
        omega
      · exact .inr ⟨sameTime.trans againTime, List.le_trans smaller smallest⟩
  total := by
    intro first second
    rw [Bool.or_eq_true, rowOrdered, rowOrdered, ordered_iff, ordered_iff]
    have ids := List.le_total first.stored.event.id.val second.stored.event.id.val
    rcases Nat.lt_trichotomy first.stored.event.createdAt second.stored.event.createdAt with
      older | same | newer
    · exact .inr (.inl older)
    · rcases ids with smaller | larger
      · exact .inl (.inr ⟨same, smaller⟩)
      · exact .inr (.inr ⟨same.symm, larger⟩)
    · exact .inl (.inl newer)

theorem id_eq_of_tied {first second : EventRow} (before : rowOrdered first second)
    (after : rowOrdered second first) : first.stored.event.id = second.stored.event.id := by
  unfold rowOrdered at before after
  rw [ordered_iff] at before after
  have both : first.stored.event.id.val ≤ second.stored.event.id.val ∧
      second.stored.event.id.val ≤ first.stored.event.id.val := by
    rcases before with newer | ⟨sameTime, smaller⟩
    · omega
    · rcases after with older | ⟨-, larger⟩
      · omega
      · exact ⟨smaller, larger⟩
  exact Subtype.ext (List.le_antisymm both.1 both.2)

namespace EventStore

variable (self : EventStore)

theorem rows_nodup : self.rows.Nodup := by
  apply self.keyed.imp
  rintro first second distinct rfl
  exact distinct rfl rfl

variable {self} {first second : EventRow}

theorem eq_of_id (firstIn : first ∈ self.rows) (secondIn : second ∈ self.rows)
    (community : first.communityId = second.communityId)
    (id : first.stored.event.id = second.stored.event.id) : first = second := by
  by_contra distinct
  have symmetric : Std.Symm fun first second : EventRow =>
      first.communityId = second.communityId → first.stored.event.id ≠ second.stored.event.id :=
    ⟨fun first second apart same => (apart same.symm).symm⟩
  exact self.keyed.forall firstIn secondIn distinct community id

variable {kept : EventRow → Bool} {community : CommunityId}

theorem ranked (home : ∀ row, kept row → row.communityId = community) :
    Ranked rowOrdered (self.rows.filter kept) := by
  intro first firstIn second secondIn before after
  obtain ⟨firstStored, firstKept⟩ := mem_filter.mp firstIn
  obtain ⟨secondStored, secondKept⟩ := mem_filter.mp secondIn
  exact eq_of_id firstStored secondStored ((home first firstKept).trans (home second secondKept).symm)
    (id_eq_of_tied before after)

theorem page_ids_nodup {size : ℕ} (home : ∀ row, kept row → row.communityId = community) :
    (((page rowOrdered kept size self.rows).map EventRow.stored).map fun stored =>
      stored.event.id).Nodup := by
  rw [map_map]
  apply List.Nodup.map_on _ (page_nodup self.rows_nodup)
  intro first firstIn second secondIn same
  obtain ⟨firstStored, firstKept⟩ := mem_of_mem_page firstIn
  obtain ⟨secondStored, secondKept⟩ := mem_of_mem_page secondIn
  exact eq_of_id firstStored secondStored
    ((home first firstKept).trans (home second secondKept).symm) same

end EventStore

section pages

variable {rows : List EventRow} {q : EventQuery}

/-- The rows that a statement reads: none if the database refuses it. -/
def EventQuery.reads (q : EventQuery) (row : EventRow) : Bool :=
  q.bindable && 0 ≤ q.limitVal && (q.selects row && q.sharedClause row)

theorem queryEventsOn_page (rows : List EventRow) (q : EventQuery) :
    (queryEventsOn rows q).toOption.getD [] =
      (page rowOrdered q.reads q.limitVal.toNat rows).map EventRow.stored := by
  have unread (none : ∀ row, q.reads row = false) :
      (page rowOrdered q.reads q.limitVal.toNat rows).map EventRow.stored = [] := by
    rw [map_eq_nil_iff, eq_nil_iff_forall_not_mem]
    intro row member
    have kept := (mem_of_mem_page member).2
    rw [none row] at kept
    cases kept
  unfold queryEventsOn
  cases nothing : q.matchesNothing with
  | true =>
    rw [unread fun row => by
      rw [EventQuery.reads, selects_of_matchesNothing nothing, Bool.false_and, Bool.and_false]]
    rfl
  | false =>
    cases bindable : q.bindable with
    | false =>
      rw [unread fun row => by rw [EventQuery.reads, bindable, Bool.false_and, Bool.false_and]]
      rfl
    | true =>
      by_cases negative : q.limitVal < 0
      · have refused : decide (0 ≤ q.limitVal) = false := by simpa using negative
        rw [unread fun row => by rw [EventQuery.reads, refused, Bool.and_false, Bool.false_and]]
        simp [negative]
        rfl
      · have limited : decide (0 ≤ q.limitVal) := by simpa using negative
        have reads : q.reads = fun row => q.selects row && q.sharedClause row := by
          funext row
          rw [EventQuery.reads, bindable, limited, Bool.true_and, Bool.true_and]
        have sorted := map_mergeSort (r := rowOrdered) (s := EventQuery.ordered)
          (f := EventRow.stored)
          (l := rows.filter fun row => q.selects row && q.sharedClause row)
          fun _ _ _ _ => rfl
        rw [page, reads, map_take, sorted]
        simp [negative]
        rfl

end pages

variable {admission : ReqAdmission}

section sending

variable {filter : Filter}

theorem sendStored_eq (progress : DeliveryProgress) (stored : StoredEvent) :
    sendStored admission filter progress stored =
      if admission.shows filter stored && !progress.seenIds.contains stored.event.id then
        ⟨stored.event.id :: progress.seenIds, progress.sent ++ [stored]⟩
      else progress := by
  have channel : (stored.channelId.any fun chId =>
      !admission.accessibleChannels.contains chId) =
        !stored.channelId.all fun chId => admission.accessibleChannels.contains chId := by
    cases stored.channelId <;> simp
  unfold sendStored ReqAdmission.shows
  rw [channel]
  cases filtersMatch [filter] stored with
  | false => rfl
  | true =>
    cases stored.channelId.all fun chId => admission.accessibleChannels.contains chId with
    | false => rfl
    | true =>
      cases eventVisibleToReader stored.event admission.pubkey with
      | false => rfl
      | true => cases progress.seenIds.contains stored.event.id <;> rfl

theorem sent_of_fresh (events : List StoredEvent) (progress : DeliveryProgress)
    (distinct : (events.map (·.event.id)).Nodup)
    (fresh : ∀ stored ∈ events, stored.event.id ∉ progress.seenIds) :
    (events.foldl (sendStored admission filter) progress).sent =
      progress.sent ++ events.filter (admission.shows filter) := by
  induction events generalizing progress with
  | nil => simp
  | cons stored events ih =>
    rw [map_cons, nodup_cons] at distinct
    have new : progress.seenIds.contains stored.event.id = false := by
      simpa using fresh stored mem_cons_self
    rw [foldl_cons, sendStored_eq, new, filter_cons]
    cases admission.shows filter stored with
    | false =>
      simp only [Bool.false_and, Bool.false_eq_true, if_false]
      exact ih progress distinct.2 fun other member => fresh other (mem_cons_of_mem _ member)
    | true =>
      simp only [Bool.not_false, Bool.and_self, if_true]
      rw [ih _ distinct.2, append_assoc, singleton_append]
      intro other member seen
      rcases mem_cons.mp seen with same | before
      · exact distinct.1 (same ▸ mem_map_of_mem member)
      · exact fresh other (mem_cons_of_mem _ member) before

end sending

section access

variable {conn : ReqConnection} {parseUuid : String → Option Uuid} {subId : SubId}
  {filters : List Filter}

end access

section newest

variable (parseUuid : String → Option Uuid) (community : CommunityId) (admission : ReqAdmission)
  (filter : Filter)

/-- The channels that a query without a channel of its own is held to. -/
def ReqAdmission.listed : Option (List Uuid) :=
  if (perFilterChannel parseUuid admission filter).isNone then some admission.accessibleChannels
  else none

theorem historicalQuery_eq :
    historicalQuery parseUuid community admission filter =
      pushSharedGatedReader filter admission.pubkey
        (scopedQuery filter (perFilterChannel parseUuid admission filter)
          (admission.listed parseUuid filter) community) := by
  unfold historicalQuery applyAccessScopeToQuery ReqAdmission.listed scopedQuery
  cases perFilterChannel parseUuid admission filter <;> rfl

theorem historicalQuery_selects {row : EventRow} :
    (historicalQuery parseUuid community admission filter).selects row ↔
      Selected filter (perFilterChannel parseUuid admission filter)
        (admission.listed parseUuid filter) community row := by
  rw [historicalQuery_eq, pushSharedGatedReader_selects, selects_iff]

theorem historicalQuery_reader (key : PublicKey)
    (reader : (historicalQuery parseUuid community admission filter).sharedGatedReader = some key) :
    key = admission.pubkey := by
  rw [historicalQuery_eq, pushSharedGatedReader] at reader
  split at reader
  · exact (Option.some.inj reader).symm
  · cases reader

theorem pushSharedGatedReader_limitVal (pubkey : PublicKey) (q : EventQuery) :
    (pushSharedGatedReader filter pubkey q).limitVal = q.limitVal := by
  unfold pushSharedGatedReader
  cases filterCanMatchSharedGatedKinds filter <;> rfl

theorem clamp_twice (narrow : ℕ → ℤ) (bound : ℤ) (limit : Option ℕ) :
    min ((limit.map fun l => min (narrow l) bound).getD bound) bound =
      min ((limit.map narrow).getD bound) bound := by
  cases limit with
  | none => rfl
  | some l => exact (Int.min_assoc _ bound bound).trans (congrArg _ (Int.min_self bound))

theorem toNat_clamp_le {narrow : ℕ → ℤ} (narrower : ∀ l, narrow l ≤ l) (bound : ℤ)
    (limit : Option ℕ) :
    (min ((limit.map narrow).getD bound) bound).toNat ≤
      min (limit.getD bound.toNat) bound.toNat := by
  cases limit with
  | none => simp
  | some l =>
    have smaller := narrower l
    simp only [Option.map_some, Option.getD_some]
    omega

theorem asI64_le (value : ℕ) : asI64 value ≤ value := by
  unfold asI64
  dsimp only
  split <;> omega

theorem historicalQuery_limitVal :
    (historicalQuery parseUuid community admission filter).limitVal =
      min ((filter.limit.map asI64).getD defaultMaxPageLimit) defaultMaxPageLimit := by
  rw [historicalQuery_eq, pushSharedGatedReader_limitVal]
  exact clamp_twice asI64 defaultMaxPageLimit filter.limit

theorem historicalQuery_limit_le :
    (historicalQuery parseUuid community admission filter).limitVal.toNat ≤ askedFor filter := by
  rw [historicalQuery_limitVal]
  exact toNat_clamp_le asI64_le defaultMaxPageLimit filter.limit

/-- The statement is refused, the limit wraps around, or newer rows fill the page. -/
inductive Starved (store : EventStore) (row : EventRow) : Prop
  | refused (unbindable : (historicalQuery parseUuid community admission filter).bindable = false)
  | wrapped (negative : (historicalQuery parseUuid community admission filter).limitVal < 0)
  | crowded (full : (historicalQuery parseUuid community admission filter).limitVal.toNat ≤
      store.rows.countP fun other =>
        (historicalQuery parseUuid community admission filter).selects other &&
          (historicalQuery parseUuid community admission filter).sharedClause other &&
            !rowOrdered row other)

/-- The newest events that the reader may see, as many as the filter asks for. -/
def newestVisible (store : EventStore) : List EventRow :=
  page rowOrdered (admission.wants filter community) (askedFor filter) store.rows

/-- None of the newest is kept off the page. -/
structure PageComplete (store : EventStore) : Prop where
  read : ∀ row ∈ store.rows, admission.wants filter community row →
    ¬ Unread filter (perFilterChannel parseUuid admission filter)
      (admission.listed parseUuid filter) row
  fed : ∀ row ∈ newestVisible community admission filter store,
    ¬ Starved parseUuid community admission filter store row

variable {parseUuid} {community} {admission} {filter} {store : EventStore} {row : EventRow}

theorem wants_iff :
    admission.wants filter community row ↔
      row.communityId = community ∧ row.deleted = false ∧
        admission.shows filter row.stored := by
  simp only [ReqAdmission.wants, Bool.and_eq_true, decide_eq_true_eq, Bool.not_eq_true', and_assoc]

theorem wants_matched (wants : admission.wants filter community row) :
    Matched filter row.stored ∧ eventVisibleToReader row.stored.event admission.pubkey := by
  have shows := (wants_iff.mp wants).2.2
  simp only [ReqAdmission.shows, Bool.and_eq_true, filtersMatch_iff] at shows
  exact ⟨shows.1.1, shows.2⟩

theorem selected_iff_of_wants (wants : admission.wants filter community row) :
    ((historicalQuery parseUuid community admission filter).selects row &&
        (historicalQuery parseUuid community admission filter).sharedClause row) ↔
      ¬ Unread filter (perFilterChannel parseUuid admission filter)
        (admission.listed parseUuid filter) row := by
  obtain ⟨home, live, -⟩ := wants_iff.mp wants
  obtain ⟨matched, visible⟩ := wants_matched wants
  have shared := sharedClause_of_visible
    (historicalQuery_reader parseUuid community admission filter) visible
  rw [shared, Bool.and_true, historicalQuery_selects]
  exact matched.selected_iff home live

theorem reads_home
    (reads : (historicalQuery parseUuid community admission filter).reads row) :
    row.communityId = community ∧ row.deleted = false := by
  simp only [EventQuery.reads, Bool.and_eq_true] at reads
  have selected := (historicalQuery_selects parseUuid community admission filter).mp reads.2.1
  exact ⟨selected.community, selected.live⟩

variable {conn : ReqConnection}

theorem handleReq_single {subId : SubId} (pushable : filterFullyPushable filter)
    (admitted : admitReq conn parseUuid subId [filter] = .ok admission) :
    handleReq parseUuid conn store.rows subId [filter] =
      .historical (((page rowOrdered
        (historicalQuery parseUuid conn.communityId admission filter).reads
        (historicalQuery parseUuid conn.communityId admission filter).limitVal.toNat
        store.rows).filter (admission.wants filter conn.communityId)).map EventRow.stored) := by
  have plain : filter.search = none := by
    rw [filterFullyPushable, Bool.and_eq_true, Option.isNone_iff_eq_none] at pushable
    exact pushable.2
  have events := queryEventsOn_page store.rows
    (historicalQuery parseUuid conn.communityId admission filter)
  have sent : (deliverHistorical parseUuid conn.communityId admission store.rows ⟨[], []⟩
      [filter]).sent = (((queryEventsOn store.rows
        (historicalQuery parseUuid conn.communityId admission filter)).toOption.getD []).foldl
          (sendStored admission filter) ⟨[], []⟩).sent := by
    rw [deliverHistorical]
    cases queryEventsOn store.rows (historicalQuery parseUuid conn.communityId admission filter) with
    | error error | ok events => rfl
  have home (row : EventRow)
      (reads : (historicalQuery parseUuid conn.communityId admission filter).reads row) :
      row.communityId = conn.communityId := (reads_home reads).1
  have shown : ((page rowOrdered
      (historicalQuery parseUuid conn.communityId admission filter).reads
      (historicalQuery parseUuid conn.communityId admission filter).limitVal.toNat
      store.rows).map EventRow.stored).filter (admission.shows filter) =
        ((page rowOrdered (historicalQuery parseUuid conn.communityId admission filter).reads
          (historicalQuery parseUuid conn.communityId admission filter).limitVal.toNat
          store.rows).filter (admission.wants filter conn.communityId)).map EventRow.stored := by
    rw [filter_map]
    apply congrArg
    apply filter_congr
    intro row member
    obtain ⟨community, live⟩ := reads_home (mem_of_mem_page member).2
    simp [ReqAdmission.wants, community, live]
  unfold handleReq
  rw [admitted]
  dsimp only
  rw [sent, events, sent_of_fresh _ _ (EventStore.page_ids_nodup home) fun _ _ => not_mem_nil,
    nil_append, shown]
  simp [plain]

theorem mem_newestVisible (member : row ∈ newestVisible community admission filter store) :
    row ∈ store.rows ∧ admission.wants filter community row :=
  mem_of_mem_page member

theorem mem_page_iff_not_starved (stored : row ∈ store.rows)
    (selected : ((historicalQuery parseUuid community admission filter).selects row &&
      (historicalQuery parseUuid community admission filter).sharedClause row)) :
    row ∈ page rowOrdered (historicalQuery parseUuid community admission filter).reads
        (historicalQuery parseUuid community admission filter).limitVal.toNat store.rows ↔
      ¬ Starved parseUuid community admission filter store row := by
  rw [mem_page_iff rowOrdered_totalOrder store.rows_nodup
    (EventStore.ranked fun row reads => (reads_home reads).1)]
  constructor
  · rintro ⟨-, reads, fewer⟩ starved
    simp only [EventQuery.reads, Bool.and_eq_true, decide_eq_true_eq] at reads
    cases starved with
    | refused unbindable => cases reads.1.1.symm.trans unbindable
    | wrapped negative => omega
    | crowded full =>
      apply Nat.not_lt.mpr full
      apply lt_of_le_of_lt _ fewer
      apply Nat.le_of_eq
      apply countP_congr
      intro other _
      simp [EventQuery.reads, reads.1.1, reads.1.2]
  · intro fed
    have bindable : (historicalQuery parseUuid community admission filter).bindable := by
      by_contra refused
      exact fed (.refused (Bool.eq_false_iff.mpr refused))
    have limited : 0 ≤ (historicalQuery parseUuid community admission filter).limitVal := by
      by_contra negative
      exact fed (.wrapped (Int.not_le.mp negative))
    have reads (other : EventRow) :
        (historicalQuery parseUuid community admission filter).reads other =
          ((historicalQuery parseUuid community admission filter).selects other &&
            (historicalQuery parseUuid community admission filter).sharedClause other) := by
      simp [EventQuery.reads, bindable, limited]
    refine ⟨stored, (reads row).trans selected, ?_⟩
    by_contra full
    simp only [reads] at full
    exact fed (.crowded (Nat.not_lt.mp full))

/-- The SQL predicate leaves out no visible event. -/
structure NewestDelivered (parseUuid : String → Option Uuid) (conn : ReqConnection) (subId : SubId)
    (admission : ReqAdmission) (filter : Filter) (store : EventStore) : Prop where
  delivered : handleReq parseUuid conn store.rows subId [filter] =
    .historical ((newestVisible conn.communityId admission filter store).map EventRow.stored)
  selected : ∀ row ∈ store.rows, admission.wants filter conn.communityId row →
    ((historicalQuery parseUuid conn.communityId admission filter).selects row &&
      (historicalQuery parseUuid conn.communityId admission filter).sharedClause row)

theorem delivered_iff {subId : SubId} (pushable : filterFullyPushable filter)
    (admitted : admitReq conn parseUuid subId [filter] = .ok admission) :
    handleReq parseUuid conn store.rows subId [filter] =
        .historical ((newestVisible conn.communityId admission filter store).map EventRow.stored) ↔
      ∀ row ∈ newestVisible conn.communityId admission filter store,
        row ∈ page rowOrdered (historicalQuery parseUuid conn.communityId admission filter).reads
          (historicalQuery parseUuid conn.communityId admission filter).limitVal.toNat
          store.rows := by
  have exactly := @filter_page_eq_iff _ rowOrdered
    (historicalQuery parseUuid conn.communityId admission filter).reads
    (admission.wants filter conn.communityId) (askedFor filter) store.rows rowOrdered_totalOrder _
    store.rows_nodup (EventStore.ranked fun row wants => (wants_iff.mp wants).1)
    (historicalQuery_limit_le parseUuid conn.communityId admission filter)
  rw [handleReq_single pushable admitted, ReqOutcome.historical.injEq]
  constructor
  · intro same row member
    have sent := mem_map_of_mem (f := EventRow.stored) member
    rw [← same] at sent
    obtain ⟨other, kept, stored⟩ := mem_map.mp sent
    obtain ⟨onPage, wants⟩ := mem_filter.mp kept
    obtain ⟨rowStored, rowWants⟩ := mem_newestVisible member
    have equal : other = row := EventStore.eq_of_id (mem_of_mem_page onPage).1 rowStored
      ((wants_iff.mp wants).1.trans (wants_iff.mp rowWants).1.symm) (by rw [stored])
    exact equal ▸ onPage
  · intro present
    rw [exactly.mpr present]
    rfl

theorem historical_newest_iff (parseUuid : String → Option Uuid) (conn : ReqConnection)
    (subId : SubId) (filter : Filter) (store : EventStore) (admission : ReqAdmission)
    (pushable : filterFullyPushable filter)
    (admitted : admitReq conn parseUuid subId [filter] = .ok admission) :
    NewestDelivered parseUuid conn subId admission filter store ↔
      PageComplete parseUuid conn.communityId admission filter store := by
  have onPage := @delivered_iff parseUuid admission filter store conn subId pushable admitted
  constructor
  · intro newest
    constructor
    · intro row stored wants
      exact (selected_iff_of_wants wants).mp (newest.selected row stored wants)
    · intro row member
      obtain ⟨stored, wants⟩ := mem_newestVisible member
      exact (mem_page_iff_not_starved stored (newest.selected row stored wants)).mp
        (onPage.mp newest.delivered row member)
  · intro complete
    have selected (row : EventRow) (stored : row ∈ store.rows)
        (wants : admission.wants filter conn.communityId row) :=
      (selected_iff_of_wants wants).mpr (complete.read row stored wants)
    constructor
    · apply onPage.mpr
      intro row member
      obtain ⟨stored, wants⟩ := mem_newestVisible member
      exact (mem_page_iff_not_starved stored (selected row stored wants)).mpr
        (complete.fed row member)
    · exact selected

end newest

def demoConnection : ReqConnection := ⟨demoCaller, [], []⟩

def demoReminder : EventRow where
  communityId := demoCommunity
  stored := ⟨⟨.fill 3, .fill 4, 200, 30300, [], "", []⟩, none⟩
  deleted := false
  mentioned := true
  dated := by decide

def demoStore : EventStore where
  rows := [demoNote, demoReminder]
  keyed := by
    rw [pairwise_pair]
    intro _
    decide

def newestFilter : Filter := ⟨none, none, some [1, 30300], none, none, none, some 1, ∅⟩

def demoAdmission : ReqAdmission := ⟨demoKey, [], none⟩

theorem demo_admitted :
    admitReq demoConnection (fun _ => none) "sub" [newestFilter] = .ok demoAdmission := rfl

theorem note_delivered :
    NewestDelivered (fun _ => none) demoConnection "sub" demoAdmission newestFilter
      ⟨[demoNote], pairwise_singleton _ _⟩ := by
  apply (historical_newest_iff _ _ _ _ _ _ rfl demo_admitted).mpr
  constructor
  · intro row _ _ unread
    cases unread with
    | wrapped latest bound present found after => cases present
    | elsewhere channel named other => cases named
    | unlisted ids listed channel inChannel missing =>
      rename_i stored _
      rw [mem_singleton.mp stored] at inChannel
      cases inChannel
    | unmentioned value present missing | misaddressed addressable values present other =>
      cases present
  · intro row member starved
    have note : row = demoNote := mem_singleton.mp (mem_newestVisible member).1
    cases starved with
    | refused unbindable => cases unbindable
    | wrapped negative => exact absurd negative (by decide)
    | crowded full =>
      rw [note] at full
      exact absurd full (by decide)

theorem reminder_starves_note :
    filterFullyPushable newestFilter ∧
      admitReq demoConnection (fun _ => none) "sub" [newestFilter] = .ok demoAdmission ∧
      ¬ NewestDelivered (fun _ => none) demoConnection "sub" demoAdmission newestFilter
        demoStore := by
  refine ⟨rfl, demo_admitted, ?_⟩
  intro newest
  have wanted : demoNote ∈ newestVisible demoConnection.communityId demoAdmission newestFilter
      demoStore := by
    rw [newestVisible, mem_page_iff rowOrdered_totalOrder demoStore.rows_nodup
      (EventStore.ranked fun row wants => (wants_iff.mp wants).1)]
    exact ⟨mem_cons_self, by decide⟩
  have onPage := (delivered_iff rfl demo_admitted).mp newest.delivered demoNote wanted
  rw [mem_page_iff rowOrdered_totalOrder demoStore.rows_nodup
    (EventStore.ranked fun row reads => (reads_home reads).1)] at onPage
  exact absurd onPage.2.2 (by decide)

end Buzz.Req
