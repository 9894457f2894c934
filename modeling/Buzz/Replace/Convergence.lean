import Buzz.Req.Reading
import Buzz.Replace.Calls

/-! Deliveries to one coordinate: the live row is a register of stamps. -/

namespace Buzz.Replace

open Nostr Buzz.Req Library.Page Library.Register List

structure Delivery where
  event : Event
  channelId : Option Uuid
  available : Bool

def Delivery.carried (self : Delivery) : Bool := self.available && (createdAtOf self.event).isSome

def carried (deliveries : List Delivery) : List Event :=
  (deliveries.filter Delivery.carried).map Delivery.event

namespace Coordinate

variable (self : Coordinate)

def deliver (store : Store) (delivery : Delivery) : Store × Except DbError Bool :=
  if delivery.available then
    match self.replace store delivery.event delivery.channelId with
    | .ok (next, wasInserted) => (next, .ok wasInserted)
    | .error error => (store, .error error)
  else (store, .error .unavailable)

def deliverAll (store : Store) (deliveries : List Delivery) : Store :=
  deliveries.foldl (fun store delivery => (self.deliver store delivery).1) store

def live (store : Store) : List Row := store.rows.filter self.selects

def marks (key : WatermarkKey) : Prop :=
  key.communityId = self.communityId ∧ key.kind = self.kind ∧ key.pubkey = self.pubkey ∧
    match self with
    | addressable .. => True
    | parameterized _ _ _ dTag => key.dTag = dTag

end Coordinate

/-- Deliveries of new events, by writers near their own clock. -/
structure Arrives (coordinate : Coordinate) (store : Store) (deliveries : List Delivery) :
    Prop where
  shared : ∀ delivery ∈ deliveries, coordinate.shares delivery.event
  timely : ∀ delivery ∈ deliveries, (delivery.event.createdAt : ℤ) < 9223372036854775808
  unheld : ∀ row ∈ store.rows, coordinate.holds row = false
  unstored : ∀ row ∈ store.rows, row.communityId = coordinate.communityId →
    ∀ delivery ∈ deliveries, row.event.id ≠ delivery.event.id
  unmarked : ∀ key, coordinate.marks key → store.watermarks key = none

/-- And nothing that an insert could run into. -/
structure Settled (coordinate : Coordinate) (store : Store) (events : List Event) : Prop where
  alone : (coordinate.live store).length ≤ 1
  keyed : ∀ row ∈ store.rows, row.communityId = coordinate.communityId →
    ∀ event ∈ events, row.event.id = event.id →
      Covers (store.existing coordinate.selects) row.stamp
  marked : ∀ key, coordinate.marks key → ∀ accepted ∈ store.watermarks key,
    Covers (store.existing coordinate.selects) accepted

variable {coordinate : Coordinate} {store : Store} {events : List Event}

section calls

variable {event : Event} {channelId : Option Uuid} {createdAt : ℤ} {row : Row} {stamp : Stamp}

theorem rowOf_stamp :
    (coordinate.rowOf event createdAt channelId).stamp = ⟨createdAt, event.id⟩ := by
  cases coordinate <;> rfl

theorem rowOf_event : (coordinate.rowOf event createdAt channelId).event = event := by
  cases coordinate <;> rfl

theorem rowOf_communityId :
    (coordinate.rowOf event createdAt channelId).communityId = coordinate.communityId := by
  cases coordinate <;> rfl

theorem selects_rowOf (shares : coordinate.shares event) :
    coordinate.selects (coordinate.rowOf event createdAt channelId) := by
  obtain ⟨kind, pubkey⟩ := shares
  cases coordinate with
  | addressable communityId _ _ channel | parameterized communityId _ _ dTag =>
    simp [Coordinate.selects, Coordinate.holds, Coordinate.rowOf, Coordinate.matchesRow,
      Coordinate.communityId, kind, pubkey]

variable {key : WatermarkKey}

theorem marks_of_readStateKey (shares : coordinate.shares event)
    (keyed : (coordinate.rowOf event createdAt channelId).readStateKey = some key) :
    coordinate.marks key := by
  obtain ⟨kind, pubkey⟩ := shares
  obtain ⟨dTag, tagged, marked⟩ := Option.bind_eq_some_iff.mp keyed
  split at marked
  · cases marked
    cases coordinate with
    | addressable communityId _ _ channel =>
      exact ⟨rfl, kind, pubkey, trivial⟩
    | parameterized communityId _ _ own =>
      cases tagged
      exact ⟨rfl, kind, pubkey, rfl⟩
  · cases marked

theorem selects_retired {other : Row}
    (member : other ∈ (store.retire coordinate.selects (coordinate.erases event)).rows) :
    coordinate.selects other = false := by
  rcases mem_retire member with ⟨-, unselected⟩ | ⟨row, -, -, -, rfl⟩
  · exact unselected
  · simp [Coordinate.selects]

theorem stored_rows : (store.stored coordinate row).rows =
    row :: (store.retire coordinate.selects (coordinate.erases row.event)).rows := by
  rw [Store.stored, raise_rows]

theorem stored_watermarks :
    (store.stored coordinate row).watermarks key =
      if row.readStateKey = some key then some row.stamp else store.watermarks key := by
  unfold Store.stored Store.raise
  cases row.readStateKey with
  | none => rfl
  | some own => simp only [Store.setWatermark, Store.retire, Option.some.injEq, eq_comm]

theorem live_stored (selected : coordinate.selects row) :
    coordinate.live (store.stored coordinate row) = [row] := by
  rw [Coordinate.live, stored_rows, filter_cons_of_pos selected, List.cons.injEq]
  refine ⟨rfl, filter_eq_nil_iff.mpr ?_⟩
  intro other member
  rw [selects_retired member]
  exact Bool.false_ne_true

theorem existing_of_live (single : coordinate.live store = [row]) :
    store.existing coordinate.selects = some row.stamp := by
  unfold Coordinate.live at single
  rw [Store.existing, page, single, mergeSort_singleton]
  rfl

theorem existing_of_live_nil (none_live : coordinate.live store = []) :
    store.existing coordinate.selects = none := by
  unfold Coordinate.live at none_live
  rw [Store.existing, page, none_live, mergeSort_nil]
  rfl

theorem sameKey_iff {first second : Row} : first.sameKey second ↔
    first.communityId = second.communityId ∧ first.stamp = second.stamp := by
  simp only [Row.sameKey, Bool.and_eq_true, decide_eq_true_eq]

variable (settled : Settled coordinate store events) (shares : coordinate.shares event)

include settled shares

theorem Settled.accepted_le
    (covered : Covers (store.accepted (coordinate.rowOf event createdAt channelId)) stamp) :
    Covers (store.existing coordinate.selects) stamp := by
  obtain ⟨accepted, found, smaller⟩ := covered
  obtain ⟨key, keyed, marked⟩ := Option.bind_eq_some_iff.mp found
  exact (settled.marked key (marks_of_readStateKey shares keyed) accepted marked).le smaller

theorem Settled.replaceAt (member : event ∈ events) :
    coordinate.replaceAt (some createdAt) store event channelId =
      if Covers (store.existing coordinate.selects) ⟨createdAt, event.id⟩ then .ok (store, false)
      else .ok (store.stored coordinate (coordinate.rowOf event createdAt channelId), true) := by
  rw [replaceAt_some shares]
  dsimp only
  rw [rowOf_stamp]
  by_cases covered : Covers (store.existing coordinate.selects) ⟨createdAt, event.id⟩
  · rw [if_pos (.inl covered), if_pos covered]
  · have passes : ¬ Covers (store.accepted (coordinate.rowOf event createdAt channelId))
        ⟨createdAt, event.id⟩ :=
      fun accepted => covered (settled.accepted_le shares accepted)
    rw [if_neg (not_or.mpr ⟨covered, fun both => passes both.2⟩), if_neg covered, if_neg passes,
      if_neg]
    intro conflict
    obtain ⟨other, retired, same⟩ := any_eq_true.mp conflict
    have keyed : ∃ row ∈ store.rows, row.communityId = other.communityId ∧
        row.stamp = other.stamp := by
      rcases mem_retire retired with ⟨within, -⟩ | ⟨row, within, -, -, rfl⟩
      · exact ⟨other, within, rfl, rfl⟩
      · exact ⟨row, within, rfl, rfl⟩
    obtain ⟨row, within, community, stamp⟩ := keyed
    rw [sameKey_iff, rowOf_communityId, rowOf_stamp, ← community, ← stamp] at same
    apply covered
    rw [same.2]
    exact settled.keyed row within same.1.symm event member (congrArg Stamp.id same.2.symm)

theorem Settled.stored
    (uncovered : ¬ Covers (store.existing coordinate.selects) ⟨createdAt, event.id⟩) :
    Settled coordinate (store.stored coordinate (coordinate.rowOf event createdAt channelId))
      events := by
  have single : coordinate.live
      (store.stored coordinate (coordinate.rowOf event createdAt channelId)) =
        [coordinate.rowOf event createdAt channelId] := live_stored (selects_rowOf shares)
  have below (stamp : Stamp) (covered : Covers (store.existing coordinate.selects) stamp) :
      stamp ≤ ⟨createdAt, event.id⟩ := covered.le_of_not_covers uncovered
  have existing := existing_of_live single
  rw [rowOf_stamp] at existing
  constructor
  · rw [single, length_singleton]
  · intro row member community other submitted same
    rw [existing, covers_some]
    rw [stored_rows, mem_cons] at member
    rcases member with rfl | retired
    · rw [rowOf_stamp]
    · rcases mem_retire retired with ⟨within, -⟩ | ⟨old, within, -, -, rfl⟩
      · exact below _ (settled.keyed row within community other submitted same)
      · exact below _ (settled.keyed old within community other submitted same)
  · intro key marks accepted marked
    rw [existing, covers_some]
    rw [Option.mem_def, stored_watermarks] at marked
    split at marked
    · rw [Option.some.injEq, rowOf_stamp] at marked
      rw [marked]
    · exact below _ (settled.marked key marks accepted marked)

end calls

section runs

variable {delivery : Delivery} {deliveries more : List Delivery}

def stampOf (event : Event) : Stamp := ⟨(createdAtOf event).getD 0, event.id⟩

theorem deliver_of_not_carried (dropped : delivery.carried = false) :
    ∃ error, coordinate.deliver store delivery = (store, .error error) := by
  unfold Coordinate.deliver
  by_cases available : delivery.available
  · rw [Delivery.carried, available, Bool.true_and, Option.isSome_eq_false_iff,
      Option.isNone_iff_eq_none] at dropped
    rw [if_pos available, replace_eq_replaceAt, dropped]
    cases coordinate with
    | addressable | parameterized => exact ⟨_, rfl⟩
  · rw [if_neg available]
    exact ⟨_, rfl⟩

section answers

variable (settled : Settled coordinate store events) (shares : coordinate.shares delivery.event)
  (member : delivery.event ∈ events)

include settled shares member

theorem Settled.deliver_of_carried (isCarried : delivery.carried) :
    coordinate.deliver store delivery =
      if Covers (store.existing coordinate.selects) (stampOf delivery.event) then
        (store, .ok false)
      else
        (store.stored coordinate (coordinate.rowOf delivery.event
          ((createdAtOf delivery.event).getD 0) delivery.channelId), .ok true) := by
  rw [Delivery.carried, Bool.and_eq_true] at isCarried
  obtain ⟨createdAt, dated⟩ := Option.isSome_iff_exists.mp isCarried.2
  rw [Coordinate.deliver, if_pos isCarried.1, replace_eq_replaceAt, stampOf, dated,
    settled.replaceAt shares member, Option.getD_some]
  by_cases covered : Covers (store.existing coordinate.selects) ⟨createdAt, delivery.event.id⟩
  · rw [if_pos covered, if_pos covered]
  · rw [if_neg covered, if_neg covered]

theorem Settled.deliver : Settled coordinate (coordinate.deliver store delivery).1 events := by
  cases isCarried : delivery.carried with
  | false =>
    obtain ⟨error, failed⟩ := @deliver_of_not_carried coordinate store delivery isCarried
    rw [failed]
    exact settled
  | true =>
    rw [settled.deliver_of_carried shares member isCarried]
    by_cases covered : Covers (store.existing coordinate.selects) (stampOf delivery.event)
    · rw [if_pos covered]
      exact settled
    · rw [if_neg covered]
      exact settled.stored shares covered

theorem Settled.existing_deliver :
    (coordinate.deliver store delivery).1.existing coordinate.selects =
      if delivery.carried then
        offer (store.existing coordinate.selects) (stampOf delivery.event)
      else store.existing coordinate.selects := by
  cases isCarried : delivery.carried with
  | false =>
    obtain ⟨error, failed⟩ := @deliver_of_not_carried coordinate store delivery isCarried
    rw [failed]
    rfl
  | true =>
    rw [settled.deliver_of_carried shares member isCarried, if_pos rfl]
    by_cases covered : Covers (store.existing coordinate.selects) (stampOf delivery.event)
    · rw [if_pos covered, offer_of_covers covered]
    · rw [if_neg covered, offer_of_not_covers covered]
      rw [existing_of_live (live_stored (selects_rowOf shares)), rowOf_stamp]
      rfl

end answers

theorem Arrives.settled (arrives : Arrives coordinate store deliveries) :
    Settled coordinate store (deliveries.map Delivery.event) := by
  have none_live : coordinate.live store = [] := by
    rw [Coordinate.live, filter_eq_nil_iff]
    intro row member
    rw [Coordinate.selects, arrives.unheld row member]
    exact Bool.false_ne_true
  constructor
  · rw [none_live]
    exact Nat.zero_le 1
  · intro row member community event submitted same
    obtain ⟨delivery, within, rfl⟩ := mem_map.mp submitted
    exact absurd same (arrives.unstored row member community delivery within)
  · intro key marks accepted marked
    rw [arrives.unmarked key marks] at marked
    cases marked

theorem live_deliverAll (settled : Settled coordinate store events)
    (shares : ∀ delivery ∈ deliveries, coordinate.shares delivery.event)
    (members : ∀ delivery ∈ deliveries, delivery.event ∈ events) :
    ∀ row ∈ coordinate.live (coordinate.deliverAll store deliveries),
      row ∈ coordinate.live store ∨
        row.event ∈ carried deliveries ∧ row.stamp = stampOf row.event := by
  induction deliveries generalizing store with
  | nil =>
    intro row live
    exact .inl live
  | cons delivery rest ih =>
    intro row live
    have share := shares delivery mem_cons_self
    have member := members delivery mem_cons_self
    have later := ih (settled.deliver share member)
      (fun other later => shares other (mem_cons_of_mem delivery later))
      (fun other later => members other (mem_cons_of_mem delivery later)) row live
    have grows (event : Event) (before : event ∈ carried rest) :
        event ∈ carried (delivery :: rest) := by
      obtain ⟨other, within, same⟩ := mem_map.mp before
      have kept := mem_filter.mp within
      exact mem_map.mpr ⟨other, mem_filter.mpr
        ⟨mem_cons_of_mem delivery kept.1, kept.2⟩, same⟩
    rcases later with here | ⟨before, same⟩
    · cases isCarried : delivery.carried with
      | false =>
        obtain ⟨error, failed⟩ := @deliver_of_not_carried coordinate store delivery isCarried
        rw [failed] at here
        exact .inl here
      | true =>
        rw [settled.deliver_of_carried share member isCarried] at here
        by_cases covered : Covers (store.existing coordinate.selects) (stampOf delivery.event)
        · rw [if_pos covered] at here
          exact .inl here
        · rw [if_neg covered, live_stored (selects_rowOf share), mem_singleton] at here
          right
          rw [here, rowOf_event, rowOf_stamp]
          exact ⟨mem_map.mpr ⟨delivery, mem_filter.mpr
            ⟨mem_cons_self, isCarried⟩, rfl⟩, rfl⟩
    · exact .inr ⟨grows row.event before, same⟩

theorem run_existing (settled : Settled coordinate store events)
    (shares : ∀ delivery ∈ deliveries, coordinate.shares delivery.event)
    (members : ∀ delivery ∈ deliveries, delivery.event ∈ events) :
    Settled coordinate (coordinate.deliverAll store deliveries) events ∧
      (coordinate.deliverAll store deliveries).existing coordinate.selects =
        ((carried deliveries).map stampOf).foldl offer (store.existing coordinate.selects) := by
  induction deliveries generalizing store with
  | nil => exact ⟨settled, rfl⟩
  | cons delivery rest ih =>
    have share := shares delivery mem_cons_self
    have member := members delivery mem_cons_self
    have step := ih (settled.deliver share member)
      (fun other later => shares other (mem_cons_of_mem delivery later))
      (fun other later => members other (mem_cons_of_mem delivery later))
    rw [Coordinate.deliverAll, foldl_cons]
    refine ⟨step.1, step.2.trans ?_⟩
    rw [settled.existing_deliver share member]
    unfold carried
    by_cases isCarried : delivery.carried
    · rw [if_pos isCarried, filter_cons_of_pos isCarried]
      rfl
    · rw [if_neg isCarried, filter_cons_of_neg isCarried]

def Newest (row : Row) (events : List Event) : Prop :=
  row.event ∈ events ∧ ∀ event ∈ events, event.createdAt < row.event.createdAt ∨
    event.createdAt = row.event.createdAt ∧ row.event.id.val ≤ event.id.val

theorem Settled.live_eq (settled : Settled coordinate store events) :
    coordinate.live store = [] ∨ ∃ row, coordinate.live store = [row] := by
  have alone := settled.alone
  cases only : coordinate.live store with
  | nil => exact .inl rfl
  | cons row rest =>
    rw [only, length_cons] at alone
    have empty : rest = [] := length_eq_zero_iff.mp (by omega)
    exact .inr ⟨row, by rw [empty]⟩

theorem Settled.live_stamps (settled : Settled coordinate store events) :
    (coordinate.live store).map Row.stamp = (store.existing coordinate.selects).toList := by
  rcases settled.live_eq with empty | ⟨row, single⟩
  · rw [existing_of_live_nil empty, empty]
    rfl
  · rw [existing_of_live single, single]
    rfl

section arrivals

variable (arrives : Arrives coordinate store deliveries)

include arrives

theorem Arrives.run : Settled coordinate (coordinate.deliverAll store deliveries)
      (deliveries.map Delivery.event) ∧
    Holds ((coordinate.deliverAll store deliveries).existing coordinate.selects)
      ((carried deliveries).map stampOf) := by
  have run := run_existing arrives.settled arrives.shared
    fun delivery member => mem_map_of_mem member
  refine ⟨run.1, ?_⟩
  have empty : store.existing coordinate.selects = none := by
    rw [existing_eq_none_iff]
    intro row member
    rw [Coordinate.selects, arrives.unheld row member, Bool.false_and]
  rw [run.2, empty]
  exact holds_foldl holds_nil

theorem Arrives.stampOf {event : Event} (member : event ∈ carried deliveries) :
    Replace.stampOf event = ⟨event.createdAt, event.id⟩ := by
  obtain ⟨delivery, within, rfl⟩ := mem_map.mp member
  obtain ⟨submitted, isCarried⟩ := mem_filter.mp within
  rw [Delivery.carried, Bool.and_eq_true] at isCarried
  obtain ⟨createdAt, dated⟩ := Option.isSome_iff_exists.mp isCarried.2
  have small := arrives.timely delivery submitted
  have seconds : createdAt = (delivery.event.createdAt : ℤ) := by
    rw [dateFromTimestamp_eq dated, asI64_of_lt small]
  rw [Replace.stampOf, dated, Option.getD_some, seconds]

theorem Arrives.live_event {row : Row}
    (live : row ∈ coordinate.live (coordinate.deliverAll store deliveries)) :
    row.event ∈ carried deliveries ∧ row.stamp = Replace.stampOf row.event := by
  have either := live_deliverAll arrives.settled arrives.shared
    (fun delivery member => mem_map_of_mem member) row live
  rcases either with before | after
  · obtain ⟨within, selected⟩ := mem_filter.mp before
    rw [Coordinate.selects, arrives.unheld row within] at selected
    cases selected
  · exact after

theorem Arrives.newest (some_carried : carried deliveries ≠ []) : ∃ row,
    coordinate.live (coordinate.deliverAll store deliveries) = [row] ∧
      Newest row (carried deliveries) := by
  obtain ⟨settled, holds⟩ := arrives.run
  rcases settled.live_eq with empty | ⟨row, single⟩
  · have nothing := holds.eq_none_iff.mp (existing_of_live_nil empty)
    exact absurd (map_eq_nil_iff.mp nothing) some_carried
  · have event := arrives.live_event (single ▸ mem_singleton_self row)
    rw [existing_of_live single, event.2] at holds
    refine ⟨row, single, event.1, ?_⟩
    intro other member
    have greatest := holds.isGreatest.2 (mem_map_of_mem member)
    rw [arrives.stampOf member, arrives.stampOf event.1, Stamp.le_iff] at greatest
    dsimp only at greatest
    rcases greatest with earlier | ⟨sameTime, smaller⟩
    · left
      omega
    · exact .inr ⟨by omega, smaller⟩

theorem Arrives.answer {before after : List Delivery} {delivery : Delivery}
    (split : deliveries = before ++ delivery :: after) :
    let reached := coordinate.deliverAll store before
    (delivery.carried →
      ∃ wasInserted, (coordinate.deliver reached delivery).2 = .ok wasInserted) ∧
    ((coordinate.deliver reached delivery).2 = .ok false →
      (coordinate.deliver reached delivery).1 = reached) := by
  have submitted : delivery ∈ deliveries := by simp [split]
  have earlier (other : Delivery) (member : other ∈ before) : other ∈ deliveries := by
    simp [split, member]
  have settled := (run_existing arrives.settled
    (fun other member => arrives.shared other (earlier other member))
    (fun other member => mem_map_of_mem (earlier other member))).1
  have share := arrives.shared delivery submitted
  have member : delivery.event ∈ deliveries.map Delivery.event := mem_map_of_mem submitted
  constructor
  · intro isCarried
    rw [settled.deliver_of_carried share member isCarried]
    split
    · exact ⟨false, rfl⟩
    · exact ⟨true, rfl⟩
  · intro unanswered
    cases isCarried : delivery.carried with
    | false =>
      obtain ⟨error, failed⟩ := deliver_of_not_carried isCarried
      rw [failed]
    | true =>
      rw [settled.deliver_of_carried share member isCarried] at unanswered ⊢
      split at unanswered
      · rw [if_pos ‹_›]
      · cases unanswered

end arrivals

/-- Whatever their order, the newest event is the one live row. -/
theorem replaceable_converges (arrives : Arrives coordinate store deliveries) :
    (carried deliveries ≠ [] → ∃ row,
      coordinate.live (coordinate.deliverAll store deliveries) = [row] ∧
        Newest row (carried deliveries)) ∧
      (∀ before delivery after, deliveries = before ++ delivery :: after →
        let reached := coordinate.deliverAll store before
        (delivery.carried →
          ∃ wasInserted, (coordinate.deliver reached delivery).2 = .ok wasInserted) ∧
        ((coordinate.deliver reached delivery).2 = .ok false →
          (coordinate.deliver reached delivery).1 = reached)) ∧
      ∀ again, Arrives coordinate store again →
        (∀ event, event ∈ carried again ↔ event ∈ carried deliveries) →
        (coordinate.live (coordinate.deliverAll store again)).map Row.stamp =
          (coordinate.live (coordinate.deliverAll store deliveries)).map Row.stamp := by
  refine ⟨arrives.newest, fun before delivery after split => arrives.answer split, ?_⟩
  intro again arrivesAgain same
  rw [arrivesAgain.run.1.live_stamps, arrives.run.1.live_stamps]
  congr 1
  apply arrivesAgain.run.2.unique arrives.run.2
  intro stamp
  simp only [mem_map, same]

end runs

def emptyStore : Store := ⟨[], fun _ => none⟩

def meshCommunity : CommunityId := ⟨.fill 1⟩

def meshMember : PublicKey := .fill 2

def meshSlot : String := "buzz-mesh-member-status:2"

def meshCoordinate : Coordinate :=
  .parameterized meshCommunity kindBookmarkSet meshMember meshSlot

def heartbeat (id : UInt8) (createdAt : ℕ) : Event where
  id := .fill id
  pubkey := meshMember
  createdAt
  kind := 30003
  tags := [⟨["d", meshSlot], cons_ne_nil _ _⟩,
    ⟨["k", "buzz-mesh-status"], cons_ne_nil _ _⟩]
  content := ""
  sig := []

theorem heartbeats_converge :
    let deliveries : List Delivery :=
      [⟨heartbeat 5 20, none, true⟩, ⟨heartbeat 3 10, none, true⟩, ⟨heartbeat 5 20, none, true⟩]
    ∃ row, meshCoordinate.live (meshCoordinate.deliverAll emptyStore deliveries) = [row] ∧
      Newest row (carried deliveries) := by
  intro deliveries
  refine (@replaceable_converges meshCoordinate emptyStore deliveries ?_).1 (by decide)
  have each (delivery : Delivery) (member : delivery ∈ deliveries) :
      delivery.event.kind = 30003 ∧ delivery.event.pubkey = meshMember ∧
        delivery.event.createdAt ≤ 20 := by
    simp only [deliveries, mem_cons, not_mem_nil, or_false] at member
    rcases member with rfl | rfl | rfl <;> exact ⟨rfl, rfl, by decide⟩
  constructor
  · intro delivery member
    obtain ⟨kind, pubkey, -⟩ := each delivery member
    exact ⟨by rw [eventKindU32, kind]; rfl, pubkey⟩
  · intro delivery member
    have small := (each delivery member).2.2
    omega
  · intro row member
    cases member
  · intro row member
    cases member
  · intro key marks
    rfl

end Buzz.Replace
