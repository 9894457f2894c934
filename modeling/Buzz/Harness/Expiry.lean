import Buzz.Harness.Conservation

/-! What the expiry loop leaves, whatever its order. -/

namespace Buzz.Harness

open Nostr List

namespace EventQueue

variable {self : EventQueue} {id : Uuid} {now : Instant}

def overdue (self : EventQueue) (now : Instant) (id : Uuid) : Bool :=
  (self.inFlightDeadlines id).any (· ≤ now)

/-- The entry of a channel after `recover_withheld_for_expired_channel`. -/
def recoveredEntry (self : EventQueue) (id : Uuid) : Option (List QueuedEvent) :=
  match self.withheldNativeSteer id with
  | none => self.queues id
  | some entries => some ((entries ++ self.queues.orDefault id).take maxPendingPerChannel)

def recovered (self : EventQueue) (id : Uuid) : List QueuedEvent := (self.recoveredEntry id).getD []

def free (self : EventQueue) (now : Instant) (id : Uuid) : Bool :=
  !self.isChannelInFlight id || self.overdue now id

def pending (self : EventQueue) (now : Instant) (id : Uuid) : List QueuedEvent :=
  if self.overdue now id then self.recovered id else self.queues.orDefault id

theorem recovered_of_withheld {entries : List QueuedEvent}
    (withheld : self.withheldNativeSteer id = some entries) :
    self.recovered id = (entries ++ self.queues.orDefault id).take maxPendingPerChannel := by
  rw [recovered, recoveredEntry, withheld]
  rfl

theorem recovered_of_none (withheld : self.withheldNativeSteer id = none) :
    self.recovered id = self.queues.orDefault id := by
  rw [recovered, recoveredEntry, withheld]
  rfl

structure Expired (before : EventQueue) (gone : Uuid → Prop) [DecidablePred gone]
    (after : EventQueue) : Prop where
  channels : ∀ id, after.inFlightChannels id = if gone id then none else before.inFlightChannels id
  deadlines : ∀ id,
    after.inFlightDeadlines id = if gone id then none else before.inFlightDeadlines id
  sizes : ∀ id,
    after.inFlightBatchSizes id = if gone id then none else before.inFlightBatchSizes id
  entries : ∀ id, after.queues id = if gone id then before.recoveredEntry id else before.queues id
  withheld : ∀ id,
    after.withheldNativeSteer id = if gone id then none else before.withheldNativeSteer id
  retryAfter : after.retryAfter = before.retryAfter
  retryCounts : after.retryCounts = before.retryCounts
  dedupMode : after.dedupMode = before.dedupMode
  cancelledBatches : after.cancelledBatches = before.cancelledBatches
  cancelReasons : after.cancelReasons = before.cancelReasons
  inFlightDeadline : after.inFlightDeadline = before.inFlightDeadline

section expired

variable {before after other : EventQueue} {gone : Uuid → Prop} [DecidablePred gone]

theorem Expired.queues (expired : Expired before gone after) (id : Uuid) :
    after.queues.orDefault id =
      if gone id then before.recovered id else before.queues.orDefault id := by
  rw [ByChannel.orDefault, expired.entries]
  split
  · rfl
  · rfl

theorem Expired.unique (first : Expired before gone after) (second : Expired before gone other) :
    after = other := by
  have channels := funext fun id => (first.channels id).trans (second.channels id).symm
  have deadlines := funext fun id => (first.deadlines id).trans (second.deadlines id).symm
  have sizes := funext fun id => (first.sizes id).trans (second.sizes id).symm
  have entries := funext fun id => (first.entries id).trans (second.entries id).symm
  have withheld := funext fun id => (first.withheld id).trans (second.withheld id).symm
  have retryAfter := first.retryAfter.trans second.retryAfter.symm
  have retryCounts := first.retryCounts.trans second.retryCounts.symm
  have dedupMode := first.dedupMode.trans second.dedupMode.symm
  have cancelledBatches := first.cancelledBatches.trans second.cancelledBatches.symm
  have cancelReasons := first.cancelReasons.trans second.cancelReasons.symm
  have inFlightDeadline := first.inFlightDeadline.trans second.inFlightDeadline.symm
  cases after
  cases other
  simp only at *
  subst channels deadlines sizes entries withheld retryAfter retryCounts dedupMode
    cancelledBatches cancelReasons inFlightDeadline
  rfl

end expired

theorem expire_expired (self : EventQueue) (id : Uuid) : Expired self (· = id) (self.expire id) := by
  unfold expire recoverWithheldForExpiredChannel
  cases withheld : self.withheldNativeSteer id with
  | none =>
    refine ⟨?_, ?_, ?_, ?_, ?_, rfl, rfl, rfl, rfl, rfl, rfl⟩
    · exact fun other => ByChannel.remove_apply _ id other
    · exact fun other => ByChannel.remove_apply _ id other
    · exact fun other => ByChannel.remove_apply _ id other
    · intro other
      by_cases same : other = id
      · rw [if_pos same, same, recoveredEntry, withheld]
      · rw [if_neg same]
    · intro other
      by_cases same : other = id
      · rw [if_pos same, same]
        exact withheld
      · rw [if_neg same]
  | some entries =>
    refine ⟨?_, ?_, ?_, ?_, ?_, rfl, rfl, rfl, rfl, rfl, rfl⟩
    · exact fun other => ByChannel.remove_apply _ id other
    · exact fun other => ByChannel.remove_apply _ id other
    · exact fun other => ByChannel.remove_apply _ id other
    · intro other
      simp only [pushFront, ByChannel.insert_apply]
      by_cases same : other = id
      · rw [if_pos same, if_pos same, same, recoveredEntry, withheld]
      · rw [if_neg same, if_neg same]
    · exact fun other => ByChannel.remove_apply _ id other

theorem Expired.cons {first rest : EventQueue} {ids : List Uuid} (absent : id ∉ ids)
    (head : Expired self (· = id) first) (tail : Expired first (· ∈ ids) rest) :
    Expired self (· ∈ id :: ids) rest := by
  have either (other : Uuid) {α : Type} (gone kept : α) :
      (if other ∈ ids then gone else if other = id then gone else kept) =
        if other ∈ id :: ids then gone else kept := by
    by_cases same : other = id
    · rw [if_pos same, if_pos (mem_cons.mpr (Or.inl same)), ite_self]
    · by_cases member : other ∈ ids
      · rw [if_pos member, if_pos (mem_cons_of_mem id member)]
      · rw [if_neg member, if_neg same, if_neg fun found =>
          (mem_cons.mp found).elim same member]
  refine ⟨?_, ?_, ?_, ?_, ?_, tail.retryAfter.trans head.retryAfter,
    tail.retryCounts.trans head.retryCounts, tail.dedupMode.trans head.dedupMode,
    tail.cancelledBatches.trans head.cancelledBatches,
    tail.cancelReasons.trans head.cancelReasons,
    tail.inFlightDeadline.trans head.inFlightDeadline⟩
  · exact fun other => by rw [tail.channels, head.channels, either]
  · exact fun other => by rw [tail.deadlines, head.deadlines, either]
  · exact fun other => by rw [tail.sizes, head.sizes, either]
  · intro other
    rw [tail.entries]
    by_cases same : other = id
    · rw [if_neg (same ▸ absent), head.entries, if_pos same,
        if_pos (mem_cons.mpr (Or.inl same))]
    · have kept : first.recoveredEntry other = self.recoveredEntry other := by
        unfold recoveredEntry
        rw [head.withheld, if_neg same, head.entries, if_neg same, head.queues, if_neg same]
      rw [kept, head.entries, if_neg same]
      by_cases member : other ∈ ids
      · rw [if_pos member, if_pos (mem_cons_of_mem id member)]
      · rw [if_neg member, if_neg fun found => (mem_cons.mp found).elim same member]
  · exact fun other => by rw [tail.withheld, head.withheld, either]

theorem foldl_expire (self : EventQueue) (ids : List Uuid) (distinct : ids.Nodup) :
    Expired self (· ∈ ids) (ids.foldl expire self) := by
  induction ids generalizing self with
  | nil => exact ⟨fun _ => rfl, fun _ => rfl, fun _ => rfl, fun _ => rfl, fun _ => rfl, rfl, rfl,
      rfl, rfl, rfl, rfl⟩
  | cons id ids ih =>
    obtain ⟨absent, distinct⟩ := nodup_cons.mp distinct
    exact Expired.cons absent (expire_expired self id) (ih _ distinct)

theorem expireAll_expired (now : Instant) {order : Iteration}
    (lists : Lists order.inFlightDeadlines self.inFlightDeadlines) :
    Expired self (fun id => self.overdue now id = true) (self.expireAll now order) := by
  have found (id : Uuid) : id ∈ self.expired now order.inFlightDeadlines ↔
      self.overdue now id = true := by
    rw [expired, mem_filter, lists.2]
    constructor
    · exact And.right
    · intro late
      obtain ⟨deadline, present, -⟩ := (Option.any_eq_true _ _).mp late
      exact ⟨by rw [present]; rfl, late⟩
  have loop := foldl_expire self (self.expired now order.inFlightDeadlines)
    (lists.1.filter _)
  have same : (· ∈ self.expired now order.inFlightDeadlines) =
      fun id => self.overdue now id = true := funext fun id => propext (found id)
  unfold expireAll
  convert loop using 1
  exact same.symm

variable {order : Iteration}

theorem expireAll_order {other : Iteration}
    (lists : Lists order.inFlightDeadlines self.inFlightDeadlines)
    (others : Lists other.inFlightDeadlines self.inFlightDeadlines) :
    self.expireAll now order = self.expireAll now other :=
  (expireAll_expired now lists).unique (expireAll_expired now others)

theorem expireAll_inFlight (lists : Lists order.inFlightDeadlines self.inFlightDeadlines)
    (id : Uuid) : (self.expireAll now order).isChannelInFlight id = !self.free now id := by
  have channels := (expireAll_expired now lists).channels id
  rw [isChannelInFlight, channels, free, isChannelInFlight]
  cases self.overdue now id with
  | true => rw [Bool.or_true]; rfl
  | false => rw [Bool.or_false, Bool.not_not]; rfl

theorem expireAll_queues (lists : Lists order.inFlightDeadlines self.inFlightDeadlines)
    (id : Uuid) : (self.expireAll now order).queues.orDefault id = self.pending now id :=
  (expireAll_expired now lists).queues id

end EventQueue

end Buzz.Harness
