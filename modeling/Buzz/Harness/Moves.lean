import Buzz.Harness.Queue
import Buzz.Library.Tally

/-! What each operation of the event queue brings into its three stores and takes out of them. -/

namespace Buzz.Harness

open Nostr Library.Placement List

def EventQueue.stored (self : EventQueue) (channelId : Uuid) : List QueuedEvent :=
  self.queues.orDefault channelId ++ self.withheldNativeSteer.orDefault channelId ++
    (self.cancelledBatches.orDefault channelId).map (BatchEvent.toQueued channelId)

def FlushBatch.contents (self : FlushBatch) : List QueuedEvent :=
  (self.events ++ self.cancelledEvents).map (BatchEvent.toQueued self.channelId)

abbrev EventQueue.MovesTo (self next : EventQueue) (incoming outgoing : List QueuedEvent) :
    Prop :=
  Moves QueuedEvent.channelId self.stored next.stored incoming outgoing

abbrev EventQueue.OwnChannels (self : EventQueue) : Prop :=
  Keyed QueuedEvent.channelId self.stored

namespace EventQueue

variable {self : EventQueue}

def pushOverflow (self : EventQueue) (event : QueuedEvent) : List QueuedEvent :=
  if maxPendingPerChannel ≤ (self.queues.orDefault event.channelId).length then
    (self.queues.orDefault event.channelId).head?.toList
  else []

def frontOverflow (self : EventQueue) (channelId : Uuid) (events : List QueuedEvent) :
    List QueuedEvent :=
  (events ++ self.queues.orDefault channelId).drop maxPendingPerChannel

def expireOverflow (self : EventQueue) (id : Uuid) : List QueuedEvent :=
  match self.withheldNativeSteer id with
  | none => []
  | some entries => self.frontOverflow id entries

variable {event : QueuedEvent} {channelId : Uuid}

theorem mem_toQueued {events : List BatchEvent}
    (member : event ∈ events.map (BatchEvent.toQueued channelId)) :
    event.channelId = channelId := by
  rcases mem_map.mp member with ⟨batched, -, rfl⟩
  rfl

theorem count_take_drop (events : List QueuedEvent) (n : ℕ) (event : QueuedEvent) :
    (events.take n).count event + (events.drop n).count event = events.count event := by
  rw [← count_append, take_append_drop]

theorem count_tail_head (events : List QueuedEvent) (event : QueuedEvent) :
    events.tail.count event + events.head?.toList.count event = events.count event := by
  cases events with
  | nil => rfl
  | cons head tail =>
    simp only [tail_cons, head?_cons, Option.toList_some, count_cons,
      count_nil]
    omega

theorem push_moves (keyed : self.OwnChannels) (accepted : (self.push event).1) :
    self.MovesTo (self.push event).2 [event] (self.pushOverflow event) := by
  unfold push at accepted ⊢
  split at accepted
  · cases accepted
  next open_ =>
    rw [if_neg open_]
    apply Moves.onePlace event.channelId keyed
    · intro other different
      simp [stored, different]
    · intro item member
      exact congrArg QueuedEvent.channelId (mem_singleton.mp member)
    · apply perm_iff_count.mpr
      intro item
      have dropped := count_tail_head (self.queues.orDefault event.channelId) item
      simp only [stored, pushOverflow, ByChannel.orDefault_insert, if_true]
      split
      · simp only [count_append]
        omega
      · simp only [count_append, count_nil]
        omega

theorem push_refused (refused : (self.push event).1 = false) :
    (self.push event).2 = self := by
  unfold push at refused ⊢
  split
  · rfl
  next open_ =>
    rw [if_neg open_] at refused
    cases refused

variable {events : List QueuedEvent}

theorem pushFront_moves (keyed : self.OwnChannels)
    (arrived : ∀ event ∈ events, event.channelId = channelId) :
    self.MovesTo (self.pushFront channelId events) events (self.frontOverflow channelId events) := by
  apply Moves.onePlace channelId keyed
  · intro other different
    simp [stored, pushFront, different]
  · exact arrived
  · apply perm_iff_count.mpr
    intro item
    have whole := count_take_drop (events ++ self.queues.orDefault channelId)
      maxPendingPerChannel item
    simp only [stored, pushFront, frontOverflow, ByChannel.orDefault_insert, if_true,
      count_append] at whole ⊢
    omega

theorem expire_moves (keyed : self.OwnChannels) (id : Uuid) :
    self.MovesTo (self.expire id) [] (self.expireOverflow id) := by
  unfold expire recoverWithheldForExpiredChannel expireOverflow
  cases withheld : self.withheldNativeSteer id with
  | none => exact Moves.unchanged keyed fun _ => rfl
  | some entries =>
    apply Moves.onePlace id keyed
    · intro other different
      simp [stored, pushFront, different]
    · nofun
    · apply perm_iff_count.mpr
      intro item
      have held : self.withheldNativeSteer.orDefault id = entries := by
        rw [ByChannel.orDefault, withheld]
        rfl
      have whole := count_take_drop (entries ++ self.queues.orDefault id)
        maxPendingPerChannel item
      simp only [stored, pushFront, frontOverflow, ByChannel.orDefault_insert,
        ByChannel.orDefault_remove, if_true, count_append, count_nil, held] at whole ⊢
      omega

theorem sortByCreatedAt_perm (events : List BatchEvent) :
    (sortByCreatedAt events).Perm events :=
  perm_insertionSort _ events

theorem toQueued_toBatch_map (keyed : ∀ event ∈ events, event.channelId = channelId) :
    (events.map QueuedEvent.toBatch).map (BatchEvent.toQueued channelId) = events := by
  rw [map_map]
  calc
    _ = events.map id := by
      apply map_congr_left
      intro event member
      have own := keyed event member
      subst own
      rfl
    _ = events := map_id events

section

variable (keyed : self.OwnChannels)

include keyed

theorem flushReady_moves (now : Instant) (channelId : Uuid) :
    self.MovesTo (self.flushReady now channelId).2 []
      (self.flushReady now channelId).1.contents := by
  apply Moves.onePlace channelId keyed
  · intro other different
    simp [stored, flushReady, markInFlight, different]
  · nofun
  · have queued : ∀ event ∈ (self.queues.orDefault channelId).take maxBatchEvents,
        event.channelId = channelId := by
      intro event member
      apply keyed channelId
      simp only [stored, mem_append]
      exact Or.inl (Or.inl (mem_of_mem_take member))
    have sorted := ((sortByCreatedAt_perm
      (((self.queues.orDefault channelId).take maxBatchEvents).map QueuedEvent.toBatch)).map
        (BatchEvent.toQueued channelId))
    rw [toQueued_toBatch_map queued] at sorted
    apply perm_iff_count.mpr
    intro item
    have whole := count_take_drop (self.queues.orDefault channelId) maxBatchEvents item
    have counted := sorted.count_eq item
    simp only [stored, flushReady, markInFlight, FlushBatch.contents,
      ByChannel.orDefault_insertOrRemove, ByChannel.orDefault_remove, if_true, map_append,
      count_append, map_nil, count_nil]
    omega

theorem flushParked_moves (now : Instant) (id : Uuid) :
    self.MovesTo (self.flushParked now id).2 [] (self.flushParked now id).1.contents := by
  apply Moves.onePlace id keyed
  · intro other different
    simp [stored, flushParked, markInFlight, different]
  · nofun
  · apply perm_iff_count.mpr
    intro item
    simp only [stored, flushParked, markInFlight, FlushBatch.contents,
      ByChannel.orDefault_remove, if_true, append_nil, map_nil, count_append]

theorem flush_moves (now : Instant) (order : Iteration) :
    self.MovesTo (self.flush now order).2 []
      ((self.flush now order).1.toList.flatMap FlushBatch.contents) := by
  unfold flush
  split
  · rw [Option.toList_some, flatMap_singleton]
    exact flushReady_moves keyed now _
  · split
    · rw [Option.toList_some, flatMap_singleton]
      exact flushParked_moves keyed now _
    · exact Moves.unchanged keyed fun _ => rfl

end

theorem markComplete_stored (channelId : Uuid) (now : Instant) (other : Uuid) :
    (self.markComplete channelId now).stored other = self.stored other := by
  unfold markComplete
  simp only
  split
  · split
    · rfl
    · rfl
  · rfl

theorem requeue_moves (keyed : self.OwnChannels) (jittered : ℕ → ℕ → ℕ) (batch : FlushBatch)
    (subsecNanos : ℕ) (now : Instant) (alive : self.attempt batch.channelId ≤ maxRetries) :
    self.MovesTo (self.requeue jittered batch subsecNanos now).2
      (batch.events.map (BatchEvent.toQueued batch.channelId))
      (self.frontOverflow batch.channelId
        (batch.events.map (BatchEvent.toQueued batch.channelId))) := by
  unfold requeue
  rw [if_neg (Nat.not_lt.mpr alive)]
  exact pushFront_moves keyed fun event member => mem_toQueued member

theorem requeue_deadLetter (jittered : ℕ → ℕ → ℕ) (batch : FlushBatch)
    (subsecNanos : ℕ) (now : Instant) (dead : maxRetries < self.attempt batch.channelId)
    (other : Uuid) :
    (self.requeue jittered batch subsecNanos now).2.stored other = self.stored other := by
  unfold requeue
  rw [if_pos dead]
  rfl

theorem requeuePreserveTimestamps_moves (keyed : self.OwnChannels) (batch : FlushBatch) :
    self.MovesTo (self.requeuePreserveTimestamps batch)
      (batch.events.map (BatchEvent.toQueued batch.channelId))
      (self.frontOverflow batch.channelId
        (batch.events.map (BatchEvent.toQueued batch.channelId))) :=
  pushFront_moves keyed fun _ member => mem_toQueued member

theorem requeueAsCancelled_moves (keyed : self.OwnChannels) (batch : FlushBatch)
    (reason : CancelReason) :
    self.MovesTo (self.requeueAsCancelled batch reason) batch.contents [] := by
  apply Moves.onePlace batch.channelId keyed
  · intro other different
    simp [stored, requeueAsCancelled, different]
  · intro event member
    exact mem_toQueued member
  · apply perm_iff_count.mpr
    intro item
    simp only [stored, requeueAsCancelled, FlushBatch.contents, ByChannel.orDefault_insert,
      if_true, map_append, count_append, count_nil]
    omega

theorem takeFirst_perm {eventId : String} {rest : List QueuedEvent} {found : QueuedEvent}
    (taken : takeFirst eventId events = some (found, rest)) : events.Perm (found :: rest) := by
  unfold takeFirst at taken
  rcases Option.map_eq_some_iff.mp taken with ⟨first, search, shape⟩
  cases shape
  clear taken
  induction events with
  | nil => cases search
  | cons head tail ih =>
    rw [find?_cons] at search
    rw [eraseP_cons]
    cases here : hasId eventId head with
    | true =>
      rw [here] at search
      cases search
      exact List.Perm.refl _
    | false =>
      rw [here] at search
      have moved := (ih search).cons head
      exact moved.trans (List.Perm.swap found head _)

theorem markNativeSteerPending_moves (keyed : self.OwnChannels) (channelId : Uuid)
    (eventId : String) :
    self.MovesTo (self.markNativeSteerPending channelId eventId).2 [] [] := by
  unfold markNativeSteerPending
  split
  · exact Moves.unchanged keyed fun _ => rfl
  next found rest taken =>
    apply Moves.onePlace channelId keyed
    · intro other different
      simp [stored, different]
    · nofun
    · apply perm_iff_count.mpr
      intro item
      have counted := (takeFirst_perm taken).count_eq item
      simp only [stored, ByChannel.orDefault_insert, ByChannel.orDefault_insertOrRemove, if_true,
        count_append, count_cons, count_nil] at counted ⊢
      omega

def releaseOverflow (self : EventQueue) (channelId : Uuid) (eventId : String) :
    List QueuedEvent :=
  match takeFirst eventId (self.withheldNativeSteer.orDefault channelId) with
  | none => []
  | some (found, _) => self.frontOverflow channelId [found]

theorem releaseNativeSteer_moves (keyed : self.OwnChannels) (channelId : Uuid)
    (eventId : String) :
    self.MovesTo (self.releaseNativeSteer channelId eventId) []
      (self.releaseOverflow channelId eventId) := by
  unfold releaseNativeSteer releaseOverflow
  cases taken : takeFirst eventId (self.withheldNativeSteer.orDefault channelId) with
  | none => exact Moves.unchanged keyed fun _ => rfl
  | some pair =>
    have counted := fun item => (takeFirst_perm taken).count_eq item
    apply Moves.onePlace channelId keyed
    · intro other different
      simp [stored, pushFront, different]
    · nofun
    · apply perm_iff_count.mpr
      intro item
      have whole := count_take_drop ([pair.1] ++ self.queues.orDefault channelId)
        maxPendingPerChannel item
      have parts := counted item
      simp only [stored, pushFront, frontOverflow, ByChannel.orDefault_insert,
        ByChannel.orDefault_insertOrRemove, if_true, count_append, count_cons,
        count_nil] at parts whole ⊢
      omega

def removedBy (self : EventQueue) (channelId : Uuid) (eventId : String) : List QueuedEvent :=
  (self.queues.orDefault channelId).filter (hasId eventId) ++
    (self.withheldNativeSteer.orDefault channelId).filter (hasId eventId)

theorem orDefault_retainOthers (events : ByChannel (List QueuedEvent)) (channelId : Uuid)
    (eventId : String) (other : Uuid) :
    (retainOthers events channelId eventId).orDefault other = if other = channelId then
      (events.orDefault channelId).filter fun queued => !hasId eventId queued
    else events.orDefault other := by
  unfold retainOthers
  split
  next absent =>
    split
    next same =>
      rw [same, ByChannel.orDefault, absent]
      rfl
    · rfl
  next entries present =>
    rw [ByChannel.orDefault_insertOrRemove]
    simp only [ByChannel.orDefault, present, Option.getD_some]

theorem count_filter_partition (events : List QueuedEvent) (eventId : String)
    (item : QueuedEvent) :
    (events.filter fun queued => !hasId eventId queued).count item +
      (events.filter (hasId eventId)).count item = events.count item := by
  rw [Nat.add_comm, ← count_append]
  exact (filter_append_perm (hasId eventId) events).count_eq item

theorem removeEvent_moves (keyed : self.OwnChannels) (channelId : Uuid) (eventId : String) :
    self.MovesTo (self.removeEvent channelId eventId) [] (self.removedBy channelId eventId) := by
  apply Moves.onePlace channelId keyed
  · intro other different
    simp [stored, removeEvent, orDefault_retainOthers, different]
  · nofun
  · apply perm_iff_count.mpr
    intro item
    have queued := count_filter_partition (self.queues.orDefault channelId) eventId item
    have withheld :=
      count_filter_partition (self.withheldNativeSteer.orDefault channelId) eventId item
    simp only [stored, removeEvent, removedBy, orDefault_retainOthers, if_true,
      count_append, count_nil]
    omega

theorem drainChannel_moves (keyed : self.OwnChannels) (channelId : Uuid) :
    self.MovesTo (self.drainChannel channelId).2 [] (self.stored channelId) := by
  apply Moves.onePlace channelId keyed
  · intro other different
    simp [stored, drainChannel, different]
  · nofun
  · simp [stored, drainChannel]

end EventQueue

end Buzz.Harness
