import Buzz.Harness.Moves
import Buzz.Library.Runs

/-! Where every accepted event is, over whole runs of the queue and of the batches it has handed
out. -/

namespace Buzz.Harness

open Nostr Library.Placement Library.Transition List Option
open Function (update_of_ne)

/-- A lapsed batch may still be given back. -/
structure World where
  queue : EventQueue
  handed : List FlushBatch
  lapsed : List FlushBatch
  accepted : List QueuedEvent
  removed : List QueuedEvent

def World.initial (dedupMode : DedupMode) (inFlightDeadline : ℕ) : World :=
  ⟨{ EventQueue.new dedupMode with inFlightDeadline }, [], [], [], []⟩

inductive Action
  | push (event : QueuedEvent)
  | flushNext (now : Instant) (order : Iteration)
  | hasFlushableWork (now : Instant) (order : Iteration)
  | markComplete (channelId : Uuid) (now : Instant)
  | requeue (held : FlushBatch) (stamped : Option CancelReason) (subsecNanos : ℕ) (now : Instant)
  | requeuePreserveTimestamps (held : FlushBatch) (stamped : Option CancelReason)
  | requeueAsCancelled (held : FlushBatch) (stamped : Option CancelReason) (reason : CancelReason)
  | markNativeSteerPending (channelId : Uuid) (eventId : String)
  | releaseNativeSteer (channelId : Uuid) (eventId : String)
  | removeEvent (channelId : Uuid) (eventId : String)
  | drainChannel (channelId : Uuid)
  | compactExpiredState (now : Instant)
  | extendInFlightDeadline (channelId : Uuid) (maxTurnSecs : ℕ) (now : Instant)

/-- A list of the keys of a map, each once. -/
def Lists {α : Type} (order : List Uuid) (map : ByChannel α) : Prop :=
  order.Nodup ∧ ∀ id, id ∈ order ↔ (map id).isSome

structure Iteration.Of (order : Iteration) (queue : EventQueue) (now : Instant) : Prop where
  inFlightDeadlines : Lists order.inFlightDeadlines queue.inFlightDeadlines
  queues : Lists order.queues (queue.expireAll now order).queues
  cancelledBatches : Lists order.cancelledBatches (queue.expireAll now order).cancelledBatches

namespace World

def lapse (self : World) (channelId : Uuid) : World :=
  { self with
    handed := self.handed.filter (·.channelId ≠ channelId)
    lapsed := self.lapsed ++ self.handed.filter fun batch => decide (batch.channelId = channelId) }

def expire (self : World) (id : Uuid) : World :=
  { self.lapse id with
    queue := self.queue.expire id
    removed := self.removed ++ self.queue.expireOverflow id }

def expireAll (self : World) (now : Instant) (order : Iteration) : World :=
  (self.queue.expired now order.inFlightDeadlines).foldl expire self

def Holds (self : World) (batch : FlushBatch) : Prop :=
  batch ∈ self.handed ∨ batch ∈ self.lapsed

def take (self : World) (batch : FlushBatch) : World :=
  if batch ∈ self.handed then { self with handed := self.handed.erase batch }
  else { self with lapsed := self.lapsed.erase batch }

end World

def FlushBatch.stamp (self : FlushBatch) (reason : Option CancelReason) : FlushBatch :=
  { self with cancelReason := reason }

variable (jittered : ℕ → ℕ → ℕ)

inductive Step : World → Action → World → Prop
  | push {world : World} {event : QueuedEvent} (accepted : (world.queue.push event).1) :
      Step world (.push event) { world with
        queue := (world.queue.push event).2
        accepted := world.accepted ++ [event]
        removed := world.removed ++ world.queue.pushOverflow event }
  | refuse {world : World} {event : QueuedEvent} (refused : (world.queue.push event).1 = false) :
      Step world (.push event) { world with queue := (world.queue.push event).2 }
  | flushNext {world : World} {now : Instant} {order : Iteration}
      (orders : order.Of world.queue now) :
      Step world (.flushNext now order) { world.expireAll now order with
        queue := (world.queue.flushNext now order).2
        handed := (world.queue.flushNext now order).1.toList ++
          (world.expireAll now order).handed }
  | hasFlushableWork {world : World} {now : Instant} {order : Iteration}
      (orders : order.Of world.queue now) :
      Step world (.hasFlushableWork now order) { world.expireAll now order with
        queue := (world.queue.hasFlushableWork now order).2 }
  | markComplete {world : World} {channelId : Uuid} {now : Instant} :
      Step world (.markComplete channelId now) { world.lapse channelId with
        queue := world.queue.markComplete channelId now }
  | deadLetter {world : World} {held : FlushBatch} {stamped : Option CancelReason}
      {subsecNanos : ℕ} {now : Instant} (holds : world.Holds held)
      (dead : (world.queue.requeue jittered (held.stamp stamped) subsecNanos now).1.isSome) :
      Step world (.requeue held stamped subsecNanos now) { world.take held with
        queue := (world.queue.requeue jittered (held.stamp stamped) subsecNanos now).2
        removed := world.removed ++ held.contents }
  | requeue {world : World} {held : FlushBatch} {stamped : Option CancelReason}
      {subsecNanos : ℕ} {now : Instant} (holds : world.Holds held)
      (alive : (world.queue.requeue jittered (held.stamp stamped) subsecNanos now).1 = none) :
      Step world (.requeue held stamped subsecNanos now) { world.take held with
        queue := (world.queue.requeue jittered (held.stamp stamped) subsecNanos now).2
        removed := world.removed ++ world.queue.frontOverflow held.channelId
          (held.events.map (BatchEvent.toQueued held.channelId)) }
  | requeuePreserveTimestamps {world : World} {held : FlushBatch}
      {stamped : Option CancelReason} (holds : world.Holds held) :
      Step world (.requeuePreserveTimestamps held stamped) { world.take held with
        queue := world.queue.requeuePreserveTimestamps (held.stamp stamped)
        removed := world.removed ++ world.queue.frontOverflow held.channelId
          (held.events.map (BatchEvent.toQueued held.channelId)) }
  | requeueAsCancelled {world : World} {held : FlushBatch} {stamped : Option CancelReason}
      {reason : CancelReason} (holds : world.Holds held) :
      Step world (.requeueAsCancelled held stamped reason) { world.take held with
        queue := world.queue.requeueAsCancelled (held.stamp stamped) reason }
  | markNativeSteerPending {world : World} {channelId : Uuid} {eventId : String} :
      Step world (.markNativeSteerPending channelId eventId) { world with
        queue := (world.queue.markNativeSteerPending channelId eventId).2 }
  | releaseNativeSteer {world : World} {channelId : Uuid} {eventId : String} :
      Step world (.releaseNativeSteer channelId eventId) { world with
        queue := world.queue.releaseNativeSteer channelId eventId
        removed := world.removed ++ world.queue.releaseOverflow channelId eventId }
  | removeEvent {world : World} {channelId : Uuid} {eventId : String} :
      Step world (.removeEvent channelId eventId) { world with
        queue := world.queue.removeEvent channelId eventId
        removed := world.removed ++ world.queue.removedBy channelId eventId }
  | drainChannel {world : World} {channelId : Uuid} :
      Step world (.drainChannel channelId) { world with
        queue := (world.queue.drainChannel channelId).2
        removed := world.removed ++ world.queue.stored channelId }
  | compactExpiredState {world : World} {now : Instant} :
      Step world (.compactExpiredState now) { world with
        queue := world.queue.compactExpiredState now }
  | extendInFlightDeadline {world : World} {channelId : Uuid} {maxTurnSecs : ℕ}
      {now : Instant} :
      Step world (.extendInFlightDeadline channelId maxTurnSecs now) { world with
        queue := world.queue.extendInFlightDeadline channelId maxTurnSecs now }

def World.outside (self : World) : List QueuedEvent :=
  self.handed.flatMap FlushBatch.contents ++ self.lapsed.flatMap FlushBatch.contents ++
    self.removed

structure Accounts (lost : List QueuedEvent) (world : World) : Prop where
  keyed : world.queue.OwnChannels
  counts : ∀ event, world.accepted.count event =
    (world.queue.stored event.channelId).count event + world.outside.count event +
      lost.count event
  inFlight : ∀ batch ∈ world.handed, world.queue.isChannelInFlight batch.channelId
  single : (world.handed.map FlushBatch.channelId).Nodup

def Conserved (world : World) : Prop := Accounts [] world

/-- The batch that is given back has no cancelled events, or is a dead letter. -/
def GivesBackAll (world : World) : Action → Prop
  | .requeue held _ _ _ =>
    held.cancelledEvents = [] ∨ maxRetries < world.queue.attempt held.channelId
  | .requeuePreserveTimestamps held _ => held.cancelledEvents = []
  | _ => True

variable {world : World}

theorem mem_expireAll {P : World → Prop}
    (preserved : ∀ state id, P state → P (state.expire id)) (start : P world) (now : Instant)
    (order : Iteration) : P (world.expireAll now order) := by
  unfold World.expireAll
  generalize world.queue.expired now order.inFlightDeadlines = ids
  induction ids generalizing world with
  | nil => exact start
  | cons id ids ih => exact ih (preserved world id start)

theorem World.expireAll_queue (world : World) (now : Instant) (order : Iteration) :
    (world.expireAll now order).queue = world.queue.expireAll now order := by
  unfold World.expireAll EventQueue.expireAll
  generalize world.queue.expired now order.inFlightDeadlines = ids
  induction ids generalizing world with
  | nil => rfl
  | cons id ids ih => exact ih (world.expire id)

theorem World.lapse_outside (world : World) (channelId : Uuid) (event : QueuedEvent) :
    (world.lapse channelId).outside.count event = world.outside.count event := by
  have parts := ((filter_append_perm (fun batch : FlushBatch =>
    batch.channelId = channelId) world.handed).flatMap_right
      FlushBatch.contents).count_eq event
  simp only [World.outside, World.lapse, decide_not, flatMap_append,
    count_append] at parts ⊢
  omega

variable {held : FlushBatch}

theorem World.take_outside (holds : world.Holds held) (event : QueuedEvent) :
    ((world.take held).handed.flatMap FlushBatch.contents).count event +
      ((world.take held).lapsed.flatMap FlushBatch.contents).count event +
        held.contents.count event =
      (world.handed.flatMap FlushBatch.contents).count event +
        (world.lapsed.flatMap FlushBatch.contents).count event := by
  have erased {batches : List FlushBatch} (member : held ∈ batches) :
      (batches.flatMap FlushBatch.contents).count event =
        held.contents.count event +
          ((batches.erase held).flatMap FlushBatch.contents).count event := by
    have counted := ((perm_cons_erase member).flatMap_right
      FlushBatch.contents).count_eq event
    rw [flatMap_cons, count_append] at counted
    exact counted
  unfold World.take
  split
  next here =>
    have counted := erased here
    simp only
    omega
  next absent =>
    have counted := erased (holds.resolve_left absent)
    simp only
    omega

theorem World.take_handed (world : World) (held : FlushBatch) :
    (world.take held).handed.Sublist world.handed := by
  unfold World.take
  split
  · exact erase_sublist
  · exact List.Sublist.refl _

theorem World.take_kept (world : World) (held : FlushBatch) :
    (world.take held).accepted = world.accepted ∧ (world.take held).removed = world.removed := by
  unfold World.take
  split
  · exact ⟨rfl, rfl⟩
  · exact ⟨rfl, rfl⟩

variable {lost more : List QueuedEvent} {world : World}

theorem Accounts.moved {incoming outgoing : List QueuedEvent} {next : World}
    (accounts : Accounts lost world) (moves : world.queue.MovesTo next.queue incoming outgoing)
    (balance : ∀ event, next.accepted.count event + world.outside.count event +
      outgoing.count event = world.accepted.count event + next.outside.count event +
        incoming.count event + more.count event)
    (kept : next.handed.Sublist world.handed)
    (inFlight : ∀ batch ∈ next.handed, next.queue.isChannelInFlight batch.channelId) :
    Accounts (lost ++ more) next where
  keyed := moves.keyed
  counts := by
    intro event
    have before := accounts.counts event
    have change := moves.counts event
    have ledger := balance event
    rw [count_append]
    omega
  inFlight
  single := accounts.single.sublist (kept.map _)

variable {lost outgoing : List QueuedEvent} {incoming : List QueuedEvent} {next : World}

theorem Accounts.kept
    (accounts : Accounts lost world) (moves : world.queue.MovesTo next.queue incoming outgoing)
    (balance : ∀ event, next.accepted.count event + world.outside.count event +
      outgoing.count event = world.accepted.count event + next.outside.count event +
        incoming.count event) (kept : next.handed.Sublist world.handed)
    (inFlight : ∀ batch ∈ next.handed, next.queue.isChannelInFlight batch.channelId) :
    Accounts lost next := by
  have moved := @Accounts.moved lost [] _ _ _ _ accounts moves balance kept inFlight
  rw [append_nil] at moved
  exact moved

variable {queue : EventQueue}

theorem Accounts.queueOnly (accounts : Accounts lost world)
    (moves : world.queue.MovesTo queue [] outgoing)
    (same : queue.inFlightChannels = world.queue.inFlightChannels) :
    Accounts lost { world with queue, removed := world.removed ++ outgoing } := by
  apply accounts.kept moves
  · intro event
    simp only [World.outside, count_append, count_nil]
    omega
  · exact List.Sublist.refl _
  · intro batch member
    have flying := accounts.inFlight batch member
    rw [EventQueue.isChannelInFlight] at flying ⊢
    rw [same]
    exact flying

theorem Accounts.expire
    (accounts : Accounts lost world) (id : Uuid) : Accounts lost (world.expire id) := by
  apply accounts.kept (EventQueue.expire_moves accounts.keyed id)
  · intro event
    have lapsed := world.lapse_outside id event
    simp only [World.outside, World.expire, World.lapse, count_append,
      count_nil] at lapsed ⊢
    omega
  · exact filter_sublist
  · intro batch member
    rcases mem_filter.mp member with ⟨old, other⟩
    have different := of_decide_eq_true other
    have flying := accounts.inFlight batch old
    have channels : (world.queue.expire id).inFlightChannels =
        world.queue.inFlightChannels.remove id := by
      unfold EventQueue.expire EventQueue.recoverWithheldForExpiredChannel
      split
      · rfl
      · rfl
    change ((world.queue.expire id).inFlightChannels batch.channelId).isSome
    rw [channels, ByChannel.remove_apply, if_neg different]
    exact flying

theorem Accounts.givenBack {removed : List QueuedEvent}
    (accounts : Accounts lost world) (holds : world.Holds held)
    (moves : world.queue.MovesTo queue incoming outgoing)
    (same : queue.inFlightChannels = world.queue.inFlightChannels)
    (balance : ∀ event, held.contents.count event + outgoing.count event =
      incoming.count event + removed.count event + more.count event) :
    Accounts (lost ++ more)
      { world.take held with queue, removed := world.removed ++ removed } := by
  apply accounts.moved moves
  · intro event
    have taken := World.take_outside holds event
    have ledger := balance event
    simp only [World.outside, count_append, (world.take_kept held).1]
    omega
  · exact world.take_handed held
  · intro batch member
    have flying := accounts.inFlight batch ((world.take_handed held).subset member)
    rw [EventQueue.isChannelInFlight] at flying ⊢
    rw [same]
    exact flying

variable {self : EventQueue} {now : Instant}

theorem EventQueue.oldestReady_ready {order : List Uuid}
    {id : Uuid} (found : self.oldestReady now order = some id) : self.ready now id := by
  unfold oldestReady at found
  rcases map_eq_some_iff.mp found with ⟨candidate, oldest, same⟩
  have member := argmin_mem oldest
  rcases mem_filterMap.mp member with ⟨channel, -, chosen⟩
  split at chosen
  next ready =>
    rcases map_eq_some_iff.mp chosen with ⟨head, -, shape⟩
    rw [← same, ← shape]
    exact ready
  · cases chosen

/-- It hands out nothing, or a batch of a channel that was not in flight. -/
theorem EventQueue.flush_cases (self : EventQueue) (now : Instant) (order : Iteration) :
    self.flush now order = (none, self) ∨
      ∃ batch, (self.flush now order).1 = some batch ∧
        self.isChannelInFlight batch.channelId = false ∧
        (self.flush now order).2.inFlightChannels =
          self.inFlightChannels.insert batch.channelId () := by
  unfold flush
  split
  next id found =>
    refine .inr ⟨_, rfl, ?_, rfl⟩
    have ready := oldestReady_ready found
    simp only [EventQueue.ready, Bool.and_eq_true, Bool.not_eq_true'] at ready
    exact ready.1.2
  · split
    next id found =>
      refine .inr ⟨_, rfl, ?_, rfl⟩
      have idle := find?_some found
      simp only [Bool.and_eq_true, Bool.not_eq_true'] at idle
      exact idle.2
    · exact .inl rfl

theorem Accounts.flush (accounts : Accounts lost world) (now : Instant) (order : Iteration) :
    Accounts lost { world with
      queue := (world.queue.flush now order).2
      handed := (world.queue.flush now order).1.toList ++ world.handed } := by
  have moves := EventQueue.flush_moves accounts.keyed now order
  rcases world.queue.flush_cases now order with nothing | ⟨batch, handed, idle, marked⟩
  · rw [nothing]
    exact accounts
  · rw [handed] at moves ⊢
    rw [toList_some, flatMap_singleton] at moves
    rw [toList_some, singleton_append]
    constructor
    · exact moves.keyed
    · intro event
      have before := accounts.counts event
      have change := moves.counts event
      simp only [World.outside, flatMap_cons, count_append,
        count_nil] at before change ⊢
      omega
    · intro other member
      change ((world.queue.flush now order).2.inFlightChannels other.channelId).isSome
      rw [marked, ByChannel.insert_apply]
      split
      · rfl
      next different =>
        rcases mem_cons.mp member with same | old
        · rw [same] at different
          exact absurd rfl different
        · exact accounts.inFlight other old
    · rw [map_cons]
      apply nodup_cons.mpr
      refine ⟨?_, accounts.single⟩
      intro flying
      rcases mem_map.mp flying with ⟨other, member, same⟩
      have busy := accounts.inFlight other member
      rw [same, idle] at busy
      cases busy

theorem EventQueue.markComplete_inFlight (self : EventQueue) (channelId : Uuid) (now : Instant) :
    (self.markComplete channelId now).inFlightChannels =
      self.inFlightChannels.remove channelId := by
  unfold markComplete
  simp only
  split
  · split
    · rfl
    · rfl
  · rfl

theorem Accounts.markComplete (accounts : Accounts lost world) (channelId : Uuid) (now : Instant) :
    Accounts lost { world.lapse channelId with
      queue := world.queue.markComplete channelId now } := by
  apply accounts.kept
    (Moves.unchanged accounts.keyed (EventQueue.markComplete_stored channelId now))
  · intro event
    have lapsed := world.lapse_outside channelId event
    simp only [World.outside, World.lapse, count_append] at lapsed ⊢
    omega
  · exact filter_sublist
  · intro batch member
    rcases mem_filter.mp member with ⟨old, other⟩
    have different := of_decide_eq_true other
    have flying := accounts.inFlight batch old
    rw [EventQueue.isChannelInFlight] at flying ⊢
    rw [EventQueue.markComplete_inFlight, ByChannel.remove_apply, if_neg different]
    exact flying

variable {batch : FlushBatch} {subsecNanos : ℕ}

theorem EventQueue.requeue_alive (alive : (self.requeue jittered batch subsecNanos now).1 = none) :
    self.attempt batch.channelId ≤ maxRetries := by
  by_contra exceeded
  unfold requeue at alive
  rw [if_pos (Nat.not_le.mp exceeded)] at alive
  cases alive

theorem EventQueue.requeue_dead (dead : (self.requeue jittered batch subsecNanos now).1.isSome) :
    maxRetries < self.attempt batch.channelId := by
  by_contra within
  unfold requeue at dead
  rw [if_neg within] at dead
  cases dead

theorem EventQueue.requeue_inFlight (self : EventQueue) (batch : FlushBatch) (subsecNanos : ℕ)
    (now : Instant) : (self.requeue jittered batch subsecNanos now).2.inFlightChannels =
      self.inFlightChannels := by
  unfold requeue
  rcases Nat.lt_or_ge maxRetries (self.attempt batch.channelId) with dead | alive
  · rw [if_pos dead]
  · rw [if_neg (Nat.not_lt.mpr alive)]
    rfl

theorem Accounts.push (accounts : Accounts lost world)
    {event : QueuedEvent} (accepted : (world.queue.push event).1) :
    Accounts lost { world with
      queue := (world.queue.push event).2
      accepted := world.accepted ++ [event]
      removed := world.removed ++ world.queue.pushOverflow event } := by
  apply accounts.kept (EventQueue.push_moves accounts.keyed accepted)
  · intro item
    simp only [World.outside, count_append]
    omega
  · exact List.Sublist.refl _
  · intro batch member
    have flying := accounts.inFlight batch member
    have same : (world.queue.push event).2.inFlightChannels = world.queue.inFlightChannels := by
      unfold EventQueue.push
      split
      · rfl
      · rfl
    rw [EventQueue.isChannelInFlight] at flying ⊢
    rw [same]
    exact flying

theorem FlushBatch.count_contents (batch : FlushBatch) (event : QueuedEvent) :
    batch.contents.count event =
      (batch.events.map (BatchEvent.toQueued batch.channelId)).count event +
        (batch.cancelledEvents.map (BatchEvent.toQueued batch.channelId)).count event := by
  rw [contents, map_append, count_append]

variable {held : FlushBatch}

theorem Accounts.deadLetter (accounts : Accounts lost world) (holds : world.Holds held)
    (stamped : Option CancelReason) (subsecNanos : ℕ) (now : Instant)
    (exceeded : maxRetries < world.queue.attempt held.channelId) :
    Accounts lost { world.take held with
      queue := (world.queue.requeue jittered (held.stamp stamped) subsecNanos now).2
      removed := world.removed ++ held.contents } := by
  have moves : world.queue.MovesTo
      (world.queue.requeue jittered (held.stamp stamped) subsecNanos now).2 [] [] :=
    Moves.unchanged accounts.keyed (EventQueue.requeue_deadLetter jittered _ _ _ exceeded)
  have given : Accounts (lost ++ []) { world.take held with
      queue := (world.queue.requeue jittered (held.stamp stamped) subsecNanos now).2
      removed := world.removed ++ held.contents } := by
    apply accounts.givenBack holds moves (EventQueue.requeue_inFlight jittered _ _ _ _)
    intro event
    simp only [count_nil]
    omega
  rw [append_nil] at given
  exact given

theorem Accounts.requeue (accounts : Accounts lost world) (holds : world.Holds held)
    (stamped : Option CancelReason) (subsecNanos : ℕ) (now : Instant)
    (retried : world.queue.attempt held.channelId ≤ maxRetries) :
    Accounts (lost ++ held.cancelledEvents.map (BatchEvent.toQueued held.channelId))
      { world.take held with
        queue := (world.queue.requeue jittered (held.stamp stamped) subsecNanos now).2
        removed := world.removed ++ world.queue.frontOverflow held.channelId
          (held.events.map (BatchEvent.toQueued held.channelId)) } := by
  have moves := EventQueue.requeue_moves accounts.keyed jittered (held.stamp stamped)
    subsecNanos now retried
  apply accounts.givenBack holds moves (EventQueue.requeue_inFlight jittered _ _ _ _)
  intro event
  have parts := held.count_contents event
  simp only [FlushBatch.stamp]
  omega

theorem Accounts.requeuePreserveTimestamps
    (accounts : Accounts lost world) (holds : world.Holds held)
    (stamped : Option CancelReason) :
    Accounts (lost ++ held.cancelledEvents.map (BatchEvent.toQueued held.channelId))
      { world.take held with
        queue := world.queue.requeuePreserveTimestamps (held.stamp stamped)
        removed := world.removed ++ world.queue.frontOverflow held.channelId
          (held.events.map (BatchEvent.toQueued held.channelId)) } := by
  have moves := EventQueue.requeuePreserveTimestamps_moves accounts.keyed (held.stamp stamped)
  apply accounts.givenBack holds moves rfl
  intro event
  have parts := held.count_contents event
  simp only [FlushBatch.stamp]
  omega

theorem Accounts.requeueAsCancelled (accounts : Accounts lost world) (holds : world.Holds held)
    (stamped : Option CancelReason) (reason : CancelReason) :
    Accounts lost { world.take held with
      queue := world.queue.requeueAsCancelled (held.stamp stamped) reason } := by
  have moves := EventQueue.requeueAsCancelled_moves accounts.keyed (held.stamp stamped) reason
  have given : Accounts (lost ++ []) { world.take held with
      queue := world.queue.requeueAsCancelled (held.stamp stamped) reason
      removed := world.removed ++ [] } := by
    apply accounts.givenBack holds moves rfl
    intro event
    rfl
  rw [append_nil, append_nil, ← (world.take_kept held).2] at given
  exact given

theorem Accounts.expireAll (accounts : Accounts lost world) (now : Instant) (order : Iteration) :
    Accounts lost (world.expireAll now order) :=
  mem_expireAll (fun _ id known => known.expire id) accounts now order

theorem EventQueue.markNativeSteerPending_inFlight (self : EventQueue) (channelId : Uuid)
    (eventId : String) : (self.markNativeSteerPending channelId eventId).2.inFlightChannels =
      self.inFlightChannels := by
  unfold markNativeSteerPending
  split
  · rfl
  · rfl

theorem EventQueue.releaseNativeSteer_inFlight (self : EventQueue) (channelId : Uuid)
    (eventId : String) : (self.releaseNativeSteer channelId eventId).inFlightChannels =
      self.inFlightChannels := by
  unfold releaseNativeSteer
  split
  · rfl
  · rfl

theorem EventQueue.extendInFlightDeadline_eq (self : EventQueue) (channelId : Uuid)
    (maxTurnSecs : ℕ) (now : Instant) : ∃ deadlines,
      self.extendInFlightDeadline channelId maxTurnSecs now =
        { self with inFlightDeadlines := deadlines } := by
  unfold extendInFlightDeadline
  split
  · exact ⟨self.inFlightDeadlines, rfl⟩
  · simp only
    split
    · exact ⟨_, rfl⟩
    · exact ⟨self.inFlightDeadlines, rfl⟩

theorem Accounts.queueKept
    (accounts : Accounts lost world) (moves : world.queue.MovesTo queue [] [])
    (same : queue.inFlightChannels = world.queue.inFlightChannels) :
    Accounts lost { world with queue } := by
  have kept := accounts.queueOnly moves same
  rw [append_nil] at kept
  exact kept

variable {action : Action}

theorem Accounts.step (accounts : Accounts lost world) (step : Step jittered world action next) :
    ∃ more, Accounts (lost ++ more) next ∧ (more = [] ↔ GivesBackAll world action) := by
  have keyed := accounts.keyed
  have whole {after : World} (kept : Accounts lost after) (fair : GivesBackAll world action) :
      ∃ more, Accounts (lost ++ more) after ∧ (more = [] ↔ GivesBackAll world action) :=
    ⟨[], by rw [append_nil]; exact kept, fun _ => fair, fun _ => rfl⟩
  cases step with
  | push accepted => exact whole (accounts.push accepted) trivial
  | refuse refused =>
    rw [EventQueue.push_refused refused]
    exact whole accounts trivial
  | @flushNext now order orders =>
    have flushed := (accounts.expireAll now order).flush now order
    rw [World.expireAll_queue] at flushed
    exact whole flushed trivial
  | @hasFlushableWork now order orders =>
    have expired := accounts.expireAll now order
    have same : (world.queue.hasFlushableWork now order).2 =
        (world.expireAll now order).queue := (world.expireAll_queue now order).symm
    rw [same]
    exact whole expired trivial
  | @markComplete channelId now => exact whole (accounts.markComplete channelId now) trivial
  | @deadLetter held stamped subsecNanos now holds dead =>
    have exceeded := EventQueue.requeue_dead jittered dead
    exact whole (accounts.deadLetter jittered holds stamped subsecNanos now exceeded) (.inr exceeded)
  | @requeue held stamped subsecNanos now holds alive =>
    have retried := EventQueue.requeue_alive jittered alive
    refine ⟨_, accounts.requeue jittered holds stamped subsecNanos now retried, ?_⟩
    constructor
    · intro none
      exact .inl (map_eq_nil_iff.mp none)
    · intro fair
      rcases fair with none | exceeded
      · exact map_eq_nil_iff.mpr none
      · exact absurd exceeded (Nat.not_lt.mpr retried)
  | @requeuePreserveTimestamps held stamped holds =>
    exact ⟨_, accounts.requeuePreserveTimestamps holds stamped, map_eq_nil_iff⟩
  | @requeueAsCancelled held stamped reason holds =>
    exact whole (accounts.requeueAsCancelled holds stamped reason) trivial
  | @markNativeSteerPending channelId eventId =>
    have moves := EventQueue.markNativeSteerPending_moves keyed channelId eventId
    exact whole (accounts.queueKept moves
      (world.queue.markNativeSteerPending_inFlight channelId eventId)) trivial
  | @releaseNativeSteer channelId eventId =>
    have moves := EventQueue.releaseNativeSteer_moves keyed channelId eventId
    exact whole (accounts.queueOnly moves
      (world.queue.releaseNativeSteer_inFlight channelId eventId)) trivial
  | @removeEvent channelId eventId =>
    have moves := EventQueue.removeEvent_moves keyed channelId eventId
    exact whole (accounts.queueOnly moves rfl) trivial
  | @drainChannel channelId =>
    have moves := EventQueue.drainChannel_moves keyed channelId
    exact whole (accounts.queueOnly moves rfl) trivial
  | @compactExpiredState now =>
    have moves : world.queue.MovesTo (world.queue.compactExpiredState now) [] [] :=
      Moves.unchanged keyed fun _ => rfl
    exact whole (accounts.queueKept moves rfl) trivial
  | @extendInFlightDeadline channelId maxTurnSecs now =>
    rcases world.queue.extendInFlightDeadline_eq channelId maxTurnSecs now with ⟨deadlines, same⟩
    rw [same]
    have moves : world.queue.MovesTo
        { world.queue with inFlightDeadlines := deadlines } [] [] :=
      Moves.unchanged keyed fun _ => rfl
    exact whole (accounts.queueKept moves rfl) trivial

theorem Accounts.run {later : World} {actions : List Action}
    (accounts : Accounts lost world) (run : Run (Step jittered) world actions later) :
    ∃ more, Accounts (lost ++ more) later ∧
      (more = [] → Run (Guarded GivesBackAll (Step jittered)) world actions later) := by
  induction run generalizing lost with
  | nil state => exact ⟨[], by rw [append_nil]; exact accounts, fun _ => .nil state⟩
  | cons head tail ih =>
    rcases accounts.step jittered head with ⟨first, middle, fair⟩
    rcases ih middle with ⟨rest, last, guarded⟩
    refine ⟨first ++ rest, by rw [← append_assoc]; exact last, ?_⟩
    intro none
    rcases append_eq_nil_iff.mp none with ⟨noFirst, noRest⟩
    exact .cons ⟨fair.mp noFirst, head⟩ (guarded noRest)

theorem Conserved.step (conserved : Conserved world)
    (step : Guarded GivesBackAll (Step jittered) world action next) : Conserved next := by
  rcases Accounts.step jittered conserved step.2 with ⟨more, kept, fair⟩
  rw [fair.mpr step.1] at kept
  exact kept

theorem Accounts.unique {other : List QueuedEvent}
    (first : Accounts lost world) (second : Accounts other world) : lost.Perm other := by
  apply perm_iff_count.mpr
  intro event
  have left := first.counts event
  have right := second.counts event
  omega

theorem conserved_initial (dedupMode : DedupMode) (inFlightDeadline : ℕ) :
    Conserved (.initial dedupMode inFlightDeadline) where
  keyed := nofun
  counts := fun _ => rfl
  inFlight := nofun
  single := nodup_nil

/-- Exactly if no batch with cancelled events is given back for a retry. -/
theorem conserved_iff {dedupMode : DedupMode} {inFlightDeadline : ℕ} {actions : List Action}
    {world : World} (run : Run (Step jittered) (.initial dedupMode inFlightDeadline) actions world) :
    Conserved world ↔ Run (Guarded GivesBackAll (Step jittered))
      (.initial dedupMode inFlightDeadline) actions world := by
  have start := conserved_initial dedupMode inFlightDeadline
  constructor
  · intro conserved
    rcases Accounts.run jittered start run with ⟨more, kept, guarded⟩
    have none := kept.unique conserved
    exact guarded none.eq_nil
  · intro guarded
    apply guarded.invariant _ start
    intro state action next known step
    exact Conserved.step jittered known step

theorem lists_nil {α : Type} {map : ByChannel α} (vacant : ∀ id, map id = none) :
    Lists [] map := by
  refine ⟨nodup_nil, fun id => ?_⟩
  rw [vacant id]
  exact ⟨nofun, nofun⟩

theorem lists_singleton {α : Type} {channelId : Uuid} {map : ByChannel α}
    (present : (map channelId).isSome) (others : ∀ id, id ≠ channelId → map id = none) :
    Lists [channelId] map := by
  refine ⟨nodup_singleton channelId, fun id => ?_⟩
  rw [mem_singleton]
  constructor
  · intro same
    rw [same]
    exact present
  · intro here
    by_contra different
    rw [others id different] at here
    cases here

def sampleChannel : Uuid := .fill 0

def sampleEvent (byte : UInt8) : QueuedEvent where
  channelId := sampleChannel
  event := {
    id := .fill byte
    pubkey := .fill 0
    createdAt := 1767225600
    kind := 9
    tags := []
    content := "hello"
    sig := [] }
  receivedAt := 0
  promptTag := "mention"

def cancelledBatch : FlushBatch := ⟨sampleChannel, [(sampleEvent 1).toBatch], [], none⟩

def mergedBatch : FlushBatch :=
  ⟨sampleChannel, [(sampleEvent 2).toBatch], [(sampleEvent 1).toBatch], some .steer⟩

def mergingActions : List Action :=
  [.push (sampleEvent 1), .flushNext 0 ⟨[], [sampleChannel], []⟩,
    .requeueAsCancelled cancelledBatch none .steer, .markComplete sampleChannel 0,
    .push (sampleEvent 2), .flushNext 0 ⟨[], [sampleChannel], [sampleChannel]⟩]

def sampleJitter (_ _ : ℕ) : ℕ := 0

def sampleInitial : World := .initial .queue (fromSecs defaultInFlightDeadlineSecs)

theorem merging_run : ∃ world,
    Run (Guarded GivesBackAll (Step sampleJitter)) sampleInitial mergingActions world ∧
      world.Holds mergedBatch ∧ world.queue.attempt sampleChannel = 1 := by
  refine ⟨_,
    .cons ⟨trivial, .push rfl⟩ <|
    .cons ⟨trivial, .flushNext
      ⟨lists_nil fun _ => rfl, lists_singleton rfl ?_, lists_nil fun _ => rfl⟩⟩ <|
    .cons ⟨trivial, .requeueAsCancelled (.inl (by decide))⟩ <|
    .cons ⟨trivial, .markComplete⟩ <|
    .cons ⟨trivial, .push rfl⟩ <|
    .cons ⟨trivial, .flushNext
      ⟨lists_nil ?_, lists_singleton rfl ?_, lists_singleton rfl ?_⟩⟩ (.nil _),
    .inl (by decide), rfl⟩
  · intro id different
    change Function.update ByChannel.empty sampleChannel _ id = none
    rw [update_of_ne different]
    rfl
  · intro id
    change Function.update (Function.update ByChannel.empty sampleChannel _) sampleChannel _ id =
      none
    by_cases same : id = sampleChannel
    · rw [same, Function.update_self]
    · rw [update_of_ne same, update_of_ne same]
      rfl
  · intro id different
    change Function.update (Function.update (Function.update ByChannel.empty sampleChannel _)
      sampleChannel _) sampleChannel _ id = none
    rw [update_of_ne different, update_of_ne different,
      update_of_ne different]
    rfl
  · intro id different
    change Function.update (Function.update ByChannel.empty sampleChannel _) sampleChannel _ id =
      none
    rw [update_of_ne different, update_of_ne different]
    rfl

theorem conserved_iff_merging : ∃ world,
    Run (Step sampleJitter) sampleInitial mergingActions world ∧ world.Holds mergedBatch ∧
      Conserved world := by
  rcases merging_run with ⟨world, guarded, holds, -⟩
  exact ⟨world, guarded.unguarded, holds, (conserved_iff sampleJitter guarded.unguarded).mpr guarded⟩

/-- Giving the merged batch back, on either path, loses the cancelled event. -/
theorem not_conserved_mergedGivenBack :
    (∃ world, Run (Step sampleJitter) sampleInitial
      (mergingActions ++ [.requeue mergedBatch (some .steer) 0 0]) world ∧ ¬ Conserved world) ∧
    ∃ world, Run (Step sampleJitter) sampleInitial
      (mergingActions ++ [.requeuePreserveTimestamps mergedBatch (some .steer)]) world ∧
        ¬ Conserved world := by
  rcases merging_run with ⟨world, guarded, holds, first⟩
  have start := conserved_initial .queue (fromSecs defaultInFlightDeadlineSecs)
  rcases Accounts.run sampleJitter start guarded.unguarded with ⟨more, kept, -⟩
  have retried : world.queue.attempt mergedBatch.channelId ≤ maxRetries := by
    change world.queue.attempt sampleChannel ≤ maxRetries
    rw [first]
    decide
  have lossy {next : World} (lost : Accounts (more ++
      mergedBatch.cancelledEvents.map (BatchEvent.toQueued mergedBatch.channelId)) next) :
      ¬ Conserved next := by
    intro conserved
    have none := (lost.unique conserved).length_eq
    rw [length_append] at none
    change more.length + 1 = 0 at none
    omega
  have alive : (world.queue.requeue sampleJitter (mergedBatch.stamp (some .steer)) 0 0).1 = none :=
    congrArg Prod.fst (if_neg (Nat.not_lt.mpr retried))
  exact ⟨⟨_, guarded.unguarded.append (.cons (.requeue holds alive) (.nil _)),
      lossy (kept.requeue sampleJitter holds _ 0 0 retried)⟩,
    ⟨_, guarded.unguarded.append (.cons (.requeuePreserveTimestamps holds) (.nil _)),
      lossy (kept.requeuePreserveTimestamps holds _)⟩⟩

end Buzz.Harness
