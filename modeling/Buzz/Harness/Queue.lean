import Buzz.Nostr.Event
import Mathlib.Data.List.MinMax
import Mathlib.Data.List.Sort

/-! The harness's event queue: per-channel queues, batches in flight, retries and the side tables
for cancelled batches and native steers. -/

namespace Buzz.Harness

open Nostr

def maxPendingPerChannel : ℕ := 500
def maxBatchEvents : ℕ := 50
def maxRetries : ℕ := 10
def baseRetryDelaySecs : ℕ := 5
def maxRetryDelaySecs : ℕ := 300
def inFlightDeadlineBufferSecs : ℕ := 100
def defaultInFlightDeadlineSecs : ℕ := 7300

abbrev Instant := ℕ

def fromSecs (secs : ℕ) : ℕ := secs * 1000000000

structure QueuedEvent where
  channelId : Uuid
  event : Event
  receivedAt : Instant
  promptTag : String
  deriving DecidableEq

structure BatchEvent where
  event : Event
  promptTag : String
  receivedAt : Instant
  deriving DecidableEq

def QueuedEvent.toBatch (self : QueuedEvent) : BatchEvent :=
  ⟨self.event, self.promptTag, self.receivedAt⟩

def BatchEvent.toQueued (channelId : Uuid) (self : BatchEvent) : QueuedEvent :=
  ⟨channelId, self.event, self.receivedAt, self.promptTag⟩

inductive CancelReason
  | interrupt
  | steer
  deriving DecidableEq

structure FlushBatch where
  channelId : Uuid
  events : List BatchEvent
  cancelledEvents : List BatchEvent
  cancelReason : Option CancelReason
  deriving DecidableEq

inductive DedupMode
  | drop
  | queue
  deriving DecidableEq

/-- A hash map by channel; a hash set is one with no values. -/
abbrev ByChannel (α : Type) := Uuid → Option α

namespace ByChannel

variable {α : Type}

def empty : ByChannel α := fun _ => none

def insert (self : ByChannel α) (channelId : Uuid) (value : α) : ByChannel α :=
  Function.update self channelId (some value)

def remove (self : ByChannel α) (channelId : Uuid) : ByChannel α :=
  Function.update self channelId none

/-- `entry(..).or_default()` of a map whose values are lists. -/
def orDefault (self : ByChannel (List α)) (channelId : Uuid) : List α :=
  (self channelId).getD []

@[simp] theorem insert_apply (self : ByChannel α) (channelId other : Uuid) (value : α) :
    self.insert channelId value other = if other = channelId then some value else self other :=
  Function.update_apply self channelId (some value) other

@[simp] theorem remove_apply (self : ByChannel α) (channelId other : Uuid) :
    self.remove channelId other = if other = channelId then none else self other :=
  Function.update_apply self channelId none other

@[simp] theorem orDefault_insert (self : ByChannel (List α)) (channelId other : Uuid)
    (values : List α) : (self.insert channelId values).orDefault other =
      if other = channelId then values else self.orDefault other := by
  simp only [orDefault, insert_apply]
  split
  · rfl
  · rfl

@[simp] theorem orDefault_remove (self : ByChannel (List α)) (channelId other : Uuid) :
    (self.remove channelId).orDefault other =
      if other = channelId then [] else self.orDefault other := by
  simp only [orDefault, remove_apply]
  split
  · rfl
  · rfl

/-- What the source does to an entry it has changed: an empty list is not kept. -/
def insertOrRemove (self : ByChannel (List α)) (channelId : Uuid) (values : List α) :
    ByChannel (List α) :=
  if values = [] then self.remove channelId else self.insert channelId values

@[simp] theorem orDefault_insertOrRemove (self : ByChannel (List α)) (channelId other : Uuid)
    (values : List α) : (self.insertOrRemove channelId values).orDefault other =
      if other = channelId then values else self.orDefault other := by
  unfold insertOrRemove
  split
  next none => rw [orDefault_remove, none]
  · rw [orDefault_insert]

end ByChannel

structure EventQueue where
  queues : ByChannel (List QueuedEvent)
  inFlightChannels : ByChannel Unit
  inFlightDeadlines : ByChannel Instant
  inFlightBatchSizes : ByChannel ℕ
  retryAfter : ByChannel Instant
  retryCounts : ByChannel ℕ
  dedupMode : DedupMode
  cancelledBatches : ByChannel (List BatchEvent)
  cancelReasons : ByChannel CancelReason
  withheldNativeSteer : ByChannel (List QueuedEvent)
  inFlightDeadline : ℕ

structure Iteration where
  inFlightDeadlines : List Uuid
  queues : List Uuid
  cancelledBatches : List Uuid

namespace EventQueue

def new (dedupMode : DedupMode) : EventQueue where
  queues := .empty
  inFlightChannels := .empty
  inFlightDeadlines := .empty
  inFlightBatchSizes := .empty
  retryAfter := .empty
  retryCounts := .empty
  dedupMode
  cancelledBatches := .empty
  cancelReasons := .empty
  withheldNativeSteer := .empty
  inFlightDeadline := fromSecs defaultInFlightDeadlineSecs

def withInFlightDeadline (self : EventQueue) (maxTurnDurationSecs : ℕ) : EventQueue :=
  { self with inFlightDeadline := fromSecs (maxTurnDurationSecs + inFlightDeadlineBufferSecs) }

def extendInFlightDeadline (self : EventQueue) (channelId : Uuid) (maxTurnSecs now : ℕ) :
    EventQueue :=
  match self.inFlightDeadlines channelId with
  | none => self
  | some current =>
    let extended := now + fromSecs (maxTurnSecs + inFlightDeadlineBufferSecs)
    if current < extended then
      { self with inFlightDeadlines := self.inFlightDeadlines.insert channelId extended }
    else self

def isChannelInFlight (self : EventQueue) (channelId : Uuid) : Bool :=
  (self.inFlightChannels channelId).isSome

def push (self : EventQueue) (event : QueuedEvent) : Bool × EventQueue :=
  if self.dedupMode = .drop ∧ self.isChannelInFlight event.channelId then (false, self)
  else
    let queue := self.queues.orDefault event.channelId
    let queue := if maxPendingPerChannel ≤ queue.length then queue.tail else queue
    (true, { self with queues := self.queues.insert event.channelId (queue ++ [event]) })

/-- `pop_back` while over the cap. -/
def pushFront (self : EventQueue) (channelId : Uuid) (events : List QueuedEvent) : EventQueue :=
  { self with
    queues := self.queues.insert channelId
      ((events ++ self.queues.orDefault channelId).take maxPendingPerChannel) }

def recoverWithheldForExpiredChannel (self : EventQueue) (channelId : Uuid) : EventQueue :=
  match self.withheldNativeSteer channelId with
  | none => self
  | some entries =>
    { self with withheldNativeSteer := self.withheldNativeSteer.remove channelId }.pushFront
      channelId entries

def expired (self : EventQueue) (now : Instant) (order : List Uuid) : List Uuid :=
  order.filter fun id => (self.inFlightDeadlines id).any (· ≤ now)

/-- One turn of the expiry loop of `flush_next` and `has_flushable_work`. -/
def expire (self : EventQueue) (id : Uuid) : EventQueue :=
  { self with
    inFlightBatchSizes := self.inFlightBatchSizes.remove id
    inFlightChannels := self.inFlightChannels.remove id
    inFlightDeadlines := self.inFlightDeadlines.remove id
  }.recoverWithheldForExpiredChannel id

def ready (self : EventQueue) (now : Instant) (id : Uuid) : Bool :=
  self.queues.orDefault id ≠ [] && !self.isChannelInFlight id &&
    (self.retryAfter id).all (· ≤ now)

def oldestReady (self : EventQueue) (now : Instant) (order : List Uuid) : Option Uuid :=
  ((order.filterMap fun id =>
    if self.ready now id then
      (self.queues.orDefault id).head?.map fun head => (id, head.receivedAt)
    else none).argmin Prod.snd).map Prod.fst

/-- The first channel with cancelled events that is not in flight. -/
def parked (self : EventQueue) (order : List Uuid) : Option Uuid :=
  order.find? fun id => (self.cancelledBatches id).isSome && !self.isChannelInFlight id

def markInFlight (self : EventQueue) (channelId : Uuid) (now : Instant) (size : ℕ) :
    EventQueue :=
  { self with
    inFlightChannels := self.inFlightChannels.insert channelId ()
    inFlightDeadlines := self.inFlightDeadlines.insert channelId (now + self.inFlightDeadline)
    inFlightBatchSizes := self.inFlightBatchSizes.insert channelId size }

def flushParked (self : EventQueue) (now : Instant) (id : Uuid) : FlushBatch × EventQueue :=
  let cancelled := self.cancelledBatches.orDefault id
  (⟨id, cancelled, [], self.cancelReasons id⟩,
    { self with
      cancelledBatches := self.cancelledBatches.remove id
      cancelReasons := self.cancelReasons.remove id }.markInFlight id now cancelled.length)

/-- The sort is stable. -/
def sortByCreatedAt (events : List BatchEvent) : List BatchEvent :=
  events.insertionSort fun first second => first.event.createdAt ≤ second.event.createdAt

def flushReady (self : EventQueue) (now : Instant) (channelId : Uuid) :
    FlushBatch × EventQueue :=
  let queue := self.queues.orDefault channelId
  let events := sortByCreatedAt ((queue.take maxBatchEvents).map QueuedEvent.toBatch)
  let cancelled := self.cancelledBatches.orDefault channelId
  let reason := if cancelled = [] then none else self.cancelReasons channelId
  (⟨channelId, events, cancelled, reason⟩,
    { self with
      queues := self.queues.insertOrRemove channelId (queue.drop maxBatchEvents)
      cancelledBatches := self.cancelledBatches.remove channelId
      cancelReasons := self.cancelReasons.remove channelId }.markInFlight channelId now
        events.length)

/-- `flush_next` after its expiry loop. -/
def flush (self : EventQueue) (now : Instant) (order : Iteration) :
    Option FlushBatch × EventQueue :=
  match self.oldestReady now order.queues with
  | some id => ((self.flushReady now id).1, (self.flushReady now id).2)
  | none =>
    match self.parked order.cancelledBatches with
    | some id => ((self.flushParked now id).1, (self.flushParked now id).2)
    | none => (none, self)

def expireAll (self : EventQueue) (now : Instant) (order : Iteration) : EventQueue :=
  (self.expired now order.inFlightDeadlines).foldl expire self

def flushNext (self : EventQueue) (now : Instant) (order : Iteration) :
    Option FlushBatch × EventQueue :=
  (self.expireAll now order).flush now order

def hasFlushableWork (self : EventQueue) (now : Instant) (order : Iteration) :
    Bool × EventQueue :=
  let self := self.expireAll now order
  (order.queues.any (self.ready now) ||
    order.cancelledBatches.any fun id =>
      (self.cancelledBatches id).isSome && !self.isChannelInFlight id, self)

def markComplete (self : EventQueue) (channelId : Uuid) (now : Instant) : EventQueue :=
  let self := { self with
    inFlightChannels := self.inFlightChannels.remove channelId
    inFlightDeadlines := self.inFlightDeadlines.remove channelId
    inFlightBatchSizes := self.inFlightBatchSizes.remove channelId }
  match self.retryAfter channelId with
  | some deadline =>
    if now < deadline then self
    else { self with
      retryAfter := self.retryAfter.remove channelId
      retryCounts := self.retryCounts.remove channelId }
  | none => { self with retryCounts := self.retryCounts.remove channelId }

/-- `BASE * 2^(attempt-1)`, capped. -/
def backoffSecs (attempt : ℕ) : ℕ :=
  min (baseRetryDelaySecs * 2 ^ min (attempt - 1) 6) maxRetryDelaySecs

def attempt (self : EventQueue) (channelId : Uuid) : ℕ :=
  (self.retryCounts channelId).getD 0 + 1

/-- `jittered` is the floating-point delay. -/
def requeue (jittered : ℕ → ℕ → ℕ) (self : EventQueue) (batch : FlushBatch) (subsecNanos : ℕ)
    (now : Instant) : Option FlushBatch × EventQueue :=
  let channelId := batch.channelId
  let attempt := self.attempt channelId
  if maxRetries < attempt then
    (some batch, { self with
      retryCounts := self.retryCounts.remove channelId
      retryAfter := self.retryAfter.remove channelId })
  else
    let requeued := self.pushFront channelId (batch.events.map (BatchEvent.toQueued channelId))
    (none, { requeued with
      retryCounts := self.retryCounts.insert channelId attempt
      retryAfter :=
        self.retryAfter.insert channelId (now + jittered (backoffSecs attempt) subsecNanos) })

def requeuePreserveTimestamps (self : EventQueue) (batch : FlushBatch) : EventQueue :=
  self.pushFront batch.channelId (batch.events.map (BatchEvent.toQueued batch.channelId))

def requeueAsCancelled (self : EventQueue) (batch : FlushBatch) (reason : CancelReason) :
    EventQueue :=
  { self with
    cancelledBatches := self.cancelledBatches.insert batch.channelId
      (self.cancelledBatches.orDefault batch.channelId ++ batch.cancelledEvents ++ batch.events)
    cancelReasons := self.cancelReasons.insert batch.channelId reason }

def drainChannel (self : EventQueue) (channelId : Uuid) : List String × EventQueue :=
  ((self.queues.orDefault channelId).map fun queued => queued.event.id.toHex,
    { self with
      queues := self.queues.remove channelId
      retryAfter := self.retryAfter.remove channelId
      retryCounts := self.retryCounts.remove channelId
      cancelledBatches := self.cancelledBatches.remove channelId
      cancelReasons := self.cancelReasons.remove channelId
      withheldNativeSteer := self.withheldNativeSteer.remove channelId })

def hasId (eventId : String) (queued : QueuedEvent) : Bool := queued.event.id.toHex == eventId

/-- `remove(pos)` at the first event with the id. -/
def takeFirst (eventId : String) (events : List QueuedEvent) :
    Option (QueuedEvent × List QueuedEvent) :=
  (events.find? (hasId eventId)).map fun found => (found, events.eraseP (hasId eventId))

def markNativeSteerPending (self : EventQueue) (channelId : Uuid) (eventId : String) :
    Bool × EventQueue :=
  match takeFirst eventId (self.queues.orDefault channelId) with
  | none => (false, self)
  | some (found, rest) =>
    (true, { self with
      queues := self.queues.insertOrRemove channelId rest
      withheldNativeSteer := self.withheldNativeSteer.insert channelId
        (self.withheldNativeSteer.orDefault channelId ++ [found]) })

def releaseNativeSteer (self : EventQueue) (channelId : Uuid) (eventId : String) : EventQueue :=
  match takeFirst eventId (self.withheldNativeSteer.orDefault channelId) with
  | none => self
  | some (found, rest) =>
    { self with
      withheldNativeSteer := self.withheldNativeSteer.insertOrRemove channelId rest
    }.pushFront channelId [found]

/-- `retain` on one of the maps, where the channel has an entry. -/
def retainOthers (events : ByChannel (List QueuedEvent)) (channelId : Uuid) (eventId : String) :
    ByChannel (List QueuedEvent) :=
  match events channelId with
  | none => events
  | some entries =>
    events.insertOrRemove channelId (entries.filter fun queued => !hasId eventId queued)

def removeEvent (self : EventQueue) (channelId : Uuid) (eventId : String) : EventQueue :=
  { self with
    withheldNativeSteer := retainOthers self.withheldNativeSteer channelId eventId
    queues := retainOthers self.queues channelId eventId }

def compactExpiredState (self : EventQueue) (now : Instant) : EventQueue :=
  let retryAfter : ByChannel Instant := fun id =>
    (self.retryAfter id).filter fun deadline => now < deadline
  { self with
    retryAfter
    retryCounts := fun id => (self.retryCounts id).filter fun _ =>
      (retryAfter id).isSome || self.queues.orDefault id ≠ [] || self.isChannelInFlight id }

end EventQueue

end Buzz.Harness
