import Buzz.Harness.Flushable
import Buzz.Harness.InFlight

/-! Which channel `flush_next` serves. -/

namespace Buzz.Harness

open Nostr Library.Transition List Option

def InReceiptOrder (events : List QueuedEvent) : Prop :=
  events.Pairwise fun first second => first.receivedAt ≤ second.receivedAt

def restored (queue : EventQueue) (id : Uuid) : Action → List QueuedEvent
  | .flushNext now _ | .hasFlushableWork now _ =>
    if queue.overdue now id then queue.withheldNativeSteer.orDefault id else []
  | .requeue held _ _ _ =>
    if id = held.channelId ∧ queue.attempt held.channelId ≤ maxRetries then
      held.events.map (BatchEvent.toQueued held.channelId)
    else []
  | .requeuePreserveTimestamps held _ =>
    if id = held.channelId then held.events.map (BatchEvent.toQueued held.channelId) else []
  | .releaseNativeSteer channelId eventId =>
    if id = channelId then
      ((queue.withheldNativeSteer.orDefault channelId).find? (EventQueue.hasId eventId)).toList
    else []
  | _ => []

def arriving (id : Uuid) : Action → List QueuedEvent
  | .push event => if id = event.channelId then [event] else []
  | _ => []

/-- The order of receipt. -/
def KeepsReceiptOrder (world : World) (action : Action) : Prop :=
  ∀ id, InReceiptOrder ((restored world.queue id action ++ world.queue.queues.orDefault id).take
    maxPendingPerChannel ++ arriving id action)

namespace EventQueue

variable {self : EventQueue} {now : Instant} {id : Uuid}

theorem take_queue (books : self.Books) (id : Uuid) :
    (self.queues.orDefault id).take maxPendingPerChannel = self.queues.orDefault id :=
  take_of_length_le (books.capped id)

theorem push_queued (event : QueuedEvent) (id : Uuid) :
    ((self.push event).2.queues.orDefault id).Sublist
      (self.queues.orDefault id ++ if id = event.channelId then [event] else []) := by
  unfold push
  split
  · exact sublist_append_left _ _
  · simp only [ByChannel.orDefault_insert]
    by_cases same : id = event.channelId
    · rw [if_pos same, if_pos same, same]
      apply List.Sublist.append_right
      split
      · exact tail_sublist _
      · exact List.Sublist.refl _
    · rw [if_neg same, if_neg same, append_nil]

theorem pushFront_queued (channelId : Uuid) (events : List QueuedEvent) (id : Uuid) :
    (self.pushFront channelId events).queues.orDefault id =
      if id = channelId then (events ++ self.queues.orDefault id).take maxPendingPerChannel
      else self.queues.orDefault id := by
  rw [pushFront, ByChannel.orDefault_insert]
  by_cases same : id = channelId
  · rw [if_pos same, if_pos same, same]
  · rw [if_neg same, if_neg same]

theorem flush_queued (order : Iteration) (id : Uuid) :
    ((self.flush now order).2.queues.orDefault id).Sublist (self.queues.orDefault id) := by
  unfold flush
  split
  next served _ =>
    simp only [flushReady, markInFlight, ByChannel.orDefault_insertOrRemove]
    by_cases same : id = served
    · rw [if_pos same, same]
      exact drop_sublist _ _
    · rw [if_neg same]
  · split
    · exact List.Sublist.refl _
    · exact List.Sublist.refl _

theorem pending_queued (books : self.Books) (now : Instant) (id : Uuid) :
    self.pending now id =
      ((if self.overdue now id then self.withheldNativeSteer.orDefault id else []) ++
        self.queues.orDefault id).take maxPendingPerChannel := by
  rw [pending]
  split
  · cases withheld : self.withheldNativeSteer id with
    | none =>
      have empty : self.withheldNativeSteer.orDefault id = [] := by
        rw [ByChannel.orDefault, withheld]
        rfl
      rw [recovered_of_none withheld, empty, nil_append, take_queue books]
    | some entries =>
      have kept : self.withheldNativeSteer.orDefault id = entries := by
        rw [ByChannel.orDefault, withheld]
        rfl
      rw [recovered_of_withheld withheld, kept]
  · exact (take_queue books id).symm

theorem markComplete_queues (channelId : Uuid) (now : Instant) :
    (self.markComplete channelId now).queues = self.queues := by
  unfold markComplete
  simp only
  split
  · split
    · rfl
    · rfl
  · rfl

theorem requeue_queued (jittered : ℕ → ℕ → ℕ) (batch : FlushBatch) (subsecNanos : ℕ)
    (now : Instant) (books : self.Books) (id : Uuid) :
    (self.requeue jittered batch subsecNanos now).2.queues.orDefault id =
      ((if id = batch.channelId ∧ self.attempt batch.channelId ≤ maxRetries then
          batch.events.map (BatchEvent.toQueued batch.channelId) else []) ++
        self.queues.orDefault id).take maxPendingPerChannel := by
  have whole := (take_queue books id).symm
  unfold requeue
  by_cases dead : maxRetries < self.attempt batch.channelId
  · rw [if_pos dead, if_neg (fun both => Nat.not_le.mpr dead both.2)]
    exact whole
  · rw [if_neg dead]
    simp only [pushFront_queued]
    by_cases same : id = batch.channelId
    · rw [if_pos same, if_pos ⟨same, Nat.not_lt.mp dead⟩]
    · rw [if_neg same, if_neg (fun both => same both.1)]
      exact whole

theorem markNativeSteerPending_queued (channelId : Uuid) (eventId : String) (id : Uuid) :
    ((self.markNativeSteerPending channelId eventId).2.queues.orDefault id).Sublist
      (self.queues.orDefault id) := by
  unfold markNativeSteerPending takeFirst
  cases found : (self.queues.orDefault channelId).find? (hasId eventId) with
  | none => exact List.Sublist.refl _
  | some event =>
    simp only [map_some, ByChannel.orDefault_insertOrRemove]
    by_cases same : id = channelId
    · rw [if_pos same, same]
      exact eraseP_sublist
    · rw [if_neg same]

theorem releaseNativeSteer_queued (books : self.Books) (channelId : Uuid) (eventId : String)
    (id : Uuid) : (self.releaseNativeSteer channelId eventId).queues.orDefault id =
      ((if id = channelId then
          ((self.withheldNativeSteer.orDefault channelId).find? (hasId eventId)).toList else []) ++
        self.queues.orDefault id).take maxPendingPerChannel := by
  have whole := (take_queue books id).symm
  unfold releaseNativeSteer takeFirst
  cases found : (self.withheldNativeSteer.orDefault channelId).find? (hasId eventId) with
  | none =>
    rw [toList_none, ite_self]
    exact whole
  | some event =>
    simp only [map_some, pushFront_queued, toList_some]
    by_cases same : id = channelId
    · rw [if_pos same, if_pos same]
    · rw [if_neg same, if_neg same]
      exact whole

theorem removeEvent_queued (channelId : Uuid) (eventId : String) (id : Uuid) :
    ((self.removeEvent channelId eventId).queues.orDefault id).Sublist
      (self.queues.orDefault id) := by
  rw [removeEvent, orDefault_retainOthers]
  by_cases same : id = channelId
  · rw [if_pos same, same]
    exact filter_sublist
  · rw [if_neg same]

theorem drainChannel_queued (channelId : Uuid) (id : Uuid) :
    ((self.drainChannel channelId).2.queues.orDefault id).Sublist (self.queues.orDefault id) := by
  rw [drainChannel, ByChannel.orDefault_remove]
  split
  · exact nil_sublist _
  · exact List.Sublist.refl _

end EventQueue

variable {jittered : ℕ → ℕ → ℕ} {world next : World} {action : Action}

theorem queued_step (books : world.queue.Books) (step : Step jittered world action next) (id : Uuid) :
    (next.queue.queues.orDefault id).Sublist
      ((restored world.queue id action ++ world.queue.queues.orDefault id).take
        maxPendingPerChannel ++ arriving id action) := by
  have whole := (EventQueue.take_queue books id).symm
  have pendingAt (now : Instant) := EventQueue.pending_queued books now id
  cases step with
  | push accepted | refuse refused =>
    simp only [restored, arriving, nil_append, ← whole]
    exact EventQueue.push_queued _ id
  | flushNext orders =>
    simp only [restored, arriving, append_nil, ← pendingAt,
      ← EventQueue.expireAll_queues orders.inFlightDeadlines]
    exact EventQueue.flush_queued _ id
  | hasFlushableWork orders =>
    simp only [restored, arriving, append_nil, ← pendingAt,
      ← EventQueue.expireAll_queues orders.inFlightDeadlines]
    exact List.Sublist.refl _
  | markComplete =>
    simp only [restored, arriving, nil_append, append_nil, ← whole,
      EventQueue.markComplete_queues]
    exact List.Sublist.refl _
  | deadLetter holds dead | requeue holds alive =>
    simp only [restored, arriving, append_nil, EventQueue.requeue_queued _ _ _ _ books]
    exact List.Sublist.refl _
  | @requeuePreserveTimestamps held stamped holds =>
    simp only [restored, arriving, append_nil, EventQueue.requeuePreserveTimestamps,
      EventQueue.pushFront_queued, FlushBatch.stamp]
    by_cases same : id = held.channelId
    · rw [if_pos same, if_pos same]
    · rw [if_neg same, if_neg same, nil_append, ← whole]
  | requeueAsCancelled holds =>
    simp only [restored, arriving, nil_append, append_nil, ← whole]
    exact List.Sublist.refl _
  | markNativeSteerPending =>
    simp only [restored, arriving, nil_append, append_nil, ← whole]
    exact EventQueue.markNativeSteerPending_queued _ _ id
  | releaseNativeSteer =>
    simp only [restored, arriving, append_nil, EventQueue.releaseNativeSteer_queued books]
    exact List.Sublist.refl _
  | removeEvent =>
    simp only [restored, arriving, nil_append, append_nil, ← whole]
    exact EventQueue.removeEvent_queued _ _ id
  | drainChannel =>
    simp only [restored, arriving, nil_append, append_nil, ← whole]
    exact EventQueue.drainChannel_queued _ id
  | compactExpiredState =>
    simp only [restored, arriving, nil_append, append_nil, ← whole]
    exact List.Sublist.refl _
  | @extendInFlightDeadline channelId maxTurnSecs now =>
    obtain ⟨deadlines, same⟩ := world.queue.extendInFlightDeadline_eq channelId maxTurnSecs now
    simp only [restored, arriving, nil_append, append_nil, ← whole, same]
    exact List.Sublist.refl _

structure Fifo (world : World) : Prop where
  books : world.queue.Books
  ordered : ∀ id, InReceiptOrder (world.queue.queues.orDefault id)

theorem fifo_step (fifo : Fifo world)
    (step : Guarded KeepsReceiptOrder (Step jittered) world action next) : Fifo next := by
  constructor
  · exact books_step fifo.books step.2
  · intro id
    exact List.Pairwise.sublist (queued_step fifo.books step.2 id) (step.1 id)

theorem fifo_run {dedupMode : DedupMode} {inFlightDeadline : ℕ} {actions : List Action}
    (run : Run (Guarded KeepsReceiptOrder (Step jittered)) (.initial dedupMode inFlightDeadline)
      actions world) : Fifo world := by
  have start : Fifo (.initial dedupMode inFlightDeadline) :=
    ⟨@books_run jittered _ _ _ _ (.nil _), fun _ => List.Pairwise.nil⟩
  apply run.invariant _ start
  intro state action next fifo step
  exact fifo_step fifo step

theorem InReceiptOrder.head_le {events : List QueuedEvent} (ordered : InReceiptOrder events)
    {head : QueuedEvent} (isHead : events.head? = some head) {event : QueuedEvent}
    (member : event ∈ events) : head.receivedAt ≤ event.receivedAt := by
  obtain ⟨tail, rfl⟩ := head?_eq_some_iff.mp isHead
  rcases mem_cons.mp member with rfl | later
  · exact Nat.le_refl _
  · exact (pairwise_cons.mp ordered).1 event later

/-- No channel that could be served in its place has an older event. -/
def ServesOldest (queue : EventQueue) (now : Instant) (order : Iteration) : Prop :=
  ∀ id, (queue.expireAll now order).oldestReady now order.queues = some id →
    ∀ other, (queue.expireAll now order).ready now other →
      ∀ event ∈ queue.pending now other, ∃ served ∈ queue.pending now id,
        served.receivedAt ≤ event.receivedAt

/-- Every flush serves the channel with the oldest pending event. -/
theorem serves_oldest {dedupMode : DedupMode} {inFlightDeadline : ℕ} {actions : List Action}
    (run : Run (Guarded KeepsReceiptOrder (Step jittered)) (.initial dedupMode inFlightDeadline)
      actions world) {now : Instant} {order : Iteration}
    (step : Guarded KeepsReceiptOrder (Step jittered) world (.flushNext now order) next) :
    ServesOldest world.queue now order := by
  have fifo := fifo_run run
  obtain ⟨keeps, flushed⟩ := step
  cases flushed with
  | flushNext orders =>
    have queued (id : Uuid) :
        (world.queue.expireAll now order).queues.orDefault id = world.queue.pending now id :=
      EventQueue.expireAll_queues orders.inFlightDeadlines id
    intro id chosen other ready event member
    obtain ⟨head, isHead, oldest⟩ := EventQueue.oldestReady_some chosen
    rw [queued] at isHead
    have filled := (EventQueue.ready_iff.mp ready).1
    obtain ⟨first, rest, shape⟩ := exists_cons_of_ne_nil filled
    have isFirst : ((world.queue.expireAll now order).queues.orDefault other).head? = some first := by
      rw [shape]
      rfl
    -- the heads are compared, and a head is the oldest of its queue
    have older := oldest other (listed_of_ready orders ready) ready first isFirst
    rw [queued] at isFirst
    have ordered : InReceiptOrder (world.queue.pending now other) := by
      have kept := keeps other
      simp only [restored, arriving, append_nil] at kept
      rw [EventQueue.pending_queued fifo.books]
      exact kept
    exact ⟨head, mem_of_head? isHead, older.trans (ordered.head_le isFirst member)⟩

def waitingActions : List Action := [.push (datedEvent 1 10 1)]

theorem waiting_run : ∃ world next,
    Run (Guarded KeepsReceiptOrder (Step sampleJitter)) sampleInitial waitingActions world ∧
      Guarded KeepsReceiptOrder (Step sampleJitter) world
        (.flushNext 4 ⟨[], [sampleChannel], []⟩) next := by
  refine ⟨_, _, .cons ⟨?_, .push rfl⟩ (.nil _), ?_,
    .flushNext ⟨lists_nil fun _ => rfl, lists_singleton rfl ?_, lists_nil fun _ => rfl⟩⟩
  · intro id
    change InReceiptOrder (if id = sampleChannel then [datedEvent 1 10 1] else [])
    split
    · exact pairwise_singleton _ _
    · exact List.Pairwise.nil
  · intro id
    by_cases same : id = sampleChannel
    · rw [same]
      exact pairwise_singleton _ (datedEvent 1 10 1)
    · have empty : ByChannel.orDefault (Function.update ByChannel.empty sampleChannel
          (some [datedEvent 1 10 1])) id = [] := by
        rw [ByChannel.orDefault, update_off same rfl]
        rfl
      change InReceiptOrder (List.take maxPendingPerChannel (ByChannel.orDefault
        (Function.update ByChannel.empty sampleChannel (some [datedEvent 1 10 1])) id) ++ [])
      rw [empty]
      exact List.Pairwise.nil
  · intro id different
    exact update_off different rfl

theorem serves_oldest_waiting : ∃ world,
    Run (Guarded KeepsReceiptOrder (Step sampleJitter)) sampleInitial waitingActions world ∧
      ServesOldest world.queue 4 ⟨[], [sampleChannel], []⟩ := by
  obtain ⟨world, next, run, step⟩ := waiting_run
  exact ⟨world, run, serves_oldest run step⟩

def secondChannel : Uuid := .fill 1

def secondEvent (receivedAt : ℕ) : QueuedEvent :=
  { datedEvent 3 7 receivedAt with channelId := secondChannel }

def returningActions : List Action :=
  [.push (datedEvent 1 10 1), .push (secondEvent 2), .push (datedEvent 2 5 3),
    .flushNext 4 ⟨[], [sampleChannel, secondChannel], []⟩,
    .requeuePreserveTimestamps
      ⟨sampleChannel, [(datedEvent 2 5 3).toBatch, (datedEvent 1 10 1).toBatch], [], none⟩ none,
    .markComplete sampleChannel 4]

theorem lists_pair {α : Type} {map : ByChannel α} {first second : Uuid} (different : first ≠ second)
    (present : (map first).isSome ∧ (map second).isSome)
    (others : ∀ id, id ≠ first → id ≠ second → map id = none) : Lists [first, second] map := by
  refine ⟨nodup_cons.mpr ⟨?_, nodup_singleton second⟩, ?_⟩
  · rw [mem_singleton]
    exact different
  · intro id
    rw [mem_cons, mem_singleton]
    constructor
    · rintro (rfl | rfl)
      · exact present.1
      · exact present.2
    · intro here
      by_contra neither
      rw [not_or] at neither
      rw [others id neither.1 neither.2] at here
      cases here

theorem returning_run : ∃ world, Run (Step sampleJitter) sampleInitial returningActions world ∧
    Iteration.Of ⟨[], [sampleChannel, secondChannel], []⟩ world.queue 4 ∧
    (world.queue.expireAll 4 ⟨[], [sampleChannel, secondChannel], []⟩).oldestReady 4
      [sampleChannel, secondChannel] = some secondChannel ∧
    (world.queue.expireAll 4 ⟨[], [sampleChannel, secondChannel], []⟩).ready 4 sampleChannel =
      true ∧
    world.queue.pending 4 sampleChannel = [datedEvent 2 5 3, datedEvent 1 10 1] ∧
    world.queue.pending 4 secondChannel = [secondEvent 2] := by
  refine ⟨_,
    .cons (.push rfl) <| .cons (.push rfl) <| .cons (.push rfl) <|
    .cons (.flushNext ⟨lists_nil fun _ => rfl, lists_pair (by decide) ⟨rfl, rfl⟩ ?_,
      lists_nil fun _ => rfl⟩) <|
    .cons (.requeuePreserveTimestamps (Or.inl (by decide))) <| .cons .markComplete (.nil _),
    ⟨lists_vacant sampleChannel rfl ?_, lists_pair (by decide) ⟨rfl, rfl⟩ ?_,
      lists_vacant sampleChannel rfl ?_⟩, rfl, rfl, rfl, rfl⟩
  -- every entry of the maps is that of one of the two channels
  · intro id first second
    repeat first | rfl | refine update_off (by assumption) ?_
  · intro id first
    repeat first | rfl | refine update_off (by assumption) ?_
  · intro id first second
    repeat first | rfl | refine update_off (by assumption) ?_
  · intro id first
    repeat first | rfl | refine update_off (by assumption) ?_

theorem not_servesOldest : ¬ ∀ (jittered : ℕ → ℕ → ℕ) (dedupMode : DedupMode)
    (inFlightDeadline : ℕ) (actions : List Action) (world : World),
    Run (Step jittered) (.initial dedupMode inFlightDeadline) actions world →
      ∀ now order, order.Of world.queue now → ServesOldest world.queue now order := by
  intro always
  obtain ⟨world, run, orders, chosen, ready, waiting, served⟩ := returning_run
  have oldest := always _ _ _ _ world run _ _ orders _ chosen _ ready (datedEvent 1 10 1)
  rw [waiting, served] at oldest
  obtain ⟨event, member, older⟩ := oldest (mem_cons_of_mem _ mem_cons_self)
  rw [mem_singleton.mp member] at older
  exact absurd older (by decide)

end Buzz.Harness
