import Buzz.Harness.Expiry

/-! The batches outside the queue and the cancelled ones in it: where each comes from, and in what
order its events are. -/

namespace Buzz.Harness

open Nostr Library.Transition List Option

namespace World

variable {world : World} {batch : FlushBatch}

theorem lapse_holds (channelId : Uuid) : (world.lapse channelId).Holds batch ↔ world.Holds batch := by
  simp only [Holds, lapse, mem_filter, mem_append, decide_eq_true_eq]
  tauto

theorem take_holds {held : FlushBatch} (holds : (world.take held).Holds batch) :
    world.Holds batch := by
  unfold take at holds
  split at holds
  · exact holds.imp_left mem_of_mem_erase
  · exact holds.imp_right mem_of_mem_erase

theorem expireAll_holds (now : Instant) (order : Iteration) :
    (world.expireAll now order).Holds batch ↔ world.Holds batch := by
  unfold expireAll
  generalize world.queue.expired now order.inFlightDeadlines = ids
  induction ids generalizing world with
  | nil => rfl
  | cons id ids ih => exact (@ih (world.expire id)).trans (lapse_holds id)

end World

variable {jittered : ℕ → ℕ → ℕ} {world next : World} {action : Action} {batch : FlushBatch}

theorem holds_step (step : Step jittered world action next)
    (holds : next.Holds batch) : world.Holds batch ∨ ∃ now order, order.Of world.queue now ∧
      action = .flushNext now order ∧ (world.queue.flushNext now order).1 = some batch := by
  cases step with
  | @flushNext now order orders =>
    rcases holds with handed | lapsed
    · rcases mem_append.mp handed with fresh | old
      · exact .inr ⟨now, order, orders, rfl, mem_toList.mp fresh⟩
      · exact .inl ((World.expireAll_holds now order).mp (.inl old))
    · exact .inl ((World.expireAll_holds now order).mp (.inr lapsed))
  | @hasFlushableWork now order orders => exact .inl ((World.expireAll_holds now order).mp holds)
  | @markComplete channelId now => exact .inl ((World.lapse_holds channelId).mp holds)
  | deadLetter _ _ | requeue _ _ | requeuePreserveTimestamps _ | requeueAsCancelled _ =>
    exact .inl (World.take_holds holds)
  | push _ | refuse _ | markNativeSteerPending | releaseNativeSteer | removeEvent | drainChannel
  | compactExpiredState | extendInFlightDeadline => exact .inl holds

namespace EventQueue

variable {self : EventQueue}

theorem push_cancelled (event : QueuedEvent) :
    (self.push event).2.cancelledBatches = self.cancelledBatches := by
  unfold push
  split
  · rfl
  · rfl

theorem markComplete_cancelled (channelId : Uuid) (now : Instant) :
    (self.markComplete channelId now).cancelledBatches = self.cancelledBatches := by
  unfold markComplete
  simp only
  split
  · split
    · rfl
    · rfl
  · rfl

theorem requeue_cancelled (batch : FlushBatch) (subsecNanos : ℕ) (now : Instant) :
    (self.requeue jittered batch subsecNanos now).2.cancelledBatches = self.cancelledBatches := by
  unfold requeue
  simp only
  split
  · rfl
  · rfl

theorem markNativeSteerPending_cancelled (channelId : Uuid) (eventId : String) :
    (self.markNativeSteerPending channelId eventId).2.cancelledBatches = self.cancelledBatches := by
  unfold markNativeSteerPending
  split
  · rfl
  · rfl

theorem releaseNativeSteer_cancelled (channelId : Uuid) (eventId : String) :
    (self.releaseNativeSteer channelId eventId).cancelledBatches = self.cancelledBatches := by
  unfold releaseNativeSteer
  split
  · rfl
  · rfl

theorem flush_cancelled (self : EventQueue) (now : Instant) (order : Iteration) (id : Uuid) :
    (self.flush now order).2.cancelledBatches id = none ∨
      (self.flush now order).2.cancelledBatches id = self.cancelledBatches id := by
  have removed (other : Uuid) : self.cancelledBatches.remove other id = none ∨
      self.cancelledBatches.remove other id = self.cancelledBatches id := by
    rw [ByChannel.remove_apply]
    split
    · exact .inl rfl
    · exact .inr rfl
  unfold flush
  split
  · exact removed _
  · split
    · exact removed _
    · exact .inr rfl

end EventQueue

theorem cancelled_step (step : Step jittered world action next) {id : Uuid}
    {events : List BatchEvent} (present : next.queue.cancelledBatches id = some events) :
    world.queue.cancelledBatches id = some events ∨
      ∃ held stamped reason, world.Holds held ∧ action = .requeueAsCancelled held stamped reason ∧
        held.channelId = id ∧ events =
          world.queue.cancelledBatches.orDefault id ++ held.cancelledEvents ++ held.events := by
  cases step with
  | @flushNext now order orders =>
    have expired := EventQueue.expireAll_expired now orders.inFlightDeadlines
    rcases (world.queue.expireAll now order).flush_cancelled now order id with
      gone | same
    · exact absurd (gone.symm.trans present) nofun
    · rw [← expired.cancelledBatches]
      exact .inl (same.symm.trans present)
  | hasFlushableWork orders =>
    rw [← (EventQueue.expireAll_expired _ orders.inFlightDeadlines).cancelledBatches]
    exact .inl present
  | @requeueAsCancelled held stamped reason holds =>
    change world.queue.cancelledBatches.insert held.channelId _ id = some events at present
    rw [ByChannel.insert_apply] at present
    split at present
    next same =>
      rw [Option.some.injEq] at present
      exact .inr ⟨held, stamped, reason, holds, rfl, same.symm, same ▸ present.symm⟩
    · exact .inl present
  | @drainChannel channelId =>
    change world.queue.cancelledBatches.remove channelId id = some events at present
    rw [ByChannel.remove_apply] at present
    split at present
    · cases present
    · exact .inl present
  | push _ | refuse _ => exact .inl (EventQueue.push_cancelled _ ▸ present)
  | markComplete => exact .inl (EventQueue.markComplete_cancelled _ _ ▸ present)
  | deadLetter _ _ | requeue _ _ => exact .inl (EventQueue.requeue_cancelled _ _ _ ▸ present)
  | markNativeSteerPending =>
    exact .inl (EventQueue.markNativeSteerPending_cancelled _ _ ▸ present)
  | releaseNativeSteer => exact .inl (EventQueue.releaseNativeSteer_cancelled _ _ ▸ present)
  | requeuePreserveTimestamps _ | removeEvent | compactExpiredState => exact .inl present
  | @extendInFlightDeadline channelId maxTurnSecs now =>
    obtain ⟨deadlines, same⟩ := world.queue.extendInFlightDeadline_eq channelId maxTurnSecs now
    change (world.queue.extendInFlightDeadline channelId maxTurnSecs now).cancelledBatches id =
      some events at present
    rw [same] at present
    exact .inl present

variable {order : Iteration}

/-- The queue of a ready channel, or cancelled events when none is ready. -/
theorem EventQueue.flush_batch {self : EventQueue} {now : Instant} (flushed : (self.flush now order).1 = some batch) :
    (∃ id, self.oldestReady now order.queues = some id ∧ batch = (self.flushReady now id).1) ∨
      (self.oldestReady now order.queues = none ∧ ∃ id, self.parked order.cancelledBatches = some id ∧
        batch = (self.flushParked now id).1) := by
  unfold flush at flushed
  split at flushed
  next id found => exact .inl ⟨id, found, (Option.some.inj flushed).symm⟩
  next none_ready =>
    split at flushed
    next id found => exact .inr ⟨none_ready, id, found, (Option.some.inj flushed).symm⟩
    · cases flushed

/-- By `created_at`, so that the last event is the newest. -/
def InOrder (events : List BatchEvent) : Prop :=
  events.Pairwise fun first second => first.event.createdAt ≤ second.event.createdAt

theorem sortByCreatedAt_inOrder (events : List BatchEvent) :
    InOrder (EventQueue.sortByCreatedAt events) := by
  have trans : IsTrans BatchEvent fun first second => first.event.createdAt ≤ second.event.createdAt :=
    ⟨fun _ _ _ before after => le_trans before after⟩
  have total : Std.Total fun first second : BatchEvent =>
      first.event.createdAt ≤ second.event.createdAt := ⟨fun _ _ => le_total _ _⟩
  exact pairwise_insertionSort _ events

/-- No event older than those cancelled before. -/
def CancelsInOrder (world : World) : Action → Prop
  | .requeueAsCancelled held _ _ =>
    (∀ parked ∈ world.queue.cancelledBatches.orDefault held.channelId,
      ∀ event ∈ held.cancelledEvents ++ held.events,
        parked.event.createdAt ≤ event.event.createdAt) ∧
    ∀ cancelled ∈ held.cancelledEvents, ∀ event ∈ held.events,
      cancelled.event.createdAt ≤ event.event.createdAt
  | _ => True

structure Chronological (world : World) : Prop where
  batches : ∀ batch, world.Holds batch → InOrder batch.events ∧ InOrder batch.cancelledEvents
  cancelled : ∀ id, InOrder (world.queue.cancelledBatches.orDefault id)

theorem Chronological.flushed (chronological : Chronological world) {now : Instant}
    (orders : order.Of world.queue now)
    (flushed : (world.queue.flushNext now order).1 = some batch) :
    InOrder batch.events ∧ InOrder batch.cancelledEvents := by
  have expired := EventQueue.expireAll_expired now orders.inFlightDeadlines
  have parked (id : Uuid) :
      InOrder ((world.queue.expireAll now order).cancelledBatches.orDefault id) := by
    rw [ByChannel.orDefault, expired.cancelledBatches]
    exact chronological.cancelled id
  rcases EventQueue.flush_batch flushed with ⟨id, -, rfl⟩ | ⟨-, id, -, rfl⟩
  · exact ⟨sortByCreatedAt_inOrder _, parked id⟩
  · exact ⟨parked id, List.Pairwise.nil⟩

theorem chronological_step (chronological : Chronological world)
    (step : Guarded CancelsInOrder (Step jittered) world action next) : Chronological next := by
  constructor
  · intro batch holds
    rcases holds_step step.2 holds with old | ⟨now, order, orders, -, flushed⟩
    · exact chronological.batches batch old
    · exact chronological.flushed orders flushed
  · intro id
    cases present : next.queue.cancelledBatches id with
    | none =>
      rw [ByChannel.orDefault, present]
      exact List.Pairwise.nil
    | some events =>
      rw [ByChannel.orDefault, present]
      rcases cancelled_step step.2 present with same | ⟨held, stamped, reason, holds, rfl, rfl, rfl⟩
      · have before := chronological.cancelled id
        rw [ByChannel.orDefault, same] at before
        exact before
      · obtain ⟨afterParked, afterCancelled⟩ := step.1
        obtain ⟨events, cancelled⟩ := chronological.batches held holds
        rw [getD_some, append_assoc]
        apply pairwise_append.mpr
        refine ⟨chronological.cancelled held.channelId, ?_, afterParked⟩
        exact pairwise_append.mpr ⟨cancelled, events, afterCancelled⟩

/-- If cancellations add no older events. -/
theorem batches_chronological {dedupMode : DedupMode} {inFlightDeadline : ℕ} {actions : List Action}
    (run : Run (Guarded CancelsInOrder (Step jittered)) (.initial dedupMode inFlightDeadline) actions
      world) {now : Instant} {order : Iteration} (orders : order.Of world.queue now)
    {batch : FlushBatch} (flushed : (world.queue.flushNext now order).1 = some batch) :
    InOrder batch.events ∧ ∀ last, batch.events.getLast? = some last →
      ∀ event ∈ batch.events, event.event.createdAt ≤ last.event.createdAt := by
  have start : Chronological (.initial dedupMode inFlightDeadline) := by
    constructor
    · rintro batch (handed | lapsed)
      · cases handed
      · cases lapsed
    · exact fun id => List.Pairwise.nil
  have chronological : Chronological world := by
    apply run.invariant _ start
    intro state action next known step
    exact chronological_step known step
  have inOrder := (chronological.flushed orders flushed).1
  refine ⟨inOrder, ?_⟩
  intro last isLast event member
  obtain ⟨before, shape⟩ := getLast?_eq_some_iff.mp isLast
  rw [shape] at inOrder member
  rcases mem_append.mp member with earlier | only
  · exact (pairwise_append.mp inOrder).2.2 event earlier last (mem_singleton_self last)
  · rw [mem_singleton.mp only]

def datedEvent (byte : UInt8) (createdAt receivedAt : ℕ) : QueuedEvent :=
  { sampleEvent byte with
    event := { (sampleEvent byte).event with createdAt }
    receivedAt }

theorem lists_vacant {α : Type} {map : ByChannel α} (channelId : Uuid) (vacant : map channelId = none)
    (others : ∀ id, id ≠ channelId → map id = none) : Lists [] map := by
  apply lists_nil
  intro id
  by_cases same : id = channelId
  · rw [same]
    exact vacant
  · exact others id same

theorem update_off {α : Type} {map : ByChannel α} {channelId id : Uuid} {value : Option α}
    (different : id ≠ channelId) (before : map id = none) :
    Function.update map channelId value id = none :=
  (Function.update_of_ne different value map).trans before

def replayActions : List Action := [.push (datedEvent 1 10 0), .push (datedEvent 2 5 0)]

theorem batches_chronological_replay : ∃ world,
    Run (Guarded CancelsInOrder (Step sampleJitter)) sampleInitial replayActions world ∧
      InOrder [(datedEvent 2 5 0).toBatch, (datedEvent 1 10 0).toBatch] := by
  have run : Run (Guarded CancelsInOrder (Step sampleJitter)) sampleInitial replayActions _ :=
    .cons ⟨trivial, .push rfl⟩ <| .cons ⟨trivial, .push rfl⟩ (.nil _)
  refine ⟨_, run, (@batches_chronological sampleJitter _ _ _ _ run 0 ⟨[], [sampleChannel], []⟩
    ⟨lists_nil fun _ => rfl, lists_singleton rfl ?_, lists_nil fun _ => rfl⟩
    ⟨sampleChannel, _, _, _⟩ rfl).1⟩
  intro id different
  exact update_off different (update_off different rfl)

def cancellingActions : List Action :=
  [.push (datedEvent 1 10 0), .flushNext 0 ⟨[], [sampleChannel], []⟩,
    .requeueAsCancelled ⟨sampleChannel, [(datedEvent 1 10 0).toBatch], [], none⟩ none .steer,
    .markComplete sampleChannel 0, .push (datedEvent 2 5 0),
    .flushNext 0 ⟨[], [sampleChannel], [sampleChannel]⟩,
    .requeueAsCancelled ⟨sampleChannel, [(datedEvent 2 5 0).toBatch], [(datedEvent 1 10 0).toBatch],
      some .steer⟩ none .steer,
    .markComplete sampleChannel 0]

theorem cancelling_run : ∃ world, Run (Step sampleJitter) sampleInitial cancellingActions world ∧
    Iteration.Of ⟨[], [], [sampleChannel]⟩ world.queue 0 ∧
    (world.queue.flushNext 0 ⟨[], [], [sampleChannel]⟩).1 =
      some ⟨sampleChannel, [(datedEvent 1 10 0).toBatch, (datedEvent 2 5 0).toBatch], [],
        some .steer⟩ := by
  refine ⟨_,
    .cons (.push rfl) <|
    .cons (.flushNext ⟨lists_nil fun _ => rfl, lists_singleton rfl ?_, lists_nil fun _ => rfl⟩) <|
    .cons (.requeueAsCancelled (.inl (by decide))) <| .cons .markComplete <|
    .cons (.push rfl) <|
    .cons (.flushNext ⟨lists_vacant sampleChannel rfl ?_, lists_singleton rfl ?_, lists_singleton rfl ?_⟩) <|
    .cons (.requeueAsCancelled (.inl (by decide))) <| .cons .markComplete (.nil _),
    ⟨lists_vacant sampleChannel rfl ?_, lists_vacant sampleChannel rfl ?_, lists_singleton rfl ?_⟩, rfl⟩
  -- every entry of the maps is that of the one channel
  all_goals
    intro id different
    repeat first | rfl | refine update_off different ?_

theorem not_chronological : ¬ ∀ (jittered : ℕ → ℕ → ℕ) (dedupMode : DedupMode)
    (inFlightDeadline : ℕ) (actions : List Action) (world : World),
    Run (Step jittered) (.initial dedupMode inFlightDeadline) actions world →
      ∀ now order, order.Of world.queue now → ∀ batch,
        (world.queue.flushNext now order).1 = some batch → InOrder batch.events := by
  intro always
  obtain ⟨world, run, orders, flushed⟩ := cancelling_run
  have inOrder := always _ _ _ _ world run _ _ orders _ flushed
  have later := (pairwise_cons.mp inOrder).1 _ mem_cons_self
  exact absurd later (by decide)

end Buzz.Harness
