import Buzz.Harness.Expiry

/-! The books that the queue keeps of the channels in flight, over whole runs. -/

namespace Buzz.Harness

open Nostr Library.Transition List

structure EventQueue.Books (queue : EventQueue) : Prop where
  deadlines : ∀ id, (queue.inFlightDeadlines id).isSome = (queue.inFlightChannels id).isSome
  sizes : ∀ id, (queue.inFlightBatchSizes id).isSome = (queue.inFlightChannels id).isSome
  capped : ∀ id, (queue.queues.orDefault id).length ≤ maxPendingPerChannel

namespace EventQueue

variable {self : EventQueue}

theorem books_new (dedupMode : DedupMode) : (new dedupMode).Books :=
  ⟨fun _ => rfl, fun _ => rfl, fun _ => Nat.zero_le _⟩

theorem Books.push (books : self.Books) (event : QueuedEvent) : (self.push event).2.Books := by
  unfold EventQueue.push
  split
  · exact books
  · refine ⟨books.deadlines, books.sizes, ?_⟩
    intro id
    simp only [ByChannel.orDefault_insert]
    by_cases same : id = event.channelId
    · have before := books.capped event.channelId
      have room : 0 < maxPendingPerChannel := by decide
      rw [if_pos same, length_append, length_singleton]
      split
      · rw [length_tail]
        omega
      · omega
    · rw [if_neg same]
      exact books.capped id

theorem Books.pushFront (books : self.Books) (channelId : Uuid) (events : List QueuedEvent) :
    (self.pushFront channelId events).Books := by
  refine ⟨books.deadlines, books.sizes, ?_⟩
  intro id
  simp only [EventQueue.pushFront, ByChannel.orDefault_insert]
  split
  · exact length_take_le _ _
  · exact books.capped id

theorem recovered_capped (books : self.Books) (id : Uuid) :
    (self.recovered id).length ≤ maxPendingPerChannel := by
  cases withheld : self.withheldNativeSteer id with
  | none =>
    rw [recovered_of_none withheld]
    exact books.capped id
  | some entries =>
    rw [recovered_of_withheld withheld]
    exact length_take_le _ _

theorem Books.expired {gone : Uuid → Prop} [DecidablePred gone] {after : EventQueue}
    (books : self.Books) (expired : Expired self gone after) : after.Books := by
  refine ⟨?_, ?_, ?_⟩
  · intro id
    rw [expired.deadlines, expired.channels]
    split
    · rfl
    · exact books.deadlines id
  · intro id
    rw [expired.sizes, expired.channels]
    split
    · rfl
    · exact books.sizes id
  · intro id
    rw [expired.queues]
    split
    · exact recovered_capped books id
    · exact books.capped id

section

variable (books : self.Books)

include books

theorem Books.markInFlight (channelId : Uuid) (now : Instant) (size : ℕ) :
    (self.markInFlight channelId now size).Books := by
  refine ⟨?_, ?_, books.capped⟩
  · intro id
    simp only [EventQueue.markInFlight, ByChannel.insert_apply]
    split
    · rfl
    · exact books.deadlines id
  · intro id
    simp only [EventQueue.markInFlight, ByChannel.insert_apply]
    split
    · rfl
    · exact books.sizes id

theorem Books.flushReady (now : Instant) (channelId : Uuid) :
    (self.flushReady now channelId).2.Books := by
  apply Books.markInFlight
  refine ⟨books.deadlines, books.sizes, ?_⟩
  intro id
  simp only [ByChannel.orDefault_insertOrRemove]
  split
  · rw [length_drop]
    exact (Nat.sub_le _ _).trans (books.capped channelId)
  · exact books.capped id

theorem Books.flushParked (now : Instant) (id : Uuid) :
    (self.flushParked now id).2.Books := by
  apply Books.markInFlight
  exact ⟨books.deadlines, books.sizes, books.capped⟩

theorem Books.flush (now : Instant) (order : Iteration) :
    (self.flush now order).2.Books := by
  unfold EventQueue.flush
  split
  · exact books.flushReady now _
  · split
    · exact books.flushParked now _
    · exact books

theorem Books.markComplete (channelId : Uuid) (now : Instant) :
    (self.markComplete channelId now).Books := by
  have released : { self with
      inFlightChannels := self.inFlightChannels.remove channelId
      inFlightDeadlines := self.inFlightDeadlines.remove channelId
      inFlightBatchSizes := self.inFlightBatchSizes.remove channelId }.Books := by
    refine ⟨?_, ?_, books.capped⟩
    · intro id
      simp only [ByChannel.remove_apply]
      split
      · rfl
      · exact books.deadlines id
    · intro id
      simp only [ByChannel.remove_apply]
      split
      · rfl
      · exact books.sizes id
  unfold EventQueue.markComplete
  simp only
  split
  · split
    · exact released
    · exact ⟨released.deadlines, released.sizes, released.capped⟩
  · exact ⟨released.deadlines, released.sizes, released.capped⟩

theorem Books.requeue (jittered : ℕ → ℕ → ℕ) (batch : FlushBatch)
    (subsecNanos : ℕ) (now : Instant) : (self.requeue jittered batch subsecNanos now).2.Books := by
  have requeued := books.pushFront batch.channelId
    (batch.events.map (BatchEvent.toQueued batch.channelId))
  unfold EventQueue.requeue
  simp only
  split
  · exact ⟨books.deadlines, books.sizes, books.capped⟩
  · exact ⟨requeued.deadlines, requeued.sizes, requeued.capped⟩

theorem Books.insertOrRemove {channelId : Uuid} {rest : List QueuedEvent}
    (fewer : rest.length ≤ (self.queues.orDefault channelId).length)
    (withheld : ByChannel (List QueuedEvent)) : { self with
      queues := self.queues.insertOrRemove channelId rest
      withheldNativeSteer := withheld }.Books := by
  refine ⟨books.deadlines, books.sizes, ?_⟩
  intro id
  simp only [ByChannel.orDefault_insertOrRemove]
  split
  · exact fewer.trans (books.capped channelId)
  · exact books.capped id

theorem Books.markNativeSteerPending (channelId : Uuid) (eventId : String) :
    (self.markNativeSteerPending channelId eventId).2.Books := by
  unfold EventQueue.markNativeSteerPending
  cases taken : takeFirst eventId (self.queues.orDefault channelId) with
  | none => exact books
  | some pair =>
    obtain ⟨found, rest⟩ := pair
    apply books.insertOrRemove
    have fewer := (takeFirst_perm taken).length_eq
    rw [length_cons] at fewer
    omega

theorem Books.releaseNativeSteer (channelId : Uuid) (eventId : String) :
    (self.releaseNativeSteer channelId eventId).Books := by
  unfold EventQueue.releaseNativeSteer
  split
  · exact books
  · apply Books.pushFront
    exact ⟨books.deadlines, books.sizes, books.capped⟩

theorem Books.removeEvent (channelId : Uuid) (eventId : String) :
    (self.removeEvent channelId eventId).Books := by
  refine ⟨books.deadlines, books.sizes, ?_⟩
  intro id
  simp only [EventQueue.removeEvent, orDefault_retainOthers]
  split
  · exact (length_filter_le _ _).trans (books.capped channelId)
  · exact books.capped id

theorem Books.drainChannel (channelId : Uuid) :
    (self.drainChannel channelId).2.Books := by
  refine ⟨books.deadlines, books.sizes, ?_⟩
  intro id
  simp only [EventQueue.drainChannel, ByChannel.orDefault_remove]
  split
  · rw [length_nil]
    exact Nat.zero_le _
  · exact books.capped id

theorem Books.extendInFlightDeadline (channelId : Uuid) (maxTurnSecs : ℕ)
    (now : Instant) : (self.extendInFlightDeadline channelId maxTurnSecs now).Books := by
  unfold EventQueue.extendInFlightDeadline
  split
  · exact books
  next current found =>
    have inFlight : (self.inFlightChannels channelId).isSome := by
      rw [← books.deadlines, found]
      rfl
    simp only
    split
    · refine ⟨?_, books.sizes, books.capped⟩
      intro id
      simp only [ByChannel.insert_apply]
      split
      next same =>
        rw [same, inFlight]
        rfl
      · exact books.deadlines id
    · exact books

end

end EventQueue

variable {jittered : ℕ → ℕ → ℕ}

theorem books_step {world next : World} {action : Action} (books : world.queue.Books)
    (step : Step jittered world action next) : next.queue.Books := by
  cases step with
  | push accepted | refuse refused => exact books.push _
  | flushNext orders =>
    exact (books.expired (EventQueue.expireAll_expired _ orders.inFlightDeadlines)).flush _ _
  | hasFlushableWork orders =>
    exact books.expired (EventQueue.expireAll_expired _ orders.inFlightDeadlines)
  | markComplete => exact books.markComplete _ _
  | deadLetter holds dead | requeue holds alive => exact books.requeue jittered _ _ _
  | requeuePreserveTimestamps holds => exact books.pushFront _ _
  | requeueAsCancelled holds => exact ⟨books.deadlines, books.sizes, books.capped⟩
  | markNativeSteerPending => exact books.markNativeSteerPending _ _
  | releaseNativeSteer => exact books.releaseNativeSteer _ _
  | removeEvent => exact books.removeEvent _ _
  | drainChannel => exact books.drainChannel _
  | compactExpiredState => exact ⟨books.deadlines, books.sizes, books.capped⟩
  | extendInFlightDeadline => exact books.extendInFlightDeadline _ _ _

theorem books_run {dedupMode : DedupMode} {inFlightDeadline : ℕ} {actions : List Action}
    {world : World} (run : Run (Step jittered) (.initial dedupMode inFlightDeadline) actions world) :
    world.queue.Books := by
  have new := EventQueue.books_new dedupMode
  have start : (World.initial dedupMode inFlightDeadline).queue.Books :=
    ⟨new.deadlines, new.sizes, new.capped⟩
  apply run.invariant _ start
  intro state action next books step
  exact books_step books step

section withheld

def Withholds (world : World) (id : Uuid) (event : QueuedEvent) (action : Action) : Prop :=
  ∃ eventId, action = .markNativeSteerPending id eventId ∧ event ∈ world.queue.queues.orDefault id

/-- The steps after which a withheld event may be withheld no longer. -/
def Settles (world : World) (id : Uuid) (event : QueuedEvent) : Action → Prop
  | .releaseNativeSteer channelId eventId | .removeEvent channelId eventId =>
    channelId = id ∧ EventQueue.hasId eventId event
  | .drainChannel channelId => channelId = id
  | .flushNext now _ | .hasFlushableWork now _ => world.queue.overdue now id
  | _ => False

def KeepsWithheld (world next : World) (action : Action) : Prop :=
  ∀ id event,
    (event ∈ next.queue.withheldNativeSteer.orDefault id →
      event ∈ world.queue.withheldNativeSteer.orDefault id ∨ Withholds world id event action) ∧
    (event ∈ world.queue.withheldNativeSteer.orDefault id →
      event ∈ next.queue.withheldNativeSteer.orDefault id ∨ Settles world id event action)

variable {world next : World} {action : Action}

theorem keepsWithheld_same
    (same : next.queue.withheldNativeSteer = world.queue.withheldNativeSteer) :
    KeepsWithheld world next action := by
  intro id event
  rw [same]
  exact ⟨.inl, .inl⟩

namespace EventQueue

theorem push_withheld (self : EventQueue) (event : QueuedEvent) :
    (self.push event).2.withheldNativeSteer = self.withheldNativeSteer := by
  unfold push
  split
  · rfl
  · rfl

theorem flush_withheld (self : EventQueue) (now : Instant) (order : Iteration) :
    (self.flush now order).2.withheldNativeSteer = self.withheldNativeSteer := by
  unfold flush
  split
  · rfl
  · split
    · rfl
    · rfl

theorem markComplete_withheld (self : EventQueue) (channelId : Uuid) (now : Instant) :
    (self.markComplete channelId now).withheldNativeSteer = self.withheldNativeSteer := by
  unfold markComplete
  simp only
  split
  · split
    · rfl
    · rfl
  · rfl

theorem requeue_withheld (jittered : ℕ → ℕ → ℕ) (self : EventQueue) (batch : FlushBatch)
    (subsecNanos : ℕ) (now : Instant) :
    (self.requeue jittered batch subsecNanos now).2.withheldNativeSteer =
      self.withheldNativeSteer := by
  unfold requeue
  simp only
  split
  · rfl
  · rfl

theorem takeFirst_hasId {eventId : String} {events rest : List QueuedEvent} {found : QueuedEvent}
    (taken : takeFirst eventId events = some (found, rest)) : hasId eventId found := by
  obtain ⟨first, search, shape⟩ := Option.map_eq_some_iff.mp taken
  cases shape
  exact find?_some search

theorem expired_withheld {self after : EventQueue} {gone : Uuid → Prop} [DecidablePred gone]
    (expired : Expired self gone after) (id : Uuid) : after.withheldNativeSteer.orDefault id =
      if gone id then [] else self.withheldNativeSteer.orDefault id := by
  rw [ByChannel.orDefault, expired.withheld]
  split
  · rfl
  · rfl

end EventQueue

theorem keepsWithheld_expired {now : Instant} {after : EventQueue}
    (expired : EventQueue.Expired world.queue (fun id => world.queue.overdue now id) after)
    (same : next.queue.withheldNativeSteer = after.withheldNativeSteer)
    (settles : ∀ id event, world.queue.overdue now id → Settles world id event action) :
    KeepsWithheld world next action := by
  intro id event
  rw [same, EventQueue.expired_withheld expired]
  split
  next late =>
    exact ⟨fun member => absurd member not_mem_nil, fun _ => .inr (settles id event late)⟩
  · exact ⟨.inl, .inl⟩

theorem keepsWithheld_pending (channelId : Uuid) (eventId : String) :
    KeepsWithheld world { world with
      queue := (world.queue.markNativeSteerPending channelId eventId).2 }
      (.markNativeSteerPending channelId eventId) := by
  intro id event
  simp only [EventQueue.markNativeSteerPending]
  cases taken : EventQueue.takeFirst eventId (world.queue.queues.orDefault channelId) with
  | none => exact ⟨.inl, .inl⟩
  | some pair =>
    obtain ⟨found, rest⟩ := pair
    simp only [ByChannel.orDefault_insert]
    by_cases same : id = channelId
    · rw [if_pos same, same, mem_append, mem_singleton]
      constructor
      · rintro (old | new)
        · exact .inl old
        · refine .inr ⟨eventId, rfl, ?_⟩
          rw [new]
          exact (EventQueue.takeFirst_perm taken).mem_iff.mpr mem_cons_self
      · exact fun old => .inl (.inl old)
    · rw [if_neg same]
      exact ⟨.inl, .inl⟩

theorem keepsWithheld_released (channelId : Uuid) (eventId : String)
    (same : next.queue = world.queue.releaseNativeSteer channelId eventId) :
    KeepsWithheld world next (.releaseNativeSteer channelId eventId) := by
  intro id event
  rw [same]
  simp only [EventQueue.releaseNativeSteer]
  cases taken : EventQueue.takeFirst eventId (world.queue.withheldNativeSteer.orDefault channelId) with
  | none => exact ⟨.inl, .inl⟩
  | some pair =>
    obtain ⟨found, rest⟩ := pair
    have members := (EventQueue.takeFirst_perm taken).mem_iff (a := event)
    simp only [EventQueue.pushFront, ByChannel.orDefault_insertOrRemove]
    by_cases here : id = channelId
    · rw [if_pos here, here, members, mem_cons]
      constructor
      · exact fun kept => .inl (.inr kept)
      · rintro (first | kept)
        · refine .inr ⟨rfl, ?_⟩
          rw [first]
          exact EventQueue.takeFirst_hasId taken
        · exact .inl kept
    · rw [if_neg here]
      exact ⟨.inl, .inl⟩

theorem keepsWithheld_removed (channelId : Uuid) (eventId : String)
    (same : next.queue = world.queue.removeEvent channelId eventId) :
    KeepsWithheld world next (.removeEvent channelId eventId) := by
  intro id event
  rw [same]
  simp only [EventQueue.removeEvent, EventQueue.orDefault_retainOthers]
  by_cases here : id = channelId
  · rw [if_pos here, here, mem_filter]
    constructor
    · exact fun kept => .inl kept.1
    · intro old
      cases named : EventQueue.hasId eventId event with
      | true => exact .inr ⟨rfl, named⟩
      | false => exact .inl ⟨old, rfl⟩
  · rw [if_neg here]
    exact ⟨.inl, .inl⟩

theorem keepsWithheld_drained (channelId : Uuid)
    (same : next.queue = (world.queue.drainChannel channelId).2) :
    KeepsWithheld world next (.drainChannel channelId) := by
  intro id event
  rw [same]
  simp only [EventQueue.drainChannel, ByChannel.orDefault_remove]
  by_cases here : id = channelId
  · rw [if_pos here]
    exact ⟨fun member => absurd member not_mem_nil, fun _ => .inr here.symm⟩
  · rw [if_neg here]
    exact ⟨.inl, .inl⟩

/-- Completing the channel does not settle withheld events. -/
theorem withheld_step {jittered : ℕ → ℕ → ℕ}
    (step : Step jittered world action next) : KeepsWithheld world next action := by
  cases step with
  | push accepted | refuse refused => exact keepsWithheld_same (EventQueue.push_withheld _ _)
  | flushNext orders =>
    exact keepsWithheld_expired (EventQueue.expireAll_expired _ orders.inFlightDeadlines)
      (EventQueue.flush_withheld _ _ _) fun _ _ late => late
  | hasFlushableWork orders =>
    exact keepsWithheld_expired (EventQueue.expireAll_expired _ orders.inFlightDeadlines) rfl
      fun _ _ late => late
  | markComplete => exact keepsWithheld_same (EventQueue.markComplete_withheld _ _ _)
  | deadLetter holds dead | requeue holds alive =>
    exact keepsWithheld_same (EventQueue.requeue_withheld _ _ _ _ _)
  | requeuePreserveTimestamps holds | requeueAsCancelled holds => exact keepsWithheld_same rfl
  | markNativeSteerPending => exact keepsWithheld_pending _ _
  | releaseNativeSteer => exact keepsWithheld_released _ _ rfl
  | removeEvent => exact keepsWithheld_removed _ _ rfl
  | drainChannel => exact keepsWithheld_drained _ rfl
  | compactExpiredState => exact keepsWithheld_same rfl
  | @extendInFlightDeadline channelId maxTurnSecs now =>
    obtain ⟨deadlines, same⟩ := world.queue.extendInFlightDeadline_eq channelId maxTurnSecs now
    apply keepsWithheld_same
    rw [same]

theorem recovered_expired {queue : EventQueue} (books : queue.Books) {now : Instant}
    {order : Iteration} (lists : Lists order.inFlightDeadlines queue.inFlightDeadlines) {id : Uuid}
    (late : queue.overdue now id) :
    (queue.expireAll now order).withheldNativeSteer.orDefault id = [] ∧
      (queue.expireAll now order).queues.orDefault id =
        (queue.withheldNativeSteer.orDefault id ++ queue.queues.orDefault id).take
          maxPendingPerChannel := by
  have expired := EventQueue.expireAll_expired now lists
  constructor
  · rw [EventQueue.expired_withheld expired, if_pos late]
  · rw [expired.queues, if_pos late]
    cases withheld : queue.withheldNativeSteer id with
    | none =>
      have none_held : queue.withheldNativeSteer.orDefault id = [] := by
        rw [ByChannel.orDefault, withheld]
        rfl
      rw [EventQueue.recovered_of_none withheld, none_held, nil_append]
      exact (take_of_length_le (books.capped id)).symm
    | some entries =>
      have held : queue.withheldNativeSteer.orDefault id = entries := by
        rw [ByChannel.orDefault, withheld]
        rfl
      rw [EventQueue.recovered_of_withheld withheld, held]

end withheld

/-- No channel with a live batch is handed another. -/
theorem inFlight_bookkeeping {dedupMode : DedupMode} {inFlightDeadline : ℕ} {actions : List Action}
    {world : World} (run : Run (Step jittered) (.initial dedupMode inFlightDeadline) actions world) :
    (∀ id, (world.queue.inFlightDeadlines id).isSome = (world.queue.inFlightChannels id).isSome ∧
      (world.queue.inFlightBatchSizes id).isSome = (world.queue.inFlightChannels id).isSome) ∧
    (∀ id, (world.queue.queues.orDefault id).length ≤ maxPendingPerChannel) ∧
    (∀ action next, Step jittered world action next → KeepsWithheld world next action) ∧
    ∀ now order, order.Of world.queue now →
      (∀ id, world.queue.overdue now id →
        (world.queue.expireAll now order).withheldNativeSteer.orDefault id = [] ∧
          (world.queue.expireAll now order).queues.orDefault id =
            (world.queue.withheldNativeSteer.orDefault id ++ world.queue.queues.orDefault id).take
              maxPendingPerChannel) ∧
      ∀ batch, (world.queue.flushNext now order).1 = some batch →
        ∀ live ∈ (world.expireAll now order).handed, live.channelId ≠ batch.channelId := by
  have books := books_run run
  obtain ⟨lost, accounts, -⟩ := Accounts.run jittered (conserved_initial dedupMode inFlightDeadline) run
  refine ⟨fun id => ⟨books.deadlines id, books.sizes id⟩, books.capped,
    fun action next step => withheld_step step, ?_⟩
  intro now order orders
  refine ⟨fun id late => recovered_expired books orders.inFlightDeadlines late, ?_⟩
  intro batch flushed live member same
  have flying := (accounts.expireAll now order).inFlight live member
  rw [World.expireAll_queue] at flying
  change ((world.queue.expireAll now order).flush now order).1 = some batch at flushed
  rcases (world.queue.expireAll now order).flush_cases now order with nothing | ⟨other, handed, idle, -⟩
  · rw [nothing] at flushed
    cases flushed
  · rw [handed, Option.some.injEq] at flushed
    rw [same, ← flushed, idle] at flying
    cases flying

def withholdingActions : List Action :=
  [.push (sampleEvent 1), .flushNext 0 ⟨[], [sampleChannel], []⟩, .push (sampleEvent 2),
    .markNativeSteerPending sampleChannel (sampleEvent 2).event.id.toHex,
    .markComplete sampleChannel 0]

theorem withholding_run : ∃ world,
    Run (Step sampleJitter) sampleInitial withholdingActions world ∧
      world.queue.withheldNativeSteer.orDefault sampleChannel = [sampleEvent 2] ∧
      world.queue.inFlightChannels sampleChannel = none ∧
      world.queue.inFlightDeadlines sampleChannel = none := by
  refine ⟨_,
    .cons (.push rfl) <|
    .cons (.flushNext ⟨lists_nil fun _ => rfl, lists_singleton rfl ?_, lists_nil fun _ => rfl⟩) <|
    .cons (.push rfl) <| .cons .markNativeSteerPending <| .cons .markComplete (.nil _), ?_, rfl, rfl⟩
  · intro id different
    change Function.update ByChannel.empty sampleChannel _ id = none
    rw [Function.update_of_ne different]
    rfl
  · decide +kernel

/-- The withheld event's channel is not in flight, and no expiry recovers it. -/
theorem not_withheld_inFlight : ¬ ∀ (jittered : ℕ → ℕ → ℕ) (dedupMode : DedupMode)
    (inFlightDeadline : ℕ) (actions : List Action) (world : World),
    Run (Step jittered) (.initial dedupMode inFlightDeadline) actions world →
      ∀ id, world.queue.withheldNativeSteer.orDefault id ≠ [] →
        world.queue.isChannelInFlight id ∨ ∃ now order, order.Of world.queue now ∧
          (world.queue.expireAll now order).withheldNativeSteer.orDefault id = [] := by
  intro always
  obtain ⟨world, run, withheld, idle, undated⟩ := withholding_run
  have filled : world.queue.withheldNativeSteer.orDefault sampleChannel ≠ [] := by
    simp [withheld]
  rcases always _ _ _ _ world run sampleChannel filled with flying | ⟨now, order, orders, emptied⟩
  · rw [EventQueue.isChannelInFlight, idle] at flying
    cases flying
  · have early : ¬ world.queue.overdue now sampleChannel := by
      simp [EventQueue.overdue, undated]
    rw [EventQueue.expired_withheld (EventQueue.expireAll_expired _ orders.inFlightDeadlines),
      if_neg early] at emptied
    exact filled emptied

theorem inFlight_bookkeeping_withholding : ∃ world,
    Run (Step sampleJitter) sampleInitial withholdingActions world ∧
      ∀ id, (world.queue.queues.orDefault id).length ≤ maxPendingPerChannel := by
  obtain ⟨world, run, -⟩ := withholding_run
  exact ⟨world, run, (inFlight_bookkeeping run).2.1⟩

end Buzz.Harness
