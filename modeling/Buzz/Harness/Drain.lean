import Buzz.Harness.Batches

/-! What `drain_channel` drops and what it reports. -/

namespace Buzz.Harness

open Nostr Library.Transition List

structure EventQueue.SameAt (before after : EventQueue) (id : Uuid) : Prop where
  queues : after.queues id = before.queues id
  inFlightChannels : after.inFlightChannels id = before.inFlightChannels id
  inFlightDeadlines : after.inFlightDeadlines id = before.inFlightDeadlines id
  inFlightBatchSizes : after.inFlightBatchSizes id = before.inFlightBatchSizes id
  retryAfter : after.retryAfter id = before.retryAfter id
  retryCounts : after.retryCounts id = before.retryCounts id
  cancelledBatches : after.cancelledBatches id = before.cancelledBatches id
  cancelReasons : after.cancelReasons id = before.cancelReasons id
  withheldNativeSteer : after.withheldNativeSteer id = before.withheldNativeSteer id

/-- The ids are those of the events held before and not after. -/
structure ReportsDropped (queue : EventQueue) (channelId : Uuid) : Prop where
  reported : ∀ eventId, eventId ∈ (queue.drainChannel channelId).1 ↔
    ∃ event ∈ queue.stored channelId,
      event ∉ (queue.drainChannel channelId).2.stored channelId ∧ event.event.id.toHex = eventId
  others : ∀ id, id ≠ channelId → queue.SameAt (queue.drainChannel channelId).2 id

variable {queue : EventQueue} {channelId : Uuid}

theorem drainChannel_others {id : Uuid} (different : id ≠ channelId) :
    queue.SameAt (queue.drainChannel channelId).2 id := by
  have kept {α : Type} (map : ByChannel α) : map.remove channelId id = map id := by
    rw [ByChannel.remove_apply, if_neg different]
  exact ⟨kept _, rfl, rfl, rfl, kept _, kept _, kept _, kept _, kept _⟩

theorem drainChannel_stored : (queue.drainChannel channelId).2.stored channelId = [] := by
  simp [EventQueue.stored, EventQueue.drainChannel]

theorem mem_drained {eventId : String} : eventId ∈ (queue.drainChannel channelId).1 ↔
    ∃ queued ∈ queue.queues.orDefault channelId, queued.event.id.toHex = eventId :=
  mem_map

theorem mem_stored {event : QueuedEvent} : event ∈ queue.stored channelId ↔
    event ∈ queue.queues.orDefault channelId ∨
      event ∈ queue.withheldNativeSteer.orDefault channelId ∨
      event ∈ (queue.cancelledBatches.orDefault channelId).map (BatchEvent.toQueued channelId) := by
  rw [EventQueue.stored, mem_append, mem_append, or_assoc]

/-- Exactly for events with the id of a queued one. -/
theorem drainChannel_reports_iff (queue : EventQueue) (channelId : Uuid) :
    ReportsDropped queue channelId ↔
      ∀ event ∈ queue.withheldNativeSteer.orDefault channelId ++
          (queue.cancelledBatches.orDefault channelId).map (BatchEvent.toQueued channelId),
        ∃ queued ∈ queue.queues.orDefault channelId,
          queued.event.id.toHex = event.event.id.toHex := by
  constructor
  · intro reports event member
    apply mem_drained.mp
    apply (reports.reported _).mpr
    refine ⟨event, mem_stored.mpr (Or.inr (mem_append.mp member)), ?_, rfl⟩
    rw [drainChannel_stored]
    exact not_mem_nil
  · intro covered
    refine ⟨?_, fun id different => drainChannel_others different⟩
    intro eventId
    rw [mem_drained]
    constructor
    · rintro ⟨queued, member, same⟩
      refine ⟨queued, mem_stored.mpr (Or.inl member), ?_, same⟩
      rw [drainChannel_stored]
      exact not_mem_nil
    · rintro ⟨event, member, -, rfl⟩
      rcases mem_stored.mp member with queued | aside
      · exact ⟨event, queued, rfl⟩
      · exact covered event (mem_append.mpr aside)

def steeringActions : List Action :=
  [.push (sampleEvent 1), .flushNext 0 ⟨[], [sampleChannel], []⟩, .push (sampleEvent 2),
    .markNativeSteerPending sampleChannel (sampleEvent 2).event.id.toHex]

theorem steering_run : ∃ world, Run (Step sampleJitter) sampleInitial steeringActions world ∧
    (world.queue.drainChannel sampleChannel).1 = [] ∧
    sampleEvent 2 ∈ world.queue.stored sampleChannel := by
  refine ⟨_,
    .cons (.push rfl) <|
    .cons (.flushNext ⟨lists_nil fun _ => rfl, lists_singleton rfl ?_, lists_nil fun _ => rfl⟩) <|
    .cons (.push rfl) <| .cons .markNativeSteerPending (.nil _), by decide +kernel,
    by decide +kernel⟩
  intro id different
  exact update_off different rfl

theorem not_reportsDropped : ¬ ∀ (jittered : ℕ → ℕ → ℕ) (dedupMode : DedupMode)
    (inFlightDeadline : ℕ) (actions : List Action) (world : World),
    Run (Step jittered) (.initial dedupMode inFlightDeadline) actions world →
      ∀ channelId, ReportsDropped world.queue channelId := by
  intro always
  obtain ⟨world, run, reported, held⟩ := steering_run
  have missing := ((always _ _ _ _ world run sampleChannel).reported _).mpr
    ⟨sampleEvent 2, held, drainChannel_stored ▸ not_mem_nil, rfl⟩
  rw [reported] at missing
  cases missing

end Buzz.Harness
