import Buzz.Harness.Batches
import Mathlib.Data.Set.Finite.List

/-! What `flush_next` chooses, and whether `has_flushable_work` announces it. -/

namespace Buzz.Harness

open Nostr Library.Transition List

namespace EventQueue

variable {self : EventQueue} {now : Instant} {id : Uuid}

def throttled (self : EventQueue) (now : Instant) (id : Uuid) : Bool :=
  (self.retryAfter id).any fun deadline => now < deadline

theorem ready_iff : self.ready now id ↔ self.queues.orDefault id ≠ [] ∧
    self.isChannelInFlight id = false ∧ self.throttled now id = false := by
  rw [ready, throttled, Bool.and_eq_true, Bool.and_eq_true, decide_eq_true_eq, Bool.not_eq_true',
    and_assoc]
  cases self.retryAfter id with
  | none | some deadline => simp

theorem oldestReady_none_iff {order : List Uuid} :
    self.oldestReady now order = none ↔ ∀ id ∈ order, self.ready now id = false := by
  unfold oldestReady
  rw [Option.map_eq_none_iff, argmin_eq_none, filterMap_eq_nil_iff]
  constructor
  · intro none id member
    have absent := none id member
    split at absent
    next ready =>
      obtain ⟨head, rest, shape⟩ := exists_cons_of_ne_nil (ready_iff.mp ready).1
      rw [shape] at absent
      cases absent
    · exact eq_false_of_ne_true ‹_›
  · intro none id member
    rw [none id member]
    rfl

theorem oldestReady_some {order : List Uuid} (found : self.oldestReady now order = some id) :
    ∃ head, (self.queues.orDefault id).head? = some head ∧
      ∀ other ∈ order, self.ready now other →
        ∀ first, (self.queues.orDefault other).head? = some first →
          head.receivedAt ≤ first.receivedAt := by
  unfold oldestReady at found
  obtain ⟨candidate, oldest, same⟩ := Option.map_eq_some_iff.mp found
  obtain ⟨channel, -, chosen⟩ := mem_filterMap.mp (argmin_mem oldest)
  split at chosen
  · obtain ⟨head, isHead, rfl⟩ := Option.map_eq_some_iff.mp chosen
    refine ⟨head, same ▸ isHead, ?_⟩
    intro other member ready first isFirst
    have listed : (other, first.receivedAt) ∈ order.filterMap fun id =>
        if self.ready now id then
          (self.queues.orDefault id).head?.map fun head => (id, head.receivedAt)
        else none := by
      apply mem_filterMap.mpr
      exact ⟨other, member, by rw [if_pos ready, isFirst]; rfl⟩
    exact le_of_mem_argmin (f := Prod.snd) listed oldest
  · cases chosen

theorem flush_none_iff {order : Iteration} : (self.flush now order).1 = none ↔
    self.oldestReady now order.queues = none ∧ self.parked order.cancelledBatches = none := by
  unfold flush
  split
  next id found =>
    rw [found]
    exact ⟨nofun, nofun⟩
  next none_ready =>
    split
    next id found =>
      rw [found]
      exact ⟨nofun, nofun⟩
    next none_parked => exact ⟨fun _ => ⟨none_ready, none_parked⟩, fun _ => rfl⟩

/-- Whatever orders the two calls iterate in. -/
theorem hasFlushableWork_eq_flush {order other : Iteration}
    (queues : ∀ id, id ∈ order.queues ↔ id ∈ other.queues)
    (cancelled : ∀ id, id ∈ order.cancelledBatches ↔ id ∈ other.cancelledBatches) :
    (other.queues.any (self.ready now) ||
      other.cancelledBatches.any fun id =>
        (self.cancelledBatches id).isSome && !self.isChannelInFlight id) =
      (self.flush now order).1.isSome := by
  have none_queued : other.queues.any (self.ready now) = false ↔
      self.oldestReady now order.queues = none := by
    rw [any_eq_false, oldestReady_none_iff]
    constructor
    · exact fun none id member => eq_false_of_ne_true (none id ((queues id).mp member))
    · exact fun none id member => Bool.not_eq_true _ ▸ none id ((queues id).mpr member)
  have none_parked : (other.cancelledBatches.any fun id =>
      (self.cancelledBatches id).isSome && !self.isChannelInFlight id) = false ↔
      self.parked order.cancelledBatches = none := by
    rw [any_eq_false, parked, find?_eq_none]
    constructor
    · exact fun none id member => none id ((cancelled id).mp member)
    · exact fun none id member => none id ((cancelled id).mpr member)
  have refused : (other.queues.any (self.ready now) ||
      other.cancelledBatches.any fun id =>
        (self.cancelledBatches id).isSome && !self.isChannelInFlight id) = false ↔
      (self.flush now order).1.isSome = false := by
    rw [Bool.or_eq_false_iff, none_queued, none_parked, Option.isSome_eq_false_iff,
      Option.isNone_iff_eq_none, flush_none_iff]
  exact Bool.eq_iff_iff.mpr (by
    rw [← Bool.not_eq_false, refused, Bool.not_eq_false])

end EventQueue

structure Filled (world : World) : Prop where
  batches : ∀ batch, world.Holds batch → batch.events ≠ []
  cancelled : ∀ id events, world.queue.cancelledBatches id = some events → events ≠ []

variable {jittered : ℕ → ℕ → ℕ} {world next : World} {action : Action}

theorem Filled.flushed (filled : Filled world) {now : Instant} {order : Iteration}
    (orders : order.Of world.queue now) {batch : FlushBatch}
    (flushed : (world.queue.flushNext now order).1 = some batch) : batch.events ≠ [] := by
  have expired := EventQueue.expireAll_expired now orders.inFlightDeadlines
  rcases EventQueue.flush_batch flushed with ⟨id, found, rfl⟩ | ⟨-, id, found, rfl⟩
  · have queued := (EventQueue.ready_iff.mp (EventQueue.oldestReady_ready found)).1
    obtain ⟨head, rest, shape⟩ := exists_cons_of_ne_nil queued
    intro empty
    have sizes := (EventQueue.sortByCreatedAt_perm ((((world.queue.expireAll now order).queues.orDefault
      id).take maxBatchEvents).map QueuedEvent.toBatch)).length_eq
    change EventQueue.sortByCreatedAt _ = [] at empty
    rw [empty, shape, length_map, length_take, length_cons] at sizes
    have room : 0 < maxBatchEvents := by decide
    rw [length_nil] at sizes
    omega
  · have chosen := find?_some found
    rw [Bool.and_eq_true] at chosen
    obtain ⟨events, present⟩ := Option.isSome_iff_exists.mp chosen.1
    change (world.queue.expireAll now order).cancelledBatches.orDefault id ≠ []
    rw [ByChannel.orDefault, present]
    exact filled.cancelled id events (expired.cancelledBatches ▸ present)

theorem filled_step (filled : Filled world) (step : Step jittered world action next) :
    Filled next := by
  constructor
  · intro batch holds
    rcases holds_step step holds with old | ⟨now, order, orders, -, flushed⟩
    · exact filled.batches batch old
    · exact filled.flushed orders flushed
  · intro id events present
    rcases cancelled_step step present with same | ⟨held, stamped, reason, holds, -, -, rfl⟩
    · exact filled.cancelled id events same
    · intro empty
      exact filled.batches held holds (append_eq_nil_iff.mp empty).2

theorem filled_run {dedupMode : DedupMode} {inFlightDeadline : ℕ} {actions : List Action}
    (run : Run (Step jittered) (.initial dedupMode inFlightDeadline) actions world) :
    Filled world := by
  have start : Filled (.initial dedupMode inFlightDeadline) := by
    constructor
    · rintro batch (handed | lapsed)
      · cases handed
      · cases lapsed
    · exact nofun
  apply run.invariant _ start
  intro state action next filled step
  exact filled_step filled step

theorem finite_uuid : Finite Uuid := by
  have bytes : Finite UInt8 :=
    Finite.of_injective UInt8.toFin fun _ _ same => UInt8.toFin_inj.mp same
  exact (finite_length_eq UInt8 16).to_subtype

theorem lists_exists {α : Type} (map : ByChannel α) : ∃ order, Lists order map := by
  have uuids := finite_uuid
  have keys : {id | (map id).isSome = true}.Finite := Set.toFinite _
  refine ⟨keys.toFinset.toList, Finset.nodup_toList _, fun id => ?_⟩
  rw [Finset.mem_toList, Set.Finite.mem_toFinset]
  rfl

theorem lists_first {α : Type} {map : ByChannel α} {id : Uuid} (present : (map id).isSome) :
    ∃ rest, Lists (id :: rest) map := by
  obtain ⟨order, distinct, keys⟩ := lists_exists map
  have member := (keys id).mpr present
  refine ⟨order.erase id, ?_, ?_⟩
  · exact nodup_cons.mpr ⟨distinct.not_mem_erase, distinct.erase id⟩
  · intro other
    rw [← keys other]
    exact (perm_cons_erase member).mem_iff.symm

def Announces (queue : EventQueue) (now : Instant) : Prop :=
  ∀ order other : Iteration, order.Of queue now → other.Of queue now →
    (queue.hasFlushableWork now other).1 = (queue.flushNext now order).1.isSome ∧
    ∀ batch, (queue.flushNext now order).1 = some batch →
      queue.free now batch.channelId ∧ queue.throttled now batch.channelId = false ∧
        batch.events ≠ []

/-- A queue can be served, or no channel that may be promoted is throttled. -/
def PromotesFreely (queue : EventQueue) (now : Instant) : Prop :=
  (∃ id, queue.pending now id ≠ [] ∧ queue.free now id ∧ queue.throttled now id = false) ∨
    ∀ id, (queue.cancelledBatches id).isSome → queue.free now id →
      queue.throttled now id = false

section instant

variable {queue : EventQueue} {now : Instant} {order : Iteration} {id : Uuid}

section

variable (lists : Lists order.inFlightDeadlines queue.inFlightDeadlines)

include lists

theorem throttled_expired :
    (queue.expireAll now order).throttled now id = queue.throttled now id := by
  rw [EventQueue.throttled, EventQueue.throttled,
    (EventQueue.expireAll_expired now lists).retryAfter]

theorem idle_iff :
    (queue.expireAll now order).isChannelInFlight id = false ↔ queue.free now id := by
  rw [EventQueue.expireAll_inFlight lists, Bool.not_eq_false']

theorem ready_expired :
    (queue.expireAll now order).ready now id ↔
      queue.pending now id ≠ [] ∧ queue.free now id ∧ queue.throttled now id = false := by
  rw [EventQueue.ready_iff, EventQueue.expireAll_queues lists, idle_iff lists,
    throttled_expired lists]

end

theorem listed_of_ready (orders : order.Of queue now)
    (ready : (queue.expireAll now order).ready now id) : id ∈ order.queues := by
  rw [orders.queues.2]
  have filled := (EventQueue.ready_iff.mp ready).1
  cases present : (queue.expireAll now order).queues id with
  | none =>
    rw [ByChannel.orDefault, present] at filled
    exact absurd rfl filled
  | some events => rfl

theorem oldestReady_of_ready (orders : order.Of queue now)
    (ready : (queue.expireAll now order).ready now id) :
    (queue.expireAll now order).oldestReady now order.queues ≠ none := by
  intro none
  rw [EventQueue.oldestReady_none_iff.mp none id (listed_of_ready orders ready)] at ready
  cases ready

theorem announces_of_promotesFreely (filled : ∀ order, order.Of queue now → ∀ batch,
      (queue.flushNext now order).1 = some batch → batch.events ≠ [])
    (freely : PromotesFreely queue now) : Announces queue now := by
  intro order other orders others
  have lists := orders.inFlightDeadlines
  have same : queue.expireAll now other = queue.expireAll now order :=
    EventQueue.expireAll_order others.inFlightDeadlines lists
  constructor
  · have queues := others.queues
    have cancelled := others.cancelledBatches
    unfold EventQueue.hasFlushableWork EventQueue.flushNext
    rw [same] at queues cancelled ⊢
    apply EventQueue.hasFlushableWork_eq_flush
    · exact fun id => (orders.queues.2 id).trans (queues.2 id).symm
    · exact fun id => (orders.cancelledBatches.2 id).trans (cancelled.2 id).symm
  · intro batch flushed
    have events := filled order orders batch flushed
    rcases EventQueue.flush_batch flushed with ⟨id, found, rfl⟩ | ⟨none_ready, id, found, rfl⟩
    · obtain ⟨-, free, unthrottled⟩ := (ready_expired lists).mp (EventQueue.oldestReady_ready found)
      exact ⟨free, unthrottled, events⟩
    · have chosen := find?_some found
      rw [Bool.and_eq_true, Bool.not_eq_true'] at chosen
      have free := (idle_iff lists).mp chosen.2
      rcases freely with ⟨served, ready⟩ | unthrottled
      · exact absurd none_ready (oldestReady_of_ready orders ((ready_expired lists).mpr ready))
      · rw [(EventQueue.expireAll_expired now lists).cancelledBatches] at chosen
        exact ⟨free, unthrottled id chosen.1 free, events⟩

theorem promotesFreely_of_announces (announces : Announces queue now) :
    PromotesFreely queue now := by
  by_contra blocked
  rw [PromotesFreely, not_or] at blocked
  obtain ⟨unserved, throttled⟩ := blocked
  push Not at throttled
  obtain ⟨id, present, free, late⟩ := throttled
  obtain ⟨deadlines, lists⟩ := lists_exists queue.inFlightDeadlines
  obtain ⟨queues, queueLists⟩ := lists_exists (queue.expireAll now ⟨deadlines, [], []⟩).queues
  have kept : EventQueue.Expired queue _ (queue.expireAll now ⟨deadlines, [], []⟩) :=
    EventQueue.expireAll_expired now lists
  have parkable : ((queue.expireAll now ⟨deadlines, [], []⟩).cancelledBatches id).isSome :=
    kept.cancelledBatches ▸ present
  obtain ⟨rest, cancelledLists⟩ := lists_first parkable
  have orders : Iteration.Of ⟨deadlines, queues, id :: rest⟩ queue now :=
    ⟨lists, queueLists, cancelledLists⟩
  -- nothing is ready, so the first of the cancelled batches is promoted
  have none_ready : (queue.expireAll now ⟨deadlines, queues, id :: rest⟩).oldestReady now queues =
      none := by
    apply EventQueue.oldestReady_none_iff.mpr
    intro other _
    apply eq_false_of_ne_true
    exact fun ready => unserved ⟨other, (ready_expired orders.inFlightDeadlines).mp ready⟩
  have idle := (idle_iff orders.inFlightDeadlines).mpr free
  have parked : (queue.expireAll now ⟨deadlines, queues, id :: rest⟩).parked (id :: rest) =
      some id := by
    unfold EventQueue.parked
    rw [find?_cons_of_pos]
    rw [idle, Bool.not_false, Bool.and_true]
    exact parkable
  have flushed : (queue.flushNext now ⟨deadlines, queues, id :: rest⟩).1 = some
      ((queue.expireAll now ⟨deadlines, queues, id :: rest⟩).flushParked now id).1 := by
    unfold EventQueue.flushNext EventQueue.flush
    simp only [none_ready, parked]
  exact late ((announces _ _ orders orders).2 _ flushed).2.1

end instant

theorem flushable_iff {dedupMode : DedupMode} {inFlightDeadline : ℕ} {actions : List Action}
    (run : Run (Step jittered) (.initial dedupMode inFlightDeadline) actions world)
    (now : Instant) : Announces world.queue now ↔ PromotesFreely world.queue now := by
  constructor
  · exact promotesFreely_of_announces
  · apply announces_of_promotesFreely
    intro order orders batch flushed
    exact (filled_run run).flushed orders flushed

def flatJitter (secs _ : ℕ) : ℕ := fromSecs secs * 4 / 5

def outlivingActions : List Action :=
  [.push (sampleEvent 1), .flushNext 0 ⟨[], [sampleChannel], []⟩, .push (sampleEvent 2),
    .flushNext (fromSecs 7300) ⟨[sampleChannel], [sampleChannel], []⟩,
    .requeue ⟨sampleChannel, [(sampleEvent 2).toBatch], [], none⟩ none 0 (fromSecs 7300),
    .markComplete sampleChannel (fromSecs 7300),
    .requeueAsCancelled ⟨sampleChannel, [(sampleEvent 1).toBatch], [], none⟩ none .steer]

theorem outliving_run : ∃ world, Run (Step flatJitter) sampleInitial outlivingActions world ∧
    Iteration.Of ⟨[], [sampleChannel], [sampleChannel]⟩ world.queue (fromSecs 7300) ∧
    (world.queue.flushNext (fromSecs 7300) ⟨[], [sampleChannel], [sampleChannel]⟩).1 =
      some ⟨sampleChannel, [(sampleEvent 1).toBatch], [], some .steer⟩ ∧
    world.queue.throttled (fromSecs 7300) sampleChannel := by
  refine ⟨_,
    .cons (.push rfl) <|
    .cons (.flushNext ⟨lists_nil fun _ => rfl, lists_singleton rfl ?_, lists_nil fun _ => rfl⟩) <|
    .cons (.push rfl) <|
    .cons (.flushNext ⟨lists_singleton rfl ?_, lists_singleton rfl ?_,
      lists_vacant sampleChannel rfl ?_⟩) <|
    .cons (.requeue (Or.inl (by decide)) rfl) <| .cons .markComplete <|
    .cons (.requeueAsCancelled (Or.inr (by decide))) (.nil _),
    ⟨lists_vacant sampleChannel rfl ?_, lists_singleton rfl ?_, lists_singleton rfl ?_⟩, rfl,
    by decide +kernel⟩
  -- every entry of the maps is that of the one channel
  all_goals
    intro id different
    repeat first | rfl | refine update_off different ?_

theorem flushable_outliving : ∃ world,
    Run (Step flatJitter) sampleInitial outlivingActions world ∧
      (Announces world.queue 0 ↔ PromotesFreely world.queue 0) := by
  obtain ⟨world, run, -, -, -⟩ := outliving_run
  exact ⟨world, run, flushable_iff run 0⟩

theorem not_announces : ¬ ∀ (jittered : ℕ → ℕ → ℕ) (dedupMode : DedupMode) (inFlightDeadline : ℕ)
    (actions : List Action) (world : World),
    Run (Step jittered) (.initial dedupMode inFlightDeadline) actions world →
      ∀ now, Announces world.queue now := by
  intro always
  obtain ⟨world, run, orders, flushed, throttled⟩ := outliving_run
  have free := ((always _ _ _ _ world run _ _ _ orders orders).2 _ flushed).2.1
  rw [throttled] at free
  cases free

end Buzz.Harness
