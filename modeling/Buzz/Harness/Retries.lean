import Buzz.Harness.Flushable

/-! How often a channel's batch is retried. The count of a channel outlives a completion only while
the channel is throttled. -/

namespace Buzz.Harness

open Nostr Library.Transition EventQueue List

variable {jittered : ℕ → ℕ → ℕ} {channelId : Uuid}

section counts

variable {world next : World} {action : Action}

/-- A requeue counts it up or dead-letters. -/
def KeepsCount (channelId : Uuid) (world : World) (action : Action) (next : World) : Prop :=
  next.queue.retryCounts channelId =
    match action with
    | .requeue held _ _ _ =>
      if held.channelId = channelId then
        if maxRetries < world.queue.attempt channelId then none
        else some (world.queue.attempt channelId)
      else world.queue.retryCounts channelId
    | _ => world.queue.retryCounts channelId

def Guards (channelId : Uuid) (world : World) : Action → Prop
  | .markComplete completed now => completed = channelId →
    world.queue.retryCounts channelId = none ∨ world.queue.throttled now channelId
  | .compactExpiredState now => world.queue.retryCounts channelId = none ∨
    world.queue.throttled now channelId ∨ world.queue.queues.orDefault channelId ≠ [] ∨
    world.queue.isChannelInFlight channelId
  | .drainChannel drained => drained = channelId → world.queue.retryCounts channelId = none
  | _ => True

section

variable (self : EventQueue)

include self

theorem retryCounts_push (event : QueuedEvent) :
    (self.push event).2.retryCounts = self.retryCounts := by
  unfold push
  split
  · rfl
  · rfl

theorem retryCounts_flush (now : Instant) (order : Iteration) :
    (self.flush now order).2.retryCounts = self.retryCounts := by
  unfold flush
  split
  · rfl
  · split
    · rfl
    · rfl

theorem retryCounts_markComplete (completed : Uuid) (now : Instant) :
    (self.markComplete completed now).retryCounts =
      if self.throttled now completed then self.retryCounts else self.retryCounts.remove completed := by
  cases throttle : self.retryAfter completed with
  | none => simp [markComplete, throttled, throttle]
  | some deadline =>
    by_cases later : now < deadline
    · simp [markComplete, throttled, throttle, later]
    · simp [markComplete, throttled, throttle, later]

theorem retryCounts_requeue (batch : FlushBatch) (subsecNanos : ℕ)
    (now : Instant) :
    (self.requeue jittered batch subsecNanos now).2.retryCounts =
      if maxRetries < self.attempt batch.channelId then self.retryCounts.remove batch.channelId
      else self.retryCounts.insert batch.channelId (self.attempt batch.channelId) := by
  simp only [requeue, pushFront]
  split
  · rfl
  · rfl

end

theorem requeue_keepsCount {held : FlushBatch} {stamped : Option CancelReason} {subsecNanos : ℕ}
    {now : Instant}
    (moved : next.queue = (world.queue.requeue jittered (held.stamp stamped) subsecNanos now).2) :
    KeepsCount channelId world (.requeue held stamped subsecNanos now) next := by
  simp only [KeepsCount, moved, retryCounts_requeue, FlushBatch.stamp]
  by_cases same : held.channelId = channelId
  · subst same
    split
    · simp
    · simp
  · split
    · simp [Ne.symm same]
    · simp [Ne.symm same]

theorem keepsCount_same (same : next.queue.retryCounts = world.queue.retryCounts)
    (other : ∀ held stamped subsecNanos now, action ≠ .requeue held stamped subsecNanos now) :
    KeepsCount channelId world action next := by
  unfold KeepsCount
  split
  · exact absurd rfl (other _ _ _ _)
  · rw [same]

theorem keepsCount_iff (step : Step jittered world action next) :
    KeepsCount channelId world action next ↔ Guards channelId world action := by
  cases step with
  | push accepted | refuse refused =>
    exact iff_of_true (keepsCount_same (retryCounts_push _ _) (by simp)) trivial
  | @flushNext now order orders =>
    have expired := (expireAll_expired now orders.inFlightDeadlines).retryCounts
    exact iff_of_true (keepsCount_same ((retryCounts_flush _ now order).trans expired) (by simp)) trivial
  | @hasFlushableWork now order orders =>
    have expired := (expireAll_expired now orders.inFlightDeadlines).retryCounts
    exact iff_of_true (keepsCount_same expired (by simp)) trivial
  | @markComplete completed now =>
    simp only [KeepsCount, Guards, retryCounts_markComplete]
    by_cases same : completed = channelId
    · subst same
      cases world.queue.throttled now completed with
      | true => simp
      | false => simp [eq_comm]
    · simp only [same, false_imp_iff, iff_true]
      split
      · rfl
      · simp [Ne.symm same]
  | deadLetter holds dead | requeue holds alive =>
    exact iff_of_true (requeue_keepsCount rfl) trivial
  | requeuePreserveTimestamps holds | requeueAsCancelled holds =>
    exact iff_of_true (keepsCount_same rfl (by simp)) trivial
  | @markNativeSteerPending steered eventId =>
    have same : (world.queue.markNativeSteerPending steered eventId).2.retryCounts =
        world.queue.retryCounts := by
      unfold markNativeSteerPending
      split
      · rfl
      · rfl
    exact iff_of_true (keepsCount_same same (by simp)) trivial
  | @releaseNativeSteer steered eventId =>
    have same : (world.queue.releaseNativeSteer steered eventId).retryCounts =
        world.queue.retryCounts := by
      unfold releaseNativeSteer
      split
      · rfl
      · rfl
    exact iff_of_true (keepsCount_same same (by simp)) trivial
  | removeEvent => exact iff_of_true (keepsCount_same rfl (by simp)) trivial
  | @drainChannel drained =>
    simp only [KeepsCount, Guards, EventQueue.drainChannel, ByChannel.remove_apply]
    by_cases same : drained = channelId
    · simp [same, eq_comm]
    · simp [same, Ne.symm same]
  | @compactExpiredState now =>
    have throttled : ((world.queue.retryAfter channelId).filter fun deadline =>
        now < deadline).isSome = world.queue.throttled now channelId := by
      unfold EventQueue.throttled
      cases world.queue.retryAfter channelId with
      | none => rfl
      | some deadline => by_cases later : now < deadline <;> simp [later]
    simp only [KeepsCount, Guards, EventQueue.compactExpiredState, throttled]
    cases world.queue.retryCounts channelId with
    | none => simp
    | some count => simp [or_assoc]
  | @extendInFlightDeadline extended maxTurnSecs now =>
    rcases world.queue.extendInFlightDeadline_eq extended maxTurnSecs now with ⟨deadlines, same⟩
    exact iff_of_true (keepsCount_same (by rw [same]) (by simp)) trivial

end counts

section runs

variable {first last : World} {actions : List Action}

def requeues (channelId : Uuid) : Action → Bool
  | .requeue held _ _ _ => held.channelId = channelId
  | _ => false

def Retries (channelId : Uuid) (world : World) (action : Action) : Prop :=
  requeues channelId action → world.queue.attempt channelId ≤ maxRetries

theorem attempt_step {world next : World} {action : Action}
    (kept : KeepsCount channelId world action next) (retries : Retries channelId world action) :
    next.queue.attempt channelId =
      world.queue.attempt channelId + (requeues channelId action).toNat := by
  unfold KeepsCount at kept
  rw [EventQueue.attempt, kept]
  split
  next held stamped subsecNanos now =>
    by_cases same : held.channelId = channelId
    · have alive := retries (decide_eq_true same)
      simp [requeues, same, Nat.not_lt.mpr alive]
    · simp [requeues, same, EventQueue.attempt]
  next other =>
    have none : requeues channelId action = false := by
      cases action with
      | requeue held stamped subsecNanos now => exact absurd rfl (other held stamped subsecNanos now)
      | _ => rfl
    simp [none, EventQueue.attempt]

theorem attempt_run
    (run : Run (Guarded (fun world action =>
      Guards channelId world action ∧ Retries channelId world action) (Step jittered))
      first actions last) :
    last.queue.attempt channelId =
        first.queue.attempt channelId + actions.countP (requeues channelId) ∧
      (first.queue.attempt channelId ≤ maxRetries + 1 →
        last.queue.attempt channelId ≤ maxRetries + 1) := by
  induction run with
  | nil world => exact ⟨rfl, id⟩
  | @cons first middle last action actions head tail ih =>
    have moved := attempt_step ((keepsCount_iff head.2).mpr head.1.1) head.1.2
    have alive := head.1.2
    unfold Retries at alive
    rw [countP_cons]
    cases isRequeue : requeues channelId action with
    | true =>
      have within := alive isRequeue
      simp only [isRequeue, Bool.toNat_true] at moved
      simp only [if_true]
      omega
    | false =>
      simp only [isRequeue, Bool.toNat_false] at moved
      simp only [Bool.false_eq_true, if_false]
      omega

/-- Retries are bounded exactly in the runs whose steps meet the condition. -/
theorem retries_bounded_iff (jittered : ℕ → ℕ → ℕ) (first last : World) (actions : List Action)
    (channelId : Uuid) :
    (Run (fun world action next => Step jittered world action next ∧
        KeepsCount channelId world action next) first actions last ↔
      Run (Guarded (Guards channelId) (Step jittered)) first actions last) ∧
    (first.queue.retryCounts channelId = none →
      Run (Guarded (fun world action => Guards channelId world action ∧
        Retries channelId world action) (Step jittered)) first actions last →
      actions.countP (requeues channelId) ≤ maxRetries ∧
        (actions.countP (requeues channelId) = maxRetries → ∀ held stamped subsecNanos now,
          held.channelId = channelId → (last.queue.requeue jittered
            (FlushBatch.stamp held stamped) subsecNanos now).1 = some (held.stamp stamped))) := by
  refine ⟨⟨fun kept => ?_, fun guarded => ?_⟩, fun fresh guarded => ?_⟩
  · induction kept with
    | nil world => exact .nil world
    | cons head tail ih => exact .cons ⟨(keepsCount_iff head.1).mp head.2, head.1⟩ ih
  · induction guarded with
    | nil world => exact .nil world
    | cons head tail ih => exact .cons ⟨head.2, (keepsCount_iff head.2).mpr head.1⟩ ih
  · have counted := attempt_run guarded
    have start : first.queue.attempt channelId = 1 := by rw [EventQueue.attempt, fresh]; rfl
    refine ⟨by omega, fun all held stamped subsecNanos now own => ?_⟩
    have above : maxRetries < last.queue.attempt (held.stamp stamped).channelId := by
      change maxRetries < last.queue.attempt held.channelId
      rw [own]
      omega
    simp only [EventQueue.requeue, if_pos above]

end runs

def sampleBatch : FlushBatch := ⟨sampleChannel, [(sampleEvent 1).toBatch], [], none⟩

/-- Then no agent is free. -/
def failAndGiveBack (now : Instant) : List Action :=
  let order : Iteration := ⟨[], [sampleChannel], []⟩
  let retry := now + fromSecs 300
  [.flushNext now order, .requeue sampleBatch none 0 now, .markComplete sampleChannel now,
    .flushNext retry order, .requeuePreserveTimestamps sampleBatch none,
    .markComplete sampleChannel retry]

def waiting : World :=
  { sampleInitial with
    queue := { sampleInitial.queue with
      queues := ByChannel.empty.insert sampleChannel [sampleEvent 1] }
    accepted := [sampleEvent 1] }

variable {self : EventQueue} {now deadline : Instant}

theorem throttled_of {id : Uuid}
    (throttle : self.retryAfter id = some deadline) (early : now < deadline) :
    self.throttled now id := by
  simp [throttled, throttle, early]

variable {completed : Uuid}

theorem markComplete_throttled
    (throttle : self.retryAfter completed = some deadline) (early : now < deadline) :
    self.markComplete completed now = { self with
      inFlightChannels := self.inFlightChannels.remove completed
      inFlightDeadlines := self.inFlightDeadlines.remove completed
      inFlightBatchSizes := self.inFlightBatchSizes.remove completed } := by
  simp [markComplete, throttle, early]

theorem markComplete_due
    (throttle : self.retryAfter completed = some deadline) (late : deadline ≤ now) :
    self.markComplete completed now = { self with
      inFlightChannels := self.inFlightChannels.remove completed
      inFlightDeadlines := self.inFlightDeadlines.remove completed
      inFlightBatchSizes := self.inFlightBatchSizes.remove completed
      retryAfter := self.retryAfter.remove completed
      retryCounts := self.retryCounts.remove completed } := by
  simp [markComplete, throttle, Nat.not_lt.mpr late]

theorem map_eq {α : Type} {first second : ByChannel α}
    (here : first sampleChannel = second sampleChannel)
    (before : ∀ id, id ≠ sampleChannel → first id = none)
    (after : ∀ id, id ≠ sampleChannel → second id = none) : first = second := by
  funext id
  by_cases same : id = sampleChannel
  · rw [same, here]
  · rw [before id same, after id same]

def throttledUntil (deadline : Instant) : World :=
  { waiting with
    queue := { waiting.queue with
      retryAfter := ByChannel.empty.insert sampleChannel deadline
      retryCounts := ByChannel.empty.insert sampleChannel 1 } }

theorem fail_run (isDeadline : now + flatJitter (backoffSecs 1) 0 = deadline)
    (early : now < deadline) :
    ∃ world, Run (Guarded (fun world action => Guards sampleChannel world action ∧
        Retries sampleChannel world action) (Step flatJitter)) waiting
      [.flushNext now ⟨[], [sampleChannel], []⟩, .requeue sampleBatch none 0 now,
        .markComplete sampleChannel now] world ∧ world = throttledUntil deadline := by
  subst isDeadline
  refine ⟨_,
    .cons ⟨⟨trivial, nofun⟩, .flushNext
      ⟨lists_nil fun _ => rfl, lists_singleton rfl ?_, lists_nil fun _ => rfl⟩⟩ <|
    .cons ⟨⟨trivial, fun _ => Nat.le_add_left 1 9⟩,
      .requeue (.inl (mem_singleton_self sampleBatch)) rfl⟩ <|
    .cons ⟨⟨fun _ => .inr (throttled_of rfl early), nofun⟩, .markComplete⟩ (.nil _), ?_⟩
  · intro id different
    exact update_off different rfl
  · simp only [World.lapse]
    rw [markComplete_throttled rfl early]
    simp only [throttledUntil, World.mk.injEq, EventQueue.mk.injEq]
    refine ⟨⟨map_eq rfl ?_ ?_, map_eq rfl ?_ ?_, map_eq rfl ?_ ?_, map_eq rfl ?_ ?_,
      rfl, rfl, rfl, map_eq rfl ?_ ?_, map_eq rfl ?_ ?_, rfl, rfl⟩, rfl, rfl, rfl, rfl⟩
    all_goals
      intro id different
      repeat first | rfl | refine update_off different ?_

theorem giveBack_run (late : deadline ≤ now) :
    ∃ world, Run (Guarded (Retries sampleChannel) (Step flatJitter)) (throttledUntil deadline)
      [.flushNext now ⟨[], [sampleChannel], []⟩, .requeuePreserveTimestamps sampleBatch none,
        .markComplete sampleChannel now] world ∧ world = waiting := by
  have due : (throttledUntil deadline).queue.throttled now sampleChannel = false := by
    change decide (now < deadline) = false
    simpa using late
  have ready : (throttledUntil deadline).queue.ready now sampleChannel :=
    ready_iff.mpr ⟨nofun, rfl, due⟩
  have flushed : (throttledUntil deadline).queue.flushNext now ⟨[], [sampleChannel], []⟩ =
      (some sampleBatch, ((throttledUntil deadline).queue.flushReady now sampleChannel).2) := by
    change (throttledUntil deadline).queue.flush now ⟨[], [sampleChannel], []⟩ = _
    simp only [EventQueue.flush, oldestReady, filterMap_cons, ready, if_true]
    rfl
  refine ⟨_,
    .cons ⟨nofun, .flushNext
      ⟨lists_nil fun _ => rfl, lists_singleton rfl ?_, lists_nil fun _ => rfl⟩⟩ <|
    .cons ⟨nofun, .requeuePreserveTimestamps (.inl ?_)⟩ <|
    .cons ⟨nofun, .markComplete⟩ (.nil _), ?_⟩
  · intro id different
    exact update_off different rfl
  · rw [flushed]
    exact mem_singleton_self sampleBatch
  · simp only [World.lapse, flushed]
    rw [markComplete_due rfl late]
    simp only [waiting, World.mk.injEq, EventQueue.mk.injEq]
    refine ⟨⟨map_eq rfl ?_ ?_, map_eq rfl ?_ ?_, map_eq rfl ?_ ?_,
      map_eq rfl ?_ ?_, map_eq rfl ?_ ?_, map_eq rfl ?_ ?_, rfl, map_eq rfl ?_ ?_, map_eq rfl ?_ ?_,
      rfl, rfl⟩, rfl, rfl, rfl, rfl⟩
    all_goals
      intro id different
      repeat first | rfl | refine update_off different ?_

theorem failAndGiveBack_run (now : Instant) :
    Run (Guarded (Retries sampleChannel) (Step flatJitter)) waiting (failAndGiveBack now) waiting := by
  have early : now < now + flatJitter (backoffSecs 1) 0 :=
    Nat.lt_add_of_pos_right (by decide +kernel)
  rcases fail_run rfl early with ⟨_, failed, rfl⟩
  have late : now + flatJitter (backoffSecs 1) 0 ≤ now + fromSecs 300 :=
    Nat.add_le_add_left (by decide +kernel) now
  rcases giveBack_run late with ⟨_, given, rfl⟩
  exact (failed.weaken fun _ _ => And.right).append given

def failures (count : ℕ) : List Action :=
  (List.range count).flatMap fun attempt => failAndGiveBack (fromSecs (600 * attempt))

theorem failures_run (count : ℕ) :
    Run (Guarded (Retries sampleChannel) (Step flatJitter)) waiting (failures count) waiting ∧
      (failures count).countP (requeues sampleChannel) = count := by
  induction count with
  | zero => exact ⟨.nil _, rfl⟩
  | succ count ih =>
    simp only [failures, range_succ, flatMap_append, flatMap_singleton,
      countP_append]
    exact ⟨ih.1.append (failAndGiveBack_run _), congrArg (· + 1) ih.2⟩

/-- A batch is retried once more than it may be. -/
theorem not_retries_bounded :
    Run (Guarded (Retries sampleChannel) (Step flatJitter)) sampleInitial
        (.push (sampleEvent 1) :: failures 11) waiting ∧
      sampleInitial.queue.retryCounts sampleChannel = none ∧
      maxRetries < (Action.push (sampleEvent 1) :: failures 11).countP (requeues sampleChannel) := by
  have failed := failures_run 11
  refine ⟨.cons ⟨nofun, .push rfl⟩ failed.1, rfl, ?_⟩
  rw [countP_cons_of_neg Bool.false_ne_true, failed.2]
  decide

theorem retries_bounded_once :
    [.flushNext 0 ⟨[], [sampleChannel], []⟩, .requeue sampleBatch none 0 0,
      .markComplete sampleChannel 0].countP (requeues sampleChannel) ≤ maxRetries := by
  have early : 0 < 0 + flatJitter (backoffSecs 1) 0 := by decide +kernel
  rcases fail_run rfl early with ⟨last, run, -⟩
  exact ((retries_bounded_iff flatJitter waiting last _ sampleChannel).2 rfl run).1

end Buzz.Harness
