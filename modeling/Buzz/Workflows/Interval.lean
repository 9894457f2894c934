import Buzz.Library.Times
import Buzz.Workflows.Claims

/-! How far the runs of an interval workflow are apart. -/

namespace Buzz.Workflows

open Nostr Library Library.Buckets Library.Runs List

def width (secs : ℕ) : ℤ := secs * second

def WorkflowRun.interval (self : WorkflowRun) : Option ℕ :=
  match self.offer.trigger with
  | .cron _ => none
  | .interval dur => (parseDurationSecs dur).toOption

section buckets

variable {dur : String} {last : Option DateTime} {now other instant : DateTime} {secs : ℕ}

theorem second_eq : second = 1000000000 := by decide

theorem secs_bounded (fires : intervalShouldFire dur last now)
    (parsed : parseDurationSecs dur = .ok secs) : secs < 2 ^ 63 := by
  unfold intervalShouldFire at fires
  rw [parsed] at fires
  have elapsed := of_decide_eq_true fires
  rw [Int.natAbs_tdiv, second_eq] at elapsed
  change secs ≤ (now.nanos - (last.getD now).nanos).natAbs / 1000000000 at elapsed
  have upper := now.upper
  have lower := now.lower
  have upper' := (last.getD now).upper
  have lower' := (last.getD now).lower
  rw [second_eq] at upper lower upper' lower'
  omega

theorem bucket_eq (computed : intervalFireInstant dur now = some instant)
    (parsed : parseDurationSecs dur = .ok secs) (bounded : secs < 2 ^ 63) :
    0 < secs ∧ instant.nanos = now.nanos / width secs * width secs := by
  unfold intervalFireInstant at computed
  rw [parsed] at computed
  dsimp only at computed
  split at computed
  next positive =>
    unfold fromTimestamp fromNanos at computed
    split at computed
    · injection computed with same
      refine ⟨positive, ?_⟩
      have plain : asI64 secs = secs := if_pos bounded
      have nested : now.nanos / second / (secs : ℤ) = now.nanos / (second * secs) :=
        Int.ediv_ediv_of_nonneg (by decide)
      calc
        instant.nanos = now.timestamp / asI64 secs * asI64 secs * second := by rw [← same]
        _ = now.nanos / width secs * width secs := by
          rw [plain, DateTime.timestamp, nested, width, mul_comm second, mul_assoc]
    · cases computed
  · cases computed

theorem WorkflowRun.bucket {parse : String → Option CronSchedule} (self : WorkflowRun)
    (computed : self.offer.Computed parse self.tick) (isSecs : self.interval = some secs) :
    0 < secs ∧ self.offer.scheduledFor.nanos = self.tick.nanos / width secs * width secs := by
  unfold WorkflowRun.interval at isSecs
  unfold Offer.Computed at computed
  split at isSecs
  · cases isSecs
  next dur isInterval =>
    rw [isInterval] at computed
    obtain ⟨instant, last, fires⟩ := computed
    have parsed : parseDurationSecs dur = .ok secs := by
      cases duration : parseDurationSecs dur with
      | error text =>
        rw [duration] at isSecs
        cases isSecs
      | ok found =>
        rw [duration] at isSecs
        injection isSecs with same
        rw [same]
    exact bucket_eq instant parsed (secs_bounded fires parsed)

end buckets

namespace Scheduler

variable {parse : String → Option CronSchedule} {self : Scheduler} {label : SchedulerStep}

end Scheduler

end Buzz.Workflows
