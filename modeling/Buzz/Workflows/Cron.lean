import Buzz.Workflows.Claims
import Mathlib.Data.List.MinMax

/-! Which instants of a cron schedule a pod finds. A tick looks back sixty seconds and takes the first
instant that it sees there. -/

namespace Buzz.Workflows

open Nostr Library Library.Runs List Option

def minute : ℤ := 60 * second

/-- The time of its tick, whether it may run, and the instant to claim. -/
structure CronVisit where
  now : DateTime
  authorized : Bool
  offered : Option DateTime
  deriving DecidableEq

def PodPhase.offered : PodPhase → Option DateTime
  | .claiming _ _ _ offer => some offer.scheduledFor
  | _ => none

def PodPhase.now : PodPhase → Option DateTime
  | .sleeping _ => none
  | .scanning now _ _ => some now
  | .claiming now _ _ _ => some now

theorem cronFireInstant_iff {parse : String → Option CronSchedule} {expr : String}
    {sched : CronSchedule} {now instant : DateTime} (parsed : parse (normalizeCron expr) = some sched) :
    cronFireInstant parse expr now 60 = some instant ↔
      sched.Scheduled instant ∧ now.nanos - minute < instant.nanos ∧ instant.nanos ≤ now.nanos ∧
        ∀ other, sched.Scheduled other → now.nanos - minute < other.nanos →
          instant.nanos ≤ other.nanos := by
  unfold cronFireInstant
  rw [parsed]
  change (sched.next (now.nanos - minute)).filter _ = some instant ↔ _
  rw [filter_eq_some_iff, decide_eq_true_iff]
  constructor
  · rintro ⟨next, due⟩
    obtain ⟨scheduled, after, first⟩ := sched.next_first _ _ next
    exact ⟨scheduled, after, due, first⟩
  · rintro ⟨scheduled, after, due, first⟩
    refine ⟨?_, due⟩
    cases next : sched.next (now.nanos - minute) with
    | none =>
      have before := sched.next_none _ next instant scheduled
      omega
    | some found =>
      obtain ⟨isScheduled, isAfter, isFirst⟩ := sched.next_first _ _ next
      have same : found.nanos = instant.nanos :=
        le_antisymm (isFirst instant scheduled after) (first found isScheduled isAfter)
      rw [DateTime.ext same]

namespace Scheduler

section definitions

variable (parse : String → Option CronSchedule) (index : ℕ) (key : WorkflowKey) (expr : String)

def visitOf (self : Scheduler) : SchedulerStep → Option CronVisit
  | .visit pod anchorRead authorized =>
    match (self.pods index).phase with
    | .scanning now _ (row :: _) =>
      if pod = index ∧ row.key = key ∧ row.trigger = some (.cron expr) then
        some ⟨now, authorized,
          ((self.visit parse pod anchorRead authorized).pods index).phase.offered⟩
      else none
    | _ => none
  | _ => none

def visits (self : Scheduler) : List SchedulerStep → List CronVisit
  | [] => []
  | label :: rest =>
    (self.visitOf parse index key expr label).toList ++ (self.step parse label).visits rest

/-- Unless the owner may not run it, an instant is offered to the claim table. -/
def Covered (looks : List CronVisit) : Prop :=
  ∀ sched, parse (normalizeCron expr) = some sched → ∀ instant, sched.Scheduled instant →
    (∃ look ∈ looks, look.now.nanos ≤ instant.nanos) →
    (∃ look ∈ looks, instant.nanos ≤ look.now.nanos) →
      ∃ look ∈ looks, cronFireInstant parse expr look.now 60 = some instant ∧
        (look.authorized → look.offered = some instant)

/-- Less than a minute before the next look, and the first in that minute. -/
def WithinReach (looks : List CronVisit) : Prop :=
  ∀ sched, parse (normalizeCron expr) = some sched → ∀ instant, sched.Scheduled instant →
    (∃ look ∈ looks, look.now.nanos ≤ instant.nanos) →
    ∀ look ∈ looks, instant.nanos ≤ look.now.nanos →
      (∀ other ∈ looks, instant.nanos ≤ other.now.nanos → look.now.nanos ≤ other.now.nanos) →
        look.now.nanos < instant.nanos + minute ∧
          ∀ other, sched.Scheduled other → look.now.nanos - minute < other.nanos →
            instant.nanos ≤ other.nanos

end definitions

variable {parse : String → Option CronSchedule} {self : Scheduler} {label : SchedulerStep}
  {index : ℕ}

section ticks

inductive Moved (clock : ℤ) : PodPhase → PodPhase → Prop
  | stays {phase : PodPhase} : Moved clock phase phase
  | wakes {since : ℤ} {now : DateTime} {listed rest : List ScheduledRow} (slept : since + minute ≤ clock)
    (isNow : now.nanos = clock) : Moved clock (.sleeping since) (.scanning now listed rest)
  | works {before after : PodPhase} {now : DateTime} (isBefore : before.now = some now)
    (isAfter : after.now = some now) : Moved clock before after
  | sleeps {phase : PodPhase} : Moved clock phase (.sleeping clock)

theorem moved_setPod {pod : Pod} {other : ℕ} {clock : ℤ}
    (moved : Moved clock (self.pods other).phase pod.phase) :
    Moved clock (self.pods index).phase ((self.setPod other pod).pods index).phase := by
  rw [pods_setPod]
  split
  next same =>
    rw [same]
    exact moved
  · exact .stays

theorem moved_step :
    Moved self.clock (self.pods index).phase ((self.step parse label).pods index).phase := by
  cases label with
  | advance nanos => exact .stays
  | restart pod => exact moved_setPod .sleeps
  | tick pod rows =>
    change Moved _ _ ((self.tick pod rows).pods index).phase
    unfold tick
    dsimp only
    split
    next since sleeping =>
      split
      next slept =>
        split
        · exact .stays
        · exact moved_setPod .sleeps
        next now rows found =>
          apply moved_setPod
          rw [sleeping]
          refine .wakes slept ?_
          unfold fromNanos at found
          split at found
          · injection found with same
            rw [← same]
          · cases found
      · exact .stays
    · exact .stays
  | visit pod anchorRead authorized =>
    change Moved _ _ ((self.visit parse pod anchorRead authorized).pods index).phase
    unfold visit
    dsimp only
    split
    next now listed row rest scanning =>
      have isNow : (self.pods pod).phase.now = some now := by rw [scanning]; rfl
      split
      · split <;> exact moved_setPod (.works isNow rfl)
      · exact moved_setPod (.works isNow rfl)
    · exact .stays
  | claim pod outcome =>
    change Moved _ _ ((self.claim pod outcome).pods index).phase
    unfold claim
    dsimp only
    split
    next now listed rest offer claiming =>
      have isNow : (self.pods pod).phase.now = some now := by rw [claiming]; rfl
      cases outcome with
      | failed | noWorkflow => exact moved_setPod (.works isNow rfl)
      | runFailed =>
        dsimp only
        split
        · exact moved_setPod (.works isNow rfl)
        · exact @moved_setPod { self with claims := _ } index _ _ _ (.works isNow rfl)
      | created =>
        dsimp only
        split
        · exact moved_setPod (.works isNow rfl)
        · exact @moved_setPod { self with claims := _, runs := _ } index _ _ _ (.works isNow rfl)
    · exact .stays
  | finish pod =>
    change Moved _ _ ((self.finish pod).pods index).phase
    unfold finish
    dsimp only
    split
    · exact moved_setPod .sleeps
    · exact .stays

theorem clock_step : self.clock ≤ (self.step parse label).clock := by
  cases label with
  | advance nanos => exact Int.le_add_of_nonneg_right (Int.natCast_nonneg nanos)
  | restart pod => exact le_rfl
  | tick pod rows =>
    change _ ≤ (self.tick pod rows).clock
    unfold tick
    dsimp only
    split
    · split
      · split <;> exact le_rfl
      · exact le_rfl
    · exact le_rfl
  | visit pod anchorRead authorized =>
    change _ ≤ (self.visit parse pod anchorRead authorized).clock
    unfold visit
    dsimp only
    split
    · split
      · split <;> exact le_rfl
      · exact le_rfl
    · exact le_rfl
  | claim pod outcome =>
    change _ ≤ (self.claim pod outcome).clock
    unfold claim
    dsimp only
    split
    · cases outcome with
      | failed | noWorkflow => exact le_rfl
      | runFailed | created =>
        dsimp only
        split <;> exact le_rfl
    · exact le_rfl
  | finish pod =>
    change _ ≤ (self.finish pod).clock
    unfold finish
    dsimp only
    split <;> exact le_rfl

def InTime (clock : ℤ) : PodPhase → Prop
  | .sleeping since => since ≤ clock
  | .scanning now _ _ => now.nanos ≤ clock
  | .claiming now _ _ _ => now.nanos ≤ clock

def Ahead (time : ℤ) : PodPhase → Prop
  | .sleeping since => since + minute ≤ time
  | .scanning now _ _ => time = now.nanos ∨ now.nanos + minute ≤ time
  | .claiming now _ _ _ => time = now.nanos ∨ now.nanos + minute ≤ time

variable {clock : ℤ} {phase : PodPhase} {now : DateTime}

theorem inTime_now (isNow : phase.now = some now) :
    InTime clock phase ↔ now.nanos ≤ clock := by
  cases phase with
  | sleeping since => cases isNow
  | scanning time listed rest | claiming time listed rest offer =>
    cases isNow
    rfl

theorem ahead_now {time : ℤ} (isNow : phase.now = some now) :
    Ahead time phase ↔ time = now.nanos ∨ now.nanos + minute ≤ time := by
  cases phase with
  | sleeping since => cases isNow
  | scanning time listed rest | claiming time listed rest offer =>
    cases isNow
    rfl

variable {before after : PodPhase}

theorem Moved.inTime (moved : Moved clock before after)
    (inTime : InTime clock before) : InTime clock after := by
  cases moved with
  | stays => exact inTime
  | wakes slept isNow => exact isNow.le
  | works isBefore isAfter => exact (inTime_now isAfter).mpr ((inTime_now isBefore).mp inTime)
  | sleeps => exact le_rfl (a := clock)

theorem Moved.ahead {time : ℤ} (moved : Moved clock before after)
    (inTime : InTime clock before) (ahead : Ahead time after) : Ahead time before := by
  have slow : 0 ≤ minute := by decide
  cases moved with
  | stays => exact ahead
  | @wakes since now listed rest slept isNow =>
    change since + minute ≤ time
    rcases ahead with same | further
    · omega
    · omega
  | works isBefore isAfter => exact (ahead_now isBefore).mpr ((ahead_now isAfter).mp ahead)
  | sleeps =>
    change clock + minute ≤ time at ahead
    cases before with
    | sleeping since =>
      change since ≤ clock at inTime
      change since + minute ≤ time
      omega
    | scanning now listed rest | claiming now listed rest offer =>
      change now.nanos ≤ clock at inTime
      right
      omega

theorem InTime.later {clock' : ℤ} (inTime : InTime clock phase)
    (ordered : clock ≤ clock') : InTime clock' phase := by
  cases phase with
  | sleeping since => exact le_trans (a := since) inTime ordered
  | scanning now listed rest | claiming now listed rest offer =>
    exact le_trans (a := now.nanos) inTime ordered

end ticks

section looks

variable {key : WorkflowKey} {expr : String} {look : CronVisit} {steps : List SchedulerStep}

theorem visitOf_now (looked : self.visitOf parse index key expr label = some look) :
    (self.pods index).phase.now = some look.now := by
  unfold visitOf at looked
  split at looked
  · split at looked
    next scanning =>
      split at looked
      · cases looked
        rw [scanning]
        rfl
      · cases looked
    · cases looked
  · cases looked

theorem visitOf_offered (looked : self.visitOf parse index key expr label = some look)
    {instant : DateTime} (found : cronFireInstant parse expr look.now 60 = some instant)
    (authorized : look.authorized) : look.offered = some instant := by
  unfold visitOf at looked
  split at looked
  next pod anchorRead allowed =>
    split at looked
    next now listed row rest scanning =>
      split at looked
      next isRow =>
        obtain ⟨rfl, isKey, isCron⟩ := isRow
        cases looked
        have isAllowed : allowed := authorized
        have offers : self.offer parse (self.pods pod) now row anchorRead =
            (some ⟨row.key, instant, .cron expr⟩, (self.pods pod).lastFired) := by
          unfold Scheduler.offer
          rw [isCron]
          dsimp only
          rw [found]
          rfl
        change ((self.visit parse pod anchorRead allowed).pods pod).phase.offered = some instant
        unfold visit
        dsimp only
        rw [scanning]
        dsimp only
        rw [offers]
        dsimp only
        rw [if_pos isAllowed, pods_setPod, if_pos rfl]
        rfl
      · cases looked
    · cases looked
  · cases looked

theorem mem_visits (member : look ∈ self.visits parse index key expr steps) :
    ∃ (state : Scheduler) (label : SchedulerStep),
      state.visitOf parse index key expr label = some look := by
  induction steps generalizing self with
  | nil => cases member
  | cons label rest ih =>
    rcases mem_append.mp member with here | more
    · exact ⟨self, label, mem_toList.mp here⟩
    · exact ih more

theorem visits_ahead (inTime : InTime self.clock (self.pods index).phase)
    (member : look ∈ self.visits parse index key expr steps) :
    Ahead look.now.nanos (self.pods index).phase := by
  induction steps generalizing self with
  | nil => cases member
  | cons label rest ih =>
    rcases mem_append.mp member with here | more
    · have isNow := visitOf_now (mem_toList.mp here)
      exact (ahead_now isNow).mpr (.inl rfl)
    · have moved := @moved_step parse self label index
      exact moved.ahead inTime (ih ((moved.inTime inTime).later clock_step) more)

theorem visits_spread (inTime : InTime self.clock (self.pods index).phase) :
    (self.visits parse index key expr steps).Pairwise fun one other =>
      other.now.nanos = one.now.nanos ∨ one.now.nanos + minute ≤ other.now.nanos := by
  induction steps generalizing self with
  | nil => exact List.Pairwise.nil
  | cons label rest ih =>
    have moved := @moved_step parse self label index
    have inTime' := (moved.inTime inTime).later (@clock_step parse self label)
    refine pairwise_append.mpr ⟨?_, ih inTime', ?_⟩
    · cases self.visitOf parse index key expr label with
      | none => exact List.Pairwise.nil
      | some look => exact pairwise_singleton _ _
    · intro one here other more
      have isNow := visitOf_now (mem_toList.mp here)
      exact (ahead_now isNow).mp (moved.ahead inTime (visits_ahead inTime' more))

variable {looks : List CronVisit}

theorem exists_first {time : ℤ} (some_look : ∃ look ∈ looks, time ≤ look.now.nanos) :
    ∃ look ∈ looks, time ≤ look.now.nanos ∧
      ∀ other ∈ looks, time ≤ other.now.nanos → look.now.nanos ≤ other.now.nanos := by
  induction looks with
  | nil =>
    obtain ⟨look, member, -⟩ := some_look
    cases member
  | cons head rest ih =>
    by_cases later : ∃ look ∈ rest, time ≤ look.now.nanos
    · obtain ⟨look, member, due, first⟩ := ih later
      by_cases sooner : time ≤ head.now.nanos ∧ head.now.nanos ≤ look.now.nanos
      · refine ⟨head, mem_cons_self, sooner.1, ?_⟩
        exact forall_mem_cons.mpr
          ⟨fun _ => le_rfl, fun other more isDue => sooner.2.trans (first other more isDue)⟩
      · refine ⟨look, mem_cons_of_mem _ member, due, ?_⟩
        exact forall_mem_cons.mpr ⟨fun isDue => by omega, first⟩
    · obtain ⟨look, member, due⟩ := some_look
      rcases mem_cons.mp member with rfl | more
      · refine ⟨look, mem_cons_self, due, ?_⟩
        exact forall_mem_cons.mpr
          ⟨fun _ => le_rfl, fun other more isDue => absurd ⟨other, more, isDue⟩ later⟩
      · exact absurd ⟨look, more, due⟩ later

/-- Looks a minute apart. -/
theorem covered_iff (spread : looks.Pairwise fun one other =>
      other.now.nanos = one.now.nanos ∨ one.now.nanos + minute ≤ other.now.nanos)
    (offered : ∀ look ∈ looks, ∀ instant, cronFireInstant parse expr look.now 60 = some instant →
      look.authorized → look.offered = some instant) :
    Covered parse expr looks ↔ WithinReach parse expr looks := by
  have apart : ∀ one ∈ looks, ∀ other ∈ looks, one.now.nanos < other.now.nanos →
      one.now.nanos + minute ≤ other.now.nanos := by
    have slow : 0 ≤ minute := by decide
    have forth := spread.imp fun {one other} ordered =>
      show one.now.nanos < other.now.nanos → one.now.nanos + minute ≤ other.now.nanos by omega
    have back := spread.imp fun {one other} ordered =>
      show other.now.nanos < one.now.nanos → other.now.nanos + minute ≤ one.now.nanos by omega
    exact forth.forall_of_forall_of_flip (fun one _ before => absurd before (lt_irrefl _)) back
  constructor
  · intro covered sched parsed instant scheduled started look member due next
    obtain ⟨found, isLook, fires, -⟩ :=
      covered sched parsed instant scheduled started ⟨look, member, due⟩
    obtain ⟨-, after, isDue, first⟩ := (cronFireInstant_iff parsed).mp fires
    have ordered := next found isLook isDue
    have same : look.now.nanos = found.now.nanos := by
      by_contra differs
      have wide := apart look member found isLook (lt_of_le_of_ne ordered differs)
      omega
    rw [same]
    exact ⟨by omega, first⟩
  · intro within sched parsed instant scheduled started ended
    obtain ⟨look, member, due, next⟩ := exists_first ended
    obtain ⟨close, first⟩ := within sched parsed instant scheduled started look member due next
    have fires : cronFireInstant parse expr look.now 60 = some instant :=
      (cronFireInstant_iff parsed).mpr ⟨scheduled, by omega, due, first⟩
    exact ⟨look, member, fires, offered look member instant fires⟩

/-- No instant has two runs, and each found one is within reach of its next tick. -/
theorem cron_kept_iff (clock : ℤ) (steps : List SchedulerStep) (index : ℕ) (key : WorkflowKey)
    (expr : String) :
    Covered parse expr ((start clock).visits parse index key expr steps) ∧
        ((start clock).run parse steps).runs.Pairwise
          (fun one other => one.offer.claimed ≠ other.offer.claimed) ↔
      WithinReach parse expr ((start clock).visits parse index key expr steps) := by
  have accounted : Accounted parse ((start clock).run parse steps) := (accounted_start clock).run
  have asleep : InTime (start clock).clock ((start clock).pods index).phase := le_rfl (a := clock)
  have offered : ∀ look ∈ (start clock).visits parse index key expr steps, ∀ instant,
      cronFireInstant parse expr look.now 60 = some instant →
        look.authorized → look.offered = some instant := by
    intro look member instant fires authorized
    obtain ⟨state, label, looked⟩ := mem_visits member
    exact visitOf_offered looked fires authorized
  rw [and_iff_left accounted.distinct]
  exact covered_iff (visits_spread asleep) offered

end looks

def everyMinute : CronSchedule where
  Scheduled instant := instant.nanos % minute = 0
  next time := fromNanos (max (-8334601228800 * second) ((time / minute + 1) * minute))
  next_first := by
    intro time instant next
    unfold fromNanos at next
    split at next
    · injection next with same
      rw [← same]
      dsimp only
      have length : minute = 60000000000 := by decide
      have earliest : -8334601228800 * second = -8334601228800000000000 := by decide
      rw [length, earliest]
      refine ⟨by omega, by omega, fun other scheduled after => ?_⟩
      have lower := other.lower
      rw [earliest] at lower
      omega
    · cases next
  next_none := by
    intro time next other scheduled
    unfold fromNanos at next
    split at next
    · cases next
    next outside =>
      have length : minute = 60000000000 := by decide
      have earliest : -8334601228800 * second = -8334601228800000000000 := by decide
      have latest : 8210266876800 * second = 8210266876800000000000 := by decide
      have upper := other.upper
      rw [latest] at upper outside
      rw [length, earliest] at outside
      rw [length] at scheduled
      omega

def minutely : ScheduledRow where
  key := (⟨.fill 4⟩, .fill 5)
  channelId := some (.fill 6)
  definition := some ⟨"minutely", none, .schedule (some "* * * * *") none, [], true⟩

def driftingSteps : List SchedulerStep :=
  [.advance 119800000000, .tick 0 (some [minutely]), .visit 0 true true, .claim 0 .created, .finish 0,
    .advance 60500000000, .tick 0 (some [minutely]), .visit 0 true true, .claim 0 .created]

theorem drifting_misses : ¬ Covered (fun _ => some everyMinute) "* * * * *"
    ((start 0).visits (fun _ => some everyMinute) 0 minutely.key "* * * * *" driftingSteps) := by
  intro covered
  have looks : (start 0).visits (fun _ => some everyMinute) 0 minutely.key "* * * * *" driftingSteps =
      [⟨⟨119800000000, by decide, by decide⟩, true, some ⟨60 * second, by decide, by decide⟩⟩,
        ⟨⟨180300000000, by decide, by decide⟩, true, some ⟨180 * second, by decide, by decide⟩⟩] := by
    decide +kernel
  rw [looks] at covered
  obtain ⟨look, member, found, -⟩ := covered everyMinute rfl ⟨120 * second, by decide, by decide⟩
    (show 120 * second % minute = 0 by decide) ⟨_, mem_cons_self, by decide⟩
    ⟨_, mem_cons_of_mem _ mem_cons_self, by decide⟩
  rcases mem_cons.mp member with rfl | other
  · revert found
    decide +kernel
  · rw [mem_singleton.mp other] at found
    revert found
    decide +kernel

end Scheduler

end Buzz.Workflows
