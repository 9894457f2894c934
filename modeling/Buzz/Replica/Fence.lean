import Buzz.Nostr.Event

/-! The freshness fence of one pod: the ring of heartbeat tokens it can prove from. Times are
in microseconds of the writer's clock. -/

namespace Buzz.Replica

open Nostr List

def createdAtFloor : ℤ := 960 * 1000000

def fenceClockMargin : ℤ := 5 * 1000000

def ringCapacity : ℕ := 120

structure TokenEntry where
  token : ℤ
  committedAt : ℤ
  fenceWall : ℤ
  deriving DecidableEq

structure FenceInner where
  epoch : Option Uuid
  ring : List TokenEntry
  deriving DecidableEq

inductive RecordOutcome
  | recorded
  | tokenRegression
  deriving DecidableEq

inductive ResolveOutcome
  | proved (entry : TokenEntry)
  | epochMismatch
  | tokenBehind
  deriving DecidableEq

namespace FenceInner

def new : FenceInner := ⟨none, []⟩

def close (self : FenceInner) : FenceInner := { self with ring := [] }

def push (ring : List TokenEntry) (entry : TokenEntry) : List TokenEntry :=
  (if ring.length = ringCapacity then ring.tail else ring) ++ [entry]

def record (self : FenceInner) (entry : TokenEntry) (epoch : Uuid) : RecordOutcome × FenceInner :=
  if self.epoch ≠ some epoch then (.recorded, ⟨some epoch, push [] entry⟩)
  else if self.ring.getLast?.any fun last => decide (entry.token ≤ last.token) then
    (.tokenRegression, self.close)
  else (.recorded, { self with ring := push self.ring entry })

def resolve (self : FenceInner) (observedToken : ℤ) (observedEpoch : Uuid) : ResolveOutcome :=
  if self.epoch.any fun epoch => decide (epoch ≠ observedEpoch) then .epochMismatch
  else match self.ring.reverse.find? fun entry => decide (entry.token ≤ observedToken) with
    | some entry => .proved entry
    | none => .tokenBehind

variable {entry : TokenEntry} {other : TokenEntry}

theorem mem_push {ring : List TokenEntry}
    (member : other ∈ push ring entry) : other ∈ ring ∨ other = entry := by
  unfold push at member
  rcases mem_append.mp member with kept | new
  · split at kept
    · exact .inl (mem_of_mem_tail kept)
    · exact .inl kept
  · exact .inr (mem_singleton.mp new)

theorem mem_record {self : FenceInner} {epoch : Uuid}
    (member : other ∈ (self.record entry epoch).2.ring) : other ∈ self.ring ∨ other = entry := by
  unfold record at member
  split at member
  · rcases mem_push member with old | new
    · cases old
    · exact .inr new
  · split at member
    · cases member
    · exact mem_push member

theorem resolve_proved {self : FenceInner} {observedToken : ℤ} {observedEpoch : Uuid}
    (proved : self.resolve observedToken observedEpoch = .proved entry) :
    entry ∈ self.ring ∧ entry.token ≤ observedToken := by
  unfold resolve at proved
  split at proved
  · cases proved
  · split at proved
    next found search =>
      rw [ResolveOutcome.proved.injEq] at proved
      subst proved
      have member := mem_of_find?_eq_some search
      have bound := find?_some search
      exact ⟨mem_reverse.mp member, of_decide_eq_true bound⟩
    · cases proved

end FenceInner

/-- `min(oldest_xact_start, S) - floor - clock_margin`. -/
def fenceWall (sampled : ℤ) (oldestXactStart : Option ℤ) : ℤ :=
  (match oldestXactStart with
    | some oldest => min oldest sampled
    | none => sampled) - createdAtFloor - fenceClockMargin

theorem fenceWall_below_sample (sampled : ℤ) (oldestXactStart : Option ℤ) :
    fenceWall sampled oldestXactStart + createdAtFloor < sampled := by
  unfold fenceWall fenceClockMargin
  cases oldestXactStart with
  | none | some oldest =>
    simp only
    omega

theorem fenceWall_below_oldest (sampled oldest : ℤ) :
    fenceWall sampled (some oldest) + createdAtFloor < oldest := by
  unfold fenceWall fenceClockMargin
  simp only
  omega

end Buzz.Replica

/-! Where one read is served: on a reader whose observation proves what the read needs, and on the
writer otherwise. -/

namespace Buzz.Replica

open Nostr Option

def fenceStaleness : ℤ := 30 * 1000000

/-- The newest retained entry, unless it is stale. -/
def FenceInner.newest (self : FenceInner) (now : ℤ) : Option TokenEntry :=
  self.ring.getLast?.filter fun entry => now - entry.committedAt ≤ fenceStaleness

inductive RoutePredicate
  | bounded
  | covered (upper : ℤ)
  | coveredPostVerified
  | boundedOrCovered (upper : ℤ)
  deriving DecidableEq

structure ReadConfig where
  readPool : Bool
  replicaReadMaxAge : Option ℤ

namespace ReadConfig

variable (self : ReadConfig)

def boundedHolds (entry : TokenEntry) (now : ℤ) : Bool :=
  self.replicaReadMaxAge.any fun budget => now - entry.committedAt ≤ budget

def holds (predicate : RoutePredicate) (entry : TokenEntry) (now : ℤ) : Bool :=
  match predicate with
  | .bounded => self.boundedHolds entry now
  | .covered upper => upper ≤ entry.fenceWall
  | .coveredPostVerified => true
  | .boundedOrCovered upper => decide (upper ≤ entry.fenceWall) || self.boundedHolds entry now

end ReadConfig

/-- Without a connection, a transaction or a row there is no observation. -/
def provedReader (fence : FenceInner) (observation : Option (ℤ × Uuid)) : Option TokenEntry :=
  observation.bind fun observed =>
    match fence.resolve observed.1 observed.2 with
    | .proved entry => some entry
    | .epochMismatch | .tokenBehind => none

def routeRead (config : ReadConfig) (fence : FenceInner) (observation : Option (ℤ × Uuid))
    (now recheck : ℤ) (predicate : RoutePredicate) : Option TokenEntry :=
  if config.readPool then
    (fence.newest now).bind fun newest =>
      if config.holds predicate newest now then
        (provedReader fence observation).filter fun entry => config.holds predicate entry recheck
      else none
  else none

variable {fence : FenceInner} {observation : Option (ℤ × Uuid)} {entry : TokenEntry}

theorem provedReader_eq_some (proved : provedReader fence observation = some entry) :
    ∃ token epoch, observation = some (token, epoch) ∧ fence.resolve token epoch = .proved entry := by
  obtain ⟨observed, isObserved, found⟩ := bind_eq_some_iff.mp proved
  refine ⟨observed.1, observed.2, isObserved, ?_⟩
  cases outcome : fence.resolve observed.1 observed.2 with
  | proved other =>
    rw [outcome] at found
    rw [Option.some.inj found]
  | epochMismatch | tokenBehind =>
    rw [outcome] at found
    cases found

/-- Only for a session that proves an entry. -/
theorem routeRead_eq_some {config : ReadConfig} {now recheck : ℤ} {predicate : RoutePredicate}
    (routed : routeRead config fence observation now recheck predicate = some entry) :
    config.readPool ∧ config.holds predicate entry recheck ∧
      ∃ token epoch, observation = some (token, epoch) ∧
        fence.resolve token epoch = .proved entry := by
  unfold routeRead at routed
  split at routed
  next pool =>
    obtain ⟨newest, -, routed⟩ := bind_eq_some_iff.mp routed
    split at routed
    · obtain ⟨proved, holds⟩ := filter_eq_some_iff.mp routed
      exact ⟨pool, holds, provedReader_eq_some proved⟩
    · cases routed
  · cases routed

end Buzz.Replica
