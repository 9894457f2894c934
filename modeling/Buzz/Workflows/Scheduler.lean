import Buzz.Git.Publish
import Buzz.Library.Keyed
import Buzz.Tunnel.Lease
import Buzz.Workflows.Saves

/-! The scheduler loop of the pods of a deployment, and the claim table that they share. -/

namespace Buzz.Workflows

open Nostr Library

def second : ℤ := 10 ^ 9

/-- `DateTime<Utc>`, in nanoseconds since the epoch. -/
structure DateTime where
  nanos : ℤ
  lower : -8334601228800 * second ≤ nanos
  upper : nanos < 8210266876800 * second
  deriving DecidableEq

theorem DateTime.ext {one other : DateTime} (same : one.nanos = other.nanos) : one = other := by
  cases one
  cases other
  cases same
  rfl

def DateTime.timestamp (self : DateTime) : ℤ := self.nanos / second

def fromNanos (nanos : ℤ) : Option DateTime :=
  if range : -8334601228800 * second ≤ nanos ∧ nanos < 8210266876800 * second then
    some ⟨nanos, range.1, range.2⟩
  else none

def fromTimestamp (secs : ℤ) : Option DateTime := fromNanos (secs * second)

/-- `n as i64`. -/
def asI64 (n : ℕ) : ℤ := if n < 2 ^ 63 then n else n - 2 ^ 64

def stripSuffix (text : String) (last : Char) : Option String :=
  if text.toList.getLast? = some last then some (String.ofList text.toList.dropLast) else none

def parseUnit (duration count : String) (unit : ℕ) : Except String ℕ :=
  match Tunnel.parseU64 (Git.trim count) with
  | none => .error ("invalid duration: " ++ duration)
  | some n =>
    if n * unit < 2 ^ 64 then .ok (n * unit) else .error ("duration overflow: " ++ duration)

def parseDurationSecs (text : String) : Except String ℕ :=
  let duration := Git.trim text
  match stripSuffix duration 'h', stripSuffix duration 'm', stripSuffix duration 's' with
  | some n, _, _ => parseUnit duration n 3600
  | none, some n, _ => parseUnit duration n 60
  | none, none, some n => parseUnit duration n 1
  | none, none, none =>
    match Tunnel.parseU64 duration with
    | none => .error ("invalid duration: " ++ duration)
    | some n => .ok n

/-- The start of the bucket that `now` lies in, counted from the epoch. -/
def intervalFireInstant (dur : String) (now : DateTime) : Option DateTime :=
  match parseDurationSecs dur with
  | .ok intervalSecs =>
    if 0 < intervalSecs then
      fromTimestamp (now.timestamp / asI64 intervalSecs * asI64 intervalSecs)
    else none
  | .error _ => none

def intervalShouldFire (dur : String) (lastFired : Option DateTime) (now : DateTime) : Bool :=
  match parseDurationSecs dur with
  | .ok intervalSecs =>
    let last := lastFired.getD now
    let elapsed := ((now.nanos - last.nanos).tdiv second).natAbs
    intervalSecs ≤ elapsed
  | .error _ => false

section cron

structure CronSchedule where
  Scheduled : DateTime → Prop
  next : ℤ → Option DateTime
  next_first : ∀ time instant, next time = some instant → Scheduled instant ∧ time < instant.nanos ∧
    ∀ other, Scheduled other → time < other.nanos → instant.nanos ≤ other.nanos
  next_none : ∀ time, next time = none → ∀ other, Scheduled other → other.nanos ≤ time

def fieldCount (text : String) : ℕ :=
  ((text.toList.splitOnP Git.isWhitespace).filter (!·.isEmpty)).length

def normalizeCron (expr : String) : String :=
  match fieldCount expr with
  | 5 => "0 " ++ expr ++ " *"
  | 6 => expr ++ " *"
  | _ => expr

variable (parse : String → Option CronSchedule)

def cronFireInstant (expr : String) (now : DateTime) (windowSecs : ℤ) : Option DateTime :=
  match parse (normalizeCron expr) with
  | none => none
  | some sched =>
    let windowStart := now.nanos - windowSecs * second
    (sched.next windowStart).filter (·.nanos ≤ now.nanos)

end cron

abbrev WorkflowKey := CommunityId × Uuid

/-- A row of the scan; `none` is a definition that does not parse. -/
structure ScheduledRow where
  key : WorkflowKey
  channelId : Option Uuid
  definition : Option WorkflowDef
  deriving DecidableEq

inductive TriggerType
  | cron (expr : String)
  | interval (dur : String)
  deriving DecidableEq

structure Offer where
  key : WorkflowKey
  scheduledFor : DateTime
  trigger : TriggerType
  deriving DecidableEq

/-- `listed` are the rows of its scan, `rest` those to do. -/
inductive PodPhase
  | sleeping (since : ℤ)
  | scanning (now : DateTime) (listed rest : List ScheduledRow)
  | claiming (now : DateTime) (listed rest : List ScheduledRow) (offer : Offer)

structure Pod where
  lastFired : Keyed WorkflowKey DateTime
  phase : PodPhase

structure WorkflowRun where
  offer : Offer
  tick : DateTime
  deriving DecidableEq

structure Scheduler where
  clock : ℤ
  pods : ℕ → Pod
  claims : List (WorkflowKey × DateTime)
  runs : List WorkflowRun

/-- The claim fails, its workflow is gone, or no run can be made for it. -/
inductive ClaimOutcome
  | failed
  | noWorkflow
  | runFailed
  | created
  deriving DecidableEq

inductive SchedulerStep
  | advance (nanos : ℕ)
  | tick (pod : ℕ) (rows : Option (List ScheduledRow))
  | visit (pod : ℕ) (anchorRead authorized : Bool)
  | claim (pod : ℕ) (outcome : ClaimOutcome)
  | finish (pod : ℕ)
  | restart (pod : ℕ)

def later (one other : DateTime) : DateTime := if one.nanos < other.nanos then other else one

def latestScheduledWorkflowFire (claims : List (WorkflowKey × DateTime)) (key : WorkflowKey) :
    Option DateTime :=
  ((claims.filter (·.1 = key)).map Prod.snd).foldl
    (fun latest instant => some ((latest.map (later instant)).getD instant)) none

/-- The first look at a workflow sets an anchor. -/
def intervalPrefilterShouldFire (lastFired : Keyed WorkflowKey DateTime) (key : WorkflowKey)
    (dur : String) (last : Option DateTime) (now : DateTime) : Bool × Keyed WorkflowKey DateTime :=
  if intervalShouldFire dur last now then (true, lastFired)
  else (false, if last.isNone then lastFired.insert key now else lastFired)

def ScheduledRow.trigger (self : ScheduledRow) : Option TriggerType :=
  match self.definition, self.channelId with
  | some parsed, some _ =>
    if !parsed.enabled then none
    else
      match parsed.trigger with
      | .schedule (some expr) none => some (.cron expr)
      | .schedule none (some dur) => some (.interval dur)
      | _ => none
  | _, _ => none

namespace Scheduler

section steps

variable (parse : String → Option CronSchedule) (self : Scheduler)

def start (clock : ℤ) : Scheduler := ⟨clock, fun _ => ⟨.empty, .sleeping clock⟩, [], []⟩

def setPod (index : ℕ) (pod : Pod) : Scheduler :=
  { self with pods := fun other => if other = index then pod else self.pods other }

/-- In memory, or else what is claimed. -/
def anchor (pod : Pod) (key : WorkflowKey) (anchorRead : Bool) : Option DateTime :=
  match pod.lastFired.get key with
  | some time => some time
  | none => if anchorRead then latestScheduledWorkflowFire self.claims key else none

def offer (pod : Pod) (now : DateTime) (row : ScheduledRow) (anchorRead : Bool) :
    Option Offer × Keyed WorkflowKey DateTime :=
  match row.trigger with
  | none => (none, pod.lastFired)
  | some (.cron expr) =>
    ((cronFireInstant parse expr now 60).map fun instant => ⟨row.key, instant, .cron expr⟩,
      pod.lastFired)
  | some (.interval dur) =>
    match intervalPrefilterShouldFire pod.lastFired row.key dur
        (self.anchor pod row.key anchorRead) now with
    | (false, lastFired) => (none, lastFired)
    | (true, lastFired) =>
      ((intervalFireInstant dur now).map fun instant => ⟨row.key, instant, .interval dur⟩, lastFired)

def tick (index : ℕ) (rows : Option (List ScheduledRow)) : Scheduler :=
  let pod := self.pods index
  match pod.phase with
  | .sleeping since =>
    if since + 60 * second ≤ self.clock then
      match fromNanos self.clock, rows with
      | none, _ => self
      | some _, none => self.setPod index { pod with phase := .sleeping self.clock }
      | some now, some rows => self.setPod index { pod with phase := .scanning now rows rows }
    else self
  | _ => self

def visit (index : ℕ) (anchorRead authorized : Bool) : Scheduler :=
  let pod := self.pods index
  match pod.phase with
  | .scanning now listed (row :: rest) =>
    match self.offer parse pod now row anchorRead with
    | (some offer, lastFired) =>
      if authorized then self.setPod index ⟨lastFired, .claiming now listed rest offer⟩
      else self.setPod index ⟨lastFired, .scanning now listed rest⟩
    | (none, lastFired) => self.setPod index ⟨lastFired, .scanning now listed rest⟩
  | _ => self

def fired (pod : Pod) (now : DateTime) (offer : Offer) : Keyed WorkflowKey DateTime :=
  match offer.trigger with
  | .cron _ => pod.lastFired
  | .interval _ => pod.lastFired.insert offer.key now

def claim (index : ℕ) (outcome : ClaimOutcome) : Scheduler :=
  let pod := self.pods index
  match pod.phase with
  | .claiming now listed rest offer =>
    let claimed := (offer.key, offer.scheduledFor)
    let kept : Pod := ⟨pod.lastFired, .scanning now listed rest⟩
    let moved : Pod := ⟨fired pod now offer, .scanning now listed rest⟩
    match outcome with
    | .failed => self.setPod index kept
    | .noWorkflow => self.setPod index moved
    | .runFailed =>
      if claimed ∈ self.claims then self.setPod index moved
      else { self with claims := claimed :: self.claims }.setPod index kept
    | .created =>
      if claimed ∈ self.claims then self.setPod index moved
      else
        { self with
          claims := claimed :: self.claims
          runs := ⟨offer, now⟩ :: self.runs }.setPod index moved
  | _ => self

/-- The anchors of unlisted workflows are dropped. -/
def finish (index : ℕ) : Scheduler :=
  let pod := self.pods index
  match pod.phase with
  | .scanning _ listed [] =>
    self.setPod index
      ⟨pod.lastFired.filter fun entry => decide (entry.1 ∈ listed.map ScheduledRow.key),
        .sleeping self.clock⟩
  | _ => self

def step : SchedulerStep → Scheduler
  | .advance nanos => { self with clock := self.clock + nanos }
  | .tick pod rows => self.tick pod rows
  | .visit pod anchorRead authorized => self.visit parse pod anchorRead authorized
  | .claim pod outcome => self.claim pod outcome
  | .finish pod => self.finish pod
  | .restart pod => self.setPod pod ⟨.empty, .sleeping self.clock⟩

def run (steps : List SchedulerStep) : Scheduler := steps.foldl (step parse) self

end steps

end Scheduler

end Buzz.Workflows
