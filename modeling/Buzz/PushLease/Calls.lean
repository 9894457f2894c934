import Buzz.Library.Slots
import Buzz.Push.Outbox

/-! The calls that change push leases. -/

namespace Buzz.PushLease

open Nostr Buzz.Push Library.Locks

structure Address where
  community : CommunityId
  author : PublicKey
  installationId : String
  deriving DecidableEq

def Address.isOf (self : Address) (lease : LeaseRow) : Bool :=
  lease.isAt self.community self.author self.installationId

structure LeaseVersion where
  sourceEventId : EventId
  sourceCreatedAt : ℤ
  generation : ℤ
  expiresAt : ℤ
  deriving DecidableEq

namespace LeaseVersion

variable (self : LeaseVersion) (current : LeaseRow)

def winsEvent : Bool :=
  decide (current.sourceCreatedAt < self.sourceCreatedAt) ||
    self.sourceCreatedAt = current.sourceCreatedAt &&
      self.sourceEventId.val < current.sourceEventId.val

def advances : Bool := self.winsEvent current && current.generation < self.generation

end LeaseVersion

inductive AcceptLeaseOutcome
  | accepted
  | staleEvent
  | staleGeneration
  | endpointAlreadyLeased
  | leaseQuotaExceeded
  | sourceEventCollision
  | constraintViolation
  deriving DecidableEq

/-- `replaceLease` is the body of `replace_active_lease` and of `revoke_lease`. -/
inductive LeaseFunction
  | acceptLeaseEvent (maxActiveLeases : ℤ)
  | replaceLease
  deriving DecidableEq

/-- The statements that a call has behind it; an error has no outcome. -/
inductive Phase
  | begun
  | addressLocked
  | authorLocked
  | gated
  | unbound
  | checked
  | swept
  | counted
  | admitted
  | stored
  | upserted
  | backfilled
  | done (outcome : Option AcceptLeaseOutcome)
  deriving DecidableEq

def Phase.rank : Phase → ℕ
  | .begun => 0
  | .addressLocked => 1
  | .authorLocked => 2
  | .gated => 3
  | .unbound => 4
  | .checked => 5
  | .swept => 6
  | .counted => 7
  | .admitted => 8
  | .stored => 9
  | .upserted => 10
  | .backfilled => 11
  | .done _ => 12

/-- A call of a function, with what its transaction has read and means to write. -/
structure Call where
  function : LeaseFunction
  address : Address
  version : LeaseVersion
  active : Option ActiveLease
  now : ℤ
  phase : Phase
  found : Option LeaseRow
  erased : List EventId
  jobs : List (CommunityId × EventId)
  deriving DecidableEq

/-- A row of `events` of kind 30350, at the address of its author and `d` tag. -/
structure SourceEvent where
  address : Address
  id : EventId
  live : Bool
  deriving DecidableEq

/-- A row of `events` of another kind. -/
structure PushEvent where
  community : CommunityId
  id : EventId
  kind : ℕ
  receivedAt : ℤ
  live : Bool
  deriving DecidableEq

def PushEvent.key (self : PushEvent) : CommunityId × EventId := (self.community, self.id)

def pushKinds : List ℕ := [7, 9, 1059, 40007, 46010]

/-- In the trigger it is before or behind the gate lock. -/
inductive InsertPhase
  | ready
  | triggered (row : PushEvent)
  | locked (row : PushEvent)
  | ended
  deriving DecidableEq

structure Insert where
  now : ℤ
  rows : List PushEvent
  jobs : List (CommunityId × EventId)
  gates : List CommunityId
  phase : InsertPhase

namespace Call

variable (self : Call)

def within (first : ℕ) : Bool := first ≤ self.phase.rank && self.phase.rank < 12

def accepts : Bool :=
  match self.function with
  | .acceptLeaseEvent _ => true
  | .replaceLease => false

def holdsAddress (address : Address) : Bool :=
  self.accepts && self.address = address && self.within 1

def holdsAuthor (author : CommunityId × PublicKey) : Bool :=
  self.accepts && (self.address.community, self.address.author) = author && self.within 2

def holdsGate (community : CommunityId) : Bool :=
  self.active.isSome && self.address.community = community && self.within 3

def writes : Bool := self.within 10

def holdsRow (address : Address) : Bool :=
  self.address = address && (self.found.isSome && self.within 5 || self.writes)

def row : LeaseRow where
  communityId := self.address.community
  author := self.address.author
  installationId := self.address.installationId
  sourceEventId := self.version.sourceEventId
  sourceCreatedAt := self.version.sourceCreatedAt
  generation := self.version.generation
  active := self.active
  endpointEnabled := true
  expiresAt := self.version.expiresAt

def othersActive (lease : LeaseRow) : Bool :=
  lease.communityId = self.address.community &&
    lease.author = self.address.author && lease.active.isSome &&
      lease.installationId ≠ self.address.installationId

def sharesSource (lease : LeaseRow) : Bool :=
  lease.communityId = self.address.community &&
    lease.sourceEventId = self.version.sourceEventId && !self.address.isOf lease

def sharesEndpoint (lease : LeaseRow) : Bool :=
  self.othersActive lease && decide
    (lease.active.map (fun active => (active.appProfile, active.endpointHash)) =
      self.active.map fun active => (active.appProfile, active.endpointHash))

def violatesCheck : Bool :=
  decide (self.version.generation ≤ 0) || decide (self.address.installationId.utf8ByteSize = 0) ||
    64 < self.address.installationId.utf8ByteSize

def finish (outcome : Option AcceptLeaseOutcome) : Call := { self with phase := .done outcome }

end Call

def Insert.holdsGate (self : Insert) (community : CommunityId) : Bool :=
  self.phase ≠ .ended && self.gates.contains community

structure World where
  clock : ℤ
  leases : List LeaseRow
  sources : List SourceEvent
  events : List PushEvent
  jobs : List (CommunityId × EventId)
  calls : List Call
  inserts : List Insert

namespace World

section statements

variable (self : World) (index : ℕ) (call : Call)

def lockAddress : Option Call :=
  if others index (·.holdsAddress call.address) self.calls then none
  else some { call with phase := .addressLocked }

def lockAuthor : Option Call :=
  if others index (fun other => other.holdsAuthor (call.address.community, call.address.author))
      self.calls then none
  else some { call with phase := .authorLocked }

/-- `acquire_push_gate_lock`, which only an activation needs. -/
def lockGate : Option Call :=
  if call.active.isSome && (others index (·.holdsGate call.address.community)
      self.calls || self.inserts.any (·.holdsGate call.address.community)) then none
  else some { call with phase := .gated }

def lookUpSource : Call :=
  match self.leases.find? fun lease => lease.communityId = call.address.community &&
      decide (lease.sourceEventId = call.version.sourceEventId) with
  | some lease =>
    call.finish (if call.address.isOf lease then some .staleEvent else some .sourceEventCollision)
  | none => { call with phase := .unbound }

/-- It waits only for a row that it sees. -/
def checkOrder : Option Call :=
  let current := self.leases.find? call.address.isOf
  if current.isSome && others index (·.holdsRow call.address) self.calls then none
  else if current.any fun current => !call.version.winsEvent current then
    some (call.finish (some .staleEvent))
  else if current.any fun current => decide (call.version.generation ≤ current.generation) then
    some (call.finish (some .staleGeneration))
  else some { call with phase := .checked, found := current }

/-- The sweep is an error where it has a row. -/
def sweepExpired : Call :=
  if self.leases.any fun lease => lease.communityId = call.address.community &&
      lease.author = call.address.author && lease.active.isSome &&
        decide (lease.expiresAt ≤ epoch call.now) then call.finish none
  else { call with phase := .swept }

def countActive (maxActiveLeases : ℤ) : Call :=
  if call.active.isNone then { call with phase := .admitted }
  else if maxActiveLeases ≤ (self.leases.countP call.othersActive : ℤ) then
    call.finish (some .leaseQuotaExceeded)
  else { call with phase := .counted }

def checkEndpoint : Call :=
  if self.leases.any call.sharesEndpoint then call.finish (some .endpointAlreadyLeased)
  else { call with phase := .admitted }

def storeEvent : Option Call :=
  if others index (fun other => other.accepts && other.within 9 &&
      other.address.community = call.address.community &&
        other.version.sourceEventId = call.version.sourceEventId) self.calls then none
  else if self.sources.any fun source =>
      source.address.community = call.address.community &&
        decide (source.id = call.version.sourceEventId) then
    some (call.finish (some .constraintViolation))
  else
    let erased := (self.sources.filter fun source =>
      source.address = call.address && source.live).map SourceEvent.id
    some { call with phase := .stored, erased }

/-- It waits for the row and for a transaction that may replace one. -/
def upsertWaits : Bool :=
  others index (fun other => other.holdsRow call.address ||
    other.writes && (call.sharesSource other.row || call.sharesEndpoint other.row ||
      self.leases.any fun lease => other.address.isOf lease &&
        (call.sharesSource lease || call.sharesEndpoint lease))) self.calls

/-- `constraint_acceptance_outcome` of the upsert. -/
def upsertViolation : Option AcceptLeaseOutcome :=
  if call.violatesCheck then some .constraintViolation
  else if self.leases.any call.sharesSource then some .sourceEventCollision
  else if self.leases.any call.sharesEndpoint then some .endpointAlreadyLeased
  else none

def upsertLease : Option Call :=
  if self.upsertWaits index call then none
  else match self.upsertViolation call with
    | some outcome => some (call.finish (some outcome))
    | none => some { call with phase := .upserted }

/-- It writes only in order; its violations are errors. -/
def replaceLease : Option Call :=
  if self.upsertWaits index call then none
  else if call.violatesCheck then some (call.finish none)
  else
    let current := self.leases.find? call.address.isOf
    if current.any fun current => !call.version.advances current then
      let stale := current.any fun current => !call.version.winsEvent current
      some (call.finish (some (if stale then .staleEvent else .staleGeneration)))
    else if (self.upsertViolation call).isSome then some (call.finish none)
    else some { call with phase := .upserted, found := current }

/-- `backfill_push_match_jobs`, over two minutes. -/
def backfill : Call :=
  let recent := self.events.filter fun event =>
    event.community = call.address.community && pushKinds.contains event.kind &&
      event.live && call.now - 120000000 < event.receivedAt
  { call with
    phase := .backfilled
    jobs := if call.active.isSome then recent.map PushEvent.key else [] }

/-- The next statement of a call; there is none while it waits. -/
def next : Option Call :=
  match call.function, call.phase with
  | .acceptLeaseEvent _, .begun => self.lockAddress index call
  | .acceptLeaseEvent _, .addressLocked => self.lockAuthor index call
  | .acceptLeaseEvent _, .authorLocked => self.lockGate index call
  | .acceptLeaseEvent _, .gated => some (self.lookUpSource call)
  | .acceptLeaseEvent _, .unbound => self.checkOrder index call
  | .acceptLeaseEvent _, .checked => some (self.sweepExpired call)
  | .acceptLeaseEvent maxActiveLeases, .swept => some (self.countActive call maxActiveLeases)
  | .acceptLeaseEvent _, .counted => some (self.checkEndpoint call)
  | .acceptLeaseEvent _, .admitted => self.storeEvent index call
  | .acceptLeaseEvent _, .stored => self.upsertLease index call
  | .replaceLease, .begun => self.lockGate index call
  | .replaceLease, .gated => self.replaceLease index call
  | _, .upserted => some (self.backfill call)
  | _, _ => none

def commit : World :=
  { self with
    leases := call.row :: self.leases.filter fun lease => !call.address.isOf lease
    sources :=
      if call.accepts then
        ⟨call.address, call.version.sourceEventId, true⟩ :: self.sources.map fun source =>
          if decide (source.address = call.address) && call.erased.contains source.id then
            { source with live := false }
          else source
      else self.sources
    jobs := call.jobs ++ self.jobs
    calls := self.calls.set index (call.finish (some .accepted)) }

end statements

end World

structure Input where
  function : LeaseFunction
  address : Address
  version : LeaseVersion
  active : Option ActiveLease

def Input.call (self : Input) (now : ℤ) : Call :=
  ⟨self.function, self.address, self.version, self.active, now, .begun, none, [], []⟩

inductive Label
  | tick (now : ℤ)
  | call (input : Input)
  | advance (index : ℕ)
  | commit (index : ℕ)
  | fail (index : ℕ)
  | disable (address : Address) (generation : ℤ)
  | begin
  | insert (index : ℕ) (row : PushEvent)
  | lockShared (index : ℕ)
  | enqueue (index : ℕ)
  | commitInsert (index : ℕ)
  | rollback (index : ℕ)
  | deleteEvent (community : CommunityId) (id : EventId)
  | matched (community : CommunityId) (id : EventId)

namespace World

variable (self : World)

def setInsert (index : ℕ) (insert : Insert) : World :=
  { self with inserts := self.inserts.set index insert }

/-- A row is inserted once: it waits for another transaction that has it. -/
def insertRow (index : ℕ) (insert : Insert) (row : PushEvent) : World :=
  if self.events.any (·.key = row.key) ||
      insert.rows.any (·.key = row.key) ||
      others index (fun other => other.phase ≠ .ended &&
        other.rows.any (·.key = row.key)) self.inserts then self
  else
    self.setInsert index { insert with
      rows := row :: insert.rows
      phase := if pushKinds.contains row.kind then .triggered row else .ready }

def enqueueMatch (index : ℕ) (insert : Insert) (row : PushEvent) : World :=
  let eligible := self.leases.any fun lease =>
    lease.communityId = row.community && lease.eligible insert.now
  self.setInsert index { insert with
    jobs :=
      if eligible && !self.jobs.contains row.key then row.key :: insert.jobs else insert.jobs
    phase := .ready }

def step : Label → World
  | .tick now => { self with clock := max self.clock now }
  | .call input => { self with calls := self.calls ++ [input.call self.clock] }
  | .advance index =>
    match self.calls[index]? with
    | some call =>
      match self.next index call with
      | some call => { self with calls := self.calls.set index call }
      | none => self
    | none => self
  | .commit index =>
    match self.calls[index]? with
    | some call => if call.phase = .backfilled then self.commit index call else self
    | none => self
  | .fail index =>
    match self.calls[index]? with
    | some call =>
      if call.phase.rank < 12 then { self with calls := self.calls.set index (call.finish none) }
      else self
    | none => self
  | .disable address generation =>
    if self.calls.any fun call => call.holdsRow address then self
    else
      { self with
        leases := ((⟨self.leases, [], fun _ _ => none⟩ : Tables).disableEndpointGeneration
          address.community address.author address.installationId generation).leases }
  | .begin => { self with inserts := self.inserts ++ [⟨self.clock, [], [], [], .ready⟩] }
  | .insert index row =>
    match self.inserts[index]? with
    | some insert =>
      if insert.phase = .ready then self.insertRow index insert row else self
    | none => self
  | .lockShared index =>
    match self.inserts[index]? with
    | some insert =>
      match insert.phase with
      | .triggered row =>
        if self.calls.any fun call => call.holdsGate row.community then self
        else self.setInsert index { insert with
          gates := row.community :: insert.gates
          phase := .locked row }
      | _ => self
    | none => self
  | .enqueue index =>
    match self.inserts[index]? with
    | some insert =>
      match insert.phase with
      | .locked row => self.enqueueMatch index insert row
      | _ => self
    | none => self
  | .commitInsert index =>
    match self.inserts[index]? with
    | some insert =>
      if insert.phase = .ready then
        { self.setInsert index { insert with phase := .ended } with
          events := insert.rows ++ self.events
          jobs := insert.jobs ++ self.jobs }
      else self
    | none => self
  | .rollback index =>
    match self.inserts[index]? with
    | some insert => self.setInsert index { insert with phase := .ended }
    | none => self
  | .deleteEvent community id =>
    { self with events := self.events.map fun event =>
        if event.key = (community, id) then { event with live := false } else event }
  | .matched community id =>
    { self with jobs := self.jobs.filter fun job => decide (job ≠ (community, id)) }

def after (labels : List Label) : World := labels.foldl step self

def initial (clock : ℤ) : World := ⟨clock, [], [], [], [], [], []⟩

end World

end Buzz.PushLease
