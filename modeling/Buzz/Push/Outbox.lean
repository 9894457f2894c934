import Buzz.Library.Page
import Buzz.Nostr.Event

/-! The tables of push leases and wakes, and the statements of a delivery worker, each of which is
atomic. -/

namespace Buzz.Push

open Nostr Library.Page

inductive WakeClass
  | silent
  | default
  | timeSensitive
  | urgent
  deriving DecidableEq

abbrev EndpointHash := FixedBytes 32

structure ActiveLease where
  appProfile : String
  endpointHash : EndpointHash
  endpointGrant : String
  maxClass : WakeClass
  deriving DecidableEq

/-- A row of `push_leases`. The columns that a check constraint ties to `active` are one option. -/
structure LeaseRow where
  communityId : CommunityId
  author : PublicKey
  installationId : String
  sourceEventId : EventId
  sourceCreatedAt : ℤ
  generation : ℤ
  active : Option ActiveLease
  endpointEnabled : Bool
  expiresAt : ℤ
  deriving DecidableEq

/-- `EXTRACT(EPOCH FROM now())::bigint`, which rounds to the nearest second. -/
def epoch (now : ℤ) : ℤ := (now + 500000) / 1000000

namespace LeaseRow

def eligible (self : LeaseRow) (now : ℤ) : Bool :=
  self.active.isSome && self.endpointEnabled && epoch now < self.expiresAt

def isAt (self : LeaseRow) (communityId : CommunityId) (author : PublicKey)
    (installationId : String) : Bool :=
  self.communityId = communityId && self.author = author &&
    self.installationId = installationId

end LeaseRow

inductive JobState
  | pending
  | sending
  | delivered
  | failed
  deriving DecidableEq

/-- A row of `push_wake_outbox`. -/
structure WakeJob where
  communityId : CommunityId
  id : Uuid
  author : PublicKey
  installationId : String
  leaseGeneration : ℤ
  endpointHash : EndpointHash
  eventId : EventId
  wakeClass : WakeClass
  expiresAt : ℤ
  state : JobState
  attempts : ℕ
  nextAttemptAt : ℤ
  leaseUntil : Option ℤ
  claimId : Option Uuid
  createdAt : ℤ
  deriving DecidableEq

structure ClaimedWake where
  community : CommunityId
  id : Uuid
  claimId : Uuid
  eventId : EventId
  channelId : Option Uuid
  author : PublicKey
  installationId : String
  leaseGeneration : ℤ
  endpointGrant : String
  wakeClass : WakeClass
  expiresAt : ℤ
  attempt : ℕ
  deriving DecidableEq

/-- Leases, wakes, and the channel of each event that is not deleted. -/
structure Tables where
  leases : List LeaseRow
  jobs : List WakeJob
  events : CommunityId → EventId → Option (Option Uuid)

namespace WakeJob

def isAt (self : WakeJob) (community : CommunityId) (id : Uuid) : Bool :=
  self.communityId = community && self.id = id

def joins (self : WakeJob) (lease : LeaseRow) : Bool :=
  lease.isAt self.communityId self.author self.installationId &&
    lease.generation = self.leaseGeneration &&
    lease.active.map ActiveLease.endpointHash = some self.endpointHash

/-- What the joins of a claim and of a revalidation give. -/
def current (self : WakeJob) (tables : Tables) (now : ℤ) : Option (ActiveLease × Option Uuid) :=
  if epoch now < self.expiresAt then
    match tables.leases.find? fun lease => self.joins lease && lease.eligible now,
      tables.events self.communityId self.eventId with
    | some lease, some channelId => lease.active.map fun active => (active, channelId)
    | _, _ => none
  else none

def due (self : WakeJob) (now : ℤ) : Bool :=
  self.nextAttemptAt ≤ now &&
    (decide (self.state = .pending) ||
      self.state = .sending && self.leaseUntil.any (· < now))

/-- `ORDER BY next_attempt_at, created_at, id`. -/
def dueFirst (first second : WakeJob) : Bool :=
  decide (first.nextAttemptAt < second.nextAttemptAt) ||
    first.nextAttemptAt = second.nextAttemptAt &&
      (decide (first.createdAt < second.createdAt) ||
        first.createdAt = second.createdAt && first.id.val ≤ second.id.val)

def toClaimed (self : WakeJob) (claimId : Uuid) (active : ActiveLease)
    (channelId : Option Uuid) : ClaimedWake where
  community := self.communityId
  id := self.id
  claimId
  eventId := self.eventId
  channelId
  author := self.author
  installationId := self.installationId
  leaseGeneration := self.leaseGeneration
  endpointGrant := active.endpointGrant
  wakeClass := self.wakeClass
  expiresAt := self.expiresAt
  attempt := self.attempts

def claimedBy (self : WakeJob) (claimId : Uuid) (leaseUntil : ℤ) : WakeJob :=
  { self with
    state := .sending
    claimId := some claimId
    leaseUntil := some leaseUntil
    attempts := self.attempts + 1 }

def heldBy (self : WakeJob) (community : CommunityId) (id claimId : Uuid) : Bool :=
  self.isAt community id && self.claimId = some claimId && self.state = .sending

end WakeJob

structure WakeRequest where
  author : PublicKey
  installationId : String
  leaseGeneration : ℤ
  eventId : EventId
  wakeClass : WakeClass
  expiresAt : ℤ
  deriving DecidableEq

inductive EnqueueWakeOutcome
  | enqueued (id : Uuid)
  | duplicate (id : Uuid)
  | inactiveLease
  deriving DecidableEq

namespace Tables

section enqueue

variable (self : Tables) (community : CommunityId) (now : ℤ)

/-- The endpoint of the request's lease, if that is eligible and of the same generation. -/
def resolve (request : WakeRequest) : Option EndpointHash :=
  let lease := self.leases.find? fun lease =>
    lease.isAt community request.author request.installationId && lease.eligible now
  (lease.filter (·.generation = request.leaseGeneration)).bind fun lease =>
    lease.active.map ActiveLease.endpointHash

def jobFor (endpointHash : EndpointHash) (eventId : EventId) : Option WakeJob :=
  self.jobs.find? fun job => job.communityId = community &&
    job.endpointHash = endpointHash && job.eventId = eventId

def insertWake (tables : Tables) (request : WakeRequest × Uuid) : Tables :=
  match self.resolve community now request.1 with
  | none => tables
  | some endpointHash =>
    if (tables.jobFor community endpointHash request.1.eventId).isSome then tables
    else
      { tables with
        jobs := tables.jobs ++ [{
          communityId := community
          id := request.2
          author := request.1.author
          installationId := request.1.installationId
          leaseGeneration := request.1.leaseGeneration
          endpointHash
          eventId := request.1.eventId
          wakeClass := request.1.wakeClass
          expiresAt := request.1.expiresAt
          state := .pending
          attempts := 0
          nextAttemptAt := now
          leaseUntil := none
          claimId := none
          createdAt := now }] }

/-- The first request for a key that was inserted reports it, and every other one a duplicate. -/
def wakeOutcomes (inserted : Tables) :
    List (EndpointHash × EventId) → List (WakeRequest × Uuid) → List EnqueueWakeOutcome
  | _, [] => []
  | reported, request :: requests =>
    match self.resolve community now request.1 with
    | none => .inactiveLease :: wakeOutcomes inserted reported requests
    | some endpointHash =>
      let key := (endpointHash, request.1.eventId)
      let id := ((inserted.jobFor community endpointHash request.1.eventId).map
        WakeJob.id).getD request.2
      if (self.jobFor community endpointHash request.1.eventId).isNone && !reported.contains key then
        .enqueued id :: wakeOutcomes inserted (key :: reported) requests
      else .duplicate id :: wakeOutcomes inserted reported requests

def enqueueWakes (requests : List (WakeRequest × Uuid)) : Tables × List EnqueueWakeOutcome :=
  let inserted := requests.foldl (self.insertWake community now) self
  (inserted, self.wakeOutcomes community now inserted [] requests)

end enqueue

variable (self : Tables) (community : CommunityId)

def candidates (limit : ℕ) (now : ℤ) (locked : Uuid → Bool) : List WakeJob :=
  page WakeJob.dueFirst (fun job => job.communityId = community && job.due now &&
    (job.current self now).isSome && !locked job.id) limit self.jobs

def claimDueWakes (limit : ℕ) (leaseUntil : ℤ) (claimId : Uuid) (now : ℤ)
    (locked : Uuid → Bool) : Tables × List ClaimedWake :=
  let candidates := self.candidates community limit now locked
  ({ self with
      jobs := self.jobs.map fun job =>
        if candidates.contains job then job.claimedBy claimId leaseUntil else job },
    (self.jobs.filter candidates.contains).filterMap fun job =>
      (job.current self now).map fun found =>
        (job.claimedBy claimId leaseUntil).toClaimed claimId found.1 found.2)

def revalidateWakeForSend (id claimId : Uuid) (now : ℤ) : Option ClaimedWake :=
  let held := self.jobs.find? fun job => job.heldBy community id claimId &&
    (job.leaseUntil.any fun lease => now ≤ lease) && (job.current self now).isSome
  held.bind fun job => (job.current self now).map fun found =>
    job.toClaimed claimId found.1 found.2

def settleWake (id claimId : Uuid) (settled : WakeJob → WakeJob) : Tables × Bool :=
  ({ self with
      jobs := self.jobs.map fun job =>
        if job.heldBy community id claimId then settled job else job },
    self.jobs.any (·.heldBy community id claimId))

def completeWake (id claimId : Uuid) : Tables × Bool :=
  self.settleWake community id claimId fun job =>
    { job with state := .delivered, claimId := none, leaseUntil := none }

def retryWake (id claimId : Uuid) (nextAttemptAt : ℤ) : Tables × Bool :=
  self.settleWake community id claimId fun job =>
    { job with
      state := .pending
      nextAttemptAt
      claimId := none
      leaseUntil := none }

def failWake (id claimId : Uuid) : Tables × Bool :=
  self.settleWake community id claimId fun job =>
    { job with state := .failed, claimId := none, leaseUntil := none }

/-- `matching` are the events that still have a job in the match queue. -/
def pruneWakeOutbox (before now : ℤ) (matching : EventId → Bool) : Tables :=
  { self with
    jobs := self.jobs.filter fun job =>
      !(job.communityId = community && job.createdAt < before &&
        (decide (job.state = .delivered) || decide (job.state = .failed) ||
          job.expiresAt ≤ epoch now) && !matching job.eventId) }

def disableEndpointGeneration (author : PublicKey) (installationId : String) (generation : ℤ) :
    Tables :=
  { self with
    leases := self.leases.map fun lease =>
      if lease.isAt community author installationId && lease.generation = generation &&
          lease.active.isSome && lease.endpointEnabled then
        { lease with endpointEnabled := false }
      else lease }

end Tables

end Buzz.Push
