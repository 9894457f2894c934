import Buzz.Push.Outbox

/-! Delivery workers: each claimed wake is one run of `deliver_one`, and all take their steps in any
order. -/

namespace Buzz.Push

open Nostr

def maxAttempts : ℕ := 8

inductive DeliveryResponse
  | accepted
  | invalidEndpoint (generation : ℤ) (invalidAt : Option ℤ)
  | retry (retryAfterSeconds : Option ℤ)
  deriving DecidableEq

/-- What the gateway's answer comes to; a body that does not parse is `none`. -/
inductive GatewayResult
  | success (body : Option DeliveryResponse)
  | gone (body : Option DeliveryResponse)
  | serviceUnavailable (body : Option DeliveryResponse)
  | tooManyRequests
  | notFound
  | timeoutOrConnect
  | other
  deriving DecidableEq

inductive Settlement
  | complete
  | fail
  | retry (seconds : ℤ)
  deriving DecidableEq

/-- Where a run of `deliver_one` is, with the wake as the last statement returned it. -/
inductive Phase
  | claimed (wake : ClaimedWake)
  | revalidated (wake : ClaimedWake)
  | checked (wake : ClaimedWake)
  | ready (wake : ClaimedWake)
  | sent (wake : ClaimedWake)
  | disabling (wake : ClaimedWake) (generation : ℤ)
  | settling (wake : ClaimedWake) (settlement : Settlement)
  | done
  deriving DecidableEq

namespace ClaimedWake

variable (self : ClaimedWake)

def retryOrFail (delay : ℤ) : Settlement :=
  if maxAttempts ≤ self.attempt then .fail else .retry (delay * 2 ^ min (self.attempt - 1) 6)

def retryDelay : Option DeliveryResponse → ℤ
  | some (.retry (some seconds)) => if 0 < seconds then seconds else 2
  | _ => 2

def answered : GatewayResult → Phase
  | .success (some .accepted) => .settling self .complete
  | .success _ => .settling self .fail
  | .gone (some (.invalidEndpoint generation _)) =>
    if generation = self.leaseGeneration then .disabling self generation
    else .settling self .fail
  | .gone _ => .settling self .fail
  | .serviceUnavailable body => .settling self (self.retryOrFail (retryDelay body))
  | .tooManyRequests => .settling self (self.retryOrFail 2)
  | .notFound => .settling self (if 1 < self.attempt then .complete else .fail)
  | .timeoutOrConnect => .settling self (self.retryOrFail 2)
  | .other => .settling self .fail

end ClaimedWake

structure Task where
  wake : ClaimedWake
  phase : Phase

/-- Requests stand under the id of their job. -/
structure World where
  tables : Tables
  tasks : List Task
  jobIds : List Uuid
  claimIds : List Uuid
  requests : List (CommunityId × Uuid)

/-- A step. `available` tells whether the database carries out the statement of a worker. -/
inductive Label
  | enqueue (community : CommunityId) (now : ℤ) (requests : List (WakeRequest × Uuid))
  | claim (community : CommunityId) (limit : ℕ) (leaseUntil : ℤ) (claimId : Uuid) (now : ℤ)
      (locked : Uuid → Bool)
  | revalidate (task : ℕ) (now : ℤ) (available : Bool)
  | isMember (task : ℕ) (answer : Option Bool)
  | send (task : ℕ)
  | answer (task : ℕ) (result : GatewayResult)
  | settle (task : ℕ) (now : ℤ) (available : Bool)
  | crash (task : ℕ)
  | prune (community : CommunityId) (before now : ℤ) (matching : EventId → Bool)
  | leases (leases : List LeaseRow)
  | events (events : CommunityId → EventId → Option (Option Uuid))

namespace World

variable (self : World)

def phase (task : ℕ) : Option Phase := self.tasks[task]?.map Task.phase

def setPhase (task : ℕ) (phase : Phase) : World :=
  { self with tasks := self.tasks.modify task fun old => { old with phase } }

/-- Both revalidations; the first leads to the membership check, the second to the request. -/
def revalidate (task : ℕ) (wake : ClaimedWake) (next : ClaimedWake → Phase) (now : ℤ)
    (available : Bool) : World :=
  if available then
    match self.tables.revalidateWakeForSend wake.community wake.id wake.claimId now with
    | some found => self.setPhase task (next found)
    | none => self.setPhase task (.settling wake .fail)
  else self.setPhase task .done

def afterRevalidation (wake : ClaimedWake) : Phase :=
  if wake.channelId.isSome then .revalidated wake else .checked wake

def settleWith (wake : ClaimedWake) (now : ℤ) : Settlement → Tables
  | .complete => (self.tables.completeWake wake.community wake.id wake.claimId).1
  | .fail => (self.tables.failWake wake.community wake.id wake.claimId).1
  | .retry seconds =>
    (self.tables.retryWake wake.community wake.id wake.claimId (now + seconds * 1000000)).1

def step : Label → World
  | .enqueue community now requests =>
    let drawn := requests.map Prod.snd
    if drawn.Nodup ∧ ∀ id ∈ drawn, id ∉ self.jobIds then
      { self with
        tables := (self.tables.enqueueWakes community now requests).1
        jobIds := self.jobIds ++ drawn }
    else self
  | .claim community limit leaseUntil claimId now locked =>
    if claimId ∈ self.claimIds then self
    else
      let claimed := self.tables.claimDueWakes community limit leaseUntil claimId now locked
      { self with
        tables := claimed.1
        tasks := self.tasks ++ claimed.2.map fun wake => ⟨wake, .claimed wake⟩
        claimIds := claimId :: self.claimIds }
  | .revalidate task now available =>
    match self.phase task with
    | some (.claimed wake) => self.revalidate task wake afterRevalidation now available
    | some (.checked wake) => self.revalidate task wake .ready now available
    | _ => self
  | .isMember task answer =>
    match self.phase task, answer with
    | some (.revalidated wake), some true => self.setPhase task (.checked wake)
    | some (.revalidated wake), some false => self.setPhase task (.settling wake .fail)
    | some (.revalidated wake), none => self.setPhase task (.settling wake (.retry 2))
    | _, _ => self
  | .send task =>
    match self.phase task with
    | some (.ready wake) =>
      { self.setPhase task (.sent wake) with
        requests := (wake.community, wake.id) :: self.requests }
    | _ => self
  | .answer task result =>
    match self.phase task with
    | some (.sent wake) => self.setPhase task (wake.answered result)
    | _ => self
  | .settle task now available =>
    match self.phase task with
    | some (.disabling wake generation) =>
      let tables :=
        if available then
          self.tables.disableEndpointGeneration wake.community wake.author wake.installationId
            generation
        else self.tables
      { self.setPhase task (.settling wake .fail) with tables }
    | some (.settling wake settlement) =>
      let tables := if available then self.settleWith wake now settlement else self.tables
      { self.setPhase task .done with tables }
    | _ => self
  | .crash task => self.setPhase task .done
  | .prune community before now matching =>
    { self with tables := self.tables.pruneWakeOutbox community before now matching }
  | .leases leases => { self with tables := { self.tables with leases } }
  | .events events => { self with tables := { self.tables with events } }

def after (labels : List Label) : World := labels.foldl step self

def initial (leases : List LeaseRow) (events : CommunityId → EventId → Option (Option Uuid)) :
    World :=
  ⟨⟨leases, [], events⟩, [], [], [], []⟩

end World

end Buzz.Push
