import Buzz.Gateway.Postgres
import Buzz.Push.Worker

/-! The `deliver` handler of the gateway under the delivery workers of one relay. -/

namespace Buzz.Gateway

open Nostr Library
open Buzz.Push (ClaimedWake GatewayResult DeliveryResponse)

def wireVersion : ℕ := 1

structure EndpointGrant where
  v : ℕ
  delegationId : Uuid
  relayPubkey : HexText
  appProfile : AppProfile
  endpointEpoch : ℤ
  generation : ℤ
  expiresAt : ℤ
  deriving DecidableEq

inductive DeliveryOutcome
  | accepted
  | invalidEndpoint (unregisteredAt : Option ℤ)
  | retry (retryAfterSeconds : Option ℤ)
  | refreshCredential
  | configurationFault
  | permanentRequestFault
  deriving DecidableEq

namespace DeliveryOutcome

def disposition : DeliveryOutcome → DeliveryDisposition
  | .retry _ | .configurationFault | .refreshCredential => .retryable
  | .accepted | .invalidEndpoint _ | .permanentRequestFault => .terminal

def response (generation : ℤ) : DeliveryOutcome → GatewayResult
  | .accepted => .success (some .accepted)
  | .invalidEndpoint unregisteredAt => .gone (some (.invalidEndpoint generation unregisteredAt))
  | .retry seconds => .serviceUnavailable (some (.retry seconds))
  | .configurationFault | .refreshCredential => .serviceUnavailable none
  | .permanentRequestFault => .other

end DeliveryOutcome

/-- A retryable outcome is reported only when nothing was accepted. -/
structure Send where
  outcome : DeliveryOutcome
  accepted : Bool
  honest : outcome.disposition = .retryable → accepted = false
  told : outcome = .accepted → accepted

inductive Database
  | works
  | fails
  | losesAnswer
  deriving DecidableEq

/-- `relayKey` signs the requests. -/
structure Config where
  sha256 : Bytes → FixedBytes 32
  relayKey : PublicKey
  openGrant : String → Option EndpointGrant
  quotaWindowSeconds : ℤ
  quotaMaxDeliveries : ℤ

def Config.relay (self : Config) : HexText := hexEncode self.relayKey.val

/-- `terminal`: its request id stays burned. -/
inductive DeliverPhase
  | received
  | admitted (grant : EndpointGrant) (permit : DeliveryPermit)
  | sending (grant : EndpointGrant) (permit : DeliveryPermit)
  | sent (grant : EndpointGrant) (permit : DeliveryPermit) (outcome : DeliveryOutcome)
  | responding (result : GatewayResult) (terminal : Bool)
  deriving DecidableEq

structure Delivery where
  task : ℕ
  wake : ClaimedWake
  phase : DeliverPhase
  deriving DecidableEq

namespace Config

variable (self : Config) (tables : Tables)

def refuses (wake : ClaimedWake) (grant : EndpointGrant) (now : ℤ) : Prop :=
  grant.v ≠ wireVersion ∨ validRelayPubkey grant.relayPubkey = false ∨
    grant.relayPubkey ≠ self.relay ∨ grant.endpointEpoch < 1 ∨ grant.generation < 1 ∨
    grant.expiresAt < now ∨ wake.expiresAt < now ∨ grant.expiresAt < wake.expiresAt

instance (wake : ClaimedWake) (grant : EndpointGrant) (now : ℤ) :
    Decidable (self.refuses wake grant now) :=
  inferInstanceAs (Decidable (_ ∨ _))

def deliveryRequest (wake : ClaimedWake) (grant : EndpointGrant) (eventId : EventId) :
    DeliveryRequest where
  delegationId := grant.delegationId
  relay := self.relay
  epoch := grant.endpointEpoch
  generation := grant.generation
  eventId := hexEncode eventId.val
  requestId := wake.id
  requestExpiresAt := wake.expiresAt
  quotaWindowSeconds := self.quotaWindowSeconds
  quotaMaxDeliveries := self.quotaMaxDeliveries

def admission (wake : ClaimedWake) (eventId : EventId) (now : ℤ) (database : Database) :
    DeliverPhase × Tables :=
  match self.openGrant wake.endpointGrant with
  | none => (.responding .notFound false, tables)
  | some grant =>
    if self.refuses wake grant now then (.responding .notFound false, tables)
    else if database = .fails then (.responding (.serviceUnavailable none) false, tables)
    else
      match tables.authorizeDelivery (self.deliveryRequest wake grant eventId) now with
      | .error .rejected => (.responding .notFound false, tables)
      | .error .unavailable => (.responding (.serviceUnavailable none) false, tables)
      | .ok (permit, next) =>
        if database = .works then (.admitted grant permit, next)
        else (.responding (.serviceUnavailable none) false, next)

end Config

def Tables.finish (tables : Tables) (permit : DeliveryPermit)
    (disposition : DeliveryDisposition) (database : Database) : Tables × Bool :=
  let next := (tables.finishDelivery permit disposition).toOption.getD tables
  match disposition with
  | .terminal => (tables, true)
  | .retryable => (if database = .fails then tables else next, decide (database = .works))

def openToken (tables : Tables) (grant : EndpointGrant) (permit : DeliveryPermit) (custody : Bool)
    (database : Database) : DeliverPhase × Tables :=
  if permit.authority.profile ≠ grant.appProfile then
    (.responding .notFound true, (tables.finish permit .terminal database).1)
  else if custody then (.sending grant permit, tables)
  else (.responding (.serviceUnavailable none) false, (tables.finish permit .retryable database).1)

/-- The second call has a refreshed credential. -/
def transportOutcome (first second : Send) : DeliveryOutcome × Bool :=
  if first.outcome = .refreshCredential then (second.outcome, first.accepted || second.accepted)
  else (first.outcome, first.accepted)

def finishSent (tables : Tables) (grant : EndpointGrant) (permit : DeliveryPermit)
    (outcome : DeliveryOutcome) (database : Database) : DeliverPhase × Tables :=
  let finished := tables.finish permit outcome.disposition database
  let result := if finished.2 then outcome.response grant.generation else .serviceUnavailable none
  (.responding result (outcome.disposition = .terminal), finished.1)

def withoutBody : GatewayResult → GatewayResult
  | .success _ => .success none
  | .gone _ => .gone none
  | .serviceUnavailable _ => .serviceUnavailable none
  | result => result

/-- `reapedAt` is the last time of the reaper. -/
structure System where
  relay : Push.World
  tables : Tables
  deliveries : List Delivery
  accepted : List Uuid
  refused : List (Uuid × ℕ)
  reapedAt : ℤ

/-- A handler reads its `now` once. -/
inductive SystemLabel
  | relay (label : Push.Label)
  | timeout (task : ℕ)
  | broken (task : ℕ)
  | authorize (index : ℕ) (eventId : EventId) (now : ℤ) (database : Database)
  | openToken (index : ℕ) (custody : Bool) (database : Database)
  | transport (index : ℕ) (first second : Send)
  | finish (index : ℕ) (database : Database)
  | respond (index : ℕ) (whole : Bool)
  | unauthorized (index : ℕ)
  | gateway (call : Call) (now : ℤ)
  | foreignFinish (permit : DeliveryPermit)
  | reap (now : ℤ)

namespace System

variable (config : Config) (self : System)

def initial (leases : List Push.LeaseRow) (events : CommunityId → EventId → Option (Option Uuid))
    (reapedAt : ℤ) : System :=
  ⟨.initial leases events, .initial, [], [], [], reapedAt⟩

def setDelivery (index : ℕ) (delivery : Delivery) (phase : DeliverPhase) (tables : Tables) :
    System :=
  { self with
    deliveries := self.deliveries.set index { delivery with phase }
    tables }

/-- Only `respond`, `timeout` and `broken` answer. -/
def relayStep (label : Push.Label) : System :=
  match label with
  | .answer _ _ => self
  | .send task =>
    match self.relay.phase task with
    | some (.ready wake) =>
      { self with
        relay := self.relay.step label
        deliveries := self.deliveries ++ [⟨task, wake, .received⟩] }
    | _ => self
  | _ => { self with relay := self.relay.step label }

def answer (task : ℕ) (result : GatewayResult) : System :=
  { self with relay := self.relay.step (.answer task result) }

def respond (delivery : Delivery) (result : GatewayResult) : System :=
  if self.relay.phase delivery.task = some (.sent delivery.wake) then
    { self.answer delivery.task result with
      refused :=
        if result = .notFound then (delivery.wake.id, delivery.wake.attempt) :: self.refused
        else self.refused }
  else self

def ownRelay (relay : HexText) : Prop := hexDecode relay = some config.relayKey.val

instance (relay : HexText) : Decidable (ownRelay config relay) :=
  inferInstanceAs (Decidable (_ = _))

def foreign : Call → Bool
  | .authorizeDelivery request => decide ¬ownRelay config request.relay
  | _ => true

def step : SystemLabel → System
  | .relay label => self.relayStep label
  | .timeout task => self.answer task .timeoutOrConnect
  | .broken task => self.answer task .other
  | .authorize index eventId now database =>
    match self.deliveries[index]? with
    | some delivery =>
      if delivery.phase = .received ∧ self.reapedAt ≤ now then
        let next := config.admission self.tables delivery.wake eventId now database
        self.setDelivery index delivery next.1 next.2
      else self
    | none => self
  | .openToken index custody database =>
    match self.deliveries[index]? with
    | some delivery =>
      match delivery.phase with
      | .admitted grant permit =>
        let next := Gateway.openToken self.tables grant permit custody database
        self.setDelivery index delivery next.1 next.2
      | _ => self
    | none => self
  | .transport index first second =>
    match self.deliveries[index]? with
    | some delivery =>
      match delivery.phase with
      | .sending grant permit =>
        let next := transportOutcome first second
        { self.setDelivery index delivery (.sent grant permit next.1) self.tables with
          accepted := if next.2 then delivery.wake.id :: self.accepted else self.accepted }
      | _ => self
    | none => self
  | .finish index database =>
    match self.deliveries[index]? with
    | some delivery =>
      match delivery.phase with
      | .sent grant permit outcome =>
        let next := finishSent self.tables grant permit outcome database
        self.setDelivery index delivery next.1 next.2
      | _ => self
    | none => self
  | .respond index whole =>
    match self.deliveries[index]? with
    | some delivery =>
      match delivery.phase with
      | .responding result _ => self.respond delivery (if whole then result else withoutBody result)
      | _ => self
    | none => self
  | .unauthorized index =>
    match self.deliveries[index]? with
    | some delivery =>
      if delivery.phase = .received then
        self.setDelivery index delivery (.responding .other false) self.tables
      else self
    | none => self
  | .gateway call now =>
    if foreign config call then
      { self with
        tables := (self.tables.transaction (self.tables.call config.sha256 now call)).2 }
    else self
  | .foreignFinish permit =>
    if ownRelay config permit.relayPubkey then self
    else { self with tables := (self.tables.finish permit .retryable .works).1 }
  | .reap now =>
    { self with
      tables := (self.tables.reapExpired now).toOption.getD self.tables
      reapedAt := max self.reapedAt now }

end System

end Buzz.Gateway
