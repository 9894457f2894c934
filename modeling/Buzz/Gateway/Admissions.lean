import Buzz.Gateway.Postgres
import Buzz.Library.Runs

/-! Gateway processes over one database. -/

namespace Buzz.Gateway

open Nostr Library

structure Admission where
  permit : DeliveryPermit
  relay : Bytes
  requestExpiresAt : ℤ
  fingerprint : Fingerprint
  windowStartedAt : ℤ
  deriving DecidableEq

def Admission.requestKey (self : Admission) : Bytes × Uuid := (self.relay, self.permit.requestId)

def Admission.window (self : Admission) : Fingerprint × ℤ :=
  (self.fingerprint, self.windowStartedAt)

/-- The tables with what happened so far, the latest delegation first. -/
structure World where
  tables : Tables
  clock : ℤ
  outstanding : List Admission
  terminal : List ((Bytes × Uuid) × ℤ)
  issued : List Admission
  stored : List ((Uuid × Bytes) × Uuid)

inductive Label
  | tick (seconds : ℕ)
  | call (call : Call)
  | finish (index : ℕ) (disposition : DeliveryDisposition)
  /-- A process stops with a permit, or the database does not carry out its finish. -/
  | lose (index : ℕ)
  | reapExpired
  deriving DecidableEq

namespace World

variable (sha256 : Bytes → FixedBytes 32) (self : World)

def initial (clock : ℤ) : World := ⟨.initial, clock, [], [], [], []⟩

def admission (request : DeliveryRequest) (permit : DeliveryPermit) (next : Tables) :
    Option Admission := do
  let relay ← hexDecode request.relay
  let installation ← self.tables.installations.get permit.authority.installationId
  let quota ← next.endpointQuotas.get installation.tokenFingerprint
  return ⟨permit, relay, request.requestExpiresAt, installation.tokenFingerprint,
    quota.windowStartedAt⟩

def committed (call : Call) (answer : Answer) (next : Tables) : World :=
  match call, answer with
  | .authorizeDelivery request, .permit permit =>
    let admission := (self.admission request permit next).toList
    { self with
      tables := next
      outstanding := admission ++ self.outstanding
      issued := admission ++ self.issued }
  | .upsertDelegation delegation, _ =>
    let relay := (hexDecode delegation.relayPubkey).toList
    { self with
      tables := next
      stored := (relay.map fun relay => ((delegation.installationId, relay), delegation.id)) ++
        self.stored }
  | _, _ => { self with tables := next }

def call (call : Call) : World :=
  match self.tables.call sha256 self.clock call with
  | .ok (answer, next) => self.committed call answer next
  | .error _ => self

def finish (index : ℕ) (disposition : DeliveryDisposition) : World :=
  match self.outstanding[index]? with
  | none => self
  | some admission =>
    { self with
      tables := (self.tables.finishDelivery admission.permit disposition).toOption.getD self.tables
      outstanding := self.outstanding.eraseIdx index
      terminal :=
        if disposition = .terminal then
          (admission.requestKey, admission.requestExpiresAt) :: self.terminal
        else self.terminal }

def step : Label → World
  | .tick seconds => { self with clock := self.clock + seconds }
  | .call call => self.call sha256 call
  | .finish index disposition => self.finish index disposition
  | .lose index => { self with outstanding := self.outstanding.eraseIdx index }
  | .reapExpired =>
    { self with tables := (self.tables.reapExpired self.clock).toOption.getD self.tables }

def newest (key : Uuid × Bytes) : Option Uuid :=
  (self.stored.find? (·.1 = key)).map Prod.snd

end World

end Buzz.Gateway
