import Buzz.Gateway.Authority

/-! `MemoryAuthorityStore`, the executable reference store. -/

namespace Buzz.Gateway

open Nostr Library Library.Results

structure MemoryState where
  challenges : Keyed Uuid Challenge
  installations : Keyed Uuid Installation
  tokenOwners : Keyed (AppProfile × Fingerprint) Uuid
  delegations : Keyed (Uuid × HexText) Delegation
  delegationIds : Keyed Uuid (Uuid × HexText)
  deliveryAuthReplays : Keyed (HexText × HexText) ℤ
  deliveryRequestReplays : Keyed (HexText × Uuid) ℤ
  endpointQuotas : Keyed Fingerprint (ℤ × ℤ)

namespace MemoryState

def initial : MemoryState := ⟨.empty, .empty, .empty, .empty, .empty, .empty, .empty, .empty⟩

variable (self : MemoryState)

def putChallenge (challenge : Challenge) : Except AuthorityError Answer × MemoryState :=
  let next := { self with challenges := self.challenges.insert challenge.id challenge }
  if (self.challenges.get challenge.id).isSome then (.error .rejected, next) else (.ok .done, next)

def consumeChallenge (id : Uuid) (value : FixedBytes 32) (now : ℤ) :
    Except AuthorityError Answer × MemoryState :=
  match self.challenges.get id with
  | none => (.error .rejected, self)
  | some challenge =>
    let next := { self with challenges := self.challenges.erase id }
    if challenge.value ≠ value ∨ challenge.expiresAt < now then (.error .rejected, next)
    else (.ok .done, next)

def createInstallation (n : NewInstallation) : Except AuthorityError MemoryState := do
  let tokenKey := (n.profile, n.tokenFingerprint)
  require ((self.installations.get n.id).isNone ∧ (self.tokenOwners.get tokenKey).isNone) .rejected
  return { self with
    tokenOwners := self.tokenOwners.insert tokenKey n.id
    installations := self.installations.insert n.id { n with revoked := false } }

def installation (id : Uuid) (now : ℤ) : Except AuthorityError Installation := do
  let i ← okOr (self.installations.get id) .rejected
  require (i.revoked = false ∧ now ≤ i.expiresAt) .rejected
  return i

def advanceAssertionCounter (id : Uuid) (previous next : UInt32) :
    Except AuthorityError MemoryState := do
  require (previous < next) .rejected
  let i ← okOr (self.installations.get id) .rejected
  require (i.revoked = false ∧ i.assertionCounter = previous) .rejected
  return { self with
    installations := self.installations.insert id { i with assertionCounter := next } }

def upsertDelegation (d : Delegation) : Except AuthorityError MemoryState := do
  let i ← okOr (self.installations.get d.installationId) .rejected
  require (i.revoked = false ∧ i.endpointEpoch = d.endpointEpoch ∧ 1 ≤ d.generation ∧
    d.notBefore < d.expiresAt ∧ d.expiresAt ≤ i.expiresAt) .rejected
  let key := (d.installationId, d.relayPubkey)
  require ((∀ old ∈ self.delegations.get key, old.generation < d.generation) ∧
    (self.delegationIds.get d.id).isNone) .rejected
  return { self with
    delegationIds := self.delegationIds.insert d.id key
    delegations := self.delegations.insert key d }

def rotateEndpoint (id : Uuid) (expected new : ℤ) (ciphertext : Bytes) (fingerprint : Fingerprint) :
    Except AuthorityError MemoryState := do
  require (nextEpoch expected = some new) .rejected
  let i ← okOr (self.installations.get id) .rejected
  require (i.revoked = false ∧ i.endpointEpoch = expected) .rejected
  let tokenKey := (i.profile, fingerprint)
  require (∀ owner ∈ self.tokenOwners.get tokenKey, owner = id) .rejected
  return { self with
    tokenOwners := (self.tokenOwners.erase (i.profile, i.tokenFingerprint)).insert tokenKey id
    installations := self.installations.insert id { i with
      endpointEpoch := new
      tokenCiphertext := ciphertext
      tokenFingerprint := fingerprint } }

def revokeDelegation (id : Uuid) (relay : HexText) (generation : ℤ) :
    Except AuthorityError MemoryState := do
  let old ← okOr (self.delegations.get (id, relay)) .rejected
  require (old.generation < generation) .rejected
  return { self with
    delegations := self.delegations.insert (id, relay)
      { old with generation, revoked := true } }

def revokeInstallation (id : Uuid) (expected new : ℤ) : Except AuthorityError MemoryState := do
  require (nextEpoch expected = some new) .rejected
  let i ← okOr (self.installations.get id) .rejected
  require (i.revoked = false ∧ i.endpointEpoch = expected) .rejected
  return { self with
    installations := self.installations.insert id { i with endpointEpoch := new, revoked := true } }

/-- The checks before the quota. -/
def admissible (request : DeliveryRequest) (now : ℤ) :
    Except AuthorityError (DeliveryAuthority × Fingerprint) := do
  let key ← okOr (self.delegationIds.get request.delegationId) .rejected
  let d ← okOr (self.delegations.get key) .rejected
  let i ← okOr (self.installations.get d.installationId) .rejected
  require (d.revoked = false ∧ i.revoked = false ∧ d.id = request.delegationId ∧
    d.relayPubkey = request.relay ∧ d.endpointEpoch = request.epoch ∧
    d.generation = request.generation ∧ i.endpointEpoch = request.epoch ∧ d.notBefore ≤ now ∧
    now ≤ d.expiresAt ∧ now ≤ i.expiresAt ∧ now ≤ request.requestExpiresAt ∧
    request.requestExpiresAt ≤ d.expiresAt) .rejected
  let authority : DeliveryAuthority := {
    delegationId := request.delegationId
    installationId := i.id
    relayPubkey := request.relay
    profile := i.profile
    tokenCiphertext := i.tokenCiphertext
    endpointEpoch := request.epoch
    generation := request.generation
    expiresAt := d.expiresAt }
  require ((self.deliveryAuthReplays.get (request.relay, request.eventId)).isNone ∧
    (self.deliveryRequestReplays.get (request.relay, request.requestId)).isNone) .rejected
  return (authority, i.tokenFingerprint)

/-- The entry before `authorize_delivery` counts. -/
def quotaEntry (fingerprint : Fingerprint) (now window : ℤ) : ℤ × ℤ :=
  let quota := (self.endpointQuotas.get fingerprint).getD (now, 0)
  if window ≤ saturatingSub now quota.1 then (now, 0) else quota

def authorizeDelivery (request : DeliveryRequest) (now : ℤ) :
    Except AuthorityError Answer × MemoryState :=
  match self.admissible request now with
  | .error error => (.error error, self)
  | .ok (authority, fingerprint) =>
    let quota := self.quotaEntry fingerprint now request.quotaWindowSeconds
    if request.quotaMaxDeliveries ≤ quota.2 then
      (.error .rejected,
        { self with endpointQuotas := self.endpointQuotas.insert fingerprint quota })
    else
      (.ok (.permit ⟨authority, request.relay, request.requestId⟩), { self with
        endpointQuotas := self.endpointQuotas.insert fingerprint (quota.1, quota.2 + 1)
        deliveryAuthReplays :=
          self.deliveryAuthReplays.insert (request.relay, request.eventId) request.requestExpiresAt
        deliveryRequestReplays :=
          self.deliveryRequestReplays.insert (request.relay, request.requestId)
            request.requestExpiresAt })

def finishDelivery (permit : DeliveryPermit) :
    DeliveryDisposition → Except AuthorityError Answer × MemoryState
  | .terminal => (.ok .done, self)
  | .retryable => (.ok .done, { self with
      deliveryRequestReplays :=
        self.deliveryRequestReplays.erase (permit.relayPubkey, permit.requestId) })

def updated (outcome : Except AuthorityError MemoryState) :
    Except AuthorityError Answer × MemoryState :=
  match outcome with
  | .ok next => (.ok .done, next)
  | .error error => (.error error, self)

def call (now : ℤ) : Call → Except AuthorityError Answer × MemoryState
  | .putChallenge challenge => self.putChallenge challenge
  | .consumeChallenge id value => self.consumeChallenge id value now
  | .createInstallation new => self.updated (self.createInstallation new)
  | .installation id => (Answer.installation <$> self.installation id now, self)
  | .advanceAssertionCounter id previous next =>
    self.updated (self.advanceAssertionCounter id previous next)
  | .upsertDelegation delegation => self.updated (self.upsertDelegation delegation)
  | .rotateEndpoint id expected new ciphertext fingerprint =>
    self.updated (self.rotateEndpoint id expected new ciphertext fingerprint)
  | .revokeDelegation id relay generation =>
    self.updated (self.revokeDelegation id relay generation)
  | .revokeInstallation id expected new => self.updated (self.revokeInstallation id expected new)
  | .authorizeDelivery request => self.authorizeDelivery request now

end MemoryState

end Buzz.Gateway
