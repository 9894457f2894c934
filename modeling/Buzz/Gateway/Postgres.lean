import Buzz.Gateway.Authority

/-! `PostgresAuthorityStore`. Each call is one transaction, and a call that fails leaves the tables
as they were. -/

namespace Buzz.Gateway

open Nostr Buzz.Req Library Library.Results

structure ChallengeRow where
  challengeHash : FixedBytes 32
  expiresAt : ℤ

structure InstallationRow where
  appAttestKeyId : Bytes
  appAttestPublicKey : Bytes
  assertionCounter : UInt32
  appProfile : AppProfile
  tokenCiphertext : Bytes
  tokenFingerprint : Fingerprint
  endpointEpoch : ℤ
  expiresAt : ℤ
  revokedAt : Option ℤ

structure DelegationRow where
  id : Uuid
  endpointEpoch : ℤ
  generation : ℤ
  notBefore : ℤ
  expiresAt : ℤ
  revokedAt : Option ℤ

structure QuotaRow where
  windowStartedAt : ℤ
  admitted : ℤ
  updatedAt : ℤ

/-- Delegations stand under their pair of installation and relay. -/
structure Tables where
  challenges : Keyed Uuid ChallengeRow
  installations : Keyed Uuid InstallationRow
  delegations : Keyed (Uuid × Bytes) DelegationRow
  endpointQuotas : Keyed Fingerprint QuotaRow
  deliveryAuthReplays : Keyed (Bytes × Bytes) ℤ
  deliveryRequestReplays : Keyed (Bytes × Uuid) ℤ

def Tables.initial : Tables := ⟨.empty, .empty, .empty, .empty, .empty, .empty⟩

def InstallationRow.Checked (self : InstallationRow) : Prop :=
  (1 ≤ self.appAttestKeyId.length ∧ self.appAttestKeyId.length ≤ 128) ∧
    (33 ≤ self.appAttestPublicKey.length ∧ self.appAttestPublicKey.length ≤ 256) ∧
    (1 ≤ self.tokenCiphertext.length ∧ self.tokenCiphertext.length ≤ 2048) ∧
    0 < self.endpointEpoch

instance (row : InstallationRow) : Decidable row.Checked :=
  inferInstanceAs (Decidable (_ ∧ _))

def DelegationRow.Checked (self : DelegationRow) (relay : Bytes) : Prop :=
  relay.length = 32 ∧ 0 < self.endpointEpoch ∧ 0 < self.generation ∧
    self.notBefore < self.expiresAt

instance (row : DelegationRow) (relay : Bytes) : Decidable (row.Checked relay) :=
  inferInstanceAs (Decidable (_ ∧ _))

/-- `at`. -/
def dateAt (ts : ℤ) : Except AuthorityError ℤ := okOr (dateFromTimestamp ts) .rejected

def bindDate (ts : ℤ) : Except AuthorityError ℤ := do
  let date ← dateAt ts
  require (timestamptzMin ≤ date) .unavailable
  return date

def decodeHex (text : HexText) : Except AuthorityError Bytes := okOr (hexDecode text) .rejected

namespace Tables

variable (sha256 : Bytes → FixedBytes 32) (self : Tables)

def putChallenge (c : Challenge) : Except AuthorityError Tables := do
  let expiresAt ← bindDate c.expiresAt
  require (self.challenges.get c.id).isNone .unavailable
  return { self with challenges := self.challenges.insert c.id ⟨sha256 c.value, expiresAt⟩ }

def consumeChallenge (id : Uuid) (value : FixedBytes 32) (now : ℤ) :
    Except AuthorityError Tables := do
  let now ← bindDate now
  let row ← okOr (self.challenges.get id) .rejected
  require (row.challengeHash = sha256 value ∧ now ≤ row.expiresAt) .rejected
  return { self with challenges := self.challenges.erase id }

/-- One of the unique keys of `push_gateway_installations` is taken. -/
def conflicts (id : Uuid) (row : InstallationRow) : Bool :=
  self.installations.entries.any fun entry =>
    decide (entry.1 = id ∨ entry.2.appAttestKeyId = row.appAttestKeyId ∨
      entry.2.appProfile = row.appProfile ∧ entry.2.tokenFingerprint = row.tokenFingerprint)

def createInstallation (n : NewInstallation) : Except AuthorityError Tables := do
  let expiresAt ← bindDate n.expiresAt
  let row : InstallationRow := {
    appAttestKeyId := n.appAttestKeyId
    appAttestPublicKey := n.appAttestPublicKey
    assertionCounter := n.assertionCounter
    appProfile := n.profile
    tokenCiphertext := n.tokenCiphertext
    tokenFingerprint := n.tokenFingerprint
    endpointEpoch := n.endpointEpoch
    expiresAt
    revokedAt := none }
  require row.Checked .unavailable
  require (self.conflicts n.id row = false) .rejected
  return { self with installations := self.installations.insert n.id row }

def installation (id : Uuid) (now : ℤ) : Except AuthorityError Installation := do
  let now ← bindDate now
  let row ← okOr (self.installations.get id) .rejected
  require (row.revokedAt = none ∧ now ≤ row.expiresAt) .rejected
  return {
    id
    appAttestKeyId := row.appAttestKeyId
    appAttestPublicKey := row.appAttestPublicKey
    assertionCounter := row.assertionCounter
    profile := row.appProfile
    tokenCiphertext := row.tokenCiphertext
    tokenFingerprint := row.tokenFingerprint
    endpointEpoch := row.endpointEpoch
    expiresAt := row.expiresAt
    revoked := false }

def advanceAssertionCounter (id : Uuid) (previous next : UInt32) :
    Except AuthorityError Tables := do
  require (previous < next) .rejected
  let row ← okOr (self.installations.get id) .rejected
  require (row.assertionCounter = previous ∧ row.revokedAt = none) .rejected
  return { self with
    installations := self.installations.insert id { row with assertionCounter := next } }

def delegationById (id : Uuid) : Option ((Uuid × Bytes) × DelegationRow) :=
  self.delegations.entries.find? (·.2.id = id)

def upsertDelegation (d : Delegation) : Except AuthorityError Tables := do
  let i ← okOr (self.installations.get d.installationId) .rejected
  require (i.revokedAt = none ∧ i.endpointEpoch = d.endpointEpoch) .rejected
  let expiresAt ← dateAt d.expiresAt
  require (expiresAt ≤ i.expiresAt) .rejected
  let relay ← decodeHex d.relayPubkey
  let notBefore ← bindDate d.notBefore
  let expiresAt ← bindDate d.expiresAt
  let row : DelegationRow := {
    id := d.id
    endpointEpoch := d.endpointEpoch
    generation := d.generation
    notBefore
    expiresAt
    revokedAt := none }
  require (row.Checked relay) .unavailable
  let key := (d.installationId, relay)
  require (∀ old ∈ self.delegations.get key, old.generation < d.generation) .rejected
  -- The conflict clause covers the pair alone: another row with this id is an error.
  require (∀ entry ∈ self.delegations.entries, entry.2.id = d.id → entry.1 = key) .unavailable
  return { self with delegations := self.delegations.insert key row }

def rotateEndpoint (id : Uuid) (expected new : ℤ) (ciphertext : Bytes) (fingerprint : Fingerprint) :
    Except AuthorityError Tables := do
  require (nextEpoch expected = some new) .rejected
  let row ← okOr (self.installations.get id) .rejected
  require (row.endpointEpoch = expected ∧ row.revokedAt = none) .rejected
  let rotated := { row with
    endpointEpoch := new
    tokenCiphertext := ciphertext
    tokenFingerprint := fingerprint }
  require rotated.Checked .unavailable
  require (∀ entry ∈ self.installations.entries, entry.2.appProfile = row.appProfile →
    entry.2.tokenFingerprint = fingerprint → entry.1 = id) .unavailable
  return { self with installations := self.installations.insert id rotated }

def revokeDelegation (id : Uuid) (relay : HexText) (generation now : ℤ) :
    Except AuthorityError Tables := do
  let relay ← decodeHex relay
  let row ← okOr (self.delegations.get (id, relay)) .rejected
  require (row.generation < generation) .rejected
  return { self with
    delegations := self.delegations.insert (id, relay)
      { row with generation, revokedAt := some now } }

def revokeInstallation (id : Uuid) (expected new now : ℤ) : Except AuthorityError Tables := do
  require (nextEpoch expected = some new) .rejected
  let row ← okOr (self.installations.get id) .rejected
  require (row.endpointEpoch = expected ∧ row.revokedAt = none) .rejected
  let revoked := { row with endpointEpoch := new, revokedAt := some now }
  require revoked.Checked .unavailable
  return { self with installations := self.installations.insert id revoked }

/-- Without a row of its own it counts none. -/
def chargeQuota (fingerprint : Fingerprint) (now window quotaMax : ℤ) :
    Except AuthorityError QuotaRow :=
  match self.endpointQuotas.get fingerprint with
  | none => .ok ⟨now, 1, now⟩
  | some row => do
    require (timestamptzMin ≤ now - window) .unavailable
    if row.windowStartedAt ≤ now - window then return ⟨now, 1, now⟩
    else
      require (row.admitted < quotaMax) .rejected
      return ⟨row.windowStartedAt, row.admitted + 1, now⟩

def authorizeDelivery (request : DeliveryRequest) (now : ℤ) :
    Except AuthorityError (DeliveryPermit × Tables) := do
  let relay ← decodeHex request.relay
  let event ← decodeHex request.eventId
  require (event.length = 32) .rejected
  let ((installationId, relayPubkey), d) ← okOr (self.delegationById request.delegationId) .rejected
  let i ← okOr (self.installations.get installationId) .rejected
  require (i.revokedAt = none ∧ i.endpointEpoch = request.epoch) .rejected
  let date ← dateAt now
  require (date ≤ i.expiresAt) .rejected
  let now ← bindDate now
  require (relayPubkey = relay ∧ d.endpointEpoch = request.epoch ∧
    d.generation = request.generation ∧ d.revokedAt = none ∧ d.notBefore ≤ now ∧
    now ≤ d.expiresAt) .rejected
  let authority : DeliveryAuthority := {
    delegationId := request.delegationId
    installationId
    relayPubkey := request.relay
    profile := i.appProfile
    tokenCiphertext := i.tokenCiphertext
    endpointEpoch := request.epoch
    generation := request.generation
    expiresAt := d.expiresAt }
  require (now ≤ request.requestExpiresAt ∧ request.requestExpiresAt ≤ authority.expiresAt)
    .rejected
  require (1 ≤ request.quotaWindowSeconds ∧ 1 ≤ request.quotaMaxDeliveries) .unavailable
  let quota ← self.chargeQuota i.tokenFingerprint now request.quotaWindowSeconds
    request.quotaMaxDeliveries
  let requestExpiresAt ← bindDate request.requestExpiresAt
  require (relay.length = 32) .unavailable
  require ((self.deliveryAuthReplays.get (relay, event)).isNone ∧
    (self.deliveryRequestReplays.get (relay, request.requestId)).isNone) .rejected
  return (⟨authority, request.relay, request.requestId⟩, { self with
    endpointQuotas := self.endpointQuotas.insert i.tokenFingerprint quota
    deliveryAuthReplays := self.deliveryAuthReplays.insert (relay, event) requestExpiresAt
    deliveryRequestReplays :=
      self.deliveryRequestReplays.insert (relay, request.requestId) requestExpiresAt })

def finishDelivery (permit : DeliveryPermit) :
    DeliveryDisposition → Except AuthorityError Tables
  | .terminal => .ok self
  | .retryable => do
    let relay ← okOr (hexDecode permit.relayPubkey) .unavailable
    return { self with
      deliveryRequestReplays := self.deliveryRequestReplays.erase (relay, permit.requestId) }

def retention : ℤ := 86400

def InstallationRow.past (row : InstallationRow) (now : ℤ) : Bool :=
  decide (row.expiresAt < now ∨ ∃ revokedAt ∈ row.revokedAt, revokedAt < now - retention)

def reapExpired (now : ℤ) : Except AuthorityError Tables := do
  let now ← bindDate now
  require (timestamptzMin ≤ now - retention) .unavailable
  -- The delegations of an installation that goes are deleted first, as their foreign key asks.
  let reapable (key : Uuid × Bytes) (row : DelegationRow) : Bool :=
    decide (row.expiresAt < now ∨ (∃ revokedAt ∈ row.revokedAt, revokedAt < now - retention) ∨
      ∃ installation ∈ self.installations.get key.1, InstallationRow.past installation now)
  let delegations := self.delegations.filter fun entry => !reapable entry.1 entry.2
  let installations := self.installations.filter fun entry => !InstallationRow.past entry.2 now
  return {
    challenges := self.challenges.filter fun entry => now ≤ entry.2.expiresAt
    deliveryAuthReplays := self.deliveryAuthReplays.filter fun entry => now ≤ entry.2
    deliveryRequestReplays :=
      self.deliveryRequestReplays.filter fun entry => now ≤ entry.2
    endpointQuotas :=
      self.endpointQuotas.filter fun entry => now - retention ≤ entry.2.updatedAt
    delegations
    installations }

def call (now : ℤ) : Call → Except AuthorityError (Answer × Tables)
  | .putChallenge challenge => do return (.done, ← self.putChallenge sha256 challenge)
  | .consumeChallenge id value => do return (.done, ← self.consumeChallenge sha256 id value now)
  | .createInstallation new => do return (.done, ← self.createInstallation new)
  | .installation id => do return (.installation (← self.installation id now), self)
  | .advanceAssertionCounter id previous next => do
    return (.done, ← self.advanceAssertionCounter id previous next)
  | .upsertDelegation delegation => do return (.done, ← self.upsertDelegation delegation)
  | .rotateEndpoint id expected new ciphertext fingerprint => do
    return (.done, ← self.rotateEndpoint id expected new ciphertext fingerprint)
  | .revokeDelegation id relay generation => do
    return (.done, ← self.revokeDelegation id relay generation now)
  | .revokeInstallation id expected new => do
    return (.done, ← self.revokeInstallation id expected new now)
  | .authorizeDelivery request => do
    let (permit, next) ← self.authorizeDelivery request now
    return (.permit permit, next)

def transaction {Result : Type} (outcome : Except AuthorityError (Result × Tables)) :
    Except AuthorityError Result × Tables :=
  match outcome with
  | .ok (result, next) => (.ok result, next)
  | .error error => (.error error, self)

end Tables

end Buzz.Gateway
