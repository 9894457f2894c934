import Buzz.Gateway.Postgres

/-! What a committed transaction of the store has checked, and what it has written. -/

namespace Buzz.Gateway

open Nostr Library Library.Results List Option

variable {sha256 : Bytes → FixedBytes 32} {tables next : Tables} {now : ℤ}

theorem bindDate_ok {ts date : ℤ} (ok : bindDate ts = .ok date) : date = ts := by
  obtain ⟨found, isDate, rest⟩ := bind_ok ok
  obtain ⟨_, _, same⟩ := bind_ok rest
  cases same
  have inRange := okOr_ok.mp isDate
  unfold Req.dateFromTimestamp at inRange
  split at inRange
  · exact (Option.some.inj inRange).symm
  · cases inRange

theorem dateAt_ok {ts date : ℤ} (ok : dateAt ts = .ok date) : date = ts := by
  have inRange := okOr_ok.mp ok
  unfold Req.dateFromTimestamp at inRange
  split at inRange
  · exact (Option.some.inj inRange).symm
  · cases inRange

theorem createInstallation_ok {n : NewInstallation} (ok : tables.createInstallation n = .ok next) :
    tables.installations.get n.id = none ∧
      ∃ row, next = { tables with installations := tables.installations.insert n.id row } := by
  obtain ⟨expiresAt, _, rest⟩ := bind_ok ok
  obtain ⟨_, _, rest⟩ := bind_ok rest
  obtain ⟨_, free, same⟩ := bind_ok rest
  cases same
  refine ⟨?_, _, rfl⟩
  rw [Keyed.get_eq_none]
  intro entry member taken
  have clash := any_eq_false.mp (require_ok.mp free) entry member
  exact clash (decide_eq_true (.inl taken))

/-- Neither its counter nor its epoch goes back. -/
structure InstallationRow.Forward (old new : InstallationRow) : Prop where
  counter : old.assertionCounter ≤ new.assertionCounter
  epoch : old.endpointEpoch ≤ new.endpointEpoch

variable {id : Uuid}

theorem advanceAssertionCounter_ok {previous counter : UInt32}
    (ok : tables.advanceAssertionCounter id previous counter = .ok next) :
    ∃ old row, tables.installations.get id = some old ∧ old.Forward row ∧
      next = { tables with installations := tables.installations.insert id row } := by
  obtain ⟨_, more, rest⟩ := bind_ok ok
  obtain ⟨row, isRow, rest⟩ := bind_ok rest
  obtain ⟨_, matching, same⟩ := bind_ok rest
  cases same
  refine ⟨row, { row with assertionCounter := counter }, okOr_ok.mp isRow, ⟨?_, Int.le_refl _⟩, rfl⟩
  exact (require_ok.mp matching).1 ▸ UInt32.le_of_lt (require_ok.mp more)

variable {expected : ℤ} {new : ℤ}

theorem nextEpoch_le (isNext : nextEpoch expected = some new) :
    expected ≤ new := by
  unfold nextEpoch at isNext
  split at isNext
  · cases isNext
    omega
  · cases isNext

variable {fingerprint : Fingerprint}

theorem rotateEndpoint_ok {ciphertext : Bytes}
    (ok : tables.rotateEndpoint id expected new ciphertext fingerprint = .ok next) :
    ∃ old row, tables.installations.get id = some old ∧ old.Forward row ∧
      next = { tables with installations := tables.installations.insert id row } := by
  obtain ⟨_, isNext, rest⟩ := bind_ok ok
  obtain ⟨row, isRow, rest⟩ := bind_ok rest
  obtain ⟨_, current, rest⟩ := bind_ok rest
  obtain ⟨_, _, rest⟩ := bind_ok rest
  obtain ⟨_, _, same⟩ := bind_ok rest
  cases same
  let rotated := { row with
    endpointEpoch := new
    tokenCiphertext := ciphertext
    tokenFingerprint := fingerprint }
  refine ⟨row, rotated, okOr_ok.mp isRow, ⟨UInt32.le_refl _, ?_⟩, rfl⟩
  exact (require_ok.mp current).1 ▸ nextEpoch_le (require_ok.mp isNext)

theorem revokeInstallation_ok (ok : tables.revokeInstallation id expected new now = .ok next) :
    ∃ old row, tables.installations.get id = some old ∧ old.Forward row ∧
      next = { tables with installations := tables.installations.insert id row } := by
  obtain ⟨_, isNext, rest⟩ := bind_ok ok
  obtain ⟨row, isRow, rest⟩ := bind_ok rest
  obtain ⟨_, current, rest⟩ := bind_ok rest
  obtain ⟨_, _, same⟩ := bind_ok rest
  cases same
  refine ⟨row, { row with endpointEpoch := new, revokedAt := some now }, okOr_ok.mp isRow,
    ⟨UInt32.le_refl _, ?_⟩, rfl⟩
  exact (require_ok.mp current).1 ▸ nextEpoch_le (require_ok.mp isNext)

theorem upsertDelegation_ok {d : Delegation} (ok : tables.upsertDelegation d = .ok next) :
    ∃ relay row, hexDecode d.relayPubkey = some relay ∧ row.id = d.id ∧
      next = { tables with
        delegations := tables.delegations.insert (d.installationId, relay) row } := by
  obtain ⟨i, _, rest⟩ := bind_ok ok
  obtain ⟨_, _, rest⟩ := bind_ok rest
  obtain ⟨_, _, rest⟩ := bind_ok rest
  obtain ⟨_, _, rest⟩ := bind_ok rest
  obtain ⟨relay, isRelay, rest⟩ := bind_ok rest
  obtain ⟨_, _, rest⟩ := bind_ok rest
  obtain ⟨_, _, rest⟩ := bind_ok rest
  obtain ⟨_, _, rest⟩ := bind_ok rest
  obtain ⟨_, _, rest⟩ := bind_ok rest
  obtain ⟨_, _, same⟩ := bind_ok rest
  cases same
  exact ⟨relay, _, okOr_ok.mp isRelay, rfl, rfl⟩

theorem revokeDelegation_ok {relay : HexText} {generation : ℤ}
    (ok : tables.revokeDelegation id relay generation now = .ok next) :
    ∃ key old row, tables.delegations.get key = some old ∧ row.id = old.id ∧
      next = { tables with delegations := tables.delegations.insert key row } := by
  obtain ⟨_, _, rest⟩ := bind_ok ok
  obtain ⟨row, isRow, rest⟩ := bind_ok rest
  obtain ⟨_, _, same⟩ := bind_ok rest
  cases same
  exact ⟨_, row, { row with generation, revokedAt := some now }, okOr_ok.mp isRow,
    rfl, rfl⟩

theorem chargeQuota_ok {window quotaMax : ℤ} {quota : QuotaRow}
    (ok : tables.chargeQuota fingerprint now window quotaMax = .ok quota) :
    (quota = ⟨now, 1, now⟩ ∧
      ∀ row ∈ tables.endpointQuotas.get fingerprint, row.windowStartedAt ≤ now - window) ∨
    ∃ row, tables.endpointQuotas.get fingerprint = some row ∧ now - window < row.windowStartedAt ∧
      row.admitted < quotaMax ∧ quota = ⟨row.windowStartedAt, row.admitted + 1, now⟩ := by
  unfold Tables.chargeQuota at ok
  split at ok
  next absent =>
    cases ok
    refine .inl ⟨rfl, ?_⟩
    intro row member
    rw [absent] at member
    cases member
  next row isRow =>
    obtain ⟨_, _, rest⟩ := bind_ok ok
    split at rest
    next ended =>
      cases rest
      refine .inl ⟨rfl, ?_⟩
      intro found member
      rw [isRow] at member
      cases member
      exact ended
    next lasting =>
      obtain ⟨_, below, same⟩ := bind_ok rest
      cases same
      exact .inr ⟨row, isRow, Int.not_le.mp lasting, require_ok.mp below, rfl⟩

structure Granted (tables : Tables) (request : DeliveryRequest) (now : ℤ) (permit : DeliveryPermit)
    (next : Tables) (relay event : Bytes) (d : DelegationRow) (i : InstallationRow)
    (quota : QuotaRow) : Prop where
  decoded : hexDecode request.relay = some relay
  eventDecoded : hexDecode request.eventId = some event
  delegation : tables.delegations.get (permit.authority.installationId, relay) = some d
  delegationId : d.id = request.delegationId
  installation : tables.installations.get permit.authority.installationId = some i
  live : i.revokedAt = none ∧ now ≤ i.expiresAt
  epochs : i.endpointEpoch = request.epoch ∧ d.endpointEpoch = request.epoch
  generation : d.generation = request.generation
  valid : d.revokedAt = none ∧ d.notBefore ≤ now ∧ now ≤ d.expiresAt
  expiry : now ≤ request.requestExpiresAt ∧ request.requestExpiresAt ≤ d.expiresAt
  bounds : 1 ≤ request.quotaWindowSeconds ∧ 1 ≤ request.quotaMaxDeliveries
  charged : tables.chargeQuota i.tokenFingerprint now request.quotaWindowSeconds
    request.quotaMaxDeliveries = .ok quota
  unused : tables.deliveryAuthReplays.get (relay, event) = none
  fresh : tables.deliveryRequestReplays.get (relay, request.requestId) = none
  authority : permit.authority = {
    delegationId := request.delegationId
    installationId := permit.authority.installationId
    relayPubkey := request.relay
    profile := i.appProfile
    tokenCiphertext := i.tokenCiphertext
    endpointEpoch := request.epoch
    generation := request.generation
    expiresAt := d.expiresAt }
  relayPubkey : permit.relayPubkey = request.relay
  requestId : permit.requestId = request.requestId
  writes : next = { tables with
    endpointQuotas := tables.endpointQuotas.insert i.tokenFingerprint quota
    deliveryAuthReplays := tables.deliveryAuthReplays.insert (relay, event) request.requestExpiresAt
    deliveryRequestReplays :=
      tables.deliveryRequestReplays.insert (relay, request.requestId) request.requestExpiresAt }

theorem delegationById_some {entry : (Uuid × Bytes) × DelegationRow}
    (found : tables.delegationById id = some entry) :
    tables.delegations.get entry.1 = some entry.2 ∧ entry.2.id = id :=
  ⟨tables.delegations.get_eq_some.mpr (mem_of_find?_eq_some found),
    by have isId := find?_some found; exact of_decide_eq_true isId⟩

theorem authorizeDelivery_ok {request : DeliveryRequest} {permit : DeliveryPermit}
    (ok : tables.authorizeDelivery request now = .ok (permit, next)) :
    ∃ relay event d i quota, Granted tables request now permit next relay event d i quota := by
  obtain ⟨relay, isRelay, rest⟩ := bind_ok ok
  obtain ⟨event, isEvent, rest⟩ := bind_ok rest
  obtain ⟨_, _, rest⟩ := bind_ok rest
  obtain ⟨⟨⟨installationId, relayPubkey⟩, d⟩, isDelegation, rest⟩ := bind_ok rest
  obtain ⟨i, isInstallation, rest⟩ := bind_ok rest
  obtain ⟨_, unrevoked, rest⟩ := bind_ok rest
  obtain ⟨date, isDate, rest⟩ := bind_ok rest
  obtain ⟨_, unexpired, rest⟩ := bind_ok rest
  obtain ⟨bound, isBound, rest⟩ := bind_ok rest
  obtain ⟨_, valid, rest⟩ := bind_ok rest
  obtain ⟨_, expiry, rest⟩ := bind_ok rest
  obtain ⟨_, bounds, rest⟩ := bind_ok rest
  obtain ⟨quota, charged, rest⟩ := bind_ok rest
  obtain ⟨expiresAt, isExpiry, rest⟩ := bind_ok rest
  obtain ⟨_, _, rest⟩ := bind_ok rest
  obtain ⟨_, free, same⟩ := bind_ok rest
  cases dateAt_ok isDate
  cases bindDate_ok isBound
  cases bindDate_ok isExpiry
  obtain ⟨found, isId⟩ := delegationById_some (okOr_ok.mp isDelegation)
  obtain ⟨rfl, sameEpoch, sameGeneration, notRevoked, started, lasting⟩ := require_ok.mp valid
  have current := require_ok.mp unrevoked
  have clear := require_ok.mp free
  cases same
  exact ⟨relayPubkey, event, d, i, quota, {
    decoded := okOr_ok.mp isRelay
    eventDecoded := okOr_ok.mp isEvent
    delegation := found
    delegationId := isId
    installation := okOr_ok.mp isInstallation
    live := ⟨current.1, require_ok.mp unexpired⟩
    epochs := ⟨current.2, sameEpoch⟩
    generation := sameGeneration
    valid := ⟨notRevoked, started, lasting⟩
    expiry := require_ok.mp expiry
    bounds := require_ok.mp bounds
    charged
    unused := isNone_iff_eq_none.mp clear.1
    fresh := isNone_iff_eq_none.mp clear.2
    authority := rfl
    relayPubkey := rfl
    requestId := rfl
    writes := rfl }⟩

end Buzz.Gateway
