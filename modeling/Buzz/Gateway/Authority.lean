import Buzz.Library.Keyed
import Buzz.Library.Results
import Buzz.Req.Query

/-! The authority store of the push gateway. -/

namespace Buzz.Gateway

open Nostr

inductive AppProfile
  | buzzIosProduction
  | buzzIosSandbox
  deriving DecidableEq

abbrev Fingerprint := FixedBytes 32

abbrev HexText := List Char

structure Challenge where
  id : Uuid
  value : FixedBytes 32
  expiresAt : ℤ
  deriving DecidableEq

structure NewInstallation where
  id : Uuid
  appAttestKeyId : Bytes
  appAttestPublicKey : Bytes
  assertionCounter : UInt32
  profile : AppProfile
  tokenCiphertext : Bytes
  tokenFingerprint : Fingerprint
  endpointEpoch : ℤ
  expiresAt : ℤ
  deriving DecidableEq

structure Installation extends NewInstallation where
  revoked : Bool
  deriving DecidableEq

structure Delegation where
  id : Uuid
  installationId : Uuid
  relayPubkey : HexText
  endpointEpoch : ℤ
  generation : ℤ
  notBefore : ℤ
  expiresAt : ℤ
  revoked : Bool
  deriving DecidableEq

structure DeliveryAuthority where
  delegationId : Uuid
  installationId : Uuid
  relayPubkey : HexText
  profile : AppProfile
  tokenCiphertext : Bytes
  endpointEpoch : ℤ
  generation : ℤ
  expiresAt : ℤ
  deriving DecidableEq

structure DeliveryPermit where
  authority : DeliveryAuthority
  relayPubkey : HexText
  requestId : Uuid
  deriving DecidableEq

inductive DeliveryDisposition
  | terminal
  | retryable
  deriving DecidableEq

inductive AuthorityError
  | rejected
  | unavailable
  deriving DecidableEq

structure DeliveryRequest where
  delegationId : Uuid
  relay : HexText
  epoch : ℤ
  generation : ℤ
  eventId : HexText
  requestId : Uuid
  requestExpiresAt : ℤ
  quotaWindowSeconds : ℤ
  quotaMaxDeliveries : ℤ
  deriving DecidableEq

inductive Call
  | putChallenge (challenge : Challenge)
  | consumeChallenge (id : Uuid) (value : FixedBytes 32)
  | createInstallation (installation : NewInstallation)
  | installation (id : Uuid)
  | advanceAssertionCounter (id : Uuid) (previous next : UInt32)
  | upsertDelegation (delegation : Delegation)
  | rotateEndpoint (id : Uuid) (expected new : ℤ) (ciphertext : Bytes) (fingerprint : Fingerprint)
  | revokeDelegation (id : Uuid) (relay : HexText) (generation : ℤ)
  | revokeInstallation (id : Uuid) (expected new : ℤ)
  | authorizeDelivery (request : DeliveryRequest)
  deriving DecidableEq

inductive Answer
  | done
  | installation (installation : Installation)
  | permit (permit : DeliveryPermit)
  deriving DecidableEq

def i64Max : ℤ := 9223372036854775807

def i64Min : ℤ := -9223372036854775808

/-- `expected.checked_add(1)`. -/
def nextEpoch (expected : ℤ) : Option ℤ :=
  if expected < i64Max then some (expected + 1) else none

def saturatingSub (first second : ℤ) : ℤ := max i64Min (min i64Max (first - second))

/-- `valid_relay_pubkey`. -/
def validRelayPubkey (text : HexText) : Bool :=
  text.length = 64 &&
    text.all fun c => decide ('0' ≤ c ∧ c ≤ '9') || decide ('a' ≤ c ∧ c ≤ 'f')

end Buzz.Gateway
