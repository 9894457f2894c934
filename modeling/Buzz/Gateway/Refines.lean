import Buzz.Gateway.Conformance
import Buzz.Library.Runs

/-! Sequences of calls on both stores, from empty ones, under a clock that does not go back. -/

namespace Buzz.Gateway

open Nostr Buzz.Req Library Library.Runs List

structure Stores where
  tables : Tables
  memory : MemoryState
  clock : ℤ

inductive Operation
  | call (call : Call)
  | finishDelivery (permit : DeliveryPermit) (disposition : DeliveryDisposition)
  deriving DecidableEq

structure Request where
  elapsed : ℕ
  operation : Operation
  deriving DecidableEq

namespace Stores

variable (sha256 : Bytes → FixedBytes 32) (self : Stores)

def initial (clock : ℤ) : Stores := ⟨.initial, .initial, clock⟩

def now (request : Request) : ℤ := self.clock + request.elapsed

def postgres (request : Request) : Except AuthorityError Answer × Tables :=
  self.tables.transaction <| match request.operation with
    | .call call => self.tables.call sha256 (self.now request) call
    | .finishDelivery permit disposition => do
      return (.done, ← self.tables.finishDelivery permit disposition)

def reference (request : Request) : Except AuthorityError Answer × MemoryState :=
  match request.operation with
  | .call call => self.memory.call (self.now request) call
  | .finishDelivery permit disposition => self.memory.finishDelivery permit disposition

def step (request : Request) : Stores where
  tables := (self.postgres sha256 request).2
  memory := (self.reference request).2
  clock := self.now request

def SameAnswer (request : Request) : Prop :=
  (self.postgres sha256 request).1 = (self.reference request).1

end Stores

def maxLifetime : ℤ := 31536000

def sealedSize (ciphertext : Bytes) : Prop := 1 ≤ ciphertext.length ∧ ciphertext.length ≤ 2048

/-- `endpoint_epoch.saturating_add(1)`. -/
def saturatingNext (epoch : ℤ) : ℤ := min (epoch + 1) i64Max

def Call.Valid (now : ℤ) : Call → Prop
  | .putChallenge challenge => challenge.expiresAt = now + 300
  | .consumeChallenge _ _ => True
  | .createInstallation n =>
    n.appAttestKeyId.length = 32 ∧
      (33 ≤ n.appAttestPublicKey.length ∧ n.appAttestPublicKey.length ≤ 256) ∧
      n.assertionCounter = 0 ∧ sealedSize n.tokenCiphertext ∧ n.endpointEpoch = 1 ∧
      now < n.expiresAt ∧ n.expiresAt ≤ now + maxLifetime
  | .installation _ => True
  | .advanceAssertionCounter _ _ _ => True
  | .upsertDelegation d =>
    validRelayPubkey d.relayPubkey ∧ 1 ≤ d.endpointEpoch ∧ 1 ≤ d.generation ∧
      d.notBefore ≤ now + 300 ∧ d.notBefore < d.expiresAt ∧ d.expiresAt ≤ now + maxLifetime ∧
      d.revoked = false
  | .rotateEndpoint _ expected new ciphertext _ =>
    1 ≤ expected ∧ new = saturatingNext expected ∧ sealedSize ciphertext
  | .revokeDelegation _ relay generation => validRelayPubkey relay ∧ 1 ≤ generation
  | .revokeInstallation _ expected new => 1 ≤ expected ∧ new = saturatingNext expected
  | .authorizeDelivery request =>
    validRelayPubkey request.relay ∧ 1 ≤ request.epoch ∧ 1 ≤ request.generation ∧
      (∃ eventId : EventId, request.eventId = hexEncode eventId.val) ∧
      now ≤ request.requestExpiresAt ∧
      (1 ≤ request.quotaWindowSeconds ∧ request.quotaWindowSeconds ≤ 86400) ∧
      (1 ≤ request.quotaMaxDeliveries ∧ request.quotaMaxDeliveries ≤ 10000)

def Operation.Valid (now : ℤ) : Operation → Prop
  | .call made => made.Valid now
  | .finishDelivery permit _ => validRelayPubkey permit.relayPubkey

/-- The cases that the reference vouches for. -/
def Call.Vouched (sha256 : Bytes → FixedBytes 32) (tables : Tables) (memory : MemoryState)
    (now : ℤ) : Call → Prop
  | .putChallenge challenge => tables.challenges.get challenge.id = none
  | .consumeChallenge id value => ∀ row, tables.challenges.get id = some row →
    row.challengeHash = sha256 value → now ≤ row.expiresAt →
    ∃ challenge, memory.challenges.get id = some challenge ∧ challenge.value = value
  | .createInstallation n => ∀ entry ∈ tables.installations.entries,
    entry.2.appAttestKeyId = n.appAttestKeyId →
    ∃ other ∈ tables.installations.entries, other.1 = n.id ∨
      other.2.appProfile = n.profile ∧ other.2.tokenFingerprint = n.tokenFingerprint
  | .upsertDelegation d => memory.delegationIds.get d.id = none ∧
    ∀ row, tables.installations.get d.installationId = some row → row.revokedAt = none →
      row.endpointEpoch = d.endpointEpoch → d.expiresAt ≤ row.expiresAt →
      timestamptzMin ≤ d.notBefore
  | .rotateEndpoint id expected _ _ fingerprint => ∀ row, tables.installations.get id = some row →
    row.endpointEpoch = expected → row.revokedAt = none →
    ∀ entry ∈ tables.installations.entries, entry.2.appProfile = row.appProfile →
      entry.2.tokenFingerprint = fingerprint → entry.1 = id
  | _ => True

def Operation.Vouched (sha256 : Bytes → FixedBytes 32) (tables : Tables) (memory : MemoryState)
    (now : ℤ) : Operation → Prop
  | .call made => made.Vouched sha256 tables memory now
  | .finishDelivery _ _ => True

section refinement

variable {sha256 : Bytes → FixedBytes 32} {stores : Stores} {request : Request}

structure Within (sha256 : Bytes → FixedBytes 32) (stores : Stores) (request : Request) : Prop where
  valid : request.operation.Valid (stores.now request)
  vouched : request.operation.Vouched sha256 stores.tables stores.memory (stores.now request)
  inRange : InRange (stores.now request)

theorem related_initial : Related sha256 .initial .initial where
  challenges := by
    intro id challenge present
    cases present
  installations _ := rfl
  checked := by
    intro id row present
    cases present
  owners := by
    intro profile fingerprint id
    constructor
    · intro present
      cases present
    · rintro ⟨row, present, _⟩
      cases present
  delegations _ _ := rfl
  named := by
    intro id key present
    cases present
  known := by
    intro key row present
    cases present
  dated := by
    intro key row present
    cases present
  authReplays _ _ := rfl
  requestReplays _ _ := rfl
  quotas _ := rfl

theorem call_conforms {tables : Tables} {memory : MemoryState} {now : ℤ}
    (related : Related sha256 tables memory) (inRange : InRange now) (call : Call)
    (valid : call.Valid now) (vouched : call.Vouched sha256 tables memory now) :
    Conforms sha256 tables (tables.call sha256 now call) (memory.call now call) := by
  cases call with
  | putChallenge challenge => exact putChallenge_conforms related inRange valid vouched
  | consumeChallenge id value => exact consumeChallenge_conforms related inRange vouched
  | createInstallation new =>
    obtain ⟨key, publicKey, _, ciphertext, epoch, later, soon⟩ := valid
    exact createInstallation_conforms related inRange key publicKey ciphertext epoch later soon
      vouched
  | installation id => exact installation_conforms related inRange
  | advanceAssertionCounter id previous counter => exact advanceAssertionCounter_conforms related
  | upsertDelegation delegation =>
    obtain ⟨relay, epoch, generation, _, ordered, soon, active⟩ := valid
    exact upsertDelegation_conforms related inRange relay epoch generation ordered soon active
      vouched.1 vouched.2
  | rotateEndpoint id expected new ciphertext fingerprint =>
    exact rotateEndpoint_conforms related valid.1 valid.2.2 vouched
  | revokeDelegation id relay generation => exact revokeDelegation_conforms related valid.1
  | revokeInstallation id expected new => exact revokeInstallation_conforms related valid.1
  | authorizeDelivery request =>
    obtain ⟨relay, _, _, ⟨eventId, isEvent⟩, _, window, positive, _⟩ := valid
    exact authorizeDelivery_conforms related inRange relay isEvent window positive

theorem step_conforms (related : Related sha256 stores.tables stores.memory)
    (within : Within sha256 stores request) : stores.SameAnswer sha256 request ∧
      Related sha256 (stores.step sha256 request).tables (stores.step sha256 request).memory := by
  obtain ⟨valid, vouched, inRange⟩ := within
  unfold Stores.SameAnswer Stores.step Stores.postgres Stores.reference
  cases isOperation : request.operation with
  | call call =>
    rw [isOperation] at valid vouched
    exact call_conforms related inRange call valid vouched
  | finishDelivery permit disposition =>
    rw [isOperation] at valid
    exact finishDelivery_conforms related valid disposition

/-- On every vouched sequence of calls the two stores answer alike. -/
theorem postgres_refines_memory (sha256 : Bytes → FixedBytes 32) (clock : ℤ)
    (requests : List Request)
    (within : EachStep (Stores.step sha256) (Within sha256) (.initial clock) requests) :
    EachStep (Stores.step sha256) (fun stores request => stores.SameAnswer sha256 request)
      (.initial clock) requests := by
  have preserved : ∀ (stores : Stores) request, Related sha256 stores.tables stores.memory →
      Within sha256 stores request →
      Related sha256 (stores.step sha256 request).tables (stores.step sha256 request).memory :=
    fun _ _ related holds => (step_conforms related holds).2
  exact EachStep.ensures preserved (fun _ _ related holds => (step_conforms related holds).1)
    related_initial within

end refinement

def sampleDigest (bytes : Bytes) : FixedBytes 32 :=
  if size : bytes.length = 32 then ⟨bytes, size⟩ else .fill 0

def sampleId (byte : UInt8) : Uuid := .fill byte

def sampleValue (byte : UInt8) : FixedBytes 32 := .fill byte

def sampleKey : HexText := replicate 64 '1'

def sampleCalls : List Request :=
  [⟨0, .call (.createInstallation {
      id := sampleId 1
      appAttestKeyId := replicate 32 1
      appAttestPublicKey := replicate 65 2
      assertionCounter := 0
      profile := .buzzIosProduction
      tokenCiphertext := [3]
      tokenFingerprint := sampleValue 4
      endpointEpoch := 1
      expiresAt := 2000 })⟩,
    ⟨1, .call (.upsertDelegation {
      id := sampleId 2
      installationId := sampleId 1
      relayPubkey := sampleKey
      endpointEpoch := 1
      generation := 1
      notBefore := 900
      expiresAt := 1500
      revoked := false })⟩,
    ⟨1, .call (.authorizeDelivery {
      delegationId := sampleId 2
      relay := sampleKey
      epoch := 1
      generation := 1
      eventId := hexEncode (sampleValue 5).val
      requestId := sampleId 3
      requestExpiresAt := 1100
      quotaWindowSeconds := 60
      quotaMaxDeliveries := 10 })⟩]

theorem sampleCalls_refine :
    EachStep (Stores.step sampleDigest) (fun stores request => stores.SameAnswer sampleDigest request)
      (.initial 1000) sampleCalls := by
  refine postgres_refines_memory sampleDigest 1000 sampleCalls ⟨?_, ?_, ?_, trivial⟩
  · exact ⟨⟨by decide, by decide, rfl, ⟨by decide, by decide⟩, rfl, by decide, by decide⟩,
      fun _ member _ => absurd member not_mem_nil, by decide, by decide⟩
  · exact ⟨⟨by decide, by decide, by decide, by decide, by decide, by decide, rfl⟩,
      ⟨rfl, fun _ _ _ _ _ => by decide⟩, by decide, by decide⟩
  · exact ⟨⟨by decide, by decide, by decide, ⟨sampleValue 5, rfl⟩, by decide, by decide, by decide⟩,
      trivial, by decide, by decide⟩

def sampleMistaken : List Request :=
  [⟨0, .call (.putChallenge ⟨sampleId 1, sampleValue 1, 1300⟩)⟩,
    ⟨1, .call (.consumeChallenge (sampleId 1) (sampleValue 2))⟩,
    ⟨1, .call (.consumeChallenge (sampleId 1) (sampleValue 1))⟩]

theorem sampleMistaken_differ : ¬∀ (sha256 : Bytes → FixedBytes 32) (clock : ℤ)
    (requests : List Request),
    EachStep (Stores.step sha256)
      (fun stores request => request.operation.Valid (stores.now request)) (.initial clock) requests →
    EachStep (Stores.step sha256) (fun stores request => stores.SameAnswer sha256 request)
      (.initial clock) requests := by
  intro refines
  obtain ⟨_, _, last, _⟩ :=
    refines sampleDigest 1000 sampleMistaken ⟨rfl, trivial, trivial, trivial⟩
  have differ : (Except.ok Answer.done : Except AuthorityError Answer) = .error .rejected := last
  cases differ

end Buzz.Gateway
