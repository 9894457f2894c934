import Buzz.Json
import Buzz.Nostr.Event

/-! Audit entries, the hash over their fields, and the rows that store them. -/

namespace Buzz.Audit

open Nostr

inductive AuditAction
  | eventCreated
  | eventDeleted
  | channelCreated
  | channelUpdated
  | channelDeleted
  | memberAdded
  | memberRemoved
  | authSuccess
  | authFailure
  | rateLimitExceeded
  | mediaUploaded
  deriving DecidableEq

namespace AuditAction

def asStr : AuditAction → String
  | .eventCreated => "event_created"
  | .eventDeleted => "event_deleted"
  | .channelCreated => "channel_created"
  | .channelUpdated => "channel_updated"
  | .channelDeleted => "channel_deleted"
  | .memberAdded => "member_added"
  | .memberRemoved => "member_removed"
  | .authSuccess => "auth_success"
  | .authFailure => "auth_failure"
  | .rateLimitExceeded => "rate_limit_exceeded"
  | .mediaUploaded => "media_uploaded"

def all : List AuditAction :=
  [.eventCreated, .eventDeleted, .channelCreated, .channelUpdated, .channelDeleted, .memberAdded,
    .memberRemoved, .authSuccess, .authFailure, .rateLimitExceeded, .mediaUploaded]

def fromStr (s : String) : Option AuditAction := all.find? (·.asStr == s)

theorem fromStr_asStr (action : AuditAction) : fromStr action.asStr = some action := by
  cases action <;> decide

end AuditAction

def toStoragePrecision (createdAt : ℤ) : ℤ := createdAt - createdAt % 1000

/-- The input of `log`. -/
structure NewAuditEntry where
  communityId : CommunityId
  action : AuditAction
  actorPubkey : Option Bytes
  objectId : Option String
  detail : Value

/-- `createdAt` is in nanoseconds. -/
structure AuditEntry where
  communityId : Uuid
  seq : ℤ
  hash : Bytes
  prevHash : Option Bytes
  action : AuditAction
  actorPubkey : Option Bytes
  objectId : Option String
  detail : Value
  createdAt : ℤ

/-- `createdAt` is in microseconds. -/
structure AuditRow where
  communityId : Uuid
  seq : ℤ
  hash : Bytes
  prevHash : Option Bytes
  action : String
  actorPubkey : Option Bytes
  objectId : Option String
  detail : Option Jsonb
  createdAt : ℤ

inductive AuditError
  | database
  | chainViolation (seq : ℤ)
  | hashMismatch (seq : ℤ)
  | unknownAction
  deriving DecidableEq

/-- An `Err`, or the panic of a column read that meets a NULL. -/
inductive Failure
  | error (cause : AuditError)
  | panicked
  deriving DecidableEq

def genesisHash : Bytes := List.replicate 32 0

/-- `i64::to_be_bytes`. -/
def i64ToBeBytes (n : ℤ) : Bytes :=
  (List.range 8).map fun index => UInt8.ofNat ((n % 2 ^ 64).toNat / 256 ^ (7 - index))

def utf8 (text : String) : Bytes := text.toList.flatMap String.utf8EncodeChar

def tagged : Option Bytes → Bytes
  | some bytes => 1 :: bytes
  | none => [0]

/-- SHA-256, the RFC 3339 printer and the float conversions of `serde_json`. -/
structure Externals where
  sha256 : Bytes → FixedBytes 32
  toRfc3339 : ℤ → String
  formatFloat : F64 → String
  readFloat : Numeric → F64

namespace Externals

/-- What `compute_hash` feeds the hasher, in its order. -/
def preimage (externals : Externals) (entry : AuditEntry) : Bytes :=
  entry.communityId.val ++ i64ToBeBytes entry.seq ++
    utf8 (externals.toRfc3339 (toStoragePrecision entry.createdAt)) ++ utf8 entry.action.asStr ++
    tagged entry.actorPubkey ++ tagged (entry.objectId.map utf8) ++
    utf8 (canonicalJson externals.formatFloat entry.detail.json) ++
    entry.prevHash.getD genesisHash

def computeHash (externals : Externals) (entry : AuditEntry) : Bytes :=
  (externals.sha256 (externals.preimage entry)).val

def rowToAuditEntry (externals : Externals) (row : AuditRow) : Except Failure AuditEntry :=
  match AuditAction.fromStr row.action with
  | none => .error (.error .unknownAction)
  | some action =>
    match row.detail with
    | none => .error .panicked
    | some detail =>
      .ok {
        communityId := row.communityId
        seq := row.seq
        hash := row.hash
        prevHash := row.prevHash
        action
        actorPubkey := row.actorPubkey
        objectId := row.objectId
        detail := detail.toValue externals.readFloat
        createdAt := row.createdAt * 1000 }

end Externals

def AuditEntry.toRow (self : AuditEntry) : AuditRow where
  communityId := self.communityId
  seq := self.seq
  hash := self.hash
  prevHash := self.prevHash
  action := self.action.asStr
  actorPubkey := self.actorPubkey
  objectId := self.objectId
  detail := some self.detail.toJsonb
  createdAt := self.createdAt / 1000

theorem stored_createdAt (createdAt : ℤ) :
    toStoragePrecision createdAt / 1000 * 1000 = toStoragePrecision createdAt := by
  unfold toStoragePrecision
  omega

/-- A row written from an entry at storage precision reads back as that entry. -/
theorem rowToAuditEntry_toRow (externals : Externals) (entry : AuditEntry) (createdAt : ℤ)
    (precise : entry.createdAt = toStoragePrecision createdAt)
    (kept : entry.detail.Kept externals.readFloat) :
    externals.rowToAuditEntry entry.toRow = .ok entry := by
  have detail := entry.detail.toValue_toJsonb externals.readFloat kept
  have stamp : entry.createdAt / 1000 * 1000 = entry.createdAt := by
    rw [precise, stored_createdAt]
  simp only [Externals.rowToAuditEntry, AuditEntry.toRow, AuditAction.fromStr_asStr, detail, stamp]

theorem rowToAuditEntry_columns {externals : Externals} {row : AuditRow} {entry : AuditEntry}
    (read : externals.rowToAuditEntry row = .ok entry) :
    entry.communityId = row.communityId ∧ entry.seq = row.seq ∧ entry.hash = row.hash ∧
      entry.prevHash = row.prevHash := by
  unfold Externals.rowToAuditEntry at read
  split at read
  · cases read
  · split at read
    · cases read
    · rw [Except.ok.injEq] at read
      rw [← read]
      exact ⟨rfl, rfl, rfl, rfl⟩

end Buzz.Audit
