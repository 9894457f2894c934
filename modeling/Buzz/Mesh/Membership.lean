import Buzz.Library.Latest
import Buzz.Nostr.Event

/-! Mesh membership: a runtime keeps the newest record of every other one, and a digest tells a peer
what to send. -/

namespace Buzz.Mesh

open Nostr Library.Latest List

abbrev RuntimeId := FixedBytes 32

def u64Max : ℕ := 18446744073709551615

def saturatingSucc (version : ℕ) : ℕ := if version < u64Max then version + 1 else version

/-- `load` is the bits of the float. -/
structure GossipRecord where
  runtimeId : RuntimeId
  endpointAddrs : List String
  protoVersion : ℕ
  load : UInt32
  draining : Bool
  capabilities : List String
  version : ℕ
  heartbeatMillis : ℕ
  deriving DecidableEq

/-- `GossipRecord::new`, at a time of the runtime that calls it. -/
def GossipRecord.new (runtimeId : RuntimeId) (endpointAddrs : List String) (protoVersion now : ℕ) :
    GossipRecord :=
  ⟨runtimeId, endpointAddrs, protoVersion, 0, false, [], 1, now⟩

structure GossipDigestEntry where
  runtimeId : RuntimeId
  version : ℕ
  deriving DecidableEq

def recordKind : Versioned RuntimeId GossipRecord := ⟨GossipRecord.runtimeId, GossipRecord.version⟩

structure Table where
  records : List GossipRecord
  keyed : (records.map GossipRecord.runtimeId).Nodup

namespace Table

variable (self : Table)

def empty : Table := ⟨[], nodup_nil⟩

def get (runtimeId : RuntimeId) : Option GossipRecord :=
  self.records.find? (·.runtimeId = runtimeId)

def without (runtimeId : RuntimeId) : List GossipRecord :=
  self.records.filter (·.runtimeId ≠ runtimeId)

def insert (record : GossipRecord) : Table where
  records := record :: self.without record.runtimeId
  keyed := by
    rw [map_cons, nodup_cons]
    constructor
    · intro member
      obtain ⟨old, isOld, same⟩ := mem_map.mp member
      exact of_decide_eq_true (mem_filter.mp isOld).2 same
    · exact self.keyed.sublist (filter_sublist.map _)

def apply (record : GossipRecord) : Table :=
  if rank recordKind (self.get record.runtimeId) < record.version then self.insert record else self

variable {record : GossipRecord} {runtimeId : RuntimeId}

theorem get_eq_some :
    self.get runtimeId = some record ↔ record ∈ self.records ∧ record.runtimeId = runtimeId := by
  constructor
  · intro found
    have isId := find?_some found
    exact ⟨mem_of_find?_eq_some found, of_decide_eq_true isId⟩
  · rintro ⟨member, rfl⟩
    cases found : self.get record.runtimeId with
    | none =>
      have absent := find?_eq_none.mp found record member
      simp at absent
    | some other =>
      have isId := find?_some found
      rw [inj_on_of_nodup_map self.keyed (mem_of_find?_eq_some found) member
        (of_decide_eq_true isId)]

theorem get_insert :
    (self.insert record).get runtimeId =
      if runtimeId = record.runtimeId then some record else self.get runtimeId := by
  split
  next same => exact (get_eq_some _).mpr ⟨mem_cons_self, same.symm⟩
  next other =>
    apply Option.ext
    intro found
    rw [get_eq_some, get_eq_some]
    simp only [insert, without, mem_cons, mem_filter, decide_eq_true_eq]
    constructor
    · rintro ⟨rfl | ⟨member, -⟩, isId⟩
      · exact absurd isId.symm other
      · exact ⟨member, isId⟩
    · rintro ⟨member, isId⟩
      exact ⟨.inr ⟨member, fun same => other (isId.symm.trans same)⟩, isId⟩

theorem get_apply :
    (self.apply record).get = write recordKind self.get record := by
  funext runtimeId
  unfold apply write
  by_cases newer : rank recordKind (self.get record.runtimeId) < record.version
  · rw [if_pos newer, get_insert]
    by_cases same : runtimeId = record.runtimeId
    · subst same
      rw [if_pos rfl, if_pos ⟨rfl, newer⟩]
    · rw [if_neg same, if_neg fun both => same both.1]
  · rw [if_neg newer, if_neg]
    rintro ⟨rfl, lower⟩
    exact newer lower

end Table

/-- Sorted by the hex text of the runtime. -/
def digestOf (records : List GossipRecord) : List GossipDigestEntry :=
  (records.map fun record => ⟨record.runtimeId, record.version⟩).mergeSort fun first second =>
    first.runtimeId.toHex ≤ second.runtimeId.toHex

def remoteVersion (digest : List GossipDigestEntry) (runtimeId : RuntimeId) : Option ℕ :=
  (digest.reverse.find? (·.runtimeId = runtimeId)).map
    GossipDigestEntry.version

def deltaOf (records : List GossipRecord) (digest : List GossipDigestEntry) : List GossipRecord :=
  (records.filter fun record =>
    (remoteVersion digest record.runtimeId).all (· < record.version)).mergeSort
      fun first second => first.runtimeId.toHex ≤ second.runtimeId.toHex

/-- Not the id and the version. -/
structure LocalUpdate where
  update : GossipRecord → GossipRecord
  runtimeId : ∀ record, (update record).runtimeId = record.runtimeId
  version : ∀ record, (update record).version = record.version

def LocalUpdate.apply (self : LocalUpdate) (record : GossipRecord) (now : ℕ) : GossipRecord :=
  let updated := self.update record
  { updated with version := saturatingSucc updated.version, heartbeatMillis := now }

structure GossipState where
  localId : RuntimeId
  table : Table
  own : (table.get localId).isSome

structure ReadyRecord where
  runtimeId : RuntimeId
  runtimePubkey : String
  relayPubkey : String
  relaySig : String
  endpointAddrs : List String
  protoVersion : ℕ
  capabilities : List String

/-- `verify_attestation`, with the check of the signature over runtime and key. -/
def ReadyRecord.verifyAttestation (verifySchnorr : RuntimeId → String → String → Bool)
    (self : ReadyRecord) : Bool :=
  self.runtimePubkey = self.runtimeId.toHex &&
    verifySchnorr self.runtimeId self.relayPubkey self.relaySig

structure MeshMembership where
  localRuntimeId : RuntimeId
  localRecord : GossipRecord
  peers : Table
  expectedRelayPubkey : Option String
  own : localRecord.runtimeId = localRuntimeId
  guarded : peers.get localRuntimeId = none

namespace GossipState

variable (self : GossipState)

def new (record : GossipRecord) : GossipState where
  localId := record.runtimeId
  table := Table.empty.insert record
  own := by rw [Table.get_insert, if_pos rfl]; rfl

def view : RuntimeId → Option GossipRecord := self.table.get

def digest : List GossipDigestEntry := digestOf self.table.records

def deltaFor (digest : List GossipDigestEntry) : List GossipRecord := deltaOf self.table.records digest

theorem own_apply {table : Table} {localId : RuntimeId} (own : (table.get localId).isSome)
    (record : GossipRecord) : ((table.apply record).get localId).isSome := by
  rw [Table.get_apply]
  unfold write
  split
  · rfl
  · exact own

def applyRecord (record : GossipRecord) : GossipState :=
  ⟨self.localId, self.table.apply record, own_apply self.own record⟩

def applyDelta (records : List GossipRecord) : GossipState := records.foldl applyRecord self

/-- `update_local` of the own record. -/
def updateLocal (update : LocalUpdate) (now : ℕ) : GossipState where
  localId := self.localId
  table := self.table.insert (update.apply ((self.table.get self.localId).get self.own) now)
  own := by
    rw [Table.get_insert]
    split
    · rfl
    · exact self.own

end GossipState

namespace MeshMembership

variable (self : MeshMembership)

def new (record : GossipRecord) (expectedRelayPubkey : Option String) : MeshMembership :=
  ⟨record.runtimeId, record, .empty, expectedRelayPubkey, rfl, rfl⟩

def view (runtimeId : RuntimeId) : Option GossipRecord :=
  if runtimeId = self.localRuntimeId then some self.localRecord else self.peers.get runtimeId

/-- Its own record is not taken from others. -/
def applyGossipRecord (record : GossipRecord) : MeshMembership :=
  if other : record.runtimeId ≠ self.localRuntimeId then
    { self with
      peers := self.peers.apply record
      guarded := by
        rw [Table.get_apply]
        unfold write
        rw [if_neg fun both => other both.1.symm]
        exact self.guarded }
  else self

def applyDelta (records : List GossipRecord) : MeshMembership := records.foldl applyGossipRecord self

def seedRecord (ready : ReadyRecord) (now : ℕ) : GossipRecord :=
  { GossipRecord.new ready.runtimeId ready.endpointAddrs ready.protoVersion now with
    capabilities := ready.capabilities }

def applyReadyRecord (verifySchnorr : RuntimeId → String → String → Bool) (ready : ReadyRecord)
    (now : ℕ) : MeshMembership :=
  if ready.runtimeId = self.localRuntimeId then self
  else if self.expectedRelayPubkey ≠ some ready.relayPubkey then self
  else if !ready.verifyAttestation verifySchnorr then self
  else self.applyGossipRecord (seedRecord ready now)

def updateLocal (update : LocalUpdate) (now : ℕ) : MeshMembership :=
  { self with
    localRecord := update.apply self.localRecord now
    own := (update.runtimeId _).trans self.own }

def records : List GossipRecord := self.peers.records ++ [self.localRecord]

def digest : List GossipDigestEntry := digestOf self.records

def deltaFor (digest : List GossipDigestEntry) : List GossipRecord := deltaOf self.records digest

end MeshMembership

end Buzz.Mesh
