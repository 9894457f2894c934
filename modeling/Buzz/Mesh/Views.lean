import Buzz.Mesh.Membership

/-! What an operation does to the records that a runtime knows, on either implementation. -/

namespace Buzz.Mesh

open Nostr Library.Latest List

inductive Node
  | mesh (membership : MeshMembership)
  | gossip (state : GossipState)

namespace Node

def runtimeId : Node → RuntimeId
  | .mesh membership => membership.localRuntimeId
  | .gossip state => state.localId

def view : Node → RuntimeId → Option GossipRecord
  | .mesh membership => membership.view
  | .gossip state => state.view

def records : Node → List GossipRecord
  | .mesh membership => membership.records
  | .gossip state => state.table.records

def digest : Node → List GossipDigestEntry
  | .mesh membership => membership.digest
  | .gossip state => state.digest

def deltaFor (digest : List GossipDigestEntry) : Node → List GossipRecord
  | .mesh membership => membership.deltaFor digest
  | .gossip state => state.deltaFor digest

def applyDelta (records : List GossipRecord) : Node → Node
  | .mesh membership => .mesh (membership.applyDelta records)
  | .gossip state => .gossip (state.applyDelta records)

def updateLocal (update : LocalUpdate) (now : ℕ) : Node → Node
  | .mesh membership => .mesh (membership.updateLocal update now)
  | .gossip state => .gossip (state.updateLocal update now)

def applyReadyRecord (verifySchnorr : RuntimeId → String → String → Bool) (ready : ReadyRecord)
    (now : ℕ) : Node → Node
  | .mesh membership => .mesh (membership.applyReadyRecord verifySchnorr ready now)
  | .gossip state => .gossip state

end Node

variable {node other : Node} {record : GossipRecord} {records : List GossipRecord}

section views

variable {membership : MeshMembership} {state : GossipState} {runtimeId : RuntimeId}

theorem mesh_view_eq_some : membership.view runtimeId = some record ↔
    record ∈ membership.records ∧ record.runtimeId = runtimeId := by
  unfold MeshMembership.view MeshMembership.records
  rw [mem_append, mem_singleton]
  constructor
  · intro known
    split at known
    next isLocal =>
      cases known
      exact ⟨.inr rfl, membership.own.trans isLocal.symm⟩
    · have found := (Table.get_eq_some _).mp known
      exact ⟨.inl found.1, found.2⟩
  · rintro ⟨member | rfl, rfl⟩
    · have found := (Table.get_eq_some membership.peers).mpr ⟨member, rfl⟩
      rw [if_neg]
      · exact found
      · intro isLocal
        rw [isLocal, membership.guarded] at found
        cases found
    · rw [if_pos membership.own]

theorem view_eq_some : node.view runtimeId = some record ↔
    record ∈ node.records ∧ record.runtimeId = runtimeId := by
  cases node with
  | mesh membership => exact mesh_view_eq_some
  | gossip state => exact Table.get_eq_some _

theorem view_self (known : node.view runtimeId = some record) : record.runtimeId = runtimeId :=
  (view_eq_some.mp known).2

theorem own_isSome : ∃ record, node.view node.runtimeId = some record := by
  cases node with
  | mesh membership => exact ⟨_, if_pos rfl⟩
  | gossip state => exact Option.isSome_iff_exists.mp state.own

theorem state_applyDelta_view :
    (state.applyDelta records).view = writeAll recordKind state.view records := by
  induction records generalizing state with
  | nil => rfl
  | cons record rest ih =>
    calc
      _ = writeAll recordKind (state.applyRecord record).view rest := ih
      _ = writeAll recordKind (write recordKind state.view record) rest := by
        rw [GossipState.view, GossipState.applyRecord, Table.get_apply]
        rfl
      _ = _ := rfl

theorem applyGossipRecord_id :
    (membership.applyGossipRecord record).localRuntimeId = membership.localRuntimeId := by
  unfold MeshMembership.applyGossipRecord
  split <;> rfl

theorem mesh_applyGossipRecord_view :
    (membership.applyGossipRecord record).view =
      if record.runtimeId = membership.localRuntimeId then membership.view
      else write recordKind membership.view record := by
  unfold MeshMembership.applyGossipRecord
  by_cases isLocal : record.runtimeId = membership.localRuntimeId
  · rw [dif_neg (not_not.mpr isLocal), if_pos isLocal]
  · rw [dif_pos isLocal, if_neg isLocal]
    funext key
    unfold write
    by_cases own : key = membership.localRuntimeId
    · have kept : membership.view key = some membership.localRecord := if_pos own
      rw [if_neg fun both => isLocal (both.1.symm.trans own), kept]
      exact if_pos own
    · have seen : membership.view key = membership.peers.get key := if_neg own
      rw [seen]
      apply (if_neg own).trans
      rw [Table.get_apply]
      rfl

def foreign (localRuntimeId : RuntimeId) (records : List GossipRecord) : List GossipRecord :=
  records.filter (·.runtimeId ≠ localRuntimeId)

theorem mesh_applyDelta_view : (membership.applyDelta records).view =
    writeAll recordKind membership.view (foreign membership.localRuntimeId records) := by
  induction records generalizing membership with
  | nil => rfl
  | cons record rest ih =>
    have step : (membership.applyDelta (record :: rest)).view = writeAll recordKind
        (membership.applyGossipRecord record).view (foreign membership.localRuntimeId rest) := by
      have later := @ih (membership.applyGossipRecord record)
      rw [applyGossipRecord_id] at later
      exact later
    rw [step, mesh_applyGossipRecord_view]
    unfold foreign
    by_cases isLocal : record.runtimeId = membership.localRuntimeId
    · rw [if_pos isLocal, filter_cons_of_neg]
      simp [isLocal]
    · rw [if_neg isLocal, filter_cons_of_pos]
      · rfl
      · simp [isLocal]

def Node.taken (records : List GossipRecord) : Node → List GossipRecord
  | .mesh membership => foreign membership.localRuntimeId records
  | .gossip _ => records

theorem applyDelta_view :
    (node.applyDelta records).view = writeAll recordKind node.view (node.taken records) := by
  cases node with
  | mesh membership => exact mesh_applyDelta_view
  | gossip state => exact state_applyDelta_view

theorem applyDelta_id : (node.applyDelta records).runtimeId = node.runtimeId := by
  cases node with
  | mesh membership =>
    induction records generalizing membership with
    | nil => rfl
    | cons record rest ih => exact (ih _).trans applyGossipRecord_id
  | gossip state =>
    induction records generalizing state with
    | nil => rfl
    | cons record rest ih => exact ih _

theorem taken_sublist : (node.taken records).Sublist records := by
  cases node with
  | mesh membership => exact filter_sublist
  | gossip state => exact .refl _

variable {more : List GossipRecord}

theorem taken_perm (perm : records.Perm more) :
    (node.taken records).Perm (node.taken more) := by
  cases node with
  | mesh membership => exact perm.filter _
  | gossip state => exact perm

theorem mem_taken (member : record ∈ records) (other : record.runtimeId ≠ node.runtimeId) :
    record ∈ node.taken records := by
  cases node with
  | mesh membership => exact mem_filter.mpr ⟨member, decide_eq_true other⟩
  | gossip state => exact member

theorem applyDelta_append :
    (node.applyDelta records).applyDelta more = node.applyDelta (records ++ more) := by
  cases node with
  | mesh membership =>
    exact congrArg Node.mesh foldl_append.symm
  | gossip state =>
    exact congrArg Node.gossip foldl_append.symm

end views

section deltas

variable {digest : List GossipDigestEntry} {entry : GossipDigestEntry}

theorem mem_digestOf : entry ∈ digestOf records ↔
    ∃ record ∈ records, entry = ⟨record.runtimeId, record.version⟩ := by
  simp only [digestOf, mem_mergeSort, mem_map, eq_comm]

theorem mem_deltaOf : record ∈ deltaOf records digest ↔
    record ∈ records ∧
      (remoteVersion digest record.runtimeId).all (· < record.version) =
        true := by
  simp only [deltaOf, mem_mergeSort, mem_filter]

theorem mem_digest : entry ∈ node.digest ↔
    ∃ record ∈ node.records, entry = ⟨record.runtimeId, record.version⟩ := by
  cases node <;> exact mem_digestOf

theorem mem_deltaFor : record ∈ node.deltaFor digest ↔
    record ∈ node.records ∧
      (remoteVersion digest record.runtimeId).all (· < record.version) =
        true := by
  cases node <;> exact mem_deltaOf

theorem remoteVersion_digest (runtimeId : RuntimeId) :
    remoteVersion node.digest runtimeId = (node.view runtimeId).map GossipRecord.version := by
  unfold remoteVersion
  cases found : node.digest.reverse.find? fun entry => decide (entry.runtimeId = runtimeId) with
  | none =>
    cases known : node.view runtimeId with
    | none => rfl
    | some record =>
      obtain ⟨member, isId⟩ := view_eq_some.mp known
      have absent := find?_eq_none.mp found ⟨record.runtimeId, record.version⟩
        (mem_reverse.mpr (mem_digest.mpr ⟨record, member, rfl⟩))
      simp [isId] at absent
  | some entry =>
    have isId := find?_some found
    obtain ⟨record, member, rfl⟩ :=
      mem_digest.mp (mem_reverse.mp (mem_of_find?_eq_some found))
    rw [view_eq_some.mpr ⟨member, of_decide_eq_true isId⟩]
    rfl

theorem isDelta : IsDelta recordKind node.view other.view (node.deltaFor other.digest) where
  held record member := view_eq_some.mpr ⟨(mem_deltaFor.mp member).1, rfl⟩
  all runtimeId record known := by
    obtain ⟨member, isId⟩ := view_eq_some.mp known
    refine ⟨isId, fun behind => mem_deltaFor.mpr ⟨member, ?_⟩⟩
    rw [remoteVersion_digest, isId]
    cases held : other.view runtimeId with
    | none => rfl
    | some old =>
      rw [held, rank_some] at behind
      exact decide_eq_true (WithBot.coe_lt_coe.mp behind)

end deltas

end Buzz.Mesh
