import Buzz.Library.Runs
import Buzz.Mesh.Views

/-! Membership tables that seed, bump and gossip in any order. -/

namespace Buzz.Mesh

open Nostr Library.Latest Library.Runs List

/-- A delta may be delivered at any later time, more than once or never. -/
structure System where
  nodes : RuntimeId → Option Node
  deltas : List (List GossipRecord)

inductive Step
  | joinMesh (runtimeId : RuntimeId) (endpointAddrs : List String) (protoVersion now : ℕ)
      (expectedRelayPubkey : Option String)
  | joinState (runtimeId : RuntimeId) (endpointAddrs : List String) (protoVersion now : ℕ)
  | applyReadyRecord (runtimeId : RuntimeId) (ready : ReadyRecord) (now : ℕ)
  | updateLocal (runtimeId : RuntimeId) (update : LocalUpdate) (now : ℕ)
  | answer (runtimeId : RuntimeId) (digest : List GossipDigestEntry)
  | applyDelta (runtimeId : RuntimeId) (index : ℕ)

namespace System

variable (verifySchnorr : RuntimeId → String → String → Bool) (self : System)

def start : System := ⟨fun _ => none, []⟩

def setNode (runtimeId : RuntimeId) (node : Node) : System :=
  { self with nodes := fun other => if other = runtimeId then some node else self.nodes other }

/-- No other runtime has the id. -/
def join (runtimeId : RuntimeId) (node : Node) : System :=
  match self.nodes runtimeId with
  | none => self.setNode runtimeId node
  | some _ => self

def change (runtimeId : RuntimeId) (next : Node → Node) : System :=
  match self.nodes runtimeId with
  | none => self
  | some node => self.setNode runtimeId (next node)

def step : Step → System
  | .joinMesh runtimeId endpointAddrs protoVersion now expectedRelayPubkey =>
    self.join runtimeId <| .mesh <|
      .new (.new runtimeId endpointAddrs protoVersion now) expectedRelayPubkey
  | .joinState runtimeId endpointAddrs protoVersion now =>
    self.join runtimeId (.gossip (.new (.new runtimeId endpointAddrs protoVersion now)))
  | .applyReadyRecord runtimeId ready now =>
    self.change runtimeId (Node.applyReadyRecord verifySchnorr ready now)
  | .updateLocal runtimeId update now => self.change runtimeId (Node.updateLocal update now)
  | .answer runtimeId digest =>
    match self.nodes runtimeId with
    | none => self
    | some node => { self with deltas := self.deltas ++ [node.deltaFor digest] }
  | .applyDelta runtimeId index =>
    match self.deltas[index]? with
    | none => self
    | some records => self.change runtimeId (Node.applyDelta records)

end System

def Node.version (self : Node) (runtimeId : RuntimeId) : WithBot ℕ :=
  rank recordKind (self.view runtimeId)

def Settled (version : ℕ) : Prop := 2 ≤ version ∧ version < u64Max

def Node.applyDeltas (deltas : List (List GossipRecord)) (self : Node) : Node :=
  deltas.foldl (fun node records => node.applyDelta records) self

structure System.Converges (system : System) : Prop where
  exchange : ∀ first second node other, first ≠ second → system.nodes first = some node →
    system.nodes second = some other → ∀ runtimeId,
      (node.applyDelta (other.deltaFor node.digest)).version runtimeId =
          max (node.version runtimeId) (other.version runtimeId) ∧
        (other.applyDelta (node.deltaFor other.digest)).version runtimeId =
          max (node.version runtimeId) (other.version runtimeId)
  idempotent : ∀ (node : Node) (records : List GossipRecord),
    ((node.applyDelta records).applyDelta records).view = (node.applyDelta records).view
  order : ∀ (node : Node) (deltas more : List (List GossipRecord)), deltas.Perm more →
    ∀ runtimeId, (node.applyDeltas deltas).version runtimeId =
      (node.applyDeltas more).version runtimeId
  settledOrder : ∀ runtimeId node, system.nodes runtimeId = some node →
    ∀ deltas more : List (List GossipRecord), deltas.Perm more →
      (∀ delta ∈ deltas, delta ∈ system.deltas) → ∀ about record,
        (node.applyDeltas deltas).view about = some record → Settled record.version →
          (node.applyDeltas more).view about = some record
  equal : ∀ first second node other about record held, system.nodes first = some node →
    system.nodes second = some other → node.view about = some record →
      other.view about = some held → record.version = held.version → Settled record.version →
        record = held

def System.Raises (before after : System) : Prop :=
  ∀ runtimeId node, before.nodes runtimeId = some node → ∃ next,
    after.nodes runtimeId = some next ∧ ∀ about, node.version about ≤ next.version about

section operations

variable {node other : Node} {record : GossipRecord} {records : List GossipRecord}
  {runtimeId : RuntimeId} {verifySchnorr : RuntimeId → String → String → Bool}

theorem version_applyDelta {deltas : List (List GossipRecord)} :
    (node.applyDeltas deltas).view = writeAll recordKind node.view (node.taken deltas.flatten) := by
  have flat : node.applyDeltas deltas = node.applyDelta deltas.flatten := by
    induction deltas generalizing node with
    | nil => cases node <;> rfl
    | cons delta rest ih =>
      calc
        _ = (node.applyDelta delta).applyDelta rest.flatten := ih
        _ = _ := applyDelta_append
  rw [flat, applyDelta_view]

theorem updateLocal_view {update : LocalUpdate} {now : ℕ} {own : GossipRecord}
    (isOwn : node.view node.runtimeId = some own) :
    (node.updateLocal update now).view = fun about =>
      if about = node.runtimeId then some (update.apply own now) else node.view about := by
  funext about
  cases node with
  | mesh membership =>
    have same : own = membership.localRecord := by
      have held : (Node.mesh membership).view (Node.mesh membership).runtimeId =
          some membership.localRecord := if_pos rfl
      exact Option.some.inj (isOwn.symm.trans held)
    subst same
    by_cases isLocal : about = membership.localRuntimeId
    · exact (if_pos isLocal).trans (if_pos isLocal).symm
    · exact (if_neg isLocal).trans ((if_neg isLocal).trans (if_neg isLocal)).symm
  | gossip state =>
    have same : (state.table.get state.localId).get state.own = own := Option.get_of_eq_some _ isOwn
    have isId : (update.apply own now).runtimeId = state.localId :=
      (update.runtimeId own).trans (view_self isOwn)
    calc
      _ = (state.table.insert (update.apply own now)).get about := by
        rw [← same]
        rfl
      _ = _ := by
        rw [Table.get_insert, isId]
        rfl

theorem applyReadyRecord_view {ready : ReadyRecord} {now : ℕ} :
    (node.applyReadyRecord verifySchnorr ready now).view = node.view ∨
      (node.applyReadyRecord verifySchnorr ready now).view =
        write recordKind node.view (MeshMembership.seedRecord ready now) := by
  cases node with
  | gossip state => exact .inl rfl
  | mesh membership =>
    unfold Node.applyReadyRecord MeshMembership.applyReadyRecord
    dsimp only
    split
    · exact .inl rfl
    next other =>
      split
      · exact .inl rfl
      · split
        · exact .inl rfl
        · exact .inr (mesh_applyGossipRecord_view.trans (if_neg other))

end operations

section invariant

def System.Used (system : System) (record : GossipRecord) : Prop :=
  (∃ runtimeId node, system.nodes runtimeId = some node ∧
    node.view record.runtimeId = some record) ∨ ∃ delta ∈ system.deltas, record ∈ delta

structure System.Sound (system : System) : Prop where
  ident : ∀ runtimeId node, system.nodes runtimeId = some node → node.runtimeId = runtimeId
  first : ∀ runtimeId node, system.nodes runtimeId = some node → ((1 : ℕ) : WithBot ℕ) ≤ node.version runtimeId
  bounded : ∀ record, system.Used record → ∀ node, system.nodes record.runtimeId = some node →
    record.version ≤ node.version record.runtimeId
  seeded : ∀ record, system.Used record → system.nodes record.runtimeId = none → record.version ≤ 1
  agree : Agree recordKind Settled system.Used

/-- Nodes hold no lower version of themselves, and unused records are fresh. -/
structure Extends (before after : System) (fresh : GossipRecord → Prop) : Prop where
  ident : ∀ runtimeId node, after.nodes runtimeId = some node → node.runtimeId = runtimeId
  used : ∀ record, after.Used record → before.Used record ∨ fresh record
  kept : ∀ runtimeId node, before.nodes runtimeId = some node → ∃ next,
    after.nodes runtimeId = some next ∧ node.version runtimeId ≤ next.version runtimeId
  joined : ∀ runtimeId node, before.nodes runtimeId = none → after.nodes runtimeId = some node →
    ((1 : ℕ) : WithBot ℕ) ≤ node.version runtimeId
  bounded : ∀ record, fresh record → record.version ≤ 1 ∨ ∃ node,
    after.nodes record.runtimeId = some node ∧ record.version ≤ node.version record.runtimeId
  agree : ∀ record other, fresh record → before.Used other ∨ fresh other →
    record.runtimeId = other.runtimeId → record.version = other.version → Settled record.version →
      record = other

variable {system after : System} {fresh : GossipRecord → Prop}

theorem System.Sound.extend (sound : system.Sound) (step : Extends system after fresh) :
    after.Sound where
  ident := step.ident
  first runtimeId node isNode := by
    cases known : system.nodes runtimeId with
    | none => exact step.joined runtimeId node known isNode
    | some old =>
      obtain ⟨next, isNext, raised⟩ := step.kept runtimeId old known
      cases isNode.symm.trans isNext
      exact (sound.first runtimeId old known).trans raised
  bounded record used node isNode := by
    have atLeast : ((1 : ℕ) : WithBot ℕ) ≤ node.version record.runtimeId := by
      cases known : system.nodes record.runtimeId with
      | none => exact step.joined _ node known isNode
      | some old =>
        obtain ⟨next, isNext, raised⟩ := step.kept _ old known
        cases isNode.symm.trans isNext
        exact (sound.first _ old known).trans raised
    rcases step.used record used with before | isFresh
    · cases known : system.nodes record.runtimeId with
      | none =>
        exact (WithBot.coe_le_coe.mpr (sound.seeded record before known)).trans atLeast
      | some old =>
        obtain ⟨next, isNext, raised⟩ := step.kept _ old known
        cases isNode.symm.trans isNext
        exact (sound.bounded record before old known).trans raised
    · rcases step.bounded record isFresh with low | ⟨other, isOther, below⟩
      · exact (WithBot.coe_le_coe.mpr low).trans atLeast
      · cases isNode.symm.trans isOther
        exact below
  seeded record used noNode := by
    have noneBefore : system.nodes record.runtimeId = none := by
      cases known : system.nodes record.runtimeId with
      | none => rfl
      | some old =>
        obtain ⟨next, isNext, -⟩ := step.kept _ old known
        cases noNode.symm.trans isNext
    rcases step.used record used with before | isFresh
    · exact sound.seeded record before noneBefore
    · rcases step.bounded record isFresh with low | ⟨other, isOther, -⟩
      · exact low
      · cases noNode.symm.trans isOther
  agree record other used otherUsed sameKey sameVersion settled := by
    rcases step.used record used with before | isFresh
    · rcases step.used other otherUsed with otherBefore | otherFresh
      · exact sound.agree record other before otherBefore sameKey sameVersion settled
      · have sameVersions : record.version = other.version := sameVersion
        have otherSettled : Settled other.version := by
          rw [← sameVersions]
          exact settled
        exact (step.agree other record otherFresh (.inl before) sameKey.symm sameVersion.symm
          otherSettled).symm
    · exact step.agree record other isFresh (step.used other otherUsed) sameKey sameVersion settled

variable {runtimeId : RuntimeId}

theorem nodes_setNode {about : RuntimeId} {node : Node} :
    (system.setNode runtimeId node).nodes about =
      if about = runtimeId then some node else system.nodes about := rfl

theorem Extends.setNode {node next : Node} (sound : system.Sound)
    (isNode : system.nodes runtimeId = some node) (sameId : next.runtimeId = node.runtimeId)
    (raised : node.version runtimeId ≤ next.version runtimeId)
    (used : ∀ record, next.view record.runtimeId = some record → system.Used record ∨ fresh record)
    (bounded : ∀ record, fresh record → record.version ≤ 1 ∨ ∃ node,
      (system.setNode runtimeId next).nodes record.runtimeId = some node ∧
        record.version ≤ node.version record.runtimeId)
    (agree : ∀ record other, fresh record → system.Used other ∨ fresh other →
      record.runtimeId = other.runtimeId → record.version = other.version →
        Settled record.version → record = other) :
    Extends system (system.setNode runtimeId next) fresh where
  ident about found isFound := by
    rw [nodes_setNode] at isFound
    split at isFound
    next same =>
      cases isFound
      rw [sameId, same, sound.ident runtimeId node isNode]
    · exact sound.ident about found isFound
  used record isUsed := by
    rcases isUsed with ⟨about, found, isFound, holds⟩ | sent
    · rw [nodes_setNode] at isFound
      split at isFound
      · cases isFound
        exact used record holds
      · exact .inl (.inl ⟨about, found, isFound, holds⟩)
    · exact .inl (.inr sent)
  kept about found isFound := by
    rw [nodes_setNode]
    by_cases same : about = runtimeId
    · subst same
      cases isNode.symm.trans isFound
      exact ⟨next, if_pos rfl, raised⟩
    · exact ⟨found, (if_neg same).trans isFound, le_refl _⟩
  joined about found noNode isFound := by
    rw [nodes_setNode] at isFound
    split at isFound
    next same =>
      rw [same, isNode] at noNode
      cases noNode
    · rw [noNode] at isFound
      cases isFound
  bounded
  agree

end invariant

section steps

variable {system : System} {runtimeId : RuntimeId} {node : Node}
  {verifySchnorr : RuntimeId → String → String → Bool}

namespace System.Sound

theorem start : System.start.Sound where
  ident _ _ isNode := nomatch isNode
  first _ _ isNode := nomatch isNode
  bounded record used := by
    rcases used with ⟨_, _, isNode, _⟩ | ⟨_, member, _⟩
    · cases isNode
    · cases member
  seeded record used := by
    rcases used with ⟨_, _, isNode, _⟩ | ⟨_, member, _⟩
    · cases isNode
    · cases member
  agree record _ used := by
    rcases used with ⟨_, _, isNode, _⟩ | ⟨_, member, _⟩
    · cases isNode
    · cases member

variable {record : GossipRecord}

theorem not_settled (low : record.version ≤ 1) : ¬ Settled record.version := fun settled => by
  have least := settled.1
  omega

theorem setNode_low (sound : system.Sound) {next : Node}
    (isNode : system.nodes runtimeId = some node) (sameId : next.runtimeId = node.runtimeId)
    (raised : node.version runtimeId ≤ next.version runtimeId)
    (used : ∀ record, next.view record.runtimeId = some record →
      system.Used record ∨ record.version ≤ 1) : (system.setNode runtimeId next).Sound :=
  sound.extend <| .setNode sound isNode sameId raised used (fun _ low => .inl low)
    fun _ _ low _ _ _ settled => absurd settled (not_settled low)

variable {about : RuntimeId}

theorem used_of_view
    (isNode : system.nodes runtimeId = some node) (holds : node.view about = some record) :
    system.Used record :=
  .inl ⟨runtimeId, node, isNode, (view_self holds).symm ▸ holds⟩

theorem join (sound : system.Sound) (sameId : node.runtimeId = runtimeId)
    (only : ∀ about record, node.view about = some record → record.version = 1) :
    (system.join runtimeId node).Sound := by
  unfold System.join
  cases known : system.nodes runtimeId with
  | some old => exact sound
  | none =>
    have low : ∀ record, ((system.setNode runtimeId node).Used record →
        system.Used record ∨ record.version ≤ 1) := by
      rintro record (⟨about, found, isFound, holds⟩ | sent)
      · rw [nodes_setNode] at isFound
        split at isFound
        · cases isFound
          exact .inr (only _ _ holds).le
        · exact .inl (.inl ⟨about, found, isFound, holds⟩)
      · exact .inl (.inr sent)
    refine sound.extend ⟨?_, low, ?_, ?_, fun _ low => .inl low,
      fun _ _ low _ _ _ settled => absurd settled (not_settled low)⟩
    · intro about found isFound
      rw [nodes_setNode] at isFound
      split at isFound
      next same =>
        cases isFound
        exact sameId.trans same.symm
      · exact sound.ident about found isFound
    · intro about found isFound
      have other : about ≠ runtimeId := by
        rintro rfl
        cases isFound.symm.trans known
      exact ⟨found, (if_neg other).trans isFound, le_refl _⟩
    · intro about found noNode isFound
      rw [nodes_setNode] at isFound
      split at isFound
      next same =>
        cases isFound
        obtain ⟨own, isOwn⟩ := @own_isSome node
        rw [same, ← sameId, Node.version, isOwn, rank_some]
        exact WithBot.coe_le_coe.mpr (only _ _ isOwn).ge
      · rw [noNode] at isFound
        cases isFound

theorem applyReadyRecord (sound : system.Sound) (isNode : system.nodes runtimeId = some node)
    (ready : ReadyRecord) (now : ℕ) :
    (system.setNode runtimeId (node.applyReadyRecord verifySchnorr ready now)).Sound := by
  have sameId : (node.applyReadyRecord verifySchnorr ready now).runtimeId = node.runtimeId := by
    cases node with
    | gossip state => rfl
    | mesh membership =>
      unfold Node.applyReadyRecord MeshMembership.applyReadyRecord
      dsimp only
      split
      · rfl
      · split
        · rfl
        · split
          · rfl
          · exact applyGossipRecord_id
  rcases @applyReadyRecord_view node verifySchnorr ready now with same | written
  · apply sound.setNode_low isNode sameId
    · rw [Node.version, Node.version, same]
    · intro record holds
      exact .inl (used_of_view isNode (same ▸ holds))
  · apply sound.setNode_low isNode sameId
    · rw [Node.version, Node.version, written, rank_write]
      exact le_max_left _ _
    · intro record holds
      rw [written] at holds
      unfold write at holds
      split at holds
      · cases holds
        exact .inr (le_refl 1)
      · exact .inl (used_of_view isNode holds)

theorem applyDelta (sound : system.Sound) (isNode : system.nodes runtimeId = some node)
    {records : List GossipRecord} (sent : records ∈ system.deltas) :
    (system.setNode runtimeId (node.applyDelta records)).Sound := by
  apply sound.setNode_low isNode applyDelta_id
  · rw [Node.version, Node.version, applyDelta_view]
    exact le_rank_writeAll
  · intro record holds
    rw [applyDelta_view] at holds
    rcases writeAll_cases holds with before | ⟨member, -⟩
    · exact .inl (used_of_view isNode before)
    · exact .inl (.inr ⟨records, sent, taken_sublist.subset member⟩)

theorem updateLocal_id {update : LocalUpdate} {now : ℕ} :
    (node.updateLocal update now).runtimeId = node.runtimeId := by
  cases node <;> rfl

theorem le_saturatingSucc (version : ℕ) : version ≤ saturatingSucc version := by
  unfold saturatingSucc
  split <;> omega

section

variable (sound : system.Sound)

include sound

theorem updateLocal (isNode : system.nodes runtimeId = some node)
    (update : LocalUpdate) (now : ℕ) :
    (system.setNode runtimeId (node.updateLocal update now)).Sound := by
  have isId := sound.ident runtimeId node isNode
  subst isId
  obtain ⟨own, isOwn⟩ := @own_isSome node
  have view := @updateLocal_view node update now own isOwn
  have ownNow : (node.updateLocal update now).view node.runtimeId = some (update.apply own now) := by
    rw [view]
    exact if_pos rfl
  have version : (update.apply own now).version = saturatingSucc own.version :=
    congrArg saturatingSucc (update.version own)
  have ownId : (update.apply own now).runtimeId = node.runtimeId :=
    (update.runtimeId own).trans (view_self isOwn)
  suffices step : Extends system (system.setNode node.runtimeId (node.updateLocal update now))
      fun record => record = update.apply own now from sound.extend step
  apply Extends.setNode sound isNode updateLocal_id
  · rw [Node.version, Node.version, ownNow, isOwn, rank_some, rank_some]
    apply WithBot.coe_le_coe.mpr
    exact (le_saturatingSucc own.version).trans version.ge
  · intro record holds
    rw [view] at holds
    dsimp only at holds
    split at holds
    · cases holds
      exact .inr rfl
    · exact .inl (used_of_view isNode holds)
  · rintro record rfl
    right
    refine ⟨_, (if_pos ownId), ?_⟩
    rw [ownId, Node.version, ownNow, rank_some]
    exact le_refl _
  · rintro record other rfl isUsed sameId sameVersion settled
    rcases isUsed with before | same
    · -- What was used before is no newer than the old own record.
      have otherNode : system.nodes other.runtimeId = some node := by
        rw [← sameId, ownId]
        exact isNode
      have bounded := sound.bounded other before node otherNode
      rw [← sameId, ownId, Node.version, isOwn, rank_some] at bounded
      have low : other.version ≤ own.version := WithBot.coe_le_coe.mp bounded
      rw [version] at sameVersion settled
      by_cases below : own.version < u64Max
      · have next : saturatingSucc own.version = own.version + 1 := if_pos below
        omega
      · have last : saturatingSucc own.version = own.version := if_neg below
        exact absurd (last ▸ settled.2) below
    · exact same.symm

theorem change {next : Node → Node}
    (changed : ∀ node, system.nodes runtimeId = some node →
      (system.setNode runtimeId (next node)).Sound) : (system.change runtimeId next).Sound := by
  unfold System.change
  cases known : system.nodes runtimeId with
  | none => exact sound
  | some node => exact changed node known

theorem answer (isNode : system.nodes runtimeId = some node)
    (digest : List GossipDigestEntry) :
    System.Sound { system with deltas := system.deltas ++ [node.deltaFor digest] } := by
  suffices step : Extends system { system with deltas := system.deltas ++ [node.deltaFor digest] }
      fun _ => False from sound.extend step
  refine ⟨sound.ident, ?_, fun _ node isNode => ⟨node, isNode, le_refl _⟩, ?_, nofun, nofun⟩
  · rintro record (held | ⟨delta, member, isRecord⟩)
    · exact .inl (.inl held)
    · rcases mem_append.mp member with old | own
      · exact .inl (.inr ⟨delta, old, isRecord⟩)
      · rw [mem_singleton.mp own] at isRecord
        have isHeld := view_eq_some.mpr ⟨(mem_deltaFor.mp isRecord).1, rfl⟩
        exact .inl (used_of_view isNode isHeld)
  · intro about node noNode isNode
    rw [noNode] at isNode
    cases isNode

theorem step (step : Step) : (system.step verifySchnorr step).Sound := by
  cases step with
  | joinMesh runtimeId endpointAddrs protoVersion now expectedRelayPubkey =>
    refine @join system runtimeId _ sound rfl ?_
    intro about record holds
    rcases mem_append.mp (mesh_view_eq_some.mp holds).1 with none | own
    · cases none
    · rw [mem_singleton.mp own]
      rfl
  | joinState runtimeId endpointAddrs protoVersion now =>
    refine @join system runtimeId _ sound rfl ?_
    intro about record holds
    rcases mem_cons.mp ((Table.get_eq_some _).mp holds).1 with rfl | none
    · rfl
    · cases none
  | applyReadyRecord runtimeId ready now =>
    exact sound.change fun node isNode => sound.applyReadyRecord isNode ready now
  | updateLocal runtimeId update now =>
    exact sound.change fun node isNode => sound.updateLocal isNode update now
  | answer runtimeId digest =>
    change System.Sound (match system.nodes runtimeId with
      | none => system
      | some node => { system with deltas := system.deltas ++ [node.deltaFor digest] })
    cases known : system.nodes runtimeId with
    | none => exact sound
    | some node => exact sound.answer known digest
  | applyDelta runtimeId index =>
    change System.Sound (match system.deltas[index]? with
      | none => system
      | some records => system.change runtimeId (Node.applyDelta records))
    cases found : system.deltas[index]? with
    | none => exact sound
    | some records =>
      exact sound.change fun node isNode => sound.applyDelta isNode (mem_of_getElem? found)

theorem version_exchange {other : Node} {second : RuntimeId}
    (isNode : system.nodes runtimeId = some node) (isOther : system.nodes second = some other) :
    (node.applyDelta (other.deltaFor node.digest)).version about =
      max (node.version about) (other.version about) := by
  have delta := @isDelta other node
  rw [Node.version, applyDelta_view]
  by_cases own : about = node.runtimeId
  · -- The runtime's own version is the highest one already.
    subst own
    have highest : other.version node.runtimeId ≤ node.version node.runtimeId := by
      cases held : other.view node.runtimeId with
      | none => rw [Node.version, held]; exact bot_le
      | some record =>
        have isId := view_self held
        have same := sound.ident runtimeId node isNode
        have bounded := sound.bounded record (used_of_view isOther held) node
          (by rw [isId, same]; exact isNode)
        rw [Node.version, held, rank_some]
        rw [isId] at bounded
        exact bounded
    apply le_antisymm
    · rw [rank_writeAll]
      apply max_le (le_max_left _ _)
      apply offered_le
      intro record member isKey
      have isHeld := delta.held record (taken_sublist.subset member)
      rw [isKey] at isHeld
      apply le_max_of_le_right
      rw [Node.version, isHeld, rank_some]
    · rw [max_eq_left highest]
      exact le_rank_writeAll
  · calc
      rank recordKind (writeAll recordKind node.view (node.taken _) about) =
          rank recordKind (writeAll recordKind node.view (other.deltaFor node.digest) about) := by
        rw [rank_writeAll, rank_writeAll]
        congr 1
        apply le_antisymm
        · apply offered_le
          rintro record member rfl
          exact le_offered (taken_sublist.subset member)
        · apply offered_le
          rintro record member rfl
          exact le_offered (mem_taken member own)
      _ = _ := delta.rank

theorem converges : system.Converges where
  exchange first second node other _ isNode isOther about := by
    refine ⟨sound.version_exchange isNode isOther, ?_⟩
    rw [max_comm]
    exact sound.version_exchange isOther isNode
  idempotent node records := by
    have sameTaken : (node.applyDelta records).taken records = node.taken records := by
      cases node with
      | gossip state => rfl
      | mesh membership =>
        have sameId := @applyDelta_id (.mesh membership) records
        exact congrArg (fun runtimeId => foreign runtimeId records) sameId
    rw [applyDelta_view, sameTaken, applyDelta_view]
    exact writeAll_idem
  order node deltas more perm about := by
    rw [Node.version, Node.version, version_applyDelta, version_applyDelta, rank_writeAll,
      rank_writeAll, offered_perm (taken_perm perm.flatten)]
  settledOrder runtimeId node isNode deltas more perm sent about record holds settled := by
    rw [version_applyDelta] at holds ⊢
    apply sound.agree.writeAll_perm (taken_perm perm.flatten) _ _ holds settled
    · intro found isFound
      exact ⟨used_of_view isNode isFound, view_self isFound⟩
    · intro found member
      obtain ⟨delta, isDelta, isRecord⟩ := mem_flatten.mp (taken_sublist.subset member)
      exact .inr ⟨delta, sent delta isDelta, isRecord⟩
  equal first second node other about record held isNode isOther holds isHeld same settled :=
    sound.agree record held (used_of_view isNode holds) (used_of_view isOther isHeld)
      ((view_self holds).trans (view_self isHeld).symm) same settled

end

end System.Sound

namespace System.Raises

theorem refl : system.Raises system := fun _ node isNode => ⟨node, isNode, fun _ => le_refl _⟩

theorem setNode {next : Node} (isNode : system.nodes runtimeId = some node)
    (raised : ∀ about, node.version about ≤ next.version about) :
    system.Raises (system.setNode runtimeId next) := by
  intro about found isFound
  rw [nodes_setNode]
  by_cases same : about = runtimeId
  · subst same
    cases isNode.symm.trans isFound
    exact ⟨next, if_pos rfl, raised⟩
  · exact ⟨found, (if_neg same).trans isFound, fun _ => le_refl _⟩

theorem join : system.Raises (system.join runtimeId node) := by
  unfold System.join
  cases known : system.nodes runtimeId with
  | some old => exact refl
  | none =>
    intro about found isFound
    have other : about ≠ runtimeId := by
      rintro rfl
      cases isFound.symm.trans known
    exact ⟨found, (if_neg other).trans isFound, fun _ => le_refl _⟩

theorem change {next : Node → Node}
    (raised : ∀ node about, node.version about ≤ (next node).version about) :
    system.Raises (system.change runtimeId next) := by
  unfold System.change
  cases known : system.nodes runtimeId with
  | none => exact refl
  | some node => exact setNode known (raised node)

theorem step (step : Step) : system.Raises (system.step verifySchnorr step) := by
  cases step with
  | joinMesh | joinState => exact join
  | applyReadyRecord runtimeId ready now =>
    apply change
    intro node about
    rw [Node.version, Node.version]
    rcases @applyReadyRecord_view node verifySchnorr ready now with same | written
    · rw [same]
    · rw [written, rank_write]
      exact le_max_left _ _
  | updateLocal runtimeId update now =>
    apply change
    intro node about
    obtain ⟨own, isOwn⟩ := @own_isSome node
    rw [Node.version, Node.version, updateLocal_view isOwn]
    dsimp only
    split
    next same =>
      have bumped : own.version ≤ (update.apply own now).version :=
        (System.Sound.le_saturatingSucc own.version).trans
          (congrArg saturatingSucc (update.version own)).ge
      rw [same, isOwn, rank_some, rank_some]
      exact WithBot.coe_le_coe.mpr bumped
    · exact le_refl _
  | answer runtimeId digest =>
    change system.Raises (match system.nodes runtimeId with
      | none => system
      | some node => { system with deltas := system.deltas ++ [node.deltaFor digest] })
    cases system.nodes runtimeId with
    | none => exact refl
    | some node => exact fun _ found isFound => ⟨found, isFound, fun _ => le_refl _⟩
  | applyDelta runtimeId index =>
    change system.Raises (match system.deltas[index]? with
      | none => system
      | some records => system.change runtimeId (Node.applyDelta records))
    cases system.deltas[index]? with
    | none => exact refl
    | some records =>
      apply change
      intro node about
      rw [Node.version, Node.version, applyDelta_view]
      exact le_rank_writeAll

end System.Raises

end steps

/-- No versions fall, and an exchange makes two tables agree. -/
theorem mesh_converges (verifySchnorr : RuntimeId → String → String → Bool) (steps : List Step) :
    EachStep (System.step verifySchnorr)
      (fun system step => (system.step verifySchnorr step).Converges ∧
        system.Raises (system.step verifySchnorr step)) .start steps := by
  have preserved : ∀ (system : System) step, system.Sound → True →
      (system.step verifySchnorr step).Sound := fun _ step sound _ => sound.step step
  exact EachStep.ensures preserved
    (fun _ step sound _ => ⟨(sound.step step).converges, .step step⟩) System.Sound.start
    (EachStep.any _)

/-- Nobody knows a newer version of a relay than the relay itself. -/
theorem own_version_newest (verifySchnorr : RuntimeId → String → String → Bool) (steps : List Step) :
    let system := steps.foldl (System.step verifySchnorr) .start
    (∀ record, system.Used record → ∀ node, system.nodes record.runtimeId = some node →
      record.version ≤ node.version record.runtimeId) ∧
      ∀ record, system.Used record → system.nodes record.runtimeId = none → record.version ≤ 1 := by
  have sound := EachStep.invariant (fun _ step sound _ => sound.step step) System.Sound.start
    (@EachStep.any _ _ (System.step verifySchnorr) _ steps)
  exact ⟨sound.bounded, sound.seeded⟩

def sampleReady : ReadyRecord where
  runtimeId := .fill 0
  runtimePubkey := FixedBytes.toHex (.fill 0 : RuntimeId)
  relayPubkey := "relay"
  relaySig := "signed"
  endpointAddrs := []
  protoVersion := 1
  capabilities := []

def sampleRelay (byte : UInt8) : RuntimeId := .fill byte

def sampleSeeding : System :=
  [.joinMesh (sampleRelay 1) [] 1 100 (some "relay"), .joinMesh (sampleRelay 2) [] 1 100 (some "relay"),
    .applyReadyRecord (sampleRelay 1) sampleReady 100,
    .applyReadyRecord (sampleRelay 2) sampleReady 101].foldl (System.step fun _ _ _ => true) .start

def System.held (system : System) (runtimeId about : RuntimeId) : Option GossipRecord :=
  (system.nodes runtimeId).bind (·.view about)

/-- The two tables hold different records of version 1. -/
theorem seeds_differ : ∃ record held,
    sampleSeeding.held (sampleRelay 1) (sampleRelay 0) = some record ∧
      sampleSeeding.held (sampleRelay 2) (sampleRelay 0) = some held ∧
        record.version = held.version ∧ record ≠ held := by
  refine ⟨MeshMembership.seedRecord sampleReady 100, MeshMembership.seedRecord sampleReady 101, ?_,
    ?_, rfl, ?_⟩
  · decide +kernel
  · decide +kernel
  · decide

end Buzz.Mesh
