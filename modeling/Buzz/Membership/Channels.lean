import Buzz.Channel
import Buzz.Git.Publish
import Buzz.Library.Results

/-! One channel of a community with its member rows, and what the membership calls do to it. -/

namespace Buzz.Membership

open Nostr Buzz.Channel List
open Buzz.Git (isWhitespace trim)

inductive DbError
  | sqlx (violated : String)
  | invalidData (message : String)
  | accessDenied (message : String)
  | channelNotFound (channelId : Uuid)
  | memberNotFound (channelId : Uuid)
  deriving DecidableEq

inductive ChannelType
  | stream
  | forum
  | dm
  | workflow
  deriving DecidableEq

inductive ChannelVisibility
  | «open»
  | «private»
  deriving DecidableEq

/-- A row of `channel_members`: a removed one keeps its role. -/
structure MemberRow where
  pubkey : Bytes
  role : MemberRole
  removed : Bool
  invitedBy : Option Bytes
  deriving DecidableEq

def MemberRow.active (self : MemberRow) (pubkey : Bytes) : Bool :=
  self.pubkey = pubkey && !self.removed

def MemberRow.activeOwner (self : MemberRow) : Bool :=
  self.role = .owner && !self.removed

/-- A row of `channels` with its member rows, of which a key has one. -/
structure Channel where
  id : Uuid
  name : String
  channelType : ChannelType
  visibility : ChannelVisibility
  createdBy : Bytes
  archived : Bool
  deleted : Bool
  participantHash : Option (FixedBytes 32)
  members : List MemberRow
  keyed : (members.map MemberRow.pubkey).Nodup

def pubkeyLength (pubkey : Bytes) : Except DbError Unit :=
  if pubkey.length ≠ 32 then
    .error (.invalidData ("pubkey must be 32 bytes, got " ++ toString pubkey.length))
  else .ok ()

/-- `trim_start_matches` of hashes and blanks, then `trim_end`. -/
def canonicalChannelName (name : String) : String :=
  String.ofList ((name.toList.dropWhile fun c => c == '#' || isWhitespace c).reverse.dropWhile
    isWhitespace).reverse

section rows

variable (members : List MemberRow) (pubkey : Bytes)

/-- A row that is there keeps who invited it. -/
def upsertRow (role : MemberRole) (invitedBy : Option Bytes) : List MemberRow :=
  if pubkey ∈ members.map MemberRow.pubkey then
    members.map fun row =>
      if row.pubkey = pubkey then { row with removed := false, role } else row
  else members ++ [⟨pubkey, role, false, invitedBy⟩]

def removeRow : List MemberRow :=
  members.map fun row => if row.active pubkey then { row with removed := true } else row

variable {members pubkey}

theorem map_pubkey {change : MemberRow → MemberRow} (same : ∀ row, (change row).pubkey = row.pubkey) :
    (members.map change).map MemberRow.pubkey = members.map MemberRow.pubkey := by
  rw [map_map]
  exact map_congr_left fun row _ => same row

theorem upsertRow_keyed {role : MemberRole} {invitedBy : Option Bytes}
    (keyed : (members.map MemberRow.pubkey).Nodup) :
    ((upsertRow members pubkey role invitedBy).map MemberRow.pubkey).Nodup := by
  unfold upsertRow
  split
  · rw [map_pubkey fun row => by split <;> rfl]
    exact keyed
  next absent =>
    rw [map_append]
    apply keyed.append (nodup_singleton _)
    exact disjoint_singleton.mpr absent

theorem removeRow_keyed (keyed : (members.map MemberRow.pubkey).Nodup) :
    ((removeRow members pubkey).map MemberRow.pubkey).Nodup := by
  rw [removeRow, map_pubkey fun row => by split <;> rfl]
  exact keyed

end rows

namespace Channel

variable (self : Channel)

/-- `get_active_role_tx`. -/
def activeRole (pubkey : Bytes) : Option MemberRole :=
  (self.members.find? (·.active pubkey)).map MemberRow.role

def ownerCount : ℕ := self.members.countP MemberRow.activeOwner

def upsertMember (pubkey : Bytes) (role : MemberRole) (invitedBy : Option Bytes) : Channel where
  __ := self
  members := upsertRow self.members pubkey role invitedBy
  keyed := upsertRow_keyed self.keyed

def dropMember (pubkey : Bytes) : Channel where
  __ := self
  members := removeRow self.members pubkey
  keyed := removeRow_keyed self.keyed

/-- The first half of `add_member`: the role that a call may give. -/
def effectiveRole (pubkey : Bytes) (role : MemberRole) (invitedBy : Option Bytes) :
    Except DbError MemberRole :=
  match self.visibility with
  | .private =>
    match invitedBy with
    | none => .error (.accessDenied "private channel requires an invite")
    | some inviter =>
      if inviter = pubkey ∧ inviter = self.createdBy then .ok role
      else
        match self.activeRole inviter with
        | none => .error (.accessDenied "inviter is not an active member")
        | some inviterRole =>
          if role.isElevated && !inviterRole.isElevated then
            .error (.accessDenied "only owners/admins may grant elevated roles")
          else .ok role
  | .open =>
    if role.isElevated then
      match invitedBy.bind self.activeRole with
      | some .owner | some .admin => .ok role
      | _ => .error (.accessDenied "only owners/admins may grant elevated roles")
    else .ok role

/-- The second half: the last owner keeps the role. -/
def checkRoleChange (pubkey : Bytes) (effectiveRole : MemberRole) (invitedBy : Option Bytes) :
    Except DbError Unit :=
  match self.activeRole pubkey with
  | none => .ok ()
  | some currentRole =>
    if currentRole = effectiveRole then .ok ()
    else if !((invitedBy.bind self.activeRole).any MemberRole.isElevated) then
      .error (.accessDenied "only owners/admins may change an active member's role")
    else if currentRole = .owner ∧ effectiveRole ≠ .owner ∧ self.ownerCount ≤ 1 then
      .error (.accessDenied "cannot demote the last owner — transfer ownership first")
    else .ok ()

def authorizeRemoval (pubkey actor : Bytes) (actorIsAgentOwner : Bool) : Except DbError Unit :=
  if pubkey = actor then .ok ()
  else
    match self.activeRole actor with
    | none => .error (.accessDenied "actor is not an active member")
    | some actorRole =>
      if !actorRole.isElevated && !actorIsAgentOwner then
        .error (.accessDenied "only owners/admins or the agent's owner may remove other members")
      else .ok ()

end Channel

section calls

variable (channelId : Uuid)

/-- `get_channel_tx`. -/
def getChannel (channel : Option Channel) : Except DbError Channel :=
  match channel with
  | none => .error (.channelNotFound channelId)
  | some channel => if channel.deleted then .error (.channelNotFound channelId) else .ok channel

def addMember (channel : Option Channel) (pubkey : Bytes) (role : MemberRole)
    (invitedBy : Option Bytes) : Except DbError Channel := do
  pubkeyLength pubkey
  let channel ← getChannel channelId channel
  let effectiveRole ← channel.effectiveRole pubkey role invitedBy
  channel.checkRoleChange pubkey effectiveRole invitedBy
  .ok (channel.upsertMember pubkey effectiveRole invitedBy)

/-- No row of the channel's is read: without one there is no member either. -/
def removeMember (channel : Option Channel) (pubkey actor : Bytes) (actorIsAgentOwner : Bool) :
    Except DbError Channel :=
  match channel with
  | none =>
    if pubkey = actor then .error (.memberNotFound channelId)
    else .error (.accessDenied "actor is not an active member")
  | some channel => do
    channel.authorizeRemoval pubkey actor actorIsAgentOwner
    if channel.activeRole pubkey = some .owner ∧ channel.ownerCount ≤ 1 then
      .error (.accessDenied "cannot remove the last owner — transfer ownership first")
    else if channel.activeRole pubkey = none then .error (.memberNotFound channelId)
    else .ok (channel.dropMember pubkey)

/-- A row that is there, deleted or not, stays. -/
def createChannelWithId (channel : Option Channel) (name : String) (channelType : ChannelType)
    (visibility : ChannelVisibility) (createdBy : Bytes) : Except DbError (Channel × Bool) := do
  pubkeyLength createdBy
  if channelId.val = replicate 16 0 then
    .error (.invalidData "channel_id must not be nil (reserved for global fan-out)")
  else if trim (canonicalChannelName name) = "" then
    .error (.invalidData "channel name is required")
  else
    match channel with
    | some channel => .ok (channel, false)
    | none => .ok (⟨channelId, canonicalChannelName name, channelType, visibility, createdBy, false,
        false, none, [⟨createdBy, .owner, false, some createdBy⟩], nodup_singleton _⟩, true)

end calls

section rows

variable {channel : Channel} {pubkey key : Bytes} {row : MemberRow} {role : MemberRole}
  {invitedBy : Option Bytes}

theorem MemberRow.active_iff : row.active key ↔ row.pubkey = key ∧ row.removed = false := by
  rw [MemberRow.active, Bool.and_eq_true, decide_eq_true_eq, Bool.not_eq_true']

theorem MemberRow.activeOwner_iff :
    row.activeOwner ↔ row.role = .owner ∧ row.removed = false := by
  rw [MemberRow.activeOwner, Bool.and_eq_true, decide_eq_true_eq, Bool.not_eq_true']

theorem Channel.row_unique {other : MemberRow} (member : row ∈ channel.members)
    (second : other ∈ channel.members) (same : row.pubkey = other.pubkey) : row = other :=
  inj_on_of_nodup_map channel.keyed member second same

theorem Channel.activeRole_eq_some : channel.activeRole key = some role ↔
    ∃ row ∈ channel.members, row.pubkey = key ∧ row.removed = false ∧ row.role = role := by
  rw [Channel.activeRole, Option.map_eq_some_iff]
  constructor
  · intro found
    obtain ⟨row, isRow, isRole⟩ := found
    have active := find?_some isRow
    obtain ⟨isKey, live⟩ := MemberRow.active_iff.mp active
    exact ⟨row, mem_of_find?_eq_some isRow, isKey, live, isRole⟩
  · intro found
    obtain ⟨row, member, isKey, live, isRole⟩ := found
    cases search : channel.members.find? fun other => other.active key with
    | none =>
      have missing := find?_eq_none.mp search row member
      exact absurd (MemberRow.active_iff.mpr ⟨isKey, live⟩) missing
    | some other =>
      have active := find?_some search
      obtain ⟨otherKey, -⟩ := MemberRow.active_iff.mp active
      have same := channel.row_unique (mem_of_find?_eq_some search) member
        (otherKey.trans isKey.symm)
      exact ⟨other, rfl, same ▸ isRole⟩

variable {members : List MemberRow}

theorem mem_upsertRow_other (other : row.pubkey ≠ pubkey) :
    row ∈ upsertRow members pubkey role invitedBy ↔ row ∈ members := by
  unfold upsertRow
  split
  · rw [mem_map]
    constructor
    · intro found
      obtain ⟨old, member, changed⟩ := found
      split at changed
      next same =>
        rw [← changed] at other
        exact absurd same other
      · exact changed ▸ member
    · exact fun member => ⟨row, member, if_neg other⟩
  · rw [mem_append, mem_singleton]
    constructor
    · intro found
      cases found with
      | inl member => exact member
      | inr new =>
        rw [new] at other
        exact absurd rfl other
    · exact Or.inl

theorem upsertRow_self : (∃ row ∈ upsertRow members pubkey role invitedBy, row.pubkey = pubkey) ∧
      ∀ row ∈ upsertRow members pubkey role invitedBy, row.pubkey = pubkey →
        row.removed = false ∧ row.role = role := by
  unfold upsertRow
  split
  next present =>
    constructor
    · obtain ⟨old, member, isKey⟩ := mem_map.mp present
      exact ⟨_, mem_map.mpr ⟨old, member, if_pos isKey⟩, isKey⟩
    · intro row found isKey
      obtain ⟨old, -, rfl⟩ := mem_map.mp found
      split at isKey
      next same =>
        rw [if_pos same]
        exact ⟨rfl, rfl⟩
      next apart => exact absurd isKey apart
  next absent =>
    constructor
    · exact ⟨_, mem_append_right _ (mem_singleton_self _), rfl⟩
    · intro row found isKey
      cases mem_append.mp found with
      | inl old => exact absurd (mem_map.mpr ⟨row, old, isKey⟩) absent
      | inr new =>
        rw [mem_singleton.mp new]
        exact ⟨rfl, rfl⟩

theorem Channel.activeRole_upsertMember :
    (channel.upsertMember pubkey role invitedBy).activeRole key =
      if key = pubkey then some role else channel.activeRole key := by
  have rows : (channel.upsertMember pubkey role invitedBy).members =
      upsertRow channel.members pubkey role invitedBy := rfl
  split
  next same =>
    obtain ⟨⟨row, member, isKey⟩, all⟩ := @upsertRow_self pubkey role invitedBy channel.members
    obtain ⟨live, isRole⟩ := all row member isKey
    exact activeRole_eq_some.mpr ⟨row, rows ▸ member, isKey.trans same.symm, live, isRole⟩
  next apart =>
    apply Option.ext
    intro found
    rw [activeRole_eq_some, activeRole_eq_some, rows]
    apply exists_congr
    intro row
    constructor
    · intro both
      exact ⟨(mem_upsertRow_other fun same => apart (both.2.1.symm.trans same)).mp both.1, both.2⟩
    · intro both
      exact ⟨(mem_upsertRow_other fun same => apart (both.2.1.symm.trans same)).mpr both.1, both.2⟩

theorem Channel.activeRole_dropMember :
    (channel.dropMember pubkey).activeRole key =
      if key = pubkey then none else channel.activeRole key := by
  have rows : (channel.dropMember pubkey).members = removeRow channel.members pubkey := rfl
  apply Option.ext
  intro found
  rw [activeRole_eq_some, rows, removeRow]
  constructor
  · intro present
    obtain ⟨row, member, isKey, live, isRole⟩ := present
    obtain ⟨old, before, changed⟩ := mem_map.mp member
    split at changed
    · rw [← changed] at live
      cases live
    next notActive =>
      subst changed
      have apart : key ≠ pubkey := by
        intro same
        exact notActive (MemberRow.active_iff.mpr ⟨isKey.trans same, live⟩)
      rw [if_neg apart]
      exact activeRole_eq_some.mpr ⟨old, before, isKey, live, isRole⟩
  · intro present
    split at present
    · cases present
    next apart =>
      obtain ⟨row, member, isKey, live, isRole⟩ := activeRole_eq_some.mp present
      have kept : row.active pubkey ≠ true := fun active =>
        apart (isKey.symm.trans (MemberRow.active_iff.mp active).1)
      exact ⟨row, mem_map.mpr ⟨row, member, if_neg kept⟩, isKey, live, isRole⟩

theorem Channel.ownerCount_pos :
    0 < channel.ownerCount ↔ ∃ key, channel.activeRole key = some .owner := by
  rw [Channel.ownerCount, countP_pos_iff]
  constructor
  · intro found
    obtain ⟨row, member, owner⟩ := found
    obtain ⟨isOwner, live⟩ := MemberRow.activeOwner_iff.mp owner
    exact ⟨row.pubkey, activeRole_eq_some.mpr ⟨row, member, rfl, live, isOwner⟩⟩
  · intro found
    obtain ⟨key, isOwner⟩ := found
    obtain ⟨row, member, -, live, isRole⟩ := activeRole_eq_some.mp isOwner
    exact ⟨row, member, MemberRow.activeOwner_iff.mpr ⟨isRole, live⟩⟩

theorem Channel.other_owner (several : 1 < channel.ownerCount) (key : Bytes) :
    ∃ other, other ≠ key ∧ channel.activeRole other = some .owner := by
  by_contra none
  have only (row : MemberRow) (member : row ∈ channel.members) (owner : row.activeOwner) :
      row.pubkey = key := by
    by_contra apart
    obtain ⟨isOwner, live⟩ := MemberRow.activeOwner_iff.mp owner
    exact none ⟨row.pubkey, apart, activeRole_eq_some.mpr ⟨row, member, rfl, live, isOwner⟩⟩
  have bound : channel.ownerCount ≤ (channel.members.map MemberRow.pubkey).count key := by
    rw [List.count, countP_map]
    apply countP_mono_left
    intro row member owner
    exact beq_iff_eq.mpr (only row member owner)
  have single := nodup_iff_count_le_one.mp channel.keyed key
  omega

end rows

end Buzz.Membership
