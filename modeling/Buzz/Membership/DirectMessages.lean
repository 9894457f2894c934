import Buzz.Library.Canonical
import Buzz.Membership.Channels

/-! Direct messages. One is a private channel that was created for a set of participants and carries
the hash of that set. -/

namespace Buzz.Membership

open Nostr Buzz.Channel Library.Canonical Library.Results List

section hash

variable (sha256 : Bytes → FixedBytes 32)

/-- Keys are sorted byte by byte, and each counts once. -/
def computeParticipantHash (pubkeys : List Bytes) : FixedBytes 32 :=
  sha256 (canonical (· ≤ ·) pubkeys).flatten

theorem computeParticipantHash_congr {pubkeys others : List Bytes}
    (same : ∀ key, key ∈ pubkeys ↔ key ∈ others) :
    computeParticipantHash sha256 pubkeys = computeParticipantHash sha256 others := by
  rw [computeParticipantHash, computeParticipantHash, canonical_congr same]

end hash

/-- `ids` is the primary key, `dmHashes` the index `idx_channels_dm_hash`. -/
structure Store where
  channels : List Channel
  ids : (channels.map Channel.id).Nodup
  dmHashes : (channels.filterMap Channel.participantHash).Nodup

namespace Store

variable (self : Store)

def get (channelId : Uuid) : Option Channel := self.channels.find? (·.id = channelId)

theorem map_members {change : Channel → Channel} {channels : List Channel}
    {Value : Type} {read : Channel → Value} (same : ∀ channel, read (change channel) = read channel) :
    (channels.map change).map read = channels.map read := by
  rw [map_map]
  exact map_congr_left fun channel _ => same channel

def save (channel : Channel) : Store :=
  let change (old : Channel) : Channel :=
    if old.id = channel.id then { old with members := channel.members, keyed := channel.keyed }
    else old
  { channels := self.channels.map change
    ids := by
      have same (old : Channel) : (change old).id = old.id := by
        dsimp only [change]
        split <;> rfl
      rw [map_members same]
      exact self.ids
    dmHashes := by
      have same (old : Channel) : (change old).participantHash = old.participantHash := by
        dsimp only [change]
        split <;> rfl
      rw [filterMap_map]
      have kept : Channel.participantHash ∘ change = Channel.participantHash := funext same
      rw [kept]
      exact self.dmHashes }

/-- `find_dm_by_participants`. -/
def findDmByParticipants (hash : FixedBytes 32) : Option Channel :=
  self.channels.find? fun channel =>
    channel.participantHash = some hash && channel.channelType = .dm &&
      !channel.deleted

/-- `get_members`: the active ones of a live channel, in the order they joined. -/
def getMembers (channelId : Uuid) : List MemberRow :=
  match self.get channelId with
  | none => []
  | some channel =>
    if channel.deleted then [] else (channel.members.filter (!·.removed)).take 1000

def readableBy (channelId : Uuid) (key : Bytes) : Bool :=
  match self.get channelId with
  | none => false
  | some channel =>
    !channel.deleted && (decide (channel.visibility = .open) || (channel.activeRole key).isSome)

end Store

section create

variable (sha256 : Bytes → FixedBytes 32)

def participantRows (createdBy : Bytes) (participants : List Bytes) : List MemberRow :=
  participants.foldl (fun rows pubkey => upsertRow rows pubkey .member (some createdBy)) []

theorem participantRows_keyed {createdBy : Bytes} {participants : List Bytes} :
    ((participantRows createdBy participants).map MemberRow.pubkey).Nodup := by
  have step (rows : List MemberRow) (keyed : (rows.map MemberRow.pubkey).Nodup) :
      ((participants.foldl (fun rows pubkey => upsertRow rows pubkey .member (some createdBy))
        rows).map MemberRow.pubkey).Nodup := by
    induction participants generalizing rows with
    | nil => exact keyed
    | cons pubkey rest hypothesis => exact hypothesis _ (upsertRow_keyed keyed)
  exact step [] nodup_nil

def dmChannel (id : Uuid) (participants : List Bytes) (createdBy : Bytes) : Channel where
  id
  name := if participants.length = 2 then "DM"
    else "Group DM (" ++ toString participants.length ++ ")"
  channelType := .dm
  visibility := .private
  createdBy
  archived := false
  deleted := false
  participantHash := some (computeParticipantHash sha256 participants)
  members := participantRows createdBy participants
  keyed := participantRows_keyed

def participantsValid (participants : List Bytes) : Except DbError Unit :=
  if participants.length < 2 then .error (.invalidData "DM requires at least 2 participants")
  else if 9 < participants.length then
    .error (.invalidData "DM supports at most 9 participants")
  else
    match participants.find? fun pubkey => pubkey.length ≠ 32 with
    | some pubkey =>
      .error (.invalidData ("pubkey must be 32 bytes, got " ++ toString pubkey.length))
    | none => .ok ()

/-- The channel comes with whether it is a new one. -/
def createDm (store : Store) (id : Uuid) (participants : List Bytes) (createdBy : Bytes) :
    Except DbError (Store × Channel × Bool) := do
  participantsValid participants
  let channel := dmChannel sha256 id participants createdBy
  match store.findDmByParticipants (computeParticipantHash sha256 participants) with
  | some existing => .ok (store, existing, false)
  | none =>
    if fresh : id ∉ store.channels.map Channel.id then
      if free : computeParticipantHash sha256 participants ∉
          store.channels.filterMap Channel.participantHash then
        .ok ({ channels := channel :: store.channels
               ids := nodup_cons.mpr ⟨fresh, store.ids⟩
               dmHashes := nodup_cons.mpr ⟨free, store.dmHashes⟩ }, channel, true)
      else .error (.sqlx "idx_channels_dm_hash")
    else .error (.sqlx "channels_pkey")

/-- What `open_dm` hashes: the caller is always a participant. -/
def mergeCreator (pubkeys : List Bytes) (createdBy : Bytes) : List Bytes :=
  if createdBy ∈ pubkeys then pubkeys else pubkeys ++ [createdBy]

def lookDm (store : Store) (pubkeys : List Bytes) (createdBy : Bytes) :
    Except DbError (Option Channel) :=
  let all := mergeCreator pubkeys createdBy
  if 9 < all.length then .error (.invalidData "DM supports at most 9 participants")
  else .ok (store.findDmByParticipants (computeParticipantHash sha256 all))

end create

section store

variable {store : Store} {channel other next : Channel} {channelId : Uuid}

theorem Store.id_unique (member : channel ∈ store.channels) (second : other ∈ store.channels)
    (same : channel.id = other.id) : channel = other :=
  inj_on_of_nodup_map store.ids member second same

theorem Store.get_eq_some :
    store.get channelId = some channel ↔ channel ∈ store.channels ∧ channel.id = channelId := by
  rw [Store.get]
  constructor
  · intro found
    have isId := find?_some found
    exact ⟨mem_of_find?_eq_some found, of_decide_eq_true isId⟩
  · intro present
    cases search : store.channels.find? fun other => decide (other.id = channelId) with
    | none =>
      have missing := find?_eq_none.mp search channel present.1
      exact absurd (decide_eq_true present.2) missing
    | some other =>
      have isId := find?_some search
      have same := (of_decide_eq_true isId).trans present.2.symm
      rw [Store.id_unique (mem_of_find?_eq_some search) present.1 same]

theorem Store.hash_unique {hash : FixedBytes 32} (member : channel ∈ store.channels)
    (second : other ∈ store.channels) (first : channel.participantHash = some hash)
    (again : other.participantHash = some hash) : channel = other := by
  by_contra apart
  have pairs := pairwise_filterMap.mp store.dmHashes
  have symmetric : Std.Symm fun a b : Channel => ∀ hash, a.participantHash = some hash →
      ∀ hash', b.participantHash = some hash' → hash ≠ hash' :=
    ⟨fun _ _ rule hash isHash other isOther => (rule other isOther hash isHash).symm⟩
  exact pairs.forall member second apart hash first hash again rfl

theorem Store.mem_save (member : channel ∈ store.channels)
    (rows : next = { channel with members := next.members, keyed := next.keyed }) :
    other ∈ (store.save next).channels ↔
      other = next ∨ other ∈ store.channels ∧ other.id ≠ channel.id := by
  have sameId : next.id = channel.id := by rw [rows]
  rw [Store.save]
  dsimp only
  rw [mem_map]
  constructor
  · intro found
    obtain ⟨old, before, changed⟩ := found
    split at changed
    next isChannel =>
      have same := Store.id_unique before member (isChannel.trans sameId)
      subst same
      exact .inl (changed.symm.trans rows.symm)
    next apart =>
      subst changed
      exact .inr ⟨before, fun same => apart (same.trans sameId.symm)⟩
  · intro found
    cases found with
    | inl isNext => exact ⟨channel, member, by rw [if_pos sameId.symm, isNext]; exact rows.symm⟩
    | inr kept => exact ⟨other, kept.1, if_neg fun same => kept.2 (same.trans sameId)⟩

end store

section found

variable {sha256 : Bytes → FixedBytes 32} {channel : Channel} {hash : FixedBytes 32} {store : Store}

theorem Store.findDm_eq_some (found : store.findDmByParticipants hash = some channel) :
    channel ∈ store.channels ∧ channel.participantHash = some hash ∧ channel.channelType = .dm ∧
      channel.deleted = false := by
  have matched := find?_some found
  simp only [Bool.and_eq_true, decide_eq_true_eq, Bool.not_eq_true'] at matched
  exact ⟨mem_of_find?_eq_some found, matched.1.1, matched.1.2, matched.2⟩

theorem Store.findDm_isSome (member : channel ∈ store.channels)
    (isHash : channel.participantHash = some hash) (isDm : channel.channelType = .dm)
    (isLive : channel.deleted = false) : store.findDmByParticipants hash = some channel := by
  cases search : store.findDmByParticipants hash with
  | none =>
    have missing := find?_eq_none.mp search channel member
    simp [isHash, isDm, isLive] at missing
  | some other =>
    obtain ⟨second, again, -, -⟩ := Store.findDm_eq_some search
    rw [Store.hash_unique second member again isHash]

variable {createdBy : Bytes} {participants : List Bytes}

theorem mem_foldl_upsertRow {row : MemberRow} :
    ∀ {rows : List MemberRow}, row ∈ participants.foldl (fun rows pubkey =>
      upsertRow rows pubkey .member (some createdBy)) rows →
        row ∈ rows ∨ row.pubkey ∈ participants := by
  induction participants with
  | nil => exact .inl
  | cons pubkey rest hypothesis =>
    intro rows written
    cases hypothesis written with
    | inl before =>
      by_cases isKey : row.pubkey = pubkey
      · exact .inr (isKey ▸ mem_cons_self)
      · exact .inl ((mem_upsertRow_other isKey).mp before)
    | inr inside => exact .inr (mem_cons_of_mem pubkey inside)

theorem dmChannel_activeRole {id : Uuid} {key : Bytes}
    (active : ((dmChannel sha256 id participants createdBy).activeRole key).isSome) :
    key ∈ participants := by
  obtain ⟨role, isRole⟩ := Option.isSome_iff_exists.mp active
  obtain ⟨row, member, isKey, -, -⟩ := Channel.activeRole_eq_some.mp isRole
  cases mem_foldl_upsertRow member with
  | inl before => exact absurd before not_mem_nil
  | inr inside => exact isKey ▸ inside

theorem createDm_ok {after : Store} {id : Uuid}
    {isNew : Bool} (ok : createDm sha256 store id participants createdBy =
      .ok (after, channel, isNew)) :
    isNew = false ∧ after = store ∧ store.findDmByParticipants
        (computeParticipantHash sha256 participants) = some channel ∨
      isNew ∧ channel = dmChannel sha256 id participants createdBy ∧
        (∀ other ∈ store.channels, other.id ≠ id) ∧ after.channels = channel :: store.channels := by
  obtain ⟨_, -, ok⟩ := bind_ok ok
  dsimp only at ok
  split at ok
  next existing found =>
    cases ok
    exact .inl ⟨rfl, rfl, found⟩
  · split at ok
    next fresh =>
      split at ok
      · cases ok
        refine .inr ⟨rfl, rfl, fun other member same => ?_, rfl⟩
        exact fresh (mem_map.mpr ⟨other, member, same⟩)
      · cases ok
    · cases ok

variable {pubkeys : List Bytes}

theorem mem_mergeCreator :
    createdBy ∈ mergeCreator pubkeys createdBy := by
  unfold mergeCreator
  split
  · assumption
  · exact mem_append_right _ (mem_singleton_self _)

theorem lookDm_ok {found : Option Channel}
    (ok : lookDm sha256 store pubkeys createdBy = .ok found) :
    (mergeCreator pubkeys createdBy).length ≤ 9 ∧ found = store.findDmByParticipants
      (computeParticipantHash sha256 (mergeCreator pubkeys createdBy)) := by
  unfold lookDm at ok
  dsimp only at ok
  split at ok
  · cases ok
  next few =>
    cases ok
    exact ⟨by omega, rfl⟩

end found

end Buzz.Membership
