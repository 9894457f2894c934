import Buzz.Audio.Room
import Buzz.Library.Runs

/-! Admissions and leaves in any order: no index is handed out twice, and a refusal changes nothing. -/

namespace Buzz.Audio

open Nostr Library.Runs List
open scoped List

section indices

def Room.indices (self : Room) : List UInt8 :=
  self.peers.entries.map (·.2.peerIndex)

/-- What the gate has handed out so far, to peers who are still there or not. -/
def Room.handed (self : Room) : List UInt8 := self.indices ++ self.guard.free

structure Room.Sound (room : Room) : Prop where
  nodup : room.handed.Nodup
  below : room.guard.nextFresh ≠ 255 → ∀ index ∈ room.handed, index < room.guard.nextFresh
  seats : room.peers.entries.length ≤ maxPeersPerRoom

variable {room : Room} {guard : AdmissionGuard} {peerId : Uuid} {pubkey : String}
  {version index : UInt8} {next : AdmissionGuard}

section

variable (given : guard.alloc = some (index, next))

include given

theorem alloc_cases :
    (guard.free = index :: next.free ∧ next.nextFresh = guard.nextFresh) ∨
      (next.free = guard.free ∧ guard.nextFresh ≠ 255 ∧ index = guard.nextFresh ∧
        next.nextFresh = guard.nextFresh + 1) := by
  unfold AdmissionGuard.alloc at given
  split at given
  next first rest isFree =>
    cases given
    exact .inl ⟨isFree, rfl⟩
  · split at given
    · cases given
    next more =>
      cases given
      exact .inr ⟨rfl, more, rfl, rfl⟩

theorem alloc_pinned :
    next.pinnedVersion = guard.pinnedVersion := by
  unfold AdmissionGuard.alloc at given
  split at given
  · cases given
    rfl
  · split at given
    · cases given
    · cases given
      rfl

theorem alloc_ended :
    next.ended = guard.ended := by
  unfold AdmissionGuard.alloc at given
  split at given
  · cases given
    rfl
  · split at given
    · cases given
    · cases given
      rfl

end

theorem lt_succ (more : version ≠ 255) : version < version + 1 := by
  have bound := version.toNat_lt
  have other : version.toNat ≠ 255 := fun same => more (UInt8.toNat_inj.mp same)
  rw [UInt8.lt_iff_toNat_lt, UInt8.toNat_add, UInt8.toNat_one, Nat.mod_eq_of_lt] <;> omega

theorem sound_enter (seat : room.peers.entries.length < maxPeersPerRoom)
    (nodup : (index :: (room.indices ++ guard.free)).Nodup)
    (below : guard.nextFresh ≠ 255 → ∀ other ∈ index :: (room.indices ++ guard.free),
      other < guard.nextFresh) : (room.enter peerId pubkey index guard).Sound := by
  have fewer : (room.enter peerId pubkey index guard).handed.Sublist
      (index :: (room.indices ++ guard.free)) := by
    apply List.Sublist.cons_cons
    apply List.Sublist.append_right
    exact filter_sublist.map _
  exact ⟨nodup.sublist fewer, fun more other member => below more other (fewer.subset member),
    Nat.le_trans room.peers.length_insert_le seat⟩

theorem Room.Sound.alloc (sound : room.Sound) (seat : room.peers.entries.length < maxPeersPerRoom)
    (given : room.guard.alloc = some (index, next)) :
    (room.enter peerId pubkey index (next.pin version)).Sound := by
  rcases alloc_cases given with ⟨isFree, same⟩ | ⟨sameFree, more, rfl, isNext⟩
  · -- The index is the last one that was released.
    have recycled : room.handed.Perm (index :: (room.indices ++ next.free)) := by
      rw [Room.handed, isFree]
      exact perm_middle
    apply sound_enter seat
    · exact recycled.nodup_iff.mp sound.nodup
    · intro more other member
      have bound := sound.below (same ▸ more) other (recycled.mem_iff.mpr member)
      exact same ▸ bound
  · -- The index is the first one that was never handed out.
    have known : ∀ other ∈ room.indices ++ next.free, other < room.guard.nextFresh := by
      rw [sameFree]
      exact sound.below more
    apply sound_enter seat
    · rw [nodup_cons]
      constructor
      · intro member
        exact UInt8.lt_irrefl _ (known _ member)
      · change (room.indices ++ next.free).Nodup
        rw [sameFree]
        exact sound.nodup
    · intro _ other member
      change other < next.nextFresh
      rw [isNext]
      rcases mem_cons.mp member with rfl | before
      · exact lt_succ more
      · exact UInt8.lt_trans (known other before) (lt_succ more)

theorem Room.Sound.reserve (sound : room.Sound)
    (seat : room.peers.entries.length < maxPeersPerRoom)
    (apart : ∀ entry ∈ room.peers.entries, entry.2.peerIndex ≠ index) :
    (room.enter peerId pubkey index ((room.guard.pin version).reserve index)).Sound := by
  have fewer : (room.indices ++ ((room.guard.pin version).reserve index).free).Sublist room.handed :=
    List.Sublist.append_left filter_sublist _
  apply sound_enter seat
  · rw [nodup_cons]
    constructor
    · intro member
      rcases mem_append.mp member with present | free
      · obtain ⟨entry, isEntry, same⟩ := mem_map.mp present
        exact apart entry isEntry same
      · exact of_decide_eq_true (mem_filter.mp free).2 rfl
    · exact sound.nodup.sublist fewer
  · intro more other member
    have isNext : ((room.guard.pin version).reserve index).nextFresh =
        if room.guard.nextFresh ≤ index then (if index = 255 then 255 else index + 1)
        else room.guard.nextFresh := rfl
    by_cases reached : room.guard.nextFresh ≤ index
    · have notLast : index ≠ 255 := fun last =>
        more (isNext.trans ((if_pos reached).trans (if_pos last)))
      rw [isNext, if_pos reached, if_neg notLast]
      rcases mem_cons.mp member with rfl | before
      · exact lt_succ notLast
      · have start : room.guard.nextFresh ≠ 255 := fun last =>
          notLast (UInt8.le_antisymm (UInt8.le_iff_toNat_le.mpr (Nat.le_of_lt_succ index.toNat_lt))
            (last ▸ reached))
        have bound := UInt8.lt_of_lt_of_le (sound.below start other (fewer.subset before)) reached
        exact UInt8.lt_trans bound (lt_succ notLast)
    · rw [isNext, if_neg reached] at more ⊢
      rcases mem_cons.mp member with rfl | before
      · exact UInt8.not_le.mp reached
      · exact sound.below more other (fewer.subset before)

theorem Room.Sound.leave (sound : room.Sound) {peer : AudioPeer}
    (present : room.peers.get peerId = some peer) : (room.leave peerId peer).Sound := by
  have listed := (room.peers.get_eq_some).mp present
  have given : room.handed.Perm (room.leave peerId peer).handed := by
    calc
      room.handed ~ (peer.peerIndex :: (room.leave peerId peer).indices) ++ room.guard.free :=
        ((room.peers.perm_erase listed).map _).append_right _
      _ ~ (room.leave peerId peer).handed := perm_middle.symm
  exact ⟨given.nodup_iff.mp sound.nodup,
    fun more other member => sound.below more other (given.mem_iff.mpr member),
    Nat.le_trans room.peers.length_erase_le sound.seats⟩

end indices

inductive Operation
  | addPeer (peerId : Uuid) (pubkey : String) (requestedVersion : UInt8)
  | addPeerAtIndex (peerId : Uuid) (pubkey : String) (requestedVersion peerIndex : UInt8)
  | removePeer (peerId : Uuid)
  | removePeerAndCheckEnded (peerId : Uuid)
  | markEnded
  | clearEnded

structure History where
  room : Room
  versions : Uuid → Option UInt8

namespace History

variable (self : History)

def start (communityId : CommunityId) (channelId : Uuid) : History :=
  ⟨.new communityId channelId, fun _ => none⟩

def noted {Answer : Type} (peerId : Uuid) (requestedVersion : UInt8)
    (outcome : Except AdmissionError Answer × Room) : History where
  room := outcome.2
  versions :=
    match outcome.1 with
    | .ok _ => fun other => if other = peerId then some requestedVersion else self.versions other
    | .error _ => self.versions

def step : Operation → History
  | .addPeer peerId pubkey requestedVersion =>
    self.noted peerId requestedVersion (self.room.addPeer peerId pubkey requestedVersion)
  | .addPeerAtIndex peerId pubkey requestedVersion peerIndex =>
    self.noted peerId requestedVersion
      (self.room.addPeerAtIndex peerId pubkey requestedVersion peerIndex)
  | .removePeer peerId => { self with room := self.room.removePeer peerId }
  | .removePeerAndCheckEnded peerId =>
    { self with room := (self.room.removePeerAndCheckEnded peerId).2 }
  | .markEnded => { self with room := self.room.markEnded.2 }
  | .clearEnded => { self with room := self.room.clearEnded }

def refusal : Operation → Option AdmissionError
  | .addPeer peerId pubkey requestedVersion =>
    match (self.room.addPeer peerId pubkey requestedVersion).1 with
    | .ok _ => none
    | .error cause => some cause
  | .addPeerAtIndex peerId pubkey requestedVersion peerIndex =>
    match (self.room.addPeerAtIndex peerId pubkey requestedVersion peerIndex).1 with
    | .ok _ => none
    | .error cause => some cause
  | _ => none

def Pinned : Prop :=
  ∀ entry ∈ self.room.peers.entries, ∃ version,
    self.room.guard.pinnedVersion = some version ∧ self.versions entry.1 = some version

end History

structure History.Orderly (history : History) : Prop where
  distinct : history.room.indices.Nodup
  recycled : history.room.guard.free.Nodup
  apart : ∀ entry ∈ history.room.peers.entries, entry.2.peerIndex ∉ history.room.guard.free
  limit : history.room.peers.entries.length ≤ maxPeersPerRoom
  pinned : history.Pinned

structure History.Sound (history : History) : Prop where
  room : history.room.Sound
  pinned : history.Pinned

namespace History

variable {history : History} {peerId : Uuid} {pubkey : String} {version index : UInt8}

theorem Sound.orderly (sound : history.Sound) : history.Orderly := by
  have nodup := nodup_append.mp sound.room.nodup
  refine ⟨nodup.1, nodup.2.1, ?_, sound.room.seats, sound.pinned⟩
  intro entry member free
  exact nodup.2.2 _ (mem_map_of_mem member) _ free rfl

variable {room : Room}

theorem checkVersion_ok (fits : room.checkVersion version = .ok ()) :
    room.guard.pinnedVersion = none ∨ room.guard.pinnedVersion = some version := by
  unfold Room.checkVersion at fits
  split at fits
  next unpinned => exact .inl unpinned
  next pinned isPinned =>
    split at fits
    · cases fits
    next same => exact .inr (isPinned.trans (congrArg some (not_not.mp same)))

theorem addPeer_cases : (∃ cause, room.addPeer peerId pubkey version = (.error cause, room)) ∨
      ∃ given next, room.addPeer peerId pubkey version =
          (.ok (peerId, given), room.enter peerId pubkey given (next.pin version)) ∧
        room.guard.ended = false ∧ room.peers.entries.length < maxPeersPerRoom ∧
        room.checkVersion version = .ok () ∧ room.guard.alloc = some (given, next) := by
  unfold Room.addPeer
  split
  · exact .inl ⟨_, rfl⟩
  next isOpen =>
    split
    · exact .inl ⟨_, rfl⟩
    next seat =>
      cases fits : room.checkVersion version with
      | error cause => exact .inl ⟨cause, rfl⟩
      | ok =>
        cases isGiven : room.guard.alloc with
        | none => exact .inl ⟨_, rfl⟩
        | some given =>
          exact .inr ⟨given.1, given.2, rfl, by simpa using isOpen, Nat.lt_of_not_le seat, rfl, rfl⟩

theorem addPeerAtIndex_cases :
    (∃ cause, room.addPeerAtIndex peerId pubkey version index = (.error cause, room)) ∨
      room.addPeerAtIndex peerId pubkey version index = (.ok peerId,
          room.enter peerId pubkey index ((room.guard.pin version).reserve index)) ∧
        room.guard.ended = false ∧ room.peers.entries.length < maxPeersPerRoom ∧
        (∀ entry ∈ room.peers.entries, entry.2.peerIndex ≠ index) ∧
        room.checkVersion version = .ok () := by
  unfold Room.addPeerAtIndex
  split
  · exact .inl ⟨_, rfl⟩
  next isOpen =>
    split
    · exact .inl ⟨_, rfl⟩
    next seat =>
      cases fits : room.checkVersion version with
      | error cause => exact .inl ⟨cause, rfl⟩
      | ok =>
        refine .inr ⟨rfl, by simpa using isOpen, Nat.lt_of_not_le fun full => seat (.inl full), ?_, rfl⟩
        exact fun entry member same => seat (.inr ⟨entry, member, same⟩)

theorem removePeer_cases : room.removePeer peerId = room ∨
    ∃ peer, room.peers.get peerId = some peer ∧ room.removePeer peerId = room.leave peerId peer := by
  unfold Room.removePeer
  cases present : room.peers.get peerId with
  | none => exact .inl rfl
  | some peer => exact .inr ⟨peer, rfl, rfl⟩

theorem removePeerAndCheckEnded_cases : room.removePeerAndCheckEnded peerId = (none, room) ∨
      ∃ peer, room.peers.get peerId = some peer ∧
        (room.removePeerAndCheckEnded peerId =
            (some (peer.peerIndex, true), (room.leave peerId peer).markEnded.2) ∨
          room.removePeerAndCheckEnded peerId =
            (some (peer.peerIndex, false), room.leave peerId peer)) := by
  unfold Room.removePeerAndCheckEnded
  cases present : room.peers.get peerId with
  | none => exact .inl rfl
  | some peer =>
    refine .inr ⟨peer, rfl, ?_⟩
    dsimp only
    split
    · exact .inl rfl
    · exact .inr rfl

theorem Pinned.enter (pinned : history.Pinned) (fits : history.room.checkVersion version = .ok ())
    {guard : AdmissionGuard} (isPinned : guard.pinnedVersion =
      some (history.room.guard.pinnedVersion.getD version)) {Answer : Type} {answer : Answer} :
    (history.noted peerId version
      (.ok answer, history.room.enter peerId pubkey index guard)).Pinned := by
  have same : history.room.guard.pinnedVersion.getD version = version := by
    rcases checkVersion_ok fits with unpinned | before
    · rw [unpinned]
      rfl
    · rw [before]
      rfl
  intro entry member
  refine ⟨version, isPinned.trans (congrArg some same), ?_⟩
  rcases (history.room.peers.mem_insert).mp member with rfl | ⟨old, other⟩
  · exact if_pos rfl
  · obtain ⟨before, isBefore, asked⟩ := pinned entry old
    rw [isBefore, Option.getD_some] at same
    rw [← same]
    exact (if_neg other).trans asked

theorem Pinned.mono (pinned : history.Pinned)
    (fewer : ∀ entry ∈ room.peers.entries, entry ∈ history.room.peers.entries)
    (same : room.guard.pinnedVersion = history.room.guard.pinnedVersion) :
    Pinned { history with room } := by
  intro entry member
  obtain ⟨version, isPinned, asked⟩ := pinned entry (fewer entry member)
  exact ⟨version, same.trans isPinned, asked⟩

theorem Sound.gate (sound : history.Sound) (samePeers : room.peers = history.room.peers)
    (sameFree : room.guard.free = history.room.guard.free)
    (sameFresh : room.guard.nextFresh = history.room.guard.nextFresh)
    (samePin : room.guard.pinnedVersion = history.room.guard.pinnedVersion) :
    Sound { history with room } := by
  have sameHanded : room.handed = history.room.handed := by
    rw [Room.handed, Room.indices, samePeers, sameFree]
    rfl
  constructor
  · exact ⟨sameHanded ▸ sound.room.nodup, sameFresh ▸ sameHanded ▸ sound.room.below,
      samePeers ▸ sound.room.seats⟩
  · exact sound.pinned.mono (fun entry member => samePeers ▸ member) samePin

theorem Sound.leave (sound : history.Sound) {peer : AudioPeer}
    (present : history.room.peers.get peerId = some peer) :
    Sound { history with room := history.room.leave peerId peer } :=
  ⟨sound.room.leave present,
    sound.pinned.mono (fun _ member => (history.room.peers.mem_erase.mp member).1) rfl⟩

theorem Sound.step (sound : history.Sound) (operation : Operation) :
    (history.step operation).Sound := by
  cases operation with
  | addPeer peerId pubkey version =>
    rcases @addPeer_cases peerId pubkey version history.room with
      ⟨cause, refused⟩ | ⟨given, next, entered, -, seat, fits, isGiven⟩
    · rw [History.step, refused]
      exact sound
    · rw [History.step, entered]
      exact ⟨sound.room.alloc seat isGiven, sound.pinned.enter fits (by
        rw [AdmissionGuard.pin, alloc_pinned isGiven])⟩
  | addPeerAtIndex peerId pubkey version index =>
    rcases @addPeerAtIndex_cases peerId pubkey version index history.room with
      ⟨cause, refused⟩ | ⟨entered, -, seat, apart, fits⟩
    · rw [History.step, refused]
      exact sound
    · rw [History.step, entered]
      exact ⟨sound.room.reserve seat apart, sound.pinned.enter fits rfl⟩
  | removePeer peerId =>
    rcases @removePeer_cases peerId history.room with same | ⟨peer, present, left⟩
    · rw [History.step, same]
      exact sound
    · rw [History.step, left]
      exact sound.leave present
  | removePeerAndCheckEnded peerId =>
    rcases @removePeerAndCheckEnded_cases peerId history.room with
      same | ⟨peer, present, ended | left⟩
    · rw [History.step, same]
      exact sound
    · rw [History.step, ended]
      exact (sound.leave present).gate rfl rfl rfl rfl
    · rw [History.step, left]
      exact sound.leave present
  | markEnded | clearEnded => exact sound.gate rfl rfl rfl rfl

theorem refused_same {operation : Operation} {cause : AdmissionError}
    (refused : history.refusal operation = some cause) : history.step operation = history := by
  cases operation with
  | addPeer peerId pubkey version =>
    rcases @addPeer_cases peerId pubkey version history.room with
      ⟨other, isRefused⟩ | ⟨given, next, entered, -⟩
    · rw [History.step, isRefused]
      rfl
    · rw [refusal, entered] at refused
      cases refused
  | addPeerAtIndex peerId pubkey version index =>
    rcases @addPeerAtIndex_cases peerId pubkey version index history.room with
      ⟨other, isRefused⟩ | ⟨entered, -⟩
    · rw [History.step, isRefused]
      rfl
    · rw [refusal, entered] at refused
      cases refused
  | removePeer | removePeerAndCheckEnded | markEnded | clearEnded => cases refused

theorem start_sound {communityId : CommunityId} {channelId : Uuid} :
    (start communityId channelId).Sound :=
  ⟨⟨nodup_nil, fun _ _ member => (nomatch member), Nat.zero_le _⟩, fun _ member => (nomatch member)⟩

end History

/-- An admission that fails leaves the room as it was. -/
theorem room_stays_orderly (communityId : CommunityId) (channelId : Uuid)
    (operations : List Operation) :
    EachStep History.step (fun history operation => (history.step operation).Orderly ∧
        ∀ cause, history.refusal operation = some cause → history.step operation = history)
      (.start communityId channelId) operations := by
  have preserved : ∀ (history : History) operation, history.Sound → True →
      (history.step operation).Sound := fun _ operation sound _ => sound.step operation
  exact EachStep.ensures preserved
    (fun _ operation sound _ => ⟨(sound.step operation).orderly, fun _ => History.refused_same⟩)
    History.start_sound (EachStep.any _)

end Buzz.Audio
