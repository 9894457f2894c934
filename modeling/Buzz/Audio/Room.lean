import Buzz.Library.Keyed
import Buzz.Nostr.Event

/-! An audio room: its peers, and the gate that hands out their indices. -/

namespace Buzz.Audio

open Nostr Library

structure AudioPeer where
  pubkey : String
  peerIndex : UInt8
  deriving DecidableEq

def maxPeersPerRoom : ℕ := 25

structure RosterPeer where
  pubkey : String
  peerIndex : UInt8
  deriving DecidableEq

structure RosterSnapshot where
  revision : UInt64
  peers : List RosterPeer
  deriving DecidableEq

structure RosterDelta where
  revision : UInt64
  joined : Option RosterPeer
  left : Option RosterPeer
  deriving DecidableEq

inductive AdmissionError
  | ended
  | full
  | versionMismatch (pinned requested : UInt8)
  deriving DecidableEq

structure AdmissionGuard where
  nextFresh : UInt8
  free : List UInt8
  ended : Bool
  pinnedVersion : Option UInt8
  rosterRevision : UInt64
  deriving DecidableEq

namespace AdmissionGuard

variable (self : AdmissionGuard)

def new : AdmissionGuard := ⟨0, [], false, none, 0⟩

def alloc : Option (UInt8 × AdmissionGuard) :=
  match self.free with
  | index :: rest => some (index, { self with free := rest })
  | [] =>
    if self.nextFresh = 255 then none
    else some (self.nextFresh, { self with nextFresh := self.nextFresh + 1 })

def release (index : UInt8) : AdmissionGuard := { self with free := index :: self.free }

def pin (version : UInt8) : AdmissionGuard :=
  { self with pinnedVersion := some (self.pinnedVersion.getD version) }

/-- An index that the owner of the huddle has handed out is not handed out here. -/
def reserve (index : UInt8) : AdmissionGuard :=
  { self with
    free := self.free.filter (· ≠ index)
    nextFresh :=
      if self.nextFresh ≤ index then (if index = 255 then 255 else index + 1) else self.nextFresh }

end AdmissionGuard

/-- `sent` is what the room has published of its roster. -/
structure Room where
  communityId : CommunityId
  channelId : Uuid
  peers : Keyed Uuid AudioPeer
  guard : AdmissionGuard
  sent : List RosterDelta

namespace Room

variable (self : Room)

def new (communityId : CommunityId) (channelId : Uuid) : Room :=
  ⟨communityId, channelId, .empty, .new, []⟩

def isEmpty : Bool := self.peers.entries.isEmpty

/-- `true` if the room is empty. -/
def markEnded : Bool × Room :=
  (self.isEmpty, { self with guard := { self.guard with ended := true } })

def clearEnded : Room := { self with guard := { self.guard with ended := false } }

def publish (joined left : Option RosterPeer) : Room :=
  let revision := self.guard.rosterRevision + 1
  { self with
    guard := { self.guard with rosterRevision := revision }
    sent := self.sent ++ [⟨revision, joined, left⟩] }

/-- The room is open and has a seat. -/
def checkVersion (requestedVersion : UInt8) : Except AdmissionError Unit :=
  match self.guard.pinnedVersion with
  | none => .ok ()
  | some pinned =>
    if pinned ≠ requestedVersion then .error (.versionMismatch pinned requestedVersion) else .ok ()

def enter (peerId : Uuid) (pubkey : String) (peerIndex : UInt8) (guard : AdmissionGuard) : Room :=
  publish
    { self with
      peers := self.peers.insert peerId ⟨pubkey, peerIndex⟩
      guard }
    (some ⟨pubkey, peerIndex⟩) none

/-- `peerId` is the random id of the peer. -/
def addPeer (peerId : Uuid) (pubkey : String) (requestedVersion : UInt8) :
    Except AdmissionError (Uuid × UInt8) × Room :=
  if self.guard.ended then (.error .ended, self)
  else if maxPeersPerRoom ≤ self.peers.entries.length then (.error .full, self)
  else
    match self.checkVersion requestedVersion with
    | .error cause => (.error cause, self)
    | .ok () =>
      match self.guard.alloc with
      | none => (.error .full, self)
      | some (peerIndex, guard) =>
        (.ok (peerId, peerIndex), self.enter peerId pubkey peerIndex (guard.pin requestedVersion))

def addPeerAtIndex (peerId : Uuid) (pubkey : String) (requestedVersion peerIndex : UInt8) :
    Except AdmissionError Uuid × Room :=
  if self.guard.ended then (.error .ended, self)
  else if maxPeersPerRoom ≤ self.peers.entries.length ∨
      ∃ entry ∈ self.peers.entries, entry.2.peerIndex = peerIndex then (.error .full, self)
  else
    match self.checkVersion requestedVersion with
    | .error cause => (.error cause, self)
    | .ok () =>
      (.ok peerId,
        self.enter peerId pubkey peerIndex ((self.guard.pin requestedVersion).reserve peerIndex))

def leave (peerId : Uuid) (peer : AudioPeer) : Room :=
  publish
    { self with
      peers := self.peers.erase peerId
      guard := self.guard.release peer.peerIndex }
    none (some ⟨peer.pubkey, peer.peerIndex⟩)

def removePeer (peerId : Uuid) : Room :=
  match self.peers.get peerId with
  | none => self
  | some peer => self.leave peerId peer

/-- And whether it was the last one of a room that had not ended. -/
def removePeerAndCheckEnded (peerId : Uuid) : Option (UInt8 × Bool) × Room :=
  match self.peers.get peerId with
  | none => (none, self)
  | some peer =>
    let next := self.leave peerId peer
    if !next.guard.ended && next.isEmpty then (some (peer.peerIndex, true), next.markEnded.2)
    else (some (peer.peerIndex, false), next)

def rosterSnapshot : RosterSnapshot where
  revision := self.guard.rosterRevision
  peers := (self.peers.entries.map fun entry =>
    (⟨entry.2.pubkey, entry.2.peerIndex⟩ : RosterPeer)).mergeSort
      fun first second => first.peerIndex ≤ second.peerIndex

end Room

end Buzz.Audio
