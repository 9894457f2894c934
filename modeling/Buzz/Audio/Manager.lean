import Buzz.Audio.Room

/-! The rooms of a relay: a map from channels to the live room, and the connections that join a room,
add their peer to it later and leave. -/

namespace Buzz.Audio

open Nostr Library

structure RoomKey where
  communityId : CommunityId
  channelId : Uuid
  deriving DecidableEq

def Room.key (self : Room) : RoomKey := ⟨self.communityId, self.channelId⟩

inductive Origin
  | owner
  | ingress
  | stream
  deriving DecidableEq

inductive Task
  | joining (origin : Origin) (key : RoomKey) (room : ℕ)
  | present (origin : Origin) (key : RoomKey) (room : ℕ) (peerId : Uuid)
  | archiving (key : RoomKey) (room : ℕ)
  | leaving (key : RoomKey)
  | unregistering (room : ℕ) (peerId : Uuid)
  deriving DecidableEq

def Task.joins (room : ℕ) : Task → Bool
  | .joining _ _ held => held = room
  | _ => false

/-- A room is named by its place; `rooms` says which are live. -/
structure Manager where
  rooms : Keyed RoomKey ℕ
  objects : List Room
  tasks : Keyed ℕ Task

inductive Step
  | getOrCreate (task : ℕ) (origin : Origin) (key : RoomKey)
  | addPeer (task : ℕ) (peerId : Uuid) (pubkey : String) (requestedVersion : UInt8)
  | addPeerAtIndex (task : ℕ) (peerId : Uuid) (pubkey : String) (requestedVersion peerIndex : UInt8)
  | giveUp (task : ℕ) (cleansUp : Bool)
  | leave (task : ℕ)
  | archived (task : ℕ) (succeeded : Bool)
  | cleanup (task : ℕ)
  | unregister (task : ℕ)

def Step.draws : Step → Option Uuid
  | .addPeer _ peerId _ _ => some peerId
  | .addPeerAtIndex _ peerId _ _ _ => some peerId
  | _ => none

namespace Manager

variable (self : Manager)

def start : Manager := ⟨.empty, [], .empty⟩

def changeRoom (room : ℕ) (change : Room → Room) : Manager :=
  { self with objects := self.objects.modify room change }

def setTask (task : ℕ) (phase : Task) : Manager :=
  { self with tasks := self.tasks.insert task phase }

def finish (task : ℕ) : Manager := { self with tasks := self.tasks.erase task }

def getOrCreate (key : RoomKey) : ℕ × Manager :=
  match self.rooms.get key with
  | some room => (room, self)
  | none =>
    (self.objects.length,
      { self with
        rooms := self.rooms.insert key self.objects.length
        objects := self.objects ++ [.new key.communityId key.channelId] })

def emptied (key : RoomKey) : Option ℕ :=
  (self.rooms.get key).filter fun room => (self.objects[room]?).any Room.isEmpty

def cleanupIfEmpty (key : RoomKey) : Manager :=
  match self.emptied key with
  | none => self
  | some _ => { self with rooms := self.rooms.erase key }

def enter {Answer : Type} (task : ℕ) (fits : Origin → Bool) (peerId : Uuid)
    (admission : Room → Except AdmissionError Answer × Room) : Manager :=
  match self.tasks.get task with
  | some (.joining origin key room) =>
    match self.objects[room]? with
    | none => self
    | some object =>
      if fits origin then
        let next := self.changeRoom room fun _ => (admission object).2
        match (admission object).1 with
        | .ok _ => next.setTask task (.present origin key room peerId)
        | .error _ => next.finish task
      else self
  | _ => self

/-- Another relay's client is looked up again by its channel. -/
def leave (task : ℕ) : Manager :=
  match self.tasks.get task with
  | some (.present .owner key room peerId) =>
    match self.objects[room]? with
    | none => self
    | some object =>
      let (left, next) := object.removePeerAndCheckEnded peerId
      let after := self.changeRoom room fun _ => next
      if (left.map Prod.snd).getD false then after.setTask task (.archiving key room)
      else after.setTask task (.leaving key)
  | some (.present .ingress key room peerId) =>
    (self.changeRoom room (·.removePeer peerId)).setTask task (.leaving key)
  | some (.present .stream key _ peerId) =>
    match self.rooms.get key with
    | none => self.finish task
    | some room => self.setTask task (.unregistering room peerId)
  | _ => self

def step : Step → Manager
  | .getOrCreate task origin key =>
    match self.tasks.get task with
    | some _ => self
    | none => (self.getOrCreate key).2.setTask task (.joining origin key (self.getOrCreate key).1)
  | .addPeer task peerId pubkey requestedVersion =>
    self.enter task (· ≠ .ingress) peerId fun room =>
      room.addPeer peerId pubkey requestedVersion
  | .addPeerAtIndex task peerId pubkey requestedVersion peerIndex =>
    self.enter task (· = .ingress) peerId fun room =>
      room.addPeerAtIndex peerId pubkey requestedVersion peerIndex
  | .giveUp task cleansUp =>
    match self.tasks.get task with
    | some (.joining origin key _) =>
      if cleansUp ∧ origin ≠ .stream then (self.cleanupIfEmpty key).finish task
      else self.finish task
    | _ => self
  | .leave task => self.leave task
  | .archived task succeeded =>
    match self.tasks.get task with
    | some (.archiving key room) =>
      if succeeded then self.setTask task (.leaving key)
      else (self.changeRoom room Room.clearEnded).finish task
    | _ => self
  | .cleanup task =>
    match self.tasks.get task with
    | some (.leaving key) => (self.cleanupIfEmpty key).finish task
    | _ => self
  | .unregister task =>
    match self.tasks.get task with
    | some (.unregistering room peerId) =>
      (self.changeRoom room (·.removePeer peerId)).finish task
    | _ => self

end Manager

end Buzz.Audio
