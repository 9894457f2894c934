import Buzz.Audio.Manager
import Buzz.Tunnel.Directory

/-! The owner's loop of a huddle control stream, beside everyone else who uses the rooms. -/

namespace Buzz.Audio

open Nostr Library
open Buzz.Tunnel (FencedHeader RuntimeId)

inductive FenceRejection
  | staleGeneration
  | noActiveLease
  | ownerMismatch
  | futureGeneration
  deriving DecidableEq

/-- `none` for the errors that tear the stream down. -/
def FenceRejection.fromMeshError : Tunnel.MeshError → Option FenceRejection
  | .staleGeneration .. => some .staleGeneration
  | .noActiveLease .. => some .noActiveLease
  | .ownerMismatch .. => some .ownerMismatch
  | .futureGeneration .. => some .futureGeneration
  | .transport _ => none

inductive RegisterRejection
  | roomFull
  | roomEnded
  | versionMismatch (pinned requested : UInt8)
  | fenced (reason : FenceRejection)
  deriving DecidableEq

def admissionToRejection : AdmissionError → RegisterRejection
  | .full => .roomFull
  | .ended => .roomEnded
  | .versionMismatch pinned requested => .versionMismatch pinned requested

inductive HuddleControlMsg
  | registerPeer (communityId : CommunityId) (pubkey : String) (protocolVersion : UInt8)
  | peerRegistered (pubkey : String) (peerIndex : UInt8) (roster : RosterSnapshot)
  | rosterSnapshot (roster : RosterSnapshot)
  | rosterDelta (delta : RosterDelta)
  | rosterResync
  | registerRejected (pubkey : String) (reason : RegisterRejection)
  | unregisterPeer (pubkey : String)
  deriving DecidableEq

inductive GoodbyeReason
  | sessionEnded
  | draining
  | staleGeneration
  deriving DecidableEq

inductive ControlFrame
  | hello
  | data (fenced : FencedHeader) (decoded : Option HuddleControlMsg)
  | goodbye
  | gossip
  deriving DecidableEq

/-- `stream` is an error of the transport itself. -/
inductive ControlError
  | encode
  | decode
  | stream
  | communityChanged (latched communityId : CommunityId)
  | unexpectedFrame (other : ControlFrame)
  | unexpectedReply
  | mesh (cause : Tunnel.MeshError)
  deriving DecidableEq

abbrev LoopResult := Except ControlError Unit

inductive RosterEvent
  | delta (delta : RosterDelta)
  | lagged
  | closed
  deriving DecidableEq

inductive SendOutcome
  | sent
  | encodeFailed
  | sendFailed
  deriving DecidableEq

def SendOutcome.error : SendOutcome → Option ControlError
  | .sent => none
  | .encodeFailed => some .encode
  | .sendFailed => some .stream

inductive Phase
  | selecting
  | validating (room : ℕ) (communityId : CommunityId) (pubkey : String) (protocolVersion : UInt8)
  | replying (reply : HuddleControlMsg)
  | answering (message : HuddleControlMsg)
  | unregistering (room : ℕ) (peerId : Uuid)
  | closing (reason : GoodbyeReason) (result : LoopResult)
  | tearingDown (room : ℕ) (registered : List (String × Uuid)) (result : LoopResult)
  | returned (result : LoopResult)

/-- `admitted` and `sent` are what it has done so far. -/
structure ControlLoop where
  localRuntimeId : RuntimeId
  fenced : FencedHeader
  registered : Keyed String Uuid
  streamCommunity : Option CommunityId
  rosterRx : Bool
  phase : Phase
  admitted : List Uuid
  sent : List HuddleControlMsg

/-- `drawn` are the ids of all peers so far. -/
structure Owner where
  manager : Manager
  control : ControlLoop
  drawn : List Uuid

inductive Event
  | others (step : Step)
  | drainFired
  | lostFired
  | rosterEvent (event : RosterEvent)
  | frame (received : Except Unit (Option ControlFrame)) (isDraining : Bool)
  | validated (outcome : Except Tunnel.MeshError Unit) (peerId : Uuid)
  | wrote (outcome : SendOutcome)
  | removed

namespace Owner

variable (self : Owner)

def start (localRuntimeId : RuntimeId) (fenced : FencedHeader) : Owner where
  manager := .start
  control := ⟨localRuntimeId, fenced, .empty, none, false, .selecting, [], []⟩
  drawn := []

def setPhase (phase : Phase) : Owner := { self with control := { self.control with phase } }

def streamRoom : Option ℕ :=
  self.control.streamCommunity.bind fun communityId =>
    self.manager.rooms.get ⟨communityId, self.control.fenced.sessionId⟩

def teardown (result : LoopResult) : Owner :=
  match self.streamRoom with
  | some room => self.setPhase (.tearingDown room self.control.registered.entries result)
  | none => self.setPhase (.returned result)

/-- A `break` of the loop. -/
def leave (reason : Option GoodbyeReason) (result : LoopResult) : Owner :=
  match reason with
  | some reason => self.setPhase (.closing reason result)
  | none => self.teardown result

def rosterSnapshotMsg (room : ℕ) : Option HuddleControlMsg :=
  (self.manager.objects[room]?).map fun object => .rosterSnapshot object.rosterSnapshot

def sendSnapshot : Owner :=
  match self.streamRoom.bind self.rosterSnapshotMsg with
  | some message => self.setPhase (.answering message)
  | none => self.leave none (.ok ())

/-- The first community is latched; `none` if the frame names another one. -/
def latch (communityId : CommunityId) : Option Owner :=
  match self.control.streamCommunity with
  | none => some { self with control := { self.control with streamCommunity := some communityId } }
  | some latched => if latched = communityId then some self else none

def onRegisterPeer (communityId : CommunityId) (pubkey : String) (protocolVersion : UInt8)
    (isDraining : Bool) : Owner :=
  match self.latch communityId with
  | none =>
    self.leave none
      (.error (.communityChanged (self.control.streamCommunity.getD communityId) communityId))
  | some latched =>
    if isDraining then latched.leave (some .draining) (.ok ())
    else
      let (room, manager) :=
        latched.manager.getOrCreate ⟨communityId, self.control.fenced.sessionId⟩
      { latched with manager }.setPhase (.validating room communityId pubkey protocolVersion)

def onUnregisterPeer (pubkey : String) : Owner :=
  match self.control.registered.get pubkey with
  | none => self
  | some peerId =>
    let next : Owner :=
      { self with
        control := { self.control with registered := self.control.registered.erase pubkey } }
    match self.streamRoom with
    | some room => next.setPhase (.unregistering room peerId)
    | none => next

def onMessage (isDraining : Bool) : HuddleControlMsg → Owner
  | .registerPeer communityId pubkey protocolVersion =>
    self.onRegisterPeer communityId pubkey protocolVersion isDraining
  | .unregisterPeer pubkey => self.onUnregisterPeer pubkey
  | .rosterResync => self.sendSnapshot
  | .peerRegistered .. => self.leave none (.error .unexpectedReply)
  | .rosterSnapshot _ => self.leave none (.error .unexpectedReply)
  | .rosterDelta _ => self.leave none (.error .unexpectedReply)
  | .registerRejected .. => self.leave none (.error .unexpectedReply)

def onFrame (isDraining : Bool) : Except Unit (Option ControlFrame) → Owner
  | .ok (some (.data fenced decoded)) =>
    if fenced ≠ self.control.fenced then
      self.leave none (.error (.mesh (.ownerMismatch self.control.fenced.sessionId
        fenced.generation fenced.ownerRuntimeId self.control.localRuntimeId)))
    else
      match decoded with
      | some message => self.onMessage isDraining message
      | none => self.leave none (.error .decode)
  | .ok (some .goodbye) => self.leave none (.ok ())
  | .ok none => self.leave none (.ok ())
  | .ok (some other) => self.leave none (.error (.unexpectedFrame other))
  | .error () => self.leave none (.error .stream)

def onRosterEvent : RosterEvent → Owner
  | .delta delta => self.setPhase (.answering (.rosterDelta delta))
  | .lagged => self.sendSnapshot
  | .closed => self.leave none (.ok ())

def seat (room : ℕ) (object : Room) (pubkey : String) (peerId : Uuid) (peerIndex : UInt8) :
    Owner where
  manager := self.manager.changeRoom room fun _ => object
  control :=
    { self.control with
      registered := self.control.registered.insert pubkey peerId
      admitted := peerId :: self.control.admitted
      phase := .replying (.peerRegistered pubkey peerIndex object.rosterSnapshot) }
  drawn := peerId :: self.drawn

def registerRemotePeer (room : ℕ) (pubkey : String) (protocolVersion : UInt8) (peerId : Uuid) :
    Owner :=
  match self.manager.objects[room]? with
  | none => self
  | some object =>
    match object.addPeer peerId pubkey protocolVersion with
    | (.ok (peerId, peerIndex), entered) => self.seat room entered pubkey peerId peerIndex
    | (.error reason, _) =>
      self.setPhase (.replying (.registerRejected pubkey (admissionToRejection reason)))

/-- A random id that was drawn before is not drawn again. -/
def onValidated (room : ℕ) (pubkey : String) (protocolVersion : UInt8) (peerId : Uuid) :
    Except Tunnel.MeshError Unit → Owner
  | .ok () =>
    if peerId ∈ self.drawn then self
    else self.registerRemotePeer room pubkey protocolVersion peerId
  | .error cause =>
    match FenceRejection.fromMeshError cause with
    | some reason => self.setPhase (.replying (.registerRejected pubkey (.fenced reason)))
    | none => self.leave none (.error (.mesh cause))

def record (message : HuddleControlMsg) : Owner :=
  { self with
    control := { self.control with phase := .selecting, sent := self.control.sent ++ [message] } }

/-- A failed `encode_control` returns, a failed send breaks the loop. -/
def onReplied (reply : HuddleControlMsg) : SendOutcome → Owner
  | .encodeFailed => self.setPhase (.returned (.error .encode))
  | .sendFailed => self.leave none (.error .stream)
  | .sent =>
    let next := self.record reply
    match reply with
    | .peerRegistered .. => { next with control := { next.control with rosterRx := true } }
    | _ => next

def onAnswered (message : HuddleControlMsg) (outcome : SendOutcome) : Owner :=
  match outcome.error with
  | some cause => self.setPhase (.returned (.error cause))
  | none => self.record message

def removePeer (room : ℕ) (peerId : Uuid) (phase : Phase) : Owner :=
  { self with
    manager := self.manager.changeRoom room fun object => object.removePeer peerId }.setPhase phase

def others (step : Step) : Owner :=
  if ∃ peerId ∈ step.draws, peerId ∈ self.drawn then self
  else { self with manager := self.manager.step step, drawn := step.draws.toList ++ self.drawn }

def step (event : Event) : Owner :=
  match event, self.control.phase with
  | .others step, _ => self.others step
  | .drainFired, .selecting => self.leave (some .draining) (.ok ())
  | .lostFired, .selecting => self.leave (some .staleGeneration) (.ok ())
  | .rosterEvent event, .selecting => if self.control.rosterRx then self.onRosterEvent event else self
  | .frame received isDraining, .selecting => self.onFrame isDraining received
  | .validated outcome peerId, .validating room _ pubkey protocolVersion =>
    self.onValidated room pubkey protocolVersion peerId outcome
  | .wrote outcome, .replying reply => self.onReplied reply outcome
  | .wrote outcome, .answering message => self.onAnswered message outcome
  | .wrote _, .closing _ result => self.teardown result
  | .removed, .unregistering room peerId => self.removePeer room peerId .selecting
  | .removed, .tearingDown room ((_, peerId) :: rest) result =>
    self.removePeer room peerId (.tearingDown room rest result)
  | .removed, .tearingDown _ [] result => self.setPhase (.returned result)
  | _, _ => self

end Owner

end Buzz.Audio
