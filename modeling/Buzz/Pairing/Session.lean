import Buzz.Pairing.Message

/-! The state machine of one side of a pairing. -/

namespace Buzz.Pairing

open Nostr

def defaultTimeout : ℕ := 120 * 10 ^ 9

inductive Role
  | source
  | target
  deriving DecidableEq

inductive SessionState
  | waiting
  | confirming
  | awaitingConfirmation
  | transferring
  | payloadExchanged
  | completed
  | aborted
  deriving DecidableEq

def Role.debug : Role → String
  | .source => "Source"
  | .target => "Target"

def SessionState.debug : SessionState → String
  | .waiting => "Waiting"
  | .confirming => "Confirming"
  | .awaitingConfirmation => "AwaitingConfirmation"
  | .transferring => "Transferring"
  | .payloadExchanged => "PayloadExchanged"
  | .completed => "Completed"
  | .aborted => "Aborted"

def SessionState.terminal : SessionState → Bool
  | .completed | .aborted => true
  | _ => false

structure PairingSession where
  role : Role
  state : SessionState
  keys : SecretKey
  sessionSecret : FixedBytes 32
  relayUrls : List String
  peerPubkey : Option PublicKey
  sessionId : FixedBytes 32
  sasCode : Option ℕ
  sasInput : Option (FixedBytes 32)
  processedIds : List EventId
  createdAt : ℕ
  timeout : ℕ
  deriving DecidableEq

structure QrPayload where
  sourcePubkey : PublicKey
  sessionSecret : FixedBytes 32
  relays : List String
  version : ℕ
  deriving DecidableEq

/-- A nonce, the time, a jitter and the signature's randomness. -/
structure Draw where
  nonce : Bytes
  unixNow : ℕ
  jitter : ℕ
  aux : Bytes

variable (primitives : Primitives)

def okOr {α : Type} (value : Option α) (error : PairingError) : Except PairingError α :=
  match value with
  | some value => .ok value
  | none => .error error

def publicKeyTag (pubkey : PublicKey) : Tag := ⟨["p", pubkey.toHex], List.cons_ne_nil _ _⟩

namespace PairingSession

def pubkey (self : PairingSession) : PublicKey := primitives.publicKey self.keys

def isExpired (self : PairingSession) (now : ℕ) : Bool :=
  self.timeout < now - self.createdAt

def checkExpired (self : PairingSession) (now : ℕ) : Except PairingError Unit :=
  if self.isExpired now then .error .sessionExpired else .ok ()

def expectState (self : PairingSession) (expected : SessionState) : Except PairingError Unit :=
  if self.state ≠ expected then
    .error (.unexpectedMessage ("state " ++ expected.debug) ("state " ++ self.state.debug))
  else .ok ()

def expectRole (self : PairingSession) (expected : Role) : Except PairingError Unit :=
  if self.role ≠ expected then
    .error (.unexpectedMessage ("role " ++ expected.debug) ("role " ++ self.role.debug))
  else .ok ()

def hasPTag (self : PairingSession) (event : Event) : Bool :=
  event.tags.any fun tag =>
    tag.buf.head? == some "p" && tag.buf[1]? == some (self.pubkey primitives).toHex

def validateEventBasics (self : PairingSession) (event : Event) : Except PairingError Unit :=
  match primitives.verify event with
  | .error error => .error (.invalidPubkey ("event verification failed: " ++ error))
  | .ok () =>
    if self.processedIds.contains event.id then
      .error (.unexpectedMessage "new event" "duplicate event id")
    else if event.kind ≠ pairingKind then
      .error (.unexpectedMessage s!"kind {pairingKind.toNat}" s!"kind {event.kind.toNat}")
    else if !self.hasPTag primitives event then
      .error (.invalidPubkey "event p-tag does not match our ephemeral pubkey")
    else .ok ()

def validateEventFromPeer (self : PairingSession) (event : Event) : Except PairingError Unit := do
  self.validateEventBasics primitives event
  match self.peerPubkey with
  | some expected =>
    if event.pubkey ≠ expected then
      .error (.invalidPubkey s!"event from {event.pubkey.toHex} but expected {expected.toHex}")
    else .ok ()
  | none => .ok ()

def decryptMessage (self : PairingSession) (event : Event) :
    Except PairingError PairingMessage :=
  let contentLen := event.content.utf8ByteSize
  if contentLen < 132 ∨ 87472 < contentLen then
    .error (.unexpectedMessage "NIP-44 content (132–87472 chars)" s!"{contentLen} chars")
  else do
    let decrypted ← (primitives.decrypt self.keys event.pubkey event.content).mapError .nip44
    if 65535 < decrypted.utf8ByteSize then
      .error (.unexpectedMessage "plaintext ≤ 65535 bytes" s!"{decrypted.utf8ByteSize} bytes")
    else (primitives.fromJson decrypted).mapError .json

def buildEvent (self : PairingSession) (draw : Draw) (message : PairingMessage) :
    Except PairingError Event := do
  let peer ← okOr self.peerPubkey (.invalidPubkey "no peer pubkey set")
  let plaintext ← (primitives.toJson message).mapError .json
  let encrypted ← (primitives.encrypt self.keys peer plaintext draw.nonce).mapError .nip44
  (primitives.sign self.keys
    ⟨draw.unixNow - draw.jitter % 31, pairingKind, [publicKeyTag peer], encrypted⟩
    draw.aux).mapError .signingError

def recordEvent (self : PairingSession) (event : Event) : PairingSession :=
  { self with processedIds := event.id :: self.processedIds }

/-- A call that changes the session where it succeeds, and only there. -/
def onSuccess {α : Type} (self : PairingSession) (result : Except PairingError α)
    (next : PairingSession) : Except PairingError α × PairingSession :=
  match result with
  | .ok value => (.ok value, next)
  | .error error => (.error error, self)

def newSource (relayUrl : String) (keys : SecretKey) (sessionSecret : FixedBytes 32) (now : ℕ) :
    PairingSession × QrPayload :=
  ({ role := .source
     state := .waiting
     keys
     sessionSecret
     relayUrls := [relayUrl]
     peerPubkey := none
     sessionId := deriveSessionId primitives sessionSecret
     sasCode := none
     sasInput := none
     processedIds := []
     createdAt := now
     timeout := defaultTimeout },
   { sourcePubkey := primitives.publicKey keys
     sessionSecret
     relays := [relayUrl]
     version := 1 })

def newTarget (qr : QrPayload) (keys : SecretKey) (draw : Draw) (now : ℕ) :
    Except PairingError (PairingSession × Event) := do
  let sessionId := deriveSessionId primitives qr.sessionSecret
  let ecdh ← (primitives.generateSharedKey keys qr.sourcePubkey).mapError .signingError
  let sas := deriveSas primitives ecdh qr.sessionSecret
  let session : PairingSession :=
    { role := .target
      state := .waiting
      keys
      sessionSecret := qr.sessionSecret
      relayUrls := qr.relays
      peerPubkey := some qr.sourcePubkey
      sessionId
      sasCode := some sas.1
      sasInput := some sas.2
      processedIds := []
      createdAt := now
      timeout := defaultTimeout }
  let event ← session.buildEvent primitives draw (.offer sessionId.toHex 1)
  return ({ session with state := .confirming }, event)

/-- `handle_offer` up to where it locks to the author of the offer. -/
def checkOffer (self : PairingSession) (now : ℕ) (event : Event) : Except PairingError Unit := do
  self.checkExpired now
  self.expectState .waiting
  self.expectRole .source
  self.validateEventBasics primitives event
  match ← self.decryptMessage primitives event with
  | .offer sessionId version =>
    if version ≠ 1 then .error (.unexpectedMessage "version 1" s!"version {version}")
    else if decodeHash sessionId ≠ some self.sessionId then .error .invalidSessionId
    else .ok ()
  | other => .error (unexpected "offer" other)

def handleOffer (self : PairingSession) (now : ℕ) (event : Event) :
    Except PairingError String × PairingSession :=
  match self.checkOffer primitives now event with
  | .error error => (.error error, self)
  | .ok () =>
    let locked := { self with peerPubkey := some event.pubkey }
    match primitives.generateSharedKey self.keys event.pubkey with
    | .error error => (.error (.signingError error), locked)
    | .ok ecdh =>
      let sas := deriveSas primitives ecdh self.sessionSecret
      (.ok (formatSas sas.1),
        { locked with sasCode := some sas.1, sasInput := some sas.2, state := .confirming }
          |>.recordEvent event)

def confirmSas (self : PairingSession) (now : ℕ) (draw : Draw) :
    Except PairingError Event × PairingSession :=
  self.onSuccess
    (do
      self.checkExpired now
      self.expectState .confirming
      self.expectRole .source
      let sasInput ← okOr self.sasInput .sasMismatch
      let peer ← okOr self.peerPubkey (.invalidPubkey "no peer")
      let transcriptHash := deriveTranscriptHash primitives self.sessionId
        (self.pubkey primitives) peer sasInput self.sessionSecret
      self.buildEvent primitives draw (.sasConfirm transcriptHash.toHex))
    { self with state := .transferring }

def sendPayload (self : PairingSession) (now : ℕ) (draw : Draw) (payloadType : PayloadType)
    (payload : String) : Except PairingError Event × PairingSession :=
  self.onSuccess
    (do
      self.checkExpired now
      self.expectState .transferring
      self.expectRole .source
      self.buildEvent primitives draw (.payload payloadType payload))
    { self with state := .payloadExchanged }

/-- What a handler for the state and role takes. -/
def receive (self : PairingSession) (now : ℕ) (state : SessionState) (role : Role)
    (event : Event) : Except PairingError PairingMessage := do
  self.checkExpired now
  self.expectState state
  self.expectRole role
  self.validateEventFromPeer primitives event
  self.decryptMessage primitives event

def handleComplete (self : PairingSession) (now : ℕ) (event : Event) :
    Except PairingError Unit × PairingSession :=
  match self.receive primitives now .payloadExchanged .source event with
  | .error error => (.error error, self)
  | .ok (.complete true) => (.ok (), { self with state := .completed }.recordEvent event)
  | .ok (.complete false) =>
    (.error (.unexpectedMessage "complete(success=true)" "complete(success=false)"),
      { self with state := .aborted })
  | .ok other => (.error (unexpected "complete" other), self)

/-- The source is its peer. -/
def expectedHash (self : PairingSession) : Except PairingError (FixedBytes 32) := do
  let sasInput ← okOr self.sasInput .sasMismatch
  let peer ← okOr self.peerPubkey (.invalidPubkey "no peer")
  return deriveTranscriptHash primitives self.sessionId peer (self.pubkey primitives) sasInput
    self.sessionSecret

def handleSasConfirm (self : PairingSession) (now : ℕ) (event : Event) :
    Except PairingError String × PairingSession :=
  match self.receive primitives now .confirming .target event with
  | .error error => (.error error, self)
  | .ok (.sasConfirm receivedHash) =>
    match self.expectedHash primitives with
    | .error error => (.error error, self)
    | .ok expected =>
      if decodeHash receivedHash ≠ some expected then
        (.error .transcriptMismatch, { self with state := .aborted })
      else
        ((okOr self.sasCode .sasMismatch).map formatSas,
          { self with state := .awaitingConfirmation }.recordEvent event)
  | .ok other => (.error (unexpected "sas-confirm" other), self)

def confirmTargetSas (self : PairingSession) (now : ℕ) :
    Except PairingError Unit × PairingSession :=
  self.onSuccess
    (do
      self.checkExpired now
      self.expectState .awaitingConfirmation
      self.expectRole .target)
    { self with state := .transferring }

def handlePayload (self : PairingSession) (now : ℕ) (event : Event) :
    Except PairingError (PayloadType × String) × PairingSession :=
  match self.receive primitives now .transferring .target event with
  | .error error => (.error error, self)
  | .ok (.payload payloadType payload) =>
    (.ok (payloadType, payload), { self with state := .payloadExchanged }.recordEvent event)
  | .ok other => (.error (unexpected "payload" other), self)

def sendComplete (self : PairingSession) (now : ℕ) (draw : Draw) :
    Except PairingError Event × PairingSession :=
  self.onSuccess
    (do
      self.checkExpired now
      self.expectState .payloadExchanged
      self.expectRole .target
      self.buildEvent primitives draw (.complete true))
    { self with state := .completed }

def expectOpen (self : PairingSession) : Except PairingError Unit :=
  if self.state.terminal then
    .error (.unexpectedMessage "non-terminal state" ("state " ++ self.state.debug))
  else .ok ()

def abort (self : PairingSession) (draw : Draw) (reason : AbortReason) :
    Except PairingError (Option Event) × PairingSession :=
  self.onSuccess
    (do
      self.expectOpen
      if self.peerPubkey = none then return none
      else return some (← self.buildEvent primitives draw (.abort reason)))
    { self with state := .aborted }

def handleAbort (self : PairingSession) (event : Event) :
    Except PairingError AbortReason × PairingSession :=
  self.onSuccess
    (do
      self.expectOpen
      if self.peerPubkey = none then
        .error (.invalidPubkey "cannot accept abort before peer is known")
      else
        self.validateEventFromPeer primitives event
        match ← self.decryptMessage primitives event with
        | .abort reason => return reason
        | other => .error (unexpected "abort" other))
    ({ self with state := .aborted }.recordEvent event)

def signEvent (self : PairingSession) (draft : EventDraft) (aux : Bytes) :
    Except PairingError Event :=
  (primitives.sign self.keys draft aux).mapError .signingError

end PairingSession

end Buzz.Pairing
