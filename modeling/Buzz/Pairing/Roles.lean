import Buzz.Library.Times
import Buzz.Pairing.Calls

/-! What holds of a source and of a target after any calls, whoever wrote the events that the
calls deliver. -/

namespace Buzz.Pairing

open Nostr Library.PastTime List

structure Party where
  session : PairingSession
  log : List Entry
  emitted : List Event

def Party.perform (primitives : Primitives) (self : Party) (call : Call) : Party :=
  let result := self.session.perform primitives call
  { session := result.2
    log := ⟨call, result.1⟩ :: self.log
    emitted := (emits result.1).toList ++ self.emitted }

def acceptedOffers (log : List Entry) : List Event := log.filterMap Entry.acceptedOffer

def receivedPayloads (log : List Entry) : List (Event × PayloadType × String) :=
  log.filterMap Entry.receivedPayload

variable (primitives : Primitives)

/-- The session exchanged keys with the peer and left `Waiting` for good. -/
structure Locked (session : PairingSession) (peer : PublicKey) : Prop where
  left : session.state ≠ .waiting
  pinned : session.peerPubkey = some peer
  derived : ∃ ecdh, primitives.generateSharedKey session.keys peer = .ok ecdh ∧
    session.sasCode = some (deriveSas primitives ecdh session.sessionSecret).1

/-- To the author of an accepted offer. -/
def SendJustified (keys : SecretKey) (entry : Entry) (earlier : List Entry) : Prop :=
  ∀ payloadType payload event, entry.sentPayload = some (payloadType, payload, event) →
    Once (·.confirmation.isSome) earlier ∧
      ∃ offer, Once (·.acceptedOffer = some offer) earlier ∧
        Seals primitives keys offer.pubkey (.payload payloadType payload) event

structure SourceInv (origin : PairingSession) (source : Party) : Prop where
  role : source.session.role = .source
  keys : source.session.keys = origin.keys
  secret : source.session.sessionSecret = origin.sessionSecret
  sessionId : source.session.sessionId = origin.sessionId
  offers : (acceptedOffers source.log = [] ∧
      (source.session.state = .waiting ∨ source.session.state = .aborted)) ∨
    ∃ offer, acceptedOffers source.log = [offer] ∧
      Locked primitives source.session offer.pubkey
  confirmed : source.session.state = .transferring →
    Once (·.confirmation.isSome) source.log
  justified : Explained (SendJustified primitives origin.keys) source.log
  emitted : ∀ event ∈ source.emitted, event.kind = pairingKind → ∃ peer message,
    Seals primitives origin.keys peer message event ∧
      ∀ hash, message = .sasConfirm hash → Locked primitives source.session peer

/-- With the hash of the transcript. -/
structure Matches (origin : PairingSession) (peer : PublicKey) (event : Event) : Prop where
  verified : primitives.verify event = .ok ()
  kind : event.kind = pairingKind
  addressed : ∃ tag ∈ event.tags, tag.buf.head? = some "p" ∧
    tag.buf[1]? = some (origin.pubkey primitives).toHex
  author : event.pubkey = peer
  confirms : ∃ hash, origin.decryptMessage primitives event = .ok (.sasConfirm hash) ∧
    origin.HashMatches primitives hash

def Matched (origin : PairingSession) (peer : PublicKey) (entry : Entry) : Prop :=
  ∃ event, entry.acceptedConfirm = some event ∧ Matches primitives origin peer event

/-- The user approved after a `sas-confirm` that matched. -/
def Approved (origin : PairingSession) (peer : PublicKey) : List Entry → Prop :=
  Since (·.approval.isSome) (Once (Matched primitives origin peer))

def ReceiveJustified (origin : PairingSession) (peer : PublicKey) (entry : Entry)
    (earlier : List Entry) : Prop :=
  ∀ event payloadType payload, entry.receivedPayload = some (event, payloadType, payload) →
    event.pubkey = peer ∧ Approved primitives origin peer earlier

def TargetPhase (origin : PairingSession) (peer : PublicKey) (log : List Entry) :
    SessionState → Prop
  | .waiting => False
  | .confirming => receivedPayloads log = []
  | .awaitingConfirmation =>
    receivedPayloads log = [] ∧ Once (Matched primitives origin peer) log
  | .transferring => receivedPayloads log = [] ∧ Approved primitives origin peer log
  | .payloadExchanged | .completed | .aborted => (receivedPayloads log).length ≤ 1

structure TargetInv (origin : PairingSession) (peer : PublicKey) (target : Party) : Prop where
  frame : target.session = { origin with
    state := target.session.state, processedIds := target.session.processedIds }
  phase : TargetPhase primitives origin peer target.log target.session.state
  justified : Explained (ReceiveJustified primitives origin peer) target.log
  emitted : ∀ event ∈ target.emitted, event.kind = pairingKind → ∃ peer message,
    Seals primitives origin.keys peer message event ∧ ∀ hash, message ≠ .sasConfirm hash

variable {primitives}

variable {entry : Entry} {peer : PublicKey} {session next : PairingSession}

theorem SourceMove.locked
    (move : SourceMove primitives session entry next) (locked : Locked primitives session peer) :
    Locked primitives next peer := by
  cases move with
  | quiet silent => exact locked
  | pinned silent waiting | accepted waiting shared => exact absurd waiting locked.left
  | confirmed confirming | sent transferring known sealed =>
    exact ⟨nofun, locked.pinned, locked.derived⟩
  | ended silent final =>
    refine ⟨?_, locked.pinned, locked.derived⟩
    rcases final with aborted | ⟨completed, -⟩
    · rw [aborted]
      nofun
    · rw [completed]
      nofun

theorem acceptedOffers_quiet (silent : entry.Quiet) (log : List Entry) :
    acceptedOffers (entry :: log) = acceptedOffers log := by
  rw [acceptedOffers, filterMap_cons_none silent.acceptedOffer]
  rfl

theorem receivedPayloads_quiet (silent : entry.Quiet) (log : List Entry) :
    receivedPayloads (entry :: log) = receivedPayloads log := by
  rw [receivedPayloads, filterMap_cons_none silent.receivedPayload]
  rfl

variable {origin : PairingSession} {source : Party}

theorem SourceInv.locked (inv : SourceInv primitives origin source)
    (left : source.session.state ≠ .waiting ∧ source.session.state ≠ .aborted) :
    ∃ offer, acceptedOffers source.log = [offer] ∧
      Locked primitives source.session offer.pubkey := by
  rcases inv.offers with ⟨-, waiting | aborted⟩ | locked
  · exact absurd waiting left.1
  · exact absurd aborted left.2
  · exact locked

theorem SourceInv.waiting
    (inv : SourceInv primitives origin source) (waiting : source.session.state = .waiting) :
    acceptedOffers source.log = [] := by
  rcases inv.offers with ⟨none, -⟩ | ⟨offer, -, locked⟩
  · exact none
  · exact absurd waiting locked.left

variable {earlier : List Entry}

theorem sendJustified_none {keys : SecretKey}
    (silent : entry.sentPayload = none) : SendJustified primitives keys entry earlier := by
  intro payloadType payload event sent
  cases silent.symm.trans sent

theorem receiveJustified_none (silent : entry.receivedPayload = none) :
    ReceiveJustified primitives origin peer entry earlier := by
  intro event payloadType payload received
  cases silent.symm.trans received

theorem mem_emitted {outcome : Outcome} {emitted : List Event} {event : Event}
    (member : event ∈ (emits outcome).toList ++ emitted) :
    emits outcome = some event ∨ event ∈ emitted := by
  rcases mem_append.mp member with new | old
  · exact .inl (Option.mem_toList.mp new)
  · exact .inr old

/-- They do not draft a pairing message. -/
def Call.Drafts (self : Call) : Prop :=
  ∀ draft aux, self = .signEvent draft aux → draft.kind ≠ pairingKind

variable {call : Call}

theorem SourceInv.emits (lawful : primitives.Lawful)
    (inv : SourceInv primitives origin source) (drafts : call.Drafts)
    (move : SourceMove primitives source.session entry next) :
    ∀ event ∈ (Pairing.emits (source.session.perform primitives call).1).toList ++ source.emitted,
      event.kind = pairingKind → ∃ peer message, Seals primitives origin.keys peer message event ∧
        ∀ hash, message = .sasConfirm hash → Locked primitives next peer := by
  intro event member kind
  rcases mem_emitted member with new | old
  · rcases PairingSession.perform_emits lawful new with drafted | built
    · rcases drafted with ⟨draft, aux, same, drafted⟩
      exact absurd (drafted.symm.trans kind) (drafts draft aux same)
    · rcases built with ⟨peer, message, known, sealed, confirms⟩
      rw [inv.keys] at sealed
      refine ⟨peer, message, sealed, ?_⟩
      intro hash same
      have confirming := (confirms hash same).1
      rcases inv.locked (by rw [confirming]; exact ⟨nofun, nofun⟩) with ⟨offer, -, locked⟩
      have samePeer := locked.pinned
      rw [known, Option.some.injEq] at samePeer
      rw [samePeer]
      exact move.locked locked
  · rcases inv.emitted event old kind with ⟨peer, message, sealed, confirms⟩
    exact ⟨peer, message, sealed, fun hash same => move.locked (confirms hash same)⟩

theorem SourceInv.perform (lawful : primitives.Lawful) (inv : SourceInv primitives origin source)
    (drafts : call.Drafts) : SourceInv primitives origin (source.perform primitives call) := by
  have move := PairingSession.perform_source lawful inv.role call
  have emitted := inv.emits lawful drafts move
  rw [Party.perform]
  generalize (source.session.perform primitives call).1 = outcome at move emitted ⊢
  generalize (source.session.perform primitives call).2 = next at move emitted ⊢
  generalize shape : (⟨call, outcome⟩ : Entry) = entry at move ⊢
  cases move with
  | quiet silent =>
    refine ⟨inv.role, inv.keys, inv.secret, inv.sessionId, ?_, ?_, ?_, emitted⟩
    · rw [acceptedOffers_quiet silent]
      exact inv.offers
    · exact fun transferring => .inr (inv.confirmed transferring)
    · exact ⟨sendJustified_none silent.sentPayload, inv.justified⟩
  | pinned silent waiting =>
    refine ⟨inv.role, inv.keys, inv.secret, inv.sessionId, ?_, ?_, ?_, emitted⟩
    · rw [acceptedOffers_quiet silent]
      exact .inl ⟨inv.waiting waiting, .inl waiting⟩
    · exact fun transferring => .inr (inv.confirmed transferring)
    · exact ⟨sendJustified_none silent.sentPayload, inv.justified⟩
  | @accepted now event ecdh returned waiting shared =>
    refine ⟨inv.role, inv.keys, inv.secret, inv.sessionId, ?_, nofun, ?_, emitted⟩
    · right
      refine ⟨event, ?_, ⟨nofun, rfl, ecdh, shared, rfl⟩⟩
      change event :: acceptedOffers source.log = [event]
      rw [inv.waiting waiting]
    · exact ⟨sendJustified_none rfl, inv.justified⟩
  | @confirmed now draw event confirming =>
    refine ⟨inv.role, inv.keys, inv.secret, inv.sessionId, ?_, ?_, ?_, emitted⟩
    · rcases inv.locked (by rw [confirming]; exact ⟨nofun, nofun⟩) with ⟨offer, one, locked⟩
      exact .inr ⟨offer, one, ⟨nofun, locked.pinned, locked.derived⟩⟩
    · exact fun _ => .inl ⟨rfl, trivial⟩
    · exact ⟨sendJustified_none rfl, inv.justified⟩
  | @sent now draw payloadType payload event peer transferring known sealed =>
    rcases inv.locked (by rw [transferring]; exact ⟨nofun, nofun⟩) with ⟨offer, one, locked⟩
    refine ⟨inv.role, inv.keys, inv.secret, inv.sessionId, ?_, nofun, ⟨?_, inv.justified⟩,
      emitted⟩
    · exact .inr ⟨offer, one, ⟨nofun, locked.pinned, locked.derived⟩⟩
    · intro otherType other otherEvent same
      cases same
      refine ⟨inv.confirmed transferring, offer, ?_, ?_⟩
      · apply once_iff.mpr
        apply mem_filterMap.mp
        change offer ∈ acceptedOffers source.log
        rw [one]
        exact mem_singleton_self offer
      · have samePeer := locked.pinned
        rw [known, Option.some.injEq] at samePeer
        rw [← inv.keys, ← samePeer]
        exact sealed
  | @ended _ state ids silent final =>
    refine ⟨inv.role, inv.keys, inv.secret, inv.sessionId, ?_, ?_, ?_, emitted⟩
    · rw [acceptedOffers_quiet silent]
      rcases final with aborted | ⟨completed, exchanged⟩
      · rcases inv.offers with ⟨none, -⟩ | ⟨offer, one, locked⟩
        · exact .inl ⟨none, .inr aborted⟩
        · refine .inr ⟨offer, one, ⟨?_, locked.pinned, locked.derived⟩⟩
          rw [aborted]
          nofun
      · rcases inv.locked (by rw [exchanged]; exact ⟨nofun, nofun⟩) with ⟨offer, one, locked⟩
        refine .inr ⟨offer, one, ⟨?_, locked.pinned, locked.derived⟩⟩
        rw [completed]
        nofun
    · intro transferring
      change state = .transferring at transferring
      rcases final with aborted | ⟨completed, -⟩
      · cases aborted.symm.trans transferring
      · cases completed.symm.trans transferring
    · exact ⟨sendJustified_none silent.sentPayload, inv.justified⟩

theorem frame_update (frame : session = { origin with
      state := session.state, processedIds := session.processedIds })
    (state : SessionState) (ids : List EventId) :
    { session with state, processedIds := ids } =
      { origin with state, processedIds := ids } := by
  rw [frame]

variable {state : SessionState}

theorem TargetPhase.received {origin : PairingSession} {peer : PublicKey} {log : List Entry} (phase : TargetPhase primitives origin peer log state) :
    (receivedPayloads log).length ≤ 1 := by
  cases state with
  | waiting => exact phase.elim
  | confirming =>
    rw [show receivedPayloads log = [] from phase]
    exact Nat.zero_le 1
  | awaitingConfirmation | transferring =>
    rw [phase.1]
    exact Nat.zero_le 1
  | payloadExchanged | completed | aborted => exact phase

theorem TargetPhase.quiet {log : List Entry} (silent : entry.Quiet)
    (phase : TargetPhase primitives origin peer log state) :
    TargetPhase primitives origin peer (entry :: log) state := by
  have same := receivedPayloads_quiet silent log
  have few (fewBefore : (receivedPayloads log).length ≤ 1) :
      (receivedPayloads (entry :: log)).length ≤ 1 := by
    rw [same]
    exact fewBefore
  cases state with
  | waiting => exact phase
  | confirming => exact same.trans phase
  | awaitingConfirmation | transferring => exact ⟨same.trans phase.1, .inr phase.2⟩
  | payloadExchanged | completed | aborted => exact few phase

variable {target : Party}

theorem TargetInv.emits (lawful : primitives.Lawful) (inv : TargetInv primitives origin peer target)
    (role : origin.role = .target) (drafts : call.Drafts) :
    ∀ event ∈ (Pairing.emits (target.session.perform primitives call).1).toList ++ target.emitted,
      event.kind = pairingKind → ∃ peer message, Seals primitives origin.keys peer message event ∧
        ∀ hash, message ≠ .sasConfirm hash := by
  intro event member kind
  rcases mem_emitted member with new | old
  · rcases PairingSession.perform_emits lawful new with drafted | built
    · rcases drafted with ⟨draft, aux, same, drafted⟩
      exact absurd (drafted.symm.trans kind) (drafts draft aux same)
    · rcases built with ⟨peer, message, known, sealed, confirms⟩
      rw [inv.frame] at sealed
      refine ⟨peer, message, sealed, ?_⟩
      intro hash same
      have source := (confirms hash same).2
      rw [inv.frame] at source
      exact absurd (role.symm.trans source) nofun
  · exact inv.emitted event old kind

theorem TargetInv.perform
    {code : ℕ} (lawful : primitives.Lawful) (inv : TargetInv primitives origin peer target)
    (role : origin.role = .target) (pinned : origin.peerPubkey = some peer)
    (derived : origin.sasCode = some code) (drafts : call.Drafts) :
    TargetInv primitives origin peer (target.perform primitives call) := by
  have frame := inv.frame
  have sameRole : target.session.role = .target := by
    rw [frame]
    exact role
  have sameCode : target.session.sasCode = some code := by
    rw [frame]
    exact derived
  have samePeer : target.session.peerPubkey = some peer := by
    rw [frame]
    exact pinned
  have move := @PairingSession.perform_target primitives target.session code sameRole sameCode call
  have emitted := inv.emits lawful role drafts
  have phase := inv.phase
  rw [Party.perform]
  generalize (target.session.perform primitives call).1 = outcome at move emitted ⊢
  generalize (target.session.perform primitives call).2 = next at move emitted ⊢
  generalize (⟨call, outcome⟩ : Entry) = entry at move ⊢
  cases move with
  | quiet silent =>
    exact ⟨frame, phase.quiet silent, ⟨receiveJustified_none silent.receivedPayload,
      inv.justified⟩, emitted⟩
  | @matched now event hash returned received matched =>
    rw [received.state] at phase
    refine ⟨frame_update frame _ _, ⟨phase, .inl ⟨⟨event, rfl, ?_⟩, trivial⟩⟩,
      ⟨receiveJustified_none rfl, inv.justified⟩, emitted⟩
    have decrypted := received.decrypted
    have addressed := received.validated.addressed
    rw [frame] at decrypted matched addressed
    exact ⟨received.validated.verified, received.validated.kind, addressed,
      received.author peer samePeer, hash, decrypted, matched⟩
  | @approved now returned awaiting =>
    rw [awaiting] at phase
    exact ⟨frame_update frame _ _, ⟨phase.1, .inl ⟨rfl, phase.2⟩⟩,
      ⟨receiveJustified_none rfl, inv.justified⟩, emitted⟩
  | @received now event payloadType payload received =>
    rw [received.state] at phase
    refine ⟨frame_update frame _ _, ?_, ⟨?_, inv.justified⟩, emitted⟩
    · change ((event, payloadType, payload) :: receivedPayloads target.log).length ≤ 1
      rw [phase.1]
      exact Nat.le_refl 1
    · intro other otherType otherPayload same
      cases same
      exact ⟨received.author peer samePeer, phase.2⟩
  | @ended _ state ids silent final =>
    refine ⟨frame_update frame _ _, ?_, ⟨receiveJustified_none silent.receivedPayload,
      inv.justified⟩, emitted⟩
    have few : (receivedPayloads (entry :: target.log)).length ≤ 1 := by
      rw [receivedPayloads_quiet silent]
      exact phase.received
    rcases final with aborted | ⟨completed, -⟩
    · rw [aborted]
      exact few
    · rw [completed]
      exact few

end Buzz.Pairing
