import Buzz.Library.Results
import Buzz.Pairing.Session

/-! The calls on a session, and all that each of them can do. -/

namespace Buzz.Pairing

open Nostr List
open Buzz.Library.Results (bind_ok)

inductive Call
  | handleOffer (now : ℕ) (event : Event)
  | confirmSas (now : ℕ) (draw : Draw)
  | sendPayload (now : ℕ) (draw : Draw) (payloadType : PayloadType) (payload : String)
  | handleComplete (now : ℕ) (event : Event)
  | handleSasConfirm (now : ℕ) (event : Event)
  | confirmTargetSas (now : ℕ)
  | handlePayload (now : ℕ) (event : Event)
  | sendComplete (now : ℕ) (draw : Draw)
  | abort (draw : Draw) (reason : AbortReason)
  | handleAbort (event : Event)
  | signEvent (draft : EventDraft) (aux : Bytes)

inductive Returned
  | done
  | sas (code : String)
  | event (event : Event)
  | noEvent
  | payload (payloadType : PayloadType) (payload : String)
  | reason (reason : AbortReason)
  deriving DecidableEq

def Call.delivers : Call → Option Event
  | .handleOffer _ event | .handleComplete _ event | .handleSasConfirm _ event
  | .handlePayload _ event | .handleAbort event => some event
  | _ => none

abbrev Outcome := Except PairingError Returned

def emits : Outcome → Option Event
  | .ok (.event event) => some event
  | _ => none

structure Entry where
  call : Call
  outcome : Outcome

namespace Entry

def acceptedOffer : Entry → Option Event
  | ⟨.handleOffer _ event, .ok _⟩ => some event
  | _ => none

def confirmation : Entry → Option Event
  | ⟨.confirmSas _ _, .ok (.event event)⟩ => some event
  | _ => none

def sentPayload : Entry → Option (PayloadType × String × Event)
  | ⟨.sendPayload _ _ payloadType payload, .ok (.event event)⟩ => some (payloadType, payload, event)
  | _ => none

def acceptedConfirm : Entry → Option Event
  | ⟨.handleSasConfirm _ event, .ok _⟩ => some event
  | _ => none

def approval : Entry → Option Unit
  | ⟨.confirmTargetSas _, .ok _⟩ => some ()
  | _ => none

def receivedPayload : Entry → Option (Event × PayloadType × String)
  | ⟨.handlePayload _ event, .ok (.payload payloadType payload)⟩ =>
    some (event, payloadType, payload)
  | _ => none

structure Quiet (entry : Entry) : Prop where
  acceptedOffer : entry.acceptedOffer = none
  confirmation : entry.confirmation = none
  sentPayload : entry.sentPayload = none
  acceptedConfirm : entry.acceptedConfirm = none
  approval : entry.approval = none
  receivedPayload : entry.receivedPayload = none

end Entry

variable (primitives : Primitives)

namespace PairingSession

def perform (self : PairingSession) : Call → Outcome × PairingSession
  | .handleOffer now event =>
    let result := self.handleOffer primitives now event
    (result.1.map .sas, result.2)
  | .confirmSas now draw =>
    let result := self.confirmSas primitives now draw
    (result.1.map .event, result.2)
  | .sendPayload now draw payloadType payload =>
    let result := self.sendPayload primitives now draw payloadType payload
    (result.1.map .event, result.2)
  | .handleComplete now event =>
    let result := self.handleComplete primitives now event
    (result.1.map fun _ => .done, result.2)
  | .handleSasConfirm now event =>
    let result := self.handleSasConfirm primitives now event
    (result.1.map .sas, result.2)
  | .confirmTargetSas now =>
    let result := self.confirmTargetSas now
    (result.1.map fun _ => .done, result.2)
  | .handlePayload now event =>
    let result := self.handlePayload primitives now event
    (result.1.map fun received => .payload received.1 received.2, result.2)
  | .sendComplete now draw =>
    let result := self.sendComplete primitives now draw
    (result.1.map .event, result.2)
  | .abort draw reason =>
    let result := self.abort primitives draw reason
    (result.1.map fun event => event.elim .noEvent .event, result.2)
  | .handleAbort event =>
    let result := self.handleAbort primitives event
    (result.1.map .reason, result.2)
  | .signEvent draft aux => ((self.signEvent primitives draft aux).map .event, self)

end PairingSession

structure Seals (keys : SecretKey) (peer : PublicKey) (message : PairingMessage) (event : Event) :
    Prop where
  author : event.pubkey = primitives.publicKey keys
  addressed : ∀ tag ∈ event.tags, tag = publicKeyTag peer
  content : ∃ text nonce, primitives.toJson message = .ok text ∧
    primitives.encrypt keys peer text nonce = .ok event.content

structure Validated (session : PairingSession) (event : Event) : Prop where
  verified : primitives.verify event = .ok ()
  new : event.id ∉ session.processedIds
  kind : event.kind = pairingKind
  addressed : ∃ tag ∈ event.tags, tag.buf.head? = some "p" ∧
    tag.buf[1]? = some (session.pubkey primitives).toHex

variable {primitives}

variable {α : Type}

theorem mapError_eq_ok {ε : Type} {first : Except ε α} {wrap : ε → PairingError} {result : α}
    (ran : first.mapError wrap = .ok result) : first = .ok result := by
  cases first with
  | error error => cases ran
  | ok value =>
    cases ran
    rfl

theorem okOr_eq_ok {value : Option α} {error : PairingError} {result : α}
    (ran : okOr value error = .ok result) : value = some result := by
  cases value with
  | none => cases ran
  | some value =>
    cases ran
    rfl

namespace PairingSession

variable {self : PairingSession}

theorem expectState_ok {expected : SessionState} (checked : self.expectState expected = .ok ()) :
    self.state = expected := by
  rw [expectState] at checked
  split at checked
  · cases checked
  next same => exact not_not.mp same

theorem expectRole_ok {expected : Role} (checked : self.expectRole expected = .ok ()) :
    self.role = expected := by
  rw [expectRole] at checked
  split at checked
  · cases checked
  next same => exact not_not.mp same

variable {event : Event}

theorem validateEventBasics_ok (checked : self.validateEventBasics primitives event = .ok ()) :
    Validated primitives self event := by
  rw [validateEventBasics] at checked
  split at checked
  · cases checked
  next verified =>
    split at checked
    · cases checked
    next new =>
      split at checked
      · cases checked
      next kind =>
        split at checked
        · cases checked
        next tagged =>
          rw [Bool.not_eq_true', Bool.not_eq_false, hasPTag, any_eq_true] at tagged
          rcases tagged with ⟨tag, member, matched⟩
          rw [Bool.and_eq_true, beq_iff_eq, beq_iff_eq] at matched
          refine ⟨verified, ?_, not_not.mp kind, tag, member, matched⟩
          intro member
          exact new (contains_iff_mem.mpr member)

theorem validateEventFromPeer_ok (checked : self.validateEventFromPeer primitives event = .ok ()) :
    Validated primitives self event ∧ ∀ peer, self.peerPubkey = some peer →
      event.pubkey = peer := by
  rcases bind_ok checked with ⟨⟨⟩, basics, rest⟩
  refine ⟨validateEventBasics_ok basics, ?_⟩
  intro peer pinned
  rw [pinned] at rest
  simp only at rest
  split at rest
  · cases rest
  next same => exact not_not.mp same

variable {state : SessionState}

theorem guarded_ok {α : Type} {now : ℕ} {role : Role} {rest : Except PairingError α} {result : α}
    (ran : (do
      self.checkExpired now
      self.expectState state
      self.expectRole role
      rest) = .ok result) : self.state = state ∧ self.role = role ∧ rest = .ok result := by
  rcases bind_ok ran with ⟨⟨⟩, -, afterExpiry⟩
  rcases bind_ok afterExpiry with ⟨⟨⟩, inState, afterState⟩
  rcases bind_ok afterState with ⟨⟨⟩, inRole, afterRole⟩
  exact ⟨expectState_ok inState, expectRole_ok inRole, afterRole⟩

structure Received (primitives : Primitives) (session : PairingSession) (state : SessionState)
    (role : Role) (event : Event) (message : PairingMessage) : Prop where
  state : session.state = state
  role : session.role = role
  validated : Validated primitives session event
  author : ∀ peer, session.peerPubkey = some peer → event.pubkey = peer
  decrypted : session.decryptMessage primitives event = .ok message

variable {message : PairingMessage}

theorem receive_ok {now : ℕ} {role : Role}
    (received : self.receive primitives now state role event = .ok message) :
    self.Received primitives state role event message := by
  rcases guarded_ok received with ⟨inState, inRole, afterRole⟩
  rcases bind_ok afterRole with ⟨⟨⟩, fromPeer, decrypted⟩
  have validated := validateEventFromPeer_ok fromPeer
  exact ⟨inState, inRole, validated.1, validated.2, decrypted⟩

theorem buildEvent_ok (lawful : primitives.Lawful) {draw : Draw}
    (built : self.buildEvent primitives draw message = .ok event) :
    ∃ peer, self.peerPubkey = some peer ∧ event.kind = pairingKind ∧
      Seals primitives self.keys peer message event := by
  rcases bind_ok built with ⟨peer, known, afterPeer⟩
  rcases bind_ok afterPeer with ⟨text, written, afterText⟩
  rcases bind_ok afterText with ⟨sealed, encrypted, signed⟩
  rcases lawful.signed _ _ _ _ (mapError_eq_ok signed) with ⟨author, kind, tags, content⟩
  refine ⟨peer, okOr_eq_ok known, kind, author, ?_, text, draw.nonce, mapError_eq_ok written, ?_⟩
  · intro tag member
    exact mem_singleton.mp (tags member)
  · rw [content]
    exact mapError_eq_ok encrypted

theorem onSuccess_fst {α : Type} (self : PairingSession) (result : Except PairingError α)
    (next : PairingSession) : (self.onSuccess result next).1 = result := by
  cases result with
  | error error | ok value => rfl

end PairingSession

theorem quiet_error (call : Call) (error : PairingError) : Entry.Quiet ⟨call, .error error⟩ := by
  cases call <;> exact ⟨rfl, rfl, rfl, rfl, rfl, rfl⟩

theorem onSuccess_move {Move : Entry → PairingSession → Prop} {self next : PairingSession}
    {call : Call} {wrap : α → Returned} {result : Except PairingError α}
    (quiet : ∀ {entry : Entry}, entry.Quiet → Move entry self)
    (succeeded : ∀ value, result = .ok value → Move ⟨call, .ok (wrap value)⟩ next) :
    Move ⟨call, (self.onSuccess result next).1.map wrap⟩ (self.onSuccess result next).2 := by
  cases result with
  | error error => exact quiet (quiet_error call error)
  | ok value => exact succeeded value rfl

variable (primitives)

def PairingSession.lockTo (self : PairingSession) (peer : PublicKey) (ecdh : FixedBytes 32) :
    PairingSession :=
  { self with
    peerPubkey := some peer
    sasCode := some (deriveSas primitives ecdh self.sessionSecret).1
    sasInput := some (deriveSas primitives ecdh self.sessionSecret).2
    state := .confirming }

/-- A failed key exchange has locked to a peer without leaving `Waiting`. -/
inductive SourceMove (self : PairingSession) : Entry → PairingSession → Prop
  | quiet {entry : Entry} (silent : entry.Quiet) : SourceMove self entry self
  | pinned {entry : Entry} {peer : PublicKey} (silent : entry.Quiet)
      (waiting : self.state = .waiting) :
      SourceMove self entry { self with peerPubkey := some peer }
  | accepted {now : ℕ} {event : Event} {ecdh : FixedBytes 32} {returned : Returned}
      (waiting : self.state = .waiting)
      (shared : primitives.generateSharedKey self.keys event.pubkey = .ok ecdh) :
      SourceMove self ⟨.handleOffer now event, .ok returned⟩
        ((self.lockTo primitives event.pubkey ecdh).recordEvent event)
  | confirmed {now : ℕ} {draw : Draw} {event : Event} (confirming : self.state = .confirming) :
      SourceMove self ⟨.confirmSas now draw, .ok (.event event)⟩
        { self with state := .transferring }
  | sent {now : ℕ} {draw : Draw} {payloadType : PayloadType} {payload : String} {event : Event}
      {peer : PublicKey} (transferring : self.state = .transferring)
      (known : self.peerPubkey = some peer)
      (sealed : Seals primitives self.keys peer (.payload payloadType payload) event) :
      SourceMove self ⟨.sendPayload now draw payloadType payload, .ok (.event event)⟩
        { self with state := .payloadExchanged }
  | ended {entry : Entry} {state : SessionState} {ids : List EventId} (silent : entry.Quiet)
      (final : state = .aborted ∨ state = .completed ∧ self.state = .payloadExchanged) :
      SourceMove self entry { self with state, processedIds := ids }

def PairingSession.HashMatches (self : PairingSession) (hash : String) : Prop :=
  ∃ expected, self.expectedHash primitives = .ok expected ∧ decodeHash hash = some expected

inductive TargetMove (self : PairingSession) : Entry → PairingSession → Prop
  | quiet {entry : Entry} (silent : entry.Quiet) : TargetMove self entry self
  | matched {now : ℕ} {event : Event} {hash : String} {returned : Returned}
      (received : self.Received primitives .confirming .target event (.sasConfirm hash))
      (matched : self.HashMatches primitives hash) :
      TargetMove self ⟨.handleSasConfirm now event, .ok returned⟩
        ({ self with state := .awaitingConfirmation }.recordEvent event)
  | approved {now : ℕ} {returned : Returned} (awaiting : self.state = .awaitingConfirmation) :
      TargetMove self ⟨.confirmTargetSas now, .ok returned⟩ { self with state := .transferring }
  | received {now : ℕ} {event : Event} {payloadType : PayloadType} {payload : String}
      (received : self.Received primitives .transferring .target event
        (.payload payloadType payload)) :
      TargetMove self ⟨.handlePayload now event, .ok (.payload payloadType payload)⟩
        ({ self with state := .payloadExchanged }.recordEvent event)
  | ended {entry : Entry} {state : SessionState} {ids : List EventId} (silent : entry.Quiet)
      (final : state = .aborted ∨ state = .completed ∧ self.state = .payloadExchanged) :
      TargetMove self entry { self with state, processedIds := ids }

variable {primitives}

namespace PairingSession

variable {self : PairingSession} {event : Event}

theorem checkOffer_ok {now : ℕ} (checked : self.checkOffer primitives now event = .ok ()) :
    self.state = .waiting ∧ self.role = .source := by
  have guarded := guarded_ok checked
  exact ⟨guarded.1, guarded.2.1⟩

theorem perform_source (lawful : primitives.Lawful) (role : self.role = .source) (call : Call) :
    SourceMove primitives self ⟨call, (self.perform primitives call).1⟩
      (self.perform primitives call).2 := by
  have other : self.role ≠ .target := by
    rw [role]
    nofun
  cases call with
  | handleOffer now event =>
    simp only [perform, handleOffer]
    cases checked : self.checkOffer primitives now event with
    | error error => exact .quiet (quiet_error _ _)
    | ok done =>
      cases shared : primitives.generateSharedKey self.keys event.pubkey with
      | error error => exact .pinned (quiet_error _ _) (checkOffer_ok checked).1
      | ok ecdh => exact .accepted (checkOffer_ok checked).1 shared
  | confirmSas now draw =>
    refine onSuccess_move SourceMove.quiet ?_
    intro event ran
    exact .confirmed (guarded_ok ran).1
  | sendPayload now draw payloadType payload =>
    refine onSuccess_move SourceMove.quiet ?_
    intro event ran
    rcases guarded_ok ran with ⟨inState, -, built⟩
    rcases buildEvent_ok lawful built with ⟨peer, known, -, sealed⟩
    exact .sent inState known sealed
  | handleComplete now event =>
    simp only [perform, handleComplete]
    cases taken : self.receive primitives now .payloadExchanged .source event with
    | error error => exact .quiet (quiet_error _ _)
    | ok message =>
      have received := receive_ok taken
      cases message with
      | complete success =>
        cases success with
        | true => exact .ended ⟨rfl, rfl, rfl, rfl, rfl, rfl⟩ (.inr ⟨rfl, received.state⟩)
        | false => exact @SourceMove.ended _ self _ _ self.processedIds (quiet_error _ _) (.inl rfl)
      | _ => exact .quiet (quiet_error _ _)
  | handleSasConfirm now event =>
    simp only [perform, handleSasConfirm]
    cases taken : self.receive primitives now .confirming .target event with
    | error error => exact .quiet (quiet_error _ _)
    | ok message => exact absurd (receive_ok taken).role other
  | confirmTargetSas now =>
    refine onSuccess_move SourceMove.quiet ?_
    intro done ran
    rcases bind_ok ran with ⟨⟨⟩, -, afterExpiry⟩
    rcases bind_ok afterExpiry with ⟨⟨⟩, -, inRole⟩
    exact absurd (expectRole_ok inRole) other
  | handlePayload now event =>
    simp only [perform, handlePayload]
    cases taken : self.receive primitives now .transferring .target event with
    | error error => exact .quiet (quiet_error _ _)
    | ok message => exact absurd (receive_ok taken).role other
  | sendComplete now draw =>
    refine onSuccess_move SourceMove.quiet ?_
    intro event ran
    exact absurd (guarded_ok ran).2.1 other
  | abort draw reason =>
    refine onSuccess_move SourceMove.quiet ?_
    intro event ran
    exact @SourceMove.ended _ self _ _ self.processedIds ⟨rfl, rfl, rfl, rfl, rfl, rfl⟩
      (.inl rfl)
  | handleAbort event =>
    refine onSuccess_move SourceMove.quiet ?_
    intro reason ran
    exact .ended ⟨rfl, rfl, rfl, rfl, rfl, rfl⟩ (.inl rfl)
  | signEvent draft aux => exact .quiet ⟨rfl, rfl, rfl, rfl, rfl, rfl⟩

theorem perform_target {code : ℕ} (role : self.role = .target) (derived : self.sasCode = some code)
    (call : Call) :
    TargetMove primitives self ⟨call, (self.perform primitives call).1⟩
      (self.perform primitives call).2 := by
  have other : self.role ≠ .source := by
    rw [role]
    nofun
  cases call with
  | handleOffer now event =>
    simp only [perform, handleOffer]
    cases checked : self.checkOffer primitives now event with
    | error error => exact .quiet (quiet_error _ _)
    | ok done => exact absurd (checkOffer_ok checked).2 other
  | confirmSas now draw | sendPayload now draw payloadType payload =>
    refine onSuccess_move TargetMove.quiet ?_
    intro event ran
    exact absurd (guarded_ok ran).2.1 other
  | handleComplete now event =>
    simp only [perform, handleComplete]
    cases taken : self.receive primitives now .payloadExchanged .source event with
    | error error => exact .quiet (quiet_error _ _)
    | ok message => exact absurd (receive_ok taken).role other
  | handleSasConfirm now event =>
    simp only [perform, handleSasConfirm]
    cases taken : self.receive primitives now .confirming .target event with
    | error error => exact .quiet (quiet_error _ _)
    | ok message =>
      cases message with
      | sasConfirm hash =>
        cases expectation : self.expectedHash primitives with
        | error error => exact .quiet (quiet_error _ _)
        | ok expected =>
          by_cases same : decodeHash hash = some expected
          · have coded : (okOr self.sasCode .sasMismatch).map formatSas =
                .ok (formatSas code) := by
              rw [derived]
              rfl
            simp only [if_neg (not_not.mpr same), coded]
            exact .matched (receive_ok taken) ⟨expected, expectation, same⟩
          · simp only [if_pos same]
            exact @TargetMove.ended _ self _ _ self.processedIds (quiet_error _ _)
              (.inl rfl)
      | _ => exact .quiet (quiet_error _ _)
  | confirmTargetSas now =>
    refine onSuccess_move TargetMove.quiet ?_
    intro done ran
    rcases bind_ok ran with ⟨⟨⟩, -, afterExpiry⟩
    rcases bind_ok afterExpiry with ⟨⟨⟩, inState, -⟩
    exact .approved (expectState_ok inState)
  | handlePayload now event =>
    simp only [perform, handlePayload]
    cases taken : self.receive primitives now .transferring .target event with
    | error error => exact .quiet (quiet_error _ _)
    | ok message =>
      cases message with
      | payload payloadType payload => exact .received (receive_ok taken)
      | _ => exact .quiet (quiet_error _ _)
  | sendComplete now draw =>
    refine onSuccess_move TargetMove.quiet ?_
    intro event ran
    exact @TargetMove.ended _ self _ _ self.processedIds ⟨rfl, rfl, rfl, rfl, rfl, rfl⟩
      (.inr ⟨rfl, (guarded_ok ran).1⟩)
  | abort draw reason =>
    refine onSuccess_move TargetMove.quiet ?_
    intro event ran
    exact @TargetMove.ended _ self _ _ self.processedIds ⟨rfl, rfl, rfl, rfl, rfl, rfl⟩
      (.inl rfl)
  | handleAbort event =>
    refine onSuccess_move TargetMove.quiet ?_
    intro reason ran
    exact .ended ⟨rfl, rfl, rfl, rfl, rfl, rfl⟩ (.inl rfl)
  | signEvent draft aux => exact .quiet ⟨rfl, rfl, rfl, rfl, rfl, rfl⟩

theorem emits_map {α : Type} {result : Except PairingError α} {wrap : α → Returned}
    (emitted : emits (result.map wrap) = some event) :
    ∃ value, result = .ok value ∧ wrap value = .event event := by
  cases result with
  | error error => cases emitted
  | ok value =>
    refine ⟨value, rfl, ?_⟩
    change emits (.ok (wrap value)) = some event at emitted
    cases returned : wrap value with
    | event other =>
      rw [returned] at emitted
      exact congrArg Returned.event (Option.some.inj emitted)
    | _ =>
      rw [returned] at emitted
      cases emitted

/-- A draft of the caller's, or a message to the peer. -/
theorem perform_emits (lawful : primitives.Lawful) {call : Call}
    (emitted : emits (self.perform primitives call).1 = some event) :
    (∃ draft aux, call = .signEvent draft aux ∧ event.kind = draft.kind) ∨
      ∃ peer message, self.peerPubkey = some peer ∧
        Seals primitives self.keys peer message event ∧
        ∀ hash, message = .sasConfirm hash → self.state = .confirming ∧ self.role = .source := by
  have built (draw : Draw) (message : PairingMessage) (notConfirm : ∀ hash, message ≠ .sasConfirm hash)
      (ran : self.buildEvent primitives draw message = .ok event) :
      ∃ peer message, self.peerPubkey = some peer ∧
        Seals primitives self.keys peer message event ∧
        ∀ hash, message = .sasConfirm hash → self.state = .confirming ∧ self.role = .source := by
    rcases buildEvent_ok lawful ran with ⟨peer, known, -, sealed⟩
    exact ⟨peer, message, known, sealed, fun hash same => absurd same (notConfirm hash)⟩
  cases call with
  | handleOffer now event =>
    rcases emits_map emitted with ⟨code, -, wrong⟩
    cases wrong
  | handleComplete now event =>
    rcases emits_map emitted with ⟨done, -, wrong⟩
    cases wrong
  | handleSasConfirm now event =>
    rcases emits_map emitted with ⟨code, -, wrong⟩
    cases wrong
  | confirmTargetSas now =>
    rcases emits_map emitted with ⟨done, -, wrong⟩
    cases wrong
  | handlePayload now event =>
    rcases emits_map emitted with ⟨received, -, wrong⟩
    cases wrong
  | handleAbort event =>
    rcases emits_map emitted with ⟨reason, -, wrong⟩
    cases wrong
  | confirmSas now draw =>
    right
    rcases emits_map emitted with ⟨value, ran, same⟩
    cases same
    rw [confirmSas, onSuccess_fst] at ran
    rcases guarded_ok ran with ⟨inState, inRole, afterRole⟩
    rcases bind_ok afterRole with ⟨sasInput, -, afterInput⟩
    rcases bind_ok afterInput with ⟨peer, -, built⟩
    rcases buildEvent_ok lawful built with ⟨peer, known, -, sealed⟩
    exact ⟨peer, _, known, sealed, fun hash same => ⟨inState, inRole⟩⟩
  | sendPayload now draw payloadType payload =>
    right
    rcases emits_map emitted with ⟨value, ran, same⟩
    cases same
    rw [sendPayload, onSuccess_fst] at ran
    exact built draw _ (by intro hash same; cases same) (guarded_ok ran).2.2
  | sendComplete now draw =>
    right
    rcases emits_map emitted with ⟨value, ran, same⟩
    cases same
    rw [sendComplete, onSuccess_fst] at ran
    exact built draw _ (by intro hash same; cases same) (guarded_ok ran).2.2
  | abort draw reason =>
    right
    rcases emits_map emitted with ⟨value, ran, same⟩
    rw [abort, onSuccess_fst] at ran
    rcases bind_ok ran with ⟨⟨⟩, -, afterOpen⟩
    split at afterOpen
    · cases afterOpen
      cases same
    · rcases bind_ok afterOpen with ⟨other, sent, returned⟩
      cases returned
      cases same
      exact built draw _ (by intro hash same; cases same) sent
  | signEvent draft aux =>
    left
    rcases emits_map emitted with ⟨value, ran, same⟩
    cases same
    exact ⟨draft, aux, rfl, (lawful.signed _ _ _ _ (mapError_eq_ok ran)).2.1⟩

end PairingSession

end Buzz.Pairing
