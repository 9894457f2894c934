import Buzz.Pairing.Safety

/-! What a call that fails leaves behind, and what an accepted event leaves for later calls. -/

namespace Buzz.Pairing

open Nostr List
open Buzz.Library.Results (bind_ok)

variable (primitives : Primitives)

inductive Created : PairingSession → Prop
  | source (relayUrl : String) (keys : SecretKey) (sessionSecret : FixedBytes 32) (now : ℕ) :
      Created (PairingSession.newSource primitives relayUrl keys sessionSecret now).1
  | target {qr : QrPayload} {keys : SecretKey} {draw : Draw} {now : ℕ} {session : PairingSession}
      {event : Event}
      (joined : PairingSession.newTarget primitives qr keys draw now = .ok (session, event)) :
      Created session

def SharesKeys : Prop :=
  ∀ event keys, primitives.verify event = .ok () →
    ∃ ecdh, primitives.generateSharedKey keys event.pubkey = .ok ecdh

namespace PairingSession

def performs (self : PairingSession) (calls : List Call) : PairingSession :=
  calls.foldl (fun session call => (session.perform primitives call).2) self

def Accepts (self : PairingSession) (call : Call) (event : Event) : Prop :=
  call.delivers = some event ∧ ∃ returned, (self.perform primitives call).1 = .ok returned

inductive AbortsOn : Call → PairingError → Prop
  | transcript (now : ℕ) (event : Event) :
      AbortsOn (.handleSasConfirm now event) .transcriptMismatch
  | complete (now : ℕ) (event : Event) :
      AbortsOn (.handleComplete now event)
        (.unexpectedMessage "complete(success=true)" "complete(success=false)")

def Coded (self : PairingSession) : Prop := self.role = .target → self.sasCode.isSome

inductive Effect (self : PairingSession) (call : Call) : Outcome → PairingSession → Prop
  | failed (error : PairingError) : Effect self call (.error error) self
  | aborted {error : PairingError} (documented : AbortsOn call error)
      (unfinished : self.state.terminal = false) :
      Effect self call (.error error) { self with state := .aborted }
  | read (returned : Returned) (local_ : call.delivers = none) : Effect self call (.ok returned) self
  | moved (returned : Returned) (state : SessionState) (local_ : call.delivers = none)
      (unfinished : self.state.terminal = false) :
      Effect self call (.ok returned) { self with state }
  | accepted {event : Event} (returned : Returned) {next : PairingSession}
      (delivered : call.delivers = some event) (new : event.id ∉ self.processedIds)
      (unfinished : self.state.terminal = false) (ids : next.processedIds = self.processedIds)
      (role : next.role = self.role)
      (codes : self.sasCode.isSome → next.sasCode.isSome) :
      Effect self call (.ok returned) (next.recordEvent event)

variable {primitives} {self : PairingSession}

variable {expected : SessionState}

theorem expectState_open (checked : self.expectState expected = .ok ())
    (unfinished : expected.terminal = false) : self.state.terminal = false := by
  rw [expectState_ok checked]
  exact unfinished

theorem expectOpen_ok (checked : self.expectOpen = .ok ()) : self.state.terminal = false := by
  unfold expectOpen at checked
  split at checked
  · cases checked
  · simp_all

variable {call : Call} {next : PairingSession}

theorem effect_onSuccess {α : Type} {result : Except PairingError α} {wrap : α → Returned}
    (succeeded : ∀ value, result = .ok value → Effect self call (.ok (wrap value)) next) :
    Effect self call ((self.onSuccess result next).1.map wrap) (self.onSuccess result next).2 := by
  cases result with
  | error error => exact .failed error
  | ok value => exact succeeded value rfl

variable {event : Event}

theorem checkOffer_validated {now : ℕ}
    (checked : self.checkOffer primitives now event = .ok ()) : Validated primitives self event := by
  rcases bind_ok (guarded_ok checked).2.2 with ⟨⟨⟩, basics, -⟩
  exact validateEventBasics_ok basics

variable {state : SessionState} {message : PairingMessage}

theorem Received.open_ {role : Role} (received : self.Received primitives state role event message)
    (unfinished : state.terminal = false) : self.state.terminal = false := by
  rw [received.state]
  exact unfinished

theorem effect_handleOffer (shares : SharesKeys primitives) (now : ℕ) (event : Event) :
    Effect self (.handleOffer now event) ((self.handleOffer primitives now event).1.map .sas)
      (self.handleOffer primitives now event).2 := by
  unfold handleOffer
  cases checked : self.checkOffer primitives now event with
  | error error => exact .failed error
  | ok done =>
    have validated := checkOffer_validated checked
    rcases shares event self.keys validated.verified with ⟨ecdh, shared⟩
    simp only [shared]
    have unfinished : self.state.terminal = false := by
      rw [(checkOffer_ok checked).1]
      rfl
    exact .accepted _ rfl validated.new unfinished rfl rfl (fun _ => rfl)

theorem Received.accepted {call : Call} {next : SessionState} {role : Role} {event : Event} (received : self.Received primitives state role event message)
    (unfinished : state.terminal = false) (delivered : call.delivers = some event)
    (returned : Returned) :
    Effect self call (.ok returned) ({ self with state := next }.recordEvent event) :=
  .accepted returned delivered received.validated.new (received.open_ unfinished) rfl rfl id

theorem effect_handleComplete (now : ℕ) (event : Event) :
    Effect self (.handleComplete now event)
      ((self.handleComplete primitives now event).1.map fun _ => .done)
      (self.handleComplete primitives now event).2 := by
  unfold handleComplete
  cases taken : self.receive primitives now .payloadExchanged .source event with
  | error error => exact .failed error
  | ok message =>
    have received := receive_ok taken
    cases message with
    | complete success =>
      cases success with
      | true => exact received.accepted rfl rfl .done
      | false => exact .aborted (.complete now event) (received.open_ rfl)
    | offer sessionId version | sasConfirm hash | payload payloadType payload | abort reason =>
      exact .failed _

theorem effect_handleSasConfirm (coded : self.Coded) (now : ℕ) (event : Event) :
    Effect self (.handleSasConfirm now event)
      ((self.handleSasConfirm primitives now event).1.map .sas)
      (self.handleSasConfirm primitives now event).2 := by
  unfold handleSasConfirm
  cases taken : self.receive primitives now .confirming .target event with
  | error error => exact .failed error
  | ok message =>
    have received := receive_ok taken
    cases message with
    | sasConfirm hash =>
      cases derived : self.expectedHash primitives with
      | error error => exact .failed error
      | ok expected =>
        simp only
        split
        · exact .aborted (.transcript now event) (received.open_ rfl)
        · rcases Option.isSome_iff_exists.mp (coded received.role) with ⟨code, known⟩
          have shown : (okOr self.sasCode .sasMismatch).map formatSas
              = .ok (formatSas code) := by
            rw [known]
            rfl
          rw [shown]
          exact received.accepted rfl rfl (.sas (formatSas code))
    | offer sessionId version | complete success | payload payloadType payload | abort reason =>
      exact .failed _

theorem effect_handlePayload (now : ℕ) (event : Event) :
    Effect self (.handlePayload now event)
      ((self.handlePayload primitives now event).1.map fun received =>
        .payload received.1 received.2)
      (self.handlePayload primitives now event).2 := by
  unfold handlePayload
  cases taken : self.receive primitives now .transferring .target event with
  | error error => exact .failed error
  | ok message =>
    have received := receive_ok taken
    cases message with
    | payload payloadType payload => exact received.accepted rfl rfl _
    | offer sessionId version | sasConfirm hash | complete success | abort reason => exact .failed _

theorem effect_handleAbort (event : Event) :
    Effect self (.handleAbort event) ((self.handleAbort primitives event).1.map .reason)
      (self.handleAbort primitives event).2 := by
  refine effect_onSuccess ?_
  intro reason ran
  rcases bind_ok ran with ⟨⟨⟩, inOpen, rest⟩
  split at rest
  · cases rest
  · rcases bind_ok rest with ⟨⟨⟩, fromPeer, -⟩
    exact .accepted _ rfl (validateEventFromPeer_ok fromPeer).1.new (expectOpen_ok inOpen) rfl rfl id

theorem open_of_steps {α : Type} {now : ℕ} {rest : Unit → Except PairingError α} {value : α}
    (ran : (do self.checkExpired now; let checked ← self.expectState expected; rest checked)
      = .ok value) (unfinished : expected.terminal = false) : self.state.terminal = false := by
  rcases bind_ok ran with ⟨⟨⟩, -, afterExpiry⟩
  rcases bind_ok afterExpiry with ⟨⟨⟩, inState, -⟩
  exact expectState_open inState unfinished

theorem perform_effect (shares : SharesKeys primitives) (coded : self.Coded) (call : Call) :
    Effect self call (self.perform primitives call).1 (self.perform primitives call).2 := by
  cases call with
  | handleOffer now event => exact effect_handleOffer shares now event
  | confirmSas now draw | sendPayload now draw payloadType payload =>
    exact effect_onSuccess fun value ran => .moved _ _ rfl (open_of_steps ran rfl)
  | handleComplete now event => exact effect_handleComplete now event
  | handleSasConfirm now event => exact effect_handleSasConfirm coded now event
  | confirmTargetSas now =>
    exact effect_onSuccess fun value ran => .moved _ _ rfl (open_of_steps ran rfl)
  | handlePayload now event => exact effect_handlePayload now event
  | sendComplete now draw =>
    exact effect_onSuccess fun value ran => .moved _ _ rfl (open_of_steps ran rfl)
  | abort draw reason =>
    refine effect_onSuccess ?_
    intro value ran
    rcases bind_ok ran with ⟨⟨⟩, inOpen, -⟩
    exact .moved _ _ rfl (expectOpen_ok inOpen)
  | handleAbort event => exact effect_handleAbort event
  | signEvent draft aux =>
    simp only [perform]
    cases self.signEvent primitives draft aux with
    | error error => exact .failed error
    | ok event => exact .read _ rfl

/-! ## Over runs -/

variable {outcome : Outcome}

theorem Coded.effect (coded : self.Coded) (effect : Effect self call outcome next) : next.Coded := by
  cases effect with
  | failed error | aborted documented unfinished | read returned local_
  | moved returned state local_ unfinished => exact coded
  | accepted returned delivered new unfinished ids role codes =>
    intro isTarget
    exact codes (coded (role ▸ isTarget))

theorem Coded.created (created : Created primitives self) : self.Coded := by
  cases created with
  | source relayUrl keys sessionSecret now => intro isTarget; cases isTarget
  | target joined =>
    rcases bind_ok joined with ⟨ecdh, -, rest⟩
    rcases bind_ok rest with ⟨event, -, rest⟩
    cases rest
    exact fun _ => rfl

theorem Coded.performs (shares : SharesKeys primitives) (coded : self.Coded) (calls : List Call) :
    (self.performs primitives calls).Coded := by
  induction calls generalizing self with
  | nil => exact coded
  | cons call rest ih => exact ih (coded.effect (perform_effect shares coded call))

theorem Effect.failure {error : PairingError} (effect : Effect self call (.error error) next) :
    next = self ∨ AbortsOn call error ∧ next = { self with state := .aborted } := by
  cases effect with
  | failed error => exact .inl rfl
  | aborted documented unfinished => exact .inr ⟨documented, rfl⟩

theorem Effect.terminal
    (effect : Effect self call outcome next) (finished : self.state.terminal) :
    next = self := by
  cases effect with
  | failed error => rfl
  | aborted documented unfinished => simp [finished] at unfinished
  | read returned local_ => rfl
  | moved returned state local_ unfinished | accepted returned delivered new unfinished =>
    simp [finished] at unfinished

theorem Effect.remembers
    (effect : Effect self call outcome next) {id : EventId} (known : id ∈ self.processedIds) :
    id ∈ next.processedIds := by
  cases effect with
  | failed error | aborted documented unfinished | read returned local_
  | moved returned state local_ unfinished => exact known
  | accepted returned delivered new unfinished ids =>
    exact mem_cons_of_mem _ (ids ▸ known)

theorem Effect.records {returned : Returned} (effect : Effect self call (.ok returned) next)
    (delivered : call.delivers = some event) :
    event.id ∉ self.processedIds ∧ event.id ∈ next.processedIds := by
  cases effect with
  | read returned local_ | moved returned state local_ unfinished => simp [delivered] at local_
  | accepted returned delivered' new unfinished ids =>
    rw [delivered, Option.some.injEq] at delivered'
    subst delivered'
    exact ⟨new, mem_cons_self⟩

theorem performs_remembers (shares : SharesKeys primitives) (coded : self.Coded) {id : EventId}
    (known : id ∈ self.processedIds) (calls : List Call) :
    id ∈ (self.performs primitives calls).processedIds := by
  induction calls generalizing self with
  | nil => exact known
  | cons call rest ih =>
    have effect := perform_effect shares coded call
    exact ih (coded.effect effect) (effect.remembers known)

/-- But for the two documented aborts; what was accepted is never accepted again. -/
theorem failures_change_nothing (shares : SharesKeys primitives) {origin : PairingSession}
    (created : Created primitives origin) (calls : List Call) :
    let session := origin.performs primitives calls
    (∀ call error, (session.perform primitives call).1 = .error error →
      (session.perform primitives call).2 = session ∨
        AbortsOn call error ∧
          (session.perform primitives call).2 = { session with state := .aborted }) ∧
    (session.state.terminal → ∀ later,
      (session.performs primitives later).state = session.state) ∧
    ∀ call event, session.Accepts primitives call event → ∀ between again event',
      event'.id = event.id →
      ¬((session.performs primitives (call :: between)).Accepts primitives again event') := by
  intro session
  have coded : session.Coded := (Coded.created created).performs shares calls
  refine ⟨?_, ?_, ?_⟩
  · intro call error failed
    have effect := perform_effect shares coded call
    rw [failed] at effect
    exact effect.failure
  · intro finished later
    suffices stays : session.performs primitives later = session by rw [stays]
    induction later with
    | nil => rfl
    | cons call rest ih =>
      calc
        session.performs primitives (call :: rest)
            = ((session.perform primitives call).2).performs primitives rest := rfl
        _ = session.performs primitives rest := by
          rw [(perform_effect shares coded call).terminal finished]
        _ = session := ih
  · rintro call event ⟨delivered, returned, succeeded⟩ between again event' sameId ⟨delivered', returned', succeeded'⟩
    have effect := perform_effect shares coded call
    rw [succeeded] at effect
    have known := (effect.records delivered).2
    have later := performs_remembers shares (coded.effect effect) known between
    have effect' := perform_effect shares ((coded.effect effect).performs shares between) again
    change (((session.perform primitives call).2.performs primitives between).perform primitives
      again).1 = _ at succeeded'
    rw [succeeded'] at effect'
    exact (effect'.records delivered').1 (sameId ▸ later)

def sharingPrimitives : Primitives :=
  { samplePrimitives with generateSharedKey := fun _ _ => .ok sampleShared }

/-- The offer that the source took is refused when it comes again. -/
theorem failures_change_nothing_replay :
    let origin := (newSource sharingPrimitives "wss://relay.example" sampleSource sampleSecret 1).1
    let session := origin.performs sharingPrimitives [.handleOffer 3 sampleOffer.event]
    (∃ error, (session.perform sharingPrimitives (.handleOffer 4 sampleOffer.event)).1
      = .error error) ∧
    (session.perform sharingPrimitives (.handleOffer 4 sampleOffer.event)).2 = session := by
  intro origin session
  have shares : SharesKeys sharingPrimitives := fun _ _ _ => ⟨sampleShared, rfl⟩
  have created : Created sharingPrimitives origin := .source _ _ _ _
  have taken : (origin.perform sharingPrimitives (.handleOffer 3 sampleOffer.event)).1
      = .ok (.sas "863346") := by
    decide +kernel
  have never := (failures_change_nothing shares created []).2.2 (.handleOffer 3 sampleOffer.event)
    sampleOffer.event ⟨rfl, _, taken⟩ [] (.handleOffer 4 sampleOffer.event) sampleOffer.event rfl
  cases again : (session.perform sharingPrimitives (.handleOffer 4 sampleOffer.event)).1 with
  | ok returned => exact absurd ⟨rfl, returned, again⟩ never
  | error error =>
    refine ⟨⟨error, rfl⟩, ?_⟩
    rcases (failures_change_nothing shares created [.handleOffer 3 sampleOffer.event]).1 _ _ again
      with same | ⟨documented, -⟩
    · exact same
    · cases documented

end PairingSession

end Buzz.Pairing
