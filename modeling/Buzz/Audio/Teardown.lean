import Buzz.Audio.Control
import Buzz.Audio.Presence

/-! When a control stream that ends takes all of its peers out of the owner's rooms. -/

namespace Buzz.Audio

open Nostr Library Library.Runs List Option

def Phase.KeepsTable : Phase → Prop
  | .returned _ => False
  | .tearingDown .. => False
  | .unregistering .. => False
  | _ => True

namespace Owner

def Complete (owner : Owner) : Prop :=
  ∀ result, owner.control.phase = .returned result →
    ∀ peerId ∈ owner.control.admitted, ∀ place, ¬ owner.manager.Present place peerId

def aborts (owner : Owner) (event : Event) : Bool :=
  match event, owner.control.phase with
  | .wrote outcome, .answering _ => outcome ≠ .sent
  | .wrote outcome, .replying _ => outcome = .encodeFailed
  | _, _ => false

def admitting (owner : Owner) (event : Event) : Option (ℕ × RoomKey × String) :=
  match event, owner.control.phase with
  | .validated (.ok ()) peerId, .validating room communityId pubkey protocolVersion =>
    if (owner.manager.objects[room]?).any fun object =>
      (object.addPeer peerId pubkey protocolVersion).1.toOption.isSome
    then some (room, ⟨communityId, owner.control.fenced.sessionId⟩, pubkey) else none
  | _, _ => none

def Clean (owner : Owner) (event : Event) : Prop :=
  (owner.aborts event → owner.control.registered.entries = []) ∧
    ∀ admitted ∈ owner.admitting event,
      owner.control.registered.get admitted.2.2 = none ∧
        owner.manager.rooms.get admitted.2.1 = some admitted.1

instance (owner : Owner) (event : Event) : Decidable (owner.Clean event) :=
  inferInstanceAs (Decidable (_ ∧ ∀ admitted ∈ owner.admitting event, _))

/-- It is in the table, and this is its channel's room. -/
def Registered (owner : Owner) (place : ℕ) (peerId : Uuid) : Prop :=
  (∃ pubkey, (pubkey, peerId) ∈ owner.control.registered.entries) ∧ owner.streamRoom = some place

def Accounted (owner : Owner) (place : ℕ) (peerId : Uuid) : Prop :=
  match owner.control.phase with
  | .returned _ => False
  | .tearingDown room registered _ => place = room ∧ ∃ pubkey, (pubkey, peerId) ∈ registered
  | .unregistering room removing => place = room ∧ peerId = removing ∨ owner.Registered place peerId
  | _ => owner.Registered place peerId

def Latched (owner : Owner) : Phase → Prop
  | .validating _ communityId _ _ => owner.control.streamCommunity = some communityId
  | _ => True

structure Tracked (owner : Owner) : Prop where
  drawn : ∀ peerId place, owner.manager.Present place peerId → peerId ∈ owner.drawn
  admitted : ∀ peerId ∈ owner.control.admitted, peerId ∈ owner.drawn
  accounted : ∀ peerId ∈ owner.control.admitted, ∀ place, owner.manager.Present place peerId →
    owner.Accounted place peerId
  latched : owner.Latched owner.control.phase

structure Held (owner : Owner) : Prop where
  drawn : ∀ peerId place, owner.manager.Present place peerId → peerId ∈ owner.drawn
  admitted : ∀ peerId ∈ owner.control.admitted, peerId ∈ owner.drawn
  registered : ∀ peerId ∈ owner.control.admitted, ∀ place, owner.manager.Present place peerId →
    owner.Registered place peerId

variable {owner : Owner} {place room : ℕ} {peerId : Uuid} {phase : Phase} {result : LoopResult}

theorem Tracked.complete (tracked : owner.Tracked) : owner.Complete := by
  intro result isReturned peerId isAdmitted place present
  have accounted := tracked.accounted peerId isAdmitted place present
  rw [Accounted, isReturned] at accounted
  exact accounted

theorem accounted_iff (keeps : owner.control.phase.KeepsTable) :
    owner.Accounted place peerId ↔ owner.Registered place peerId := by
  unfold Accounted
  cases isPhase : owner.control.phase with
  | returned result | tearingDown room registered result | unregistering room removing =>
    rw [isPhase] at keeps
    exact False.elim keeps
  | selecting | validating room communityId pubkey version | replying reply | answering message
  | closing reason result => exact Iff.rfl

theorem Tracked.held (tracked : owner.Tracked) (keeps : owner.control.phase.KeepsTable) :
    owner.Held := { tracked with
  registered peerId isAdmitted place present :=
    (accounted_iff keeps).mp (tracked.accounted peerId isAdmitted place present) }

section

variable (held : owner.Held)

include held

theorem Held.setPhase (keeps : phase.KeepsTable) (latched : owner.Latched phase) :
    (owner.setPhase phase).Tracked where
  drawn := held.drawn
  admitted := held.admitted
  accounted peerId isAdmitted place present := by
    rw [accounted_iff keeps]
    exact held.registered peerId isAdmitted place present
  latched := by
    cases phase with
    | validating room communityId pubkey version => exact latched
    | _ => exact trivial

theorem Held.teardown : (owner.teardown result).Tracked := by
  unfold Owner.teardown
  cases isRoom : owner.streamRoom with
  | none =>
    refine ⟨held.drawn, held.admitted, fun peerId isAdmitted place present => ?_, trivial⟩
    have registered := held.registered peerId isAdmitted place present
    cases registered.2.symm.trans isRoom
  | some room =>
    refine ⟨held.drawn, held.admitted, fun peerId isAdmitted place present => ?_, trivial⟩
    have registered := held.registered peerId isAdmitted place present
    cases registered.2.symm.trans isRoom
    exact ⟨rfl, registered.1⟩

theorem Held.leave {reason : Option GoodbyeReason} :
    (owner.leave reason result).Tracked := by
  unfold Owner.leave
  cases reason with
  | none => exact held.teardown
  | some reason => exact held.setPhase trivial trivial

theorem Held.sendSnapshot : owner.sendSnapshot.Tracked := by
  unfold Owner.sendSnapshot
  split
  · exact held.setPhase trivial trivial
  · exact held.leave

theorem Held.abort (empty : owner.control.registered.entries = []) :
    (owner.setPhase (.returned result)).Tracked := { held with
  accounted peerId isAdmitted place present := by
    obtain ⟨pubkey, member⟩ := (held.registered peerId isAdmitted place present).1
    rw [empty] at member
    cases member
  latched := trivial }

theorem Held.record {message : HuddleControlMsg} :
    (owner.record message).Tracked := { held with
  accounted := held.registered
  latched := trivial }

end

variable {pubkey : String} {version : UInt8}

section frames

variable {communityId : CommunityId} {isDraining : Bool}

theorem Held.latch {next : Owner} (held : owner.Held) (isLatched : owner.latch communityId = some next) :
    next.Held ∧ next.control.streamCommunity = some communityId ∧
      next.control.fenced = owner.control.fenced := by
  unfold Owner.latch at isLatched
  split at isLatched
  next unlatched =>
    cases isLatched
    refine ⟨⟨held.drawn, held.admitted, fun peerId isAdmitted place present => ?_⟩, rfl, rfl⟩
    have registered := held.registered peerId isAdmitted place present
    rw [Registered, streamRoom, unlatched] at registered
    cases registered.2
  next latched isCommunity =>
    split at isLatched
    next same =>
      cases isLatched
      exact ⟨held, isCommunity.trans (congrArg some same), rfl⟩
    · cases isLatched

variable {manager : Manager} {drawn : List Uuid}

theorem Registered.keep (registered : owner.Registered place peerId)
    (live : ∀ key, owner.manager.rooms.get key = some place → manager.rooms.get key = some place) :
    Registered { owner with manager, drawn } place peerId := by
  refine ⟨registered.1, ?_⟩
  have isRoom := registered.2
  unfold streamRoom at isRoom ⊢
  obtain ⟨communityId, isCommunity, isLive⟩ := bind_eq_some_iff.mp isRoom
  exact bind_eq_some_iff.mpr ⟨communityId, isCommunity, live _ isLive⟩

theorem Accounted.keep (accounted : owner.Accounted place peerId)
    (live : ∀ key, owner.manager.rooms.get key = some place → manager.rooms.get key = some place) :
    Accounted { owner with manager, drawn } place peerId := by
  unfold Accounted at accounted ⊢
  dsimp only
  cases isPhase : owner.control.phase with
  | returned result | tearingDown room registered result =>
    rw [isPhase] at accounted
    exact accounted
  | unregistering room removing =>
    rw [isPhase] at accounted
    exact accounted.imp id (·.keep live)
  | _ =>
    rw [isPhase] at accounted
    exact Registered.keep accounted live

theorem Held.getOrCreate {key : RoomKey} (held : owner.Held) :
    Held { owner with manager := (owner.manager.getOrCreate key).2 } where
  drawn peerId place present := held.drawn peerId place (Manager.present_getOrCreate present)
  admitted := held.admitted
  registered peerId isAdmitted place present := by
    have registered := held.registered peerId isAdmitted place (Manager.present_getOrCreate present)
    exact registered.keep fun key => Manager.live_getOrCreate

section

variable (held : owner.Held)

include held

theorem Held.onRegisterPeer :
    (owner.onRegisterPeer communityId pubkey version isDraining).Tracked := by
  unfold Owner.onRegisterPeer
  cases isLatched : owner.latch communityId with
  | none => exact held.leave
  | some next =>
    obtain ⟨nextHeld, community, -⟩ := held.latch isLatched
    dsimp only
    split
    · exact nextHeld.leave
    · exact nextHeld.getOrCreate.setPhase trivial community

section

variable (selecting : owner.control.phase = .selecting)

include selecting

theorem Held.onUnregisterPeer :
    (owner.onUnregisterPeer pubkey).Tracked := by
  unfold Owner.onUnregisterPeer
  cases known : owner.control.registered.get pubkey with
  | none =>
    rw [← show owner.setPhase .selecting = owner by rw [← selecting]; rfl]
    exact held.setPhase trivial trivial
  | some removing =>
    -- An id that is still in a room is the one that leaves the table, or keeps its entry.
    have left : ∀ peerId ∈ owner.control.admitted, ∀ place,
        owner.manager.Present place peerId → owner.streamRoom = some place ∧
          (peerId = removing ∨
            ∃ other, (other, peerId) ∈ (owner.control.registered.erase pubkey).entries) := by
      intro peerId isAdmitted place present
      obtain ⟨⟨other, member⟩, isRoom⟩ := held.registered peerId isAdmitted place present
      refine ⟨isRoom, ?_⟩
      by_cases same : other = pubkey
      · subst same
        rw [← owner.control.registered.get_eq_some, known] at member
        exact .inl (Option.some.inj member).symm
      · exact .inr ⟨other, owner.control.registered.mem_erase.mpr ⟨member, same⟩⟩
    cases isRoom : owner.streamRoom with
    | none =>
      dsimp only
      refine ⟨held.drawn, held.admitted, fun peerId isAdmitted place present => ?_, ?_⟩
      · cases (left peerId isAdmitted place present).1.symm.trans isRoom
      · rw [show Owner.control _ = _ from rfl, selecting]
        exact trivial
    | some room =>
      dsimp only
      refine ⟨held.drawn, held.admitted, fun peerId isAdmitted place present => ?_, trivial⟩
      obtain ⟨isPlace, isLeft | stays⟩ := left peerId isAdmitted place present
      · cases isPlace.symm.trans isRoom
        exact .inl ⟨rfl, isLeft⟩
      · exact .inr ⟨stays, isPlace⟩

theorem Held.onMessage
    {message : HuddleControlMsg} : (owner.onMessage isDraining message).Tracked := by
  have unexpected : (owner.leave none (.error .unexpectedReply)).Tracked := held.leave
  cases message with
  | registerPeer communityId pubkey version => exact held.onRegisterPeer
  | unregisterPeer pubkey => exact held.onUnregisterPeer selecting
  | rosterResync => exact held.sendSnapshot
  | peerRegistered pubkey peerIndex roster | rosterSnapshot roster | rosterDelta delta
  | registerRejected pubkey reason => exact unexpected

theorem Held.onFrame
    {received : Except Unit (Option ControlFrame)} : (owner.onFrame isDraining received).Tracked := by
  unfold Owner.onFrame
  split
  · split
    · exact held.leave
    · split
      · exact held.onMessage selecting
      · exact held.leave
  · exact held.leave
  · exact held.leave
  · exact held.leave
  · exact held.leave

end

theorem Held.onRosterEvent {event : RosterEvent} :
    (owner.onRosterEvent event).Tracked := by
  cases event with
  | delta delta => exact held.setPhase trivial trivial
  | lagged => exact held.sendSnapshot
  | closed => exact (held.leave : (owner.leave none (.ok ())).Tracked)

end

end frames

section calls

variable {entered : Room} {peerIndex : UInt8}

theorem present_admit {object : Room} {other : Uuid}
    (isObject : owner.manager.objects[room]? = some object)
    (before : ∀ entry ∈ entered.peers.entries, entry ∈ object.peers.entries ∨ entry.1 = peerId)
    (present : (owner.seat room entered pubkey peerId peerIndex).manager.Present place other) :
    owner.manager.Present place other ∨ (room = place ∧ other = peerId) := by
  refine Manager.present_changeRoom (· = peerId) ?_ present
  intro same isSame entry member
  cases isObject.symm.trans isSame
  exact before entry member

theorem Held.seat (held : owner.Held) {object : Room}
    (isObject : owner.manager.objects[room]? = some object)
    (before : ∀ entry ∈ entered.peers.entries, entry ∈ object.peers.entries ∨ entry.1 = peerId)
    (fresh : peerId ∉ owner.drawn) (unregistered : owner.control.registered.get pubkey = none)
    (live : owner.streamRoom = some room) :
    (owner.seat room entered pubkey peerId peerIndex).Tracked where
  drawn other place isPresent := by
    rcases present_admit isObject before isPresent with old | ⟨-, rfl⟩
    · exact mem_cons_of_mem _ (held.drawn other place old)
    · exact mem_cons_self
  admitted other isAdmitted := by
    rcases mem_cons.mp isAdmitted with rfl | old
    · exact mem_cons_self
    · exact mem_cons_of_mem _ (held.admitted other old)
  accounted other isAdmitted place isPresent := by
    rcases present_admit isObject before isPresent with old | ⟨rfl, rfl⟩
    · rcases mem_cons.mp isAdmitted with rfl | wasAdmitted
      · exact absurd (held.drawn other place old) fresh
      · obtain ⟨⟨key, member⟩, isRoom⟩ := held.registered other wasAdmitted place old
        have otherKey := owner.control.registered.get_eq_none.mp unregistered _ member
        exact ⟨⟨key, owner.control.registered.mem_insert.mpr (.inr ⟨member, otherKey⟩)⟩, isRoom⟩
    · exact ⟨⟨pubkey, owner.control.registered.mem_insert.mpr (.inl rfl)⟩, live⟩
  latched := trivial

theorem Tracked.registerRemotePeer (tracked : owner.Tracked) (held : owner.Held)
    (fresh : peerId ∉ owner.drawn)
    (taken : ∀ object, owner.manager.objects[room]? = some object →
      (object.addPeer peerId pubkey version).1.toOption.isSome →
        owner.control.registered.get pubkey = none ∧ owner.streamRoom = some room) :
    (owner.registerRemotePeer room pubkey version peerId).Tracked := by
  unfold Owner.registerRemotePeer
  cases isObject : owner.manager.objects[room]? with
  | none => exact tracked
  | some object =>
    have introduces : Manager.Introduces (·.addPeer peerId pubkey version) peerId :=
      Manager.introduces_addPeer
    have before := introduces object
    rcases @History.addPeer_cases peerId pubkey version object with
      ⟨cause, refused⟩ | ⟨given, next, entered, -⟩
    · simp only [refused]
      exact held.setPhase trivial trivial
    · obtain ⟨unregistered, live⟩ := taken object isObject (by rw [entered]; rfl)
      simp only [entered] at before ⊢
      exact held.seat isObject before fresh unregistered live

theorem Tracked.onValidated {communityId : CommunityId} (tracked : owner.Tracked)
    (validating : owner.control.phase = .validating room communityId pubkey version)
    {outcome : Except Tunnel.MeshError Unit} (clean : owner.Clean (.validated outcome peerId)) :
    (owner.onValidated room pubkey version peerId outcome).Tracked := by
  have held : owner.Held := by
    apply tracked.held
    rw [validating]
    trivial
  have latched : owner.control.streamCommunity = some communityId := by
    have latched := tracked.latched
    rw [validating] at latched
    exact latched
  unfold Owner.onValidated
  cases outcome with
  | ok done =>
    dsimp only
    split
    · exact tracked
    next fresh =>
      apply tracked.registerRemotePeer held fresh
      intro object isObject accepts
      have isAdmitting : owner.admitting (.validated (.ok ()) peerId) =
          some (room, ⟨communityId, owner.control.fenced.sessionId⟩, pubkey) := by
        unfold admitting
        simp only [validating]
        rw [isObject]
        exact if_pos accepts
      obtain ⟨unregistered, live⟩ := clean.2 _ isAdmitting
      refine ⟨unregistered, ?_⟩
      rw [streamRoom, latched]
      exact live
  | error cause =>
    dsimp only
    split
    · exact held.setPhase trivial trivial
    · exact held.leave

variable {outcome : SendOutcome}

theorem Tracked.onReplied {reply : HuddleControlMsg} (tracked : owner.Tracked)
    (replying : owner.control.phase = .replying reply)
    (clean : owner.Clean (.wrote outcome)) : (owner.onReplied reply outcome).Tracked := by
  have held : owner.Held := by
    apply tracked.held
    rw [replying]
    trivial
  cases outcome with
  | encodeFailed =>
    apply held.abort
    apply clean.1
    unfold aborts
    simp only [replying]
    rfl
  | sendFailed => exact (held.leave : (owner.leave none (.error .stream)).Tracked)
  | sent =>
    have recorded := @Held.record owner held reply
    unfold Owner.onReplied
    dsimp only
    split
    · exact ⟨recorded.drawn, recorded.admitted, recorded.accounted, recorded.latched⟩
    · exact recorded

theorem Tracked.onAnswered {message : HuddleControlMsg} (tracked : owner.Tracked)
    (answering : owner.control.phase = .answering message)
    (clean : owner.Clean (.wrote outcome)) : (owner.onAnswered message outcome).Tracked := by
  have held : owner.Held := by
    apply tracked.held
    rw [answering]
    trivial
  unfold Owner.onAnswered
  cases isError : outcome.error with
  | none => exact held.record
  | some cause =>
    apply held.abort
    apply clean.1
    unfold aborts
    simp only [answering]
    cases outcome with
    | sent => cases isError
    | encodeFailed | sendFailed => rfl

end calls

section

variable (tracked : owner.Tracked)

include tracked

theorem Tracked.others {step : Step} : (owner.others step).Tracked := by
  unfold Owner.others
  split
  · exact tracked
  next fresh =>
    have before {other : Uuid} {place : ℕ} (isAdmitted : other ∈ owner.control.admitted)
        (present : (owner.manager.step step).Present place other) :
        owner.manager.Present place other := by
      apply (Manager.present_step present).resolve_right
      exact fun draws => fresh ⟨other, draws, tracked.admitted other isAdmitted⟩
    constructor
    · intro other place present
      apply mem_append.mpr
      rcases Manager.present_step present with old | draws
      · exact .inr (tracked.drawn other place old)
      · exact .inl (mem_toList.mpr draws)
    · exact fun other isAdmitted => mem_append.mpr (.inr (tracked.admitted other isAdmitted))
    · intro other isAdmitted place present
      have old := before isAdmitted present
      exact (tracked.accounted other isAdmitted place old).keep fun key live =>
        Manager.live_step live old
    · exact tracked.latched

theorem Tracked.removePeer {next : Phase} (latched : owner.Latched next)
    (accounted : ∀ other place, owner.Accounted place other → (place = room → other ≠ peerId) →
      (owner.removePeer room peerId next).Accounted place other) :
    (owner.removePeer room peerId next).Tracked where
  drawn other place present := tracked.drawn other place (Manager.present_removePeer present).1
  admitted := tracked.admitted
  accounted other isAdmitted place present := by
    obtain ⟨old, others⟩ := Manager.present_removePeer present
    exact accounted other place (tracked.accounted other isAdmitted place old) others
  latched := by
    cases next with
    | validating room communityId pubkey version => exact latched
    | _ => exact trivial

theorem Tracked.unregister (unregistering : owner.control.phase = .unregistering room peerId) :
    (owner.removePeer room peerId .selecting).Tracked := by
  refine tracked.removePeer ?_ ?_
  · trivial
  · intro other place accounted others
    unfold Accounted at accounted
    rw [unregistering] at accounted
    rcases accounted with ⟨isPlace, isRemoved⟩ | registered
    · exact absurd isRemoved (others isPlace)
    · exact registered

end

theorem Tracked.tearDown {pubkey : String} {rest : List (String × Uuid)} (tracked : owner.Tracked)
    (tearingDown : owner.control.phase = .tearingDown room ((pubkey, peerId) :: rest) result) :
    (owner.removePeer room peerId (.tearingDown room rest result)).Tracked := by
  refine tracked.removePeer ?_ ?_
  · trivial
  · intro other place accounted others
    unfold Accounted at accounted
    rw [tearingDown] at accounted
    obtain ⟨isPlace, key, member⟩ := accounted
    refine ⟨isPlace, key, ?_⟩
    rcases mem_cons.mp member with first | later
    · exact absurd (congrArg Prod.snd first) (others isPlace)
    · exact later

theorem Tracked.finish (tracked : owner.Tracked)
    (tearingDown : owner.control.phase = .tearingDown room [] result) :
    (owner.setPhase (.returned result)).Tracked := { tracked with
  accounted other isAdmitted place present := by
    have accounted := tracked.accounted other isAdmitted place present
    unfold Accounted at accounted
    rw [tearingDown] at accounted
    obtain ⟨-, key, member⟩ := accounted
    cases member
  latched := trivial }

theorem Tracked.step (tracked : owner.Tracked) {event : Event} (clean : owner.Clean event) :
    (owner.step event).Tracked := by
  have held (keeps : owner.control.phase.KeepsTable) := tracked.held keeps
  unfold Owner.step
  split
  · exact tracked.others
  next selecting => exact (held (by rw [selecting]; trivial)).leave
  next selecting => exact (held (by rw [selecting]; trivial)).leave
  next selecting =>
    split
    · exact (held (by rw [selecting]; trivial)).onRosterEvent
    · exact tracked
  next selecting => exact (held (by rw [selecting]; trivial)).onFrame selecting
  next validating => exact tracked.onValidated validating clean
  next replying => exact tracked.onReplied replying clean
  next answering => exact tracked.onAnswered answering clean
  next closing => exact (held (by rw [closing]; trivial)).teardown
  next unregistering => exact tracked.unregister unregistering
  next tearingDown => exact tracked.tearDown tearingDown
  next tearingDown => exact tracked.finish tearingDown
  · exact tracked

theorem tracked_start {localRuntimeId : Tunnel.RuntimeId} {fenced : Tunnel.FencedHeader} :
    (Owner.start localRuntimeId fenced).Tracked where
  drawn peerId place present := by
    obtain ⟨object, peer, isObject, -⟩ := present
    cases isObject
  admitted peerId isAdmitted := by cases isAdmitted
  accounted peerId isAdmitted := by cases isAdmitted
  latched := trivial

/-- A clean run takes all of its peers out. -/
theorem teardown_complete (localRuntimeId : Tunnel.RuntimeId) (fenced : Tunnel.FencedHeader)
    (events : List Event)
    (clean : EachStep Owner.step Owner.Clean (Owner.start localRuntimeId fenced) events) :
    (events.foldl Owner.step (Owner.start localRuntimeId fenced)).Complete :=
  (EachStep.invariant (fun _ _ tracked isClean => tracked.step isClean) tracked_start clean).complete

def sampleRelay : Tunnel.RuntimeId := .fill 3

def sampleFence : Tunnel.FencedHeader := ⟨sampleKey.channelId, 1, sampleRelay⟩

def sampleFrame (message : HuddleControlMsg) : Event :=
  .frame (.ok (some (.data sampleFence (some message)))) false

def sampleRegistration : List Event :=
  [sampleFrame (.registerPeer sampleKey.communityId "alice" 2),
    .validated (.ok ()) (samplePeer 1), .wrote .sent]

def sampleVisit : List Event :=
  sampleRegistration ++
    [sampleFrame (.registerPeer sampleKey.communityId "bob" 2),
      .validated (.ok ()) (samplePeer 2), .wrote .sent, sampleFrame .rosterResync, .wrote .sent,
      sampleFrame (.unregisterPeer "bob"), .removed, .lostFired, .wrote .sendFailed, .removed, .removed]

theorem sampleVisit_complete :
    (sampleVisit.foldl Owner.step (Owner.start sampleRelay sampleFence)).Complete :=
  teardown_complete sampleRelay sampleFence sampleVisit (by decide +kernel)

def sampleAbort : List Event :=
  sampleRegistration ++ [.rosterEvent (.delta ⟨1, none, none⟩), .wrote .sendFailed]

theorem sampleAbort_ghost :
    ¬ (sampleAbort.foldl Owner.step (Owner.start sampleRelay sampleFence)).Complete := by
  intro complete
  have absent := complete (.error .stream) rfl (samplePeer 1) (by decide +kernel) 0
  exact absent ⟨_, ⟨"alice", 0⟩, rfl, mem_cons_self⟩

end Owner

end Buzz.Audio
