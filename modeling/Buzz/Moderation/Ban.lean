import Buzz.Moderation.Sessions

/-! A ban against the sessions of the banned key. -/

namespace Buzz.Moderation

open Nostr Buzz.Subscription Library.Transition List Option
open Function (update_of_ne update_self)

/-- The key, once its event has been verified. -/
def AuthPhase.key : AuthPhase → Option PublicKey
  | .checking pubkey _ => some pubkey
  | .checkingOwner pubkey _ => some pubkey
  | .passing pubkey => some pubkey
  | .recording pubkey => some pubkey
  | _ => none

def BanPhase.ended : BanPhase → Bool
  | .done => true
  | .failed => true
  | _ => false

def BanPhase.found : BanPhase → List ConnId
  | .scanning _ found => found
  | .cancelling ids => ids
  | _ => []

def BanPhase.willVisit (connId : ConnId) : BanPhase → Prop
  | .auditing => True
  | .scanning todo _ => connId ∈ todo
  | _ => False

def BanPhase.reaches (self : BanPhase) (connId : ConnId) : Prop :=
  self.willVisit connId ∨ connId ∈ self.found

namespace World

/-- The ban and the authentications have ended. -/
def NoLiveSession (self : World) : Prop :=
  ∀ community pubkey row ban, self.rows community pubkey = some row → row.inForce self.now →
    self.bans row.ban = some ban → ban.phase.ended →
    (∀ connId session, self.sessions connId = some session → session.community = community →
      session.phase.key ≠ some pubkey) →
    ∀ connId session, self.sessions connId = some session → session.community = community →
      session.authState = .authenticated pubkey → session.cancelled ≠ []

/-- A ban cancels sessions of its own key in its own community only. -/
def OnlyTargets (self : World) : Prop :=
  ∀ connId session id, self.sessions connId = some session → .ban id ∈ session.cancelled →
    ∃ ban, self.bans id = some ban ∧ session.community = ban.community ∧
      session.authState = .authenticated ban.target

/-- And no ban fails at its audit. -/
def Timely (self : World) : Action → Prop
  | .record connId => ∀ session pubkey row, self.sessions connId = some session →
      session.phase = .recording pubkey → self.rows session.community pubkey = some row →
      row.inForce self.now → ∃ ban, self.bans row.ban = some ban ∧ ban.phase.willVisit connId
  | .auditFails _ => False
  | _ => True

end World

structure Session.Sound (session : Session) : Prop where
  recorded : ∀ pubkey, session.recorded = some pubkey → session.authState = .authenticated pubkey
  settled : ∀ pubkey, session.authState = .authenticated pubkey →
    session.recorded = some pubkey ∨ session.phase = .recording pubkey
  undecided : session.phase ≠ .idle → (∀ pubkey, session.phase ≠ .recording pubkey) →
    session.authState = .pending
  decided : ∀ pubkey, session.phase = .recording pubkey →
    session.authState = .authenticated pubkey
  receiving : session.phase ≠ .idle → session.receiving
  left : session.receiving = false → session.cancelled ≠ []

structure World.Sound (world : World) : Prop where
  session : ∀ connId session, world.sessions connId = some session → session.Sound
  listed : ∀ connId session, world.sessions connId = some session → session.receiving →
    connId ∈ world.entries
  rows : ∀ community pubkey row, world.rows community pubkey = some row →
    ∃ ban, world.bans row.ban = some ban ∧ ban.community = community ∧ ban.target = pubkey ∧
      ban.phase ≠ .writing
  found : ∀ id ban connId, world.bans id = some ban → connId ∈ ban.phase.found →
    ∃ session, world.sessions connId = some session ∧ session.community = ban.community ∧
      session.recorded = some ban.target
  causes : world.OnlyTargets

/-- Or not recorded yet, or still reached by the ban. -/
def World.Covered (world : World) : Prop :=
  ∀ connId session pubkey row, world.sessions connId = some session →
    session.authState = .authenticated pubkey → world.rows session.community pubkey = some row →
    row.inForce world.now → session.cancelled ≠ [] ∨ session.phase = .recording pubkey ∨
      ∃ ban, world.bans row.ban = some ban ∧ ban.phase.reaches connId

structure Session.Kept (before after : Session) : Prop where
  community : after.community = before.community
  recorded : ∀ pubkey, before.recorded = some pubkey → after.recorded = some pubkey
  authenticated : ∀ pubkey, before.authState = .authenticated pubkey →
    after.authState = .authenticated pubkey
  cancelled : ∀ cause ∈ before.cancelled, cause ∈ after.cancelled
  receiving : after.receiving → before.receiving

namespace Session

namespace Sound

variable {session : Session}

theorem new (community : CommunityId) : (Session.new community).Sound where
  recorded := nofun
  settled := nofun
  undecided := fun notIdle => absurd rfl notIdle
  decided := nofun
  receiving := fun _ => rfl
  left := nofun

section

variable (sound : session.Sound)

include sound

theorem open_of_phase {phase : AuthPhase} (current : session.phase = phase)
    (notIdle : phase ≠ .idle) (undecided : ∀ pubkey, phase ≠ .recording pubkey) :
    session.authState = .pending ∧ session.receiving := by
  rw [← current] at notIdle undecided
  exact ⟨sound.undecided notIdle undecided, sound.receiving notIdle⟩

section

variable (pending : session.authState = .pending)

include pending

theorem proceed (receiving : session.receiving) (phase : AuthPhase)
    (undecided : ∀ pubkey, phase ≠ .recording pubkey) :
    Sound { session with phase } ∧ session.Kept { session with phase } := by
  refine ⟨⟨sound.recorded, ?_, fun _ _ => pending, ?_, fun _ => receiving, sound.left⟩,
    ⟨rfl, fun _ => id, fun _ => id, fun _ => id, id⟩⟩
  · intro pubkey authenticated
    rw [show session.authState = .authenticated pubkey from authenticated] at pending
    cases pending
  · intro pubkey recording
    exact absurd recording (undecided pubkey)

theorem fail :
    Sound { session with phase := .idle, authState := .failed } ∧
      session.Kept { session with phase := .idle, authState := .failed } := by
  have unrecorded (pubkey : PublicKey) : session.recorded ≠ some pubkey := by
    intro recorded
    rw [sound.recorded pubkey recorded] at pending
    cases pending
  refine ⟨⟨?_, nofun, fun notIdle => absurd rfl notIdle, nofun, fun notIdle => absurd rfl notIdle,
    sound.left⟩, ⟨rfl, fun _ => id, ?_, fun _ => id, id⟩⟩
  · intro pubkey recorded
    exact absurd recorded (unrecorded pubkey)
  · intro pubkey authenticated
    cases authenticated.symm.trans pending

theorem authenticate (receiving : session.receiving) (pubkey : PublicKey) :
    Sound { session with phase := .recording pubkey, authState := .authenticated pubkey } ∧
      session.Kept
        { session with phase := .recording pubkey, authState := .authenticated pubkey } := by
  refine ⟨⟨?_, ?_, fun _ other => absurd rfl (other pubkey), ?_, fun _ => receiving, sound.left⟩,
    ⟨rfl, fun _ => id, ?_, fun _ => id, id⟩⟩
  · intro other recorded
    rw [sound.recorded other recorded] at pending
    cases pending
  · intro other authenticated
    cases authenticated
    exact .inr rfl
  · intro other recording
    cases recording
    rfl
  · intro other authenticated
    cases authenticated.symm.trans pending

end

theorem record {pubkey : PublicKey}
    (phase : session.phase = .recording pubkey) :
    (session.record true pubkey).Sound ∧ session.Kept (session.record true pubkey) := by
  have authenticated := sound.decided pubkey phase
  refine ⟨⟨?_, ?_, fun notIdle => absurd rfl notIdle, nofun, fun notIdle => absurd rfl notIdle,
    sound.left⟩, ⟨rfl, ?_, fun _ => id, fun _ => id, id⟩⟩
  · intro other recorded
    simp only [Session.record, if_true, Option.some.injEq] at recorded
    rw [← recorded]
    exact authenticated
  · intro other authenticated'
    have same : session.authState = .authenticated other := authenticated'
    rw [authenticated, AuthState.authenticated.injEq] at same
    rw [same]
    exact .inl rfl
  · intro other recorded
    have same := sound.recorded other recorded
    rw [authenticated, AuthState.authenticated.injEq] at same
    rw [same]
    rfl

theorem cancel (cause : Cause) :
    (session.cancel cause).Sound ∧ session.Kept (session.cancel cause) := by
  refine ⟨⟨sound.recorded, sound.settled, sound.undecided, sound.decided, sound.receiving,
    fun _ => cons_ne_nil _ _⟩, ⟨rfl, fun _ => id, fun _ => id, ?_, id⟩⟩
  intro earlier member
  exact mem_cons_of_mem _ member

theorem leave (phase : session.phase = .idle) :
    (Session.cancel { session with receiving := false } .other).Sound ∧
      session.Kept (Session.cancel { session with receiving := false } .other) := by
  refine ⟨⟨sound.recorded, sound.settled, sound.undecided, sound.decided, ?_,
    fun _ => cons_ne_nil _ _⟩, ⟨rfl, fun _ => id, fun _ => id, ?_, nofun⟩⟩
  · intro notIdle
    exact absurd phase notIdle
  · intro earlier member
    exact mem_cons_of_mem _ member

end

end Sound

end Session

section steps

variable {world next : World}

namespace World.Sound

theorem initial : World.initial.Sound where
  session := nofun
  listed := nofun
  rows := nofun
  found := nofun
  causes := nofun

variable {connId : ConnId} {after : Session}

theorem setSession_cases {other : ConnId} {session : Session}
    (present : (world.setSession connId after).sessions other = some session) :
    other = connId ∧ session = after ∨ other ≠ connId ∧ world.sessions other = some session := by
  by_cases same : other = connId
  · subst same
    simp only [World.setSession, update_self, Option.some.injEq] at present
    exact .inl ⟨rfl, present.symm⟩
  · simp only [World.setSession, update_of_ne same] at present
    exact .inr ⟨same, present⟩

section

variable (sound : world.Sound)

include sound

theorem of_session {before : Session}
    (found : world.sessions connId = some before) (itsSound : after.Sound)
    (kept : before.Kept after)
    (causes : ∀ id, Cause.ban id ∈ after.cancelled → Cause.ban id ∈ before.cancelled ∨
      ∃ ban, world.bans id = some ban ∧ after.community = ban.community ∧
        after.authState = .authenticated ban.target) :
    (world.setSession connId after).Sound := by
  constructor
  · intro other session present
    rcases setSession_cases present with ⟨-, rfl⟩ | ⟨-, old⟩
    · exact itsSound
    · exact sound.session other session old
  · intro other session present receiving
    rcases setSession_cases present with ⟨rfl, rfl⟩ | ⟨-, old⟩
    · exact sound.listed other before found (kept.receiving receiving)
    · exact sound.listed other session old receiving
  · exact sound.rows
  · intro id ban other itsBan member
    rcases sound.found id ban other itsBan member with ⟨session, old, community, recorded⟩
    by_cases same : other = connId
    · subst same
      rw [found, Option.some.injEq] at old
      subst old
      exact ⟨after, update_self .., kept.community.trans community,
        kept.recorded _ recorded⟩
    · exact ⟨session, (update_of_ne same _ _).trans old, community, recorded⟩
  · intro other session id present member
    rcases setSession_cases present with ⟨rfl, rfl⟩ | ⟨-, old⟩
    · rcases causes id member with before_ | new
      · rcases sound.causes other before id found before_ with ⟨ban, itsBan, community, key⟩
        exact ⟨ban, itsBan, kept.community.trans community, kept.authenticated _ key⟩
      · exact new
    · exact sound.causes other session id old member

variable {id : BanId}

theorem of_ban {before : Ban}
    (found : world.bans id = some before) (phase : BanPhase) (written : before.phase ≠ .writing → phase ≠ .writing)
    (collected : ∀ connId ∈ phase.found, connId ∈ before.phase.found ∨
      ∃ session, world.sessions connId = some session ∧ session.matchesBan before) :
    (world.setBan id { before with phase }).Sound := by
  have kept {other : BanId} {ban : Ban} (old : world.bans other = some ban) :
      ∃ after, (world.setBan id { before with phase }).bans other = some after ∧
        after.community = ban.community ∧ after.target = ban.target ∧
        (ban.phase ≠ .writing → after.phase ≠ .writing) := by
    by_cases same : other = id
    · subst same
      rw [found, Option.some.injEq] at old
      subst old
      exact ⟨_, update_self .., rfl, rfl, written⟩
    · exact ⟨ban, (update_of_ne same _ _).trans old, rfl, rfl, fun early => early⟩
  constructor
  · exact sound.session
  · exact sound.listed
  · intro community pubkey row present
    rcases sound.rows community pubkey row present with ⟨ban, old, itsCommunity, target, phase_⟩
    rcases kept old with ⟨after, new, itsCommunity', target', phase'⟩
    exact ⟨after, new, itsCommunity'.trans itsCommunity, target'.trans target, phase' phase_⟩
  · intro other ban connId present member
    by_cases same : other = id
    · subst same
      simp only [World.setBan, update_self, Option.some.injEq] at present
      subst present
      rcases collected connId member with already | ⟨session, itsSession, matches_⟩
      · exact sound.found other before connId found already
      · rw [Session.matchesBan, Bool.and_eq_true, decide_eq_true_eq, decide_eq_true_eq] at matches_
        exact ⟨session, itsSession, matches_⟩
    · simp only [World.setBan, update_of_ne same] at present
      exact sound.found other ban connId present member
  · intro connId session other present member
    rcases sound.causes connId session other present member with ⟨ban, old, community, key⟩
    rcases kept old with ⟨after, new, itsCommunity, target, -⟩
    exact ⟨after, new, community.trans itsCommunity.symm, by rw [target]; exact key⟩

theorem connect {connId : ConnId} (unused : world.sessions connId = none)
    (community : CommunityId) :
    World.Sound { world.setSession connId (.new community) with
      entries := connId :: world.entries } := by
  have other {old : ConnId} {session : Session} (present : world.sessions old = some session) :
      old ≠ connId := by
    rintro rfl
    cases unused.symm.trans present
  constructor
  · intro old session present
    rcases setSession_cases present with ⟨-, rfl⟩ | ⟨-, before⟩
    · exact .new community
    · exact sound.session old session before
  · intro old session present receiving
    rcases setSession_cases present with ⟨rfl, -⟩ | ⟨-, before⟩
    · exact mem_cons_self
    · exact mem_cons_of_mem _ (sound.listed old session before receiving)
  · exact sound.rows
  · intro id ban old itsBan member
    rcases sound.found id ban old itsBan member with ⟨session, present, matches_⟩
    exact ⟨session, (update_of_ne (other present) _ _).trans present, matches_⟩
  · intro old session id present member
    rcases setSession_cases present with ⟨-, rfl⟩ | ⟨-, before⟩
    · cases member
    · exact sound.causes old session id before member

variable {session : Session}

theorem deregister
    (found : world.sessions connId = some session) (left : session.receiving = false) :
    World.Sound { world with entries := world.entries.erase connId } := { sound with
  listed := by
    intro other session' present receiving
    have different : other ≠ connId := by
      rintro rfl
      rw [found, Option.some.injEq] at present
      rw [← present, left] at receiving
      cases receiving
    exact (mem_erase_of_ne different).mpr (sound.listed other session' present receiving) }

theorem command (unused : world.bans id = none)
    (community : CommunityId) (target : PublicKey) (expiresAt : Option ℕ) :
    (world.setBan id ⟨community, target, expiresAt, .writing⟩).Sound := by
  have kept {old : BanId} {ban : Ban} (present : world.bans old = some ban) :
      (world.setBan id ⟨community, target, expiresAt, .writing⟩).bans old = some ban := by
    have different : old ≠ id := by
      rintro rfl
      cases unused.symm.trans present
    exact (update_of_ne different _ _).trans present
  constructor
  · exact sound.session
  · exact sound.listed
  · intro community' pubkey row present
    rcases sound.rows community' pubkey row present with ⟨ban, old, rest⟩
    exact ⟨ban, kept old, rest⟩
  · intro old ban connId present member
    by_cases same : old = id
    · subst same
      simp only [World.setBan, update_self, Option.some.injEq] at present
      subst present
      cases member
    · simp only [World.setBan, update_of_ne same] at present
      exact sound.found old ban connId present member
  · intro connId session old present member
    rcases sound.causes connId session old present member with ⟨ban, itsBan, rest⟩
    exact ⟨ban, kept itsBan, rest⟩

theorem setRow (community : CommunityId) (pubkey : PublicKey)
    (row : Option BanRow) (named : ∀ written, row = some written →
      ∃ ban, world.bans written.ban = some ban ∧ ban.community = community ∧
        ban.target = pubkey ∧ ban.phase ≠ .writing) : (world.setRow community pubkey row).Sound :=
  { sound with
    rows := by
      intro other key written present
      simp only [World.setRow] at present
      split at present
      next same =>
        rw [same.1, same.2]
        exact named written present
      next => exact sound.rows other key written present }

theorem tick : World.Sound { world with now := world.now + 1 } where
  session := sound.session
  listed := sound.listed
  rows := sound.rows
  found := sound.found
  causes := sound.causes

theorem cancelFound {ban current : Ban}
    (itsBan : world.bans id = some current) (community : current.community = ban.community)
    (target : current.target = ban.target)
    (found : ∃ session, world.sessions connId = some session ∧
      session.community = ban.community ∧ session.recorded = some ban.target) :
    (world.cancelFound id ban connId).Sound := by
  rcases found with ⟨session, present, inCommunity, recorded⟩
  have itsSound := sound.session connId session present
  simp only [World.cancelFound, present]
  split
  · refine sound.of_session present (itsSound.cancel _).1 (itsSound.cancel _).2 ?_
    intro other member
    rcases mem_cons.mp member with same | before
    · cases same
      refine .inr ⟨current, itsBan, inCommunity.trans community.symm, ?_⟩
      rw [target]
      exact itsSound.recorded ban.target recorded
    · exact .inl before
  · exact sound

theorem step {action : Action} (step : Step world action next) :
    next.Sound := by
  cases step with
  | connect unused => exact sound.connect unused _
  | receiveAuth found phase receiving pending =>
    have made := (sound.session _ _ found).proceed pending receiving .verifying nofun
    exact sound.of_session found made.1 made.2 fun _ => .inl
  | reject found phase =>
    have pending := ((sound.session _ _ found).open_of_phase phase nofun nofun).1
    have made := (sound.session _ _ found).fail pending
    exact sound.of_session found made.1 made.2 fun _ => .inl
  | @verify connId before pubkey owner found phase =>
    have session := (sound.session _ _ found).open_of_phase phase nofun nofun
    have made := (sound.session _ _ found).proceed session.1 session.2 (.checking pubkey owner)
      nofun
    exact sound.of_session found made.1 made.2 fun _ => .inl
  | @clear connId session pubkey owner found phase notBanned =>
    have session := (sound.session _ _ found).open_of_phase phase nofun nofun
    have undecided (key : PublicKey) : afterCheck pubkey owner ≠ .recording key := by
      cases owner <;> simp [afterCheck]
    have made := (sound.session _ _ found).proceed session.1 session.2 _ undecided
    exact sound.of_session found made.1 made.2 fun _ => .inl
  | @clearOwner connId before pubkey owner found phase notBanned =>
    have session := (sound.session _ _ found).open_of_phase phase nofun nofun
    have made := (sound.session _ _ found).proceed session.1 session.2 (.passing pubkey) nofun
    exact sound.of_session found made.1 made.2 fun _ => .inl
  | @refuse connId before pubkey found phase =>
    have session : before.authState = .pending ∧ before.receiving := by
      rcases phase with ⟨owner, phase⟩ | ⟨owner, phase⟩
      · exact (sound.session _ _ found).open_of_phase phase nofun nofun
      · exact (sound.session _ _ found).open_of_phase phase nofun nofun
    have made := (sound.session _ _ found).proceed session.1 session.2 .denying nofun
    exact sound.of_session found made.1 made.2 fun _ => .inl
  | deny found phase =>
    have pending := ((sound.session _ _ found).open_of_phase phase nofun nofun).1
    have made := (sound.session _ _ found).fail pending
    have denied := made.1.cancel .denial
    refine sound.of_session found denied.1 ⟨rfl, made.2.recorded, made.2.authenticated, ?_, id⟩ ?_
    · intro cause member
      exact mem_cons_of_mem _ member
    · intro id member
      rcases mem_cons.mp member with same | before
      · cases same
      · exact .inl before
  | turnAway found phase =>
    have pending := ((sound.session _ _ found).open_of_phase phase nofun nofun).1
    have made := (sound.session _ _ found).fail pending
    exact sound.of_session found made.1 made.2 fun _ => .inl
  | @authenticate connId before pubkey found phase =>
    have session := (sound.session _ _ found).open_of_phase phase nofun nofun
    have made := (sound.session _ _ found).authenticate session.1 session.2 pubkey
    exact sound.of_session found made.1 made.2 fun _ => .inl
  | @record connId session pubkey found phase =>
    have present : connId ∈ world.entries := by
      refine sound.listed connId session found ((sound.session _ _ found).receiving ?_)
      rw [phase]
      nofun
    have made := (sound.session _ _ found).record phase
    rw [decide_eq_true present]
    exact sound.of_session found made.1 made.2 fun _ => .inl
  | close found =>
    have made := (sound.session _ _ found).cancel .other
    refine sound.of_session found made.1 made.2 fun id member => ?_
    rcases mem_cons.mp member with same | before
    · cases same
    · exact .inl before
  | leave found phase receiving =>
    have made := (sound.session _ _ found).leave phase
    refine sound.of_session found made.1 made.2 fun id member => ?_
    rcases mem_cons.mp member with same | before
    · cases same
    · exact .inl before
  | deregister found left => exact sound.deregister found left
  | command unused => exact sound.command unused _ _ _
  | writeFails found phase => exact sound.of_ban found _ (fun _ => nofun) nofun
  | @write id ban found phase =>
    have made := sound.of_ban found .auditing (fun _ => nofun) nofun
    refine made.setRow _ _ _ ?_
    rintro written ⟨⟩
    exact ⟨_, update_self .., rfl, rfl, nofun⟩
  | auditFails found phase | audit found phase => exact sound.of_ban found _ (fun _ => nofun) nofun
  | meet found phase present =>
    refine sound.of_ban found _ (fun _ => nofun) fun connId member => .inl ?_
    rw [phase]
    exact member
  | @visit id ban connId todo ids found phase =>
    refine sound.of_ban found _ (fun _ => nofun) fun other member => ?_
    rw [phase]
    simp only [BanPhase.found, Session.visited] at member ⊢
    split at member
    next matched =>
      rcases mem_cons.mp member with rfl | before
      · rcases (any_eq_true _ _).mp matched with ⟨session, present, matches_⟩
        exact .inr ⟨session, (filter_eq_some_iff.mp present).1, matches_⟩
      · exact .inl before
    next => exact .inl member
  | collect found phase =>
    refine sound.of_ban found _ (fun _ => nofun) fun connId member => .inl ?_
    rw [phase]
    exact member
  | @cancel id ban connId ids found phase =>
    have inList : connId ∈ ban.phase.found := by
      rw [phase]
      exact mem_cons_self
    have made := sound.of_ban found (.cancelling ids) (fun _ => nofun)
      fun other member => .inl (by rw [phase]; exact mem_cons_of_mem _ member)
    exact made.cancelFound (update_self ..) rfl rfl (sound.found id ban connId found inList)
  | finish found phase | redeliver found phase => exact sound.of_ban found _ (fun _ => nofun) nofun
  | unban => exact sound.setRow _ _ none nofun
  | tick => exact sound.tick

theorem listed_of_uncancelled
    (found : world.sessions connId = some session) (uncancelled : session.cancelled = []) :
    connId ∈ world.entries := by
  cases receiving : session.receiving with
  | true => exact sound.listed connId session found receiving
  | false => exact absurd uncancelled ((sound.session connId session found).left receiving)

end

end World.Sound

namespace World.Covered

theorem of_session (covered : world.Covered) (connId : ConnId) (after : Session)
    (held : ∀ pubkey, after.authState = .authenticated pubkey →
      after.cancelled ≠ [] ∨ after.phase = .recording pubkey ∨
        ∀ row, world.rows after.community pubkey = some row → row.inForce world.now →
          ∃ ban, world.bans row.ban = some ban ∧ ban.phase.reaches connId) :
    (world.setSession connId after).Covered := by
  intro other session pubkey row present authenticated itsRow inForce
  by_cases same : other = connId
  · subst same
    simp only [World.setSession, update_self, Option.some.injEq] at present
    subst present
    rcases held pubkey authenticated with cancelled | recording | reached
    · exact .inl cancelled
    · exact .inr (.inl recording)
    · exact .inr (.inr (reached row itsRow inForce))
  · simp only [World.setSession, update_of_ne same] at present
    exact covered other session pubkey row present authenticated itsRow inForce

variable {id : BanId}

theorem of_ban (covered : world.Covered) (sound : world.Sound) {before : Ban}
    (found : world.bans id = some before) (phase : BanPhase)
    (reached : ∀ connId session, world.sessions connId = some session →
      session.community = before.community → session.authState = .authenticated before.target →
      before.phase.reaches connId →
        session.cancelled ≠ [] ∨ session.phase = .recording before.target ∨
          phase.reaches connId) :
    (world.setBan id { before with phase }).Covered := by
  intro connId session pubkey row present authenticated itsRow inForce
  rcases covered connId session pubkey row present authenticated itsRow inForce with
    cancelled | recording | ⟨ban, itsBan, reaches⟩
  · exact .inl cancelled
  · exact .inr (.inl recording)
  · by_cases same : row.ban = id
    · rcases sound.rows session.community pubkey row itsRow with
        ⟨named, itsBan', community, target, -⟩
      rw [same, found, Option.some.injEq] at itsBan itsBan'
      subst itsBan
      subst itsBan'
      subst target
      rcases reached connId session present community.symm authenticated reaches with
        cancelled | recording | still
      · exact .inl cancelled
      · exact .inr (.inl recording)
      · refine .inr (.inr ⟨{ before with phase }, ?_, still⟩)
        rw [same]
        exact update_self ..
    · exact .inr (.inr ⟨ban, (update_of_ne same _ _).trans itsBan, reaches⟩)

variable {ban : Ban}

theorem write (written : (world.setBan id { ban with phase := .auditing }).Covered) :
    ((world.setBan id { ban with phase := .auditing }).setRow ban.community ban.target
      (some ⟨id, ban.expiresAt⟩)).Covered := by
  intro connId session pubkey row present authenticated itsRow inForce
  simp only [World.setRow] at itsRow
  split at itsRow
  next same =>
    cases itsRow
    exact .inr (.inr ⟨_, update_self .., .inl trivial⟩)
  next => exact written connId session pubkey row present authenticated itsRow inForce

section

variable (covered : world.Covered)

include covered

theorem scan (sound : world.Sound) {id : BanId} {ban : Ban}
    (found : world.bans id = some ban) :
    (world.setBan id { ban with phase := .scanning world.entries [] }).Covered := by
  refine covered.of_ban sound found _ ?_
  intro connId session present _ _ _
  by_cases uncancelled : session.cancelled = []
  · exact .inr (.inr (.inl (sound.listed_of_uncancelled present uncancelled)))
  · exact .inl uncancelled

theorem visit (sound : world.Sound) {id : BanId} {ban : Ban}
    {connId : ConnId} {todo ids : List ConnId} (found : world.bans id = some ban)
    (phase : ban.phase = .scanning (connId :: todo) ids) :
    (world.setBan id
      { ban with
        phase := .scanning todo
          (Session.visited ((world.sessions connId).filter fun _ => connId ∈ world.entries)
            ban connId ids) }).Covered := by
  refine covered.of_ban sound found _ ?_
  intro other session present community authenticated reaches
  have grows (member : other ∈ ids) : other ∈ Session.visited
      ((world.sessions connId).filter fun _ => connId ∈ world.entries) ban connId ids := by
    rw [Session.visited]
    split
    · exact mem_cons_of_mem _ member
    · exact member
  rw [phase] at reaches
  rcases reaches with unread | collected
  · rcases mem_cons.mp unread with rfl | later
    · by_cases uncancelled : session.cancelled = []
      · have listed := sound.listed_of_uncancelled present uncancelled
        rcases (sound.session other session present).settled ban.target authenticated with
          recorded | recording
        · refine .inr (.inr (.inr ?_))
          have matched : session.matchesBan ban := by
            simp [Session.matchesBan, community, recorded]
          simp [BanPhase.found, Session.visited, present, listed, matched]
        · exact .inr (.inl recording)
      · exact .inl uncancelled
    · exact .inr (.inr (.inl later))
  · exact .inr (.inr (.inr (grows collected)))

theorem cancelFound (id : BanId) (ban : Ban) (connId : ConnId) :
    (world.cancelFound id ban connId).Covered := by
  rw [World.cancelFound]
  split
  · split
    · exact covered.of_session connId _ fun pubkey _ => .inl (cons_ne_nil _ _)
    · exact covered
  · exact covered

end

theorem cancelled_of_found (sound : world.Sound) {connId : ConnId}
    {session : Session} (community : session.community = ban.community)
    (present : (world.cancelFound id ban connId).sessions connId = some session) :
    session.cancelled ≠ [] := by
  rw [World.cancelFound] at present
  split at present
  next before found =>
    split at present
    next matched =>
      simp only [World.setSession, update_self, Option.some.injEq] at present
      subst present
      exact cons_ne_nil _ _
    next unmatched =>
      rw [found, Option.some.injEq] at present
      subst present
      intro uncancelled
      exact unmatched ⟨sound.listed_of_uncancelled found uncancelled, community⟩
  next missing =>
    cases missing.symm.trans present

theorem cancelFound_bans (world : World) (id : BanId) (ban : Ban) (connId : ConnId) :
    (world.cancelFound id ban connId).bans = world.bans := by
  rw [World.cancelFound]
  repeat' split
  all_goals rfl

theorem setBan_cancelFound (world : World) (id : BanId) (ban after : Ban) (connId : ConnId) :
    (world.setBan id after).cancelFound id ban connId =
      (world.cancelFound id ban connId).setBan id after := by
  cases found : world.sessions connId with
  | none => simp [World.cancelFound, World.setBan, found]
  | some session =>
    by_cases matched : connId ∈ world.entries ∧ session.community = ban.community
    · simp [World.cancelFound, World.setBan, World.setSession, found, matched]
    · simp [World.cancelFound, World.setBan, found, matched]

theorem cancel (covered : world.Covered) (sound : world.Sound)
    {connId : ConnId} {ids : List ConnId} (found : world.bans id = some ban)
    (phase : ban.phase = .cancelling (connId :: ids)) :
    ((world.setBan id { ban with phase := .cancelling ids }).cancelFound id ban connId).Covered := by
  have inList : connId ∈ ban.phase.found := by
    rw [phase]
    exact mem_cons_self
  have sound' := sound.cancelFound found rfl rfl (sound.found id ban connId found inList)
  rw [setBan_cancelFound]
  refine (covered.cancelFound id ban connId).of_ban sound'
    ((congrFun (cancelFound_bans world id ban connId) id).trans found) _ ?_
  intro other session present community _ reaches
  rw [phase] at reaches
  rcases reaches with unread | member
  · cases unread
  · rcases mem_cons.mp member with rfl | later
    · exact .inl (cancelled_of_found sound community present)
    · exact .inr (.inr (.inr later))

theorem step (covered : world.Covered) (sound : world.Sound) {action : Action}
    (step : Step world action next) (timely : world.Timely action) : next.Covered := by
  have undecided {connId : ConnId} {session : Session} {phase : AuthPhase}
      (found : world.sessions connId = some session) (current : session.phase = phase)
      (notIdle : phase ≠ .idle) (open_ : ∀ pubkey, phase ≠ .recording pubkey) (pubkey : PublicKey) :
      session.authState ≠ .authenticated pubkey := by
    rw [((sound.session connId session found).open_of_phase current notIdle open_).1]
    nofun
  cases step with
  | @connect connId community unused =>
    exact covered.of_session connId _ nofun
  | receiveAuth found phase receiving pending =>
    refine covered.of_session _ _ fun pubkey authenticated => ?_
    rw [show _ = AuthState.pending from pending] at authenticated
    cases authenticated
  | reject found phase => exact covered.of_session _ _ nofun
  | verify found phase | clear found phase notBanned | clearOwner found phase notBanned =>
    exact covered.of_session _ _ fun pubkey authenticated =>
      absurd authenticated (undecided found phase nofun nofun pubkey)
  | refuse found phase =>
    refine covered.of_session _ _ fun pubkey authenticated => ?_
    rcases phase with ⟨owner, phase⟩ | ⟨owner, phase⟩
    · exact absurd authenticated (undecided found phase nofun nofun pubkey)
    · exact absurd authenticated (undecided found phase nofun nofun pubkey)
  | deny found phase | turnAway found phase => exact covered.of_session _ _ nofun
  | authenticate found phase =>
    refine covered.of_session _ _ fun pubkey authenticated => .inr (.inl ?_)
    cases authenticated
    rfl
  | @record connId session pubkey found phase =>
    refine covered.of_session _ _ fun key authenticated => .inr (.inr ?_)
    have same : session.authState = .authenticated key := authenticated
    rw [(sound.session connId session found).decided pubkey phase,
      AuthState.authenticated.injEq] at same
    subst same
    intro row itsRow inForce
    rcases timely session pubkey row found phase itsRow inForce with ⟨ban, itsBan, ahead⟩
    exact ⟨ban, itsBan, .inl ahead⟩
  | close found | leave found phase receiving =>
    exact covered.of_session _ _ fun _ _ => .inl (cons_ne_nil _ _)
  | deregister found left => exact covered
  | @command id community target expiresAt unused =>
    intro connId session key row present authenticated itsRow inForce
    rcases covered connId session key row present authenticated itsRow inForce with
      cancelled | recording | ⟨ban, itsBan, reaches⟩
    · exact .inl cancelled
    · exact .inr (.inl recording)
    · have different : row.ban ≠ id := by
        intro same
        rw [same, unused] at itsBan
        cases itsBan
      exact .inr (.inr ⟨ban, (update_of_ne different _ _).trans itsBan, reaches⟩)
  | writeFails found phase =>
    refine covered.of_ban sound found _ fun _ _ _ _ _ reaches => ?_
    rw [phase] at reaches
    rcases reaches with never | never
    · cases never
    · cases never
  | write found phase =>
    refine write (covered.of_ban sound found _ fun _ _ _ _ _ reaches => ?_)
    exact .inr (.inr (.inl trivial))
  | auditFails found phase => exact absurd timely id
  | audit found phase => exact covered.scan sound found
  | meet found phase present =>
    refine covered.of_ban sound found _ fun _ _ _ _ _ reaches => .inr (.inr ?_)
    rw [phase] at reaches
    rcases reaches with unread | collected
    · exact .inl (mem_cons_of_mem _ unread)
    · exact .inr collected
  | visit found phase => exact covered.visit sound found phase
  | collect found phase =>
    refine covered.of_ban sound found _ fun _ _ _ _ _ reaches => .inr (.inr ?_)
    rw [phase] at reaches
    rcases reaches with unread | collected
    · cases unread
    · exact .inr collected
  | cancel found phase => exact covered.cancel sound found phase
  | finish found phase =>
    refine covered.of_ban sound found _ fun _ _ _ _ _ reaches => ?_
    rw [phase] at reaches
    rcases reaches with never | never
    · cases never
    · cases never
  | redeliver found phase => exact covered.scan sound found
  | @unban community pubkey =>
    intro connId session key row present authenticated itsRow inForce
    simp only [World.setRow] at itsRow
    split at itsRow
    next => cases itsRow
    next => exact covered connId session key row present authenticated itsRow inForce
  | tick =>
    intro connId session key row present authenticated itsRow inForce
    refine covered connId session key row present authenticated itsRow ?_
    intro expiresAt expires
    exact Nat.lt_of_succ_lt (inForce expiresAt expires)

end World.Covered

theorem noLiveSession_of_covered (covered : world.Covered) : world.NoLiveSession := by
  intro community pubkey row ban itsRow inForce itsBan ended quiet connId session present here
    authenticated
  rw [← here] at itsRow
  rcases covered connId session pubkey row present authenticated itsRow inForce with
    cancelled | recording | ⟨found, itsBan', reaches⟩
  · exact cancelled
  · refine absurd ?_ (quiet connId session present here)
    rw [recording]
    rfl
  · rw [itsBan, Option.some.injEq] at itsBan'
    subst itsBan'
    cases phase : ban.phase with
    | done | failed =>
      rw [phase] at reaches
      rcases reaches with never | never
      · cases never
      · cases never
    | writing | auditing | scanning todo found | cancelling ids => rw [phase] at ended; cases ended

variable {actions : List Action}

theorem sound_and_covered (run : Run (Guarded World.Timely Step) World.initial actions world) :
    world.Sound ∧ world.Covered := by
  have preserved (state : World) (action : Action) (next : World)
      (inv : state.Sound ∧ state.Covered) (step : Guarded World.Timely Step state action next) :
      next.Sound ∧ next.Covered :=
    ⟨inv.1.step step.2, inv.2.step inv.1 step.2 step.1⟩
  exact run.invariant preserved ⟨World.Sound.initial, nofun⟩

theorem onlyTargets_of_run (run : Run Step World.initial actions world) :
    world.OnlyTargets :=
  (run.invariant (fun _ _ _ sound step => World.Sound.step sound step) World.Sound.initial).causes

end steps

/-- Then a ban in force leaves no live session of its key and cancels no other. -/
theorem ban_leaves_no_session {actions : List Action} {world : World}
    (run : Run (Guarded World.Timely Step) World.initial actions world) :
    world.NoLiveSession ∧ world.OnlyTargets :=
  ⟨noLiveSession_of_covered (sound_and_covered run).2, onlyTargets_of_run run.unguarded⟩

def sampleConn : ConnId := .fill 1

def sampleCommunity : CommunityId := ⟨.fill 9⟩

def sampleKey : PublicKey := .fill 7

theorem ban_leaves_no_session_single :
    ∃ world, Run (Guarded World.Timely Step) World.initial
        [.connect sampleConn sampleCommunity, .receiveAuth sampleConn,
          .verify sampleConn sampleKey none, .clear sampleConn, .authenticate sampleConn,
          .record sampleConn, .command 0 sampleCommunity sampleKey none, .write 0, .audit 0,
          .visit 0, .collect 0, .cancel 0, .finish 0] world ∧
      world.NoLiveSession ∧ world.OnlyTargets := by
  have run : Run (Guarded World.Timely Step) World.initial
      [.connect sampleConn sampleCommunity, .receiveAuth sampleConn,
        .verify sampleConn sampleKey none, .clear sampleConn, .authenticate sampleConn,
        .record sampleConn, .command 0 sampleCommunity sampleKey none, .write 0, .audit 0,
        .visit 0, .collect 0, .cancel 0, .finish 0] _ :=
    .cons ⟨trivial, .connect rfl⟩ <|
    .cons ⟨trivial, .receiveAuth rfl rfl rfl rfl⟩ <|
    .cons ⟨trivial, .verify rfl rfl⟩ <|
    .cons ⟨trivial, .clear rfl rfl nofun⟩ <|
    .cons ⟨trivial, .authenticate rfl rfl⟩ <|
    .cons ⟨nofun, .record rfl rfl⟩ <|
    .cons ⟨trivial, .command rfl⟩ <|
    .cons ⟨trivial, .write rfl rfl⟩ <|
    .cons ⟨trivial, .audit rfl rfl⟩ <|
    .cons ⟨trivial, .visit rfl rfl⟩ <|
    .cons ⟨trivial, .collect rfl rfl⟩ <|
    .cons ⟨trivial, .cancel rfl rfl⟩ <|
    .cons ⟨trivial, .finish rfl rfl⟩ <| .nil _
  exact ⟨_, run, ban_leaves_no_session run⟩

/-- The ban comes between the ban check of an authentication and its two writes. -/
theorem session_outlives_ban :
    ¬ ∀ actions world, Run Step World.initial actions world → world.NoLiveSession := by
  intro claim
  have run : Run Step World.initial
      [.connect sampleConn sampleCommunity, .receiveAuth sampleConn,
        .verify sampleConn sampleKey none, .clear sampleConn,
        .command 0 sampleCommunity sampleKey none, .write 0, .audit 0, .visit 0, .collect 0,
        .finish 0, .authenticate sampleConn, .record sampleConn] _ :=
    .cons (.connect rfl) <|
    .cons (.receiveAuth rfl rfl rfl rfl) <|
    .cons (.verify rfl rfl) <|
    .cons (.clear rfl rfl nofun) <|
    .cons (.command rfl) <|
    .cons (.write rfl rfl) <|
    .cons (.audit rfl rfl) <|
    .cons (.visit rfl rfl) <|
    .cons (.collect rfl rfl) <|
    .cons (.finish rfl rfl) <|
    .cons (.authenticate rfl rfl) <|
    .cons (.record rfl rfl) <| .nil _
  have live := claim _ _ run sampleCommunity sampleKey ⟨0, none⟩ _ rfl nofun rfl rfl ?_
    sampleConn _ rfl rfl rfl
  · exact live rfl
  · intro connId session present _
    by_cases same : connId = sampleConn
    · subst same
      cases present
      nofun
    · simp [World.setSession, World.setBan, World.setRow, World.initial, same] at present

end Buzz.Moderation
