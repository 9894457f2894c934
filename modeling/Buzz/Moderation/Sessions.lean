import Buzz.Library.Runs
import Buzz.Subscription.Registry

/-! The sockets of a pod and the bans that it carries out. -/

namespace Buzz.Moderation

open Nostr Buzz.Subscription Library.Transition

inductive AuthState
  | pending
  | authenticated (pubkey : PublicKey)
  | failed
  deriving DecidableEq

/-- The ban checks, the gates, the two writes of the key. -/
inductive AuthPhase
  | idle
  | verifying
  | checking (pubkey : PublicKey) (owner : Option PublicKey)
  | checkingOwner (pubkey owner : PublicKey)
  | denying
  | passing (pubkey : PublicKey)
  | recording (pubkey : PublicKey)
  deriving DecidableEq

abbrev BanId := ℕ

inductive Cause
  | ban (id : BanId)
  | denial
  | other
  deriving DecidableEq

/-- `recorded` is the manager's `authenticated_pubkey`. -/
structure Session where
  community : CommunityId
  authState : AuthState
  phase : AuthPhase
  recorded : Option PublicKey
  receiving : Bool
  cancelled : List Cause

def Session.new (community : CommunityId) : Session :=
  ⟨community, .pending, .idle, none, true, []⟩

/-- The scan, then the connections still to be closed. -/
inductive BanPhase
  | writing
  | auditing
  | scanning (todo found : List ConnId)
  | cancelling (ids : List ConnId)
  | done
  | failed
  deriving DecidableEq

structure Ban where
  community : CommunityId
  target : PublicKey
  expiresAt : Option ℕ
  phase : BanPhase

/-- A row of `community_bans`, with the command that wrote it. -/
structure BanRow where
  ban : BanId
  expiresAt : Option ℕ

def BanRow.inForce (self : BanRow) (now : ℕ) : Prop :=
  ∀ expiresAt, self.expiresAt = some expiresAt → now < expiresAt

/-- `entries` are the keys of the connection manager's map. -/
structure World where
  sessions : ConnId → Option Session
  entries : List ConnId
  rows : CommunityId → PublicKey → Option BanRow
  bans : BanId → Option Ban
  now : ℕ

namespace World

def initial : World := ⟨fun _ => none, [], fun _ _ => none, fun _ => none, 0⟩

def setSession (self : World) (connId : ConnId) (session : Session) : World :=
  { self with sessions := Function.update self.sessions connId (some session) }

def setBan (self : World) (id : BanId) (ban : Ban) : World :=
  { self with bans := Function.update self.bans id (some ban) }

/-- `moderation_restriction_state`. -/
def Banned (self : World) (community : CommunityId) (pubkey : PublicKey) : Prop :=
  ∃ row, self.rows community pubkey = some row ∧ row.inForce self.now

def setRow (self : World) (community : CommunityId) (pubkey : PublicKey) (row : Option BanRow) :
    World :=
  { self with
    rows := fun other key =>
      if other = community ∧ key = pubkey then row else self.rows other key }

end World

def Session.matchesBan (self : Session) (ban : Ban) : Bool :=
  self.community = ban.community && self.recorded = some ban.target

def Session.cancel (self : Session) (cause : Cause) : Session :=
  { self with cancelled := cause :: self.cancelled }

/-- `set_authenticated_pubkey` on a connection whose entry may be gone. -/
def Session.record (self : Session) (present : Bool) (pubkey : PublicKey) : Session :=
  { self with
    phase := .idle
    recorded := if present then some pubkey else self.recorded }

def afterCheck (pubkey : PublicKey) : Option PublicKey → AuthPhase
  | some owner => .checkingOwner pubkey owner
  | none => .passing pubkey

def Session.visited (self : Option Session) (ban : Ban) (connId : ConnId) (found : List ConnId) :
    List ConnId :=
  if self.any (Session.matchesBan · ban) then connId :: found else found

def World.cancelFound (self : World) (id : BanId) (ban : Ban) (connId : ConnId) : World :=
  match self.sessions connId with
  | some session =>
    if connId ∈ self.entries ∧ session.community = ban.community then
      self.setSession connId (session.cancel (.ban id))
    else self
  | none => self

inductive Action
  | connect (connId : ConnId) (community : CommunityId)
  | receiveAuth (connId : ConnId)
  | reject (connId : ConnId)
  | verify (connId : ConnId) (pubkey : PublicKey) (owner : Option PublicKey)
  | clear (connId : ConnId)
  | clearOwner (connId : ConnId)
  | refuse (connId : ConnId)
  | deny (connId : ConnId)
  | turnAway (connId : ConnId)
  | authenticate (connId : ConnId)
  | record (connId : ConnId)
  | close (connId : ConnId)
  | leave (connId : ConnId)
  | deregister (connId : ConnId)
  | command (id : BanId) (community : CommunityId) (target : PublicKey) (expiresAt : Option ℕ)
  | writeFails (id : BanId)
  | write (id : BanId)
  | auditFails (id : BanId)
  | audit (id : BanId)
  | meet (id : BanId) (connId : ConnId)
  | visit (id : BanId)
  | collect (id : BanId)
  | cancel (id : BanId)
  | finish (id : BanId)
  | redeliver (id : BanId)
  | unban (community : CommunityId) (pubkey : PublicKey)
  | tick

/-- A failing check denies; the ban's broadcast comes back. -/
inductive Step : World → Action → World → Prop
  | connect {world : World} {connId : ConnId} {community : CommunityId}
      (unused : world.sessions connId = none) :
      Step world (.connect connId community)
        { world.setSession connId (.new community) with entries := connId :: world.entries }
  | receiveAuth {world : World} {connId : ConnId} {session : Session}
      (found : world.sessions connId = some session) (phase : session.phase = .idle)
      (receiving : session.receiving) (pending : session.authState = .pending) :
      Step world (.receiveAuth connId) (world.setSession connId { session with phase := .verifying })
  | reject {world : World} {connId : ConnId} {session : Session}
      (found : world.sessions connId = some session) (phase : session.phase = .verifying) :
      Step world (.reject connId)
        (world.setSession connId { session with phase := .idle, authState := .failed })
  | verify {world : World} {connId : ConnId} {session : Session} {pubkey : PublicKey}
      {owner : Option PublicKey} (found : world.sessions connId = some session)
      (phase : session.phase = .verifying) :
      Step world (.verify connId pubkey owner)
        (world.setSession connId { session with phase := .checking pubkey owner })
  | clear {world : World} {connId : ConnId} {session : Session} {pubkey : PublicKey}
      {owner : Option PublicKey} (found : world.sessions connId = some session)
      (phase : session.phase = .checking pubkey owner)
      (notBanned : ¬ world.Banned session.community pubkey) :
      Step world (.clear connId)
        (world.setSession connId { session with phase := afterCheck pubkey owner })
  | clearOwner {world : World} {connId : ConnId} {session : Session} {pubkey owner : PublicKey}
      (found : world.sessions connId = some session)
      (phase : session.phase = .checkingOwner pubkey owner)
      (notBanned : ¬ world.Banned session.community owner) :
      Step world (.clearOwner connId)
        (world.setSession connId { session with phase := .passing pubkey })
  | refuse {world : World} {connId : ConnId} {session : Session} {pubkey : PublicKey}
      (found : world.sessions connId = some session)
      (phase : (∃ owner, session.phase = .checking pubkey owner) ∨
        ∃ owner, session.phase = .checkingOwner pubkey owner) :
      Step world (.refuse connId) (world.setSession connId { session with phase := .denying })
  | deny {world : World} {connId : ConnId} {session : Session}
      (found : world.sessions connId = some session) (phase : session.phase = .denying) :
      Step world (.deny connId)
        (world.setSession connId
          (Session.cancel { session with phase := .idle, authState := .failed } .denial))
  | turnAway {world : World} {connId : ConnId} {session : Session} {pubkey : PublicKey}
      (found : world.sessions connId = some session) (phase : session.phase = .passing pubkey) :
      Step world (.turnAway connId)
        (world.setSession connId { session with phase := .idle, authState := .failed })
  | authenticate {world : World} {connId : ConnId} {session : Session} {pubkey : PublicKey}
      (found : world.sessions connId = some session) (phase : session.phase = .passing pubkey) :
      Step world (.authenticate connId)
        (world.setSession connId
          { session with phase := .recording pubkey, authState := .authenticated pubkey })
  | record {world : World} {connId : ConnId} {session : Session} {pubkey : PublicKey}
      (found : world.sessions connId = some session) (phase : session.phase = .recording pubkey) :
      Step world (.record connId)
        (world.setSession connId (session.record (connId ∈ world.entries) pubkey))
  | close {world : World} {connId : ConnId} {session : Session}
      (found : world.sessions connId = some session) :
      Step world (.close connId) (world.setSession connId (session.cancel .other))
  | leave {world : World} {connId : ConnId} {session : Session}
      (found : world.sessions connId = some session) (phase : session.phase = .idle)
      (receiving : session.receiving) :
      Step world (.leave connId)
        (world.setSession connId (Session.cancel { session with receiving := false } .other))
  | deregister {world : World} {connId : ConnId} {session : Session}
      (found : world.sessions connId = some session) (left : session.receiving = false) :
      Step world (.deregister connId) { world with entries := world.entries.erase connId }
  | command {world : World} {id : BanId} {community : CommunityId} {target : PublicKey}
      {expiresAt : Option ℕ} (unused : world.bans id = none) :
      Step world (.command id community target expiresAt)
        (world.setBan id ⟨community, target, expiresAt, .writing⟩)
  | writeFails {world : World} {id : BanId} {ban : Ban} (found : world.bans id = some ban)
      (phase : ban.phase = .writing) :
      Step world (.writeFails id) (world.setBan id { ban with phase := .failed })
  | write {world : World} {id : BanId} {ban : Ban} (found : world.bans id = some ban)
      (phase : ban.phase = .writing) :
      Step world (.write id)
        ((world.setBan id { ban with phase := .auditing }).setRow ban.community ban.target
          (some ⟨id, ban.expiresAt⟩))
  | auditFails {world : World} {id : BanId} {ban : Ban} (found : world.bans id = some ban)
      (phase : ban.phase = .auditing) :
      Step world (.auditFails id) (world.setBan id { ban with phase := .failed })
  | audit {world : World} {id : BanId} {ban : Ban} (found : world.bans id = some ban)
      (phase : ban.phase = .auditing) :
      Step world (.audit id) (world.setBan id { ban with phase := .scanning world.entries [] })
  | meet {world : World} {id : BanId} {ban : Ban} {connId : ConnId} {todo ids : List ConnId}
      (found : world.bans id = some ban) (phase : ban.phase = .scanning todo ids)
      (present : connId ∈ world.entries) :
      Step world (.meet id connId)
        (world.setBan id { ban with phase := .scanning (connId :: todo) ids })
  | visit {world : World} {id : BanId} {ban : Ban} {connId : ConnId} {todo ids : List ConnId}
      (found : world.bans id = some ban) (phase : ban.phase = .scanning (connId :: todo) ids) :
      Step world (.visit id)
        (world.setBan id
          { ban with
            phase := .scanning todo
              (Session.visited ((world.sessions connId).filter fun _ => connId ∈ world.entries)
                ban connId ids) })
  | collect {world : World} {id : BanId} {ban : Ban} {ids : List ConnId}
      (found : world.bans id = some ban) (phase : ban.phase = .scanning [] ids) :
      Step world (.collect id) (world.setBan id { ban with phase := .cancelling ids })
  | cancel {world : World} {id : BanId} {ban : Ban} {connId : ConnId} {ids : List ConnId}
      (found : world.bans id = some ban) (phase : ban.phase = .cancelling (connId :: ids)) :
      Step world (.cancel id)
        ((world.setBan id { ban with phase := .cancelling ids }).cancelFound id ban connId)
  | finish {world : World} {id : BanId} {ban : Ban} (found : world.bans id = some ban)
      (phase : ban.phase = .cancelling []) :
      Step world (.finish id) (world.setBan id { ban with phase := .done })
  | redeliver {world : World} {id : BanId} {ban : Ban} (found : world.bans id = some ban)
      (phase : ban.phase = .done) :
      Step world (.redeliver id) (world.setBan id { ban with phase := .scanning world.entries [] })
  | unban {world : World} {community : CommunityId} {pubkey : PublicKey} :
      Step world (.unban community pubkey) (world.setRow community pubkey none)
  | tick {world : World} : Step world .tick { world with now := world.now + 1 }

end Buzz.Moderation
