import Buzz.Tunnel.Lease

/-! The session directory: its Lua scripts, each one atomic step on a session's two keys, and
what the relay makes of their replies. -/

namespace Buzz.Tunnel

open Nostr

structure SessionKeys where
  communityId : CommunityId
  sessionId : Uuid
  deriving DecidableEq

/-- The expiring lease and the counter that never expires. -/
structure Session where
  lease : Option String
  generation : Option ℕ
  deriving DecidableEq

abbrev ScriptReply := String × String × String

variable (lua : LuaPrinter)

/-- `redis.call('GET', generation_key) or fallback`. -/
def Session.knownGeneration (self : Session) (fallback : String) : String :=
  (self.generation.map Nat.repr).getD fallback

/-- `none` is the error of an `INCR` past `i64::MAX`. -/
def acquireScript (owner profile : String) (session : Session) : Option (ScriptReply × Session) :=
  match session.lease with
  | some current => some (("exists", current, session.knownGeneration ""), session)
  | none =>
    let generation := session.generation.getD 0 + 1
    if generation < 2 ^ 63 then
      let value := leaseText owner (lua.toString generation) profile
      some (("acquired", value, lua.toString generation), ⟨some value, some generation⟩)
    else none

/-- `done` is the status on a match. -/
def fencedScript (done : String) (matched : Session → Session) (owner generation : String)
    (session : Session) : ScriptReply × Session :=
  match session.lease with
  | none => (("missing", "", session.knownGeneration ""), session)
  | some current =>
    match luaMatch current with
    | some (currentOwner, currentGeneration, _) =>
      if currentOwner = owner ∧ currentGeneration = generation then
        ((done, current, session.knownGeneration currentGeneration), matched session)
      else (("lost", current, session.knownGeneration currentGeneration), session)
    | none => (("lost", current, session.knownGeneration ""), session)

def renewScript : String → String → Session → ScriptReply × Session :=
  fencedScript "renewed" fun session => session

def releaseScript : String → String → Session → ScriptReply × Session :=
  fencedScript "released" fun session => { session with lease := none }

def validateScript (session : Session) : String × String :=
  (session.lease.getD "", session.knownGeneration "")

inductive AcquireResult
  | acquired (lease : SessionLease)
  | exists (lease : SessionLease)
  deriving DecidableEq

inductive RenewResult
  | renewed (lease : SessionLease)
  | lost (current : Option SessionLease) (knownGeneration : Option ℕ)
  deriving DecidableEq

inductive ReleaseResult
  | released (lease : SessionLease)
  | notOwner (current : Option SessionLease) (knownGeneration : Option ℕ)
  deriving DecidableEq

def ttlMs (leaseTtl : ℕ) : Except DirectoryError ℕ :=
  if 0 < leaseTtl ∧ leaseTtl < 2 ^ 63 then .ok leaseTtl else .error .invalidLeaseTtl

def acquireReply (keys : SessionKeys) (reply : ScriptReply) :
    Except DirectoryError AcquireResult := do
  let lease ← parseLease keys.communityId keys.sessionId reply.2.1
  if reply.1 = "acquired" then .ok (.acquired lease)
  else if reply.1 = "exists" then .ok (.exists lease)
  else .error (.unexpectedScriptStatus reply.1)

def acquire (leaseTtl : ℕ) (keys : SessionKeys) (ownerRuntimeId : RuntimeId) (profile : Profile)
    (session : Session) : Except DirectoryError AcquireResult × Session :=
  match ttlMs leaseTtl with
  | .error cause => (.error cause, session)
  | .ok _ =>
    match acquireScript lua ownerRuntimeId.toHex profile.asWireStr session with
    | none => (.error .redis, session)
    | some (reply, next) => (acquireReply keys reply, next)

def SessionLease.keys (self : SessionLease) : SessionKeys := ⟨self.communityId, self.sessionId⟩

def renewReply (keys : SessionKeys) (reply : ScriptReply) : Except DirectoryError RenewResult := do
  let current ← parseOptionalLease keys.communityId keys.sessionId reply.2.1
  if reply.1 = "renewed" then
    match current with
    | some lease => .ok (.renewed lease)
    | none => .error (.expectFailed "renewed returns lease")
  else if reply.1 = "missing" ∨ reply.1 = "lost" then
    let known ← parseOptionalGeneration keys.communityId keys.sessionId reply.2.2
    .ok (.lost current known)
  else .error (.unexpectedScriptStatus reply.1)

def renew (leaseTtl : ℕ) (lease : SessionLease) (session : Session) :
    Except DirectoryError RenewResult × Session :=
  match ttlMs leaseTtl with
  | .error cause => (.error cause, session)
  | .ok _ =>
    let (reply, next) :=
      renewScript lease.ownerRuntimeId.toHex (Nat.repr lease.generation) session
    (renewReply lease.keys reply, next)

def releaseReply (keys : SessionKeys) (reply : ScriptReply) :
    Except DirectoryError ReleaseResult := do
  let current ← parseOptionalLease keys.communityId keys.sessionId reply.2.1
  if reply.1 = "released" then
    match current with
    | some lease => .ok (.released lease)
    | none => .error (.expectFailed "released returns lease")
  else if reply.1 = "missing" ∨ reply.1 = "lost" then
    let known ← parseOptionalGeneration keys.communityId keys.sessionId reply.2.2
    .ok (.notOwner current known)
  else .error (.unexpectedScriptStatus reply.1)

def release (lease : SessionLease) (session : Session) :
    Except DirectoryError ReleaseResult × Session :=
  let (reply, next) :=
    releaseScript lease.ownerRuntimeId.toHex (Nat.repr lease.generation) session
  (releaseReply lease.keys reply, next)

inductive MeshError
  | transport (cause : DirectoryError)
  | staleGeneration (sessionId : Uuid) (frameGeneration knownGeneration : ℕ)
  | noActiveLease (sessionId : Uuid) (frameGeneration knownGeneration : ℕ)
      (frameOwnerRuntimeId : RuntimeId)
  | futureGeneration (sessionId : Uuid) (frameGeneration knownGeneration : ℕ)
  | ownerMismatch (sessionId : Uuid) (generation : ℕ)
      (frameOwnerRuntimeId currentOwnerRuntimeId : RuntimeId)
  deriving DecidableEq

def validateFencedHeader (communityId : CommunityId) (fenced : FencedHeader) (session : Session) :
    Except MeshError Unit := do
  let (leaseValue, knownGeneration) := validateScript session
  let knownFromCounter ←
    match parseOptionalGeneration communityId fenced.sessionId knownGeneration with
    | .ok known => .ok (known.getD 0)
    | .error cause => .error (.transport cause)
  let current ←
    match parseOptionalLease communityId fenced.sessionId leaseValue with
    | .ok current => .ok current
    | .error cause => .error (.transport cause)
  let known := max ((current.map SessionLease.generation).getD knownFromCounter) knownFromCounter
  if 0 < known ∧ fenced.generation < known then
    .error (.staleGeneration fenced.sessionId fenced.generation known)
  else match current with
    | none =>
      .error (.noActiveLease fenced.sessionId fenced.generation known fenced.ownerRuntimeId)
    | some current =>
      if fenced.generation ≠ current.generation then
        .error (.futureGeneration fenced.sessionId fenced.generation current.generation)
      else if fenced.ownerRuntimeId ≠ current.ownerRuntimeId then
        .error (.ownerMismatch fenced.sessionId fenced.generation fenced.ownerRuntimeId
          current.ownerRuntimeId)
      else .ok ()

/-- A reliable stream: its pinned fence, and the community once latched. -/
structure ReliableMeshStream where
  fenced : FencedHeader
  communityId : Option CommunityId
  deriving DecidableEq

inductive GoodbyeReason
  | sessionEnded
  | draining
  | staleGeneration
  deriving DecidableEq

inductive ReliableWireFrame
  | data (communityId : CommunityId) (payload : Bytes)
  | goodbye (communityId : CommunityId) (reason : GoodbyeReason)
  deriving DecidableEq

def ReliableWireFrame.communityId : ReliableWireFrame → CommunityId
  | .data communityId _ => communityId
  | .goodbye communityId _ => communityId

inductive MeshStreamFrame
  | data (fenced : FencedHeader) (decoded : Option ReliableWireFrame)
  | goodbye
  | hello
  | gossip
  deriving DecidableEq

inductive ReliableStreamError
  | decode
  | frameFenceMismatch (expected actual : FencedHeader)
  | communityMismatch (expected actual : CommunityId)
  | mesh (cause : MeshError)
  | unexpectedFrame (name : String)
  deriving DecidableEq

def validateFrameFence (stream : ReliableMeshStream) (communityId : CommunityId)
    (fenced : FencedHeader) (redis : SessionKeys → Session) :
    Except ReliableStreamError ReliableMeshStream :=
  if fenced ≠ stream.fenced then .error (.frameFenceMismatch stream.fenced fenced)
  else match stream.communityId with
    | some expected =>
      if expected ≠ communityId then .error (.communityMismatch expected communityId)
      else match validateFencedHeader communityId fenced (redis ⟨communityId, fenced.sessionId⟩) with
        | .ok () => .ok stream
        | .error cause => .error (.mesh cause)
    | none =>
      match validateFencedHeader communityId fenced (redis ⟨communityId, fenced.sessionId⟩) with
      | .ok () => .ok { stream with communityId := some communityId }
      | .error cause => .error (.mesh cause)

def recvValidated (stream : ReliableMeshStream) (redis : SessionKeys → Session) :
    MeshStreamFrame → Except ReliableStreamError ReliableWireFrame × ReliableMeshStream
  | .data fenced decoded =>
    match decoded with
    | none => (.error .decode, stream)
    | some frame =>
      match validateFrameFence stream frame.communityId fenced redis with
      | .ok next => (.ok frame, next)
      | .error cause => (.error cause, stream)
  | .goodbye => (.error (.unexpectedFrame "goodbye"), stream)
  | .hello => (.error (.unexpectedFrame "hello"), stream)
  | .gossip => (.error (.unexpectedFrame "gossip"), stream)

end Buzz.Tunnel
