import Buzz.Req.Query

/-! COUNT: each filter is counted by SQL alone where the code takes that to be exact, and by fetching
and filtering a bounded page otherwise. -/

namespace Buzz.Req

open Nostr Buzz.Subscription

inductive CountRefusal
  | closed (message : String)
  | failed (error : QueryError)
  deriving DecidableEq

/-- `accessible` and `isMember` are the answers, if any. -/
structure Caller where
  communityId : CommunityId
  authed : Option (PublicKey × Option (List Uuid))
  accessible : Option (List Uuid)
  isMember : Uuid → Option Bool

def tokenAllows (token : Option (List Uuid)) (channelId : Uuid) : Bool :=
  token.all (·.contains channelId)

def countFallbackCandidateLimit : ℕ := 5000

def applyCountFallbackLimit (query : EventQuery) : EventQuery :=
  let fetchLimit : ℤ := countFallbackCandidateLimit + 1
  { query with limit := some fetchLimit, maxLimit := some fetchLimit }

def countFallbackExceeded (candidateCount : ℕ) : Bool :=
  countFallbackCandidateLimit < candidateCount

def countsInSql (filter : Filter) (authedPubkeyHex : String) : Bool :=
  let needsResultGatedFiltering := filterCanMatchResultGatedKinds filter &&
    !resultGatedCountSafeForPushdown filter authedPubkeyHex
  filterFullyPushable filter &&
    (!filterCanMatchAuthorOnlyKinds filter || authorsAreReader filter authedPubkeyHex) &&
    !needsResultGatedFiltering && !filterCanMatchSharedGatedKinds filter

def countBySql (rows : List EventRow) (query : EventQuery) : Except CountRefusal ℕ :=
  match countEventsOn rows query with
  | .ok n => .ok n
  | .error e => .error (.failed e)

def countByFetching (pubkey : PublicKey) (rows : List EventRow) (filter : Filter)
    (query : EventQuery) : Except CountRefusal ℕ :=
  match queryEventsOn rows (applyCountFallbackLimit query) with
  | .ok storedEvents =>
    if countFallbackExceeded storedEvents.length then
      .error (.closed "restricted: count filter requires narrower constraints")
    else .ok (storedEvents.countP fun se =>
      filtersMatch [filter] se && eventVisibleToReader se.event pubkey)
  | .error e => .error (.failed e)

def countQuery (pubkey : PublicKey) (rows : List EventRow) (filter : Filter) (query : EventQuery) :
    Except CountRefusal ℕ :=
  let query := pushSharedGatedReader filter pubkey query
  if countsInSql filter pubkey.toHex then countBySql rows query
  else countByFetching pubkey rows filter query

structure CountPlan where
  accessible : List Uuid
  query : Option EventQuery

variable (parseUuid : String → Option Uuid)

def planCount (caller : Caller) (token : Option (List Uuid)) (accessibleChannels : List Uuid)
    (filter : Filter) : Except CountRefusal CountPlan :=
  let query := buildEventQueryFromFilter parseUuid filter caller.communityId
  match extractChannelFromFilter parseUuid filter with
  | some chId =>
    if accessibleChannels.contains chId then
      match resolveRequestLocalAccess accessibleChannels chId (tokenAllows token chId) none with
      | some repaired => .ok ⟨repaired, some query⟩
      | none => .ok ⟨accessibleChannels, none⟩
    else
      match caller.isMember chId with
      | none => .error (.closed "error: database error")
      | some member =>
        match resolveRequestLocalAccess accessibleChannels chId (tokenAllows token chId)
            (some member) with
        | some repaired => .ok ⟨repaired, some query⟩
        | none => .ok ⟨accessibleChannels, none⟩
  | none => .ok ⟨accessibleChannels, some { query with channelIds := some accessibleChannels }⟩

def countFilter (caller : Caller) (pubkey : PublicKey) (token : Option (List Uuid))
    (rows : List EventRow) (progress : List Uuid × ℕ) (filter : Filter) :
    Except CountRefusal (List Uuid × ℕ) :=
  match planCount parseUuid caller token progress.1 filter with
  | .error refusal => .error refusal
  | .ok plan =>
    match plan.query with
    | none => .ok (plan.accessible, progress.2)
    | some query =>
      match countQuery pubkey rows filter query with
      | .error refusal => .error refusal
      | .ok n => .ok (plan.accessible, progress.2 + n)

/-- The reader, its token's channels and those it can access. -/
def admitCount (caller : Caller) (filters : List Filter) :
    Except CountRefusal (PublicKey × Option (List Uuid) × List Uuid) :=
  match caller.authed with
  | none => .error (.closed "auth-required: not authenticated")
  | some (pubkey, token) =>
    if !pGatedFiltersAuthorized filters pubkey.toHex then
      .error (.closed "restricted: p-gated kinds require #p tag matching your pubkey")
    else if !engramFiltersAuthorized filters pubkey.toHex then
      .error (.closed "restricted: agent-engram reads require authors=[self] or #p=[self]")
    else if !authorOnlyFiltersAuthorized filters pubkey.toHex then
      .error (.closed "restricted: author-only kinds require authors=[self]")
    else
      match caller.accessible with
      | none => .error (.closed "error: database error")
      | some ids => .ok (pubkey, token, ids.filter (tokenAllows token))

def handleCount (caller : Caller) (rows : List EventRow) (filters : List Filter) :
    Except CountRefusal ℕ :=
  match admitCount caller filters with
  | .error refusal => .error refusal
  | .ok (pubkey, token, accessibleChannels) =>
    match filters.foldlM (countFilter parseUuid caller pubkey token rows)
        (accessibleChannels, 0) with
    | .error refusal => .error refusal
    | .ok (_, total) => .ok total

end Buzz.Req
