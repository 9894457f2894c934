import Buzz.Library.Page
import Buzz.Req.Count
import Buzz.Req.Reading

/-! The historical delivery of a REQ: one bounded page of the store for each filter, matched and gated
event by event. -/

namespace Buzz.Req

open Nostr Buzz.Subscription Library.Page

def kindNip43MembershipList : ℕ := 13534

def maxSubscriptions : ℕ := 1024

inductive Scope
  | messagesRead
  | messagesWrite
  | channelsRead
  | channelsWrite
  | adminChannels
  | usersRead
  | usersWrite
  | adminUsers
  | jobsRead
  | jobsWrite
  | subscriptionsRead
  | subscriptionsWrite
  | filesRead
  | filesWrite
  | reposRead
  | reposWrite
  | unknown (scope : String)
  deriving DecidableEq

structure ReqConnection extends Caller where
  scopes : List Scope
  subscriptions : List SubId

/-- A `CLOSED` message, after a `NOTICE` or without one. -/
structure ReqRefusal where
  notice : Option String
  closed : String
  deriving DecidableEq

structure ReqAdmission where
  pubkey : PublicKey
  accessibleChannels : List Uuid
  channelId : Option Uuid

section admission

variable (conn : ReqConnection)

def authenticateReq (subId : SubId) : Except ReqRefusal (PublicKey × Option (List Uuid)) :=
  match conn.authed with
  | some (pubkey, token) =>
    if !conn.scopes.isEmpty && !conn.scopes.contains .messagesRead then
      .error ⟨some "restricted: insufficient scope", "restricted: insufficient scope"⟩
    else if !conn.subscriptions.contains subId &&
        decide (maxSubscriptions ≤ conn.subscriptions.length) then
      .error ⟨none, "error: too many subscriptions"⟩
    else .ok (pubkey, token)
  | none =>
    .error ⟨some "auth-required: authenticate before subscribing",
      "auth-required: not authenticated"⟩

def filtersAreNip43MembershipOnly (filters : List Filter) : Bool :=
  !filters.isEmpty && filters.all fun filter =>
    filter.kinds.any fun kinds =>
      !kinds.isEmpty && kinds.all (·.toNat = kindNip43MembershipList)

def reqAccessibleChannels (token : Option (List Uuid)) (filters : List Filter) :
    Except ReqRefusal (List Uuid) :=
  if filtersAreNip43MembershipOnly filters then .ok []
  else match conn.accessible with
    | some ids => .ok (ids.filter (tokenAllows token))
    | none => .error ⟨none, "error: database error"⟩

/-- A channel that the cache does not list is looked up once more. -/
def confirmChannelAccess (token : Option (List Uuid)) (accessibleChannels : List Uuid)
    (chId : Uuid) : Except ReqRefusal (List Uuid) :=
  let resolved := fun dbIsMember =>
    match resolveRequestLocalAccess accessibleChannels chId (tokenAllows token chId) dbIsMember with
    | some repaired => .ok repaired
    | none => .error ⟨none, "restricted: not a channel member"⟩
  if !tokenAllows token chId || accessibleChannels.contains chId then resolved none
  else match conn.isMember chId with
    | some member => resolved (some member)
    | none => .error ⟨none, "error: database error"⟩

def gateReqFilters (filters : List Filter) (authedPubkeyHex : String) : Except ReqRefusal Unit :=
  if !pGatedFiltersAuthorized filters authedPubkeyHex then
    .error ⟨none, "restricted: p-gated events require #p matching your pubkey"⟩
  else if !engramFiltersAuthorized filters authedPubkeyHex then
    .error ⟨none, "restricted: agent-engram reads require authors=[self] or #p=[self]"⟩
  else if !authorOnlyFiltersAuthorized filters authedPubkeyHex then
    .error ⟨none, "restricted: author-only kinds require authors=[self]"⟩
  else .ok ()

variable (parseUuid : String → Option Uuid)

def admitReq (subId : SubId) (filters : List Filter) : Except ReqRefusal ReqAdmission := do
  let (pubkey, token) ← authenticateReq conn subId
  let accessibleChannels ← reqAccessibleChannels conn token filters
  match extractChannelIdFromFilters parseUuid filters with
  | some chId =>
    let repaired ← confirmChannelAccess conn token accessibleChannels chId
    .ok ⟨pubkey, repaired, some chId⟩
  | none =>
    gateReqFilters filters pubkey.toHex
    .ok ⟨pubkey, accessibleChannels, none⟩

end admission

section delivery

variable (parseUuid : String → Option Uuid) (community : CommunityId) (admission : ReqAdmission)

def perFilterChannel (filter : Filter) : Option Uuid :=
  (extractChannelFromFilter parseUuid filter).or admission.channelId

def applyAccessScopeToQuery (query : EventQuery) (channelId : Option Uuid)
    (accessibleChannels : List Uuid) : EventQuery :=
  if channelId.isNone then { query with channelIds := some accessibleChannels } else query

def historicalQuery (filter : Filter) : EventQuery :=
  let channelId := perFilterChannel parseUuid admission filter
  let params := applyAccessScopeToQuery (filterToQueryParams filter channelId community) channelId
    admission.accessibleChannels
  pushSharedGatedReader filter admission.pubkey params

structure DeliveryProgress where
  seenIds : List EventId
  sent : List StoredEvent

def sendStored (filter : Filter) (progress : DeliveryProgress) (stored : StoredEvent) :
    DeliveryProgress :=
  if !filtersMatch [filter] stored then progress
  else if stored.channelId.any fun chId => !admission.accessibleChannels.contains chId then progress
  else if !eventVisibleToReader stored.event admission.pubkey then progress
  else if progress.seenIds.contains stored.event.id then progress
  else ⟨stored.event.id :: progress.seenIds, progress.sent ++ [stored]⟩

def deliverHistorical (rows : List EventRow) (progress : DeliveryProgress) :
    List Filter → DeliveryProgress
  | [] => progress
  | filter :: filters =>
    match queryEventsOn rows (historicalQuery parseUuid community admission filter) with
    | .error _ => progress
    | .ok events =>
      deliverHistorical rows (events.foldl (sendStored admission filter) progress) filters

end delivery

/-- `historical` are the events that are sent before `EOSE`. -/
inductive ReqOutcome
  | refused (refusal : ReqRefusal)
  | searched
  | historical (events : List StoredEvent)

def handleReq (parseUuid : String → Option Uuid) (conn : ReqConnection) (rows : List EventRow)
    (subId : SubId) (filters : List Filter) : ReqOutcome :=
  match admitReq conn parseUuid subId filters with
  | .error refusal => .refused refusal
  | .ok admission =>
    if filters.any fun filter => filter.search.isSome then
      if filters.any fun filter => filter.search.isNone then
        .refused ⟨none, "error: mixed search and non-search filters not supported"⟩
      else .searched
    else
      .historical
        (deliverHistorical parseUuid conn.communityId admission rows ⟨[], []⟩ filters).sent

end Buzz.Req
