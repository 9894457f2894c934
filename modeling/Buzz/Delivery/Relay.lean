import Buzz.Moderation.Sessions
import Buzz.Pubsub.Topics
import Buzz.Req.Gates
import Buzz.Subscription.Indexing

/-! A pod with its live connections and subscriptions, and the paths on which it sends events to
them. -/

namespace Buzz.Delivery

open Nostr Buzz.Subscription Buzz.Pubsub Buzz.Req
open Buzz.Moderation (AuthState)

inductive DbError
  | unavailable
  | channelNotFound
  deriving DecidableEq

structure Access where
  available : Bool
  channels : CommunityId → Uuid → Option String
  members : CommunityId → Uuid → PublicKey → Bool
  privateCached : CommunityId → Uuid → Bool
  membershipCache : CommunityId → Uuid → PublicKey → Option Bool

namespace Access

def getChannel (self : Access) (communityId : CommunityId) (channelId : Uuid) :
    Except DbError String :=
  if !self.available then .error .unavailable
  else match self.channels communityId channelId with
    | some visibility => .ok visibility
    | none => .error .channelNotFound

def channelVisibilityCached (self : Access) (communityId : CommunityId) (channelId : Uuid) :
    Except DbError String :=
  if self.privateCached communityId channelId then .ok "private"
  else self.getChannel communityId channelId

def isMemberCached (self : Access) (communityId : CommunityId) (channelId : Uuid)
    (pubkey : PublicKey) : Except DbError Bool :=
  match self.membershipCache communityId channelId pubkey with
  | some cached => .ok cached
  | none =>
    if self.available then .ok (self.members communityId channelId pubkey)
    else .error .unavailable

/-- `get_accessible_channel_ids`: the channels of the reader and the open ones. -/
def accessible (self : Access) (communityId : CommunityId) (pubkey : PublicKey)
    (channelId : Uuid) : Bool :=
  match self.channels communityId channelId with
  | some visibility => self.members communityId channelId pubkey || visibility == "open"
  | none => false

end Access

structure ThreadedChannelVisibility where
  communityId : CommunityId
  channelId : Uuid
  visibility : String

/-- `recorded` is `authenticated_pubkey` of its entry in the manager. -/
structure Session where
  community : CommunityId
  authState : AuthState
  recorded : Option PublicKey
  listed : Bool

structure Relay where
  sessions : ConnId → Option Session
  registry : SubscriptionRegistry
  localEventIds : List (CommunityId × EventId)
  access : Access

structure ChannelEvent where
  communityId : CommunityId
  topic : EventTopic
  event : Event

namespace Relay

def initial (access : Access) : Relay := ⟨fun _ => none, .empty, [], access⟩

def setSession (self : Relay) (connId : ConnId) (session : Session) : Relay :=
  { self with sessions := Function.update self.sessions connId (some session) }

@[simp] theorem sessions_setSession (self : Relay) (connId other : ConnId) (session : Session) :
    (self.setSession connId session).sessions other =
      if other = connId then some session else self.sessions other :=
  Function.update_apply ..

theorem sessions_setSession_self (self : Relay) (connId : ConnId) (session : Session) :
    (self.setSession connId session).sessions connId = some session := by
  rw [sessions_setSession, if_pos rfl]

def entry (self : Relay) (connId : ConnId) : Option Session :=
  (self.sessions connId).filter Session.listed

def communityForConn (self : Relay) (connId : ConnId) : Option CommunityId :=
  (self.entry connId).map Session.community

def pubkeyForConn (self : Relay) (connId : ConnId) : Option PublicKey :=
  (self.entry connId).bind Session.recorded

end Relay

/-- The threaded value counts only for the channel that it was resolved for. -/
def Access.visibilityRead (self : Access) (communityId : CommunityId) (channelId : Uuid) :
    Option ThreadedChannelVisibility → Except DbError String
  | some threaded =>
    if threaded.communityId = communityId ∧ threaded.channelId = channelId then
      .ok threaded.visibility
    else self.channelVisibilityCached communityId channelId
  | none => self.channelVisibilityCached communityId channelId

def keptBySharedGate (event : Event) : Option PublicKey → Bool
  | none => false
  | some pubkey => if pubkey = event.pubkey then true else !isUnsharedGatedEvent event pubkey

/-- An unknown key or a failed lookup drops out. -/
def Access.keptByMembership (self : Access) (communityId : CommunityId) (channelId : Uuid) :
    Option PublicKey → Bool
  | none => false
  | some pubkey =>
    match self.isMemberCached communityId channelId pubkey with
    | .ok member => member
    | .error _ => false

namespace Relay

def filterFanoutByAccess (self : Relay) (communityId : CommunityId) (storedEvent : StoredEvent)
    (candidates : List Subscriber) (threaded : Option ThreadedChannelVisibility) :
    List Subscriber :=
  let kind := eventKindU32 storedEvent.event
  let author := storedEvent.event.pubkey
  let labelled := candidates.filter fun subscriber =>
    self.communityForConn subscriber.1 = some communityId
  let authored :=
    if authorOnlyKinds.contains kind then
      labelled.filter fun subscriber =>
        (self.pubkeyForConn subscriber.1).any (· = author)
    else labelled
  let shared :=
    if isSharedGatedKind kind then
      authored.filter fun subscriber =>
        keptBySharedGate storedEvent.event (self.pubkeyForConn subscriber.1)
    else authored
  match storedEvent.channelId with
  | none => shared
  | some channelId =>
    match self.access.visibilityRead communityId channelId threaded with
    | .error _ => []
    | .ok visibility =>
      if visibility ≠ "private" then shared
      else shared.filter fun subscriber =>
        self.access.keptByMembership communityId channelId (self.pubkeyForConn subscriber.1)

def fanOutEventToLocalSubscribers (self : Relay) (communityId : CommunityId)
    (stored : StoredEvent) : List Subscriber :=
  self.filterFanoutByAccess communityId stored (self.registry.fanOutScoped communityId stored) none

def markLocalEvent (self : Relay) (communityId : CommunityId) (eventId : EventId) : Relay :=
  { self with localEventIds := (communityId, eventId) :: self.localEventIds }

def invalidateLocalEvent (self : Relay) (communityId : CommunityId) (eventId : EventId) : Relay :=
  { self with
    localEventIds := self.localEventIds.filter fun key => decide (key ≠ (communityId, eventId)) }

def topicChannel : EventTopic → Option Uuid
  | .channel channelId => some channelId
  | .global => none

/-- An event that comes back to the pod that sent it is dropped once. -/
def fanOutPubsubEvent (self : Relay) (channelEvent : ChannelEvent) : Relay × List Subscriber :=
  let stored : StoredEvent := ⟨channelEvent.event, topicChannel channelEvent.topic⟩
  let communityId := channelEvent.communityId
  if (communityId, stored.event.id) ∈ self.localEventIds then
    (self.invalidateLocalEvent communityId stored.event.id, [])
  else
    (self, self.filterFanoutByAccess communityId stored
      (self.registry.fanOutScoped communityId stored) none)

end Relay

/-- The first `p` tag with a value. -/
def privateEventOwner (event : Event) (kindU32 : ℕ) : Option String :=
  if kindU32 = kindDmVisibility ∨ kindU32 = kindAgentTurnMetric then
    (tagContents "p" event.tags).head?
  else none

def keptByOwnerGate (owner : Option String) (key : Option PublicKey) : Bool :=
  match owner with
  | some ownerHex => key.any (·.toHex == ownerHex)
  | none => true

namespace Relay

/-- `published` tells whether the Redis publish went through. -/
def dispatchPersistentEventInner (self : Relay) (communityId : CommunityId)
    (storedEvent : StoredEvent) (kindU32 : ℕ) (published : Bool)
    (threaded : Option ThreadedChannelVisibility) : Relay × List Subscriber :=
  let marked := self.markLocalEvent communityId storedEvent.event.id
  let relay := if published then marked
    else marked.invalidateLocalEvent communityId storedEvent.event.id
  let found := relay.filterFanoutByAccess communityId storedEvent
    (relay.registry.fanOutScoped communityId storedEvent) threaded
  (relay, found.filter fun subscriber =>
    keptByOwnerGate (privateEventOwner storedEvent.event kindU32)
      (relay.pubkeyForConn subscriber.1))

end Relay

/-- With the channels that it resolved as accessible. -/
def reqRegisters (parseUuid : String → Option Uuid) (pubkey : PublicKey) (filters : List Filter)
    (accessibleChannels : List Uuid) (tokenAllows : Uuid → Bool) (dbIsMember : Uuid → Option Bool) :
    Bool :=
  (filters.all (·.search.isNone)) &&
    match extractChannelIdFromFilters parseUuid filters with
    | none => filterGates filters pubkey.toHex
    | some channelId =>
      (resolveRequestLocalAccess accessibleChannels channelId (tokenAllows channelId)
        (dbIsMember channelId)).isSome

inductive Action
  | connect (connId : ConnId) (community : CommunityId)
  | turnAway (connId : ConnId)
  | authenticate (connId : ConnId) (pubkey : PublicKey)
  | record (connId : ConnId)
  | register (connId : ConnId) (subId : SubId) (filters : List Filter)
  | close (connId : ConnId) (subId : SubId)
  | evict (community : CommunityId) (connId : ConnId) (channelId : Uuid)
  | leave (connId : ConnId)
  | sweep (connId : ConnId)
  | dispatch (community : CommunityId) (stored : StoredEvent) (published : Bool)
      (threaded : Option ThreadedChannelVisibility)
  | receive (channelEvent : ChannelEvent)
  | expire (community : CommunityId) (eventId : EventId)
  | access (next : Access)

def Relay.apply (self : Relay) (operation : Operation) : Relay :=
  { self with registry := self.registry.apply operation }

inductive Step (parseUuid : String → Option Uuid) : Relay → Action → Relay → Prop
  | connect {relay : Relay} {connId : ConnId} {community : CommunityId}
      (unused : relay.sessions connId = none) :
      Step parseUuid relay (.connect connId community)
        (relay.setSession connId ⟨community, .pending, none, true⟩)
  | turnAway {relay : Relay} {connId : ConnId} {session : Session}
      (found : relay.sessions connId = some session) (pending : session.authState = .pending) :
      Step parseUuid relay (.turnAway connId)
        (relay.setSession connId { session with authState := .failed })
  | authenticate {relay : Relay} {connId : ConnId} {session : Session} {pubkey : PublicKey}
      (found : relay.sessions connId = some session) (pending : session.authState = .pending) :
      Step parseUuid relay (.authenticate connId pubkey)
        (relay.setSession connId { session with authState := .authenticated pubkey })
  | record {relay : Relay} {connId : ConnId} {session : Session} {pubkey : PublicKey}
      (found : relay.sessions connId = some session) (listed : session.listed)
      (passed : session.authState = .authenticated pubkey) :
      Step parseUuid relay (.record connId)
        (relay.setSession connId { session with recorded := some pubkey })
  | register {relay : Relay} {connId : ConnId} {session : Session} {pubkey : PublicKey}
      {subId : SubId} {filters : List Filter} {accessibleChannels : List Uuid}
      {tokenAllows : Uuid → Bool} {dbIsMember : Uuid → Option Bool}
      (found : relay.sessions connId = some session)
      (passed : session.authState = .authenticated pubkey)
      (narrowed : ∀ channelId ∈ accessibleChannels,
        relay.access.accessible session.community pubkey channelId)
      (answered : ∀ channelId, dbIsMember channelId = some true →
        relay.access.members session.community channelId pubkey)
      (allowed : reqRegisters parseUuid pubkey filters accessibleChannels tokenAllows dbIsMember =
        true) :
      Step parseUuid relay (.register connId subId filters)
        (relay.apply (.registerScoped session.community connId subId filters
          (extractChannelIdFromFilters parseUuid filters)))
  | close {relay : Relay} {connId : ConnId} {subId : SubId} :
      Step parseUuid relay (.close connId subId) (relay.apply (.removeSubscription connId subId))
  | evict {relay : Relay} {community : CommunityId} {connId : ConnId} {channelId : Uuid} :
      Step parseUuid relay (.evict community connId channelId)
        (relay.apply (.removeChannelSubscriptionsScoped community connId channelId))
  | leave {relay : Relay} {connId : ConnId} {session : Session}
      (found : relay.sessions connId = some session) :
      Step parseUuid relay (.leave connId)
        (relay.setSession connId { session with listed := false })
  | sweep {relay : Relay} {connId : ConnId} :
      Step parseUuid relay (.sweep connId) (relay.apply (.removeConnection connId))
  | dispatch {relay : Relay} {community : CommunityId} {stored : StoredEvent} {published : Bool}
      {threaded : Option ThreadedChannelVisibility} :
      Step parseUuid relay (.dispatch community stored published threaded)
        (relay.dispatchPersistentEventInner community stored (eventKindU32 stored.event) published
          threaded).1
  | receive {relay : Relay} {channelEvent : ChannelEvent} :
      Step parseUuid relay (.receive channelEvent) (relay.fanOutPubsubEvent channelEvent).1
  | expire {relay : Relay} {community : CommunityId} {eventId : EventId} :
      Step parseUuid relay (.expire community eventId)
        (relay.invalidateLocalEvent community eventId)
  | access {relay : Relay} {next : Access} :
      Step parseUuid relay (.access next) { relay with access := next }

def Reachable (parseUuid : String → Option Uuid) (relay : Relay) : Prop :=
  ∃ access actions,
    Buzz.Library.Transition.Run (Step parseUuid) (Relay.initial access) actions relay

end Buzz.Delivery
