import Buzz.Delivery.Relay
import Buzz.Subscription.FanOut

/-! What a pod's connections and subscriptions have in common at any time, and who is sent an event
on each of the three paths. -/

namespace Buzz.Delivery

open Nostr Buzz.Subscription Buzz.Pubsub Buzz.Req List
open Buzz.Moderation (AuthState)
open Library.Transition

theorem topicChannel_topicForSubscription (channelId : Option Uuid) :
    Relay.topicChannel (topicForSubscription channelId) = channelId := by
  cases channelId <;> rfl

section wellFormed

variable {parseUuid : String → Option Uuid}

/-- Registered under its filters' channel, without a search. -/
structure Relay.WellFormed (parseUuid : String → Option Uuid) (relay : Relay) : Prop where
  indexed : relay.registry.Indexed
  registered : ∀ subscriber filters community channelId,
    relay.registry.lookupSub subscriber = some (filters, community, channelId) →
      (∀ filter ∈ filters, filter.search = none) ∧
        extractChannelIdFromFilters parseUuid filters = channelId ∧
        ∃ session pubkey, relay.sessions subscriber.1 = some session ∧
          session.community = community ∧ session.authState = .authenticated pubkey
  recorded : ∀ connId session pubkey, relay.sessions connId = some session →
    session.recorded = some pubkey → session.authState = .authenticated pubkey

theorem Relay.wellFormed_initial (access : Access) : (Relay.initial access).WellFormed parseUuid where
  indexed := SubscriptionRegistry.indexed_empty
  registered := by
    intro subscriber filters community channelId found
    simp [Relay.initial, SubscriptionRegistry.lookupSub, SubscriptionRegistry.empty] at found
  recorded := by
    intro connId session pubkey found
    cases found

variable {connId : ConnId} {session : Session} {relay : Relay}

theorem Relay.WellFormed.setSession (formed : relay.WellFormed parseUuid)
    (kept : ∀ old, relay.sessions connId = some old → old.community = session.community ∧
      ∀ pubkey, old.authState = .authenticated pubkey →
        session.authState = .authenticated pubkey)
    (key : ∀ pubkey, session.recorded = some pubkey → session.authState = .authenticated pubkey) :
    (relay.setSession connId session).WellFormed parseUuid where
  indexed := formed.indexed
  registered := by
    intro subscriber filters community channelId found
    obtain ⟨plain, named, old, pubkey, present, same, passed⟩ := formed.registered _ _ _ _ found
    refine ⟨plain, named, ?_⟩
    rw [Relay.sessions_setSession]
    by_cases this : subscriber.1 = connId
    · rw [this] at present
      have kept := kept old present
      exact ⟨session, pubkey, if_pos this, kept.1 ▸ same, kept.2 pubkey passed⟩
    · exact ⟨old, pubkey, (if_neg this).trans present, same, passed⟩
  recorded := by
    intro other found pubkey present recorded
    rw [Relay.sessions_setSession] at present
    split at present
    · rw [Option.some.injEq] at present
      subst present
      exact key pubkey recorded
    · exact formed.recorded other found pubkey present recorded

theorem Relay.WellFormed.remove (formed : relay.WellFormed parseUuid) {operation : Operation}
    (shrinks : ∀ subscriber entry,
      (relay.registry.apply operation).lookupSub subscriber = some entry →
        relay.registry.lookupSub subscriber = some entry) :
    (relay.apply operation).WellFormed parseUuid where
  indexed := SubscriptionRegistry.indexed_apply formed.indexed operation
  registered := fun _ _ _ _ found => formed.registered _ _ _ _ (shrinks _ _ found)
  recorded := formed.recorded

variable {registry : SubscriptionRegistry} {entry : SubEntry} {subscriber : Subscriber}

theorem lookupSub_of_removeSubscription {subId : SubId}
    (found : (registry.removeSubscription connId subId).1.lookupSub subscriber = some entry) :
    registry.lookupSub subscriber = some entry := by
  rw [SubscriptionRegistry.lookupSub_removeSubscription] at found
  split at found
  · cases found
  · exact found

theorem lookupSub_of_removeSubscriptions {subIds : List SubId}
    (found : (registry.removeSubscriptions connId subIds).1.lookupSub subscriber = some entry) :
    registry.lookupSub subscriber = some entry := by
  induction subIds generalizing registry with
  | nil => exact found
  | cons head tail ih => exact lookupSub_of_removeSubscription (ih found)

theorem lookupSub_of_removeConnection
    (found : (registry.removeConnection connId).1.lookupSub subscriber = some entry) :
    registry.lookupSub subscriber = some entry := by
  rw [SubscriptionRegistry.lookupSub_removeConnection] at found
  split at found
  · cases found
  · exact found

variable {pubkey : PublicKey} {filters : List Filter}

theorem Relay.WellFormed.register (formed : relay.WellFormed parseUuid)
    (present : relay.sessions connId = some session)
    (passed : session.authState = .authenticated pubkey) (subId : SubId)
    (plain : ∀ filter ∈ filters, filter.search = none) :
    (relay.apply (.registerScoped session.community connId subId filters
      (extractChannelIdFromFilters parseUuid filters))).WellFormed parseUuid where
  indexed := SubscriptionRegistry.indexed_apply formed.indexed _
  registered := by
    intro subscriber others community scope found
    have found : (relay.registry.registerScoped session.community connId subId filters
        (extractChannelIdFromFilters parseUuid filters)).1.lookupSub subscriber =
          some (others, community, scope) := found
    rw [SubscriptionRegistry.lookupSub_registerScoped] at found
    split at found
    next same =>
      cases found
      exact ⟨plain, rfl, session, pubkey, by rw [same]; exact present, rfl, passed⟩
    · exact formed.registered _ _ _ _ found
  recorded := formed.recorded

theorem Relay.WellFormed.of_same {next : Relay} (formed : relay.WellFormed parseUuid)
    (sessions : next.sessions = relay.sessions) (registry : next.registry = relay.registry) :
    next.WellFormed parseUuid where
  indexed := by
    rw [registry]
    exact formed.indexed
  registered := by
    rw [registry, sessions]
    exact formed.registered
  recorded := by
    rw [sessions]
    exact formed.recorded

theorem search_none_of_reqRegisters
    {accessibleChannels : List Uuid} {tokenAllows : Uuid → Bool} {dbIsMember : Uuid → Option Bool}
    (allowed : reqRegisters parseUuid pubkey filters accessibleChannels tokenAllows dbIsMember =
      true) : ∀ filter ∈ filters, filter.search = none := by
  have plain := (Bool.and_eq_true_iff.mp allowed).1
  intro filter member
  exact Option.isNone_iff_eq_none.mp (all_eq_true.mp plain filter member)

theorem wellFormed_step {next : Relay} {action : Action}
    (formed : relay.WellFormed parseUuid) (step : Step parseUuid relay action next) :
    next.WellFormed parseUuid := by
  cases step with
  | connect unused =>
    apply formed.setSession
    · intro old present
      cases unused.symm.trans present
    · intro pubkey recorded
      cases recorded
  | @turnAway _ session found pending | @authenticate _ session _ found pending =>
    apply formed.setSession
    · intro old present
      cases found.symm.trans present
      refine ⟨rfl, fun pubkey passed => ?_⟩
      cases pending.symm.trans passed
    · intro pubkey recorded
      cases pending.symm.trans (formed.recorded _ _ _ found recorded)
  | record found listed passed =>
    apply formed.setSession
    · intro old present
      cases found.symm.trans present
      exact ⟨rfl, fun _ before => before⟩
    · intro pubkey recorded
      cases recorded
      exact passed
  | register found passed narrowed answered allowed =>
    exact formed.register found passed _ (search_none_of_reqRegisters allowed)
  | close => exact formed.remove fun _ _ => lookupSub_of_removeSubscription
  | evict => exact formed.remove fun _ _ => lookupSub_of_removeSubscriptions
  | leave found =>
    apply formed.setSession
    · intro old present
      cases found.symm.trans present
      exact ⟨rfl, fun _ before => before⟩
    · intro pubkey recorded
      have passed := formed.recorded _ _ pubkey found recorded
      exact passed
  | sweep => exact formed.remove fun _ _ => lookupSub_of_removeConnection
  | @dispatch _ _ published _ => cases published <;> exact formed.of_same rfl rfl
  | @receive channelEvent =>
    unfold Relay.fanOutPubsubEvent
    dsimp only
    split
    · exact formed.of_same rfl rfl
    · exact formed
  | expire | access => exact formed.of_same rfl rfl

theorem wellFormed_reachable (reachable : Reachable parseUuid relay) :
    relay.WellFormed parseUuid := by
  obtain ⟨access, actions, run⟩ := reachable
  exact run.invariant (fun _ _ _ formed step => wellFormed_step formed step)
    (Relay.wellFormed_initial access)

end wellFormed

section gates

def kindAdmits (event : Event) (key : Option PublicKey) : Bool :=
  (!authorOnlyKinds.contains (eventKindU32 event) ||
      key.any (· = event.pubkey)) &&
    (!isSharedGatedKind (eventKindU32 event) || keptBySharedGate event key)

def Access.channelAdmits (self : Access) (communityId : CommunityId) (channelId : Option Uuid)
    (threaded : Option ThreadedChannelVisibility) (key : Option PublicKey) : Bool :=
  match channelId with
  | none => true
  | some channelId =>
    match self.visibilityRead communityId channelId threaded with
    | .error _ => false
    | .ok visibility =>
      decide (visibility ≠ "private") || self.keptByMembership communityId channelId key

def ownerAdmits (event : Event) (key : Option PublicKey) : Bool :=
  keptByOwnerGate (privateEventOwner event (eventKindU32 event)) key

variable {relay : Relay} {communityId : CommunityId} {stored : StoredEvent}
  {candidates : List Subscriber} {threaded : Option ThreadedChannelVisibility}
  {subscriber : Subscriber}

theorem mem_filter_if {T : Type} {condition : Bool} {kept : T → Bool} {list : List T} {item : T} :
    item ∈ (if condition then list.filter kept else list) ↔
      item ∈ list ∧ (!condition || kept item) := by
  cases condition <;> simp

theorem mem_filterFanoutByAccess :
    subscriber ∈ relay.filterFanoutByAccess communityId stored candidates threaded ↔
      subscriber ∈ candidates ∧ relay.communityForConn subscriber.1 = some communityId ∧
        kindAdmits stored.event (relay.pubkeyForConn subscriber.1) ∧
        relay.access.channelAdmits communityId stored.channelId threaded
          (relay.pubkeyForConn subscriber.1) := by
  unfold Relay.filterFanoutByAccess Access.channelAdmits kindAdmits
  cases stored.channelId with
  | none =>
    simp only [mem_filter_if, mem_filter, decide_eq_true_eq, Bool.and_eq_true,
      and_assoc, and_true]
  | some channelId =>
    dsimp only
    cases relay.access.visibilityRead communityId channelId threaded with
    | error _ => simp only [not_mem_nil, Bool.false_eq_true, and_false]
    | ok visibility =>
      by_cases isPrivate : visibility = "private"
      · simp only [isPrivate, ne_eq, not_true_eq_false, if_false, decide_false,
          Bool.false_or, mem_filter_if, mem_filter, decide_eq_true_eq,
          Bool.and_eq_true, and_assoc]
      · simp only [isPrivate, ne_eq, not_false_eq_true, if_true, decide_true, Bool.true_or,
          mem_filter_if, mem_filter, decide_eq_true_eq, Bool.and_eq_true,
          and_assoc, and_true]

end gates

section paths

inductive DeliveryPath
  | accepting (published : Bool)
  | localSubscribers
  | pubsub
  deriving DecidableEq

/-- Other pods get it under the topic of the accepting pod. -/
def Relay.deliveries (self : Relay) (communityId : CommunityId) (stored : StoredEvent)
    (threaded : Option ThreadedChannelVisibility) : DeliveryPath → List Subscriber
  | .accepting published =>
    (self.dispatchPersistentEventInner communityId stored (eventKindU32 stored.event) published
      threaded).2
  | .localSubscribers => self.fanOutEventToLocalSubscribers communityId stored
  | .pubsub =>
    (self.fanOutPubsubEvent
      ⟨communityId, topicForSubscription stored.channelId, stored.event⟩).2

def DeliveryPath.threaded (given : Option ThreadedChannelVisibility) :
    DeliveryPath → Option ThreadedChannelVisibility
  | .accepting _ => given
  | .localSubscribers | .pubsub => none

def DeliveryPath.ownerAdmits (event : Event) (key : Option PublicKey) : DeliveryPath → Bool
  | .accepting _ => Delivery.ownerAdmits event key
  | .localSubscribers | .pubsub => true

def Relay.carries (self : Relay) (communityId : CommunityId) (stored : StoredEvent) :
    DeliveryPath → Prop
  | .accepting _ | .localSubscribers => True
  | .pubsub => (communityId, stored.event.id) ∉ self.localEventIds

variable {relay : Relay} {communityId : CommunityId} {stored : StoredEvent}
  {threaded : Option ThreadedChannelVisibility} {path : DeliveryPath} {subscriber : Subscriber}

theorem mem_deliveries_accepting {published : Bool} :
    subscriber ∈ relay.deliveries communityId stored threaded (.accepting published) ↔
      subscriber ∈ relay.filterFanoutByAccess communityId stored
          (relay.registry.fanOutScoped communityId stored) threaded ∧
        ownerAdmits stored.event (relay.pubkeyForConn subscriber.1) := by
  cases published with
  | true | false => exact mem_filter

theorem mem_deliveries {parseUuid : String → Option Uuid} (formed : relay.WellFormed parseUuid) :
    subscriber ∈ relay.deliveries communityId stored threaded path ↔
      relay.carries communityId stored path ∧
        relay.registry.isMatch communityId stored subscriber ∧
        relay.communityForConn subscriber.1 = some communityId ∧
        kindAdmits stored.event (relay.pubkeyForConn subscriber.1) ∧
        relay.access.channelAdmits communityId stored.channelId (path.threaded threaded)
          (relay.pubkeyForConn subscriber.1) ∧
        path.ownerAdmits stored.event (relay.pubkeyForConn subscriber.1) := by
  have found := SubscriptionRegistry.mem_fanOutScoped formed.indexed communityId stored subscriber
  cases path with
  | accepting published =>
    simp only [mem_deliveries_accepting, mem_filterFanoutByAccess, found, Relay.carries,
      DeliveryPath.threaded, DeliveryPath.ownerAdmits, true_and, and_assoc]
  | localSubscribers =>
    simp only [Relay.deliveries, Relay.fanOutEventToLocalSubscribers, mem_filterFanoutByAccess,
      found, Relay.carries, DeliveryPath.threaded, DeliveryPath.ownerAdmits, true_and, and_true]
  | pubsub =>
    simp only [Relay.deliveries, Relay.fanOutPubsubEvent, topicChannel_topicForSubscription]
    by_cases echo : (communityId, stored.event.id) ∈ relay.localEventIds
    · simp only [echo, if_true, not_mem_nil, Relay.carries, not_true_eq_false, false_and]
    · simp only [echo, if_false, mem_filterFanoutByAccess, found, Relay.carries,
        not_false_eq_true, DeliveryPath.threaded, DeliveryPath.ownerAdmits, true_and, and_true]

end paths

end Buzz.Delivery
