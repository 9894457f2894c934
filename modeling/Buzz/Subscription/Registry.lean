import Buzz.Library.Accumulate
import Buzz.Library.PostingIndex
import Buzz.Nostr.Event

/-! The relay's subscription registry: five indexes next to the authoritative table. -/

namespace Buzz.Subscription

open Nostr Library.Accumulate Library.PostingIndex

abbrev ConnId := Uuid
abbrev SubId := String
abbrev SubEntry := List Filter × CommunityId × Option Uuid
abbrev Subscriber := ConnId × SubId

structure IndexKey where
  channelId : Uuid
  kind : Kind
  deriving DecidableEq

structure GlobalPKindIndexKey where
  communityId : CommunityId
  kind : Kind
  p : String
  deriving DecidableEq

structure RemovedSubscription where
  communityId : CommunityId
  channelId : Option Uuid
  deriving DecidableEq

structure SubscriptionRegistry where
  subs : AList fun _ : ConnId => AList fun _ : SubId => SubEntry
  channelKindIndex : Index (CommunityId × IndexKey) Subscriber
  channelWildcardIndex : Index (CommunityId × Uuid) Subscriber
  globalKindIndex : Index (CommunityId × Kind) Subscriber
  globalPKindIndex : Index GlobalPKindIndexKey Subscriber
  globalWildcardIndex : Index CommunityId Subscriber

def pTag : SingleLetterTag := ⟨'p', by decide⟩

def filterPKindKeys (communityId : CommunityId) (kinds : List Kind) (pValues : List String) :
    List GlobalPKindIndexKey :=
  kinds.flatMap fun kind => pValues.map fun p => ⟨communityId, kind, p⟩

def extractGlobalPKindIndexKeys (communityId : CommunityId) (filters : List Filter) :
    Option (List GlobalPKindIndexKey) :=
  filters.foldlM (fun keys filter =>
    match filter.kinds with
    | none => none
    | some kinds =>
      if kinds.isEmpty then some keys
      else match filter.genericTags.lookup pTag with
        | none => none
        | some pValues =>
          if pValues.isEmpty then none
          else some ((filterPKindKeys communityId kinds pValues).foldl pushNew keys)) []

def pushPTagValue (values : List String) (tag : Tag) : List String :=
  if tag.kind ≠ "p" then values
  else match tag.content with
    | some value => pushNew values value
    | none => values

def eventPTagValues (event : StoredEvent) : List String :=
  event.event.tags.foldl pushPTagValue []

def extractKindsFromFilters (filters : List Filter) : Option (List Kind) :=
  filters.foldlM (fun kinds filter =>
    match filter.kinds with
    | some filterKinds => some (filterKinds.foldl pushNew kinds)
    | none => none) []

namespace SubscriptionRegistry

def empty : SubscriptionRegistry := ⟨∅, ∅, ∅, ∅, ∅, ∅⟩

def removeFromIndex (self : SubscriptionRegistry) (connId : ConnId) (subId : SubId)
    (filters : List Filter) (communityId : CommunityId) (channelId : Option Uuid) :
    SubscriptionRegistry :=
  match channelId with
  | some chId =>
    match extractKindsFromFilters filters with
    | none =>
      { self with channelWildcardIndex :=
          removeEntry (connId, subId) self.channelWildcardIndex (communityId, chId) }
    | some [] => self
    | some kinds =>
      let keys := kinds.map fun kind => (communityId, IndexKey.mk chId kind)
      { self with channelKindIndex :=
          removeEntries self.channelKindIndex keys (connId, subId) }
  | none =>
    match extractGlobalPKindIndexKeys communityId filters with
    | some keys =>
      { self with globalPKindIndex := removeEntries self.globalPKindIndex keys (connId, subId) }
    | none =>
      match extractKindsFromFilters filters with
      | none =>
        { self with globalWildcardIndex :=
            removeEntry (connId, subId) self.globalWildcardIndex communityId }
      | some [] => self
      | some kinds =>
        let keys := kinds.map fun kind => (communityId, kind)
        { self with globalKindIndex :=
            removeEntries self.globalKindIndex keys (connId, subId) }

def removeSubscription (self : SubscriptionRegistry) (connId : ConnId) (subId : SubId) :
    SubscriptionRegistry × Option RemovedSubscription :=
  match self.subs.lookup connId with
  | none => (self, none)
  | some connSubs =>
    match connSubs.lookup subId with
    | none => (self, none)
    | some (filters, communityId, channelId) =>
      (removeFromIndex { self with subs := self.subs.insert connId (connSubs.erase subId) }
        connId subId filters communityId channelId, some ⟨communityId, channelId⟩)

/-- The index that the scope and the filters choose. -/
def addToIndex (self : SubscriptionRegistry) (connId : ConnId) (subId : SubId)
    (filters : List Filter) (communityId : CommunityId) (channelId : Option Uuid) :
    SubscriptionRegistry :=
  match channelId with
  | some chId =>
    match extractKindsFromFilters filters with
    | none =>
      { self with channelWildcardIndex :=
          insertEntry (connId, subId) self.channelWildcardIndex (communityId, chId) }
    | some [] => self
    | some kinds =>
      let keys := kinds.map fun kind => (communityId, IndexKey.mk chId kind)
      { self with channelKindIndex :=
          insertEntries self.channelKindIndex keys (connId, subId) }
  | none =>
    match extractGlobalPKindIndexKeys communityId filters with
    | some keys =>
      { self with globalPKindIndex := insertEntries self.globalPKindIndex keys (connId, subId) }
    | none =>
      match extractKindsFromFilters filters with
      | none =>
        { self with globalWildcardIndex :=
            insertEntry (connId, subId) self.globalWildcardIndex communityId }
      | some [] => self
      | some kinds =>
        let keys := kinds.map fun kind => (communityId, kind)
        { self with globalKindIndex :=
            insertEntries self.globalKindIndex keys (connId, subId) }

def connSubs (self : SubscriptionRegistry) (connId : ConnId) : AList fun _ : SubId => SubEntry :=
  (self.subs.lookup connId).getD ∅

def registerScoped (self : SubscriptionRegistry) (communityId : CommunityId) (connId : ConnId)
    (subId : SubId) (filters : List Filter) (channelId : Option Uuid) :
    SubscriptionRegistry × Option RemovedSubscription :=
  let (cleared, removed) := self.removeSubscription connId subId
  let stored := { cleared with
    subs := cleared.subs.insert connId
      ((cleared.connSubs connId).insert subId (filters, communityId, channelId)) }
  (stored.addToIndex connId subId filters communityId channelId, removed)

def removeConnection (self : SubscriptionRegistry) (connId : ConnId) :
    SubscriptionRegistry × List RemovedSubscription :=
  match self.subs.lookup connId with
  | none => (self, [])
  | some connSubs =>
    (connSubs.entries.foldl
      (fun registry entry =>
        registry.removeFromIndex connId entry.1 entry.2.1 entry.2.2.1 entry.2.2.2)
      { self with subs := self.subs.erase connId },
    connSubs.entries.map fun entry => ⟨entry.2.2.1, entry.2.2.2⟩)

/-- The final loop of `remove_channel_subscriptions_scoped` over the collected ids. -/
def removeSubscriptions (self : SubscriptionRegistry) (connId : ConnId) :
    List SubId → SubscriptionRegistry × List (SubId × RemovedSubscription)
  | [] => (self, [])
  | subId :: rest =>
    let (registry, removed) := self.removeSubscription connId subId
    let (final, found) := registry.removeSubscriptions connId rest
    (final, match removed with
      | some scope => (subId, scope) :: found
      | none => found)

def removeChannelSubscriptionsScoped (self : SubscriptionRegistry) (communityId : CommunityId)
    (connId : ConnId) (channelId : Uuid) :
    SubscriptionRegistry × List (SubId × RemovedSubscription) :=
  let subIds := (self.connSubs connId).entries.filterMap fun entry =>
    if entry.2.2.1 = communityId ∧ entry.2.2.2 = some channelId then some entry.1 else none
  self.removeSubscriptions connId subIds

def lookupSub (self : SubscriptionRegistry) (subscriber : Subscriber) : Option SubEntry :=
  (self.subs.lookup subscriber.1).bind (·.lookup subscriber.2)

/-- The scope is checked again because the candidate list may be stale. -/
def isMatch (self : SubscriptionRegistry) (communityId : CommunityId) (event : StoredEvent)
    (subscriber : Subscriber) : Bool :=
  match self.lookupSub subscriber with
  | none => false
  | some (filters, subCommunityId, subChannelId) =>
    subCommunityId = communityId && subChannelId = event.channelId &&
      filtersMatch filters event

/-- The results pushed so far; the `seen` set of the source holds exactly these. -/
def pushMatch (self : SubscriptionRegistry) (communityId : CommunityId) (event : StoredEvent)
    (results : List Subscriber) (subscriber : Subscriber) : List Subscriber :=
  if self.isMatch communityId event subscriber then pushNew results subscriber else results

def fanOutScoped (self : SubscriptionRegistry) (communityId : CommunityId)
    (event : StoredEvent) : List Subscriber :=
  let push := self.pushMatch communityId event
  match event.channelId with
  | some channelId =>
    let kindMatches := (postings self.channelKindIndex
      (communityId, ⟨channelId, event.event.kind⟩)).foldl push []
    (postings self.channelWildcardIndex (communityId, channelId)).foldl push kindMatches
  | none =>
    let pMatches := (eventPTagValues event).foldl (fun results p =>
      (postings self.globalPKindIndex ⟨communityId, event.event.kind, p⟩).foldl push results) []
    let kindMatches := (postings self.globalKindIndex
      (communityId, event.event.kind)).foldl push pMatches
    (postings self.globalWildcardIndex communityId).foldl push kindMatches

end SubscriptionRegistry

inductive Operation
  | registerScoped (communityId : CommunityId) (connId : ConnId) (subId : SubId)
      (filters : List Filter) (channelId : Option Uuid)
  | removeSubscription (connId : ConnId) (subId : SubId)
  | removeConnection (connId : ConnId)
  | removeChannelSubscriptionsScoped (communityId : CommunityId) (connId : ConnId)
      (channelId : Uuid)

def SubscriptionRegistry.apply (self : SubscriptionRegistry) : Operation → SubscriptionRegistry
  | .registerScoped communityId connId subId filters channelId =>
    (self.registerScoped communityId connId subId filters channelId).1
  | .removeSubscription connId subId => (self.removeSubscription connId subId).1
  | .removeConnection connId => (self.removeConnection connId).1
  | .removeChannelSubscriptionsScoped communityId connId channelId =>
    (self.removeChannelSubscriptionsScoped communityId connId channelId).1

def SubscriptionRegistry.run (operations : List Operation) : SubscriptionRegistry :=
  operations.foldl SubscriptionRegistry.apply .empty

end Buzz.Subscription
