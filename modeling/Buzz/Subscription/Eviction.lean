import Buzz.Subscription.FanOut
import Mathlib.Data.List.Dedup

/-! Closing a channel: its subscribers are read off the indexes, their subscriptions are removed
from the table. -/

namespace Buzz.Subscription

open Nostr Library.Accumulate Library.PostingIndex List

def ScopedTo (communityId : CommunityId) (channelId : Uuid) (entry : SubEntry) : Prop :=
  entry.2.1 = communityId ∧ entry.2.2 = some channelId

instance (communityId : CommunityId) (channelId : Uuid) (entry : SubEntry) :
    Decidable (ScopedTo communityId channelId entry) :=
  inferInstanceAs (Decidable (_ ∧ _))

def Slot.scope : Slot → Option (CommunityId × Uuid)
  | .channelKind communityId key => some (communityId, key.channelId)
  | .channelWildcard communityId channelId => some (communityId, channelId)
  | .globalKind .. | .globalPKind _ | .globalWildcard _ => none

/-- Each has an empty list of kinds. -/
def MatchesNoKind (filters : List Filter) : Prop := ∀ filter ∈ filters, filter.kinds = some []

namespace SubscriptionRegistry

def channelSubscriberConnsScoped (self : SubscriptionRegistry) (communityId : CommunityId)
    (channelId : Uuid) : List ConnId :=
  let ofKinds := self.channelKindIndex.entries.flatMap fun entry =>
    if entry.1.1 = communityId ∧ entry.1.2.channelId = channelId then entry.2.map Prod.fst else []
  let ofWildcard := (postings self.channelWildcardIndex (communityId, channelId)).map Prod.fst
  (ofKinds ++ ofWildcard).dedup

/-- `remove_channel_subscriptions_scoped` for one connection after the other. -/
def evict (self : SubscriptionRegistry) (communityId : CommunityId) (channelId : Uuid)
    (conns : List ConnId) : SubscriptionRegistry :=
  conns.foldl (fun registry connId =>
    (registry.removeChannelSubscriptionsScoped communityId connId channelId).1) self

def isScoped (self : SubscriptionRegistry) (communityId : CommunityId) (channelId : Uuid)
    (subscriber : Subscriber) : Bool :=
  (self.lookupSub subscriber).any fun entry => ScopedTo communityId channelId entry

variable {self : SubscriptionRegistry} {communityId : CommunityId} {channelId : Uuid}

theorem isScoped_iff {subscriber : Subscriber} :
    self.isScoped communityId channelId subscriber ↔
      ∃ entry, self.lookupSub subscriber = some entry ∧ ScopedTo communityId channelId entry := by
  rw [isScoped, Option.any_eq_true]
  simp only [decide_eq_true_eq]

theorem lookupSub_removeSubscriptions (self : SubscriptionRegistry) (connId : ConnId)
    (subIds : List SubId) (subscriber : Subscriber) :
    (self.removeSubscriptions connId subIds).1.lookupSub subscriber =
      if subscriber.1 = connId ∧ subscriber.2 ∈ subIds then none
      else self.lookupSub subscriber := by
  induction subIds generalizing self with
  | nil => simp [removeSubscriptions]
  | cons head rest ih =>
    change ((self.removeSubscription connId head).1.removeSubscriptions connId rest).1.lookupSub
      subscriber = _
    rw [ih, lookupSub_removeSubscription]
    obtain ⟨conn, sub⟩ := subscriber
    by_cases here : conn = connId
    · by_cases first : sub = head
      · simp [here, first]
      · simp [here, first]
    · simp [here]

theorem lookupSub_removeChannel (self : SubscriptionRegistry) (connId : ConnId)
    (subscriber : Subscriber) :
    (self.removeChannelSubscriptionsScoped communityId connId channelId).1.lookupSub subscriber =
      if subscriber.1 = connId ∧ self.isScoped communityId channelId subscriber = true then none
      else self.lookupSub subscriber := by
  rw [removeChannelSubscriptionsScoped, lookupSub_removeSubscriptions]
  obtain ⟨conn, sub⟩ := subscriber
  by_cases here : conn = connId
  · subst here
    have collected : (sub ∈ (self.connSubs conn).entries.filterMap fun entry =>
        if entry.2.2.1 = communityId ∧ entry.2.2.2 = some channelId then some entry.1 else none) ↔
        self.isScoped communityId channelId (conn, sub) := by
      rw [isScoped_iff, lookupSub_eq_connSubs, mem_filterMap]
      constructor
      · rintro ⟨⟨id, entry⟩, member, kept⟩
        split at kept
        next belongs =>
          cases kept
          exact ⟨entry, AList.mem_lookup_iff.mpr member, belongs⟩
        · cases kept
      · rintro ⟨entry, found, belongs⟩
        exact ⟨⟨sub, entry⟩, AList.mem_lookup_iff.mp found, if_pos belongs⟩
    simp only [collected]
  · rw [if_neg (fun both => here both.1), if_neg (fun both => here both.1)]

theorem lookupSub_evict (self : SubscriptionRegistry) (conns : List ConnId)
    (communityId : CommunityId) (channelId : Uuid) (subscriber : Subscriber) :
    (self.evict communityId channelId conns).lookupSub subscriber =
      if subscriber.1 ∈ conns ∧ self.isScoped communityId channelId subscriber = true then none
      else self.lookupSub subscriber := by
  unfold evict
  induction conns generalizing self with
  | nil => simp
  | cons head rest ih =>
    rw [foldl_cons, ih, isScoped, lookupSub_removeChannel]
    by_cases scope : self.isScoped communityId channelId subscriber
    · by_cases first : subscriber.1 = head
      · simp [scope, first]
      · rw [isScoped] at scope
        simp [scope, isScoped, first]
    · rw [isScoped] at scope
      simp [scope, isScoped]

theorem foldl_pushNew_nil {out items : List Kind} :
    items.foldl pushNew out = [] ↔ out = [] ∧ items = [] := by
  simp only [eq_nil_iff_forall_not_mem, mem_foldl_pushNew, not_or, forall_and]

variable {filters : List Filter}

theorem extractKindsFromFilters_nil :
    extractKindsFromFilters filters = some [] ↔ MatchesNoKind filters := by
  have from_any (pushAll : List Kind → Filter → Option (List Kind)) (isPush : ∀ kinds filter,
      pushAll kinds filter = filter.kinds.map (foldl pushNew kinds)) (kinds : List Kind) :
      filters.foldlM pushAll kinds = some [] ↔ kinds = [] ∧ MatchesNoKind filters := by
    unfold MatchesNoKind
    induction filters generalizing kinds with
    | nil => simp
    | cons head rest ih =>
      rw [foldlM_cons, forall_mem_cons, isPush]
      cases listed : head.kinds with
      | none => simp
      | some own =>
        simp only [Option.map_some, Option.bind_eq_bind, Option.bind_some, ih, foldl_pushNew_nil,
          Option.some.injEq, and_assoc]
  refine (from_any _ ?_ []).trans (and_iff_right rfl)
  intro kinds filter
  cases filter.kinds with
  | none | some own => rfl

theorem slots_nil_iff :
    slots (filters, communityId, some channelId) = [] ↔ MatchesNoKind filters := by
  rw [← extractKindsFromFilters_nil]
  cases found : extractKindsFromFilters filters with
  | none | some kinds => simp [slots, found]

theorem mem_slots_scoped {slot : Slot}
    (wanted : slot ∈ slots (filters, communityId, some channelId)) :
    slot = .channelWildcard communityId channelId ∨
      ∃ kind, slot = .channelKind communityId ⟨channelId, kind⟩ := by
  cases found : extractKindsFromFilters filters with
  | none =>
    simp only [slots, found, mem_singleton] at wanted
    exact .inl wanted
  | some kinds =>
    simp only [slots, found, mem_map] at wanted
    obtain ⟨kind, -, rfl⟩ := wanted
    exact .inr ⟨kind, rfl⟩

theorem scope_of_mem_slots {entry : SubEntry} {slot : Slot} (wanted : slot ∈ slots entry) :
    slot.scope = entry.2.2.map fun channelId => (entry.2.1, channelId) := by
  obtain ⟨filters, communityId, scope⟩ := entry
  cases scope with
  | some channelId =>
    rcases mem_slots_scoped wanted with rfl | ⟨kind, rfl⟩
    · rfl
    · rfl
  | none =>
    unfold slots at wanted
    simp only at wanted
    split at wanted
    · obtain ⟨key, -, rfl⟩ := mem_map.mp wanted
      rfl
    · split at wanted
      · rw [mem_singleton.mp wanted]
        rfl
      · obtain ⟨kind, -, rfl⟩ := mem_map.mp wanted
        rfl

variable {connId : ConnId}

theorem mem_channelConns :
    connId ∈ self.channelSubscriberConnsScoped communityId channelId ↔
      ∃ subId, ∃ slot : Slot, slot.scope = some (communityId, channelId) ∧
        (connId, subId) ∈ self.postingsAt slot := by
  rw [channelSubscriberConnsScoped, mem_dedup, mem_append, mem_flatMap]
  constructor
  · rintro (⟨⟨⟨owner, key⟩, entries⟩, stored, listed⟩ | listed)
    · split at listed
      next same =>
        obtain ⟨subscriber, member, rfl⟩ := mem_map.mp listed
        refine ⟨subscriber.2, .channelKind owner key, ?_, ?_⟩
        · exact congrArg some (Prod.ext same.1 same.2)
        · change _ ∈ postings self.channelKindIndex (owner, key)
          rw [postings, AList.mem_lookup_iff.mpr stored]
          exact member
      · cases listed
    · obtain ⟨subscriber, member, rfl⟩ := mem_map.mp listed
      exact ⟨subscriber.2, .channelWildcard communityId channelId, rfl, member⟩
  · rintro ⟨subId, slot, scope, member⟩
    cases slot with
    | channelWildcard owner id =>
      cases scope
      exact .inr (mem_map.mpr ⟨_, member, rfl⟩)
    | channelKind owner key =>
      cases scope
      change _ ∈ postings self.channelKindIndex (communityId, key) at member
      rw [postings] at member
      cases found : self.channelKindIndex.lookup (communityId, key) with
      | none =>
        rw [found] at member
        cases member
      | some entries =>
        rw [found] at member
        refine .inl ⟨⟨_, entries⟩, AList.mem_lookup_iff.mp found, ?_⟩
        rw [if_pos ⟨rfl, rfl⟩]
        exact mem_map.mpr ⟨_, member, rfl⟩
    | globalKind | globalPKind | globalWildcard => cases scope

theorem Indexed.mem_channelConns (indexed : self.Indexed) :
    connId ∈ self.channelSubscriberConnsScoped communityId channelId ↔
      ∃ subId filters, self.lookupSub (connId, subId) =
        some (filters, communityId, some channelId) ∧ ¬ MatchesNoKind filters := by
  rw [SubscriptionRegistry.mem_channelConns]
  constructor
  · rintro ⟨subId, slot, scope, listed⟩
    obtain ⟨⟨filters, owner, own⟩, found, wanted⟩ := (indexed slot _).mp listed
    rw [scope_of_mem_slots wanted] at scope
    obtain ⟨id, rfl, same⟩ := Option.map_eq_some_iff.mp scope
    cases same
    refine ⟨subId, filters, found, ?_⟩
    intro silent
    rw [slots_nil_iff.mpr silent] at wanted
    cases wanted
  · rintro ⟨subId, filters, found, loud⟩
    have filled : slots (filters, communityId, some channelId) ≠ [] :=
      fun nothing => loud (slots_nil_iff.mp nothing)
    rcases exists_cons_of_ne_nil filled with ⟨slot, rest, shape⟩
    have wanted : slot ∈ slots (filters, communityId, some channelId) := by
      rw [shape]
      exact mem_cons_self
    exact ⟨subId, slot, scope_of_mem_slots wanted, (indexed slot _).mpr ⟨_, found, wanted⟩⟩

end SubscriptionRegistry

/-- And all the others stay. -/
structure ClosesChannel (before after : SubscriptionRegistry) (communityId : CommunityId)
    (channelId : Uuid) : Prop where
  gone : ∀ subscriber, after.isScoped communityId channelId subscriber = false
  others : ∀ subscriber, before.isScoped communityId channelId subscriber = false →
    after.lookupSub subscriber = before.lookupSub subscriber

/-- Exactly when every connection there has a subscription that some kind matches. -/
theorem evict_closesChannel_iff (operations : List Operation) (communityId : CommunityId)
    (channelId : Uuid) (conns : List ConnId)
    (listed : conns.Perm ((SubscriptionRegistry.run operations).channelSubscriberConnsScoped
      communityId channelId)) :
    ClosesChannel (.run operations) ((SubscriptionRegistry.run operations).evict communityId
        channelId conns) communityId channelId ↔
      ∀ connId subId filters, (SubscriptionRegistry.run operations).lookupSub (connId, subId) =
          some (filters, communityId, some channelId) →
        ∃ subId filters, (SubscriptionRegistry.run operations).lookupSub (connId, subId) =
          some (filters, communityId, some channelId) ∧ ¬ MatchesNoKind filters := by
  have known (connId : ConnId) := (listed.mem_iff (a := connId)).trans
    (SubscriptionRegistry.indexed_run operations).mem_channelConns
  generalize SubscriptionRegistry.run operations = registry at listed known ⊢
  have after := registry.lookupSub_evict conns communityId channelId
  constructor
  · intro closes connId subId filters found
    by_contra unknown
    have missed : connId ∉ conns := fun member => unknown ((known connId).mp member)
    have kept := after (connId, subId)
    rw [if_neg (fun both => missed both.1), found] at kept
    have left := SubscriptionRegistry.isScoped_iff.mpr ⟨_, kept, rfl, rfl⟩
    rw [closes.gone] at left
    cases left
  · intro loud
    constructor
    · intro subscriber
      apply eq_false_of_ne_true
      intro left
      obtain ⟨⟨filters, owner, scope⟩, found, rfl, rfl⟩ := SubscriptionRegistry.isScoped_iff.mp left
      rw [after] at found
      split at found
      · cases found
      next kept =>
        have member := (known _).mpr (loud subscriber.1 subscriber.2 filters found)
        exact kept ⟨member, SubscriptionRegistry.isScoped_iff.mpr ⟨_, found, rfl, rfl⟩⟩
    · intro subscriber other
      rw [after, if_neg]
      rintro ⟨-, scope⟩
      rw [other] at scope
      cases scope

def closedChannel : Uuid := .fill 7

def closingCommunity : CommunityId := ⟨closedChannel⟩

def kindsFilter (kinds : List Kind) : Filter := ⟨none, none, some kinds, none, none, none, none, ∅⟩

def subscribing (kinds : List Kind) : List Operation :=
  [.registerScoped closingCommunity closedChannel "live" [kindsFilter kinds] (some closedChannel)]

theorem lookupSub_subscribing (kinds : List Kind) (subscriber : Subscriber) :
    (SubscriptionRegistry.run (subscribing kinds)).lookupSub subscriber =
      if subscriber = (closedChannel, "live") then
        some ([kindsFilter kinds], closingCommunity, some closedChannel)
      else none :=
  SubscriptionRegistry.lookupSub_registerScoped .empty closingCommunity closedChannel "live"
    [kindsFilter kinds] (some closedChannel) subscriber

theorem evict_closesChannel_messages :
    ClosesChannel (.run (subscribing [9])) ((SubscriptionRegistry.run (subscribing [9])).evict
      closingCommunity closedChannel ((SubscriptionRegistry.run (subscribing [9])).channelSubscriberConnsScoped
        closingCommunity closedChannel)) closingCommunity closedChannel := by
  apply (evict_closesChannel_iff (subscribing [9]) closingCommunity closedChannel _ (.refl _)).mpr
  intro connId subId filters found
  refine ⟨subId, filters, found, ?_⟩
  rw [lookupSub_subscribing] at found
  split at found
  · cases found
    intro silent
    cases silent _ mem_cons_self
  · cases found

/-- A subscription to no kinds stays in the table when its channel is closed. -/
theorem not_closesChannel : ¬ ∀ (operations : List Operation) (communityId : CommunityId)
    (channelId : Uuid) (conns : List ConnId),
    conns.Perm ((SubscriptionRegistry.run operations).channelSubscriberConnsScoped communityId
      channelId) →
    ClosesChannel (.run operations) ((SubscriptionRegistry.run operations).evict communityId
      channelId conns) communityId channelId := by
  intro always
  have closes := always (subscribing []) closingCommunity closedChannel [] (by decide)
  have found := lookupSub_subscribing [] (closedChannel, "live")
  rw [if_pos rfl] at found
  have left := SubscriptionRegistry.isScoped_iff.mpr ⟨_, found, rfl, rfl⟩
  have gone := closes.gone (closedChannel, "live")
  rw [SubscriptionRegistry.evict, foldl_nil, left] at gone
  cases gone

end Buzz.Subscription
