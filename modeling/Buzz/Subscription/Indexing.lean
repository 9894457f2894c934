import Buzz.Subscription.Registry

/-! What the five indexes hold: a subscriber is listed under a slot exactly when its
authoritative entry asks for that slot. -/

namespace Buzz.Subscription

open Nostr Library.PostingIndex List Option

inductive Slot
  | channelKind (communityId : CommunityId) (key : IndexKey)
  | channelWildcard (communityId : CommunityId) (channelId : Uuid)
  | globalKind (communityId : CommunityId) (kind : Kind)
  | globalPKind (key : GlobalPKindIndexKey)
  | globalWildcard (communityId : CommunityId)

def slots : SubEntry → List Slot
  | (filters, communityId, some chId) =>
    match extractKindsFromFilters filters with
    | none => [.channelWildcard communityId chId]
    | some kinds => kinds.map fun kind => .channelKind communityId ⟨chId, kind⟩
  | (filters, communityId, none) =>
    match extractGlobalPKindIndexKeys communityId filters with
    | some keys => keys.map .globalPKind
    | none =>
      match extractKindsFromFilters filters with
      | none => [.globalWildcard communityId]
      | some kinds => kinds.map fun kind => .globalKind communityId kind

namespace SubscriptionRegistry

def postingsAt (self : SubscriptionRegistry) : Slot → List Subscriber
  | .channelKind communityId key => postings self.channelKindIndex (communityId, key)
  | .channelWildcard communityId channelId =>
    postings self.channelWildcardIndex (communityId, channelId)
  | .globalKind communityId kind => postings self.globalKindIndex (communityId, kind)
  | .globalPKind key => postings self.globalPKindIndex key
  | .globalWildcard communityId => postings self.globalWildcardIndex communityId

theorem mem_postingsAt_addToIndex (self : SubscriptionRegistry) (connId : ConnId) (subId : SubId)
    (filters : List Filter) (communityId : CommunityId) (channelId : Option Uuid)
    (slot : Slot) (subscriber : Subscriber) :
    subscriber ∈ (self.addToIndex connId subId filters communityId channelId).postingsAt slot ↔
      subscriber ∈ self.postingsAt slot ∨
        slot ∈ slots (filters, communityId, channelId) ∧ subscriber = (connId, subId) := by
  cases channelId with
  | some chId =>
    cases kindsOf : extractKindsFromFilters filters with
    | none =>
      cases slot <;> simp [addToIndex, slots, kindsOf, postingsAt, mem_postings_insertEntry]
    | some kinds =>
      cases kinds <;> cases slot <;>
        simp [addToIndex, slots, kindsOf, postingsAt, mem_postings_insertEntries]
  | none =>
    cases keysOf : extractGlobalPKindIndexKeys communityId filters with
    | some keys =>
      cases slot <;> simp [addToIndex, slots, keysOf, postingsAt, mem_postings_insertEntries]
    | none =>
      cases kindsOf : extractKindsFromFilters filters with
      | none =>
        cases slot <;>
          simp [addToIndex, slots, keysOf, kindsOf, postingsAt, mem_postings_insertEntry]
      | some kinds =>
        cases kinds <;> cases slot <;>
          simp [addToIndex, slots, keysOf, kindsOf, postingsAt, mem_postings_insertEntries]
    
theorem mem_postingsAt_removeFromIndex (self : SubscriptionRegistry) (connId : ConnId) (subId : SubId)
    (filters : List Filter) (communityId : CommunityId) (channelId : Option Uuid)
    (slot : Slot) (subscriber : Subscriber) :
    subscriber ∈ (self.removeFromIndex connId subId filters communityId channelId).postingsAt
        slot ↔
      subscriber ∈ self.postingsAt slot ∧
        ¬ (slot ∈ slots (filters, communityId, channelId) ∧ subscriber = (connId, subId)) := by
  cases channelId with
  | some chId =>
    cases kindsOf : extractKindsFromFilters filters with
    | none =>
      cases slot <;> simp [removeFromIndex, slots, kindsOf, postingsAt, mem_postings_removeEntry]
    | some kinds =>
      cases kinds <;> cases slot <;>
        simp [removeFromIndex, slots, kindsOf, postingsAt, mem_postings_removeEntries]
  | none =>
    cases keysOf : extractGlobalPKindIndexKeys communityId filters with
    | some keys =>
      cases slot <;> simp [removeFromIndex, slots, keysOf, postingsAt, mem_postings_removeEntries]
    | none =>
      cases kindsOf : extractKindsFromFilters filters with
      | none =>
        cases slot <;>
          simp [removeFromIndex, slots, keysOf, kindsOf, postingsAt, mem_postings_removeEntry]
      | some kinds =>
        cases kinds <;> cases slot <;>
          simp [removeFromIndex, slots, keysOf, kindsOf, postingsAt, mem_postings_removeEntries]
    
theorem addToIndex_subs (self : SubscriptionRegistry) (connId : ConnId) (subId : SubId)
    (filters : List Filter) (communityId : CommunityId) (channelId : Option Uuid) :
    (self.addToIndex connId subId filters communityId channelId).subs = self.subs := by
  unfold addToIndex
  repeat' split
  all_goals rfl

theorem removeFromIndex_subs (self : SubscriptionRegistry) (connId : ConnId) (subId : SubId)
    (filters : List Filter) (communityId : CommunityId) (channelId : Option Uuid) :
    (self.removeFromIndex connId subId filters communityId channelId).subs = self.subs := by
  unfold removeFromIndex
  repeat' split
  all_goals rfl

theorem lookupSub_of_subs {left right : SubscriptionRegistry} (same : left.subs = right.subs)
    (subscriber : Subscriber) : left.lookupSub subscriber = right.lookupSub subscriber := by
  unfold lookupSub
  rw [same]

theorem lookupSub_eq_connSubs (self : SubscriptionRegistry) (connId : ConnId) (subId : SubId) :
    self.lookupSub (connId, subId) = (self.connSubs connId).lookup subId := by
  unfold lookupSub connSubs
  cases self.subs.lookup connId <;> rfl

/-- Every index is in step with `subs`. -/
def Indexed (self : SubscriptionRegistry) : Prop :=
  ∀ slot subscriber, subscriber ∈ self.postingsAt slot ↔
    ∃ entry, self.lookupSub subscriber = some entry ∧ slot ∈ slots entry

theorem indexed_empty : Indexed empty := by
  intro slot subscriber
  cases slot <;> simp [empty, postingsAt, lookupSub]

variable {self : SubscriptionRegistry} {connId : ConnId} {subId : SubId}

theorem removeSubscription_absent (missing : self.lookupSub (connId, subId) = none) :
    self.removeSubscription connId subId = (self, none) := by
  unfold removeSubscription
  cases connection : self.subs.lookup connId with
  | none => rfl
  | some connSubs =>
    have absent : connSubs.lookup subId = none := by
      simpa [lookupSub, connection] using missing
    simp only [absent]

theorem removeSubscription_present
    {filters : List Filter} {communityId : CommunityId} {channelId : Option Uuid}
    (found : self.lookupSub (connId, subId) = some (filters, communityId, channelId)) :
    self.removeSubscription connId subId =
      (removeFromIndex
        { self with subs := self.subs.insert connId ((self.connSubs connId).erase subId) }
        connId subId filters communityId channelId, some ⟨communityId, channelId⟩) := by
  unfold removeSubscription connSubs
  cases connection : self.subs.lookup connId with
  | none => simp [lookupSub, connection] at found
  | some connSubs =>
    have present : connSubs.lookup subId = some (filters, communityId, channelId) := by
      simpa [lookupSub, connection] using found
    simp only [present, getD_some]

theorem lookupSub_setConn (self : SubscriptionRegistry)
    {connSubs : AList fun _ : SubId => SubEntry} {entry : Option SubEntry}
    (here : connSubs.lookup subId = entry)
    (others : ∀ sub, sub ≠ subId → connSubs.lookup sub = (self.connSubs connId).lookup sub)
    (subscriber : Subscriber) :
    lookupSub { self with subs := self.subs.insert connId connSubs } subscriber =
      if subscriber = (connId, subId) then entry else self.lookupSub subscriber := by
  rcases subscriber with ⟨conn, sub⟩
  by_cases sameConn : conn = connId
  · subst sameConn
    by_cases sameSub : sub = subId
    · subst sameSub
      simp [lookupSub, here]
    · rw [if_neg (by simp [sameSub]), lookupSub_eq_connSubs self, ← others sub sameSub]
      simp [lookupSub]
  · simp [lookupSub, sameConn]

theorem lookupSub_removeSubscription (self : SubscriptionRegistry) (connId : ConnId)
    (subId : SubId) (subscriber : Subscriber) :
    (self.removeSubscription connId subId).1.lookupSub subscriber =
      if subscriber = (connId, subId) then none else self.lookupSub subscriber := by
  cases found : self.lookupSub (connId, subId) with
  | none =>
    rw [removeSubscription_absent found]
    by_cases same : subscriber = (connId, subId)
    · rw [if_pos same, same, found]
    · rw [if_neg same]
  | some entry =>
    rw [removeSubscription_present found, lookupSub_of_subs (removeFromIndex_subs ..)]
    exact self.lookupSub_setConn (AList.lookup_erase _ _) (fun _ => AList.lookup_erase_ne) subscriber

@[simp] theorem postingsAt_setSubs (self : SubscriptionRegistry)
    (subs : AList fun _ : ConnId => AList fun _ : SubId => SubEntry) (slot : Slot) :
    postingsAt { self with subs } slot = self.postingsAt slot := by
  cases slot <;> rfl

theorem mem_postingsAt_removeSubscription (indexed : self.Indexed)
    (connId : ConnId) (subId : SubId) (slot : Slot) (subscriber : Subscriber) :
    subscriber ∈ (self.removeSubscription connId subId).1.postingsAt slot ↔
      subscriber ∈ self.postingsAt slot ∧ subscriber ≠ (connId, subId) := by
  cases found : self.lookupSub (connId, subId) with
  | none =>
    rw [removeSubscription_absent found]
    refine ⟨fun listed => ⟨listed, ?_⟩, And.left⟩
    rintro rfl
    obtain ⟨entry, present, -⟩ := (indexed slot _).mp listed
    rw [found] at present
    cases present
  | some entry =>
    rw [removeSubscription_present found, mem_postingsAt_removeFromIndex,
      postingsAt_setSubs]
    refine and_congr_right fun listed => not_congr ⟨And.right, fun same => ⟨?_, same⟩⟩
    subst same
    obtain ⟨stored, present, wanted⟩ := (indexed slot _).mp listed
    rw [found, Option.some.injEq] at present
    rw [present]
    exact wanted

theorem indexed_removeSubscription (indexed : self.Indexed)
    (connId : ConnId) (subId : SubId) : (self.removeSubscription connId subId).1.Indexed := by
  intro slot subscriber
  rw [mem_postingsAt_removeSubscription indexed, lookupSub_removeSubscription,
    indexed slot subscriber]
  by_cases same : subscriber = (connId, subId)
  · simp [same]
  · simp [same]

theorem lookupSub_registerScoped (self : SubscriptionRegistry) (communityId : CommunityId)
    (connId : ConnId) (subId : SubId) (filters : List Filter) (channelId : Option Uuid)
    (subscriber : Subscriber) :
    (self.registerScoped communityId connId subId filters channelId).1.lookupSub subscriber =
      if subscriber = (connId, subId) then some (filters, communityId, channelId)
      else self.lookupSub subscriber := by
  rw [registerScoped, lookupSub_of_subs (addToIndex_subs ..),
    lookupSub_setConn _ (AList.lookup_insert _) (fun _ => AList.lookup_insert_ne),
    lookupSub_removeSubscription]
  split <;> rfl

theorem indexed_registerScoped (indexed : self.Indexed)
    (communityId : CommunityId) (connId : ConnId) (subId : SubId) (filters : List Filter)
    (channelId : Option Uuid) :
    (self.registerScoped communityId connId subId filters channelId).1.Indexed := by
  intro slot subscriber
  rw [lookupSub_registerScoped]
  simp only [registerScoped]
  rw [mem_postingsAt_addToIndex,
    postingsAt_setSubs,
    mem_postingsAt_removeSubscription indexed, indexed slot subscriber]
  by_cases same : subscriber = (connId, subId)
  · simp [same]
  · simp [same]

theorem removeEach_subs (entries : List (Sigma fun _ : SubId => SubEntry))
    (registry : SubscriptionRegistry) (connId : ConnId) :
    (entries.foldl (fun registry entry =>
      registry.removeFromIndex connId entry.1 entry.2.1 entry.2.2.1 entry.2.2.2)
      registry).subs = registry.subs := by
  induction entries generalizing registry with
  | nil => rfl
  | cons head tail ih => rw [foldl_cons, ih, removeFromIndex_subs]

theorem lookupSub_removeConnection (self : SubscriptionRegistry) (connId : ConnId)
    (subscriber : Subscriber) :
    (self.removeConnection connId).1.lookupSub subscriber =
      if subscriber.1 = connId then none else self.lookupSub subscriber := by
  obtain ⟨conn, sub⟩ := subscriber
  unfold removeConnection
  cases connection : self.subs.lookup connId with
  | none =>
    by_cases sameConn : conn = connId
    · subst sameConn
      simp [lookupSub, connection]
    · rw [if_neg sameConn]
  | some connSubs =>
    simp only
    rw [lookupSub_of_subs (removeEach_subs ..)]
    by_cases sameConn : conn = connId
    · subst sameConn
      simp [lookupSub]
    · simp [lookupSub, sameConn]

theorem mem_postingsAt_removeEach (entries : List (Sigma fun _ : SubId => SubEntry))
    (registry : SubscriptionRegistry) (connId : ConnId) (slot : Slot) (subscriber : Subscriber) :
    subscriber ∈ (entries.foldl (fun registry entry =>
        registry.removeFromIndex connId entry.1 entry.2.1 entry.2.2.1 entry.2.2.2)
        registry).postingsAt slot ↔
      subscriber ∈ registry.postingsAt slot ∧
        ¬ ∃ entry ∈ entries, slot ∈ slots entry.2 ∧ subscriber = (connId, entry.1) := by
  induction entries generalizing registry with
  | nil => simp
  | cons head tail ih =>
    rw [foldl_cons, ih, mem_postingsAt_removeFromIndex, and_assoc, ← not_or,
      exists_mem_cons_iff]

section

variable (indexed : self.Indexed)

include indexed

theorem indexed_removeConnection (connId : ConnId) : (self.removeConnection connId).1.Indexed := by
  rintro slot ⟨conn, sub⟩
  rw [lookupSub_removeConnection]
  unfold removeConnection
  cases connection : self.subs.lookup connId with
  | none =>
    rw [indexed slot (conn, sub)]
    by_cases sameConn : conn = connId
    · subst sameConn
      simp [lookupSub, connection]
    · rw [if_neg sameConn]
  | some connSubs =>
    simp only
    rw [mem_postingsAt_removeEach, postingsAt_setSubs,
      indexed slot (conn, sub)]
    by_cases sameConn : conn = connId
    · subst sameConn
      rw [if_pos rfl]
      refine ⟨?_, fun ⟨_, impossible, _⟩ => nomatch impossible⟩
      rintro ⟨⟨entry, found, wanted⟩, kept⟩
      simp only [lookupSub, connection, bind_some] at found
      exact absurd ⟨⟨sub, entry⟩, AList.mem_lookup_iff.mp found, wanted, rfl⟩ kept
    · rw [if_neg sameConn]
      refine and_iff_left ?_
      rintro ⟨entry, -, -, same⟩
      exact sameConn (Prod.mk.inj same).1

theorem indexed_removeSubscriptions (connId : ConnId) (subIds : List SubId) :
    (self.removeSubscriptions connId subIds).1.Indexed := by
  induction subIds generalizing self with
  | nil => exact indexed
  | cons head tail ih => exact ih (indexed_removeSubscription indexed connId head)

theorem indexed_apply (operation : Operation) : (self.apply operation).Indexed := by
  cases operation with
  | registerScoped communityId connId subId filters channelId =>
    exact indexed_registerScoped indexed communityId connId subId filters channelId
  | removeSubscription connId subId => exact indexed_removeSubscription indexed connId subId
  | removeConnection connId => exact indexed_removeConnection indexed connId
  | removeChannelSubscriptionsScoped communityId connId channelId =>
    exact indexed_removeSubscriptions indexed connId _

end

theorem indexed_run (operations : List Operation) : (run operations).Indexed := by
  have preserved (registry : SubscriptionRegistry) (indexed : registry.Indexed) :
      (operations.foldl SubscriptionRegistry.apply registry).Indexed := by
    induction operations generalizing registry with
    | nil => exact indexed
    | cons head tail ih => exact ih _ (indexed_apply indexed head)
  exact preserved empty indexed_empty

/-- No index keeps a subscriber that is gone. -/
theorem no_dangling_postings (operations : List Operation) :
    (∀ slot, ∀ subscriber ∈ (run operations).postingsAt slot, ∃ entry,
      (run operations).lookupSub subscriber = some entry ∧ slot ∈ slots entry) ∧
    ∀ connId slot subId, (connId, subId) ∉
      (run (operations ++ [.removeConnection connId])).postingsAt slot := by
  refine ⟨fun slot subscriber => (indexed_run operations slot subscriber).mp, ?_⟩
  intro connId slot subId found
  rcases (indexed_run _ slot _).mp found with ⟨entry, present, -⟩
  have last : run (operations ++ [.removeConnection connId]) =
      ((run operations).removeConnection connId).1 := List.foldl_append
  rw [last, lookupSub_removeConnection, if_pos rfl] at present
  cases present

end SubscriptionRegistry

end Buzz.Subscription
