import Buzz.Subscription.Indexing

/-! The calls of the registry as the single map operations that they are made of. -/

namespace Buzz.Subscription

open Nostr Library.PostingIndex List

deriving instance DecidableEq for Slot

inductive Move
  | take (connId : ConnId) (subId : SubId)
  | takeAll (connId : ConnId)
  | collect (communityId : CommunityId) (connId : ConnId) (channelId : Uuid)
  | prune (slot : Slot) (subscriber : Subscriber)
  | delete (slot : Slot)
  | put (connId : ConnId) (subId : SubId) (entry : SubEntry)
  | push (slot : Slot) (subscriber : Subscriber)

namespace SubscriptionRegistry

def bucket (self : SubscriptionRegistry) : Slot → Option (List Subscriber)
  | .channelKind communityId key => self.channelKindIndex.lookup (communityId, key)
  | .channelWildcard communityId channelId =>
    self.channelWildcardIndex.lookup (communityId, channelId)
  | .globalKind communityId kind => self.globalKindIndex.lookup (communityId, kind)
  | .globalPKind key => self.globalPKindIndex.lookup key
  | .globalWildcard communityId => self.globalWildcardIndex.lookup communityId

def setBucket (self : SubscriptionRegistry) (slot : Slot) (entries : List Subscriber) :
    SubscriptionRegistry :=
  match slot with
  | .channelKind communityId key =>
    { self with channelKindIndex := self.channelKindIndex.insert (communityId, key) entries }
  | .channelWildcard communityId channelId =>
    { self with channelWildcardIndex :=
        self.channelWildcardIndex.insert (communityId, channelId) entries }
  | .globalKind communityId kind =>
    { self with globalKindIndex := self.globalKindIndex.insert (communityId, kind) entries }
  | .globalPKind key => { self with globalPKindIndex := self.globalPKindIndex.insert key entries }
  | .globalWildcard communityId =>
    { self with globalWildcardIndex := self.globalWildcardIndex.insert communityId entries }

def eraseBucket (self : SubscriptionRegistry) (slot : Slot) : SubscriptionRegistry :=
  match slot with
  | .channelKind communityId key =>
    { self with channelKindIndex := self.channelKindIndex.erase (communityId, key) }
  | .channelWildcard communityId channelId =>
    { self with channelWildcardIndex := self.channelWildcardIndex.erase (communityId, channelId) }
  | .globalKind communityId kind =>
    { self with globalKindIndex := self.globalKindIndex.erase (communityId, kind) }
  | .globalPKind key => { self with globalPKindIndex := self.globalPKindIndex.erase key }
  | .globalWildcard communityId =>
    { self with globalWildcardIndex := self.globalWildcardIndex.erase communityId }

def make (self : SubscriptionRegistry) : Move → SubscriptionRegistry × List Move
  | .take connId subId =>
    match self.lookupSub (connId, subId) with
    | none => (self, [])
    | some entry =>
      ({ self with subs := self.subs.insert connId ((self.connSubs connId).erase subId) },
        (slots entry).map fun slot => .prune slot (connId, subId))
  | .takeAll connId =>
    match self.subs.lookup connId with
    | none => (self, [])
    | some connSubs =>
      ({ self with subs := self.subs.erase connId },
        connSubs.entries.flatMap fun entry =>
          (slots entry.2).map fun slot => .prune slot (connId, entry.1))
  | .collect communityId connId channelId =>
    (self, (self.connSubs connId).entries.filterMap fun entry =>
      if entry.2.2.1 = communityId ∧ entry.2.2.2 = some channelId then some (.take connId entry.1)
      else none)
  | .prune slot subscriber =>
    match self.bucket slot with
    | none => (self, [])
    | some entries =>
      let kept := entries.filter fun other => !decide (other = subscriber)
      (self.setBucket slot kept, if kept.isEmpty then [.delete slot] else [])
  | .delete slot => (self.eraseBucket slot, [])
  | .put connId subId entry =>
    ({ self with subs := self.subs.insert connId ((self.connSubs connId).insert subId entry) }, [])
  | .push slot subscriber => (self.setBucket slot (self.postingsAt slot ++ [subscriber]), [])

end SubscriptionRegistry

def Operation.moves : Operation → List Move
  | .registerScoped communityId connId subId filters channelId =>
    .take connId subId :: .put connId subId (filters, communityId, channelId) ::
      (slots (filters, communityId, channelId)).map fun slot => .push slot (connId, subId)
  | .removeSubscription connId subId => [.take connId subId]
  | .removeConnection connId => [.takeAll connId]
  | .removeChannelSubscriptionsScoped communityId connId channelId =>
    [.collect communityId connId channelId]

def Operation.removesFrom : Operation → Option ConnId
  | .registerScoped .. => none
  | .removeSubscription connId _ => some connId
  | .removeConnection connId => some connId
  | .removeChannelSubscriptionsScoped _ connId _ => some connId

structure Race where
  registry : SubscriptionRegistry
  register : List Move
  removal : List Move

inductive Party
  | registering
  | removing
  deriving DecidableEq

namespace Race

variable (self : Race)

def moves : Party → List Move
  | .registering => self.register
  | .removing => self.removal

def step (party : Party) : Race :=
  match self.moves party with
  | [] => self
  | move :: rest =>
    let (registry, more) := self.registry.make move
    match party with
    | .registering => { self with registry, register := more ++ rest }
    | .removing => { self with registry, removal := more ++ rest }

def Finished : Prop := self.register = [] ∧ self.removal = []

end Race

variable {self : SubscriptionRegistry} {slot other : Slot} {subscriber : Subscriber}

section moves

open SubscriptionRegistry

variable {entries : List Subscriber}

theorem postingsAt_eq_bucket : self.postingsAt slot = (self.bucket slot).getD [] := by
  cases slot <;> rfl

theorem postingsAt_setBucket : (self.setBucket slot entries).postingsAt other =
    if other = slot then entries else self.postingsAt other := by
  by_cases same : other = slot
  · subst same
    rw [if_pos rfl]
    cases other <;> simp [setBucket, postingsAt, postings]
  · rw [if_neg same]
    cases slot <;> cases other <;> simp_all [setBucket, postingsAt, postings]

theorem postingsAt_eraseBucket : (self.eraseBucket slot).postingsAt other =
    if other = slot then [] else self.postingsAt other := by
  by_cases same : other = slot
  · subst same
    rw [if_pos rfl]
    cases other <;> simp [eraseBucket, postingsAt, postings]
  · rw [if_neg same]
    cases slot <;> cases other <;> simp_all [eraseBucket, postingsAt, postings]

theorem subs_setBucket : (self.setBucket slot entries).subs = self.subs := by
  cases slot <;> rfl

theorem subs_eraseBucket : (self.eraseBucket slot).subs = self.subs := by
  cases slot <;> rfl

theorem lookupSub_setBucket :
    (self.setBucket slot entries).lookupSub subscriber = self.lookupSub subscriber :=
  lookupSub_of_subs subs_setBucket subscriber

theorem lookupSub_eraseBucket :
    (self.eraseBucket slot).lookupSub subscriber = self.lookupSub subscriber :=
  lookupSub_of_subs subs_eraseBucket subscriber

end moves

section effects

open SubscriptionRegistry

variable {connId : ConnId} {subId : SubId} {entry : SubEntry} {found : Subscriber}
  {communityId : CommunityId} {channelId : Uuid}

theorem lookupSub_take : (self.make (.take connId subId)).1.lookupSub found =
    if found = (connId, subId) then none else self.lookupSub found := by
  rw [make]
  cases present : self.lookupSub (connId, subId) with
  | none =>
    by_cases same : found = (connId, subId)
    · rw [if_pos same, same]
      exact present
    · rw [if_neg same]
  | some entry =>
    exact self.lookupSub_setConn (AList.lookup_erase _ _) (fun _ => AList.lookup_erase_ne) found

theorem lookupSub_takeAll : (self.make (.takeAll connId)).1.lookupSub found =
    if found.1 = connId then none else self.lookupSub found := by
  rw [make]
  cases present : self.subs.lookup connId with
  | none =>
    by_cases same : found.1 = connId
    · subst same
      simp [lookupSub, present]
    · rw [if_neg same]
  | some connSubs =>
    by_cases same : found.1 = connId
    · subst same
      simp [lookupSub]
    · simp [lookupSub, same]

theorem lookupSub_put : (self.make (.put connId subId entry)).1.lookupSub found =
    if found = (connId, subId) then some entry else self.lookupSub found := by
  exact self.lookupSub_setConn (AList.lookup_insert _) (fun _ => AList.lookup_insert_ne) found

theorem lookupSub_prune :
    (self.make (.prune slot subscriber)).1.lookupSub found = self.lookupSub found := by
  rw [make]
  cases self.bucket slot with
  | none => rfl
  | some entries => exact lookupSub_setBucket

theorem postingsAt_take :
    (self.make (.take connId subId)).1.postingsAt slot = self.postingsAt slot := by
  rw [make]
  cases self.lookupSub (connId, subId) with
  | none => rfl
  | some entry => exact postingsAt_setSubs ..

theorem postingsAt_takeAll :
    (self.make (.takeAll connId)).1.postingsAt slot = self.postingsAt slot := by
  rw [make]
  cases self.subs.lookup connId with
  | none => rfl
  | some connSubs => exact postingsAt_setSubs ..

theorem mem_postingsAt_prune : found ∈ (self.make (.prune slot subscriber)).1.postingsAt other ↔
    found ∈ self.postingsAt other ∧ ¬ (other = slot ∧ found = subscriber) := by
  rw [make]
  cases isBucket : self.bucket slot with
  | none =>
    refine ⟨fun listed => ⟨listed, ?_⟩, And.left⟩
    rintro ⟨rfl, rfl⟩
    rw [postingsAt_eq_bucket, isBucket] at listed
    cases listed
  | some entries =>
    dsimp only
    rw [postingsAt_setBucket]
    by_cases same : other = slot
    · subst same
      rw [if_pos rfl, postingsAt_eq_bucket, isBucket]
      simp
    · simp [same]

theorem mem_postingsAt_push : found ∈ (self.make (.push slot subscriber)).1.postingsAt other ↔
    found ∈ self.postingsAt other ∨ other = slot ∧ found = subscriber := by
  rw [make]
  dsimp only
  rw [postingsAt_setBucket]
  by_cases same : other = slot
  · subst same
    simp
  · simp [same]

variable {move : Move}

theorem follows_prune (follows : move ∈ (self.make (.prune slot subscriber)).2) :
    move = .delete slot ∧ (self.make (.prune slot subscriber)).1.postingsAt slot = [] := by
  rw [make] at follows ⊢
  cases isBucket : self.bucket slot with
  | none =>
    rw [isBucket] at follows
    cases follows
  | some entries =>
    rw [isBucket] at follows
    dsimp only at follows ⊢
    split at follows
    next empty =>
      rw [mem_singleton.mp follows, postingsAt_setBucket, if_pos rfl]
      exact ⟨rfl, List.isEmpty_iff.mp empty⟩
    · cases follows

theorem follows_take (follows : move ∈ (self.make (.take connId subId)).2) :
    ∃ slot, move = .prune slot (connId, subId) := by
  rw [make] at follows
  cases present : self.lookupSub (connId, subId) with
  | none =>
    rw [present] at follows
    cases follows
  | some entry =>
    rw [present] at follows
    obtain ⟨slot, -, rfl⟩ := mem_map.mp follows
    exact ⟨slot, rfl⟩

theorem follows_takeAll (follows : move ∈ (self.make (.takeAll connId)).2) :
    ∃ slot subId, move = .prune slot (connId, subId) := by
  rw [make] at follows
  cases present : self.subs.lookup connId with
  | none =>
    rw [present] at follows
    cases follows
  | some connSubs =>
    rw [present] at follows
    obtain ⟨entry, -, member⟩ := mem_flatMap.mp follows
    obtain ⟨slot, -, rfl⟩ := mem_map.mp member
    exact ⟨slot, entry.1, rfl⟩

theorem follows_collect (follows : move ∈ (self.make (.collect communityId connId channelId)).2) :
    ∃ subId, move = .take connId subId := by
  obtain ⟨entry, -, isMove⟩ := mem_filterMap.mp follows
  split at isMove
  · cases isMove
    exact ⟨entry.1, rfl⟩
  · cases isMove

end effects

end Buzz.Subscription
