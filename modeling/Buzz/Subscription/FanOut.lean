import Buzz.Subscription.Indexing

/-! Fan-out visits every slot that a matching subscription can be listed under, so its answer
is the brute-force scan of `subs`. -/

namespace Buzz.Subscription

open Nostr Library.Accumulate Library.PostingIndex List

/-- The slots that `fan_out_scoped` reads, in its order. -/
def eventSlots (communityId : CommunityId) (event : StoredEvent) : List Slot :=
  match event.channelId with
  | some channelId =>
    [.channelKind communityId ⟨channelId, event.event.kind⟩,
      .channelWildcard communityId channelId]
  | none =>
    ((eventPTagValues event).map fun p => .globalPKind ⟨communityId, event.event.kind, p⟩) ++
      [.globalKind communityId event.event.kind, .globalWildcard communityId]

variable {communityId : CommunityId} {kinds : List Kind}

theorem mem_filterPKindKeys
    {pValues : List String} {kind : Kind} {p : String} (kindMember : kind ∈ kinds)
    (valueMember : p ∈ pValues) :
    ⟨communityId, kind, p⟩ ∈ filterPKindKeys communityId kinds pValues := by
  unfold filterPKindKeys
  rw [mem_flatMap]
  exact ⟨kind, kindMember, mem_map.mpr ⟨p, valueMember, rfl⟩⟩

variable {filters : List Filter} {filter : Filter}

theorem extractKindsFromFilters_mem (extracted : extractKindsFromFilters filters = some kinds)
    (member : filter ∈ filters) :
    ∃ filterKinds, filter.kinds = some filterKinds ∧ ∀ kind ∈ filterKinds, kind ∈ kinds := by
  unfold extractKindsFromFilters at extracted
  obtain ⟨before, next, step, kept⟩ := foldlM_item (by
    intro seen item next stepped x present
    split at stepped
    · rw [Option.some.injEq] at stepped
      rw [← stepped, mem_foldl_pushNew]
      exact .inl present
    · cases stepped) extracted filter member
  split at step
  next filterKinds present =>
    rw [Option.some.injEq] at step
    refine ⟨filterKinds, present, fun kind wanted => kept kind ?_⟩
    rw [← step, mem_foldl_pushNew]
    exact .inr wanted
  · cases step

theorem extractGlobalPKindIndexKeys_mem {keys : List GlobalPKindIndexKey}
    (extracted : extractGlobalPKindIndexKeys communityId filters = some keys)
    (member : filter ∈ filters) :
    ∃ kinds, filter.kinds = some kinds ∧ (kinds ≠ [] →
      ∃ pValues, filter.genericTags.lookup pTag = some pValues ∧
        ∀ key ∈ filterPKindKeys communityId kinds pValues, key ∈ keys) := by
  unfold extractGlobalPKindIndexKeys at extracted
  obtain ⟨before, next, step, kept⟩ := foldlM_item (by
    intro seen item next stepped x present
    repeat' split at stepped
    · cases stepped
    · rw [Option.some.injEq] at stepped
      exact stepped ▸ present
    · cases stepped
    · cases stepped
    · rw [Option.some.injEq] at stepped
      rw [← stepped, mem_foldl_pushNew]
      exact .inl present) extracted filter member
  repeat' split at step
  · cases step
  next kinds present empty =>
    exact ⟨kinds, present, fun nonempty => absurd (List.isEmpty_iff.mp empty) nonempty⟩
  · cases step
  · cases step
  next kinds present _ _ pValues found _ =>
    rw [Option.some.injEq] at step
    refine ⟨kinds, present, fun _ => ⟨pValues, found, fun key wanted => kept key ?_⟩⟩
    rw [← step, mem_foldl_pushNew]
    exact .inr wanted

variable {event : StoredEvent}

theorem mem_eventPTagValues {value : String} :
    value ∈ eventPTagValues event ↔ value ∈ tagContents "p" event.event.tags := by
  have accumulated (tags : List Tag) (values : List String) :
      value ∈ tags.foldl pushPTagValue values ↔
        value ∈ values ∨ value ∈ tagContents "p" tags := by
    induction tags generalizing values with
    | nil => simp [tagContents]
    | cons head tail ih =>
      rw [foldl_cons, ih]
      by_cases kind : head.kind = "p"
      · cases content : head.content with
        | none => simp [pushPTagValue, tagContents, kind, content]
        | some text => simp [pushPTagValue, tagContents, kind, content, mem_pushNew, or_assoc]
      · simp [pushPTagValue, tagContents, kind]
  unfold eventPTagValues
  rw [accumulated]
  simp

theorem slots_cover (communityId : CommunityId) (matched : filtersMatch filters event) :
    ∃ slot ∈ eventSlots communityId event, slot ∈ slots (filters, communityId, event.channelId) := by
  obtain ⟨filter, member, accepted⟩ := any_eq_true.mp matched
  have kindListed {kinds : List Kind} (extracted : extractKindsFromFilters filters = some kinds) :
      event.event.kind ∈ kinds := by
    obtain ⟨filterKinds, present, kept⟩ := extractKindsFromFilters_mem extracted member
    exact kept _ (filterMatchOne_kind accepted present)
  cases scope : event.channelId with
  | some channelId =>
    cases extracted : extractKindsFromFilters filters with
    | none =>
      exact ⟨.channelWildcard communityId channelId, by simp [eventSlots, scope],
        by simp [slots, extracted]⟩
    | some kinds =>
      exact ⟨.channelKind communityId ⟨channelId, event.event.kind⟩,
        by simp [eventSlots, scope], by simp [slots, extracted, kindListed extracted]⟩
  | none =>
    cases keysOf : extractGlobalPKindIndexKeys communityId filters with
    | some keys =>
      obtain ⟨kinds, present, constrained⟩ := extractGlobalPKindIndexKeys_mem keysOf member
      have kindMember := filterMatchOne_kind accepted present
      obtain ⟨pValues, found, listed⟩ := constrained (ne_nil_of_mem kindMember)
      obtain ⟨p, valueMember, tagged⟩ := filterMatchOne_tag accepted found (by decide)
      refine ⟨.globalPKind ⟨communityId, event.event.kind, p⟩, ?_, ?_⟩
      · simp only [eventSlots, scope, mem_append, mem_map]
        exact .inl ⟨p, mem_eventPTagValues.mpr tagged, rfl⟩
      · simp only [slots, keysOf, mem_map]
        exact ⟨_, listed _ (mem_filterPKindKeys kindMember valueMember), rfl⟩
    | none =>
      cases extracted : extractKindsFromFilters filters with
      | none =>
        exact ⟨.globalWildcard communityId, by simp [eventSlots, scope],
          by simp [slots, keysOf, extracted]⟩
      | some kinds =>
        exact ⟨.globalKind communityId event.event.kind, by simp [eventSlots, scope],
          by simp [slots, keysOf, extracted, kindListed extracted]⟩

namespace SubscriptionRegistry

section

variable (self : SubscriptionRegistry)

include self

theorem fanOutScoped_eq (communityId : CommunityId)
    (event : StoredEvent) :
    self.fanOutScoped communityId event =
      ((eventSlots communityId event).flatMap self.postingsAt).foldl
        (self.pushMatch communityId event) [] := by
  unfold fanOutScoped eventSlots
  cases event.channelId with
  | some channelId =>
    simp only [flatMap_cons, flatMap_nil, append_nil, foldl_append]
    rfl
  | none =>
    simp only [flatMap_append, flatMap_cons, flatMap_nil, append_nil,
      foldl_append, flatMap_map, foldl_flatMap]
    rfl

theorem mem_foldl_pushMatch (communityId : CommunityId)
    (event : StoredEvent) (candidates results : List Subscriber) (subscriber : Subscriber) :
    subscriber ∈ candidates.foldl (self.pushMatch communityId event) results ↔
      subscriber ∈ results ∨
        subscriber ∈ candidates ∧ self.isMatch communityId event subscriber := by
  induction candidates generalizing results with
  | nil => simp
  | cons head tail ih =>
    rw [foldl_cons, ih, mem_cons]
    unfold pushMatch
    split
    next matched =>
      rw [mem_pushNew, or_assoc]
      refine or_congr_right ⟨?_, ?_⟩
      · rintro (rfl | ⟨later, accepted⟩)
        · exact ⟨.inl rfl, matched⟩
        · exact ⟨.inr later, accepted⟩
      · rintro ⟨rfl | later, accepted⟩
        · exact .inl rfl
        · exact .inr ⟨later, accepted⟩
    next refused =>
      refine or_congr_right ⟨fun ⟨later, accepted⟩ => ⟨.inr later, accepted⟩, ?_⟩
      rintro ⟨rfl | later, accepted⟩
      · exact absurd accepted refused
      · exact ⟨later, accepted⟩

theorem foldl_pushMatch_nodup (communityId : CommunityId)
    (event : StoredEvent) (candidates results : List Subscriber) (distinct : results.Nodup) :
    (candidates.foldl (self.pushMatch communityId event) results).Nodup := by
  induction candidates generalizing results with
  | nil => exact distinct
  | cons head tail ih =>
    apply ih
    unfold pushMatch
    split
    · exact pushNew_nodup distinct head
    · exact distinct

theorem isMatch_iff (communityId : CommunityId)
    (event : StoredEvent) (subscriber : Subscriber) :
    self.isMatch communityId event subscriber ↔
      ∃ filters, self.lookupSub subscriber = some (filters, communityId, event.channelId) ∧
        filtersMatch filters event := by
  unfold isMatch
  cases found : self.lookupSub subscriber with
  | none => simp
  | some entry =>
    obtain ⟨filters, community, channel⟩ := entry
    simp only [Bool.and_eq_true, decide_eq_true_eq, Option.some.injEq, Prod.mk.injEq]
    constructor
    · rintro ⟨⟨rfl, rfl⟩, matched⟩
      exact ⟨filters, ⟨rfl, rfl, rfl⟩, matched⟩
    · rintro ⟨_, ⟨rfl, rfl, rfl⟩, matched⟩
      exact ⟨⟨rfl, rfl⟩, matched⟩

end

theorem mem_fanOutScoped {self : SubscriptionRegistry} (indexed : self.Indexed)
    (communityId : CommunityId) (event : StoredEvent) (subscriber : Subscriber) :
    subscriber ∈ self.fanOutScoped communityId event ↔
      self.isMatch communityId event subscriber := by
  rw [fanOutScoped_eq, mem_foldl_pushMatch, mem_flatMap]
  constructor
  · rintro (impossible | ⟨-, matched⟩)
    · cases impossible
    · exact matched
  · intro matched
    refine .inr ⟨?_, matched⟩
    obtain ⟨filters, found, accepted⟩ := (isMatch_iff ..).mp matched
    obtain ⟨slot, visited, wanted⟩ := slots_cover communityId accepted
    exact ⟨slot, visited, (indexed slot subscriber).mpr ⟨_, found, wanted⟩⟩

end SubscriptionRegistry

theorem fanOutScoped_eq_scan (operations : List Operation) (communityId : CommunityId)
    (event : StoredEvent) :
    let registry := SubscriptionRegistry.run operations
    (registry.fanOutScoped communityId event).Nodup ∧
      ∀ subscriber, subscriber ∈ registry.fanOutScoped communityId event ↔
        ∃ filters, registry.lookupSub subscriber = some (filters, communityId, event.channelId) ∧
          filtersMatch filters event := by
  intro registry
  constructor
  · rw [SubscriptionRegistry.fanOutScoped_eq]
    exact registry.foldl_pushMatch_nodup communityId event _ [] nodup_nil
  · intro subscriber
    rw [SubscriptionRegistry.mem_fanOutScoped (SubscriptionRegistry.indexed_run operations)]
    exact registry.isMatch_iff communityId event subscriber

end Buzz.Subscription
