import Buzz.Delivery.Recipients

/-! The reader gate on the three delivery paths. -/

namespace Buzz.Delivery

open Nostr Buzz.Subscription Buzz.Req List
open Buzz.Moderation (AuthState)
open Library.Transition

def Relay.Entitled (self : Relay) (communityId : CommunityId) (stored : StoredEvent)
    (connId : ConnId) : Prop :=
  ∃ session pubkey, self.sessions connId = some session ∧ session.community = communityId ∧
    session.authState = .authenticated pubkey ∧
    eventVisibleToReader stored.event pubkey ∧
    ∀ channelId, stored.channelId = some channelId →
      self.access.channels communityId channelId = some "private" →
        self.access.members communityId channelId pubkey

/-- A stored event whose kind is gated has no channel. -/
structure PlacedEvent where
  stored : StoredEvent
  placed : eventKindU32 stored.event ∈ authorOnlyKinds ++ sharedGatedKinds ++ resultGatedKinds →
    stored.channelId = none

section enforcement

variable (parseUuid : String → Option Uuid)

structure Enforced (access : Access) (communityId : CommunityId) (event : PlacedEvent)
    (threaded : Option ThreadedChannelVisibility) : Prop where
  entitled : ∀ relay, Reachable parseUuid relay → relay.access = access → ∀ path subscriber,
    subscriber ∈ relay.deliveries communityId event.stored threaded path →
      relay.Entitled communityId event.stored subscriber.1
  agree : ∀ relay, Reachable parseUuid relay → relay.access = access → ∀ first second,
    relay.carries communityId event.stored first → relay.carries communityId event.stored second →
      ∀ subscriber, subscriber ∈ relay.deliveries communityId event.stored threaded first ↔
        subscriber ∈ relay.deliveries communityId event.stored threaded second

def Requested (channelId : Uuid) (stored : StoredEvent) : Prop :=
  ∃ filters, (∀ filter ∈ filters, filter.search = none) ∧
    extractChannelIdFromFilters parseUuid filters = some channelId ∧
    filtersMatch filters stored

/-- Nobody is cached as a member who is none. -/
def MembershipFresh (access : Access) (communityId : CommunityId) (channelId : Uuid) : Prop :=
  access.channels communityId channelId = some "private" →
    (access.privateCached communityId channelId ∨ access.available) →
      ∀ pubkey, access.membershipCache communityId channelId pubkey = some true →
        access.members communityId channelId pubkey

def ThreadedFresh (access : Access) (communityId : CommunityId) (channelId : Uuid)
    (threaded : Option ThreadedChannelVisibility) : Prop :=
  ∀ key, access.channelAdmits communityId (some channelId) threaded key =
    access.channelAdmits communityId (some channelId) none key

def Safeguarded (access : Access) (communityId : CommunityId) (event : PlacedEvent)
    (threaded : Option ThreadedChannelVisibility) : Prop :=
  match event.stored.channelId with
  | none => eventKindU32 event.stored.event ∉ resultGatedKinds
  | some channelId => Requested parseUuid channelId event.stored →
      MembershipFresh access communityId channelId ∧
        ThreadedFresh access communityId channelId threaded

end enforcement

section sufficiency

variable {relay : Relay} {communityId : CommunityId} {event : PlacedEvent} {channelId : Uuid}

theorem PlacedEvent.ungated (event : PlacedEvent)
    (inChannel : event.stored.channelId = some channelId) :
    eventKindU32 event.stored.event ∉ authorOnlyKinds ∧
      eventKindU32 event.stored.event ∉ sharedGatedKinds ∧
      eventKindU32 event.stored.event ∉ resultGatedKinds := by
  have outside : eventKindU32 event.stored.event ∉
      authorOnlyKinds ++ sharedGatedKinds ++ resultGatedKinds := by
    intro gated
    cases (event.placed gated).symm.trans inChannel
  simpa only [mem_append, not_or, and_assoc] using outside

theorem isSharedGatedKind_eq_false {kind : ℕ} (outside : kind ∉ sharedGatedKinds) :
    isSharedGatedKind kind = false := by
  simpa [isSharedGatedKind] using outside

theorem ownerAdmits_of_not_resultGated {event : Event}
    (outside : eventKindU32 event ∉ resultGatedKinds) (key : Option PublicKey) :
    ownerAdmits event key := by
  simp only [resultGatedKinds, mem_cons, not_mem_nil, or_false, not_or] at outside
  simp [ownerAdmits, privateEventOwner, outside, keptByOwnerGate]

theorem kindAdmits_of_ungated {event : Event} (author : eventKindU32 event ∉ authorOnlyKinds)
    (shared : eventKindU32 event ∉ sharedGatedKinds) (key : Option PublicKey) :
    kindAdmits event key := by
  have author : authorOnlyKinds.contains (eventKindU32 event) = false := by
    simpa using author
  rw [kindAdmits, author, isSharedGatedKind_eq_false shared]
  rfl

theorem readerAuthorized_of_not_resultGated {event : Event}
    (outside : eventKindU32 event ∉ resultGatedKinds) (reader : String) :
    readerAuthorizedForEvent event reader := by
  simp only [resultGatedKinds, mem_cons, not_mem_nil, or_false, not_or] at outside
  rw [readerAuthorizedForEvent, if_pos outside]

variable {key : Option PublicKey}

theorem visible_of_kindAdmits {event : Event} {pubkey : PublicKey}
    (outside : eventKindU32 event ∉ resultGatedKinds) (admitted : kindAdmits event key)
    (known : ∀ recorded, key = some recorded → recorded = pubkey) :
    eventVisibleToReader event pubkey := by
  simp only [kindAdmits, Bool.and_eq_true, Bool.or_eq_true, Bool.not_eq_true'] at admitted
  have author : isAuthorOnlyEvent event pubkey = false := by
    rcases admitted.1 with ungated | author
    · rw [isAuthorOnlyEvent, ungated, Bool.false_and]
    · rw [Option.any_eq_true] at author
      obtain ⟨recorded, present, same⟩ := author
      have same : pubkey = event.pubkey := (known recorded present) ▸ of_decide_eq_true same
      simp [isAuthorOnlyEvent, same]
  have shared : isUnsharedGatedEvent event pubkey = false := by
    rcases admitted.2 with ungated | kept
    · rw [isUnsharedGatedEvent, ungated, Bool.false_and, Bool.false_and]
    · cases key with
      | none => cases kept
      | some recorded =>
        rw [keptBySharedGate, known recorded rfl] at kept
        split at kept
        next same => simp [isUnsharedGatedEvent, same]
        · simpa using kept
  exact eventVisibleToReader_iff.mpr
    ⟨author, shared, readerAuthorized_of_not_resultGated outside _⟩

theorem channelVisibilityCached_of_private {access : Access}
    (isPrivate : access.channels communityId channelId = some "private") :
    access.channelVisibilityCached communityId channelId =
      if access.privateCached communityId channelId || access.available then .ok "private"
      else .error .unavailable := by
  unfold Access.channelVisibilityCached Access.getChannel
  cases access.privateCached communityId channelId <;> cases access.available <;>
    simp [isPrivate]

theorem member_of_channelAdmits {access : Access}
    (fresh : MembershipFresh access communityId channelId)
    (isPrivate : access.channels communityId channelId = some "private")
    (admitted : access.channelAdmits communityId (some channelId) none key) :
    ∃ pubkey, key = some pubkey ∧ access.members communityId channelId pubkey := by
  simp only [Access.channelAdmits, Access.visibilityRead,
    channelVisibilityCached_of_private isPrivate] at admitted
  split at admitted
  · cases admitted
  next visibility read =>
    split at read
    next readable =>
      rw [Except.ok.injEq] at read
      subst read
      simp only [ne_eq, not_true_eq_false, decide_false, Bool.false_or] at admitted
      cases key with
      | none => cases admitted
      | some pubkey =>
        refine ⟨pubkey, rfl, ?_⟩
        simp only [Access.keptByMembership, Access.isMemberCached] at admitted
        cases cached : access.membershipCache communityId channelId pubkey with
        | some answer =>
          rw [cached] at admitted
          have positive : answer := admitted
          exact fresh isPrivate (by simpa using readable) pubkey (positive ▸ cached)
        | none =>
          rw [cached] at admitted
          cases available : access.available with
          | true => simpa [available] using admitted
          | false => simp [available] at admitted
    · cases read

variable {parseUuid : String → Option Uuid} {access : Access}
  {threaded : Option ThreadedChannelVisibility} {subscriber : Subscriber} {stored : StoredEvent}

theorem recipient_session (formed : relay.WellFormed parseUuid)
    (matched : relay.registry.isMatch communityId stored subscriber) :
    ∃ session pubkey, relay.sessions subscriber.1 = some session ∧
      session.community = communityId ∧ session.authState = .authenticated pubkey ∧
      ∀ recorded, relay.pubkeyForConn subscriber.1 = some recorded → recorded = pubkey := by
  obtain ⟨filters, found, -⟩ := (SubscriptionRegistry.isMatch_iff ..).mp matched
  obtain ⟨-, -, session, pubkey, present, community, passed⟩ := formed.registered _ _ _ _ found
  refine ⟨session, pubkey, present, community, passed, fun recorded known => ?_⟩
  have recorded : session.recorded = some recorded := by
    simp only [Relay.pubkeyForConn, Relay.entry, present, Option.filter_some] at known
    split at known
    · exact known
    · cases known
  have same := (formed.recorded _ _ _ present recorded).symm.trans passed
  exact AuthState.authenticated.inj same

theorem requested_of_isMatch (formed : relay.WellFormed parseUuid)
    (inChannel : stored.channelId = some channelId)
    (matched : relay.registry.isMatch communityId stored subscriber) :
    Requested parseUuid channelId stored := by
  obtain ⟨filters, found, accepted⟩ := (SubscriptionRegistry.isMatch_iff ..).mp matched
  obtain ⟨plain, named, -⟩ := formed.registered _ _ _ _ found
  exact ⟨filters, plain, named.trans inChannel, accepted⟩

section

variable (safe : Safeguarded parseUuid access communityId event threaded)

include safe

theorem Safeguarded.not_resultGated :
    eventKindU32 event.stored.event ∉ resultGatedKinds := by
  unfold Safeguarded at safe
  cases inChannel : event.stored.channelId with
  | none =>
    rw [inChannel] at safe
    exact safe
  | some channelId => exact (event.ungated inChannel).2.2

theorem Safeguarded.fresh (inChannel : event.stored.channelId = some channelId)
    (requested : Requested parseUuid channelId event.stored) :
    MembershipFresh access communityId channelId ∧
      ThreadedFresh access communityId channelId threaded := by
  unfold Safeguarded at safe
  rw [inChannel] at safe
  exact safe requested

theorem Safeguarded.channelAdmits_path (formed : relay.WellFormed parseUuid)
    (matched : relay.registry.isMatch communityId event.stored subscriber)
    (path : DeliveryPath) (key : Option PublicKey) :
    access.channelAdmits communityId event.stored.channelId (path.threaded threaded) key =
      access.channelAdmits communityId event.stored.channelId none key := by
  cases path with
  | accepting published =>
    cases inChannel : event.stored.channelId with
    | none => rfl
    | some channelId =>
      have fresh := safe.fresh inChannel (requested_of_isMatch formed inChannel matched)
      exact fresh.2 key
  | localSubscribers | pubsub => rfl

end

theorem ownerAdmits_path (outside : eventKindU32 event.stored.event ∉ resultGatedKinds)
    (path : DeliveryPath) (key : Option PublicKey) :
    path.ownerAdmits event.stored.event key := by
  cases path with
  | accepting published => exact ownerAdmits_of_not_resultGated outside key
  | localSubscribers | pubsub => rfl

theorem enforced_of_safeguarded
    (safe : Safeguarded parseUuid access communityId event threaded) :
    Enforced parseUuid access communityId event threaded where
  entitled := by
    intro relay reachable same path subscriber sent
    have formed := wellFormed_reachable reachable
    obtain ⟨-, matched, -, kinds, channels, -⟩ := (mem_deliveries formed).mp sent
    obtain ⟨session, pubkey, present, community, passed, known⟩ := recipient_session formed matched
    have visible := visible_of_kindAdmits safe.not_resultGated kinds known
    refine ⟨session, pubkey, present, community, passed, visible, ?_⟩
    intro channelId inChannel isPrivate
    rw [same] at isPrivate channels ⊢
    rw [safe.channelAdmits_path formed matched, inChannel] at channels
    have fresh := safe.fresh inChannel (requested_of_isMatch formed inChannel matched)
    obtain ⟨recorded, present, member⟩ := member_of_channelAdmits fresh.1 isPrivate channels
    rw [← known recorded present]
    exact member
  agree := by
    intro relay reachable same first second carriesFirst carriesSecond subscriber
    have formed := wellFormed_reachable reachable
    rw [mem_deliveries formed, mem_deliveries formed, same]
    simp only [carriesFirst, carriesSecond, ownerAdmits_path safe.not_resultGated, true_and,
      and_true]
    refine and_congr_right fun matched => ?_
    rw [safe.channelAdmits_path formed matched first, safe.channelAdmits_path formed matched second]

end sufficiency

section reader

def readerConn : ConnId := .fill 0

def openAccess : Access :=
  ⟨true, fun _ _ => some "open", fun _ _ _ => true, fun _ _ => false, fun _ _ _ => none⟩

def readerKey (pubkey : PublicKey) (recorded : Bool) : Option PublicKey :=
  if recorded then some pubkey else none

/-- `recorded`: the manager knows its key. -/
def authenticatedRelay (communityId : CommunityId) (pubkey : PublicKey) (recorded : Bool) : Relay :=
  let connected := (Relay.initial openAccess).setSession readerConn ⟨communityId, .pending, none, true⟩
  let passed := connected.setSession readerConn ⟨communityId, .authenticated pubkey, none, true⟩
  if recorded then
    passed.setSession readerConn ⟨communityId, .authenticated pubkey, some pubkey, true⟩
  else passed

variable (parseUuid : String → Option Uuid)

def readerRelay (access : Access) (communityId : CommunityId) (pubkey : PublicKey) (recorded : Bool)
    (filters : List Filter) : Relay :=
  { (authenticatedRelay communityId pubkey recorded).apply
      (.registerScoped communityId readerConn "feed" filters
        (extractChannelIdFromFilters parseUuid filters)) with
    access }

variable {parseUuid} {access : Access} {communityId : CommunityId} {pubkey : PublicKey}
  {recorded : Bool} {filters : List Filter}

theorem reqRegisters_open (plain : ∀ filter ∈ filters, filter.search = none)
    (gated : extractChannelIdFromFilters parseUuid filters = none →
      filterGates filters pubkey.toHex) :
    reqRegisters parseUuid pubkey filters (extractChannelIdFromFilters parseUuid filters).toList
      (fun _ => true) (fun _ => none) := by
  have noSearch : (filters.all (·.search.isNone)) := by
    rw [all_eq_true]
    intro filter member
    exact Option.isNone_iff_eq_none.mpr (plain filter member)
  rw [reqRegisters, noSearch, Bool.true_and]
  cases named : extractChannelIdFromFilters parseUuid filters with
  | none => exact gated named
  | some channelId => simp [resolveRequestLocalAccess]

theorem readerRelay_reachable (plain : ∀ filter ∈ filters, filter.search = none)
    (gated : extractChannelIdFromFilters parseUuid filters = none →
      filterGates filters pubkey.toHex) :
    Reachable parseUuid (readerRelay parseUuid access communityId pubkey recorded filters) := by
  have allowed := reqRegisters_open plain gated
  have subscribe (relay : Relay) (session : Session)
      (found : relay.sessions readerConn = some session)
      (passed : session.authState = .authenticated pubkey) (unrestricted : relay.access = openAccess) :
      Step parseUuid relay (.register readerConn "feed" filters)
        (relay.apply (.registerScoped session.community readerConn "feed" filters
          (extractChannelIdFromFilters parseUuid filters))) := by
    apply Step.register found passed _ _ allowed
    · intro channelId _
      rw [unrestricted]
      rfl
    · intro channelId answer
      cases answer
  cases recorded with
  | true =>
    exact ⟨openAccess, [.connect readerConn communityId, .authenticate readerConn pubkey,
      .record readerConn, .register readerConn "feed" filters, .access access],
      .cons (.connect rfl) <|
      .cons (.authenticate (Relay.sessions_setSession_self ..) rfl) <|
      .cons (.record (Relay.sessions_setSession_self ..) rfl rfl) <|
      .cons (subscribe _ _ (Relay.sessions_setSession_self ..) rfl rfl) <|
      .cons .access <| .nil _⟩
  | false =>
    exact ⟨openAccess, [.connect readerConn communityId, .authenticate readerConn pubkey,
      .register readerConn "feed" filters, .access access],
      .cons (.connect rfl) <|
      .cons (.authenticate (Relay.sessions_setSession_self ..) rfl) <|
      .cons (subscribe _ _ (Relay.sessions_setSession_self ..) rfl rfl) <|
      .cons .access <| .nil _⟩

theorem readerRelay_session :
    (readerRelay parseUuid access communityId pubkey recorded filters).sessions readerConn =
      some ⟨communityId, .authenticated pubkey, readerKey pubkey recorded, true⟩ := by
  cases recorded <;> simp [readerRelay, authenticatedRelay, Relay.apply, readerKey]

theorem readerRelay_pubkey :
    (readerRelay parseUuid access communityId pubkey recorded filters).pubkeyForConn readerConn =
      readerKey pubkey recorded := by
  simp only [Relay.pubkeyForConn, Relay.entry, readerRelay_session, Option.filter_some, if_true,
    Option.bind_some]

theorem readerRelay_community :
    (readerRelay parseUuid access communityId pubkey recorded filters).communityForConn readerConn =
      some communityId := by
  simp only [Relay.communityForConn, Relay.entry, readerRelay_session, Option.filter_some, if_true,
    Option.map_some]

variable {stored : StoredEvent}

theorem readerRelay_isMatch
    (named : extractChannelIdFromFilters parseUuid filters = stored.channelId)
    (accepted : filtersMatch filters stored) :
    (readerRelay parseUuid access communityId pubkey recorded filters).registry.isMatch communityId
      stored (readerConn, "feed") := by
  rw [SubscriptionRegistry.isMatch_iff]
  refine ⟨filters, ?_, accepted⟩
  rw [← named]
  exact (SubscriptionRegistry.lookupSub_registerScoped ..).trans (if_pos rfl)

theorem readerRelay_carries (stored : StoredEvent) (path : DeliveryPath) :
    (readerRelay parseUuid access communityId pubkey recorded filters).carries communityId stored
      path := by
  cases path with
  | accepting published | localSubscribers => exact trivial
  | pubsub => cases recorded <;> exact not_mem_nil

/-- Just if the gates of the path let its key through. -/
theorem readerRelay_receives {threaded : Option ThreadedChannelVisibility}
    (plain : ∀ filter ∈ filters, filter.search = none)
    (gated : extractChannelIdFromFilters parseUuid filters = none →
      filterGates filters pubkey.toHex)
    (named : extractChannelIdFromFilters parseUuid filters = stored.channelId)
    (accepted : filtersMatch filters stored) (path : DeliveryPath) :
    (readerConn, "feed") ∈ (readerRelay parseUuid access communityId pubkey recorded
        filters).deliveries communityId stored threaded path ↔
      kindAdmits stored.event (readerKey pubkey recorded) ∧
        access.channelAdmits communityId stored.channelId (path.threaded threaded)
          (readerKey pubkey recorded) ∧
        path.ownerAdmits stored.event (readerKey pubkey recorded) := by
  have reachable : Reachable parseUuid
      (readerRelay parseUuid access communityId pubkey recorded filters) :=
    readerRelay_reachable plain gated
  rw [mem_deliveries (wellFormed_reachable reachable), readerRelay_pubkey]
  simp only [readerRelay_carries, readerRelay_isMatch named accepted, readerRelay_community,
    true_and]
  rfl

end reader

section necessity

variable {parseUuid : String → Option Uuid} {access : Access} {communityId : CommunityId}
  {event : PlacedEvent} {threaded : Option ThreadedChannelVisibility}

def byteKey (byte : UInt8) : PublicKey := .fill byte

theorem exists_other_key (owner : Option String) :
    ∃ pubkey : PublicKey, owner ≠ some pubkey.toHex := by
  by_contra everybody
  push Not at everybody
  have same : (byteKey 0).toHex = (byteKey 1).toHex :=
    Option.some.inj ((everybody (byteKey 0)).symm.trans (everybody (byteKey 1)))
  have impossible : byteKey 0 ≠ byteKey 1 := by decide
  exact impossible (toHex_injective same)

def idFilter (id : EventId) : Filter := ⟨some [id], none, none, none, none, none, none, ∅⟩

theorem idFilter_matches (stored : StoredEvent) :
    filtersMatch [idFilter stored.event.id] stored := by
  have itself : stored.event.id.toHex.toList.isPrefixOf stored.event.id.toHex.toList :=
    isPrefixOf_iff_prefix.mpr (prefix_refl _)
  have noTags : (∅ : AList fun _ : SingleLetterTag => List String).entries = [] := rfl
  simp [filtersMatch, filterMatchOne, idFilter, itself, noTags]

theorem idFilter_global (id : EventId) :
    extractChannelIdFromFilters parseUuid [idFilter id] = none := rfl

section

variable (enforced : Enforced parseUuid access communityId event threaded)

include enforced

variable {pubkey : PublicKey} {filters : List Filter}

theorem Enforced.reader_agree (recorded : Bool) (plain : ∀ filter ∈ filters, filter.search = none)
    (gated : extractChannelIdFromFilters parseUuid filters = none →
      filterGates filters pubkey.toHex)
    (named : extractChannelIdFromFilters parseUuid filters = event.stored.channelId)
    (accepted : filtersMatch filters event.stored) :
    (kindAdmits event.stored.event (readerKey pubkey recorded) ∧
        access.channelAdmits communityId event.stored.channelId threaded
          (readerKey pubkey recorded) ∧
        ownerAdmits event.stored.event (readerKey pubkey recorded)) ↔
      kindAdmits event.stored.event (readerKey pubkey recorded) ∧
        access.channelAdmits communityId event.stored.channelId none
          (readerKey pubkey recorded) := by
  have reachable : Reachable parseUuid
      (readerRelay parseUuid access communityId pubkey recorded filters) :=
    readerRelay_reachable plain gated
  have same := enforced.agree _ reachable rfl (.accepting true) .localSubscribers
    (readerRelay_carries ..) (readerRelay_carries ..) (readerConn, "feed")
  rw [readerRelay_receives plain gated named accepted,
    readerRelay_receives plain gated named accepted] at same
  simpa only [DeliveryPath.threaded, DeliveryPath.ownerAdmits, and_true] using same

theorem Enforced.reader_entitled (plain : ∀ filter ∈ filters, filter.search = none)
    (gated : extractChannelIdFromFilters parseUuid filters = none →
      filterGates filters pubkey.toHex)
    (named : extractChannelIdFromFilters parseUuid filters = event.stored.channelId)
    (accepted : filtersMatch filters event.stored)
    (kinds : kindAdmits event.stored.event (some pubkey))
    (channels : access.channelAdmits communityId event.stored.channelId none (some pubkey)) :
    eventVisibleToReader event.stored.event pubkey ∧
      ∀ channelId, event.stored.channelId = some channelId →
        access.channels communityId channelId = some "private" →
          access.members communityId channelId pubkey := by
  have reachable : Reachable parseUuid
      (readerRelay parseUuid access communityId pubkey true filters) :=
    readerRelay_reachable plain gated
  have sent : (readerConn, "feed") ∈ (readerRelay parseUuid access communityId pubkey true
      filters).deliveries communityId event.stored threaded .localSubscribers := by
    rw [readerRelay_receives plain gated named accepted]
    exact ⟨kinds, channels, rfl⟩
  obtain ⟨session, holder, present, -, passed, visible, member⟩ :=
    enforced.entitled _ reachable rfl .localSubscribers _ sent
  rw [readerRelay_session, Option.some.injEq] at present
  subst present
  have same : pubkey = holder := AuthState.authenticated.inj passed
  rw [same]
  exact ⟨visible, member⟩

/-- The other two paths send a viewer-private event to a foreign reader. -/
theorem Enforced.not_resultGated (anywhere : event.stored.channelId = none) :
    eventKindU32 event.stored.event ∉ resultGatedKinds := by
  intro gated
  obtain ⟨pubkey, other⟩ := exists_other_key (tagContents "p" event.stored.event.tags).head?
  have plain : ∀ filter ∈ [idFilter event.stored.event.id], filter.search = none := by
    simp [idFilter]
  have gates : filterGates [idFilter event.stored.event.id] pubkey.toHex :=
    filterGates_idsOnly [event.stored.event.id] (by simp) _
  have named := (@idFilter_global parseUuid event.stored.event.id).trans anywhere.symm
  have accepted := idFilter_matches event.stored
  have kind : eventKindU32 event.stored.event = kindDmVisibility ∨
      eventKindU32 event.stored.event = kindAgentTurnMetric := by
    simpa [resultGatedKinds] using gated
  have kinds : kindAdmits event.stored.event (some pubkey) := by
    apply kindAdmits_of_ungated <;> rcases kind with kind | kind <;> rw [kind] <;> decide
  have channels : access.channelAdmits communityId event.stored.channelId none (some pubkey) =
      true := by
    rw [anywhere]
    rfl
  have visible := (enforced.reader_entitled plain (fun _ => gates) named accepted kinds channels).1
  have agreed := (enforced.reader_agree true plain (fun _ => gates) named accepted).mpr
    ⟨kinds, channels⟩
  have owner := agreed.2.2
  rw [ownerAdmits, privateEventOwner, if_pos kind] at owner
  have tagged : (tagContents "p" event.stored.event.tags).contains pubkey.toHex := by
    have authorized := (eventVisibleToReader_iff.mp visible).2.2
    rwa [readerAuthorizedForEvent, if_neg (by tauto)] at authorized
  cases contents : tagContents "p" event.stored.event.tags with
  | nil =>
    rw [contents] at tagged
    cases tagged
  | cons first rest =>
    rw [contents, head?_cons] at owner other
    have same : pubkey.toHex = first := eq_of_beq owner
    exact other (congrArg some same.symm)

theorem Enforced.membershipFresh
    {channelId : Uuid} (inChannel : event.stored.channelId = some channelId)
    (requested : Requested parseUuid channelId event.stored) :
    MembershipFresh access communityId channelId := by
  intro isPrivate readable pubkey cached
  obtain ⟨filters, plain, named, accepted⟩ := requested
  have ungated := event.ungated inChannel
  have channels : access.channelAdmits communityId event.stored.channelId none (some pubkey) =
      true := by
    have read : access.channelVisibilityCached communityId channelId = .ok "private" := by
      rw [channelVisibilityCached_of_private isPrivate, if_pos (by simpa using readable)]
    simp [inChannel, Access.channelAdmits, Access.visibilityRead, read, Access.keptByMembership,
      Access.isMemberCached, cached]
  have entitled := enforced.reader_entitled plain (fun anywhere => nomatch named.symm.trans anywhere)
    (named.trans inChannel.symm) accepted (kindAdmits_of_ungated ungated.1 ungated.2.1 _) channels
  exact entitled.2 channelId inChannel isPrivate

theorem Enforced.threadedFresh
    {channelId : Uuid} (inChannel : event.stored.channelId = some channelId)
    (requested : Requested parseUuid channelId event.stored) :
    ThreadedFresh access communityId channelId threaded := by
  intro key
  obtain ⟨filters, plain, named, accepted⟩ := requested
  have ungated := event.ungated inChannel
  have agreed (pubkey : PublicKey) (recorded : Bool) :=
    @Enforced.reader_agree _ _ _ _ _ enforced pubkey filters recorded plain
      (fun anywhere => nomatch named.symm.trans anywhere) (named.trans inChannel.symm) accepted
  simp only [kindAdmits_of_ungated ungated.1 ungated.2.1,
    ownerAdmits_of_not_resultGated ungated.2.2, true_and, and_true, inChannel] at agreed
  rw [Bool.eq_iff_iff]
  cases key with
  | none => exact agreed (byteKey 0) false
  | some pubkey => exact agreed pubkey true

theorem safeguarded_of_enforced :
    Safeguarded parseUuid access communityId event threaded := by
  unfold Safeguarded
  cases inChannel : event.stored.channelId with
  | none => exact enforced.not_resultGated inChannel
  | some channelId =>
    intro requested
    exact ⟨enforced.membershipFresh inChannel requested,
      enforced.threadedFresh inChannel requested⟩

end

end necessity

theorem deliveries_enforced_iff (parseUuid : String → Option Uuid) (access : Access)
    (communityId : CommunityId) (event : PlacedEvent)
    (threaded : Option ThreadedChannelVisibility) :
    Enforced parseUuid access communityId event threaded ↔
      Safeguarded parseUuid access communityId event threaded := by
  constructor
  · exact safeguarded_of_enforced
  · exact enforced_of_safeguarded

def homeCommunity : CommunityId := ⟨.fill 7⟩

def turnMetric : Event :=
  ⟨byteKey 9, byteKey 1, 100, 44200, [⟨["p", (byteKey 2).toHex], by simp⟩], "", []⟩

def foreignRelay : Relay :=
  readerRelay (fun _ => none) openAccess homeCommunity (byteKey 3) true [idFilter turnMetric.id]

theorem turnMetric_owner : tagContents "p" turnMetric.tags = [(byteKey 2).toHex] := by
  simp [turnMetric, tagContents, Tag.kind, Tag.content]

theorem toHex_ne_owner : (byteKey 3).toHex ≠ (byteKey 2).toHex := by
  intro same
  have impossible : byteKey 3 ≠ byteKey 2 := by decide
  exact impossible (toHex_injective same)

theorem turnMetric_hidden : eventVisibleToReader turnMetric (byteKey 3) = false := by
  have kind : ¬(eventKindU32 turnMetric ≠ kindDmVisibility ∧
      eventKindU32 turnMetric ≠ kindAgentTurnMetric) := by decide
  rw [Bool.eq_false_iff]
  intro visible
  have authorized := (eventVisibleToReader_iff.mp visible).2.2
  rw [readerAuthorizedForEvent, if_neg kind, turnMetric_owner] at authorized
  exact toHex_ne_owner (by simpa using authorized)

/-- The other pod sends it the metric. -/
theorem metric_leaks_across_pods :
    Reachable (fun _ => none) foreignRelay ∧
      (readerConn, "feed") ∉ (foreignRelay.dispatchPersistentEventInner homeCommunity
        ⟨turnMetric, none⟩ 44200 true none).2 ∧
      (readerConn, "feed") ∈ (foreignRelay.fanOutPubsubEvent
        ⟨homeCommunity, .global, turnMetric⟩).2 ∧
      ¬ foreignRelay.Entitled homeCommunity ⟨turnMetric, none⟩ readerConn := by
  have plain : ∀ filter ∈ [idFilter turnMetric.id], filter.search = none := by
    simp [idFilter]
  have gates : filterGates [idFilter turnMetric.id] (byteKey 3).toHex :=
    filterGates_idsOnly [turnMetric.id] (by simp) _
  have receives (path : DeliveryPath) :=
    @readerRelay_receives (fun _ => none) openAccess homeCommunity (byteKey 3) true _
      ⟨turnMetric, none⟩ none plain (fun _ => gates) rfl (idFilter_matches ⟨turnMetric, none⟩) path
  have leftOut : ownerAdmits turnMetric (some (byteKey 3)) = false := by
    have kind : eventKindU32 turnMetric = kindDmVisibility ∨
        eventKindU32 turnMetric = kindAgentTurnMetric := by decide
    rw [ownerAdmits, privateEventOwner, if_pos kind, turnMetric_owner]
    simpa [keptByOwnerGate] using toHex_ne_owner
  refine ⟨readerRelay_reachable plain fun _ => gates, ?_, ?_, ?_⟩
  · intro sent
    have admitted := ((receives (.accepting true)).mp sent).2.2
    cases leftOut.symm.trans admitted
  · exact (receives .pubsub).mpr ⟨by decide, rfl, rfl⟩
  · rintro ⟨session, pubkey, present, -, passed, visible, -⟩
    have session := readerRelay_session.symm.trans present
    rw [Option.some.injEq] at session
    subst session
    have same : byteKey 3 = pubkey := AuthState.authenticated.inj passed
    rw [← same, turnMetric_hidden] at visible
    cases visible

end Buzz.Delivery
