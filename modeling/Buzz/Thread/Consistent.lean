import Buzz.Library.Runs
import Buzz.Thread.Confined

/-! Thread ancestry over every interleaving of ingests. -/

namespace Buzz.Thread

open Nostr Buzz.Req Library List Option
open Buzz.Library.Forest (Node)
open Library.Runs

/-- A parent without a thread row has the reply's root, or it is no direct reply. -/
def Ingest.Within (ingest : Ingest) (community : Community) : Prop :=
  ∀ parent parentEvent root, ingest.inScope → ingest.parent = some parent →
    ingest.parentEvent = some (some parentEvent) → parentEvent.channelId = ingest.channelId →
      ingest.parentMetadata = some none → taggedRoot parentEvent.event.tags = some root →
        ingest.clientRoot = some root → community.hasEvent ingest.event.id = false →
          ∃ row ∈ community.threads, row.eventId = parent ∧ row.rootEventId = some root ∧
            row.depth = 1

def IngestStep.Within (relay : Relay) : IngestStep → Prop
  | .store index => ∀ ingest, relay.ingests[index]? = some ingest →
      ingest.Within (relay.community ingest.communityId)
  | _ => True

section ingests

variable {ingest : Ingest} {community : Community} {thread : ThreadMetadata}

structure Ingest.Accepts (ingest : Ingest) (thread : ThreadMetadata) (channel : Uuid)
    (parent root : EventId) (parentEvent : MessageRow) : Prop where
  inScope : ingest.inScope
  inChannel : ingest.channelId = some channel
  isParent : ingest.parent = some parent
  isRead : ingest.parentEvent.join = some parentEvent
  parentChannel : parentEvent.channelId = some channel
  clientRoot : ingest.clientRoot = some root
  isRoot : root = effectiveRoot parent parentEvent ingest.parentMetadata.join
  bounded : replyDepth parent root ingest.parentMetadata.join ≤ depthLimit
  isThread : thread = Community.Fitting.metadata parent root parentEvent.createdAt
    (rootCreatedAt parentEvent ingest.rootEvent.join)
    (replyDepth parent root ingest.parentMetadata.join)

theorem resolveUnder_ok {parent clientRoot : EventId} {parentEvent : MessageRow}
    {metadata : Option ThreadRow} {rootEvent : Option MessageRow}
    (resolved : resolveUnder parent parentEvent clientRoot metadata rootEvent = .ok (some thread)) :
    clientRoot = effectiveRoot parent parentEvent metadata ∧
      replyDepth parent clientRoot metadata ≤ depthLimit ∧
        thread = Community.Fitting.metadata parent clientRoot parentEvent.createdAt
          (rootCreatedAt parentEvent rootEvent) (replyDepth parent clientRoot metadata) := by
  unfold resolveUnder at resolved
  dsimp only at resolved
  split at resolved
  · cases resolved
  next sameRoot =>
    have isRoot := Decidable.not_not.mp sameRoot
    rw [← isRoot] at resolved
    split at resolved
    · cases resolved
    next notDeep =>
      cases resolved
      exact ⟨isRoot, Int.not_lt.mp notDeep, rfl⟩

theorem threadMeta_ok (accepted : ingest.threadMeta = .ok (some thread)) :
    ∃ channel parent root parentEvent, ingest.Accepts thread channel parent root parentEvent := by
  unfold Ingest.threadMeta at accepted
  split at accepted
  next inScope =>
    split at accepted
    next channel inChannel =>
      unfold resolveNip10ThreadMeta at accepted
      split at accepted
      · cases accepted
      next rootText parentText isReply =>
        split at accepted
        · cases accepted
        · cases accepted
        next parent parentEvent isParent isRead =>
          split at accepted
          · cases accepted
          next parentChannel inParentChannel =>
            split at accepted
            · cases accepted
            next sameChannel =>
              split at accepted
              · cases accepted
              next clientRoot isClientRoot =>
                have checked := resolveUnder_ok accepted
                exact ⟨channel, parent, clientRoot, parentEvent, inScope, inChannel,
                  by rw [Ingest.parent, isReply, bind_some, isParent], isRead,
                  by rw [inParentChannel, Decidable.not_not.mp sameChannel],
                  by rw [Ingest.clientRoot, isReply, bind_some, isClientRoot],
                  checked.1, checked.2.1, checked.2.2⟩
    · cases accepted
  · cases accepted

theorem taggedRoot_of_parent {parent : EventId} (isParent : ingest.parent = some parent) :
    taggedRoot ingest.event.tags ≠ none := by
  intro untagged
  obtain ⟨texts, isReply, decoded⟩ := bind_eq_some_iff.mp isParent
  have isText : ownMarker "reply" ingest.event.tags = some texts.2 := by
    unfold replyTexts at isReply
    split at isReply
    next known =>
      cases isReply
      exact known
    next known =>
      cases isReply
      exact known
    · cases isReply
  obtain ⟨tag, member, isValue⟩ := exists_of_findSome?_eq_some isText
  have value := (filter_eq_some_iff.mp isValue).1
  have noReply := (or_eq_none_iff.mp untagged).2
  have absent := findSome?_eq_none_iff.mp noReply tag (mem_reverse.mp member)
  rw [value, bind_some, decoded] at absent
  cases absent

structure Ingest.Sound (ingest : Ingest) (community : Community) : Prop where
  parentRead : ∀ parentEvent, ingest.parentEvent = some (some parentEvent) →
    ingest.parent = some parentEvent.event.id ∧ (parentEvent.channelId ≠ none →
      ∃ kept ∈ community.messages, kept.event = parentEvent.event ∧
        kept.createdAt = parentEvent.createdAt ∧ kept.channelId = parentEvent.channelId)
  metadataRead : ∀ row, ingest.parentMetadata = some (some row) →
    ingest.parent = some row.eventId ∧ row.node ∈ nodesOf community.threads

theorem Ingest.Sound.mono (sound : ingest.Sound community) {after : Community}
    (keeps : Keeps community after) : ingest.Sound after where
  parentRead parentEvent isRead := by
    have known := sound.parentRead parentEvent isRead
    refine ⟨known.1, fun placed => ?_⟩
    obtain ⟨old, isOld, sameEvent, sameTime, sameChannel⟩ := known.2 placed
    obtain ⟨kept, isKept, keptEvent, keptTime, keptChannel⟩ :=
      keeps.messages old isOld (sameChannel ▸ placed)
    exact ⟨kept, isKept, keptEvent.trans sameEvent, keptTime.trans sameTime,
      keptChannel.trans sameChannel⟩
  metadataRead row isRead := by
    have known := sound.metadataRead row isRead
    exact ⟨known.1, keeps.nodes known.2⟩

variable {channel : Uuid} {parent root : EventId} {parentEvent : MessageRow}

section

variable (accepts : ingest.Accepts thread channel parent root parentEvent)

include accepts

section

variable (read : ingest.Sound community)

include read

theorem Ingest.Accepts.noChild (sound : community.Sound)
    (untagged : taggedRoot parentEvent.event.tags = none) :
    ∀ row ∈ community.threads, row.eventId = parent → row.parentEventId = none := by
  intro row member same
  by_contra isChild
  have known := read.parentRead parentEvent (join_eq_some_iff.mp accepts.isRead)
  obtain ⟨kept, isKept, sameEvent, -⟩ := known.2 (by rw [accepts.parentChannel]; nofun)
  obtain ⟨own, isOwn, ownId, -, tagged⟩ := sound.timed row member isChild
  have isParent : parent = parentEvent.event.id :=
    Option.some.inj (accepts.isParent.symm.trans known.1)
  have equal := sound.unique own isOwn kept isKept (by rw [ownId, same, sameEvent, isParent])
  rw [equal, sameEvent] at tagged
  exact tagged untagged

theorem Ingest.Accepts.above (sound : community.Sound)
    (asked : ingest.parentMetadata.isSome) (within : ingest.Within community)
    (fresh : community.hasEvent ingest.event.id = false) :
    (∃ row ∈ community.threads, row.eventId = parent ∧ root = row.rootEventId.getD parent ∧
      replyDepth parent root ingest.parentMetadata.join = row.depth + 1) ∨
    (root = parent ∧ replyDepth parent root ingest.parentMetadata.join = 1 ∧
      ∀ row ∈ community.threads, row.eventId = parent → row.parentEventId = none) := by
  obtain ⟨metadata, isMetadata⟩ := isSome_iff_exists.mp asked
  have isRoot := accepts.isRoot
  rw [isMetadata, join_some] at isRoot ⊢
  cases metadata with
  | some row =>
    left
    have known := read.metadataRead row isMetadata
    obtain ⟨now, isNow, same⟩ := known.2
    have isParent : row.eventId = parent :=
      Option.some.inj (known.1.symm.trans accepts.isParent)
    have sameId : now.eventId = row.eventId := congrArg Node.id same
    have sameRoot : now.rootEventId = row.rootEventId := congrArg Node.root same
    have sameDepth : now.depth = row.depth := congrArg Node.depth same
    exact ⟨now, isNow, sameId.trans isParent, sameRoot ▸ isRoot, by rw [sameDepth]; rfl⟩
  | none =>
    cases tagged : taggedRoot parentEvent.event.tags with
    | none =>
      right
      have isParent : root = parent := by
        rw [isRoot, effectiveRoot, tagged, getD_none]
      exact ⟨isParent, if_pos isParent, accepts.noChild read sound tagged⟩
    | some top =>
      left
      have isTop : root = top := by rw [isRoot, effectiveRoot, tagged, getD_some]
      subst isTop
      obtain ⟨row, member, same, rowRoot, isDepth⟩ :=
        within parent parentEvent root accepts.inScope accepts.isParent
          (join_eq_some_iff.mp accepts.isRead)
          (accepts.parentChannel.trans accepts.inChannel.symm) isMetadata tagged
          accepts.clientRoot fresh
      have apart : root ≠ parent := by
        rintro rfl
        have rooted := sound.forest.rooted _ (node_mem member) root rowRoot
        have equal := sound.forest.agree _ (node_mem member) _ rooted.1 same
        have noRoot : row.rootEventId = none := congrArg Node.root equal
        rw [noRoot] at rowRoot
        cases rowRoot
      refine ⟨row, member, same, by rw [rowRoot, getD_some], ?_⟩
      rw [isDepth]
      exact if_neg apart

theorem Ingest.Accepts.fitting (sound : community.Sound)
    (asked : ingest.parentMetadata.isSome) (within : ingest.Within community)
    (fresh : community.hasEvent ingest.event.id = false) :
    community.Fitting ingest.channelId parent root parentEvent.createdAt
      (replyDepth parent root ingest.parentMetadata.join) where
  placed := by
    rw [accepts.inChannel]
    nofun
  known := by
    have known := read.parentRead parentEvent (join_eq_some_iff.mp accepts.isRead)
    obtain ⟨kept, isKept, sameEvent, sameTime, sameChannel⟩ :=
      known.2 (by rw [accepts.parentChannel]; nofun)
    have isParent : parent = parentEvent.event.id :=
      Option.some.inj (accepts.isParent.symm.trans known.1)
    exact ⟨kept, isKept, by rw [sameEvent, isParent], sameTime,
      by rw [sameChannel, accepts.parentChannel, accepts.inChannel]⟩
  bounded := accepts.bounded
  above := accepts.above read sound asked within fresh

end

end

end ingests

structure Relay.Sound (relay : Relay) : Prop where
  community : ∀ communityId, (relay.community communityId).Sound
  ingest : ∀ ingest ∈ relay.ingests, ingest.Sound (relay.community ingest.communityId)

namespace Relay.Sound

variable {relay : Relay} {communityId : CommunityId} {after : Community} {ingest : Ingest}
  {index : ℕ}

theorem start : Relay.start.Sound where
  community _ := .empty
  ingest _ member := nomatch member

section

variable (sound : relay.Sound)

include sound

theorem setCommunity (next : after.Sound)
    (keeps : Keeps (relay.community communityId) after) :
    (relay.setCommunity communityId after).Sound where
  community other := by
    unfold Relay.setCommunity
    dsimp only
    split
    · exact next
    · exact sound.community other
  ingest ingest member := by
    have known := sound.ingest ingest member
    unfold Relay.setCommunity
    dsimp only
    split
    next same =>
      rw [same] at known
      exact known.mono keeps
    · exact known

theorem setIngest (next : ingest.Sound (relay.community ingest.communityId)) :
    (relay.setIngest index ingest).Sound where
  community := sound.community
  ingest other member := by
    rcases mem_or_eq_of_mem_set member with old | rfl
    · exact sound.ingest other old
    · exact next

theorem arrive (event : Event) (channelId : Option Uuid) :
    (relay.step (.arrive communityId event channelId)).Sound where
  community := sound.community
  ingest ingest member := by
    rcases mem_append.mp member with old | own
    · exact sound.ingest ingest old
    · rw [mem_singleton.mp own]
      exact ⟨nofun, nofun⟩

section

variable (member : ingest ∈ relay.ingests)

include member

theorem readParent :
    (relay.readParent index ingest).Sound := by
  have known := sound.ingest ingest member
  apply sound.setIngest
  refine ⟨fun parentEvent isRead => ?_, known.metadataRead⟩
  obtain ⟨parent, isParent, found⟩ := bind_eq_some_iff.mp (Option.some.inj isRead)
  have selected := find?_some found
  simp only [Bool.and_eq_true, decide_eq_true_eq] at selected
  have isId := selected.1
  exact ⟨isId ▸ isParent, fun _ => ⟨parentEvent, mem_of_find?_eq_some found, rfl, rfl, rfl⟩⟩

theorem readMetadata {pick : ℕ} :
    (relay.readMetadata index ingest pick).Sound := by
  have known := sound.ingest ingest member
  apply sound.setIngest
  refine ⟨known.parentRead, fun row isRead => ?_⟩
  obtain ⟨parent, isParent, found⟩ := bind_eq_some_iff.mp (Option.some.inj isRead)
  obtain ⟨isRow, isId⟩ := mem_filter.mp (mem_of_getElem? found)
  exact ⟨of_decide_eq_true isId ▸ isParent, node_mem isRow⟩

theorem readRoot {queried : Bool} :
    (relay.readRoot index ingest queried).Sound := by
  have known := sound.ingest ingest member
  exact sound.setIngest ⟨known.parentRead, known.metadataRead⟩

end

theorem finish (known : ingest.Sound (relay.community ingest.communityId)) :
    (relay.setIngest index { ingest with finished := true }).Sound :=
  sound.setIngest ⟨known.parentRead, known.metadataRead⟩

end

theorem asked_of_ready {thread : ThreadMetadata} {channel : Uuid} {parent root : EventId}
    {parentEvent : MessageRow} (accepts : ingest.Accepts thread channel parent root parentEvent)
    (ready : ingest.ready) : ingest.parentMetadata.isSome := by
  unfold Ingest.ready at ready
  rw [accepts.inScope, accepts.isParent] at ready
  simp only [Bool.not_true, isNone_some, Bool.false_or, Bool.and_eq_true] at ready
  exact ready.1.2

section

variable (sound : relay.Sound)

include sound

theorem storeEvent (member : ingest ∈ relay.ingests)
    (ready : ingest.ready)
    (within : ingest.Within (relay.community ingest.communityId)) {thread : Option ThreadMetadata}
    (accepted : ingest.threadMeta = .ok thread) :
    ((relay.community ingest.communityId).storeEvent ingest.event ingest.channelId
      thread).Sound := by
  have isSound := sound.community ingest.communityId
  cases thread with
  | none => exact isSound.storeEvent_none
  | some thread =>
    rcases storeEvent_cases (relay.community ingest.communityId) ingest.event ingest.channelId
      (some thread) with same | ⟨fresh, createdAt, same⟩
    · rw [same]
      exact isSound
    · obtain ⟨channel, parent, root, parentEvent, accepts⟩ := threadMeta_ok accepted
      have fitting := accepts.fitting (sound.ingest ingest member) isSound
        (asked_of_ready accepts ready) within fresh
      rw [same, accepts.isThread]
      exact fitting.insert_sound isSound fresh (taggedRoot_of_parent accepts.isParent)

theorem store (member : ingest ∈ relay.ingests)
    (ready : ingest.ready)
    (within : ingest.Within (relay.community ingest.communityId)) :
    (relay.store index ingest).Sound := by
  have known := sound.ingest ingest member
  unfold Relay.store
  split
  · exact sound.finish known
  next thread accepted =>
    have stored := sound.storeEvent member ready within accepted
    apply (sound.setCommunity stored .storeEvent).finish
    change ingest.Sound (if ingest.communityId = ingest.communityId then _ else _)
    rw [if_pos rfl]
    exact known.mono .storeEvent

theorem guarded {allowed : Ingest → Bool} {next : Ingest → Relay}
    (each : ∀ ingest, relay.ingests[index]? = some ingest → allowed ingest →
      (next ingest).Sound) :
    (match relay.ingests[index]? with
      | some ingest => if allowed ingest then next ingest else relay
      | none => relay).Sound := by
  cases isIngest : relay.ingests[index]? with
  | none => exact sound
  | some ingest =>
    dsimp only
    split
    next isAllowed => exact each ingest isIngest isAllowed
    · exact sound

theorem step (step : IngestStep) (within : step.Within relay) :
    (relay.step step).Sound := by
  cases step with
  | arrive communityId event channelId => exact sound.arrive event channelId
  | readParent index =>
    exact sound.guarded fun ingest isIngest _ => sound.readParent (mem_of_getElem? isIngest)
  | readMetadata index pick =>
    exact sound.guarded fun ingest isIngest _ =>
      sound.readMetadata (mem_of_getElem? isIngest)
  | readRoot index queried =>
    exact sound.guarded fun ingest isIngest _ => sound.readRoot (mem_of_getElem? isIngest)
  | store index =>
    exact sound.guarded fun ingest isIngest allowed =>
      sound.store (mem_of_getElem? isIngest) (Bool.and_eq_true_iff.mp allowed).1
        (within ingest isIngest)
  | write communityId event channelId =>
    exact sound.setCommunity (sound.community communityId).storeEvent_none .storeEvent
  | sendMessage communityId event channelId =>
    exact sound.setCommunity (sound.community communityId).storeEvent_topLevel .storeEvent
  | delete communityId id parent root =>
    exact sound.setCommunity (sound.community communityId).softDelete .softDelete
  | purge communityId id =>
    exact sound.setCommunity (sound.community communityId).purge .purge

end

end Relay.Sound

theorem ancestry_consistent (steps : List IngestStep)
    (within : EachStep Relay.step (fun relay step => step.Within relay) .start steps) :
    EachStep Relay.step
      (fun relay step => ∀ communityId, ((relay.step step).community communityId).Consistent)
      .start steps :=
  within.ensures (fun _ step sound allowed => sound.step step allowed)
    (fun _ step sound allowed _ => ((sound.step step allowed).community _).consistent)
    Relay.Sound.start

theorem IngestStep.within_untagged {relay : Relay} {index : ℕ}
    (untagged : ((relay.ingests[index]?).bind fun ingest => ingest.parentEvent.join.bind
      fun parentEvent => taggedRoot parentEvent.event.tags) = none) :
    (IngestStep.store index).Within relay := by
  intro ingest isIngest parent parentEvent root _ _ isRead _ _ tagged
  rw [isIngest, bind_some, isRead, join_some, bind_some, tagged] at untagged
  cases untagged

def sampleId (byte : UInt8) : EventId := .fill byte

def sampleUuid (byte : UInt8) : Uuid := .fill byte

def sampleCommunity : CommunityId := ⟨sampleUuid 7⟩

def sampleMessage (byte : UInt8) (marked : List (EventId × String)) : Event where
  id := sampleId byte
  pubkey := .fill 9
  createdAt := 100
  kind := 9
  tags := marked.map fun (id, marker) => ⟨["e", id.toHex, "", marker], by simp⟩
  content := ""
  sig := []

def post (index : ℕ) (event : Event) (channelId : Uuid) : List IngestStep :=
  [.arrive sampleCommunity event (some channelId), .readParent index, .readMetadata index 0,
    .readRoot index true, .store index]

theorem direct_reply_consistent : EachStep Relay.step
    (fun relay step => ∀ communityId, ((relay.step step).community communityId).Consistent) .start
    (post 0 (sampleMessage 1 []) (sampleUuid 5) ++
      post 1 (sampleMessage 2 [(sampleId 1, "reply")]) (sampleUuid 5)) :=
  ancestry_consistent _
    ⟨trivial, trivial, trivial, trivial, IngestStep.within_untagged (by decide +kernel), trivial,
      trivial, trivial, trivial, IngestStep.within_untagged (by decide +kernel), trivial⟩

/-- Its parent has a root marker alone. -/
def foreignRoot : Relay :=
  (post 0 (sampleMessage 1 []) (sampleUuid 5) ++
    post 1 (sampleMessage 2 [(sampleId 1, "root")]) (sampleUuid 6) ++
    post 2 (sampleMessage 3 [(sampleId 1, "root"), (sampleId 2, "reply")]) (sampleUuid 6)).foldl
      Relay.step .start

theorem foreign_root_kept : ¬ (foreignRoot.community sampleCommunity).Consistent := by
  intro consistent
  have placed : ((foreignRoot.community sampleCommunity).messages.map fun message =>
      (message.event.id, message.channelId)) = [(sampleId 1, some (sampleUuid 5)),
        (sampleId 2, some (sampleUuid 6)), (sampleId 3, some (sampleUuid 6))] := by
    decide +kernel
  have only : ∀ channel id, (foreignRoot.community sampleCommunity).Holds channel id →
      (id, some channel) ∈ [(sampleId 1, some (sampleUuid 5)),
        (sampleId 2, some (sampleUuid 6)), (sampleId 3, some (sampleUuid 6))] := by
    rintro channel id ⟨message, member, rfl, isChannel⟩
    rw [← placed, ← isChannel]
    exact mem_map_of_mem member
  have replied : (⟨sampleId 3, some (sampleId 2), some (sampleId 1), 2⟩ : Node EventId) ∈
      (foreignRoot.community sampleCommunity).threads.map ThreadRow.node := by
    decide +kernel
  obtain ⟨row, member, isRow⟩ := mem_map.mp replied
  have isReply : row.eventId = sampleId 3 := congrArg Node.id isRow
  have isRoot : row.rootEventId = some (sampleId 1) := congrArg Node.root isRow
  obtain ⟨channel, root, ofReply, -, ofRoot, rowRoot, -⟩ :=
    consistent.1 row member (sampleId 2) (congrArg Node.parent isRow)
  rw [isRoot, Option.some.injEq] at rowRoot
  have replyChannel := only channel _ (isReply ▸ ofReply)
  have rootChannel := only channel _ (rowRoot ▸ ofRoot)
  have apart : sampleId 3 ≠ sampleId 1 ∧ sampleId 3 ≠ sampleId 2 ∧ sampleId 1 ≠ sampleId 2 ∧
      sampleUuid 5 ≠ sampleUuid 6 := by
    decide +kernel
  simp only [mem_cons, Prod.mk.injEq, Option.some.injEq, not_mem_nil, or_false,
    apart.1, apart.2.1, false_and, true_and, false_or] at replyChannel
  simp only [mem_cons, Prod.mk.injEq, Option.some.injEq, not_mem_nil, or_false,
    apart.1.symm, apart.2.2.1, false_and, true_and] at rootChannel
  exact apart.2.2.2 (rootChannel.symm.trans replyChannel)

end Buzz.Thread
