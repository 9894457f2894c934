import Buzz.Library.Forest
import Buzz.Thread.Ancestry

/-! The thread rows of a community as a forest within its channels: what each statement keeps of it,
and which metadata of a reply adds to it. -/

namespace Buzz.Thread

open Nostr Buzz.Req Library List Option
open Buzz.Library.Forest (Node)

def Community.channelOf (self : Community) (id : EventId) : Option Uuid :=
  (self.messages.find? (·.event.id = id)).bind MessageRow.channelId

def Community.Holds (self : Community) (channel : Uuid) (id : EventId) : Prop :=
  ∃ message ∈ self.messages, message.event.id = id ∧ message.channelId = some channel

/-- In the parent's tree and one deeper. -/
def Community.Descends (self : Community) (row : ThreadRow) (parent : EventId) : Prop :=
  ∃ channel root, self.Holds channel row.eventId ∧ self.Holds channel parent ∧
    self.Holds channel root ∧ row.rootEventId = some root ∧ row.depth ≤ depthLimit ∧
      (∃ parentRow ∈ self.threads, parentRow.eventId = parent) ∧
        ∀ parentRow ∈ self.threads, parentRow.eventId = parent →
          row.depth = parentRow.depth + 1 ∧
            if parentRow.parentEventId = none then root = parent
            else parentRow.rootEventId = some root

def Community.Consistent (self : Community) : Prop :=
  (∀ row ∈ self.threads, ∀ parent, row.parentEventId = some parent → self.Descends row parent) ∧
    ∀ row ∈ self.threads, ∀ other ∈ self.threads, row.parentEventId ≠ none →
      row.parentEventId = other.parentEventId → row.rootEventId = other.rootEventId

section nodes

def ThreadRow.node (self : ThreadRow) : Node EventId :=
  ⟨self.eventId, self.parentEventId, self.rootEventId, self.depth⟩

def nodesOf (threads : List ThreadRow) : Set (Node EventId) :=
  {node | ∃ row ∈ threads, row.node = node}

variable {threads : List ThreadRow} {row : ThreadRow}

theorem node_mem (member : row ∈ threads) : row.node ∈ nodesOf threads := ⟨row, member, rfl⟩

theorem nodesOf_append_singleton : nodesOf (threads ++ [row]) = insert row.node (nodesOf threads) := by
  ext node
  simp only [nodesOf, mem_append, mem_singleton, Set.mem_ofPred_eq, Set.mem_insert_iff]
  constructor
  · rintro ⟨other, member | rfl, same⟩
    · exact .inr ⟨other, member, same⟩
    · exact .inl same.symm
  · rintro (same | ⟨other, member, same⟩)
    · exact ⟨row, .inr rfl, same.symm⟩
    · exact ⟨other, .inl member, same⟩

def Recounted (after threads : List ThreadRow) : Prop :=
  ∃ change : ThreadRow → ThreadRow, after = threads.map change ∧
    ∀ row, (change row).node = row.node ∧ (change row).eventCreatedAt = row.eventCreatedAt

namespace Recounted

variable {after middle : List ThreadRow} {id : EventId}

theorem refl : Recounted threads threads := ⟨fun row => row, by simp, fun _ => ⟨rfl, rfl⟩⟩

theorem trans (second : Recounted after middle) (first : Recounted middle threads) :
    Recounted after threads := by
  obtain ⟨change, rfl, kept⟩ := second
  obtain ⟨before, rfl, keptBefore⟩ := first
  refine ⟨fun row => change (before row), by simp, fun row => ?_⟩
  exact ⟨(kept _).1.trans (keptBefore row).1, (kept _).2.trans (keptBefore row).2⟩

theorem addReply : Recounted (addReply id threads) threads :=
  ⟨_, rfl, fun row => by split <;> exact ⟨rfl, rfl⟩⟩

theorem addDescendant : Recounted (addDescendant id threads) threads :=
  ⟨_, rfl, fun row => by split <;> exact ⟨rfl, rfl⟩⟩

theorem dropReply : Recounted (dropReply id threads) threads :=
  ⟨_, rfl, fun row => by split <;> exact ⟨rfl, rfl⟩⟩

theorem dropDescendant : Recounted (dropDescendant id threads) threads :=
  ⟨_, rfl, fun row => by split <;> exact ⟨rfl, rfl⟩⟩

theorem dropCounts {parent root : Option EventId} :
    Recounted (dropCounts parent root threads) threads := by
  cases parent with
  | none => exact refl
  | some parent =>
    cases root with
    | none => exact dropReply
    | some root => exact dropDescendant.trans dropReply

theorem countReply {thread : ThreadMetadata} :
    Recounted (Tables.countReply id thread threads) threads := by
  unfold Tables.countReply
  cases thread.rootEventId with
  | none => exact addReply
  | some root => exact addDescendant.trans addReply

theorem nodesOf_eq (recounted : Recounted after threads) : nodesOf after = nodesOf threads := by
  obtain ⟨change, rfl, kept⟩ := recounted
  ext node
  simp [nodesOf, kept]

theorem exists_row (recounted : Recounted after threads) {row : ThreadRow} (member : row ∈ after) :
    ∃ old ∈ threads, row.node = old.node ∧ row.eventCreatedAt = old.eventCreatedAt := by
  obtain ⟨change, rfl, kept⟩ := recounted
  obtain ⟨old, isOld, rfl⟩ := mem_map.mp member
  exact ⟨old, isOld, kept old⟩

end Recounted

variable {other : List ThreadRow}

theorem nodesOf_perm (perm : threads.Perm other) :
    nodesOf threads = nodesOf other := by
  ext node
  simp only [nodesOf, Set.mem_ofPred_eq, perm.mem_iff]

theorem insertRow_perm (perm : threads.Perm other) :
    (insertRow row threads).Perm (insertRow row other) := by
  unfold insertRow
  rw [perm.any_eq]
  split
  · exact perm
  · exact perm.append_right [row]

theorem insertRow_append {own : ThreadRow}
    (apart : own.isAt row.eventCreatedAt row.eventId = false) :
    (insertRow row (threads ++ [own])).Perm (insertRow row threads ++ [own]) := by
  unfold insertRow
  rw [any_append, any_cons, apart, any_nil, Bool.or_false, Bool.or_false]
  split
  · exact .refl _
  · rw [append_assoc, append_assoc]
    exact (List.Perm.swap row own []).append_left threads

theorem insertRow_cases : (insertRow row threads = threads ∧
      ∃ other ∈ threads, other.isAt row.eventCreatedAt row.eventId) ∨
    (insertRow row threads = threads ++ [row] ∧
      ∀ other ∈ threads, other.isAt row.eventCreatedAt row.eventId = false) := by
  unfold insertRow
  cases known : threads.any fun other => other.isAt row.eventCreatedAt row.eventId with
  | true => exact .inl ⟨rfl, any_eq_true.mp known⟩
  | false =>
    exact .inr ⟨rfl, fun other member => by
      simpa using any_eq_false.mp known other member⟩

variable {createdAt : ℤ} {id : EventId}

theorem isAt_iff : row.isAt createdAt id ↔ row.eventCreatedAt = createdAt ∧ row.eventId = id := by
  simp [ThreadRow.isAt]

variable {scope : EventId → Option Uuid} {limit : ℤ}

theorem insertRow_sound
    (sound : Forest.Sound scope limit (nodesOf threads)) (placed : scope id ≠ none) (positive : 0 ≤ limit)
    (timed : ∀ row ∈ threads, row.eventId = id → row.parentEventId ≠ none →
      row.eventCreatedAt = createdAt) :
    Forest.Sound scope limit (nodesOf (insertRow (.stub createdAt id) threads)) := by
  rcases @insertRow_cases threads (.stub createdAt id) with
    ⟨same, -⟩ | ⟨added, unkeyed⟩
  · rw [same]
    exact sound
  · rw [added, nodesOf_append_singleton]
    refine sound.insert_top placed ?_ positive
    rintro node ⟨row, member, rfl⟩ same
    by_contra isChild
    have keyed := isAt_iff.mpr ⟨timed row member same isChild, same⟩
    exact Bool.false_ne_true ((unkeyed row member).symm.trans keyed)

theorem insertRow_mem : ∃ row ∈ insertRow (.stub createdAt id) threads, row.eventId = id := by
  rcases @insertRow_cases threads (.stub createdAt id) with
    ⟨same, other, member, keyed⟩ | ⟨added, -⟩
  · exact ⟨other, by rw [same]; exact member, (isAt_iff.mp keyed).2⟩
  · exact ⟨.stub createdAt id, by rw [added]; exact mem_concat_self, rfl⟩

theorem of_mem_insertRow {other : ThreadRow} (member : row ∈ insertRow other threads) :
    row ∈ threads ∨ row = other := by
  rcases @insertRow_cases threads other with ⟨same, -⟩ | ⟨added, -⟩
  · exact .inl (same ▸ member)
  · rw [added] at member
    exact mem_append.mp member |>.imp id mem_singleton.mp

end nodes

section community

def Timed (messages : List MessageRow) (threads : List ThreadRow) : Prop :=
  ∀ row ∈ threads, row.parentEventId ≠ none → ∃ message ∈ messages,
    message.event.id = row.eventId ∧ message.createdAt = row.eventCreatedAt ∧
      taggedRoot message.event.tags ≠ none

structure Community.Sound (community : Community) : Prop where
  unique : ∀ message ∈ community.messages, ∀ other ∈ community.messages,
    message.event.id = other.event.id → message = other
  forest : Forest.Sound community.channelOf depthLimit (nodesOf community.threads)
  timed : Timed community.messages community.threads

variable {community : Community} {event : Event} {createdAt : ℤ} {channelId : Option Uuid}
  {id : EventId}

theorem hasEvent_iff : community.hasEvent id ↔
    ∃ message ∈ community.messages, message.event.id = id := by
  simp [Community.hasEvent]

theorem find_id {messages : List MessageRow} {message : MessageRow}
    (found : messages.find? (·.event.id = id) = some message) :
    message ∈ messages ∧ message.event.id = id := by
  have isId := find?_some found
  exact ⟨mem_of_find?_eq_some found, of_decide_eq_true isId⟩

theorem hasEvent_of_channelOf (known : community.channelOf id ≠ none) :
    community.hasEvent id := by
  cases found : community.messages.find? fun message => decide (message.event.id = id) with
  | none => exact absurd (by rw [Community.channelOf, found, bind_none]) known
  | some message =>
    exact hasEvent_iff.mpr ⟨message, find_id found⟩

theorem holds_of_channelOf {channel : Uuid} (known : community.channelOf id = some channel) :
    community.Holds channel id := by
  cases found : community.messages.find? fun message => decide (message.event.id = id) with
  | none => rw [Community.channelOf, found] at known; cases known
  | some message =>
    rw [Community.channelOf, found, bind_some] at known
    exact ⟨message, (find_id found).1, (find_id found).2, known⟩

namespace Community.Sound

theorem channelOf_eq
    (unique : ∀ message ∈ community.messages, ∀ other ∈ community.messages,
      message.event.id = other.event.id → message = other) {message : MessageRow}
    (member : message ∈ community.messages) :
    community.channelOf message.event.id = message.channelId := by
  cases found : community.messages.find? fun other =>
      decide (other.event.id = message.event.id) with
  | none =>
    have absent := find?_eq_none.mp found message member
    simp at absent
  | some other =>
    have equal := unique other (find_id found).1 message member (find_id found).2
    rw [Community.channelOf, found, bind_some, equal]

theorem row_hasEvent (sound : community.Sound) {row : ThreadRow}
    (member : row ∈ community.threads) : community.hasEvent row.eventId :=
  hasEvent_of_channelOf (sound.forest.placed _ (node_mem member))

theorem consistent (sound : community.Sound) : community.Consistent := by
  have above : ∀ row ∈ community.threads, ∀ parent, row.parentEventId = some parent →
      ∃ parentRow ∈ community.threads, row.node.ChildOf parentRow.node ∧
        parentRow.eventId = parent ∧
          community.channelOf parent = community.channelOf row.eventId := by
    intro row member parent isParent
    have isChild : row.node.parent ≠ none := by
      rw [show row.node.parent = some parent from isParent]
      nofun
    obtain ⟨-, ⟨parentRow, isRow, rfl⟩, childOf, inScope⟩ :=
      sound.forest.child _ (node_mem member) isChild
    have same : parentRow.eventId = parent :=
      Option.some.inj (childOf.parent.symm.trans isParent)
    exact ⟨parentRow, isRow, childOf, same, same ▸ inScope⟩
  constructor
  · intro row member parent isParent
    obtain ⟨parentRow, isRow, childOf, rfl, inScope⟩ := above row member parent isParent
    obtain ⟨channel, isChannel⟩ := ne_none_iff_exists'.mp
      (sound.forest.placed _ (node_mem member))
    have rooted := sound.forest.rooted _ (node_mem member) _ childOf.root
    refine ⟨channel, parentRow.rootEventId.getD parentRow.eventId, holds_of_channelOf isChannel,
      holds_of_channelOf (inScope.trans isChannel), holds_of_channelOf (rooted.2.trans isChannel),
      childOf.root, sound.forest.bounded _ (node_mem member), ⟨parentRow, isRow, rfl⟩, ?_⟩
    intro other isOther same
    have equal := sound.forest.agree _ (node_mem isOther) _ (node_mem isRow) same
    have sameParent : other.parentEventId = parentRow.parentEventId := congrArg Node.parent equal
    have sameRoot : other.rootEventId = parentRow.rootEventId := congrArg Node.root equal
    have sameDepth : other.depth = parentRow.depth := congrArg Node.depth equal
    refine ⟨by rw [sameDepth]; exact childOf.depth, ?_⟩
    rw [sameParent, sameRoot]
    split
    next noParent =>
      have isTop := sound.forest.top _ (node_mem isRow) noParent
      have noRoot : parentRow.rootEventId = none := congrArg Node.root isTop
      rw [noRoot, getD_none]
    next isChild =>
      obtain ⟨grand, -, grandOf, -⟩ := sound.forest.child _ (node_mem isRow) isChild
      have isRoot : parentRow.rootEventId = some _ := grandOf.root
      rw [isRoot, getD_some]
  · intro row member other isOther isChild same
    obtain ⟨parent, isParent⟩ := ne_none_iff_exists'.mp isChild
    obtain ⟨parentRow, isRow, childOf, rfl, -⟩ := above row member parent isParent
    obtain ⟨otherRow, isOtherRow, otherOf, sameId, -⟩ :=
      above other isOther _ (same.symm.trans isParent)
    have equal := sound.forest.agree _ (node_mem isOtherRow) _ (node_mem isRow) sameId
    rw [equal] at otherOf
    exact childOf.root.trans otherOf.root.symm

end Community.Sound

structure Keeps (before after : Community) : Prop where
  messages : ∀ message ∈ before.messages, message.channelId ≠ none →
    ∃ kept ∈ after.messages, kept.event = message.event ∧ kept.createdAt = message.createdAt ∧
      kept.channelId = message.channelId
  nodes : nodesOf before.threads ⊆ nodesOf after.threads

theorem Keeps.refl : Keeps community community :=
  ⟨fun message member _ => ⟨message, member, rfl, rfl, rfl⟩, fun _ member => member⟩

def Community.withMessage (self : Community) (message : MessageRow) : Community :=
  { self with messages := self.messages ++ [message] }

theorem Keeps.withMessage (message : MessageRow) : Keeps community (community.withMessage message) :=
  ⟨fun old member _ => ⟨old, mem_append_left _ member, rfl, rfl, rfl⟩, fun _ member => member⟩

namespace Community.Sound

section

variable (sound : community.Sound)

include sound

theorem exists_message (known : community.channelOf id ≠ none) :
    ∃ message ∈ community.messages, message.event.id = id ∧ message.channelId ≠ none := by
  obtain ⟨message, member, rfl⟩ := hasEvent_iff.mp (hasEvent_of_channelOf known)
  exact ⟨message, member, rfl, Sound.channelOf_eq sound.unique member ▸ known⟩

theorem channelOf_kept {after : Community} (keeps : Keeps community after)
    (unique : ∀ message ∈ after.messages, ∀ other ∈ after.messages,
      message.event.id = other.event.id → message = other) (known : community.channelOf id ≠ none) :
    after.channelOf id = community.channelOf id := by
  obtain ⟨message, isMessage, isId, placed⟩ := sound.exists_message known
  obtain ⟨kept, isKept, sameEvent, -, sameChannel⟩ := keeps.messages message isMessage placed
  calc
    after.channelOf id = kept.channelId := by
      rw [← isId, ← sameEvent]
      exact channelOf_eq unique isKept
    _ = message.channelId := sameChannel
    _ = community.channelOf id := by
      rw [← isId]
      exact (channelOf_eq sound.unique isMessage).symm

theorem of_keeps {after : Community} (keeps : Keeps community after)
    (recounted : Recounted after.threads community.threads)
    (unique : ∀ message ∈ after.messages, ∀ other ∈ after.messages,
      message.event.id = other.event.id → message = other) : after.Sound where
  unique
  forest := by
    rw [recounted.nodesOf_eq]
    exact sound.forest.rescope fun node member =>
      sound.channelOf_kept keeps unique (sound.forest.placed node member)
  timed := by
    intro row member isChild
    obtain ⟨old, isOld, sameNode, sameTime⟩ := recounted.exists_row member
    have oldChild : old.parentEventId ≠ none :=
      fun noParent => isChild ((congrArg Node.parent sameNode).trans noParent)
    have sameId : row.eventId = old.eventId := congrArg Node.id sameNode
    obtain ⟨message, isMessage, isId, isTime, tagged⟩ := sound.timed old isOld oldChild
    have placed : message.channelId ≠ none := by
      rw [← Sound.channelOf_eq sound.unique isMessage, isId]
      exact sound.forest.placed _ (node_mem isOld)
    obtain ⟨kept, isKept, sameEvent, sameCreated, -⟩ := keeps.messages message isMessage placed
    rw [sameId, sameTime]
    exact ⟨kept, isKept, sameEvent ▸ isId, sameCreated.trans isTime, sameEvent ▸ tagged⟩

theorem withMessage (message : MessageRow)
    (fresh : community.hasEvent message.event.id = false) :
    (community.withMessage message).Sound := by
  apply sound.of_keeps (.withMessage message) .refl
  have apart : ∀ old ∈ community.messages, old.event.id ≠ message.event.id := by
    intro old isOld equal
    rw [hasEvent_iff.mpr ⟨old, isOld, equal⟩] at fresh
    cases fresh
  intro first isFirst second isSecond same
  rcases mem_append.mp isFirst with firstOld | firstNew <;>
    rcases mem_append.mp isSecond with secondOld | secondNew
  · exact sound.unique first firstOld second secondOld same
  · rw [mem_singleton.mp secondNew] at same
    exact absurd same (apart first firstOld)
  · rw [mem_singleton.mp firstNew] at same
    exact absurd same.symm (apart second secondOld)
  · rw [mem_singleton.mp firstNew, mem_singleton.mp secondNew]

theorem fresh_row (fresh : community.hasEvent id = false)
    {row : ThreadRow} (member : row ∈ community.threads) : row.eventId ≠ id := by
  intro same
  rw [← same, sound.row_hasEvent member] at fresh
  cases fresh

theorem insertThread_fresh (fresh : community.hasEvent id = false) :
    (community.tables.threads.any (·.isAt createdAt id)) = false := by
  apply any_eq_false.mpr
  intro row member keyed
  exact sound.fresh_row fresh member (isAt_iff.mp keyed).2

end

end Community.Sound

/-- Its parent is in the channel, and its row is a child of the parent's. -/
structure Community.Fitting (community : Community) (channelId : Option Uuid)
    (parent root : EventId) (parentCreatedAt depth : ℤ) : Prop where
  placed : channelId ≠ none
  known : ∃ message ∈ community.messages, message.event.id = parent ∧
    message.createdAt = parentCreatedAt ∧ message.channelId = channelId
  bounded : depth ≤ depthLimit
  above : (∃ row ∈ community.threads, row.eventId = parent ∧
      root = row.rootEventId.getD parent ∧ depth = row.depth + 1) ∨
    (root = parent ∧ depth = 1 ∧
      ∀ row ∈ community.threads, row.eventId = parent → row.parentEventId = none)

namespace Community.Fitting

variable {parent root : EventId} {parentCreatedAt depth rootCreatedAt : ℤ}

section

variable (fitting : community.Fitting channelId parent root parentCreatedAt depth)

include fitting

section

variable (sound : community.Sound)

include sound

theorem channelOf_parent : community.channelOf parent = channelId := by
  obtain ⟨message, member, rfl, -, inChannel⟩ := fitting.known
  exact (Sound.channelOf_eq sound.unique member).trans inChannel

theorem parentStub_sound :
    Forest.Sound community.channelOf depthLimit
      (nodesOf (insertRow (.stub parentCreatedAt parent) community.threads)) := by
  apply insertRow_sound sound.forest
  · rw [fitting.channelOf_parent sound]
    exact fitting.placed
  · decide
  · intro row member same isChild
    obtain ⟨message, isMessage, isParent, timed, -⟩ := fitting.known
    obtain ⟨own, isOwn, ownId, ownTime, -⟩ := sound.timed row member isChild
    have equal := sound.unique own isOwn message isMessage (ownId.trans (same.trans isParent.symm))
    rw [← ownTime, equal, timed]

theorem exists_parentRow :
    ∃ row ∈ insertRow (.stub parentCreatedAt parent) community.threads, row.eventId = parent ∧
      root = row.rootEventId.getD parent ∧ depth = row.depth + 1 := by
  rcases fitting.above with ⟨row, member, known⟩ | ⟨rfl, rfl, noChild⟩
  · exact ⟨row, mem_insertRow member, known⟩
  · obtain ⟨row, member, same⟩ := @insertRow_mem community.threads parentCreatedAt root
    have noParent : row.parentEventId = none := by
      rcases of_mem_insertRow member with old | rfl
      · exact noChild row old same
      · rfl
    have isTop := (fitting.parentStub_sound sound).top _ (node_mem member) noParent
    have noRoot : row.rootEventId = none := congrArg Node.root isTop
    have isDepth : row.depth = 0 := congrArg Node.depth isTop
    exact ⟨row, member, same, by rw [noRoot, getD_none], by rw [isDepth]; rfl⟩

end

end

def metadata (parent root : EventId) (parentCreatedAt rootCreatedAt depth : ℤ) : ThreadMetadata :=
  ⟨some parent, some parentCreatedAt, some root, some rootCreatedAt, depth⟩

variable {threads : List ThreadRow}

theorem insertStubs_eq : Tables.insertStubs createdAt parent
        (metadata parent root parentCreatedAt rootCreatedAt depth) threads =
      if root ≠ parent then
        insertRow (.stub rootCreatedAt root)
          (insertRow (.stub parentCreatedAt parent) threads)
      else insertRow (.stub parentCreatedAt parent) threads := rfl

theorem stubs_sound (fitting : community.Fitting channelId parent root parentCreatedAt depth)
    (sound : community.Sound) (createdAt rootCreatedAt : ℤ) :
    Forest.Sound community.channelOf depthLimit
      (nodesOf (Tables.insertStubs createdAt parent
        (metadata parent root parentCreatedAt rootCreatedAt depth) community.threads)) := by
  have parentSound := fitting.parentStub_sound sound
  rw [insertStubs_eq]
  split
  next apart =>
    obtain ⟨row, member, same, isRoot, -⟩ := fitting.exists_parentRow sound
    have rowRoot : row.rootEventId = some root := by
      cases known : row.rootEventId with
      | none => rw [known, getD_none] at isRoot; exact absurd isRoot apart
      | some top => rw [isRoot, known, getD_some]
    have rooted := parentSound.rooted _ (node_mem member) root rowRoot
    apply insertRow_sound parentSound
    · rw [rooted.2]
      exact parentSound.placed _ (node_mem member)
    · decide
    · intro other isOther isId isChild
      have equal := parentSound.agree _ (node_mem isOther) _ rooted.1 isId
      exact absurd (congrArg Node.parent equal) isChild
  · exact parentSound

theorem mem_stubs {row : ThreadRow}
    (member : row ∈ insertRow (.stub parentCreatedAt parent) threads) :
    row ∈ Tables.insertStubs createdAt parent
      (metadata parent root parentCreatedAt rootCreatedAt depth) threads := by
  rw [insertStubs_eq]
  split
  · exact mem_insertRow member
  · exact member

theorem of_mem_stubs {row : ThreadRow} (member : row ∈ Tables.insertStubs createdAt parent
      (metadata parent root parentCreatedAt rootCreatedAt depth) threads)
    (isChild : row.parentEventId ≠ none) : row ∈ threads := by
  have ofParent : row ∈ insertRow (.stub parentCreatedAt parent) threads → row ∈ threads := by
    intro member
    rcases of_mem_insertRow member with old | rfl
    · exact old
    · exact absurd rfl isChild
  rw [insertStubs_eq] at member
  split at member
  · rcases of_mem_insertRow member with old | rfl
    · exact ofParent old
    · exact absurd rfl isChild
  · exact ofParent member

theorem stubs_append {own : ThreadRow}
    (notParent : own.eventId ≠ parent) (notRoot : own.eventId ≠ root) :
    (Tables.insertStubs createdAt parent
        (metadata parent root parentCreatedAt rootCreatedAt depth) (threads ++ [own])).Perm
      (Tables.insertStubs createdAt parent
        (metadata parent root parentCreatedAt rootCreatedAt depth) threads ++ [own]) := by
  have apart : ∀ time id, own.eventId ≠ id → own.isAt time id = false := by
    intro time id other
    simp [ThreadRow.isAt, other]
  have withParent := @insertRow_append threads (.stub parentCreatedAt parent) own
    (apart _ _ notParent)
  rw [insertStubs_eq, insertStubs_eq]
  split
  · exact (insertRow_perm withParent).trans (insertRow_append (apart _ _ notRoot))
  · exact withParent

theorem ne_of_channelOf (fresh : community.hasEvent event.id = false)
    (known : community.channelOf id ≠ none) : event.id ≠ id := by
  intro same
  rw [same, hasEvent_of_channelOf known] at fresh
  cases fresh

section

variable (fitting : community.Fitting channelId parent root parentCreatedAt depth)

include fitting

section

variable (sound : community.Sound)

include sound

theorem channelOf_root : community.channelOf root ≠ none := by
  have parentSound := fitting.parentStub_sound sound
  obtain ⟨row, member, rfl, isRoot, -⟩ := fitting.exists_parentRow sound
  cases known : row.rootEventId with
  | none =>
    rw [isRoot, known, getD_none]
    exact parentSound.placed _ (node_mem member)
  | some top =>
    rw [isRoot, known, getD_some, (parentSound.rooted _ (node_mem member) top known).2]
    exact parentSound.placed _ (node_mem member)

theorem insertThread_rows (fresh : community.hasEvent event.id = false)
    (createdAt rootCreatedAt : ℤ) :
    ∃ rows, Recounted (community.tables.insertThread event.id createdAt
        (metadata parent root parentCreatedAt rootCreatedAt depth)) rows ∧
      rows.Perm (Tables.insertStubs createdAt parent
          (metadata parent root parentCreatedAt rootCreatedAt depth) community.threads ++
        [⟨event.id, createdAt, some parent, some root, depth, 0, 0⟩]) := by
  have notParent : event.id ≠ parent := by
    apply ne_of_channelOf fresh
    rw [fitting.channelOf_parent sound]
    exact fitting.placed
  have notRoot := ne_of_channelOf fresh (fitting.channelOf_root sound)
  refine ⟨_, ?_, stubs_append notParent notRoot⟩
  unfold Tables.insertThread
  rw [sound.insertThread_fresh fresh, if_neg Bool.false_ne_true]
  exact Recounted.countReply

theorem insert_sound (fresh : community.hasEvent event.id = false)
    (tagged : taggedRoot event.tags ≠ none) :
    (community.insertEvent event createdAt channelId
      (some (metadata parent root parentCreatedAt rootCreatedAt depth))).Sound := by
  obtain ⟨rows, recounted, perm⟩ :=
    fitting.insertThread_rows sound fresh createdAt rootCreatedAt
  have stubs := fitting.stubs_sound sound createdAt rootCreatedAt
  have added := sound.withMessage ⟨event, createdAt, channelId, true,
    some (metadata parent root parentCreatedAt rootCreatedAt depth)⟩ fresh
  unfold Community.insertEvent
  rw [fresh, if_neg Bool.false_ne_true]
  refine ⟨added.unique, ?_, ?_⟩
  · change Forest.Sound (community.withMessage _).channelOf depthLimit (nodesOf _)
    rw [recounted.nodesOf_eq, nodesOf_perm perm, nodesOf_append_singleton]
    obtain ⟨parentRow, isRow, isParent, isRoot, isDepth⟩ := fitting.exists_parentRow sound
    have member := node_mem (@mem_stubs createdAt parent root parentCreatedAt depth rootCreatedAt
      community.threads parentRow isRow)
    have known := stubs.placed _ member
    refine Forest.Sound.insert_child (stubs.rescope fun node isNode =>
      sound.channelOf_kept (.withMessage _) added.unique (stubs.placed node isNode)) member ⟨?_, ?_, isDepth⟩ ?_ ?_
        fitting.bounded
    · exact congrArg some isParent.symm
    · exact congrArg some (isRoot.trans (by rw [← isParent]; rfl))
    · calc
        _ = community.channelOf parentRow.eventId :=
          sound.channelOf_kept (.withMessage _) added.unique known
        _ = channelId := by rw [isParent, fitting.channelOf_parent sound]
        _ = _ := (Sound.channelOf_eq added.unique (mem_append_right _ (mem_singleton_self _))).symm
    · intro other isOther same
      exact ne_of_channelOf fresh (stubs.placed other isOther) same.symm
  · intro row member isChild
    obtain ⟨old, isOld, sameNode, sameTime⟩ := recounted.exists_row member
    have oldChild : old.parentEventId ≠ none :=
      fun noParent => isChild ((congrArg Node.parent sameNode).trans noParent)
    have sameId : row.eventId = old.eventId := congrArg Node.id sameNode
    rw [sameId, sameTime]
    rcases mem_append.mp (perm.mem_iff.mp isOld) with stub | own
    · exact added.timed old (of_mem_stubs stub oldChild) oldChild
    · rw [mem_singleton.mp own]
      exact ⟨_, mem_append_right _ (mem_singleton_self _), rfl, rfl, tagged⟩

end

end

end Community.Fitting

section operations

variable {thread : ThreadMetadata} {parent root : Option EventId}

theorem subset_insertThread :
    nodesOf community.threads ⊆ nodesOf (community.tables.insertThread id createdAt thread) := by
  rintro node ⟨row, member, rfl⟩
  have appended : ∀ own : ThreadRow, row ∈ community.threads ++ [own] :=
    fun own => mem_append_left _ member
  unfold Tables.insertThread
  split
  · exact node_mem member
  · cases thread.parentEventId with
    | none => exact node_mem (appended _)
    | some parent =>
      dsimp only
      rw [Recounted.countReply.nodesOf_eq]
      unfold Tables.insertStubs
      cases thread.rootEventId with
      | none => exact node_mem (mem_insertRow (appended _))
      | some root =>
        dsimp only
        split
        · exact node_mem (mem_insertRow (mem_insertRow (appended _)))
        · exact node_mem (mem_insertRow (appended _))

theorem Keeps.insertEvent {thread : Option ThreadMetadata} :
    Keeps community (community.insertEvent event createdAt channelId thread) := by
  unfold Community.insertEvent
  split
  · exact .refl
  · cases thread with
    | none => exact .withMessage ⟨event, createdAt, channelId, true, none⟩
    | some thread =>
      have added : Keeps community (community.withMessage _) :=
        .withMessage ⟨event, createdAt, channelId, true, some thread⟩
      exact ⟨added.messages, subset_insertThread⟩

theorem storeEvent_cases (community : Community) (event : Event) (channelId : Option Uuid)
    (thread : Option ThreadMetadata) :
    community.storeEvent event channelId thread = community ∨
      community.hasEvent event.id = false ∧ ∃ createdAt,
        community.storeEvent event channelId thread =
          community.insertEvent event createdAt channelId thread := by
  unfold Community.storeEvent
  obtain ⟨dated, isDated⟩ : ∃ dated, dateFromTimestamp (asI64 event.createdAt) = dated := ⟨_, rfl⟩
  rw [isDated]
  cases dated with
  | none => exact .inl rfl
  | some createdAt =>
    cases known : community.hasEvent event.id with
    | true =>
      left
      change community.insertEvent event createdAt channelId thread = community
      unfold Community.insertEvent
      rw [if_pos known]
    | false => exact .inr ⟨rfl, createdAt, rfl⟩

theorem Keeps.storeEvent {thread : Option ThreadMetadata} :
    Keeps community (community.storeEvent event channelId thread) := by
  rcases storeEvent_cases community event channelId thread with same | ⟨-, createdAt, same⟩
  · rw [same]
    exact .refl
  · rw [same]
    exact .insertEvent

theorem Keeps.softDelete : Keeps community (community.softDelete id parent root) := by
  unfold Community.softDelete
  split
  · refine ⟨fun message member _ => ⟨_, mem_map_of_mem member, ?_⟩, ?_⟩
    · split <;> exact ⟨rfl, rfl, rfl⟩
    · rw [Recounted.dropCounts.nodesOf_eq]
  · exact .refl

theorem Keeps.purge : Keeps community (community.purge id) := by
  refine ⟨fun message member placed => ⟨message, ?_, rfl, rfl, rfl⟩, fun _ member => member⟩
  have notNone : message.channelId.isNone = false :=
    isNone_eq_false_iff.mpr (isSome_iff_ne_none.mpr placed)
  exact mem_filter.mpr ⟨member, by rw [notNone, Bool.and_false]; rfl⟩

namespace Community.Sound

theorem empty : Community.empty.Sound where
  unique _ member := nomatch member
  forest := by
    have noNodes : nodesOf Community.empty.threads = ∅ := by
      ext node
      simp [nodesOf, Community.empty]
    rw [noNodes]
    exact .empty
  timed _ member := nomatch member

section

variable (sound : community.Sound)

include sound

theorem softDelete : (community.softDelete id parent root).Sound := by
  apply sound.of_keeps .softDelete
  · unfold Community.softDelete
    split
    · exact .dropCounts
    · exact .refl
  · unfold Community.softDelete
    split
    · intro first isFirst second isSecond same
      obtain ⟨old, isOld, rfl⟩ := mem_map.mp isFirst
      obtain ⟨other, isOther, rfl⟩ := mem_map.mp isSecond
      have sameId : old.event.id = other.event.id := by
        split at same <;> split at same <;> exact same
      rw [sound.unique old isOld other isOther sameId]
    · exact sound.unique

theorem purge : (community.purge id).Sound := by
  apply sound.of_keeps .purge .refl
  intro first isFirst second isSecond same
  exact sound.unique first (mem_of_mem_filter isFirst) second (mem_of_mem_filter isSecond)
    same

theorem storeEvent_none :
    (community.storeEvent event channelId none).Sound := by
  rcases storeEvent_cases community event channelId none with same | ⟨fresh, createdAt, same⟩
  · rw [same]
    exact sound
  · rw [same, Community.insertEvent, fresh, if_neg Bool.false_ne_true]
    exact sound.withMessage ⟨event, createdAt, channelId, true, none⟩ fresh

theorem storeEvent_topLevel {channel : Uuid} :
    (community.storeEvent event (some channel) (some topLevel)).Sound := by
  rcases storeEvent_cases community event (some channel) (some topLevel) with same | ⟨fresh, createdAt, same⟩
  · rw [same]
    exact sound
  · have added := sound.withMessage ⟨event, createdAt, some channel, true, some topLevel⟩ fresh
    rw [same, Community.insertEvent, fresh, if_neg Bool.false_ne_true]
    unfold Tables.insertThread
    rw [sound.insertThread_fresh fresh, if_neg Bool.false_ne_true]
    refine ⟨added.unique, ?_, ?_⟩
    · change Forest.Sound (community.withMessage _).channelOf depthLimit
        (nodesOf (community.threads ++ [_]))
      rw [nodesOf_append_singleton]
      apply added.forest.insert_top
      · have inChannel := Sound.channelOf_eq added.unique
          (mem_append_right _ (mem_singleton_self _))
        rw [inChannel]
        nofun
      · rintro node ⟨row, member, rfl⟩ sameId
        exact absurd sameId (sound.fresh_row fresh member)
      · decide
    · intro row member isChild
      rcases mem_append.mp member with old | own
      · exact added.timed row old isChild
      · rw [mem_singleton.mp own] at isChild
        exact absurd rfl isChild

end

end Community.Sound

end operations

end community

end Buzz.Thread
