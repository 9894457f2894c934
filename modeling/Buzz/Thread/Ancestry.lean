import Buzz.Req.Query
import Buzz.Thread.Counters

/-! The ancestry of a reply: how it is resolved, and the ingests that do so one after another. -/

namespace Buzz.Thread

open Nostr Buzz.Req

/-- The kinds that need an `h` tag; only they get thread metadata. -/
def hChannelScopeKinds : List ℕ :=
  [9, 40002, 40003, 40004, 40005, 40006, 40007, 40008, 40100, 45001, 45002, 45003, 9000, 9001, 9002,
    9005, 9008, 9022, 48100, 48101, 48102, 48103, 48106]

def requiresHChannelScope (kind : ℕ) : Bool := hChannelScopeKinds.contains kind

/-- The second part of an `e` tag that has the marker as its fourth. -/
def markedValue (marker : String) (tag : Tag) : Option String :=
  match tag.buf with
  | name :: value :: _ :: mark :: _ => if name = "e" ∧ mark = marker then some value else none
  | _ => none

def isHexId (text : String) : Bool :=
  text.utf8ByteSize = 64 && text.toList.all fun c => (hexValue c).isSome

def decodeId (text : String) : Option EventId :=
  (hexDecode text.toList).bind fun bytes =>
    if isId : bytes.length = 32 then some ⟨bytes, isId⟩ else none

def ownMarker (marker : String) (tags : List Tag) : Option String :=
  tags.reverse.findSome? fun tag => (markedValue marker tag).filter isHexId

/-- The texts of the root and the parent; a root alone makes no reply. -/
def replyTexts (tags : List Tag) : Option (String × String) :=
  match ownMarker "root" tags, ownMarker "reply" tags with
  | some root, some parent => some (root, parent)
  | none, some parent => some (parent, parent)
  | _, none => none

def parentMarker (marker : String) (tags : List Tag) : Option EventId :=
  tags.findSome? fun tag => (markedValue marker tag).bind decodeId

def taggedRoot (tags : List Tag) : Option EventId :=
  (parentMarker "root" tags).or (parentMarker "reply" tags)

/-- A row of `events` with the event that it stores. -/
structure MessageRow where
  event : Event
  createdAt : ℤ
  channelId : Option Uuid
  live : Bool
  thread : Option ThreadMetadata

def MessageRow.toEventRow (self : MessageRow) : EventRow :=
  ⟨self.event.id, self.createdAt, self.live, self.thread⟩

structure Community where
  messages : List MessageRow
  threads : List ThreadRow

namespace Community

variable (self : Community)

def empty : Community := ⟨[], []⟩

def tables : Tables := ⟨self.messages.map MessageRow.toEventRow, self.threads⟩

def hasEvent (id : EventId) : Bool := self.messages.any (·.event.id = id)

def getEventById (id : EventId) : Option MessageRow :=
  self.messages.find? fun message => message.event.id = id && message.live

def threadRows (id : EventId) : List ThreadRow :=
  self.threads.filter (·.eventId = id)

/-- `LIMIT 1` without an order: any row of the id. -/
def getThreadMetadataByEvent (id : EventId) (pick : ℕ) : Option ThreadRow :=
  (self.threadRows id)[pick % (self.threadRows id).length]?

/-- `insert_event_with_thread_metadata`, at the time of the event. -/
def insertEvent (event : Event) (createdAt : ℤ) (channelId : Option Uuid)
    (thread : Option ThreadMetadata) : Community :=
  if self.hasEvent event.id then self
  else
    ⟨self.messages ++ [⟨event, createdAt, channelId, true, thread⟩],
      match thread with
      | some thread => self.tables.insertThread event.id createdAt thread
      | none => self.threads⟩

/-- An event whose time is out of range is not stored. -/
def insertDated (event : Event) (channelId : Option Uuid) (thread : Option ThreadMetadata) :
    Option ℤ → Community
  | none => self
  | some createdAt => self.insertEvent event createdAt channelId thread

def storeEvent (event : Event) (channelId : Option Uuid) (thread : Option ThreadMetadata) :
    Community :=
  self.insertDated event channelId thread (dateFromTimestamp (asI64 event.createdAt))

/-- `soft_delete_event_and_update_thread`; with no parent, a plain deletion. -/
def softDelete (id : EventId) (parent root : Option EventId) : Community :=
  if self.messages.any fun message => message.event.id = id && message.live then
    ⟨self.messages.map fun message =>
        if message.event.id = id then { message with live := false } else message,
      dropCounts parent root self.threads⟩
  else self

/-- Only events of no channel are ever purged. -/
def purge (id : EventId) : Community :=
  { self with messages := self.messages.filter fun message =>
      !(message.event.id = id && message.channelId.isNone) }

end Community

def depthLimit : ℤ := 100

def effectiveRoot (parent : EventId) (parentEvent : MessageRow) : Option ThreadRow → EventId
  | some metadata => metadata.rootEventId.getD parent
  | none => (taggedRoot parentEvent.event.tags).getD parent

def replyDepth (parent root : EventId) : Option ThreadRow → ℤ
  | some metadata => metadata.depth + 1
  | none => if root = parent then 1 else 2

/-- A root that is not found gets the time of the parent. -/
def rootCreatedAt (parentEvent : MessageRow) (rootEvent : Option MessageRow) : ℤ :=
  match rootEvent with
  | some root => root.createdAt
  | none => parentEvent.createdAt

def resolveUnder (parent : EventId) (parentEvent : MessageRow) (clientRoot : EventId)
    (parentMetadata : Option ThreadRow) (rootEvent : Option MessageRow) :
    Except String (Option ThreadMetadata) :=
  let root := effectiveRoot parent parentEvent parentMetadata
  if clientRoot ≠ root then .error "root tag does not match thread ancestry"
  else if replyDepth parent root parentMetadata > depthLimit then
    .error "thread depth limit exceeded"
  else
    .ok <| some ⟨some parent, some parentEvent.createdAt, some root,
      some (rootCreatedAt parentEvent rootEvent), replyDepth parent root parentMetadata⟩

/-- `resolve_nip10_thread_meta`, on what its queries have found. -/
def resolveNip10ThreadMeta (event : Event) (channelId : Uuid) (parentEvent : Option MessageRow)
    (parentMetadata : Option ThreadRow) (rootEvent : Option MessageRow) :
    Except String (Option ThreadMetadata) :=
  match replyTexts event.tags with
  | none => .ok none
  | some (rootText, parentText) =>
    match decodeId parentText, parentEvent with
    | none, _ => .error "invalid parent event ID hex"
    | some _, none => .error "reply parent not found"
    | some parent, some parentEvent =>
      match parentEvent.channelId with
      | none => .error "parent event has no channel association"
      | some parentChannel =>
        if parentChannel ≠ channelId then .error "parent event belongs to a different channel"
        else
          match decodeId rootText with
          | none => .error "invalid root event ID hex"
          | some clientRoot => resolveUnder parent parentEvent clientRoot parentMetadata rootEvent

structure Ingest where
  communityId : CommunityId
  event : Event
  channelId : Option Uuid
  parentEvent : Option (Option MessageRow)
  parentMetadata : Option (Option ThreadRow)
  rootEvent : Option (Option MessageRow)
  finished : Bool

namespace Ingest

variable (self : Ingest)

def begin (communityId : CommunityId) (event : Event) (channelId : Option Uuid) : Ingest :=
  ⟨communityId, event, channelId, none, none, none, false⟩

def inScope : Bool := requiresHChannelScope (eventKindU32 self.event)

def parent : Option EventId :=
  (replyTexts self.event.tags).bind fun texts => decodeId texts.2

def clientRoot : Option EventId :=
  (replyTexts self.event.tags).bind fun texts => decodeId texts.1

def rootId : Option EventId :=
  match self.parent, self.parentEvent.join with
  | some parent, some parentEvent =>
    some (effectiveRoot parent parentEvent self.parentMetadata.join)
  | _, _ => none

def ready : Bool :=
  !self.inScope || self.parent.isNone ||
    (self.parentEvent.isSome && self.parentMetadata.isSome && self.rootEvent.isSome)

def threadMeta : Except String (Option ThreadMetadata) :=
  if self.inScope then
    match self.channelId with
    | some channelId =>
      resolveNip10ThreadMeta self.event channelId self.parentEvent.join self.parentMetadata.join
        self.rootEvent.join
    | none => .ok none
  else .ok none

end Ingest

structure Relay where
  community : CommunityId → Community
  ingests : List Ingest

/-- Other paths store events too. -/
inductive IngestStep
  | arrive (communityId : CommunityId) (event : Event) (channelId : Option Uuid)
  | readParent (index : ℕ)
  | readMetadata (index : ℕ) (pick : ℕ)
  | readRoot (index : ℕ) (queried : Bool)
  | store (index : ℕ)
  | write (communityId : CommunityId) (event : Event) (channelId : Option Uuid)
  | sendMessage (communityId : CommunityId) (event : Event) (channelId : Uuid)
  | delete (communityId : CommunityId) (id : EventId) (parent root : Option EventId)
  | purge (communityId : CommunityId) (id : EventId)

def topLevel : ThreadMetadata := ⟨none, none, none, none, 0⟩

namespace Relay

variable (self : Relay)

def start : Relay := ⟨fun _ => .empty, []⟩

def setCommunity (communityId : CommunityId) (community : Community) : Relay :=
  { self with
    community := fun other => if other = communityId then community else self.community other }

def setIngest (index : ℕ) (ingest : Ingest) : Relay :=
  { self with ingests := self.ingests.set index ingest }

def readParent (index : ℕ) (ingest : Ingest) : Relay :=
  self.setIngest index
    { ingest with
      parentEvent := some (ingest.parent.bind (self.community ingest.communityId).getEventById) }

def readMetadata (index : ℕ) (ingest : Ingest) (pick : ℕ) : Relay :=
  self.setIngest index
    { ingest with
      parentMetadata := some (ingest.parent.bind fun parent =>
        (self.community ingest.communityId).getThreadMetadataByEvent parent pick) }

/-- A query that fails is as good as a root that is not there. -/
def readRoot (index : ℕ) (ingest : Ingest) (queried : Bool) : Relay :=
  self.setIngest index
    { ingest with
      rootEvent := some <|
        if queried then ingest.rootId.bind (self.community ingest.communityId).getEventById
        else none }

/-- A rejected event changes nothing. -/
def store (index : ℕ) (ingest : Ingest) : Relay :=
  match ingest.threadMeta with
  | .error _ => self.setIngest index { ingest with finished := true }
  | .ok thread =>
    (self.setCommunity ingest.communityId
      ((self.community ingest.communityId).storeEvent ingest.event ingest.channelId
        thread)).setIngest index { ingest with finished := true }

/-- Each query is made once, the one for the root after the other two. -/
def step : IngestStep → Relay
  | .arrive communityId event channelId =>
    { self with ingests := self.ingests ++ [.begin communityId event channelId] }
  | .readParent index =>
    match self.ingests[index]? with
    | some ingest => if ingest.parentEvent.isNone then self.readParent index ingest else self
    | none => self
  | .readMetadata index pick =>
    match self.ingests[index]? with
    | some ingest =>
      if ingest.parentMetadata.isNone then self.readMetadata index ingest pick else self
    | none => self
  | .readRoot index queried =>
    match self.ingests[index]? with
    | some ingest =>
      if ingest.parentEvent.isSome && ingest.parentMetadata.isSome && ingest.rootEvent.isNone then
        self.readRoot index ingest queried
      else self
    | none => self
  | .store index =>
    match self.ingests[index]? with
    | some ingest => if ingest.ready && !ingest.finished then self.store index ingest else self
    | none => self
  | .write communityId event channelId =>
    self.setCommunity communityId
      ((self.community communityId).storeEvent event channelId none)
  | .sendMessage communityId event channelId =>
    self.setCommunity communityId
      ((self.community communityId).storeEvent event (some channelId) (some topLevel))
  | .delete communityId id parent root =>
    self.setCommunity communityId ((self.community communityId).softDelete id parent root)
  | .purge communityId id =>
    self.setCommunity communityId ((self.community communityId).purge id)

end Relay

end Buzz.Thread
