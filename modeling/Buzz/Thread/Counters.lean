import Buzz.Library.Tally
import Buzz.Nostr.Event

/-! Thread metadata of one community: the rows that an insertion writes, and the reply counters. -/

namespace Buzz.Thread

open Nostr Library.Tally

/-- What `ThreadMetadataParams` says of a message beside its own id and time. -/
structure ThreadMetadata where
  parentEventId : Option EventId
  parentEventCreatedAt : Option ℤ
  rootEventId : Option EventId
  rootEventCreatedAt : Option ℤ
  depth : ℤ
  deriving DecidableEq

/-- A row of `events`, with the metadata that it was inserted with. -/
structure EventRow where
  id : EventId
  createdAt : ℤ
  live : Bool
  thread : Option ThreadMetadata
  deriving DecidableEq

/-- A row of `thread_metadata`. -/
structure ThreadRow where
  eventId : EventId
  eventCreatedAt : ℤ
  parentEventId : Option EventId
  rootEventId : Option EventId
  depth : ℤ
  replyCount : ℕ
  descendantCount : ℕ
  deriving DecidableEq

structure Tables where
  events : List EventRow
  threads : List ThreadRow

def ThreadRow.stub (eventCreatedAt : ℤ) (eventId : EventId) : ThreadRow :=
  ⟨eventId, eventCreatedAt, none, none, 0, 0, 0⟩

def ThreadRow.isAt (self : ThreadRow) (eventCreatedAt : ℤ) (eventId : EventId) : Bool :=
  self.eventCreatedAt = eventCreatedAt && self.eventId = eventId

/-- `ON CONFLICT DO NOTHING`, by time and id. -/
def insertRow (row : ThreadRow) (threads : List ThreadRow) : List ThreadRow :=
  if threads.any fun other => other.isAt row.eventCreatedAt row.eventId then threads
  else threads ++ [row]

theorem mem_insertRow {row new : ThreadRow} {threads : List ThreadRow} (member : row ∈ threads) :
    row ∈ insertRow new threads := by
  unfold insertRow
  split
  · exact member
  · exact List.mem_append_left _ member

def addReply (parent : EventId) (threads : List ThreadRow) : List ThreadRow :=
  threads.map fun row =>
    if row.eventId = parent then { row with replyCount := row.replyCount + 1 } else row

def addDescendant (root : EventId) (threads : List ThreadRow) : List ThreadRow :=
  threads.map fun row =>
    if row.eventId = root then { row with descendantCount := row.descendantCount + 1 } else row

/-- `GREATEST(reply_count - 1, 0)`. -/
def dropReply (parent : EventId) (threads : List ThreadRow) : List ThreadRow :=
  threads.map fun row =>
    if row.eventId = parent then { row with replyCount := row.replyCount - 1 } else row

def dropDescendant (root : EventId) (threads : List ThreadRow) : List ThreadRow :=
  threads.map fun row =>
    if row.eventId = root then { row with descendantCount := row.descendantCount - 1 } else row

def dropCounts (parent root : Option EventId) (threads : List ThreadRow) : List ThreadRow :=
  match parent, root with
  | some parent, some root => dropDescendant root (dropReply parent threads)
  | some parent, none => dropReply parent threads
  | none, _ => threads

namespace Tables

variable (self : Tables)

/-- A root has no row of its own yet. -/
def insertStubs (createdAt : ℤ) (parent : EventId) (thread : ThreadMetadata)
    (threads : List ThreadRow) : List ThreadRow :=
  let withParent := insertRow (.stub (thread.parentEventCreatedAt.getD createdAt) parent) threads
  match thread.rootEventId with
  | some root =>
    if root ≠ parent then
      insertRow (.stub (thread.rootEventCreatedAt.getD createdAt) root) withParent
    else withParent
  | none => withParent

def countReply (parent : EventId) (thread : ThreadMetadata) (threads : List ThreadRow) :
    List ThreadRow :=
  match thread.rootEventId with
  | some root => addDescendant root (addReply parent threads)
  | none => addReply parent threads

/-- Nothing is counted if its own row is there. -/
def insertThread (id : EventId) (createdAt : ℤ) (thread : ThreadMetadata) : List ThreadRow :=
  if self.threads.any fun row => row.isAt createdAt id then self.threads
  else
    let threads := self.threads ++
      [⟨id, createdAt, thread.parentEventId, thread.rootEventId, thread.depth, 0, 0⟩]
    match thread.parentEventId with
    | some parent => countReply parent thread (insertStubs createdAt parent thread threads)
    | none => threads

/-- `insert_event_with_thread_metadata`. -/
def insertEvent (id : EventId) (createdAt : ℤ) (thread : Option ThreadMetadata) : Tables :=
  if self.events.any fun event => decide (event.id = id) then self
  else
    ⟨self.events ++ [⟨id, createdAt, true, thread⟩],
      match thread with
      | some thread => self.insertThread id createdAt thread
      | none => self.threads⟩

/-- `soft_delete_event_and_update_thread`. -/
def softDelete (id : EventId) (parent root : Option EventId) : Tables :=
  if self.events.any fun event => event.id = id && event.live then
    ⟨self.events.map fun event => if event.id = id then { event with live := false } else event,
      dropCounts parent root self.threads⟩
  else self

end Tables

inductive Move
  | insert (id : EventId) (createdAt : ℤ) (thread : Option ThreadMetadata)
  | delete (id : EventId) (parent root : Option EventId)

def Tables.step (self : Tables) : Move → Tables
  | .insert id createdAt thread => self.insertEvent id createdAt thread
  | .delete id parent root => self.softDelete id parent root

def Tables.after (self : Tables) (moves : List Move) : Tables := moves.foldl step self

def Tables.empty : Tables := ⟨[], []⟩

def EventRow.repliesTo (parent : EventId) (self : EventRow) : Bool :=
  self.live && (self.thread.bind ThreadMetadata.parentEventId) = some parent

def EventRow.isBelow (root : EventId) (self : EventRow) : Bool :=
  self.live && (self.thread.bind ThreadMetadata.rootEventId) = some root

def Tables.replies (self : Tables) (id : EventId) : ℕ := self.events.countP (EventRow.repliesTo id)

def Tables.descendants (self : Tables) (id : EventId) : ℕ := self.events.countP (EventRow.isBelow id)

def Tables.Exact (self : Tables) : Prop :=
  ∀ row ∈ self.threads, row.replyCount = self.replies row.eventId ∧
    row.descendantCount = self.descendants row.eventId

/-- A row that is written there is of an id that no live event names. -/
def Tables.Unnamed (self : Tables) (eventCreatedAt : ℤ) (id : EventId) : Prop :=
  (∀ row ∈ self.threads, row.isAt eventCreatedAt id = false) →
    self.replies id = 0 ∧ self.descendants id = 0

/-- The added rows are of ids without live replies. -/
structure Tables.Fits (tables : Tables) (id : EventId) (createdAt : ℤ) (thread : ThreadMetadata) :
    Prop where
  own : thread.parentEventId ≠ none → ∀ row ∈ tables.threads, row.isAt createdAt id = false
  fresh : tables.Unnamed createdAt id
  other : thread.parentEventId ≠ some id ∧ thread.rootEventId ≠ some id
  parent : ∀ parent, thread.parentEventId = some parent →
    tables.Unnamed (thread.parentEventCreatedAt.getD createdAt) parent
  root : ∀ root, thread.rootEventId = some root → thread.parentEventId ≠ some root →
    tables.Unnamed (thread.rootEventCreatedAt.getD createdAt) root
  replies : thread.parentEventId = none → thread.rootEventId = none

/-- A deletion names the parent and root that the event was inserted with. -/
def Tables.Clean (self : Tables) : Move → Prop
  | .insert id createdAt thread => (∀ event ∈ self.events, event.id ≠ id) →
      ∀ metadata, thread = some metadata → self.Fits id createdAt metadata
  | .delete id parent root => ∀ event ∈ self.events, event.id = id → event.live →
      parent = event.thread.bind ThreadMetadata.parentEventId ∧
        (parent ≠ none → root = event.thread.bind ThreadMetadata.rootEventId)

end Buzz.Thread
