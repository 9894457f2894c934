import Buzz.Audit.Entry
import Buzz.Library.Page
import Buzz.Replica.Soundness
import Buzz.Req.Query
import Mathlib.Data.Prod.Lex

/-! The pages of a thread in one community, and a client that follows the cursors. -/

namespace Buzz.Thread

open Nostr
open Buzz.Audit (i64ToBeBytes)
open Buzz.Replica
open Buzz.Req (dateMin dateMax dateFromTimestamp)
open Library

inductive DbError
  | sqlx
  | invalidData (message : String)
  deriving DecidableEq

/-- A row of `thread_metadata` joined to its event: one transaction writes both. -/
structure ReplyRow where
  eventId : EventId
  parentEventId : Option EventId
  rootEventId : Option EventId
  channelId : Uuid
  pubkey : Bytes
  createdAt : ℤ
  tags : Json Number
  content : String
  kind : ℤ
  sig : Bytes
  depth : ℤ
  broadcast : Bool
  dated : dateMin ≤ createdAt ∧ createdAt ≤ dateMax

structure ThreadReply where
  eventId : EventId
  parentEventId : Option EventId
  rootEventId : Option EventId
  channelId : Uuid
  pubkey : Bytes
  tags : Json Number
  content : String
  storedEvent : StoredEvent
  depth : ℤ
  createdAt : ℤ
  broadcast : Bool

/-- Rows of `(timestamp, bytea)` compare by the timestamp and then byte by byte. -/
abbrev KeysetKey := ℤ ×ₗ List ℕ

def keysetKey (createdAt : ℤ) (id : Bytes) : KeysetKey := toLex (createdAt, id.map UInt8.toNat)

def ReplyRow.key (self : ReplyRow) : KeysetKey := keysetKey self.createdAt self.eventId.val

def ThreadReply.key (self : ThreadReply) : KeysetKey := keysetKey self.createdAt self.eventId.val

/-- `as i32`. -/
def asI32 (value : UInt32) : ℤ :=
  if value.toNat < 2147483648 then value.toNat else value.toNat - 4294967296

/-- `i64::from_be_bytes`. -/
def i64FromBeBytes (bytes : Bytes) : ℤ :=
  let word : ℕ := bytes.foldl (fun word byte => word * 256 + byte.toNat) 0
  if word < 2 ^ 63 then word else word - 2 ^ 64

/-- A shorter cursor is none, and one of eight bytes has no id. -/
def decodeCursor (cursor : Option Bytes) : Option (ℤ × Option Bytes) :=
  cursor.bind fun bytes =>
    if 8 ≤ bytes.length then
      (dateFromTimestamp (i64FromBeBytes (bytes.take 8))).map fun ts =>
        (ts, if 8 < bytes.length then some (bytes.drop 8) else none)
    else none

def ThreadReply.cursor (self : ThreadReply) : Bytes :=
  i64ToBeBytes self.createdAt ++ self.eventId.val

section query

-- the deserialization of an event from the columns of its row
variable (parse : ReplyRow → Option Event)

def rowToStoredEvent (row : ReplyRow) : Except DbError (Option StoredEvent) :=
  if 0 ≤ row.kind ∧ row.kind ≤ 65535 then
    .ok ((parse row).map fun event => ⟨event, some row.channelId⟩)
  else .error (.invalidData ("kind out of u16 range: " ++ toString row.kind))

def ReplyRow.toReply (self : ReplyRow) (stored : StoredEvent) : ThreadReply where
  eventId := self.eventId
  parentEventId := self.parentEventId
  rootEventId := self.rootEventId
  channelId := self.channelId
  pubkey := self.pubkey
  tags := self.tags
  content := stored.event.content
  storedEvent := stored
  depth := self.depth
  createdAt := self.createdAt
  broadcast := self.broadcast

/-- Rows that are no event any more are skipped. -/
def rebuild : List ReplyRow → Except DbError (List ThreadReply)
  | [] => .ok []
  | row :: rows => do
    let stored ← rowToStoredEvent parse row
    let replies ← rebuild rows
    match stored with
    | some stored => .ok (row.toReply stored :: replies)
    | none => .ok replies

def ReplyRow.inThread (rootEventId : EventId) (depthLimit : Option UInt32) (self : ReplyRow) : Bool :=
  self.rootEventId = some rootEventId &&
    depthLimit.all fun limit => self.depth ≤ asI32 limit

def ReplyRow.afterCursor (cursorKey : Option (ℤ × Option Bytes)) (self : ReplyRow) : Bool :=
  match cursorKey with
  | some (ts, some id) => keysetKey ts id < self.key
  | some (ts, none) => ts < self.createdAt
  | none => true

def ReplyRow.keyLe (first second : ReplyRow) : Bool := first.key ≤ second.key

/-- A negative `LIMIT` is an error. -/
def getThreadRepliesOn (rows : List ReplyRow) (rootEventId : EventId)
    (depthLimit : Option UInt32) (limit : UInt32) (cursor : Option Bytes) :
    Except DbError (List ThreadReply) :=
  if asI32 limit < 0 then .error .sqlx
  else rebuild parse <| Page.page ReplyRow.keyLe
    (fun row => row.inThread rootEventId depthLimit && row.afterCursor (decodeCursor cursor))
    (asI32 limit).toNat rows

end query

inductive ServedBy
  | replica
  | writer
  deriving DecidableEq

/-- A replica's page after a cursor must be full and at or below the proved wall. -/
def getThreadReplies (route : RoutePredicate → Option TokenEntry)
    (replica writer : Except DbError (List ThreadReply)) (limit : UInt32) (cursor : Option Bytes) :
    ServedBy × Except DbError (List ThreadReply) :=
  match route (if cursor.isSome then .coveredPostVerified else .bounded) with
  | none => (.writer, writer)
  | some entry =>
    match replica with
    | .error _ => (.writer, writer)
    | .ok replies =>
      if cursor.isNone then (.replica, .ok replies)
      else if limit.toNat ≤ replies.length ∧
          replies.getLast?.any fun tail => decide (tail.createdAt * 1000000 ≤ entry.fenceWall) then
        (.replica, .ok replies)
      else (.writer, writer)

/-- A soft deletion is an update that no guard sees. -/
structure Change where
  inserted : List ReplyRow
  deleted : List EventId

def Change.apply (self : Change) (rows : List ReplyRow) : List ReplyRow :=
  (rows.filter fun row => !self.deleted.contains row.eventId) ++ self.inserted

def tableAt (changes : List Change) (position : ℕ) : List ReplyRow :=
  (changes.take position).foldl (fun rows change => change.apply rows) []

def ReplyRow.channelRow (self : ReplyRow) : ChannelRow := ⟨self.eventId, self.createdAt * 1000000⟩

/-- A page with its snapshot and the commits at that time. -/
structure Fetch where
  page : List ThreadReply
  servedBy : ServedBy
  position : ℕ
  committed : ℕ

/-- With the pages of one client. -/
structure System where
  replication : Replica.World
  changes : List Change
  fetches : List Fetch

structure Attempt where
  pod : ℕ
  replayed : ℕ
  connected : Bool
  failed : Bool
  now : ℤ
  recheck : ℤ

inductive Action
  | database (action : Replica.Action)
  | commit (transaction : ℕ) (change : Change)
  | fetch (attempt : Attempt)

def System.initial (clock : ℤ) (seed : Uuid) : System := ⟨.initial clock seed, [], []⟩

def System.replies (self : System) : List ThreadReply := (self.fetches.map Fetch.page).flatten

def isCommit : Replica.Action → Bool
  | .commit _ => true
  | _ => false

structure Request where
  config : ReadConfig
  seed : Uuid
  rootEventId : EventId
  depthLimit : Option UInt32
  limit : UInt32

section steps

variable (parse : ReplyRow → Option Event) (request : Request)

def System.cursor (self : System) : Option Bytes := self.replies.getLast?.map ThreadReply.cursor

def System.readAt (self : System) (position : ℕ) : Except DbError (List ThreadReply) :=
  getThreadRepliesOn parse (tableAt self.changes position) request.rootEventId request.depthLimit
    request.limit self.cursor

def System.route (self : System) (attempt : Attempt) (predicate : RoutePredicate) :
    Option TokenEntry :=
  routeRead request.config (self.replication.pods attempt.pod)
    (if attempt.connected then
      some (observe request.seed (self.replication.log.take attempt.replayed)) else none)
    attempt.now attempt.recheck predicate

def System.answer (self : System) (attempt : Attempt) :
    ServedBy × Except DbError (List ThreadReply) :=
  getThreadReplies (self.route request attempt)
    (if attempt.failed then .error .sqlx else self.readAt parse request attempt.replayed)
    (self.readAt parse request self.changes.length) request.limit self.cursor

def System.fetched (self : System) (attempt : Attempt) (servedBy : ServedBy)
    (page : List ThreadReply) : Fetch where
  page
  servedBy
  position := match servedBy with
    | .replica => attempt.replayed
    | .writer => self.changes.length
  committed := self.changes.length

/-- Replies come only by rows that passed the guard. -/
inductive Step : System → Action → System → Prop
  | database {system : System} {action : Replica.Action} {next : Replica.World}
      (moved : Replica.Step system.replication action next) (other : isCommit action = false) :
      Step system (.database action)
        ⟨next, system.changes ++
          List.replicate (next.log.length - system.replication.log.length) ⟨[], []⟩, system.fetches⟩
  | commit {system : System} {transaction : ℕ} {change : Change} {state : Transaction}
      {next : Replica.World} (moved : Replica.Step system.replication (.commit transaction) next)
      (opened : system.replication.transactions transaction = some state)
      (guarded : ∀ row ∈ change.inserted, row.channelRow ∈ state.rows)
      (distinct : ((change.apply (tableAt system.changes system.changes.length)).map
        ReplyRow.key).Nodup) :
      Step system (.commit transaction change) ⟨next, system.changes ++ [change], system.fetches⟩
  | fetch {system : System} {attempt : Attempt} {servedBy : ServedBy} {page : List ThreadReply}
      (replayed : attempt.replayed ≤ system.changes.length)
      (further : ∀ fetch ∈ system.fetches, request.limit.toNat ≤ fetch.page.length)
      (answered : system.answer parse request attempt = (servedBy, .ok page)) :
      Step system (.fetch attempt)
        { system with fetches := system.fetches ++ [system.fetched attempt servedBy page] }

def ReplyRow.Returned (self : ReplyRow) (replies : List ThreadReply) : Prop :=
  ∃ stored, rowToStoredEvent parse self = .ok (some stored) ∧ self.toReply stored ∈ replies

structure System.Stays (system : System) (position : ℕ) (row : ReplyRow) : Prop where
  inThread : row.inThread request.rootEventId request.depthLimit
  live : ∀ n, position ≤ n → n ≤ system.changes.length → row ∈ tableAt system.changes n

/-- Nothing follows a short page, and what stays is there or comes after full pages. -/
structure System.Untruncated (system : System) (snapshot : Fetch → ℕ) : Prop where
  ordered : Scroll.InOrder ThreadReply.key system.replies
  ends : ∀ fetch ∈ system.fetches, fetch.page.length < request.limit.toNat →
    ∀ row ∈ tableAt system.changes (snapshot fetch),
      row.inThread request.rootEventId request.depthLimit →
        ¬ ∀ reply ∈ system.replies, reply.key < row.key
  complete : ∀ first, system.fetches.head? = some first → ∀ row,
    system.Stays request (snapshot first) row → row.Returned parse system.replies ∨
      ∀ fetch ∈ system.fetches, request.limit.toNat ≤ fetch.page.length ∧
        ∀ reply ∈ fetch.page, reply.key < row.key

end steps

end Buzz.Thread
