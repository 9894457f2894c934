import Buzz.Library.Keyed
import Buzz.PairRelay.Checks

/-! The pairing relay: its table of live subscriptions, the event ids that it has seen, and the
connections, which take their steps in any order. -/

namespace Buzz.PairRelay

open Nostr Library
open Json (asObject)

def maxConns : ℕ := 128
def channelCap : ℕ := 4
def rateWindow : ℕ := secs 10
def rateMsgMax : ℕ := 20
def rateEventMax : ℕ := 10
def subIdMax : ℕ := 64
def maxEventsPerConn : ℕ := 6
def maxDeliveredPerP : ℕ := 12
def dedupCap : ℕ := 1024
def deliveredMapCap : ℕ := 4096
def entryTtl : ℕ := secs 300

inductive OutMsg
  | text (value : Json Number)
  | pong (data : Bytes)
  | close

def makeOk (id : String) (ok : Bool) (message : String) : OutMsg :=
  .text (.array [.string "OK", .string id, .bool ok, .string message])

def makeClosed (subId message : String) : OutMsg :=
  .text (.array [.string "CLOSED", .string subId, .string message])

def makeEose (subId : String) : OutMsg := .text (.array [.string "EOSE", .string subId])

def makeNotice (message : String) : OutMsg := .text (.array [.string "NOTICE", .string message])

def makeEvent (subId : String) (event : Json Number) : OutMsg :=
  .text (.array [.string "EVENT", .string subId, event])

structure Sub where
  connId : ℕ
  subId : String
  pValue : PublicKey
  deriving DecidableEq

structure RateWindow where
  count : ℕ
  windowStart : ℕ

def RateWindow.tick (self : RateWindow) (now : ℕ) : RateWindow :=
  if rateWindow ≤ now - self.windowStart then ⟨1, now⟩ else { self with count := self.count + 1 }

/-- Between two of its accesses to shared state. -/
inductive Phase
  | receiving
  | checked (event : Json Number) (eventId : String) (id : EventId) (pValue : PublicKey)
    (checkedAt : ℕ)
  | reserved (event : Json Number) (eventId : String) (id : EventId) (pValue : PublicKey)
  | failed (eventId : String) (id : EventId) (reason : String)
  | leaving

/-- A writer that has ended has none. -/
structure Conn where
  subId : Option String
  msgRate : RateWindow
  eventRate : RateWindow
  eventsAttempted : ℕ
  phase : Phase
  queue : Option (List OutMsg)

namespace Conn

variable (self : Conn)

def new (now : ℕ) : Conn := ⟨none, ⟨0, now⟩, ⟨0, now⟩, 0, .receiving, some []⟩

def trySend (message : OutMsg) : Option Conn :=
  match self.queue with
  | none => none
  | some queue =>
    if queue.length < channelCap then some { self with queue := some (queue ++ [message]) } else none

/-- A message that is lost if there is no place for it. -/
def answer (message : OutMsg) : Conn := (self.trySend message).getD self

def leave : Conn := { self with phase := .leaving }

def receive : Conn := { self with phase := .receiving }

end Conn

inductive Frame
  | error
  | binary
  | ping (data : Bytes)
  | pong
  | close
  | text (parsed : Option (Json Number))

structure Forward where
  sub : Sub
  event : Json Number

/-- The relay with its connections; `forwarded` is what it has done so far. -/
structure Relay where
  now : ℕ
  subs : List Sub
  connCount : ℕ
  nextConnId : ℕ
  seenIds : List (EventId × ℕ)
  delivered : Keyed PublicKey (ℕ × ℕ)
  conns : Keyed ℕ Conn
  forwarded : List Forward

/-- A deadline, the end of a stream or of its writer. -/
inductive Step
  | wait (elapsed : ℕ)
  | connect (upgrades : Bool)
  | receive (connId : ℕ) (frame : Frame)
  | interrupt (connId : ℕ)
  | reserve (connId : ℕ)
  | deliver (connId : ℕ)
  | unreserve (connId : ℕ)
  | teardown (connId : ℕ)
  | write (connId : ℕ)
  | endWriter (connId : ℕ)

namespace Relay

variable (self : Relay)

def start (now : ℕ) : Relay := ⟨now, [], 0, 0, [], .empty, .empty, []⟩

def setConn (connId : ℕ) (conn : Conn) : Relay :=
  { self with conns := self.conns.insert connId conn }

/-- An error without place for another one. -/
def reserveId (id : EventId) : Except Unit Bool × Relay :=
  let seenIds := self.seenIds.filter fun entry => self.now - entry.2 < entryTtl
  if ∃ entry ∈ seenIds, entry.1 = id then (.ok true, { self with seenIds })
  else if dedupCap ≤ seenIds.length then (.error (), { self with seenIds })
  else (.ok false, { self with seenIds := seenIds ++ [(id, self.now)] })

def unreserveId (id : EventId) : Relay :=
  { self with seenIds := self.seenIds.eraseP fun entry => decide (entry.1 = id) }

def forward (sub : Sub) (event : Json Number) : Option Relay := do
  let conn ← self.conns.get sub.connId
  let sent ← conn.trySend (makeEvent sub.subId event)
  some { self.setConn sub.connId sent with forwarded := ⟨sub, event⟩ :: self.forwarded }

def deliverSingle (pValue : PublicKey) (event : Json Number) : Result Bool × Relay :=
  match self.subs.filter fun sub => decide (sub.pValue = pValue) with
  | [] => (.error "no live subscriber", self)
  | [sub] =>
    let delivered := self.delivered.filter fun entry => self.now - entry.2.2 < entryTtl
    let count := ((delivered.get pValue).map Prod.fst).getD 0
    let evicted : Relay := { self with delivered }
    if maxDeliveredPerP ≤ count then (.error "recipient session budget exhausted", evicted)
    else if deliveredMapCap ≤ delivered.entries.length ∧ delivered.get pValue = none then
      (.error "relay at capacity", evicted)
    else
      match evicted.forward sub event with
      | none => (.ok false, evicted)
      | some next =>
        (.ok true, { next with delivered := delivered.insert pValue (count + 1, self.now) })
  | _ => (.error "ambiguous recipient", self)

def removeSub (connId : ℕ) : Relay :=
  { self with subs := self.subs.filter fun sub => decide (sub.connId ≠ connId) }

def handleReq (connId : ℕ) (conn : Conn) (arr : List (Json Number)) : Relay :=
  match arr with
  | _ :: .string clientSubId :: filter :: rest =>
    let closed (subId message : String) := self.setConn connId (conn.answer (makeClosed subId message))
    if subIdMax < clientSubId.utf8ByteSize then closed "" "error: sub_id too long"
    else if rest ≠ [] then closed clientSubId "error: multiple filters not supported"
    else if asObject filter = none then closed clientSubId "error: invalid filter"
    else if conn.subId ≠ none then closed clientSubId "error: already subscribed, send CLOSE first"
    else
      match validateFilter filter with
      | .error reason => closed clientSubId ("error: " ++ reason)
      | .ok pValue =>
        if ∃ sub ∈ self.subs, sub.pValue = pValue then
          closed clientSubId "error: #p already has a live subscriber"
        else
          match conn.trySend (makeEose clientSubId) with
          | none => self.setConn connId conn.leave
          | some sent =>
            { self.setConn connId { sent with subId := some clientSubId } with
              subs := self.subs ++ [⟨connId, clientSubId, pValue⟩] }
  | _ => self.setConn connId (conn.answer (makeNotice "error: invalid REQ"))

def handleEvent (crypto : Crypto) (conn : Conn) (arr : List (Json Number)) : Conn :=
  match arr with
  | [_, event] =>
    let eventRate := conn.eventRate.tick self.now
    let ticked := { conn with eventRate }
    if rateEventMax < eventRate.count then
      ticked.answer (makeOk (safeEventId event) false "rate-limited")
    else if maxEventsPerConn ≤ conn.eventsAttempted then
      ticked.answer (makeOk (safeEventId event) false "error: session event limit reached")
    else if asObject event = none then
      ticked.answer (makeOk "" false "invalid: malformed event")
    else
      match validateEvent self.now event with
      | .error reason => ticked.answer (makeOk (safeEventId event) false ("invalid: " ++ reason))
      | .ok (eventId, id, pValue) =>
        match verifyEventSig crypto event with
        | .error reason => ticked.answer (makeOk eventId false reason)
        | .ok () =>
          { ticked with
            eventsAttempted := conn.eventsAttempted + 1
            phase := .checked event eventId id pValue self.now }
  | _ => conn.answer (makeNotice "error: invalid EVENT")

def handleClose (connId : ℕ) (conn : Conn) (arr : List (Json Number)) : Relay :=
  match arr with
  | [_, .string subId] =>
    if conn.subId = some subId then (self.removeSub connId).setConn connId { conn with subId := none }
    else self.setConn connId conn
  | _ => self.setConn connId (conn.answer (makeNotice "error: invalid CLOSE"))

def handleText (crypto : Crypto) (connId : ℕ) (conn : Conn) (parsed : Option (Json Number)) :
    Relay :=
  match parsed with
  | some (.array (.string verb :: rest)) =>
    let arr := .string verb :: rest
    if verb = "REQ" then self.handleReq connId conn arr
    else if verb = "EVENT" then self.setConn connId (self.handleEvent crypto conn arr)
    else if verb = "CLOSE" then self.handleClose connId conn arr
    else self.setConn connId (conn.answer (makeNotice "error: unsupported message"))
  | _ => self.setConn connId (conn.answer (makeNotice "error: invalid message"))

def receive (crypto : Crypto) (connId : ℕ) (conn : Conn) (frame : Frame) : Relay :=
  let msgRate := conn.msgRate.tick self.now
  let ticked := { conn with msgRate }
  if rateMsgMax < msgRate.count then self.setConn connId ticked.leave
  else
    match frame with
    | .error => self.setConn connId ticked.leave
    | .binary => self.setConn connId ticked.leave
    | .ping data => self.setConn connId ((ticked.trySend (.pong data)).getD ticked.leave)
    | .pong => self.setConn connId ticked
    | .close => self.setConn connId (ticked.answer .close).leave
    | .text parsed => self.handleText crypto connId ticked parsed

def reserve (connId : ℕ) (conn : Conn) : Relay :=
  match conn.phase with
  | .checked event eventId id pValue _ =>
    match self.reserveId id with
    | (.ok true, next) => next.setConn connId
        (conn.receive.answer (makeOk eventId false "duplicate: already seen"))
    | (.error (), next) => next.setConn connId
        (conn.receive.answer (makeOk eventId false "relay at capacity"))
    | (.ok false, next) =>
      next.setConn connId { conn with phase := .reserved event eventId id pValue }
  | _ => self

/-- It is looked up again after the delivery. -/
def deliver (connId : ℕ) (conn : Conn) : Relay :=
  match conn.phase with
  | .reserved event eventId id pValue =>
    match self.deliverSingle pValue event with
    | (.ok true, next) =>
      next.setConn connId
        (((next.conns.get connId).getD conn).receive.answer (makeOk eventId true ""))
    | (.ok false, next) =>
      next.setConn connId { conn with phase := .failed eventId id "delivery failed" }
    | (.error reason, next) =>
      next.setConn connId { conn with phase := .failed eventId id reason }
  | _ => self

def unreserve (connId : ℕ) (conn : Conn) : Relay :=
  match conn.phase with
  | .failed eventId id reason =>
    (self.unreserveId id).setConn connId (conn.receive.answer (makeOk eventId false reason))
  | _ => self

def teardown (connId : ℕ) (conn : Conn) : Relay :=
  match conn.phase with
  | .leaving =>
    { self.removeSub connId with
      conns := self.conns.erase connId
      connCount := self.connCount - 1 }
  | _ => self

def withConn (connId : ℕ) (change : Conn → Relay) : Relay :=
  match self.conns.get connId with
  | some conn => change conn
  | none => self

def isReceiving (conn : Conn) : Bool :=
  match conn.phase with
  | .receiving => true
  | _ => false

def step (crypto : Crypto) : Step → Relay
  | .wait elapsed => { self with now := self.now + elapsed }
  | .connect upgrades =>
    if maxConns ≤ self.connCount then self
    else if upgrades then
      { self.setConn self.nextConnId (.new self.now) with
        connCount := self.connCount + 1
        nextConnId := self.nextConnId + 1 }
    else { self with nextConnId := self.nextConnId + 1 }
  | .receive connId frame => self.withConn connId fun conn =>
    if isReceiving conn then self.receive crypto connId conn frame else self
  | .interrupt connId => self.withConn connId fun conn =>
    if isReceiving conn then self.setConn connId conn.leave else self
  | .reserve connId => self.withConn connId fun conn => self.reserve connId conn
  | .deliver connId => self.withConn connId fun conn => self.deliver connId conn
  | .unreserve connId => self.withConn connId fun conn => self.unreserve connId conn
  | .teardown connId => self.withConn connId fun conn => self.teardown connId conn
  | .write connId => self.withConn connId fun conn =>
    self.setConn connId { conn with queue := conn.queue.map List.tail }
  | .endWriter connId => self.withConn connId fun conn =>
    self.setConn connId { conn with queue := none }

end Relay

end Buzz.PairRelay
