import Buzz.Audit.Preimage
import Buzz.Library.Runs
import Buzz.PairRelay.Relay

/-! Whom the pairing relay forwards an event to, and how often. -/

namespace Buzz.PairRelay

open Nostr Library Library.Runs Library.Results List Option
open Json (asStr asArray asObject asU64 asI64 fromI64 field asI64_range asI64_fromI64)

section events

variable {event other : Json Number} {now later : ℕ} {eventId : String} {id : EventId}
  {pValue : PublicKey} {crypto : Crypto}

def eventIdOf (event : Json Number) : Option EventId :=
  (((asObject event).bind fun obj => field obj "id").bind asStr).bind (decodeHex 32)

def createdAtOf (event : Json Number) : Option ℤ :=
  ((asObject event).bind fun obj => field obj "created_at").bind asI64

def tagsOf (event : Json Number) : Option (List (Json Number)) :=
  ((asObject event).bind fun obj => field obj "tags").bind asArray

/-- The key of the event's only tag. -/
def recipientOf (event : Json Number) : Option PublicKey :=
  (tagsOf event).bind fun tags => (recipient tags).toOption

theorem recipient_ok {tags : List (Json Number)} (ok : recipient tags = .ok pValue) :
    ∃ key, tags = [.array [.string "p", .string key]] := by
  unfold recipient at ok
  obtain ⟨_, one, ok⟩ := bind_ok ok
  obtain ⟨tag, isTag, ok⟩ := bind_ok ok
  obtain ⟨_, two, ok⟩ := bind_ok ok
  obtain ⟨_, isP, ok⟩ := bind_ok ok
  obtain ⟨key, isKey, -⟩ := bind_ok ok
  rw [require_ok] at one two isP
  rw [okOr_ok] at isTag isKey
  obtain ⟨first, rfl⟩ := length_eq_one_iff.mp one
  obtain ⟨name, value, rfl⟩ := length_eq_two.mp two
  refine ⟨key, ?_⟩
  cases first <;> cases isTag
  cases name <;> cases isP
  cases value <;> cases isKey
  rfl

theorem validateEvent_ok (ok : validateEvent now event = .ok (eventId, id, pValue)) :
    eventIdOf event = some id ∧ recipientOf event = some pValue ∧
      (∃ createdAt, createdAtOf event = some createdAt ∧
        (createdAt - unixSecs now).natAbs ≤ freshnessSecs) ∧
      ∃ key, tagsOf event = some [.array [.string "p", .string key]] := by
  unfold validateEvent at ok
  obtain ⟨obj, isObj, ok⟩ := bind_ok ok
  obtain ⟨-, -, ok⟩ := bind_ok ok
  obtain ⟨text, isText, ok⟩ := bind_ok ok
  obtain ⟨bytes, isBytes, ok⟩ := bind_ok ok
  obtain ⟨pubkey, -, ok⟩ := bind_ok ok
  obtain ⟨-, -, ok⟩ := bind_ok ok
  obtain ⟨-, -, ok⟩ := bind_ok ok
  obtain ⟨createdAt, isTime, ok⟩ := bind_ok ok
  obtain ⟨_, fresh, ok⟩ := bind_ok ok
  obtain ⟨content, -, ok⟩ := bind_ok ok
  obtain ⟨-, -, ok⟩ := bind_ok ok
  obtain ⟨sig, -, ok⟩ := bind_ok ok
  obtain ⟨-, -, ok⟩ := bind_ok ok
  obtain ⟨tags, isTags, ok⟩ := bind_ok ok
  obtain ⟨key, isKey, ok⟩ := bind_ok ok
  cases ok
  rw [okOr_ok] at isObj isText isBytes isTime isTags
  rw [require_ok] at fresh
  have tags : tagsOf event = some tags := by rw [tagsOf, isObj, bind_some, isTags]
  refine ⟨?_, ?_, ⟨createdAt, ?_, fresh⟩, ?_⟩
  · rw [eventIdOf, isObj, bind_some, isText, bind_some, isBytes]
  · rw [recipientOf, tags, bind_some, isKey]
    rfl
  · rw [createdAtOf, isObj, bind_some, isTime]
  · obtain ⟨value, rfl⟩ := recipient_ok isKey
    exact ⟨value, tags⟩

def textOf (crypto : Crypto) (event : Json Number) : Option String :=
  (commitment event).toOption.map fun committed => canonicalJson crypto.formatFloat committed.json

theorem verifyEventSig_ok (ok : verifyEventSig crypto event = .ok ()) :
    ∃ committed, commitment event = .ok committed ∧ eventIdOf event =
      some (crypto.sha256 (canonicalJson crypto.formatFloat committed.json)) := by
  unfold verifyEventSig at ok
  obtain ⟨obj, isObj, ok⟩ := bind_ok ok
  obtain ⟨committed, isCommitted, ok⟩ := bind_ok ok
  obtain ⟨text, isText, ok⟩ := bind_ok ok
  obtain ⟨sig, -, ok⟩ := bind_ok ok
  obtain ⟨bytes, isBytes, ok⟩ := bind_ok ok
  obtain ⟨_, isHash, -⟩ := bind_ok ok
  rw [okOr_ok] at isObj isText isBytes
  rw [require_ok] at isHash
  refine ⟨committed, isCommitted, ?_⟩
  rw [eventIdOf, isObj, bind_some, isText, bind_some, isBytes, isHash]

theorem commitment_ok {committed : Commitment} (ok : commitment event = .ok committed) :
    createdAtOf event = some committed.createdAt ∧
      (∀ tags, tagsOf event = some tags → committed.tags = .array tags) := by
  unfold commitment at ok
  obtain ⟨obj, isObj, ok⟩ := bind_ok ok
  obtain ⟨pubkey, -, ok⟩ := bind_ok ok
  obtain ⟨createdAt, isTime, ok⟩ := bind_ok ok
  obtain ⟨kind, -, ok⟩ := bind_ok ok
  obtain ⟨json, isTags, ok⟩ := bind_ok ok
  obtain ⟨content, -, ok⟩ := bind_ok ok
  cases ok
  rw [okOr_ok] at isObj isTime isTags
  constructor
  · rw [createdAtOf, isObj, bind_some, isTime]
  · intro tags read
    rw [tagsOf, isObj, bind_some, isTags, bind_some] at read
    cases json <;> cases read
    rfl

def NoCollision (crypto : Crypto) (events : List (Json Number)) : Prop :=
  ∀ first ∈ events, ∀ second ∈ events, ∀ text ∈ textOf crypto first, ∀ text' ∈ textOf crypto second,
    crypto.sha256 text = crypto.sha256 text' → text = text'

structure Accepted (crypto : Crypto) (events : List (Json Number)) (now : ℕ) (event : Json Number)
    (id : EventId) (pValue : PublicKey) : Prop where
  presented : event ∈ events
  valid : ∃ eventId, validateEvent now event = .ok (eventId, id, pValue)
  verified : verifyEventSig crypto event = .ok ()

variable {events : List (Json Number)}

theorem Accepted.near (printed : FloatText crypto.formatFloat) (apart : NoCollision crypto events)
    {pValue' : PublicKey} (first : Accepted crypto events now event id pValue)
    (second : Accepted crypto events later other id pValue') :
    unixSecs later ≤ unixSecs now + 2 * freshnessSecs := by
  obtain ⟨eventId, valid⟩ := first.valid
  obtain ⟨eventId', valid'⟩ := second.valid
  obtain ⟨isId, -, ⟨createdAt, isTime, fresh⟩, key, isTags⟩ := validateEvent_ok valid
  obtain ⟨isId', -, ⟨createdAt', isTime', fresh'⟩, key', isTags'⟩ := validateEvent_ok valid'
  obtain ⟨committed, isCommitted, hash⟩ := verifyEventSig_ok first.verified
  obtain ⟨committed', isCommitted', hash'⟩ := verifyEventSig_ok second.verified
  obtain ⟨time, tags⟩ := commitment_ok isCommitted
  obtain ⟨time', tags'⟩ := commitment_ok isCommitted'
  have sameHash : crypto.sha256 (canonicalJson crypto.formatFloat committed.json) =
      crypto.sha256 (canonicalJson crypto.formatFloat committed'.json) := by
    have ids := hash.symm.trans (isId.trans (isId'.symm.trans hash'))
    exact Option.some.inj ids
  have sameText : canonicalJson crypto.formatFloat committed.json =
      canonicalJson crypto.formatFloat committed'.json := by
    refine apart event first.presented other second.presented _ ?_ _ ?_ sameHash
    · rw [mem_def, textOf, isCommitted]
      rfl
    · rw [mem_def, textOf, isCommitted']
      rfl
  have sorted : committed.json.Each (fun _ => True) Json.KeysSorted := by
    simp [Commitment.json, tags _ isTags, Json.Each, Json.EachItem]
  have sorted' : committed'.json.Each (fun _ => True) Json.KeysSorted := by
    simp [Commitment.json, tags' _ isTags', Json.Each, Json.EachItem]
  have same := @canonicalJson_injective _ printed ⟨_, sorted⟩ ⟨_, sorted'⟩ sameText
  have sameTime : createdAt = createdAt' := by
    have json := congrArg Value.json same
    simp only [Commitment.json, Json.array.injEq, List.cons.injEq, Json.number.injEq] at json
    cases time.symm.trans isTime
    cases time'.symm.trans isTime'
    obtain ⟨_, -, read⟩ := bind_eq_some_iff.mp isTime
    obtain ⟨_, -, read'⟩ := bind_eq_some_iff.mp isTime'
    have back := congrArg (fun number => asI64 (.number number)) json.2.2.1
    rw [asI64_fromI64 (asI64_range read), asI64_fromI64 (asI64_range read')] at back
    exact Option.some.inj back
  omega

end events

def Forward.id? (self : Forward) : Option EventId := eventIdOf self.event

/-- The connection has reserved the id, and has not given it up. -/
def Conn.Handles (conn : Conn) (id : EventId) : Prop :=
  match conn.phase with
  | .reserved _ _ held _ => held = id
  | .failed _ held _ => held = id
  | _ => False

def Conn.Sound (crypto : Crypto) (events : List (Json Number)) (now : ℕ) (conn : Conn) : Prop :=
  match conn.phase with
  | .checked event _ id pValue checkedAt =>
    checkedAt ≤ now ∧ Accepted crypto events checkedAt event id pValue
  | .reserved event _ id pValue =>
    ∃ checkedAt ≤ now, Accepted crypto events checkedAt event id pValue
  | _ => True

/-- A connection answers at once, is going to leave, or has checked an event. -/
def Conn.Goes (crypto : Crypto) (events : List (Json Number)) (now : ℕ) (next : Conn) : Prop :=
  next.phase = .receiving ∨ next.phase = .leaving ∨ ∃ event eventId id pValue,
    Accepted crypto events now event id pValue ∧ next.phase = .checked event eventId id pValue now

variable {events : List (Json Number)}

theorem Conn.Goes.sound {crypto : Crypto} {now : ℕ} {next : Conn}
    (goes : next.Goes crypto events now) :
    next.Sound crypto events now := by
  unfold Conn.Sound
  rcases goes with phase | phase | ⟨event, eventId, id, pValue, accepted, phase⟩
  · rw [phase]
    trivial
  · rw [phase]
    trivial
  · rw [phase]
    exact ⟨le_rfl, accepted⟩

theorem Conn.Goes.unhandled {crypto : Crypto} {now : ℕ}
    {next : Conn} (goes : next.Goes crypto events now) (id : EventId) :
    ¬ next.Handles id := by
  unfold Conn.Handles
  rcases goes with phase | phase | ⟨event, eventId, id, pValue, accepted, phase⟩
  · rw [phase]
    exact not_false
  · rw [phase]
    exact not_false
  · rw [phase]
    exact not_false

namespace Relay

variable {relay : Relay} {crypto : Crypto} {events : List (Json Number)} {connId : ℕ}
  {conn next : Conn}

/-- In between two steps. -/
structure Tidy (crypto : Crypto) (events : List (Json Number)) (relay : Relay) : Prop where
  keys : (relay.subs.map Sub.pValue).Nodup
  connections : (relay.subs.map Sub.connId).Nodup
  owners : ∀ sub ∈ relay.subs, ∃ conn, relay.conns.get sub.connId = some conn ∧
    conn.subId = some sub.subId
  older : ∀ connId conn, relay.conns.get connId = some conn → connId < relay.nextConnId
  unique : (relay.seenIds.map Prod.fst).Nodup
  accounted : ∀ entry ∈ relay.seenIds, (∃ sent ∈ relay.forwarded, sent.id? = some entry.1) ∨
    ∃ connId conn, relay.conns.get connId = some conn ∧ conn.Handles entry.1
  addressed : ∀ sent ∈ relay.forwarded, recipientOf sent.event = some sent.sub.pValue
  sound : ∀ connId conn, relay.conns.get connId = some conn → conn.Sound crypto events relay.now

theorem get_setConn (other : ℕ) : (relay.setConn connId next).conns.get other =
    if other = connId then some next else relay.conns.get other :=
  Keyed.get_insert _

section

variable (tidy : relay.Tidy crypto events)

include tidy

section

variable (found : relay.conns.get connId = some conn)

include found

/-- Or another connection handles it. -/
theorem Tidy.handled {entry : EventId × ℕ} (isSeen : entry ∈ relay.seenIds) :
    (∃ sent ∈ relay.forwarded, sent.id? = some entry.1) ∨ conn.Handles entry.1 ∨
      ∃ place other, place ≠ connId ∧ relay.conns.get place = some other ∧ other.Handles entry.1 := by
  rcases tidy.accounted entry isSeen with sent | ⟨place, other, isOther, handles⟩
  · exact .inl sent
  · by_cases same : place = connId
    · subst same
      cases found.symm.trans isOther
      exact .inr (.inl handles)
    · exact .inr (.inr ⟨place, other, same, isOther, handles⟩)

theorem Tidy.turn (sameSub : next.subId = conn.subId) (isSound : next.Sound crypto events relay.now)
    {seenIds : List (EventId × ℕ)} {delivered : Keyed PublicKey (ℕ × ℕ)} {forwarded : List Forward}
    (unique : (seenIds.map Prod.fst).Nodup)
    (accounted : ∀ entry ∈ seenIds, (∃ sent ∈ forwarded, sent.id? = some entry.1) ∨
      next.Handles entry.1 ∨ ∃ place other, place ≠ connId ∧ relay.conns.get place = some other ∧
        other.Handles entry.1)
    (addressed : ∀ sent ∈ forwarded, recipientOf sent.event = some sent.sub.pValue) :
    Tidy crypto events ({ relay with seenIds, delivered, forwarded }.setConn connId next) where
  keys := tidy.keys
  connections := tidy.connections
  owners sub isSub := by
    obtain ⟨owner, isOwner, isId⟩ := tidy.owners sub isSub
    rw [get_setConn]
    split
    next same =>
      rw [same, found] at isOwner
      cases isOwner
      exact ⟨next, rfl, sameSub.trans isId⟩
    · exact ⟨owner, isOwner, isId⟩
  older place other isOther := by
    rw [get_setConn] at isOther
    split at isOther
    next same =>
      subst same
      exact tidy.older _ conn found
    · exact tidy.older place other isOther
  unique
  accounted entry isEntry := by
    rcases accounted entry isEntry with sent | handles | ⟨place, other, different, isOther, handles⟩
    · exact .inl sent
    · refine .inr ⟨connId, next, ?_, handles⟩
      rw [get_setConn, if_pos rfl]
    · refine .inr ⟨place, other, ?_, handles⟩
      rw [get_setConn, if_neg different]
      exact isOther
  addressed
  sound place other isOther := by
    rw [get_setConn] at isOther
    split at isOther
    · cases isOther
      exact isSound
    · exact tidy.sound place other isOther

theorem Tidy.settle
    (sameSub : next.subId = conn.subId) (isSound : next.Sound crypto events relay.now)
    (keeps : ∀ id, conn.Handles id → next.Handles id) :
    Tidy crypto events (relay.setConn connId next) := by
  refine tidy.turn found sameSub isSound tidy.unique ?_ tidy.addressed
  intro entry isSeen
  rcases tidy.handled found isSeen with sent | handles | others
  · exact .inl sent
  · exact .inr (.inl (keeps _ handles))
  · exact .inr (.inr others)

end

end

theorem answer_subId (message : OutMsg) : (conn.answer message).subId = conn.subId := by
  unfold Conn.answer Conn.trySend
  split
  · rfl
  · split
    · rfl
    · rfl

theorem answer_phase (message : OutMsg) : (conn.answer message).phase = conn.phase := by
  unfold Conn.answer Conn.trySend
  split
  · rfl
  · split
    · rfl
    · rfl

theorem trySend_some {message : OutMsg} (sent : conn.trySend message = some next) :
    next.subId = conn.subId ∧ next.phase = conn.phase := by
  have same : conn.answer message = next := by rw [Conn.answer, sent, getD_some]
  rw [← same]
  exact ⟨answer_subId message, answer_phase message⟩

theorem sound_of_phase {now : ℕ} (same : next.phase = conn.phase)
    (isSound : conn.Sound crypto events now) : next.Sound crypto events now := by
  unfold Conn.Sound at isSound ⊢
  rw [same]
  exact isSound

theorem handles_of_phase {id : EventId} (same : next.phase = conn.phase) (handles : conn.Handles id) :
    next.Handles id := by
  unfold Conn.Handles at handles ⊢
  rw [same]
  exact handles

section receives

variable {arr : List (Json Number)}

theorem not_handles (receiving : conn.phase = .receiving) {id : EventId} : ¬ conn.Handles id := by
  unfold Conn.Handles
  rw [receiving]
  exact not_false

theorem Tidy.subscribe (tidy : relay.Tidy crypto events)
    (found : relay.conns.get connId = some conn) (unsubscribed : conn.subId = none)
    {clientSubId : String} {pValue : PublicKey} (free : ¬ ∃ sub ∈ relay.subs, sub.pValue = pValue)
    (isSub : next.subId = some clientSubId) (receiving : next.phase = .receiving)
    (wasReceiving : conn.phase = .receiving) :
    Tidy crypto events { relay.setConn connId next with
      subs := relay.subs ++ [⟨connId, clientSubId, pValue⟩] } := by
  have others : ∀ sub ∈ relay.subs, sub.connId ≠ connId := by
    intro sub isOther same
    obtain ⟨owner, isOwner, isId⟩ := tidy.owners sub isOther
    rw [same, found] at isOwner
    cases isOwner
    cases unsubscribed.symm.trans isId
  have notHandled : ∀ id, ¬ conn.Handles id := fun id => not_handles wasReceiving
  constructor
  · rw [map_append]
    refine nodup_append.mpr ⟨tidy.keys, nodup_singleton _, ?_⟩
    rintro key isKey other isOther rfl
    obtain ⟨sub, isSub, rfl⟩ := mem_map.mp isKey
    exact free ⟨sub, isSub, mem_singleton.mp isOther⟩
  · rw [map_append]
    refine nodup_append.mpr ⟨tidy.connections, nodup_singleton _, ?_⟩
    rintro place isPlace other isOther rfl
    obtain ⟨sub, isSub, rfl⟩ := mem_map.mp isPlace
    exact others sub isSub (mem_singleton.mp isOther)
  · intro sub isMember
    change ∃ owner, (relay.setConn connId next).conns.get sub.connId = some owner ∧ _
    rw [get_setConn]
    rcases mem_append.mp isMember with old | new
    · rw [if_neg (others sub old)]
      exact tidy.owners sub old
    · cases mem_singleton.mp new
      rw [if_pos rfl]
      exact ⟨next, rfl, isSub⟩
  · intro place other isOther
    change (relay.setConn connId next).conns.get place = some other at isOther
    rw [get_setConn] at isOther
    split at isOther
    next same =>
      subst same
      exact tidy.older _ conn found
    · exact tidy.older place other isOther
  · exact tidy.unique
  · intro entry isSeen
    rcases tidy.handled found isSeen with sent | handles | ⟨place, other, different, isOther, handles⟩
    · exact .inl sent
    · exact (notHandled _ handles).elim
    · refine .inr ⟨place, other, ?_, handles⟩
      change (relay.setConn connId next).conns.get place = some other
      rw [get_setConn, if_neg different]
      exact isOther
  · exact tidy.addressed
  · intro place other isOther
    change (relay.setConn connId next).conns.get place = some other at isOther
    rw [get_setConn] at isOther
    split at isOther
    · cases isOther
      unfold Conn.Sound
      rw [receiving]
      trivial
    · exact tidy.sound place other isOther

theorem Tidy.unsubscribe (tidy : relay.Tidy crypto events)
    (found : relay.conns.get connId = some conn) (unhandled : ∀ id, ¬ conn.Handles id)
    {conns : Keyed ℕ Conn} {connCount : ℕ}
    (same : ∀ place, place ≠ connId → conns.get place = relay.conns.get place)
    (own : ∀ other, conns.get connId = some other → other.Sound crypto events relay.now) :
    Tidy crypto events { relay.removeSub connId with conns, connCount } := by
  have stays {sub : Sub} (isSub : sub ∈ (relay.removeSub connId).subs) :
      sub ∈ relay.subs ∧ sub.connId ≠ connId := by
    obtain ⟨old, different⟩ := mem_filter.mp isSub
    exact ⟨old, of_decide_eq_true different⟩
  constructor
  · exact tidy.keys.sublist (filter_sublist.map _)
  · exact tidy.connections.sublist (filter_sublist.map _)
  · intro sub isSub
    obtain ⟨old, different⟩ := stays isSub
    dsimp only
    rw [same _ different]
    exact tidy.owners sub old
  · intro place other isOther
    by_cases here : place = connId
    · subst here
      exact tidy.older _ conn found
    · exact tidy.older place other ((same place here).symm.trans isOther)
  · exact tidy.unique
  · intro entry isSeen
    rcases tidy.handled found isSeen with sent | handles | ⟨place, other, different, isOther, handles⟩
    · exact .inl sent
    · exact (unhandled _ handles).elim
    · exact .inr ⟨place, other, (same place different).trans isOther, handles⟩
  · exact tidy.addressed
  · intro place other isOther
    by_cases here : place = connId
    · subst here
      exact own other isOther
    · exact tidy.sound place other ((same place here).symm.trans isOther)

inductive Received (crypto : Crypto) (events : List (Json Number)) (relay : Relay) (connId : ℕ)
    (conn : Conn) : Relay → Prop
  | settled (next : Conn) (sameSub : next.subId = conn.subId)
    (goes : Conn.Goes crypto events relay.now next) :
    Received crypto events relay connId conn (relay.setConn connId next)
  | subscribed (next : Conn) (unsubscribed : conn.subId = none) (clientSubId : String)
    (pValue : PublicKey) (free : ¬ ∃ sub ∈ relay.subs, sub.pValue = pValue)
    (isSub : next.subId = some clientSubId) (receiving : next.phase = .receiving) :
    Received crypto events relay connId conn { relay.setConn connId next with
      subs := relay.subs ++ [⟨connId, clientSubId, pValue⟩] }
  | unsubscribed (next : Conn) (receiving : next.phase = .receiving) :
    Received crypto events relay connId conn ((relay.removeSub connId).setConn connId next)

section received

variable {ticked : Conn}

section

variable (sameSub : ticked.subId = conn.subId)

include sameSub

section

variable (samePhase : ticked.phase = .receiving)

include samePhase

theorem received_answer (message : OutMsg) :
    Received crypto events relay connId conn (relay.setConn connId (ticked.answer message)) :=
  .settled _ ((answer_subId message).trans sameSub) (.inl ((answer_phase message).trans samePhase))

theorem handleReq_received :
    Received crypto events relay connId conn (relay.handleReq connId ticked arr) := by
  have closed (subId message : String) : Received crypto events relay connId conn
      (relay.setConn connId (ticked.answer (makeClosed subId message))) :=
    received_answer sameSub samePhase _
  unfold Relay.handleReq
  split
  · dsimp only
    split
    · exact closed _ _
    · split
      · exact closed _ _
      · split
        · exact closed _ _
        · split
          · exact closed _ _
          next unsubscribed =>
            split
            · exact closed _ _
            · split
              · exact closed _ _
              next free =>
                split
                · exact .settled _ sameSub (.inr (.inl rfl))
                next sent isSent =>
                  obtain ⟨-, sentPhase⟩ := trySend_some isSent
                  exact .subscribed _ (sameSub.symm.trans (not_not.mp unsubscribed)) _ _ free rfl
                    (sentPhase.trans samePhase)
  · exact received_answer sameSub samePhase _

theorem handleClose_received :
    Received crypto events relay connId conn (relay.handleClose connId ticked arr) := by
  unfold Relay.handleClose
  split
  · split
    · exact .unsubscribed _ samePhase
    · exact .settled _ sameSub (.inl samePhase)
  · exact received_answer sameSub samePhase _

end

end

theorem handleEvent_goes (samePhase : ticked.phase = .receiving)
    (presented : ∀ verb event, arr = [verb, event] → event ∈ events) :
    (relay.handleEvent crypto ticked arr).subId = ticked.subId ∧
      Conn.Goes crypto events relay.now (relay.handleEvent crypto ticked arr) := by
  have answered (eventRate : RateWindow) (message : OutMsg) :
      ({ ticked with eventRate }.answer message).subId = ticked.subId ∧
        Conn.Goes crypto events relay.now ({ ticked with eventRate }.answer message) :=
    ⟨answer_subId message, .inl ((answer_phase message).trans samePhase)⟩
  unfold Relay.handleEvent
  split
  next verb event =>
    dsimp only
    split
    · exact answered _ _
    · split
      · exact answered _ _
      · split
        · exact answered _ _
        · split
          · exact answered _ _
          next valid =>
            split
            · exact answered _ _
            next verified =>
              refine ⟨rfl, .inr (.inr ⟨event, _, _, _, ⟨?_, ⟨_, valid⟩, verified⟩, rfl⟩)⟩
              exact presented verb event rfl
  · exact answered _ _

theorem handleText_received {parsed : Option (Json Number)} (sameSub : ticked.subId = conn.subId)
    (samePhase : ticked.phase = .receiving)
    (presented : ∀ verb event, parsed = some (.array [verb, event]) → event ∈ events) :
    Received crypto events relay connId conn (relay.handleText crypto connId ticked parsed) := by
  unfold Relay.handleText
  split
  next verb rest =>
    dsimp only
    split
    · exact handleReq_received sameSub samePhase
    · split
      · have inside : ∀ name event, Json.string verb :: rest = [name, event] → event ∈ events := by
          intro name event isArray
          exact presented name event (by rw [isArray])
        obtain ⟨same, goes⟩ := @handleEvent_goes relay crypto events _ ticked samePhase inside
        exact .settled _ (same.trans sameSub) goes
      · split
        · exact handleClose_received sameSub samePhase
        · exact received_answer sameSub samePhase _
  · exact received_answer sameSub samePhase _

theorem receive_received {frame : Frame} (receiving : conn.phase = .receiving)
    (presented : ∀ verb event, frame = .text (some (.array [verb, event])) → event ∈ events) :
    Received crypto events relay connId conn (relay.receive crypto connId conn frame) := by
  unfold Relay.receive
  dsimp only
  split
  · exact .settled _ rfl (.inr (.inl rfl))
  · split
    · exact .settled _ rfl (.inr (.inl rfl))
    · exact .settled _ rfl (.inr (.inl rfl))
    next data =>
      cases isSent : ({ conn with msgRate := conn.msgRate.tick relay.now } : Conn).trySend
          (.pong data) with
      | none => exact .settled _ rfl (.inr (.inl rfl))
      | some sent =>
        obtain ⟨sameSub, samePhase⟩ := trySend_some isSent
        exact .settled _ sameSub (.inl (samePhase.trans receiving))
    · exact .settled _ rfl (.inl receiving)
    · exact .settled _ (answer_subId _) (.inr (.inl rfl))
    · refine handleText_received rfl receiving fun verb event isText => ?_
      exact presented verb event (congrArg Frame.text isText)

end received

theorem Tidy.received (tidy : relay.Tidy crypto events)
    (found : relay.conns.get connId = some conn) (receiving : conn.phase = .receiving)
    {after : Relay} (received : Received crypto events relay connId conn after) :
    after.Tidy crypto events := by
  cases received with
  | settled next sameSub goes =>
    exact tidy.settle found sameSub goes.sound fun id handles =>
      (not_handles receiving handles).elim
  | subscribed next unsubscribed clientSubId pValue free isSub phase =>
    exact tidy.subscribe found unsubscribed free isSub phase receiving
  | unsubscribed next phase =>
    refine tidy.unsubscribe found (fun id => not_handles receiving) ?_ ?_
    · exact fun place different => (Keyed.get_insert _).trans (if_neg different)
    · intro other isOther
      cases ((Keyed.get_insert _).trans (if_pos rfl)).symm.trans isOther
      unfold Conn.Sound
      rw [phase]
      trivial

end receives

variable {id : EventId} {after : Relay}

section reservations

/-- The ids that are not forgotten yet. -/
def remembered (relay : Relay) : List (EventId × ℕ) :=
  relay.seenIds.filter fun entry => relay.now - entry.2 < entryTtl

theorem reserveId_cases :
    ((∃ entry ∈ relay.remembered, entry.1 = id) ∧
        relay.reserveId id = (.ok true, { relay with seenIds := relay.remembered })) ∨
      relay.reserveId id = (.error (), { relay with seenIds := relay.remembered }) ∨
      ((∀ entry ∈ relay.remembered, entry.1 ≠ id) ∧ relay.reserveId id =
        (.ok false, { relay with seenIds := relay.remembered ++ [(id, relay.now)] })) := by
  unfold Relay.reserveId
  dsimp only
  split
  next known => exact .inl ⟨known, rfl⟩
  next unknown =>
    split
    · exact .inr (.inl rfl)
    · refine .inr (.inr ⟨fun entry isEntry same => ?_, rfl⟩)
      exact unknown ⟨entry, isEntry, same⟩

variable {entry : EventId × ℕ}

theorem mem_remembered : entry ∈ relay.remembered ↔
    entry ∈ relay.seenIds ∧ relay.now - entry.2 < entryTtl := by
  rw [remembered, mem_filter, decide_eq_true_eq]

theorem Tidy.evict (tidy : relay.Tidy crypto events) (found : relay.conns.get connId = some conn)
    (sameSub : next.subId = conn.subId) (isSound : next.Sound crypto events relay.now)
    (unhandled : ∀ id, ¬ conn.Handles id) :
    Tidy crypto events ({ relay with seenIds := relay.remembered }.setConn connId next) := by
  refine tidy.turn found sameSub isSound ?_ ?_ tidy.addressed
  · exact tidy.unique.sublist (filter_sublist.map _)
  · intro entry isEntry
    rcases tidy.handled found (mem_remembered.mp isEntry).1 with sent | handles | others
    · exact .inl sent
    · exact (unhandled _ handles).elim
    · exact .inr (.inr others)

theorem answered_sound {answering : Conn} (receiving : answering.phase = .receiving)
    (message : OutMsg) : (answering.answer message).Sound crypto events relay.now := by
  unfold Conn.Sound
  rw [answer_phase, receiving]
  trivial

theorem Tidy.reserve (tidy : relay.Tidy crypto events)
    (found : relay.conns.get connId = some conn) :
    (relay.reserve connId conn).Tidy crypto events := by
  have isSound := tidy.sound connId conn found
  unfold Relay.reserve
  split
  next event eventId id pValue checkedAt isChecked =>
    have unhandled (other : EventId) : ¬ conn.Handles other := by
      unfold Conn.Handles
      rw [isChecked]
      exact not_false
    rw [Conn.Sound, isChecked] at isSound
    rcases @reserveId_cases relay id with ⟨-, known⟩ | full | ⟨unknown, reserved⟩
    · rw [known]
      exact tidy.evict found (answer_subId _) (answered_sound rfl _) unhandled
    · rw [full]
      exact tidy.evict found (answer_subId _) (answered_sound rfl _) unhandled
    · rw [reserved]
      have accepted : Conn.Sound crypto events relay.now
          { conn with phase := .reserved event eventId id pValue } :=
        ⟨checkedAt, isSound⟩
      refine tidy.turn found ?_ accepted ?_ ?_ tidy.addressed
      · rfl
      · rw [map_append]
        refine nodup_append.mpr ⟨?_, nodup_singleton _, ?_⟩
        · exact tidy.unique.sublist (filter_sublist.map _)
        · rintro other isOther same isSame rfl
          obtain ⟨entry, isEntry, rfl⟩ := mem_map.mp isOther
          exact unknown entry isEntry (mem_singleton.mp isSame)
      · intro entry isEntry
        rcases mem_append.mp isEntry with old | new
        · rcases tidy.handled found (mem_remembered.mp old).1 with sent | handles | others
          · exact .inl sent
          · exact (unhandled _ handles).elim
          · exact .inr (.inr others)
        · cases mem_singleton.mp new
          exact .inr (.inl rfl)
  · exact tidy

theorem mem_eraseP {entries : List (EventId × ℕ)} (unique : (entries.map Prod.fst).Nodup)
    (member : entry ∈ entries.eraseP (·.1 = id)) :
    entry ∈ entries ∧ entry.1 ≠ id := by
  induction entries with
  | nil => cases member
  | cons first rest ih =>
    rw [map_cons, nodup_cons] at unique
    rw [eraseP_cons] at member
    by_cases isFirst : first.1 = id
    · rw [decide_eq_true isFirst] at member
      refine ⟨mem_cons_of_mem _ member, fun same => ?_⟩
      exact unique.1 (mem_map.mpr ⟨entry, member, same.trans isFirst.symm⟩)
    · rw [decide_eq_false isFirst] at member
      rcases mem_cons.mp member with rfl | later
      · exact ⟨mem_cons_self, isFirst⟩
      · obtain ⟨inside, different⟩ := ih unique.2 later
        exact ⟨mem_cons_of_mem _ inside, different⟩

theorem Tidy.unreserve (tidy : relay.Tidy crypto events)
    (found : relay.conns.get connId = some conn) :
    (relay.unreserve connId conn).Tidy crypto events := by
  unfold Relay.unreserve
  split
  next eventId id reason isFailed =>
    refine tidy.turn found ?_ ?_ ?_ ?_ tidy.addressed
    · exact answer_subId _
    · exact answered_sound rfl _
    · exact tidy.unique.sublist (eraseP_sublist.map _)
    · intro entry isEntry
      obtain ⟨inside, different⟩ := mem_eraseP tidy.unique isEntry
      rcases tidy.handled found inside with sent | handles | others
      · exact .inl sent
      · rw [Conn.Handles, isFailed] at handles
        exact absurd handles.symm different
      · exact .inr (.inr others)
  · exact tidy

end reservations

section deliveries

variable {event : Json Number} {pValue : PublicKey} {sub : Sub}

theorem forward_some (sent : relay.forward sub event = some after) :
    ∃ owner queued, relay.conns.get sub.connId = some owner ∧
      owner.trySend (makeEvent sub.subId event) = some queued ∧
      after = { relay.setConn sub.connId queued with
        forwarded := ⟨sub, event⟩ :: relay.forwarded } := by
  unfold Relay.forward at sent
  obtain ⟨owner, isOwner, sent⟩ := bind_eq_some_iff.mp sent
  obtain ⟨queued, isQueued, sent⟩ := bind_eq_some_iff.mp sent
  cases sent
  exact ⟨owner, queued, isOwner, isQueued, rfl⟩

theorem deliverSingle_cases :
    (∃ outcome delivered, outcome ≠ .ok true ∧
        relay.deliverSingle pValue event = (outcome, { relay with delivered }) ∧
        (outcome = .error "ambiguous recipient" → ∃ first second rest,
          (relay.subs.filter (·.pValue = pValue)) = first :: second :: rest)) ∨
      ∃ sub delivered delivered' after, sub ∈ relay.subs ∧ sub.pValue = pValue ∧
        Relay.forward { relay with delivered } sub event = some after ∧
        relay.deliverSingle pValue event = (.ok true, { after with delivered := delivered' }) := by
  unfold Relay.deliverSingle
  split
  · exact .inl ⟨_, relay.delivered, by simp, rfl, by simp⟩
  next sub only =>
    dsimp only
    split
    · exact .inl ⟨_, _, by simp, rfl, by simp⟩
    · split
      · exact .inl ⟨_, _, by simp, rfl, by simp⟩
      · split
        · exact .inl ⟨_, _, by simp, rfl, by simp⟩
        next sent =>
          have member : sub ∈ relay.subs.filter fun sub => decide (sub.pValue = pValue) := by
            rw [only]
            exact mem_singleton_self sub
          obtain ⟨isSub, isKey⟩ := mem_filter.mp member
          exact .inr ⟨sub, _, _, _, isSub, of_decide_eq_true isKey, sent, rfl⟩
  next notNone notOne =>
    refine .inl ⟨_, relay.delivered, by simp, rfl, fun _ => ?_⟩
    cases matching : relay.subs.filter fun sub => decide (sub.pValue = pValue) with
    | nil => exact absurd matching notNone
    | cons first rest =>
      cases rest with
      | nil => exact absurd matching (notOne first)
      | cons second rest => exact ⟨first, second, rest, rfl⟩

variable {eventId : String}

def served (connId : ℕ) (conn : Conn) (sub : Sub) (queued : Conn) (eventId : String) : Conn :=
  (if connId = sub.connId then queued else conn).receive.answer (makeOk eventId true "")

theorem deliver_cases (found : relay.conns.get connId = some conn)
    (isReserved : conn.phase = .reserved event eventId id pValue) :
    (∃ delivered reason, relay.deliver connId conn =
        { relay with delivered }.setConn connId
          { conn with phase := .failed eventId id reason }) ∨
      ∃ sub delivered owner queued, sub ∈ relay.subs ∧ sub.pValue = pValue ∧
        relay.conns.get sub.connId = some owner ∧
        owner.trySend (makeEvent sub.subId event) = some queued ∧
        relay.deliver connId conn =
          (Relay.setConn { relay with
              delivered, forwarded := ⟨sub, event⟩ :: relay.forwarded } sub.connId queued).setConn
            connId (Relay.served connId conn sub queued eventId) := by
  unfold Relay.deliver
  rw [isReserved]
  dsimp only
  rcases @deliverSingle_cases relay event pValue with
    ⟨outcome, delivered, notDelivered, single, -⟩ |
      ⟨sub, before, delivered, after, isSub, isKey, sent, single⟩
  · rw [single]
    cases outcome with
    | ok sent =>
      cases sent with
      | true => exact absurd rfl notDelivered
      | false => exact .inl ⟨delivered, _, rfl⟩
    | error reason => exact .inl ⟨delivered, reason, rfl⟩
  · obtain ⟨owner, queued, isOwner, isQueued, rfl⟩ := forward_some sent
    refine .inr ⟨sub, delivered, owner, queued, isSub, isKey, isOwner, isQueued, ?_⟩
    rw [single]
    dsimp only
    have sender : ((relay.setConn sub.connId queued).conns.get connId).getD conn =
        if connId = sub.connId then queued else conn := by
      rw [get_setConn]
      split
      · rfl
      · rw [found, getD_some]
    rw [Relay.served, ← sender]
    rfl

theorem Tidy.deliver (tidy : relay.Tidy crypto events)
    (found : relay.conns.get connId = some conn) :
    (relay.deliver connId conn).Tidy crypto events := by
  cases isPhase : conn.phase with
  | reserved event eventId id pValue =>
    have isSound := tidy.sound connId conn found
    rw [Conn.Sound, isPhase] at isSound
    obtain ⟨checkedAt, -, accepted⟩ := isSound
    obtain ⟨text, valid⟩ := accepted.valid
    obtain ⟨isId, isRecipient, -⟩ := validateEvent_ok valid
    rcases deliver_cases found isPhase with ⟨delivered, reason, failed⟩ |
      ⟨sub, delivered, owner, queued, isSub, isKey, isOwner, isQueued, sent⟩
    · rw [failed]
      refine tidy.turn found ?_ ?_ tidy.unique ?_ tidy.addressed
      · rfl
      · trivial
      · intro entry isSeen
        rcases tidy.handled found isSeen with sent | handles | others
        · exact .inl sent
        · rw [Conn.Handles, isPhase] at handles
          exact .inr (.inl handles)
        · exact .inr (.inr others)
    · rw [sent]
      obtain ⟨sameSub, samePhase⟩ := trySend_some isQueued
      have queue : Tidy crypto events (Relay.setConn { relay with
          delivered, forwarded := ⟨sub, event⟩ :: relay.forwarded } sub.connId queued) := by
        have ownerSound := tidy.sound sub.connId owner isOwner
        refine tidy.turn isOwner sameSub (sound_of_phase samePhase ownerSound) tidy.unique ?_ ?_
        · intro entry isSeen
          rcases tidy.handled isOwner isSeen with ⟨old, isOld, isId⟩ | handles | others
          · exact .inl ⟨old, mem_cons_of_mem _ isOld, isId⟩
          · exact .inr (.inl (handles_of_phase samePhase handles))
          · exact .inr (.inr others)
        · intro other isOther
          rcases mem_cons.mp isOther with rfl | old
          · rw [isRecipient, isKey]
          · exact tidy.addressed other old
      have again : (Relay.setConn { relay with
          delivered, forwarded := ⟨sub, event⟩ :: relay.forwarded } sub.connId queued).conns.get
            connId = some (if connId = sub.connId then queued else conn) := by
        rw [get_setConn]
        split
        · rfl
        · exact found
      refine queue.turn again ?_ ?_ queue.unique ?_ queue.addressed
      · exact answer_subId _
      · exact answered_sound rfl _
      · intro entry isSeen
        rcases queue.handled again isSeen with sent | handles | others
        · exact .inl sent
        · have sender : (if connId = sub.connId then queued else conn).phase =
              .reserved event eventId id pValue := by
            split
            next same =>
              rw [same, isOwner] at found
              cases found
              exact samePhase.trans isPhase
            · exact isPhase
          rw [Conn.Handles, sender] at handles
          refine .inl ⟨⟨sub, event⟩, mem_cons_self, ?_⟩
          rw [Forward.id?, isId]
          exact congrArg some handles
        · exact .inr (.inr others)
  | _ =>
    rw [Relay.deliver, isPhase]
    exact tidy

end deliveries

def Step.presented : Step → Option (Json Number)
  | .receive _ (.text (some (.array [_, event]))) => some event
  | _ => none

theorem receiving_of_isReceiving (receiving : isReceiving conn) :
    conn.phase = .receiving := by
  unfold isReceiving at receiving
  split at receiving
  next isPhase => exact isPhase
  · cases receiving

theorem Tidy.teardown (tidy : relay.Tidy crypto events)
    (found : relay.conns.get connId = some conn) :
    (relay.teardown connId conn).Tidy crypto events := by
  unfold Relay.teardown
  split
  next isLeaving =>
    refine tidy.unsubscribe found (fun id => ?_) ?_ ?_
    · unfold Conn.Handles
      rw [isLeaving]
      exact not_false
    · exact fun place different => (Keyed.get_erase _).trans (if_neg different)
    · intro other isOther
      cases ((Keyed.get_erase _).trans (if_pos rfl)).symm.trans isOther
  · exact tidy

theorem sound_later {later : ℕ} (isSound : conn.Sound crypto events relay.now)
    (passed : relay.now ≤ later) : conn.Sound crypto events later := by
  unfold Conn.Sound at isSound ⊢
  split
  next isPhase =>
    rw [isPhase] at isSound
    exact ⟨isSound.1.trans passed, isSound.2⟩
  next isPhase =>
    rw [isPhase] at isSound
    obtain ⟨checkedAt, before, accepted⟩ := isSound
    exact ⟨checkedAt, before.trans passed, accepted⟩
  · trivial

theorem Tidy.wait (tidy : relay.Tidy crypto events) (elapsed : ℕ) :
    Tidy crypto events { relay with now := relay.now + elapsed } := { tidy with
  sound place other isOther :=
    sound_later (tidy.sound place other isOther) (Nat.le_add_right _ _) }

theorem Tidy.connect (tidy : relay.Tidy crypto events) (connCount : ℕ) :
    Tidy crypto events { relay.setConn relay.nextConnId (.new relay.now) with
      connCount, nextConnId := relay.nextConnId + 1 } := by
  have others {place : ℕ} {other : Conn} (isOther : relay.conns.get place = some other) :
      (relay.setConn relay.nextConnId (.new relay.now)).conns.get place = some other := by
    rw [get_setConn, if_neg (Nat.ne_of_lt (tidy.older place other isOther))]
    exact isOther
  constructor
  · exact tidy.keys
  · exact tidy.connections
  · intro sub isSub
    obtain ⟨owner, isOwner, isId⟩ := tidy.owners sub isSub
    exact ⟨owner, others isOwner, isId⟩
  · intro place other isOther
    change (relay.setConn relay.nextConnId (.new relay.now)).conns.get place = some other at isOther
    rw [get_setConn] at isOther
    split at isOther
    next same => exact same ▸ Nat.lt_succ_self _
    · exact Nat.lt_succ_of_lt (tidy.older place other isOther)
  · exact tidy.unique
  · intro entry isSeen
    rcases tidy.accounted entry isSeen with sent | ⟨place, other, isOther, handles⟩
    · exact .inl sent
    · exact .inr ⟨place, other, others isOther, handles⟩
  · exact tidy.addressed
  · intro place other isOther
    change (relay.setConn relay.nextConnId (.new relay.now)).conns.get place = some other at isOther
    rw [get_setConn] at isOther
    split at isOther
    · cases isOther
      trivial
    · exact tidy.sound place other isOther

theorem withConn_cases {change : Conn → Relay} {holds : Relay → Prop} (idle : holds relay)
    (taken : ∀ conn, relay.conns.get connId = some conn → holds (change conn)) :
    holds (relay.withConn connId change) := by
  unfold withConn
  split
  next conn found => exact taken conn found
  · exact idle

theorem tidy_step (tidy : relay.Tidy crypto events) {action : Step}
    (presented : ∀ event ∈ Step.presented action, event ∈ events) :
    (relay.step crypto action).Tidy crypto events := by
  cases action with
  | wait elapsed => exact tidy.wait elapsed
  | connect upgrades =>
    rw [Relay.step]
    split
    · exact tidy
    · split
      · exact tidy.connect _
      · exact ⟨tidy.keys, tidy.connections, tidy.owners, fun place other isOther =>
          Nat.lt_succ_of_lt (tidy.older place other isOther), tidy.unique, tidy.accounted,
          tidy.addressed, tidy.sound⟩
  | receive connId frame =>
    refine withConn_cases tidy fun conn found => ?_
    split
    next receiving =>
      have isPhase := receiving_of_isReceiving receiving
      refine tidy.received found isPhase (receive_received isPhase fun verb event isFrame => ?_)
      exact presented event (by rw [isFrame]; rfl)
    · exact tidy
  | interrupt connId =>
    refine withConn_cases tidy fun conn found => ?_
    split
    next receiving =>
      have isPhase := receiving_of_isReceiving receiving
      exact tidy.received found isPhase (.settled _ rfl (.inr (.inl rfl)))
    · exact tidy
  | reserve connId => exact withConn_cases tidy fun conn found => tidy.reserve found
  | deliver connId => exact withConn_cases tidy fun conn found => tidy.deliver found
  | unreserve connId => exact withConn_cases tidy fun conn found => tidy.unreserve found
  | teardown connId => exact withConn_cases tidy fun conn found => tidy.teardown found
  | write connId | endWriter connId =>
    refine withConn_cases tidy fun conn found => ?_
    exact tidy.settle found rfl (sound_of_phase rfl (tidy.sound connId conn found))
      fun id handles => handles_of_phase rfl handles

theorem tidy_start (now : ℕ) : (start now).Tidy crypto events where
  keys := nodup_nil
  connections := nodup_nil
  owners _ isSub := nomatch isSub
  older _ _ found := nomatch found
  unique := nodup_nil
  accounted _ isSeen := nomatch isSeen
  addressed _ isSent := nomatch isSent
  sound _ _ found := nomatch found

def Held (relay : Relay) (id : EventId) : Prop :=
  (∃ sent ∈ relay.forwarded, sent.id? = some id) ∨
    ∃ connId conn, relay.conns.get connId = some conn ∧ conn.Handles id

def Remembers (crypto : Crypto) (events : List (Json Number)) (relay : Relay) (id : EventId) : Prop :=
  ∃ event pValue checkedAt reservedAt, Accepted crypto events checkedAt event id pValue ∧
    checkedAt ≤ reservedAt ∧
      ((id, reservedAt) ∈ relay.seenIds ∨ reservedAt + entryTtl ≤ relay.now)

structure Once (crypto : Crypto) (events : List (Json Number)) (relay : Relay) : Prop where
  once : (relay.forwarded.map Forward.id?).Nodup
  apart : ∀ connId conn id, relay.conns.get connId = some conn → conn.Handles id →
    ∀ sent ∈ relay.forwarded, sent.id? ≠ some id
  single : ∀ first second conn other id, relay.conns.get first = some conn → conn.Handles id →
    relay.conns.get second = some other → other.Handles id → first = second
  remembers : ∀ id, relay.Held id → Remembers crypto events relay id

/-- It takes no longer than this from the check of an event to its reservation. -/
def margin : ℕ := secs 59

def checkedAt (conn : Conn) : Option ℕ :=
  match conn.phase with
  | .checked _ _ _ _ checkedAt => some checkedAt
  | _ => none

def Prompt (relay : Relay) : Step → Prop
  | .reserve connId => ∀ conn ∈ relay.conns.get connId, ∀ time ∈ checkedAt conn,
    relay.now ≤ time + margin
  | _ => True

theorem Once.frame (exact : relay.Once crypto events) (sameSent : after.forwarded = relay.forwarded)
    (handles : ∀ connId conn id, after.conns.get connId = some conn → conn.Handles id →
      ∃ before, relay.conns.get connId = some before ∧ before.Handles id)
    (remembers : ∀ id, after.Held id → Remembers crypto events relay id →
      Remembers crypto events after id) : after.Once crypto events where
  once := by
    rw [sameSent]
    exact exact.once
  apart connId conn id found isHandled := by
    obtain ⟨before, wasFound, wasHandled⟩ := handles connId conn id found isHandled
    rw [sameSent]
    exact exact.apart connId before id wasFound wasHandled
  single first second conn other id found isHandled found' isHandled' := by
    obtain ⟨before, wasFound, wasHandled⟩ := handles first conn id found isHandled
    obtain ⟨before', wasFound', wasHandled'⟩ := handles second other id found' isHandled'
    exact exact.single first second before before' id wasFound wasHandled wasFound' wasHandled'
  remembers id held := by
    refine remembers id held (exact.remembers id ?_)
    rcases held with sent | ⟨connId, conn, found, isHandled⟩
    · rw [sameSent] at sent
      exact .inl sent
    · obtain ⟨before, wasFound, wasHandled⟩ := handles connId conn id found isHandled
      exact .inr ⟨connId, before, wasFound, wasHandled⟩

theorem handles_setConn (found : relay.conns.get connId = some conn)
    (keeps : ∀ id, next.Handles id → conn.Handles id) (place : ℕ) (other : Conn) (id : EventId)
    (isOther : (relay.setConn connId next).conns.get place = some other) (handles : other.Handles id) :
    ∃ before, relay.conns.get place = some before ∧ before.Handles id := by
  rw [get_setConn] at isOther
  split at isOther
  next same =>
    cases isOther
    exact ⟨conn, same ▸ found, keeps id handles⟩
  · exact ⟨other, isOther, handles⟩

theorem Once.settle (exact : relay.Once crypto events) (found : relay.conns.get connId = some conn)
    (keeps : ∀ id, next.Handles id → conn.Handles id) : (relay.setConn connId next).Once crypto events :=
  exact.frame rfl (handles_setConn found keeps) fun _ _ remembers => remembers

theorem Once.received (exact : relay.Once crypto events)
    (found : relay.conns.get connId = some conn)
    (received : Received crypto events relay connId conn after) : after.Once crypto events := by
  cases received with
  | settled next sameSub goes =>
    exact exact.settle found fun id handles => (goes.unhandled id handles).elim
  | subscribed next unsubscribed clientSubId pValue free isSub phase | unsubscribed next phase =>
    exact exact.frame rfl (handles_setConn found fun id handles => (not_handles phase handles).elim)
      fun _ _ remembers => remembers

theorem Remembers.evict (remembers : Remembers crypto events relay id)
    {seenIds : List (EventId × ℕ)} {conns : Keyed ℕ Conn}
    (kept : ∀ entry ∈ relay.remembered, entry ∈ seenIds) :
    Remembers crypto events { relay with seenIds, conns } id := by
  obtain ⟨event, pValue, checkedAt, reservedAt, accepted, before, seen | old⟩ := remembers
  · refine ⟨event, pValue, checkedAt, reservedAt, accepted, before, ?_⟩
    by_cases expired : relay.now - reservedAt < entryTtl
    · exact .inl (kept _ (mem_remembered.mpr ⟨seen, expired⟩))
    · have positive : 0 < entryTtl := by decide
      refine .inr ?_
      change reservedAt + entryTtl ≤ relay.now
      omega
  · exact ⟨event, pValue, checkedAt, reservedAt, accepted, before, .inr old⟩

theorem not_remembers (printed : FloatText crypto.formatFloat) (apart : NoCollision crypto events)
    {event : Json Number} {pValue : PublicKey} {time : ℕ}
    (accepted : Accepted crypto events time event id pValue) (prompt : relay.now ≤ time + margin)
    (unknown : ∀ entry ∈ relay.remembered, entry.1 ≠ id) : ¬ Remembers crypto events relay id := by
  intro remembers
  obtain ⟨earlier, key, checkedAt, reservedAt, wasAccepted, before, seen | old⟩ :=
    @Remembers.evict _ _ _ _ remembers relay.remembered relay.conns fun _ isEntry => isEntry
  · exact unknown _ seen rfl
  · have near := wasAccepted.near printed apart accepted
    change reservedAt + entryTtl ≤ relay.now at old
    simp only [unixSecs, freshnessSecs, margin, entryTtl, secs] at near prompt old
    omega

theorem Once.reserve (tidy : relay.Tidy crypto events) (exact : relay.Once crypto events)
    (printed : FloatText crypto.formatFloat) (apart : NoCollision crypto events)
    (found : relay.conns.get connId = some conn)
    (prompt : ∀ time ∈ checkedAt conn, relay.now ≤ time + margin) :
    (relay.reserve connId conn).Once crypto events := by
  have isSound := tidy.sound connId conn found
  unfold Relay.reserve
  split
  next event eventId id pValue time isChecked =>
    rw [Conn.Sound, isChecked] at isSound
    rw [checkedAt, isChecked] at prompt
    have evicted (message : OutMsg) : Once crypto events
        ({ relay with seenIds := relay.remembered }.setConn connId (conn.receive.answer message)) := by
      refine exact.frame rfl ?_ fun _ _ remembers => remembers.evict fun _ isEntry => isEntry
      refine handles_setConn found fun id handles => ?_
      exact (not_handles (answer_phase message) handles).elim
    rcases @reserveId_cases relay id with ⟨-, known⟩ | full | ⟨unknown, reserved⟩
    · rw [known]
      exact evicted _
    · rw [full]
      exact evicted _
    · rw [reserved]
      have new : ¬ relay.Held id := fun held =>
        not_remembers printed apart isSound.2 (prompt time rfl) unknown (exact.remembers id held)
      have handled {place : ℕ} {other : Conn} {held : EventId}
          (isOther : (Relay.setConn { relay with
            seenIds := relay.remembered ++ [(id, relay.now)] } connId
              { conn with phase := .reserved event eventId id pValue }).conns.get place = some other)
          (handles : other.Handles held) :
          place = connId ∧ held = id ∨ held ≠ id ∧ relay.conns.get place = some other := by
        rw [get_setConn] at isOther
        split at isOther
        next same =>
          cases isOther
          exact .inl ⟨same, handles.symm⟩
        · refine .inr ⟨?_, isOther⟩
          rintro rfl
          exact new (.inr ⟨place, other, isOther, handles⟩)
      constructor
      · exact exact.once
      · intro place other held isOther handles sent isSent isId
        rcases handled isOther handles with ⟨-, rfl⟩ | ⟨-, wasOther⟩
        · exact new (.inl ⟨sent, isSent, isId⟩)
        · exact exact.apart place other held wasOther handles sent isSent isId
      · intro first second one other held isFirst handles isSecond handles'
        rcases handled isFirst handles with ⟨rfl, rfl⟩ | ⟨different, wasFirst⟩
        · rcases handled isSecond handles' with ⟨rfl, -⟩ | ⟨different, -⟩
          · rfl
          · exact absurd rfl different
        · rcases handled isSecond handles' with ⟨-, rfl⟩ | ⟨-, wasSecond⟩
          · exact absurd rfl different
          · exact exact.single first second one other held wasFirst handles wasSecond handles'
      · intro held isHeld
        have old (wasHeld : relay.Held held) : Remembers crypto events (Relay.setConn { relay with
            seenIds := relay.remembered ++ [(id, relay.now)] } connId
              { conn with phase := .reserved event eventId id pValue }) held :=
          (exact.remembers held wasHeld).evict fun _ isEntry => mem_append_left _ isEntry
        rcases isHeld with sent | ⟨place, other, isOther, handles⟩
        · exact old (.inl sent)
        · rcases handled isOther handles with ⟨-, rfl⟩ | ⟨-, wasOther⟩
          · exact ⟨event, pValue, time, relay.now, isSound.2, isSound.1,
              .inl (mem_append_right _ (mem_singleton_self _))⟩
          · exact old (.inr ⟨place, other, wasOther, handles⟩)
  · exact exact

theorem Once.unreserve (exact : relay.Once crypto events)
    (found : relay.conns.get connId = some conn) :
    (relay.unreserve connId conn).Once crypto events := by
  unfold Relay.unreserve
  split
  next eventId id reason isFailed =>
    have own : conn.Handles id := by
      rw [Conn.Handles, isFailed]
    have unhandled : ∀ held, ¬ (conn.receive.answer (makeOk eventId false reason)).Handles held :=
      fun held => not_handles (answer_phase _)
    refine exact.frame rfl (handles_setConn found fun held handles => ?_) ?_
    · exact (unhandled held handles).elim
    · intro held isHeld remembers
      have different : held ≠ id := by
        rintro rfl
        rcases isHeld with ⟨sent, isSent, isId⟩ | ⟨place, other, isOther, handles⟩
        · exact exact.apart connId conn held found own sent isSent isId
        · rw [get_setConn] at isOther
          split at isOther
          · cases isOther
            exact unhandled held handles
          next elsewhere =>
            exact elsewhere (exact.single place connId other conn held isOther handles found own)
      obtain ⟨event, pValue, checkedAt, reservedAt, accepted, before, seen | old⟩ := remembers
      · refine ⟨event, pValue, checkedAt, reservedAt, accepted, before, .inl ?_⟩
        exact (mem_eraseP_of_neg (by simpa using different)).mpr seen
      · exact ⟨event, pValue, checkedAt, reservedAt, accepted, before, .inr old⟩
  · exact exact

theorem Once.deliver (tidy : relay.Tidy crypto events) (exact : relay.Once crypto events)
    (found : relay.conns.get connId = some conn) :
    (relay.deliver connId conn).Once crypto events := by
  cases isPhase : conn.phase with
  | reserved event eventId id pValue =>
    have isSound := tidy.sound connId conn found
    rw [Conn.Sound, isPhase] at isSound
    obtain ⟨time, -, accepted⟩ := isSound
    obtain ⟨text, valid⟩ := accepted.valid
    have isId := (validateEvent_ok valid).1
    have own : conn.Handles id := by
      rw [Conn.Handles, isPhase]
    rcases deliver_cases found isPhase with ⟨delivered, reason, failed⟩ |
      ⟨sub, delivered, owner, queued, -, -, isOwner, isQueued, sent⟩
    · rw [failed]
      refine exact.frame rfl (handles_setConn found fun held handles => ?_)
        fun _ _ remembers => remembers
      cases (handles : id = held)
      exact own
    · rw [sent]
      have handled (place : ℕ) (other : Conn) (held : EventId)
          (isOther : ((Relay.setConn { relay with
            delivered, forwarded := ⟨sub, event⟩ :: relay.forwarded } sub.connId queued).setConn
              connId (served connId conn sub queued eventId)).conns.get place = some other)
          (handles : other.Handles held) :
          held ≠ id ∧ ∃ before, relay.conns.get place = some before ∧ before.Handles held := by
        rw [get_setConn] at isOther
        split at isOther
        · cases isOther
          exact (not_handles (answer_phase _) handles).elim
        next elsewhere =>
          obtain ⟨before, wasFound, wasHandled⟩ := handles_setConn isOwner
            (fun _ handles => handles_of_phase (trySend_some isQueued).2.symm handles) place other
            held isOther handles
          refine ⟨?_, before, wasFound, wasHandled⟩
          rintro rfl
          exact elsewhere (exact.single place connId before conn held wasFound wasHandled found own)
      constructor
      · refine nodup_cons.mpr ⟨fun member => ?_, exact.once⟩
        obtain ⟨old, isOld, same⟩ := mem_map.mp member
        exact exact.apart connId conn id found own old isOld (same.trans isId)
      · intro place other held isOther handles old isOld same
        obtain ⟨different, before, wasFound, wasHandled⟩ := handled place other held isOther handles
        rcases mem_cons.mp isOld with rfl | older
        · exact different (Option.some.inj (same.symm.trans isId))
        · exact exact.apart place before held wasFound wasHandled old older same
      · intro first second one other held isFirst handles isSecond handles'
        obtain ⟨-, before, wasFirst, wasHandled⟩ := handled first one held isFirst handles
        obtain ⟨-, before', wasSecond, wasHandled'⟩ := handled second other held isSecond handles'
        exact exact.single first second before before' held wasFirst wasHandled wasSecond wasHandled'
      · intro held isHeld
        have remembers : Remembers crypto events relay held := by
          apply exact.remembers
          rcases isHeld with ⟨old, isOld, same⟩ | ⟨place, other, isOther, handles⟩
          · rcases mem_cons.mp isOld with rfl | older
            · cases isId.symm.trans same
              exact .inr ⟨connId, conn, found, own⟩
            · exact .inl ⟨old, older, same⟩
          · obtain ⟨-, before, wasFound, wasHandled⟩ := handled place other held isOther handles
            exact .inr ⟨place, before, wasFound, wasHandled⟩
        exact remembers
  | _ =>
    rw [Relay.deliver, isPhase]
    exact exact

theorem once_step (tidy : relay.Tidy crypto events) (exact : relay.Once crypto events)
    (printed : FloatText crypto.formatFloat) (apart : NoCollision crypto events) {action : Step}
    (presented : ∀ event ∈ Step.presented action, event ∈ events) (prompt : relay.Prompt action) :
    (relay.step crypto action).Once crypto events := by
  have older {next : Relay} (sameConns : next.conns = relay.conns)
      (sameSent : next.forwarded = relay.forwarded) (sameSeen : next.seenIds = relay.seenIds)
      (passed : relay.now ≤ next.now) : next.Once crypto events := by
    refine exact.frame sameSent (fun place other id isOther handles => ?_) fun id _ remembers => ?_
    · rw [sameConns] at isOther
      exact ⟨other, isOther, handles⟩
    · obtain ⟨event, pValue, checkedAt, reservedAt, accepted, before, seen | old⟩ := remembers
      · exact ⟨event, pValue, checkedAt, reservedAt, accepted, before, .inl (sameSeen ▸ seen)⟩
      · exact ⟨event, pValue, checkedAt, reservedAt, accepted, before, .inr (old.trans passed)⟩
  cases action with
  | wait elapsed => exact older rfl rfl rfl (Nat.le_add_right _ _)
  | connect upgrades =>
    rw [Relay.step]
    split
    · exact exact
    · split
      · refine exact.frame rfl (fun place other id isOther handles => ?_)
          fun _ _ remembers => remembers
        change (relay.setConn relay.nextConnId (.new relay.now)).conns.get place = some other
          at isOther
        rw [get_setConn] at isOther
        split at isOther
        · cases isOther
          exact (not_handles rfl handles).elim
        · exact ⟨other, isOther, handles⟩
      · exact older rfl rfl rfl le_rfl
  | receive connId frame =>
    refine withConn_cases exact fun conn found => ?_
    split
    next receiving =>
      have isPhase := receiving_of_isReceiving receiving
      refine exact.received found (receive_received isPhase fun verb event isFrame => ?_)
      exact presented event (by rw [isFrame]; rfl)
    · exact exact
  | interrupt connId =>
    refine withConn_cases exact fun conn found => ?_
    split
    · exact exact.settle found fun id handles => handles.elim
    · exact exact
  | reserve connId =>
    exact withConn_cases exact fun conn found => exact.reserve tidy printed apart found
      (prompt conn found)
  | deliver connId => exact withConn_cases exact fun conn found => exact.deliver tidy found
  | unreserve connId => exact withConn_cases exact fun conn found => exact.unreserve found
  | teardown connId =>
    refine withConn_cases exact fun conn found => ?_
    unfold Relay.teardown
    split
    · refine exact.frame rfl (fun place other id isOther handles => ?_)
        fun _ _ remembers => remembers
      exact ⟨other, ((Keyed.get_erase_eq_some _).mp isOther).2, handles⟩
    · exact exact
  | write connId | endWriter connId =>
    exact withConn_cases exact fun conn found => exact.settle found fun id handles =>
      handles_of_phase rfl handles

theorem once_start (now : ℕ) : (start now).Once crypto events where
  once := nodup_nil
  apart _ _ _ found := nomatch found
  single _ _ _ _ _ found := nomatch found
  remembers _ held := by
    rcases held with ⟨sent, isSent, -⟩ | ⟨connId, conn, found, -⟩
    · cases isSent
    · cases found

def Directed (crypto : Crypto) (relay : Relay) (action : Step) : Prop :=
  (relay.step crypto action).forwarded = relay.forwarded ∨ ∃ sub event,
    (relay.step crypto action).forwarded = ⟨sub, event⟩ :: relay.forwarded ∧ sub ∈ relay.subs ∧
      recipientOf event = some sub.pValue ∧
        ∃ conn, relay.conns.get sub.connId = some conn ∧ conn.subId = some sub.subId

theorem Received.forwarded {after : Relay}
    (received : Received crypto events relay connId conn after) :
    after.forwarded = relay.forwarded := by
  cases received with
  | settled next sameSub goes | subscribed next unsubscribed clientSubId pValue free isSub phase
  | unsubscribed next phase => rfl

theorem forwarded_reserve : (relay.reserve connId conn).forwarded = relay.forwarded := by
  unfold Relay.reserve
  split
  next id pValue time isChecked =>
    rcases @reserveId_cases relay id with ⟨-, known⟩ | full | ⟨-, reserved⟩
    · rw [known]
      rfl
    · rw [full]
      rfl
    · rw [reserved]
      rfl
  · rfl

theorem directed_step (tidy : relay.Tidy crypto events) (action : Step) :
    relay.Directed crypto action := by
  have quiet {connId : ℕ} {change : Conn → Relay} (sameSent : ∀ conn,
      relay.conns.get connId = some conn → (change conn).forwarded = relay.forwarded) :
      (relay.withConn connId change).forwarded = relay.forwarded :=
    @withConn_cases relay connId change (·.forwarded = relay.forwarded) rfl sameSent
  cases action with
  | wait elapsed => exact .inl rfl
  | connect upgrades =>
    refine .inl ?_
    rw [Relay.step]
    split
    · rfl
    · split
      · rfl
      · rfl
  | receive connId frame =>
    refine .inl (quiet fun conn found => ?_)
    split
    next receiving =>
      have isPhase := receiving_of_isReceiving receiving
      refine (@receive_received relay crypto
        (Step.presented (.receive connId frame)).toList connId conn frame isPhase
        fun verb event isFrame => ?_).forwarded
      rw [isFrame]
      exact mem_singleton_self event
    · rfl
  | interrupt connId =>
    refine .inl (quiet fun conn found => ?_)
    split
    · rfl
    · rfl
  | reserve connId => exact .inl (quiet fun conn found => forwarded_reserve)
  | deliver connId =>
    refine @withConn_cases relay connId _ (fun after => after.forwarded = relay.forwarded ∨
      ∃ sub event, after.forwarded = ⟨sub, event⟩ :: relay.forwarded ∧ sub ∈ relay.subs ∧
        recipientOf event = some sub.pValue ∧
          ∃ conn, relay.conns.get sub.connId = some conn ∧ conn.subId = some sub.subId)
      (.inl rfl) fun conn found => ?_
    cases isPhase : conn.phase with
    | reserved event eventId id pValue =>
      have isSound := tidy.sound connId conn found
      rw [Conn.Sound, isPhase] at isSound
      obtain ⟨time, -, accepted⟩ := isSound
      obtain ⟨text, valid⟩ := accepted.valid
      obtain ⟨-, isRecipient, -⟩ := validateEvent_ok valid
      rcases deliver_cases found isPhase with ⟨delivered, reason, failed⟩ |
        ⟨sub, delivered, owner, queued, isSub, isKey, -, -, sent⟩
      · rw [failed]
        exact .inl rfl
      · rw [sent]
        refine .inr ⟨sub, event, rfl, isSub, ?_, tidy.owners sub isSub⟩
        rw [isRecipient, isKey]
    | _ =>
      rw [Relay.deliver, isPhase]
      exact .inl rfl
  | unreserve connId =>
    refine .inl (quiet fun conn found => ?_)
    unfold Relay.unreserve
    split
    · rfl
    · rfl
  | teardown connId =>
    refine .inl (quiet fun conn found => ?_)
    unfold Relay.teardown
    split
    · rfl
    · rfl
  | write connId | endWriter connId => exact .inl (quiet fun conn found => rfl)

structure Delivers (relay : Relay) : Prop where
  onePerKey : (relay.subs.map Sub.pValue).Nodup
  onePerConnection : (relay.subs.map Sub.connId).Nodup
  unambiguous : ∀ pValue event, (relay.deliverSingle pValue event).1 ≠ .error "ambiguous recipient"
  addressed : ∀ sent ∈ relay.forwarded, recipientOf sent.event = some sent.sub.pValue
  again : ∀ id, ¬ relay.Held id → (relay.reserveId id).1 ≠ .ok true

theorem Tidy.delivers (tidy : relay.Tidy crypto events) : relay.Delivers where
  onePerKey := tidy.keys
  onePerConnection := tidy.connections
  unambiguous pValue event ambiguous := by
    rcases @deliverSingle_cases relay event pValue with
      ⟨outcome, delivered, -, single, several⟩ | ⟨sub, delivered, delivered', after, -, -, -, single⟩
    · rw [single] at ambiguous
      obtain ⟨first, second, rest, matching⟩ := several ambiguous
      have keys : ((relay.subs.filter (·.pValue = pValue)).map
          Sub.pValue).Nodup := tidy.keys.sublist (filter_sublist.map _)
      have isKey : ∀ sub ∈ relay.subs.filter fun sub => decide (sub.pValue = pValue),
          sub.pValue = pValue := fun sub member => of_decide_eq_true (mem_filter.mp member).2
      rw [matching] at keys isKey
      have sameKey : first.pValue = second.pValue :=
        (isKey first (by simp)).trans (isKey second (by simp)).symm
      simp [sameKey] at keys
    · rw [single] at ambiguous
      cases ambiguous
  addressed := tidy.addressed
  again id unheld := by
    rcases @reserveId_cases relay id with ⟨⟨entry, isEntry, rfl⟩, -⟩ | full | ⟨-, reserved⟩
    · exact absurd (tidy.accounted entry (mem_remembered.mp isEntry).1) unheld
    · rw [full]
      simp
    · rw [reserved]
      simp

end Relay

open Relay

def advance (crypto : Crypto) (relay : Relay) (action : Step) : Relay := relay.step crypto action

/-- In every order of the steps. -/
theorem pairing_delivery (crypto : Crypto) (now : ℕ) (actions : List Step) :
    (actions.foldl (advance crypto) (start now)).Delivers ∧
      EachStep (advance crypto) (Directed crypto) (start now) actions ∧
      (FloatText crypto.formatFloat → NoCollision crypto (actions.filterMap Step.presented) →
        EachStep (advance crypto) Prompt (start now) actions →
          ((actions.foldl (advance crypto) (start now)).forwarded.map Forward.id?).Nodup) := by
  have presented : EachStep (advance crypto) (fun _ action => ∀ event ∈ Step.presented action,
      event ∈ actions.filterMap Step.presented) (start now) actions :=
    EachStep.of_forall fun action isAction event isEvent =>
      mem_filterMap.mpr ⟨action, isAction, isEvent⟩
  have kept : ∀ relay action, Tidy crypto (actions.filterMap Step.presented) relay →
      (∀ event ∈ Step.presented action, event ∈ actions.filterMap Step.presented) →
        Tidy crypto (actions.filterMap Step.presented) (advance crypto relay action) :=
    fun _ _ tidy inside => tidy_step tidy inside
  refine ⟨(EachStep.invariant kept (tidy_start now) presented).delivers, ?_, ?_⟩
  · exact EachStep.ensures kept (fun _ action tidy _ => directed_step tidy action) (tidy_start now)
      presented
  · intro printed apart prompt
    have both : ∀ relay action,
        Tidy crypto (actions.filterMap Step.presented) relay ∧
          Once crypto (actions.filterMap Step.presented) relay →
        (∀ event ∈ Step.presented action, event ∈ actions.filterMap Step.presented) ∧
          Prompt relay action →
        Tidy crypto (actions.filterMap Step.presented) (advance crypto relay action) ∧
          Once crypto (actions.filterMap Step.presented) (advance crypto relay action) :=
      fun _ _ invariant fits => ⟨tidy_step invariant.1 fits.1,
        once_step invariant.1 invariant.2 printed apart fits.1 fits.2⟩
    exact (EachStep.invariant both ⟨tidy_start now, once_start now⟩ (presented.and prompt)).2.once

def sampleId : EventId :=
  ⟨[225, 62, 101, 250, 111, 192, 172, 178, 186, 225, 202, 24, 255, 253, 91, 181, 77, 113, 113,
      120, 47, 85, 254, 170, 184, 117, 146, 195, 206, 186, 191, 23], rfl⟩

def sampleKey : PublicKey :=
  ⟨[249, 48, 138, 1, 146, 88, 195, 16, 73, 52, 79, 133, 248, 157, 82, 41, 181, 49, 200, 69, 131,
      111, 153, 176, 134, 1, 241, 19, 188, 224, 54, 249], rfl⟩

def sampleSig : FixedBytes 64 :=
  ⟨[25, 255, 139, 5, 45, 72, 141, 211, 172, 77, 113, 118, 101, 130, 70, 173, 166, 227, 217, 84,
      232, 18, 76, 172, 126, 140, 127, 32, 210, 111, 138, 105, 170, 229, 146, 50, 220, 74, 148,
      74, 122, 169, 66, 226, 16, 56, 166, 237, 55, 32, 164, 225, 175, 12, 135, 99, 3, 108, 105,
      207, 5, 210, 66, 160], rfl⟩

/-- No subscription outlives its connection, and a remembered id was delivered or is in hand. -/
theorem subscriptions_owned (crypto : Crypto) (now : ℕ) (actions : List Step) :
    let relay := actions.foldl (advance crypto) (start now)
    (∀ sub ∈ relay.subs, ∃ conn, relay.conns.get sub.connId = some conn ∧
      conn.subId = some sub.subId) ∧
    ∀ entry ∈ relay.seenIds, (∃ sent ∈ relay.forwarded, sent.id? = some entry.1) ∨
      ∃ connId conn, relay.conns.get connId = some conn ∧ conn.Handles entry.1 := by
  have presented : EachStep (advance crypto) (fun _ action => ∀ event ∈ Step.presented action,
      event ∈ actions.filterMap Step.presented) (start now) actions :=
    EachStep.of_forall fun action isAction event isEvent =>
      mem_filterMap.mpr ⟨action, isAction, isEvent⟩
  have tidy : Tidy crypto (actions.filterMap Step.presented)
      (actions.foldl (advance crypto) (start now)) :=
    @EachStep.invariant _ _ _ _ (Tidy crypto (actions.filterMap Step.presented))
      (fun _ _ tidy inside => tidy_step tidy inside) _ _ (tidy_start now) presented
  exact ⟨tidy.owners, tidy.accounted⟩

def sampleRecipient : String := "454349e422f05297191ead13e21d3db520e5abef52055e4964b82fb213f593a1"

def sampleContent : String :=
  "AgAAAAAAAAAAAAAAAAAAAAAAAAAAAAAAAAAAAAAAAAAAAAAAAAAAAAAAAAAAAAAAAAAAAAAAAAAAAAAAAAAAAAAAAAAAAAAAAAAAAAAAAAAAAAAAAAAAAAAAAAAAAAAAAAAA"

theorem sampleTime_fits : 1700000000 < 2 ^ 64 := by decide

def sampleEvent : Json Number :=
  .object [("content", .string sampleContent), ("created_at", .number (.posInt 1700000000 sampleTime_fits)),
    ("id", .string sampleId.toHex), ("kind", .number (.posInt kindPair (by decide))),
    ("pubkey", .string sampleKey.toHex), ("sig", .string sampleSig.toHex),
    ("tags", .array [.array [.string "p", .string sampleRecipient]])]

/-- `[0,"f930…",1700000000,24134,[["p","4543…"]],"AgAA…"]`. -/
def sampleText : String :=
  "[0,\"" ++ sampleKey.toHex ++ "\",1700000000,24134,[[\"p\",\"" ++ sampleRecipient ++ "\"]],\"" ++
    sampleContent ++ "\"]"

def sampleCrypto : Crypto where
  formatFloat := Audit.plainFloat
  sha256 text := if text = sampleText then sampleId else .fill 0
  isPoint key := key = sampleKey
  verifySchnorr sig hash key := decide (sig = sampleSig ∧ hash = sampleId ∧ key = sampleKey)

def sampleReq (connId : ℕ) : Step :=
  .receive connId (.text (some (.array [.string "REQ", .string "sub",
    .object [("#p", .array [.string sampleRecipient])]])))

def samplePublish (connId : ℕ) : Step :=
  .receive connId (.text (some (.array [.string "EVENT", sampleEvent])))

instance (relay : Relay) (action : Step) : Decidable (relay.Prompt action) :=
  match action with
  | .reserve connId => inferInstanceAs (Decidable (∀ conn ∈ relay.conns.get connId,
      ∀ time ∈ checkedAt conn, relay.now ≤ time + margin))
  | .wait _ | .connect _ | .receive .. | .interrupt _ | .deliver _ | .unreserve _ | .teardown _
  | .write _ | .endWriter _ => isTrue trivial

def samplePairing : List Step :=
  [.connect true, .connect true, sampleReq 0, samplePublish 1, .reserve 1, .deliver 1]

theorem samplePairing_once :
    ((samplePairing.foldl (advance sampleCrypto)
      (start (secs 1700000000))).forwarded.map Forward.id?).Nodup := by
  refine (pairing_delivery sampleCrypto (secs 1700000000) samplePairing).2.2 Audit.plain_floats ?_
    (by decide +kernel)
  have presented : samplePairing.filterMap Step.presented = [sampleEvent] := rfl
  rw [presented]
  intro first isFirst second isSecond text isText text' isText' _
  have same : first = second := by
    rw [mem_singleton.mp isFirst, mem_singleton.mp isSecond]
  subst same
  exact Option.some.inj (isText.symm.trans isText')

/-- The first delivery was forgotten. -/
def sampleStall : List Step :=
  [.connect true, .connect true, .connect true, sampleReq 0, samplePublish 1, samplePublish 2,
    .reserve 1, .deliver 1, .wait (secs 301), .interrupt 0, .teardown 0, .connect true, sampleReq 3,
    .reserve 2, .deliver 2]

theorem sampleStall_twice : ¬ ∀ (crypto : Crypto) (now : ℕ) (actions : List Step),
    ((actions.foldl (advance crypto) (start now)).forwarded.map Forward.id?).Nodup := by
  intro always
  have once := always sampleCrypto (secs 1700000000) sampleStall
  have twice : (sampleStall.foldl (advance sampleCrypto)
      (start (secs 1700000000))).forwarded.map Forward.id? = [some sampleId, some sampleId] := by
    decide +kernel
  rw [twice] at once
  simp at once

end Buzz.PairRelay
