import Buzz.Req.Gates

/-! A filter as a query on the `events` table, and what the table gives back. -/

namespace Buzz.Req

open Nostr Buzz.Subscription

def defaultMaxPageLimit : ℤ := 1000

def isParameterizedReplaceable (kind : ℕ) : Bool := 30000 ≤ kind && kind ≤ 39999

/-- `as i64` of an unsigned 64-bit value. -/
def asI64 (value : ℕ) : ℤ :=
  let word : ℤ := value % 18446744073709551616
  if word < 9223372036854775808 then word else word - 18446744073709551616

def dateMin : ℤ := -8334601228800
def dateMax : ℤ := 8210266876799

/-- The first second of a `TIMESTAMPTZ`. -/
def timestamptzMin : ℤ := -210866803200

/-- Whole seconds, of the years -262143 to 262142. -/
def dateFromTimestamp (secs : ℤ) : Option ℤ :=
  if dateMin ≤ secs ∧ secs ≤ dateMax then some secs else none

/-- The first `d` value of an addressable event, empty without one. -/
def extractDTag (event : Event) : Option String :=
  if isParameterizedReplaceable (eventKindU32 event) then
    some ((tagContents "d" event.tags).head?.getD "")
  else none

def toAsciiLowercase (text : String) : String := text.map Char.toLower

def isAsciiHexdigit (c : Char) : Bool := (hexValue c).isSome

/-- The well-formed `p` values in lower case. -/
def mentionPubkeys (event : Event) : List String :=
  ((tagContents "p" event.tags).filter fun pk =>
    pk.toList.length = 64 && pk.toList.all isAsciiHexdigit).map toAsciiLowercase

/-- `mentioned`: its rows of `event_mentions` were written. -/
structure EventRow where
  communityId : CommunityId
  stored : StoredEvent
  deleted : Bool
  mentioned : Bool
  dated : (stored.event.createdAt : ℤ) ≤ dateMax

def EventRow.mentions (self : EventRow) : List String :=
  if self.mentioned then mentionPubkeys self.stored.event else []

/-- The fields of `EventQuery` that REQ and COUNT set. -/
structure EventQuery where
  communityId : CommunityId
  channelId : Option Uuid
  kinds : Option (List ℕ)
  pubkey : Option PublicKey
  since : Option ℤ
  «until» : Option ℤ
  limit : Option ℤ
  pTagHex : Option String
  dTag : Option String
  dTags : Option (List String)
  authors : Option (List PublicKey)
  ids : Option (List EventId)
  eTags : Option (List String)
  channelIds : Option (List Uuid)
  maxLimit : Option ℤ
  sharedGatedReader : Option PublicKey

def eTag : SingleLetterTag := ⟨'e', by decide⟩
def dTag : SingleLetterTag := ⟨'d', by decide⟩

/-- `tags @> [wanted]`: some tag has all the wanted texts among its elements. -/
def tagsContain (tags : List Tag) (wanted : List String) : Bool :=
  tags.any fun tag => wanted.all fun text => tag.buf.contains text

/-- `Some(single)` for one value and `Some(list)` for several. -/
def oneOrMany {T : Type} : Option (List T) → Option T × Option (List T)
  | some [single] => (some single, none)
  | some (first :: second :: rest) => (none, some (first :: second :: rest))
  | some [] | none => (none, none)

def nonempty {T : Type} (values : Option (List T)) : Option (List T) :=
  values.filter (!·.isEmpty)

def isNip33Only (filter : Filter) : Bool :=
  filter.kinds.any fun kinds =>
    !kinds.isEmpty && kinds.all fun kind => isParameterizedReplaceable kind.toNat

def filterToQueryParams (filter : Filter) (channelId : Option Uuid) (community : CommunityId) :
    EventQuery :=
  let limit := (filter.limit.map fun l => min (asI64 l) defaultMaxPageLimit).getD defaultMaxPageLimit
  let (pubkey, authors) := oneOrMany filter.authors
  let (dTag, dTags) :=
    if isNip33Only filter then oneOrMany (filter.genericTags.lookup dTag) else (none, none)
  { communityId := community
    channelId
    kinds := filter.kinds.map (·.map UInt16.toNat)
    pubkey
    since := filter.since.bind fun s => dateFromTimestamp (asI64 s)
    «until» := filter.until.bind fun u => dateFromTimestamp (asI64 u)
    limit := some limit
    pTagHex := (oneOrMany (filter.genericTags.lookup pTag)).1
    dTag
    dTags
    authors
    ids := nonempty filter.ids
    eTags := nonempty (filter.genericTags.lookup eTag)
    channelIds := none
    maxLimit := none
    sharedGatedReader := none }

namespace EventQuery

variable (q : EventQuery)

/-- An empty list matches nothing: no statement is sent. -/
def matchesNothing : Bool :=
  q.kinds.any List.isEmpty || q.authors.any List.isEmpty || q.ids.any List.isEmpty ||
    q.eTags.any List.isEmpty

/-- PostgreSQL has no text with a NUL character and no time before its calendar. -/
def bindable : Bool :=
  let text := fun value : String => !value.toList.contains '\x00'
  q.pTagHex.all text && q.dTag.all text && q.dTags.all (List.all · text) &&
    q.eTags.all (List.all · text) &&
    q.since.all (fun s => timestamptzMin ≤ s) &&
    q.until.all fun u => timestamptzMin ≤ u

def dTagClause (column : Option String) : Bool :=
  match q.dTag with
  | some d => column = some d
  | none => q.dTags.all fun ds => column.any ds.contains

def channelIdsClause (channelId : Option Uuid) : Bool :=
  q.channelIds.all fun ids => channelId.all ids.contains

/-- The `WHERE` clause that `count_events_on` and `query_events_on` share. -/
def selects (row : EventRow) : Bool :=
  let event := row.stored.event
  row.communityId = q.communityId && !row.deleted &&
    q.pTagHex.all (fun p => row.mentions.contains (toAsciiLowercase p)) &&
    q.channelId.all (fun channelId => row.stored.channelId = some channelId) &&
    q.channelIdsClause row.stored.channelId &&
    q.kinds.all (fun kinds => kinds.contains (eventKindU32 event)) &&
    q.pubkey.all (fun pubkey => event.pubkey = pubkey) &&
    q.authors.all (·.contains event.pubkey) &&
    q.ids.all (·.contains event.id) &&
    q.eTags.all (fun values => values.any fun value => tagsContain event.tags ["e", value]) &&
    q.since.all (fun s => s ≤ (event.createdAt : ℤ)) &&
    q.until.all (fun u => (event.createdAt : ℤ) ≤ u) &&
    q.dTagClause (extractDTag event)

def sharedClause (row : EventRow) : Bool :=
  q.sharedGatedReader.all fun reader =>
    !isSharedGatedKind (eventKindU32 row.stored.event) ||
      decide (row.stored.event.pubkey = reader) ||
      tagsContain row.stored.event.tags ["shared", "true"]

/-- `ORDER BY created_at DESC, id ASC`. -/
def ordered (first second : StoredEvent) : Bool :=
  decide (second.event.createdAt < first.event.createdAt) ||
    (first.event.createdAt = second.event.createdAt &&
      first.event.id.val ≤ second.event.id.val)

def limitVal : ℤ := min (q.limit.getD 100) (q.maxLimit.getD defaultMaxPageLimit)

end EventQuery

inductive QueryError
  | invalidParameter
  | negativeLimit
  deriving DecidableEq

def countEventsOn (rows : List EventRow) (q : EventQuery) : Except QueryError ℕ :=
  if q.matchesNothing then .ok 0
  else if !q.bindable then .error .invalidParameter
  else .ok (rows.countP q.selects)

def queryEventsOn (rows : List EventRow) (q : EventQuery) : Except QueryError (List StoredEvent) :=
  if q.matchesNothing then .ok []
  else if !q.bindable then .error .invalidParameter
  else if q.limitVal < 0 then .error .negativeLimit
  else
    let selected := rows.filter fun row => q.selects row && q.sharedClause row
    .ok (((selected.map EventRow.stored).mergeSort EventQuery.ordered).take q.limitVal.toNat)

def pushSharedGatedReader (filter : Filter) (pubkey : PublicKey) (query : EventQuery) :
    EventQuery :=
  if filterCanMatchSharedGatedKinds filter then { query with sharedGatedReader := some pubkey }
  else query

/-- Whether `count_events` needs no post-filter, by the code's own account. -/
def filterFullyPushable (filter : Filter) : Bool :=
  (filter.genericTags.entries.all fun entry =>
    let key := entry.1.toString
    if key = "h" ∨ key = "p" then decide (entry.2.length ≤ 1)
    else if key = "d" then entry.2.isEmpty || isNip33Only filter
    else if key = "e" then true
    else entry.2.isEmpty) &&
  filter.search.isNone

variable (parseUuid : String → Option Uuid)

/-- The first value of `#h` that is a UUID. -/
def extractChannelIdFromFilter (filter : Filter) : Option Uuid :=
  (hValues filter).findSome? parseUuid

/-- The value of `#h`, when it is the only one. -/
def extractChannelFromFilter (filter : Filter) : Option Uuid :=
  match hValues filter with
  | [value] => parseUuid value
  | _ => none

def buildEventQueryFromFilter (filter : Filter) (community : CommunityId) : EventQuery :=
  filterToQueryParams filter (extractChannelIdFromFilter parseUuid filter) community

end Buzz.Req
