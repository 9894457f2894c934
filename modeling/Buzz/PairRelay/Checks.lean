import Buzz.JsonText
import Buzz.Library.Results
import Buzz.Nostr.Event

/-! What the pairing relay checks of a filter and of an event, before it looks at any other
connection. -/

namespace Buzz.PairRelay

open Nostr Library.Results
open Json (asStr asArray asObject asU64 asI64 fromI64 field)

abbrev Result := Except String

def kindPair : ℕ := 24134

def isLowerHex (text : String) (length : ℕ) : Bool :=
  text.utf8ByteSize = length &&
    text.toList.all fun c => decide ('0' ≤ c ∧ c ≤ '9' ∨ 'a' ≤ c ∧ c ≤ 'f')

/-- `decode_hex32` and `decode_hex64`. -/
def decodeHex (length : ℕ) (text : String) : Option (FixedBytes length) :=
  if isLowerHex text (2 * length) then
    (hexDecode text.toList).bind fun bytes =>
      if exact : bytes.length = length then some ⟨bytes, exact⟩ else none
  else none

def validateFilter (filter : Json Number) : Result PublicKey := do
  let obj ← okOr (asObject filter) "filter must be an object"
  require (∀ entry ∈ obj, entry.1 = "kinds" ∨ entry.1 = "#p") "unsupported filter field"
  match field obj "kinds" with
  | none => pure ()
  | some kinds =>
    let arr ← okOr (asArray kinds) "kinds must be an array"
    require (arr.length = 1 ∧ arr.head?.bind asU64 = some kindPair) "kinds must be [24134]"
  let keys ← okOr ((field obj "#p").bind asArray) "#p filter required"
  require (keys.length = 1) "#p must have exactly one value"
  let key ← okOr (keys.head?.bind asStr) "#p value must be a string"
  okOr (decodeHex 32 key) "#p value must be 64 lowercase hex chars"

def b64Val (c : Char) : Option UInt8 :=
  if 'A' ≤ c ∧ c ≤ 'Z' then some (c.toNat - 'A'.toNat).toUInt8
  else if 'a' ≤ c ∧ c ≤ 'z' then some (c.toNat - 'a'.toNat + 26).toUInt8
  else if '0' ≤ c ∧ c ≤ '9' then some (c.toNat - '0'.toNat + 52).toUInt8
  else if c = '+' then some 62
  else if c = '/' then some 63
  else none

/-- Only the last two places have padding. -/
def padding : List Char → ℕ → Option ℕ
  | [], padCount => some padCount
  | c :: rest, padCount =>
    if (b64Val c).isSome then if 0 < padCount then none else padding rest padCount
    else if c = '=' then
      if 2 ≤ rest.length ∨ 2 ≤ padCount then none else padding rest (padCount + 1)
    else none

/-- Texts with characters outside ASCII are no base64, wherever they have them. -/
def validateNip44Content (content : String) : Result Unit := do
  require (content ≠ "") "content must not be empty"
  let len := content.utf8ByteSize
  require (len % 4 = 0) "content is not valid base64"
  let padCount ← okOr (padding content.toList 0) "content is not valid base64"
  require (99 ≤ len / 4 * 3 - padCount) "content too short for NIP-44 v2"
  let v0 ← okOr (content.toList[0]?.bind b64Val) "content is not valid base64"
  let v1 ← okOr (content.toList[1]?.bind b64Val) "content is not valid base64"
  require ((v0 <<< 2) ||| (v1 >>> 4) = 2) "content is not NIP-44 v2 (expected 0x02 prefix)"

def allowedKeys : List String := ["id", "pubkey", "created_at", "kind", "tags", "content", "sig"]

def freshnessSecs : ℕ := 120

def secs (count : ℕ) : ℕ := count * 10 ^ 9

def unixSecs (now : ℕ) : ℕ := now / 10 ^ 9

/-- The key of the only tag. -/
def recipient (tags : List (Json Number)) : Result PublicKey := do
  require (tags.length = 1) "event must have exactly one p tag"
  let tag ← okOr (tags.head?.bind asArray) "tag must be an array"
  require (tag.length = 2) "p tag must have exactly 2 elements"
  require (tag[0]?.bind asStr = some "p") "event must have exactly one p tag"
  let key ← okOr (tag[1]?.bind asStr) "p tag value must be a string"
  okOr (decodeHex 32 key) "p tag value must be 64 lowercase hex chars"

def validateEvent (now : ℕ) (event : Json Number) : Result (String × EventId × PublicKey) := do
  let obj ← okOr (asObject event) "event must be an object"
  require (∀ entry ∈ obj, entry.1 ∈ allowedKeys) "unknown top-level field"
  let id ← okOr ((field obj "id").bind asStr) "missing id"
  let idBytes ← okOr (decodeHex 32 id) "id must be 64 lowercase hex chars"
  let pubkey ← okOr ((field obj "pubkey").bind asStr) "missing pubkey"
  require (isLowerHex pubkey 64) "pubkey must be 64 lowercase hex chars"
  require ((field obj "kind").bind asU64 = some kindPair) "kind must be 24134"
  let createdAt ← okOr ((field obj "created_at").bind asI64) "missing created_at"
  require ((createdAt - unixSecs now).natAbs ≤ freshnessSecs) "created_at outside freshness window"
  let content ← okOr ((field obj "content").bind asStr) "missing content"
  validateNip44Content content
  let sig ← okOr ((field obj "sig").bind asStr) "missing sig"
  require (isLowerHex sig 128) "sig must be 128 lowercase hex chars"
  let tags ← okOr ((field obj "tags").bind asArray) "missing tags"
  let pBytes ← recipient tags
  pure (id, idBytes, pBytes)

def safeEventId (event : Json Number) : String :=
  ((((asObject event).bind fun obj => field obj "id").bind asStr).filter
    fun id => isLowerHex id 64).getD ""

/-- What is taken from libraries: printing, digests, curve points and signatures. -/
structure Crypto where
  formatFloat : F64 → String
  sha256 : String → EventId
  isPoint : PublicKey → Bool
  verifySchnorr : FixedBytes 64 → EventId → PublicKey → Bool

structure Commitment where
  pubkey : String
  createdAt : ℤ
  kind : ℕ
  tags : Json Number
  content : String

def Commitment.json (self : Commitment) : Json Number :=
  .array [.number (.posInt 0 (by omega)), .string self.pubkey, .number (fromI64 self.createdAt),
    .number (fromI64 self.kind), self.tags, .string self.content]

def commitment (event : Json Number) : Result Commitment := do
  let obj ← okOr (asObject event) "event must be an object"
  let pubkey ← okOr ((field obj "pubkey").bind asStr) "missing pubkey"
  let createdAt ← okOr ((field obj "created_at").bind asI64) "missing created_at"
  let kind ← okOr ((field obj "kind").bind asU64) "missing kind"
  let tags ← okOr (field obj "tags") "missing tags"
  let content ← okOr ((field obj "content").bind asStr) "missing content"
  pure ⟨pubkey, createdAt, kind, tags, content⟩

def verifyEventSig (crypto : Crypto) (event : Json Number) : Result Unit := do
  let obj ← okOr (asObject event) "event must be an object"
  let committed ← commitment event
  let idStr ← okOr ((field obj "id").bind asStr) "missing id"
  let sigStr ← okOr ((field obj "sig").bind asStr) "missing sig"
  let hash := crypto.sha256 (canonicalJson crypto.formatFloat committed.json)
  let idBytes ← okOr (decodeHex 32 idStr) "id must be 64 lowercase hex chars"
  require (hash = idBytes) "invalid: event id mismatch"
  let pubkey ← okOr (decodeHex 32 committed.pubkey) "pubkey must be 64 lowercase hex chars"
  require (crypto.isPoint pubkey) "invalid: bad pubkey"
  let sig ← okOr (decodeHex 64 sigStr) "sig must be 128 lowercase hex chars"
  require (crypto.verifySchnorr sig hash pubkey) "invalid: signature verification failed"

end Buzz.PairRelay
