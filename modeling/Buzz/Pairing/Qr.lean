import Buzz.Audit.Preimage
import Buzz.Pairing.Calls
import Mathlib

/-! The URI of a pairing QR code. -/

namespace Buzz.Pairing

open Buzz.Audit List Option
open Buzz.Library.Results (require require_ok require_pos bind_ok ok_bind error_bind)
open Nostr

def upperHexDigit (n : ℕ) : Char :=
  ['0', '1', '2', '3', '4', '5', '6', '7', '8', '9', 'A', 'B', 'C', 'D', 'E', 'F'].getD n '0'

def isAlphanumericByte (b : UInt8) : Bool := (Char.ofNat b.toNat).isAlphanum

/-- A byte under `NON_ALPHANUMERIC`: the bytes beyond ASCII are encoded as well. -/
def percentByte (b : UInt8) : List Char :=
  if isAlphanumericByte b then [Char.ofNat b.toNat]
  else ['%', upperHexDigit (b.toNat / 16), upperHexDigit (b.toNat % 16)]

def urlEncode (text : String) : List Char := (utf8 text).flatMap percentByte

def hexByteValue (b : UInt8) : Option ℕ := hexValue (Char.ofNat b.toNat)

/-- `percent_decode_str`: a percent sign without two digits after it stays. -/
def percentDecode : Bytes → Bytes
  | b :: high :: low :: rest =>
    if b = 0x25 then
      match hexByteValue high, hexByteValue low with
      | some first, some second => UInt8.ofNat (16 * first + second) :: percentDecode rest
      | _, _ => b :: percentDecode (high :: low :: rest)
    else b :: percentDecode (high :: low :: rest)
  | bytes => bytes

/-- What `url::Url::parse` tells of a URL. -/
structure RelayUrl where
  scheme : String
  hasHost : Bool

/-- `Debug` of strings, lossy UTF-8, keys and URLs. -/
structure QrExternals where
  debug : String → String
  utf8Lossy : Bytes → String
  publicKeyFromHex : String → Except String PublicKey
  parseUrl : String → Except String RelayUrl

def isLowercaseHex (c : Char) : Bool := c.isDigit || decide ('a' ≤ c ∧ c ≤ 'f')

/-- Well-formed UTF-8 is read as it is. -/
structure QrExternals.Lawful (externals : QrExternals) : Prop where
  utf8Lossy : ∀ text, externals.utf8Lossy (utf8 text) = text
  publicKeyFromHex : ∀ text key, text.toList.all isLowercaseHex →
    externals.publicKeyFromHex text = .ok key → key.toHex = text

section codec

variable (externals : QrExternals)

def scheme : List Char := "nostrpair://".toList

def relayParam (relay : String) : List Char := "relay=".toList ++ urlEncode relay

def queryWith (payload : QrPayload) (version : List Char) : List Char :=
  "secret=".toList ++ payload.sessionSecret.toHex.toList ++
    payload.relays.flatMap (fun relay => '&' :: relayParam relay) ++ '&' :: ("v=".toList ++ version)

def uriWith (payload : QrPayload) (version : List Char) : String :=
  String.ofList (scheme ++ (payload.sourcePubkey.toHex.toList ++ '?' :: queryWith payload version))

def encodeQr (payload : QrPayload) : String := uriWith payload ['1']

/-- `str::strip_prefix`. -/
def stripLead (lead text : List Char) : Option (List Char) :=
  if lead.isPrefixOf text then some (text.drop lead.length) else none

/-- `str::split_once`. -/
def splitOnce (stop : Char) : List Char → Option (List Char × List Char)
  | [] => none
  | c :: rest =>
    if c = stop then some ([], rest) else (splitOnce stop rest).map fun parts => (c :: parts.1, parts.2)

def urlDecode (value : List Char) : String :=
  externals.utf8Lossy (percentDecode (utf8 (String.ofList value)))

def unsigned : List Char → List Char
  | '+' :: rest => rest
  | all => all

/-- `str::parse::<u32>`. -/
def parseU32 (text : List Char) : Option ℕ :=
  if (unsigned text).isEmpty || !(unsigned text).all Char.isDigit then none
  else
    let value := Nat.ofDigitChars 10 (unsigned text) 0
    if value < 2 ^ 32 then some value else none

structure QrParams where
  secretHex : Option (List Char)
  relays : List String
  version : Option ℕ

def applyParam (params : QrParams) (pair : List Char) : QrParams :=
  match splitOnce '=' pair with
  | some (key, value) =>
    if key = "secret".toList then { params with secretHex := some value }
    else if key = "relay".toList then
      { params with relays := params.relays ++ [urlDecode externals value] }
    else if key = "v".toList then { params with version := parseU32 value }
    else params
  | none => params

def parseParams (query : List Char) : QrParams :=
  (query.splitOn '&').foldl (applyParam externals) ⟨none, [], none⟩

def isHex64 (text : List Char) : Bool :=
  (utf8 (String.ofList text)).length == 64 && text.all isLowercaseHex

def parsePubkey (pubkeyHex : List Char) : Except PairingError PublicKey := do
  require (isHex64 pubkeyHex)
    (.invalidQr ("pubkey must be 64 lowercase hex chars, got " ++
      externals.debug (String.ofList pubkeyHex)))
  (externals.publicKeyFromHex (String.ofList pubkeyHex)).mapError fun error =>
    .invalidQr ("invalid pubkey: " ++ error)

def parseSecret (secretHex : Option (List Char)) : Except PairingError (FixedBytes 32) := do
  let secret ← okOr secretHex (.invalidQr "missing 'secret' query parameter")
  require (isHex64 secret)
    (.invalidQr ("secret must be 64 lowercase hex chars, got " ++
      externals.debug (String.ofList secret)))
  -- Sixty-four digits are decoded, to 32 bytes: the next errors but one are never given.
  let bytes ← okOr (hexDecode secret) (.invalidQr "invalid secret hex")
  if length : bytes.length = 32 then
    if bytes = replicate 32 0 then .error (.invalidQr "session_secret must not be all zeros")
    else .ok ⟨bytes, length⟩
  else .error (.invalidQr "secret must be exactly 32 bytes")

def checkRelay (relay : String) : Except PairingError Unit := do
  let parsed ← (externals.parseUrl relay).mapError fun error =>
    .invalidQr ("invalid relay URL " ++ externals.debug relay ++ ": " ++ error)
  require (parsed.scheme = "wss" ∨ parsed.scheme = "ws")
    (.invalidQr ("relay URL must use wss:// or ws:// scheme, got " ++ externals.debug parsed.scheme))
  require (parsed.hasHost) (.invalidQr ("relay URL has no host: " ++ externals.debug relay))

def checkRelays : List String → Except PairingError Unit
  | [] => .ok ()
  | relay :: rest => do
    checkRelay externals relay
    checkRelays rest

def decodeQr (uri : String) : Except PairingError QrPayload := do
  require (uri.utf8ByteSize ≤ 2048)
    (.invalidQr s!"URI exceeds 2048-character limit ({uri.utf8ByteSize} chars)")
  let rest ← okOr (stripLead scheme uri.toList) (.invalidQr "URI must start with nostrpair://")
  let (pubkeyHex, query) ← okOr (splitOnce '?' rest)
    (.invalidQr "missing query string (expected ?secret=…&relay=…)")
  let sourcePubkey ← parsePubkey externals pubkeyHex
  let params := parseParams externals query
  let version := params.version.getD 1
  require (version = 1)
    (.invalidQr s!"unsupported protocol version {version}, expected 1")
  let sessionSecret ← parseSecret externals params.secretHex
  require (params.relays ≠ [])
    (.invalidQr "at least one 'relay' query parameter is required")
  checkRelays externals params.relays
  return ⟨sourcePubkey, sessionSecret, params.relays, version⟩

end codec

variable {c : Char}

theorem isAlphanum_bounds (alphanumeric : c.isAlphanum) :
    48 ≤ c.toNat ∧ c.toNat ≤ 57 ∨ 65 ≤ c.toNat ∧ c.toNat ≤ 90 ∨ 97 ≤ c.toNat ∧ c.toNat ≤ 122 := by
  simp only [Char.isAlphanum, Char.isAlpha, Char.isUpper, Char.isLower, Char.isDigit,
    Bool.or_eq_true, Bool.and_eq_true, decide_eq_true_eq] at alphanumeric
  rcases alphanumeric with (upper | lower) | digit
  · exact .inr (.inl upper)
  · exact .inr (.inr lower)
  · exact .inl digit

theorem upperHexDigit_facts : ∀ n < 16, (upperHexDigit n).isAlphanum ∧
    hexValue (upperHexDigit n) = some n := by
  decide

def isEncodedChar (c : Char) : Bool := c.isAlphanum || c == '%'

theorem percentByte_chars (b : UInt8) : ∀ c ∈ percentByte b, isEncodedChar c := by
  have bound := b.toNat_lt
  unfold percentByte
  split
  next alphanumeric =>
    rw [isAlphanumericByte] at alphanumeric
    simp [isEncodedChar, alphanumeric]
  · have high := (upperHexDigit_facts (b.toNat / 16) (by omega)).1
    have low := (upperHexDigit_facts (b.toNat % 16) (by omega)).1
    simp [isEncodedChar, high, low]

theorem urlEncode_chars (text : String) : ∀ c ∈ urlEncode text, isEncodedChar c := by
  intro c member
  rcases mem_flatMap.mp member with ⟨b, -, inside⟩
  exact percentByte_chars b c inside

theorem isEncodedChar_ascii (encoded : isEncodedChar c) : c.toNat < 128 := by
  simp only [isEncodedChar, Bool.or_eq_true, beq_iff_eq] at encoded
  rcases encoded with alphanumeric | rfl
  · have bounds := isAlphanum_bounds alphanumeric
    omega
  · decide

theorem utf8_ascii {text : List Char} (ascii_ : ∀ c ∈ text, c.toNat < 128) :
    utf8 (String.ofList text) = text.map fun c => UInt8.ofNat c.toNat := by
  rw [utf8, String.toList_ofList]
  induction text with
  | nil => rfl
  | cons c rest ih =>
    rw [forall_mem_cons] at ascii_
    rw [flatMap_cons, utf8EncodeChar_ascii ascii_.1, ih ascii_.2]
    rfl

def byteOf (c : Char) : UInt8 := UInt8.ofNat c.toNat

theorem ofNat_byteOf (ascii_ : c.toNat < 128) : Char.ofNat (byteOf c).toNat = c := by
  have same : (byteOf c).toNat = c.toNat := by
    simp [byteOf, Nat.mod_eq_of_lt (show c.toNat < 256 by omega)]
  rw [same]
  exact Char.ofNat_toNat c

theorem percentDecode_plain {b : UInt8} (plain : b ≠ 0x25) (rest : Bytes) :
    percentDecode (b :: rest) = b :: percentDecode rest := by
  match rest with
  | [] => rfl
  | [_] => rfl
  | _ :: _ :: _ => rw [percentDecode, if_neg plain]

theorem byteOf_ofNat (b : UInt8) : byteOf (Char.ofNat b.toNat) = b := by
  have bound := b.toNat_lt
  have valid : b.toNat.isValidChar := Or.inl (by omega)
  have code : (Char.ofNat b.toNat).toNat = b.toNat := by
    rw [Char.ofNat, dif_pos valid]
    rfl
  rw [byteOf, code, UInt8.ofNat_toNat]

theorem percentDecode_percentByte (b : UInt8) (rest : Bytes) :
    percentDecode ((percentByte b).map byteOf ++ rest) = b :: percentDecode rest := by
  have bound := b.toNat_lt
  unfold percentByte
  split
  next alphanumeric =>
    have plain : b ≠ 0x25 := by
      intro percent
      subst percent
      revert alphanumeric
      decide
    simpa [byteOf_ofNat] using percentDecode_plain plain rest
  · have high := upperHexDigit_facts (b.toNat / 16) (by omega)
    have low := upperHexDigit_facts (b.toNat % 16) (by omega)
    have read (n : ℕ) (small : n < 16) : hexByteValue (byteOf (upperHexDigit n)) = some n := by
      have bounds := isAlphanum_bounds (upperHexDigit_facts n small).1
      rw [hexByteValue, ofNat_byteOf (by omega), (upperHexDigit_facts n small).2]
    have whole : 16 * (b.toNat / 16) + b.toNat % 16 = b.toNat := Nat.div_add_mod _ 16
    simp only [map_cons, map_nil, cons_append, nil_append]
    rw [percentDecode, if_pos (by decide), read _ (by omega), read _ (by omega)]
    simp only [whole, UInt8.ofNat_toNat]

theorem urlDecode_urlEncode {externals : QrExternals} (lawful : externals.Lawful) (text : String) :
    urlDecode externals (urlEncode text) = text := by
  have decoded (bytes : Bytes) : percentDecode ((bytes.flatMap percentByte).map byteOf) = bytes := by
    induction bytes with
    | nil => rfl
    | cons b rest ih =>
      rw [flatMap_cons, map_append, percentDecode_percentByte, ih]
  rw [urlDecode, utf8_ascii fun c member => isEncodedChar_ascii (urlEncode_chars text c member)]
  exact (congrArg externals.utf8Lossy (decoded (utf8 text))).trans (lawful.utf8Lossy text)

theorem stripLead_append (lead rest : List Char) : stripLead lead (lead ++ rest) = some rest := by
  have leads : lead.isPrefixOf (lead ++ rest) := by
    rw [ isPrefixOf_iff_prefix]
    exact prefix_append _ _
  rw [stripLead, if_pos leads, drop_left]

variable {first : List Char}

theorem splitOnce_append {stop : Char} (outside : stop ∉ first)
    (rest : List Char) : splitOnce stop (first ++ stop :: rest) = some (first, rest) := by
  induction first with
  | nil => simp [splitOnce]
  | cons c more ih =>
    rw [mem_cons, not_or] at outside
    simp [splitOnce, Ne.symm outside.1, ih outside.2]

theorem splitOn_pieces {last : List Char} {pieces : List (List Char)} (plain : '&' ∉ first)
    (plains : ∀ piece ∈ pieces, '&' ∉ piece) (plainLast : '&' ∉ last) :
    (first ++ pieces.flatMap (fun piece => '&' :: piece) ++ '&' :: last).splitOn '&'
      = first :: pieces ++ [last] := by
  induction pieces generalizing first with
  | nil =>
    rw [flatMap_nil, append_nil, splitOn_append_cons_self_of_not_mem plain,
      splitOn_eq_singleton plainLast]
    rfl
  | cons piece rest ih =>
    rw [forall_mem_cons] at plains
    have tail := ih plains.1 plains.2
    simp only [flatMap_cons, append_assoc, cons_append] at tail ⊢
    rw [splitOn_append_cons_self_of_not_mem plain, tail]

variable {externals : QrExternals}

section roundTrip

theorem toHex_chars {length : ℕ} (bytes : FixedBytes length) :
    ∀ c ∈ bytes.toHex.toList, isLowercaseHex c := by
  have digits : ∀ n < 16, isLowercaseHex (hexDigit n) := by decide
  intro c member
  rw [FixedBytes.toHex, String.toList_ofList] at member
  rcases mem_flatMap.mp member with ⟨b, -, inside⟩
  have bound := b.toNat_lt
  simp only [hexByte, mem_cons, not_mem_nil, or_false] at inside
  rcases inside with rfl | rfl
  · exact digits _ (by omega)
  · exact digits _ (by omega)

theorem isLowercaseHex_bounds {c : Char} (digit : isLowercaseHex c) :
    48 ≤ c.toNat ∧ c.toNat ≤ 57 ∨ 97 ≤ c.toNat ∧ c.toNat ≤ 102 := by
  simp only [isLowercaseHex, Char.isDigit, Bool.or_eq_true, Bool.and_eq_true,
    decide_eq_true_eq] at digit
  rcases digit with decimal | letter
  · exact .inl decimal
  · exact .inr letter

variable {stop : Char}

theorem notMem_of_bounds {text : List Char} {holds : Char → Prop}
    (each : ∀ c ∈ text, holds c) (outside : ¬holds stop) : stop ∉ text :=
  fun member => outside (each stop member)

theorem isHex64_toHex (bytes : FixedBytes 32) : isHex64 bytes.toHex.toList := by
  have chars := toHex_chars bytes
  have size : bytes.toHex.toList.length = 64 := by
    simp [FixedBytes.toHex, hexEncode_length, bytes.property]
  rw [isHex64, utf8_ascii]
  · simpa [size] using chars
  · intro c member
    have bounds := isLowercaseHex_bounds (chars c member)
    omega

theorem toHex_plain {length : ℕ} (bytes : FixedBytes length)
    (outside : isLowercaseHex stop = false) : stop ∉ bytes.toHex.toList :=
  notMem_of_bounds (toHex_chars bytes) (by simp [outside])

theorem urlEncode_plain (text : String) (outside : isEncodedChar stop = false) :
    stop ∉ urlEncode text :=
  notMem_of_bounds (urlEncode_chars text) (by simp [outside])

theorem applyParam_secret (params : QrParams) (value : List Char) :
    applyParam externals params ("secret=".toList ++ value)
      = { params with secretHex := some value } := by
  have split : splitOnce '=' ("secret=".toList ++ value) = some ("secret".toList, value) :=
    splitOnce_append (by decide : '=' ∉ "secret".toList) value
  rw [applyParam, split]
  rfl

theorem applyParam_relay (lawful : externals.Lawful) (params : QrParams) (relay : String) :
    applyParam externals params (relayParam relay)
      = { params with relays := params.relays ++ [relay] } := by
  have split : splitOnce '=' (relayParam relay) = some ("relay".toList, urlEncode relay) :=
    splitOnce_append (by decide : '=' ∉ "relay".toList) (urlEncode relay)
  rw [applyParam, split]
  simp [urlDecode_urlEncode lawful]

theorem applyParam_version (params : QrParams) (value : List Char) :
    applyParam externals params ("v=".toList ++ value)
      = { params with version := parseU32 value } := by
  have split : splitOnce '=' ("v=".toList ++ value) = some ("v".toList, value) :=
    splitOnce_append (by decide : '=' ∉ "v".toList) value
  rw [applyParam, split]
  simp

theorem foldl_relays (lawful : externals.Lawful) (relays : List String) (params : QrParams) :
    (relays.map relayParam).foldl (applyParam externals) params
      = { params with relays := params.relays ++ relays } := by
  induction relays generalizing params with
  | nil => simp
  | cons relay rest ih =>
    rw [map_cons, foldl_cons, applyParam_relay lawful, ih]
    simp

theorem notMem_append {first second : List Char} (left : stop ∉ first)
    (right : stop ∉ second) : stop ∉ first ++ second :=
  fun member => (mem_append.mp member).elim left right

variable {version : List Char}

theorem splitOn_queryWith (payload : QrPayload) (single : '&' ∉ version) :
    (queryWith payload version).splitOn '&'
      = ("secret=".toList ++ payload.sessionSecret.toHex.toList)
          :: payload.relays.map relayParam ++ ["v=".toList ++ version] := by
  have plain : '&' ∉ "secret=".toList ++ payload.sessionSecret.toHex.toList :=
    notMem_append (by decide) (toHex_plain _ (by decide))
  have plains : ∀ piece ∈ payload.relays.map relayParam, '&' ∉ piece := by
    intro piece member
    rcases mem_map.mp member with ⟨relay, -, rfl⟩
    exact notMem_append (by decide) (urlEncode_plain _ (by decide))
  have plainLast : '&' ∉ "v=".toList ++ version := notMem_append (by decide) single
  have split := splitOn_pieces plain plains plainLast
  rw [flatMap_map] at split
  exact split

theorem parseParams_queryWith (lawful : externals.Lawful) (payload : QrPayload)
    (single : '&' ∉ version) :
    parseParams externals (queryWith payload version)
      = ⟨some payload.sessionSecret.toHex.toList, payload.relays, parseU32 version⟩ := by
  rw [parseParams, splitOn_queryWith payload single, foldl_append, foldl_cons,
    foldl_cons, foldl_nil, applyParam_secret, foldl_relays lawful, applyParam_version]
  rfl

theorem uriWith_size (payload : QrPayload) (ascii_ : ∀ c ∈ version, c.toNat < 128) :
    (uriWith payload version).utf8ByteSize
      = (scheme ++ (payload.sourcePubkey.toHex.toList ++ '?' :: queryWith payload version)).length := by
  have hex (bytes : FixedBytes 32) : ∀ c ∈ bytes.toHex.toList, c.toNat < 128 := by
    intro c member
    have bounds := isLowercaseHex_bounds (toHex_chars bytes c member)
    omega
  have encoded (text : String) : ∀ c ∈ urlEncode text, c.toNat < 128 :=
    fun c member => isEncodedChar_ascii (urlEncode_chars text c member)
  have fixed (text : List Char) (small : text.all (·.toNat < 128)) :
      ∀ c ∈ text, c.toNat < 128 :=
    fun c member => of_decide_eq_true (all_eq_true.mp small c member)
  have whole : ∀ c ∈ scheme ++ (payload.sourcePubkey.toHex.toList ++ '?' ::
      queryWith payload version), c.toNat < 128 := by
    have append {first second : List Char} (left : ∀ c ∈ first, c.toNat < 128)
        (right : ∀ c ∈ second, c.toNat < 128) : ∀ c ∈ first ++ second, c.toNat < 128 :=
      fun c member => (mem_append.mp member).elim (left c) (right c)
    have behind {stop : Char} {rest : List Char} (small : stop.toNat < 128)
        (right : ∀ c ∈ rest, c.toNat < 128) : ∀ c ∈ stop :: rest, c.toNat < 128 :=
      forall_mem_cons.mpr ⟨small, right⟩
    have relays : ∀ c ∈ payload.relays.flatMap (fun relay => '&' :: relayParam relay),
        c.toNat < 128 := by
      intro c member
      rcases mem_flatMap.mp member with ⟨relay, -, inside⟩
      exact behind (by decide) (append (fixed _ (by decide)) (encoded relay)) c inside
    exact append (fixed _ (by decide)) (append (hex _) (behind (by decide)
      (append (append (append (fixed _ (by decide)) (hex _)) relays)
        (behind (by decide) (append (fixed _ (by decide)) ascii_)))))
  rw [← utf8_length, uriWith, utf8_ascii whole, length_map]

theorem length_queryWith (payload : QrPayload) (version : List Char) :
    (queryWith payload version).length = (queryWith payload []).length + version.length := by
  have split : queryWith payload version = queryWith payload [] ++ version := by
    unfold queryWith
    simp only [append_assoc, cons_append, append_nil]
  rw [split, length_append]

theorem okOr_some {α : Type} {value : α} {error : PairingError} :
    okOr (some value) error = .ok value := rfl

theorem parseSecret_toHex {secret : FixedBytes 32} (filled : secret.val ≠ replicate 32 0) :
    parseSecret externals (some secret.toHex.toList) = .ok secret := by
  have decoded : hexDecode secret.toHex.toList = some secret.val := by
    rw [FixedBytes.toHex, String.toList_ofList, hexDecode_hexEncode]
  simp only [parseSecret, okOr_some, ok_bind, require_pos (isHex64_toHex secret), decoded,
    secret.property, dite_true, if_neg filled]

theorem checkRelays_ok {relays : List String} :
    checkRelays externals relays = .ok () ↔ ∀ relay ∈ relays, checkRelay externals relay = .ok () := by
  induction relays with
  | nil => simp [checkRelays]
  | cons relay rest ih =>
    rw [forall_mem_cons, ← ih]
    constructor
    · intro checked
      rcases bind_ok checked with ⟨_, first, others⟩
      exact ⟨first, others⟩
    · rintro ⟨first, others⟩
      simp [checkRelays, first, others]

def ValidRelay (externals : QrExternals) (relay : String) : Prop :=
  ∃ parsed, externals.parseUrl relay = .ok parsed ∧
    (parsed.scheme = "wss" ∨ parsed.scheme = "ws") ∧ parsed.hasHost

theorem checkRelay_valid {relay : String} (valid : ValidRelay externals relay) :
    checkRelay externals relay = .ok () := by
  rcases valid with ⟨parsed, read, scheme, host⟩
  have mapped : (externals.parseUrl relay).mapError (fun error => PairingError.invalidQr
      ("invalid relay URL " ++ externals.debug relay ++ ": " ++ error)) = .ok parsed := by
    rw [read]
    rfl
  simp only [checkRelay, mapped, ok_bind, require_pos scheme, require_pos host]

structure ValidParts (externals : QrExternals) (payload : QrPayload) : Prop where
  secret : payload.sessionSecret.val ≠ replicate 32 0
  pubkey : ∃ key, externals.publicKeyFromHex payload.sourcePubkey.toHex = .ok key
  relays : payload.relays ≠ []
  each : ∀ relay ∈ payload.relays, ValidRelay externals relay

structure ValidPayload (externals : QrExternals) (payload : QrPayload) : Prop
    extends ValidParts externals payload where
  length : (encodeQr payload).utf8ByteSize ≤ 2048

theorem parsePubkey_toHex (lawful : externals.Lawful) {pubkey : PublicKey}
    (valid : ∃ key, externals.publicKeyFromHex pubkey.toHex = .ok key) :
    parsePubkey externals pubkey.toHex.toList = .ok pubkey := by
  rcases valid with ⟨key, read⟩
  have chars : pubkey.toHex.toList.all isLowercaseHex :=
    all_eq_true.mpr (toHex_chars pubkey)
  have same : key = pubkey :=
    toHex_injective (lawful.publicKeyFromHex _ _ chars read)
  subst same
  simp only [parsePubkey, require_pos (isHex64_toHex key), ok_bind, String.ofList_toList, read]
  rfl

variable {payload : QrPayload}

theorem decodeQr_uriWith (lawful : externals.Lawful)
    (valid : ValidParts externals payload) (single : '&' ∉ version)
    (length : (uriWith payload version).utf8ByteSize ≤ 2048)
    (supported : (parseU32 version).getD 1 = 1) :
    decodeQr externals (uriWith payload version) = .ok { payload with version := 1 } := by
  have text : (uriWith payload version).toList = scheme ++
      (payload.sourcePubkey.toHex.toList ++ '?' :: queryWith payload version) :=
    String.toList_ofList
  have relays : checkRelays externals payload.relays = .ok () :=
    checkRelays_ok.mpr fun relay member => checkRelay_valid (valid.each relay member)
  have split := splitOnce_append
    (toHex_plain payload.sourcePubkey (by decide : isLowercaseHex '?' = false))
    (queryWith payload version)
  unfold decodeQr
  rw [require_pos length, ok_bind, text, stripLead_append, okOr_some, ok_bind, split,
    okOr_some, ok_bind]
  simp only [parsePubkey_toHex lawful valid.pubkey, ok_bind, parseParams_queryWith lawful _ single,
    supported]
  rw [require_pos trivial, ok_bind, parseSecret_toHex valid.secret, ok_bind,
    require_pos valid.relays, ok_bind, relays, ok_bind]
  rfl

theorem decodeQr_written (lawful : externals.Lawful) (valid : ValidPayload externals payload) :
    decodeQr externals (encodeQr payload) = .ok { payload with version := 1 } :=
  decodeQr_uriWith lawful valid.toValidParts (by decide) valid.length (by decide)

/-- A payload comes back as it was, of version 1. -/
theorem qr_round_trip (lawful : externals.Lawful) {payload : QrPayload}
    (valid : ValidPayload externals payload) :
    decodeQr externals (encodeQr payload) = .ok { payload with version := 1 } ∧
      (payload.version = 1 → decodeQr externals (encodeQr payload) = .ok payload) := by
  have decoded := decodeQr_written lawful valid
  refine ⟨decoded, ?_⟩
  intro version
  rw [decoded, ← version]

def qrSecret : FixedBytes 32 := .fill 0xab

def qrPubkey : PublicKey := .fill 0x5c

def qrRelay : String := "wss://relay.example/é?a=b&v=2#%41"

def qrExternals : QrExternals where
  debug text := "\"" ++ text ++ "\""
  utf8Lossy bytes := (String.fromUTF8? bytes.toByteArray).getD "\uFFFD"
  publicKeyFromHex text :=
    if text = qrPubkey.toHex then .ok qrPubkey else .error "outside the sample"
  parseUrl text := if text = qrRelay then .ok ⟨"wss", true⟩ else .error "outside the sample"

theorem qrExternals_lawful : qrExternals.Lawful where
  utf8Lossy := by
    intro text
    simp only [qrExternals, fromUTF8_utf8, getD_some]
  publicKeyFromHex := by
    intro text key _ read
    simp only [qrExternals] at read
    split at read
    next same =>
      cases read
      exact same.symm
    · cases read

def qrPayload (version : ℕ) : QrPayload := ⟨qrPubkey, qrSecret, [qrRelay], version⟩

theorem uriWith_fits (ascii_ : ∀ c ∈ version, c.toNat < 128)
    (short : version.length ≤ 1000) : (uriWith (qrPayload 1) version).utf8ByteSize ≤ 2048 := by
  have lead : (scheme ++ ((qrPayload 1).sourcePubkey.toHex.toList ++ '?' ::
      queryWith (qrPayload 1) [])).length ≤ 1000 := by
    decide +kernel
  rw [length_append, length_append, length_cons] at lead
  rw [uriWith_size _ ascii_, length_append, length_append, length_cons,
    length_queryWith]
  generalize scheme.length = first at *
  generalize (qrPayload 1).sourcePubkey.toHex.toList.length = second at *
  generalize (queryWith (qrPayload 1) []).length = third at *
  omega

theorem qrPayload_valid (version : ℕ) : ValidPayload qrExternals (qrPayload version) where
  secret := by
    simp only [qrPayload, qrSecret]
    decide
  pubkey := ⟨qrPubkey, by simp [qrExternals, qrPayload]⟩
  relays := cons_ne_nil _ _
  each := by
    intro relay member
    rw [qrPayload, mem_singleton] at member
    exact ⟨⟨"wss", true⟩, if_pos member, .inl rfl, rfl⟩
  length := by
    have same : encodeQr (qrPayload version) = uriWith (qrPayload 1) ['1'] := rfl
    rw [same]
    exact uriWith_fits (by simp) (by simp)

theorem qr_round_trip_sample :
    decodeQr qrExternals (encodeQr (qrPayload 1)) = .ok (qrPayload 1) :=
  (qr_round_trip qrExternals_lawful (qrPayload_valid 1)).2 rfl

def RoundTrips : Prop :=
  ∀ externals : QrExternals, externals.Lawful → ∀ payload, ValidPayload externals payload →
    decodeQr externals (encodeQr payload) = .ok payload

/-- The encoder writes `v=1` for a payload of another version. -/
theorem not_roundTrips : ¬RoundTrips := by
  intro claim
  have kept := claim qrExternals qrExternals_lawful (qrPayload 2) (qrPayload_valid 2)
  have written : decodeQr qrExternals (encodeQr (qrPayload 2)) = .ok (qrPayload 1) :=
    decodeQr_written qrExternals_lawful (qrPayload_valid 2)
  rw [written, Except.ok.injEq] at kept
  have versions := congrArg QrPayload.version kept
  revert versions
  decide

end roundTrip

/-- The value of a `v` parameter. -/
def versionValue (pair : List Char) : Option (List Char) :=
  match splitOnce '=' pair with
  | some (key, value) => if key = "v".toList then some value else none
  | none => none

/-- The values of the `v` parameters, in order. -/
def versionValues (query : List Char) : List (List Char) :=
  (query.splitOn '&').filterMap versionValue

def queryPart (uri : String) : List Char :=
  (((stripLead scheme uri.toList).bind (splitOnce '?')).map Prod.snd).getD []

def Denotes (text : List Char) (n : ℕ) : Prop :=
  ∃ sign digits, (sign = [] ∨ sign = ['+']) ∧ text = sign ++ digits ∧ digits ≠ [] ∧
    digits.all Char.isDigit ∧ Nat.ofDigitChars 10 digits 0 = n

theorem unsigned_cases (text : List Char) :
    ∃ sign, (sign = [] ∨ sign = ['+']) ∧ text = sign ++ unsigned text := by
  unfold unsigned
  split
  · exact ⟨['+'], .inr rfl, rfl⟩
  · exact ⟨[], .inl rfl, rfl⟩

theorem unsigned_digits {sign digits : List Char} (signed : sign = [] ∨ sign = ['+'])
    (decimal : digits.all Char.isDigit) : unsigned (sign ++ digits) = digits := by
  rcases signed with rfl | rfl
  · rw [nil_append]
    unfold unsigned
    split
    · simp only [all_cons, Bool.and_eq_true] at decimal
      exact absurd decimal.1 (by decide)
    · rfl
  · rfl

theorem parseU32_eq_some {text : List Char} {n : ℕ} :
    parseU32 text = some n ↔ Denotes text n ∧ n < 2 ^ 32 := by
  constructor
  · intro parsed
    rcases unsigned_cases text with ⟨sign, signed, whole⟩
    unfold parseU32 at parsed
    split at parsed
    · cases parsed
    next decimal =>
      simp only [Bool.or_eq_true, List.isEmpty_iff, Bool.not_eq_true', not_or,
        Bool.not_eq_false] at decimal
      simp only at parsed
      split at parsed
      next fits =>
        rw [Option.some.injEq] at parsed
        exact ⟨⟨sign, _, signed, whole, decimal.1, decimal.2, parsed⟩, parsed ▸ fits⟩
      · cases parsed
  · rintro ⟨⟨sign, digits, signed, rfl, filled, decimal, rfl⟩, fits⟩
    rw [parseU32, unsigned_digits signed decimal, if_neg (by simpa [filled] using decimal), if_pos fits]

/-- All that `decode_qr` checks but for the version. -/
def OtherwiseAccepted (externals : QrExternals) (uri : String) : Prop :=
  uri.utf8ByteSize ≤ 2048 ∧
    ∃ rest pubkeyHex query, stripLead scheme uri.toList = some rest ∧
      splitOnce '?' rest = some (pubkeyHex, query) ∧
      (∃ key, parsePubkey externals pubkeyHex = .ok key) ∧
      (∃ secret, parseSecret externals (parseParams externals query).secretHex = .ok secret) ∧
      (parseParams externals query).relays ≠ [] ∧
      checkRelays externals (parseParams externals query).relays = .ok ()

theorem applyParam_version_eq (params : QrParams) (pair : List Char) :
    (applyParam externals params pair).version
      = ((versionValue pair).map parseU32).getD params.version := by
  unfold applyParam versionValue
  cases splitOnce '=' pair with
  | none => rfl
  | some parts =>
    rcases parts with ⟨key, value⟩
    by_cases isVersion : key = "v".toList
    · subst isVersion
      simp
    · simp only [isVersion, if_false]
      split
      · rfl
      · split <;> rfl

theorem foldl_version (pairs : List (List Char)) (params : QrParams) :
    (pairs.foldl (applyParam externals) params).version
      = (((pairs.filterMap versionValue).getLast?).map parseU32).getD params.version := by
  induction pairs generalizing params with
  | nil => rfl
  | cons pair rest ih =>
    rw [foldl_cons, ih, applyParam_version_eq]
    cases found : versionValue pair with
    | none => simp [found]
    | some value =>
      rw [filterMap_cons_some found, getLast?_cons]
      cases (rest.filterMap versionValue).getLast? <;> rfl

theorem parseParams_version (query : List Char) :
    (parseParams externals query).version = (versionValues query).getLast?.bind parseU32 := by
  rw [parseParams, foldl_version, versionValues]
  cases ((query.splitOn '&').filterMap versionValue).getLast? <;> rfl

theorem decodeQr_accepts_iff (uri : String) :
    (∃ payload, decodeQr externals uri = .ok payload)
      ↔ OtherwiseAccepted externals uri ∧
          ((versionValues (queryPart uri)).getLast?.bind parseU32).getD 1 = 1 := by
  constructor
  · rintro ⟨payload, ok⟩
    rcases bind_ok ok with ⟨_, short, ok⟩
    rcases bind_ok ok with ⟨rest, stripped, ok⟩
    rcases bind_ok ok with ⟨⟨pubkeyHex, query⟩, split, ok⟩
    rcases bind_ok ok with ⟨key, isKey, ok⟩
    rcases bind_ok ok with ⟨_, version, ok⟩
    rcases bind_ok ok with ⟨secret, isSecret, ok⟩
    rcases bind_ok ok with ⟨_, filled, ok⟩
    rcases bind_ok ok with ⟨_, checked, -⟩
    have stripped' := okOr_eq_ok stripped
    have split' := okOr_eq_ok split
    refine ⟨⟨require_ok.mp short, rest, pubkeyHex, query, stripped', split', ⟨key, isKey⟩,
      ⟨secret, isSecret⟩, require_ok.mp filled, checked⟩, ?_⟩
    rw [queryPart, stripped', bind_some, split', map_some, getD_some,
      ← @parseParams_version externals]
    exact require_ok.mp version
  · rintro ⟨⟨short, rest, pubkeyHex, query, stripped, split, ⟨key, isKey⟩, ⟨secret, isSecret⟩,
      filled, checked⟩, version⟩
    rw [queryPart, stripped, bind_some, split, map_some, getD_some,
      ← @parseParams_version externals] at version
    refine ⟨⟨key, secret, (parseParams externals query).relays, 1⟩, ?_⟩
    unfold decodeQr
    rw [require_pos short, ok_bind, stripped, okOr_some, ok_bind, split, okOr_some, ok_bind]
    simp only [isKey, ok_bind, version]
    rw [require_pos trivial, ok_bind, isSecret, ok_bind, require_pos filled, ok_bind, checked,
      ok_bind]
    rfl

/-- Exactly where no other `v` stands before its last one. -/
theorem version_gate_iff (externals : QrExternals) (uri : String) :
    ((∃ payload, decodeQr externals uri = .ok payload) →
        ∀ value ∈ versionValues (queryPart uri), Denotes value 1)
      ↔ (∀ value ∈ versionValues (queryPart uri), Denotes value 1) ∨
          ¬OtherwiseAccepted externals uri ∨
          ∃ value n, (versionValues (queryPart uri)).getLast? = some value ∧ Denotes value n ∧
            n ≠ 1 ∧ n < 2 ^ 32 := by
  rw [decodeQr_accepts_iff]
  constructor
  · intro gate
    by_cases otherwise : OtherwiseAccepted externals uri
    · by_cases version :
          ((versionValues (queryPart uri)).getLast?.bind parseU32).getD 1 = 1
      · exact .inl (gate ⟨otherwise, version⟩)
      · cases last : (versionValues (queryPart uri)).getLast? with
        | none => simp [last] at version
        | some value =>
          cases read : parseU32 value with
          | none => simp [last, read] at version
          | some n =>
            simp only [last, bind_some, read, getD_some] at version
            have denotes := parseU32_eq_some.mp read
            exact .inr (.inr ⟨value, n, rfl, denotes.1, version, denotes.2⟩)
    · exact .inr (.inl otherwise)
  · rintro (only | refused | ⟨value, n, last, denotes, other, fits⟩) ⟨otherwise, version⟩
    · exact only
    · exact absurd otherwise refused
    · rw [last, bind_some, parseU32_eq_some.mpr ⟨denotes, fits⟩] at version
      exact absurd version other

theorem queryPart_uriWith (payload : QrPayload) (version : List Char) :
    queryPart (uriWith payload version) = queryWith payload version := by
  have split := splitOnce_append
    (toHex_plain payload.sourcePubkey (by decide : isLowercaseHex '?' = false))
    (queryWith payload version)
  rw [queryPart, uriWith, String.toList_ofList, stripLead_append, bind_some, split]
  rfl

theorem mem_versionValues_uriWith (payload : QrPayload) {version : List Char}
    (single : '&' ∉ version) : version ∈ versionValues (queryPart (uriWith payload version)) := by
  have last : versionValue ("v=".toList ++ version) = some version := by
    have split : splitOnce '=' ("v=".toList ++ version) = some ("v".toList, version) :=
      splitOnce_append (by decide : '=' ∉ "v".toList) version
    rw [versionValue, split]
    rfl
  rw [queryPart_uriWith, versionValues, splitOn_queryWith payload single, mem_filterMap]
  exact ⟨_, mem_append_right _ (mem_singleton_self _), last⟩

/-- Every accepted URI holds no version but 1. -/
def GatesVersions : Prop :=
  ∀ externals : QrExternals, externals.Lawful → ∀ uri payload,
    decodeQr externals uri = .ok payload →
    ∀ value ∈ versionValues (queryPart uri), Denotes value 1

/-- A version that is no `u32` counts as absent. -/
theorem not_gatesVersions : ¬GatesVersions := by
  intro claim
  have single : '&' ∉ "99999999999".toList := by decide
  have accepted := decodeQr_uriWith qrExternals_lawful (qrPayload_valid 1).toValidParts single
    (uriWith_fits (by simp) (by simp)) (by decide)
  have inside := mem_versionValues_uriWith (qrPayload 1) single
  rcases claim qrExternals qrExternals_lawful _ _ accepted _ inside with
    ⟨sign, digits, signed, whole, -, -, value⟩
  rcases signed with rfl | rfl
  · rw [nil_append] at whole
    subst whole
    revert value
    decide
  · have first := congrArg List.head? whole
    revert first
    simp

end Buzz.Pairing
