import Buzz.Library.Cursor
import Buzz.Nostr.Event

/-! The checks of uploaded images: each format is walked structure by structure, without decoding
pixels. -/

namespace Buzz.Media

open Buzz.Nostr (Bytes)
open Library.Cursor

inductive MediaError
  | invalidImage
  | metadataForbidden
  deriving DecidableEq

abbrev Check := Walk MediaError

def beNat (bytes : Bytes) : ℕ := bytes.foldl (fun value byte => 256 * value + byte.toNat) 0

def leNat (bytes : Bytes) : ℕ := beNat bytes.reverse

def ascii (text : String) : Bytes := text.toList.map (·.toNat.toUInt8)

/-- The place of the first byte from `i` on that is no `0xff`. -/
def skipFill (bytes : Bytes) (i : ℕ) : ℕ :=
  i + ((bytes.drop i).takeWhile (· = 0xff)).length

def isStandalone (marker : UInt8) : Bool := decide (0xd0 ≤ marker ∧ marker ≤ 0xd7 ∨ marker = 0x01)

def checkJfif (payload : Bytes) : Check Unit := do
  check (14 ≤ payload.length) .metadataForbidden
  let head ← slice payload 0 5
  check (head = ascii "JFIF" ++ [0]) .metadataForbidden
  let width ← index payload 12
  let height ← index payload 13
  check (payload.length = 14 + 3 * width.toNat * height.toNat) .metadataForbidden

def checkAdobe (payload : Bytes) : Check Unit := do
  check (payload.length = 12) .metadataForbidden
  let head ← slice payload 0 5
  check (head = ascii "Adobe") .metadataForbidden

def checkSegment (bytes : Bytes) (marker : UInt8) (first last : ℕ) : Check Unit :=
  if marker = 0xe0 then slice bytes first last >>= checkJfif
  else if marker = 0xee then slice bytes first last >>= checkAdobe
  else check (¬ (0xe1 ≤ marker ∧ marker ≤ 0xed ∨ marker = 0xef ∨ marker = 0xfe)) .metadataForbidden

def jpegLoop (bytes : Bytes) : ℕ → ℕ → Bool → Check Unit
  | 0, _, _ => .error .exhausted
  | fuel + 1, i, inScan => do
    check (i < bytes.length) .invalidImage
    let byte ← index bytes i
    if byte ≠ 0xff then do
      check (inScan) .invalidImage
      jpegLoop bytes fuel (i + 1) inScan
    else do
      let filled := skipFill bytes i
      check (filled < bytes.length) .invalidImage
      let marker ← index bytes filled
      let next := filled + 1
      if inScan ∧ marker = 0 then jpegLoop bytes fuel next inScan
      else if isStandalone marker then jpegLoop bytes fuel next inScan
      else if marker = 0xd9 then check (next = bytes.length) .metadataForbidden
      else if marker = 0xd8 then reject .invalidImage
      else do
        check (next + 2 ≤ bytes.length) .invalidImage
        let size ← slice bytes next (next + 2)
        let len := beNat size
        check (2 ≤ len) .invalidImage
        check (next + len ≤ bytes.length) .invalidImage
        checkSegment bytes marker (next + 2) (next + len)
        jpegLoop bytes fuel (next + len) (marker == 0xda)

def validateJpegMetadataFree (bytes : Bytes) : Check Unit := do
  check ([0xff, 0xd8] <+: bytes) .invalidImage
  jpegLoop bytes (bytes.length + 1) 2 false

def pngSnapshotKeywords : List Bytes := [ascii "buzz_agent_snapshot", ascii "buzz_team_snapshot"]

def isSnapshotTextChunk (payload : Bytes) : Bool :=
  pngSnapshotKeywords.any fun keyword =>
    decide (keyword.length < payload.length ∧ payload.take keyword.length = keyword ∧
      payload[keyword.length]? = some 0)

def pngMetadata : List Bytes := [ascii "eXIf", ascii "zTXt", ascii "iTXt", ascii "iCCP"]

def pngRendering : List Bytes :=
  ["cHRM", "gAMA", "sBIT", "sRGB", "bKGD", "hIST", "tRNS", "sPLT", "acTL", "fcTL", "fdAT"].map ascii

def isAncillary (kind : Bytes) : Bool := (kind.headD 0) &&& 0x20 ≠ 0

def pngSignature : Bytes := [0x89, 0x50, 0x4e, 0x47, 0x0d, 0x0a, 0x1a, 0x0a]

def pngLoop (bytes : Bytes) : ℕ → ℕ → Bool → Check (ℕ × Bool)
  | 0, _, _ => .error .exhausted
  | fuel + 1, i, sawSnapshotChunk =>
    if bytes.length ≤ i then .ok (i, false)
    else do
      check (i + 12 ≤ bytes.length) .invalidImage
      let size ← slice bytes i (i + 4)
      let kind ← slice bytes (i + 4) (i + 8)
      let last := i + 12 + beNat size
      check (last ≤ bytes.length) .invalidImage
      if kind = ascii "tEXt" then do
        let payload ← slice bytes (i + 8) (last - 4)
        check (sawSnapshotChunk = false ∧ isSnapshotTextChunk payload) .metadataForbidden
        pngLoop bytes fuel last true
      else do
        check (kind ∉ pngMetadata) .metadataForbidden
        check (isAncillary kind → kind ∈ pngRendering) .metadataForbidden
        if kind = ascii "IEND" then .ok (last, true)
        else pngLoop bytes fuel last sawSnapshotChunk

def validatePngMetadataFree (bytes : Bytes) : Check Unit := do
  check (pngSignature <+: bytes) .invalidImage
  let (i, sawIend) ← pngLoop bytes (bytes.length + 1) pngSignature.length false
  check (sawIend ∧ i = bytes.length) .metadataForbidden

def frameHeaderLen : ℕ := 16

def frameLoop (payload : Bytes) : ℕ → ℕ → Bool → Bool → Check Unit
  | 0, _, _, _ => .error .exhausted
  | fuel + 1, i, sawAlpha, sawImage =>
    if payload.length ≤ i then check (sawImage) .invalidImage
    else do
      check (i + 8 ≤ payload.length) .invalidImage
      let kind ← slice payload i (i + 4)
      let size ← slice payload (i + 4) (i + 8)
      let len := leNat size
      let next := i + 8 + (len + len % 2)
      check (next ≤ payload.length) .invalidImage
      if kind = ascii "ALPH" ∧ sawAlpha = false ∧ sawImage = false then
        frameLoop payload fuel next true sawImage
      else if kind = ascii "VP8 " ∧ sawImage = false then frameLoop payload fuel next sawAlpha true
      else if kind = ascii "VP8L" ∧ sawAlpha = false ∧ sawImage = false then
        frameLoop payload fuel next sawAlpha true
      else if kind = ascii "ALPH" ∨ kind = ascii "VP8 " ∨ kind = ascii "VP8L" then
        reject .invalidImage
      else reject .metadataForbidden

def validateFramePayload (payload : Bytes) : Check Unit := do
  check (frameHeaderLen ≤ payload.length) .invalidImage
  frameLoop payload (payload.length + 1) frameHeaderLen false false

def webpChunks : List Bytes := ["VP8 ", "VP8L", "VP8X", "ALPH", "ANIM", "ANMF"].map ascii

def webpLoop (bytes : Bytes) : ℕ → ℕ → Check Unit
  | 0, _ => .error .exhausted
  | fuel + 1, i =>
    if bytes.length ≤ i then .ok ()
    else do
      check (i + 8 ≤ bytes.length) .invalidImage
      let kind ← slice bytes i (i + 4)
      let size ← slice bytes (i + 4) (i + 8)
      let len := leNat size
      let payloadStart := i + 8
      let next := payloadStart + (len + len % 2)
      check (next ≤ bytes.length) .invalidImage
      check (kind ∈ webpChunks) .metadataForbidden
      if kind = ascii "VP8X" then do
        check (payloadStart < bytes.length) .invalidImage
        let flags ← index bytes payloadStart
        check (flags &&& 0x2c = 0) .metadataForbidden
        webpLoop bytes fuel next
      else if kind = ascii "ANMF" then do
        let payload ← slice bytes payloadStart (payloadStart + len)
        validateFramePayload payload
        webpLoop bytes fuel next
      else webpLoop bytes fuel next

def validateWebpMetadataFree (bytes : Bytes) : Check Unit := do
  check (12 ≤ bytes.length) .invalidImage
  let riff ← slice bytes 0 4
  check (riff = ascii "RIFF") .invalidImage
  let webp ← slice bytes 8 12
  check (webp = ascii "WEBP") .invalidImage
  let declared ← slice bytes 4 8
  check (leNat declared + 8 = bytes.length) .metadataForbidden
  webpLoop bytes (bytes.length + 1) 12

def skipSubBlocks (bytes : Bytes) : ℕ → ℕ → Check ℕ
  | 0, _ => .error .exhausted
  | fuel + 1, i => do
    check (i < bytes.length) .invalidImage
    let len ← index bytes i
    if len = 0 then .ok (i + 1)
    else do
      check (i + 1 + len.toNat ≤ bytes.length) .invalidImage
      skipSubBlocks bytes fuel (i + 1 + len.toNat)

def tableLen (packed : UInt8) : ℕ :=
  if packed &&& 0x80 ≠ 0 then 3 <<< ((packed &&& 0x07).toNat + 1) else 0

def skipTable (bytes : Bytes) (packed : UInt8) (i : ℕ) : Check ℕ := do
  check (i + tableLen packed ≤ bytes.length) .invalidImage
  pure (i + tableLen packed)

def looping : List Bytes := [ascii "NETSCAPE2.0", ascii "ANIMEXTS1.0"]

def skipImage (bytes : Bytes) (i : ℕ) : Check ℕ := do
  check (i + 10 ≤ bytes.length) .invalidImage
  let packed ← index bytes (i + 9)
  let table ← skipTable bytes packed (i + 10)
  check (table + 1 ≤ bytes.length) .invalidImage
  skipSubBlocks bytes (bytes.length + 1) (table + 1)

def skipControl (bytes : Bytes) (i : ℕ) : Check ℕ := do
  check (bytes[i]? = some 4) .invalidImage
  check (i + 6 ≤ bytes.length) .invalidImage
  let terminator ← index bytes (i + 5)
  check (terminator = 0) .invalidImage
  pure (i + 6)

def skipLooping (bytes : Bytes) (i : ℕ) : Check ℕ := do
  check (bytes[i]? = some 11) .invalidImage
  check (i + 12 ≤ bytes.length) .invalidImage
  let app ← slice bytes (i + 1) (i + 12)
  check (app ∈ looping) .metadataForbidden
  let next := i + 12
  check (bytes[next]? = some 3 ∧ bytes[next + 1]? = some 1 ∧ bytes[next + 4]? = some 0)
    .metadataForbidden
  pure (next + 5)

def skipExtension (bytes : Bytes) (i : ℕ) : Check ℕ := do
  check (i + 1 < bytes.length) .invalidImage
  let label ← index bytes (i + 1)
  if label = 0xf9 then skipControl bytes (i + 2)
  else if label = 0xff then skipLooping bytes (i + 2)
  else reject .metadataForbidden

def gifLoop (bytes : Bytes) : ℕ → ℕ → Check Unit
  | 0, _ => .error .exhausted
  | fuel + 1, i => do
    check (i < bytes.length) .invalidImage
    let introducer ← index bytes i
    if introducer = 0x2c then skipImage bytes i >>= gifLoop bytes fuel
    else if introducer = 0x21 then skipExtension bytes i >>= gifLoop bytes fuel
    else if introducer = 0x3b then check (i + 1 = bytes.length) .metadataForbidden
    else reject .invalidImage

def validateGifMetadataFree (bytes : Bytes) : Check Unit := do
  check ((ascii "GIF87a" <+: bytes ∨ ascii "GIF89a" <+: bytes) ∧ 13 ≤ bytes.length) .invalidImage
  let packed ← index bytes 10
  let table ← skipTable bytes packed 13
  gifLoop bytes (bytes.length + 1) table

inductive ImageFormat
  | jpeg
  | png
  | webp
  | gif
  deriving DecidableEq

/-- Other MIME types are not checked. -/
def validateImageMetadataFree (bytes : Bytes) : ImageFormat → Check Unit
  | .jpeg => validateJpegMetadataFree bytes
  | .png => validatePngMetadataFree bytes
  | .webp => validateWebpMetadataFree bytes
  | .gif => validateGifMetadataFree bytes

end Buzz.Media
