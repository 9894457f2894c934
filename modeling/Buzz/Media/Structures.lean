import Buzz.Media.Walks

/-! What an image that passes its check consists of, structure by structure. -/

namespace Buzz.Media

open Buzz.Nostr (Bytes)
open Library.Cursor

/-- A marker, after at least one `0xff`. -/
def markerBytes (fill : ℕ) (marker : UInt8) : Bytes := List.replicate (fill + 1) 0xff ++ [marker]

structure CanonicalJfif (payload : Bytes) : Prop where
  head : payload.take 5 = ascii "JFIF" ++ [0]
  thumbnail : ∃ width height, payload[12]? = some width ∧ payload[13]? = some height ∧
    payload.length = 14 + 3 * width.toNat * height.toNat

structure CanonicalAdobe (payload : Bytes) : Prop where
  head : payload.take 5 = ascii "Adobe"
  length : payload.length = 12

/-- No comment, and no application segment but the colour headers. -/
def NoMetadataSegment (marker : UInt8) (payload : Bytes) : Prop :=
  if marker = 0xe0 then CanonicalJfif payload
  else if marker = 0xee then CanonicalAdobe payload
  else ¬ (0xe1 ≤ marker ∧ marker ≤ 0xed ∨ marker = 0xef ∨ marker = 0xfe)

def ListedSegment (marker : UInt8) (payload : Bytes) : Prop :=
  marker = 0xe0 ∧ CanonicalJfif payload ∨ marker = 0xee ∧ CanonicalAdobe payload ∨
    (0xc0 ≤ marker ∧ marker ≤ 0xcf ∧ marker ≠ 0xc8) ∨ (0xda ≤ marker ∧ marker ≤ 0xdf)

inductive JpegBody (allowed : UInt8 → Bytes → Prop) : Bool → Bytes → Prop
  | entropy {byte : UInt8} {rest : Bytes} (plain : byte ≠ 0xff) (body : JpegBody allowed true rest) :
    JpegBody allowed true (byte :: rest)
  | stuffed {rest : Bytes} (fill : ℕ) (body : JpegBody allowed true rest) :
    JpegBody allowed true (markerBytes fill 0 ++ rest)
  | standalone {inScan : Bool} {marker : UInt8} {rest : Bytes} (fill : ℕ)
    (alone : isStandalone marker) (body : JpegBody allowed inScan rest) :
    JpegBody allowed inScan (markerBytes fill marker ++ rest)
  | segment {inScan : Bool} {marker : UInt8} {size payload rest : Bytes} (fill : ℕ)
    (sized : size.length = 2) (length : beNat size = payload.length + 2)
    (isAllowed : allowed marker payload) (body : JpegBody allowed (marker == 0xda) rest) :
    JpegBody allowed inScan (markerBytes fill marker ++ (size ++ (payload ++ rest)))
  | finish {inScan : Bool} (fill : ℕ) : JpegBody allowed inScan (markerBytes fill 0xd9)

def JpegFile (allowed : UInt8 → Bytes → Prop) (bytes : Bytes) : Prop :=
  ∃ rest, bytes = [0xff, 0xd8] ++ rest ∧ JpegBody allowed false rest

structure PngChunk where
  size : Bytes
  kind : Bytes
  payload : Bytes
  crc : Bytes
  sized : size.length = 4
  named : kind.length = 4
  summed : crc.length = 4
  length : beNat size = payload.length

def PngChunk.bytes (self : PngChunk) : Bytes :=
  self.size ++ (self.kind ++ (self.payload ++ self.crc))

def PngChunk.IsSnapshot (self : PngChunk) : Prop :=
  self.kind = ascii "tEXt" ∧ isSnapshotTextChunk self.payload

instance (chunk : PngChunk) : Decidable chunk.IsSnapshot := inferInstanceAs (Decidable (_ ∧ _))

def PngChunk.NoMetadata (self : PngChunk) : Prop :=
  isAncillary self.kind → self.kind ∈ pngRendering

def pngCritical : List Bytes := ["IHDR", "PLTE", "IDAT", "IEND"].map ascii

def PngChunk.Listed (self : PngChunk) : Prop := self.kind ∈ pngCritical ∨ self.kind ∈ pngRendering

/-- At most `snapshots` manifests and one `IEND`, the last. -/
structure PngChunks (allowed : PngChunk → Prop) (snapshots : ℕ) (chunks : List PngChunk) : Prop where
  each : ∀ chunk ∈ chunks, chunk.IsSnapshot ∨ allowed chunk
  manifests : (chunks.filter fun chunk => decide chunk.IsSnapshot).length ≤ snapshots
  ends : ∃ front last, chunks = front ++ [last] ∧ last.kind = ascii "IEND" ∧
    ∀ chunk ∈ front, chunk.kind ≠ ascii "IEND"

def PngFile (allowed : PngChunk → Prop) (snapshots : ℕ) (bytes : Bytes) : Prop :=
  ∃ chunks, bytes = pngSignature ++ chunks.flatMap PngChunk.bytes ∧
    PngChunks allowed snapshots chunks

structure RiffChunk where
  kind : Bytes
  size : Bytes
  payload : Bytes
  pad : Bytes
  named : kind.length = 4
  sized : size.length = 4
  length : leNat size = payload.length
  padded : pad.length = payload.length % 2

def RiffChunk.bytes (self : RiffChunk) : Bytes :=
  self.kind ++ (self.size ++ (self.payload ++ self.pad))

def FramePayload (payload : Bytes) : Prop :=
  ∃ (header : Bytes) (chunks : List RiffChunk), header.length = frameHeaderLen ∧
    payload = header ++ chunks.flatMap RiffChunk.bytes ∧
      chunks.map RiffChunk.kind ∈
        [[ascii "VP8 "], [ascii "VP8L"], [ascii "ALPH", ascii "VP8 "]]

structure RiffChunk.Rendering (self : RiffChunk) : Prop where
  listed : self.kind ∈ webpChunks
  noFlags : self.kind = ascii "VP8X" → ∀ flags ∈ self.payload.head?, flags &&& 0x2c = 0
  frame : self.kind = ascii "ANMF" → FramePayload self.payload

def WebpFile (bytes : Bytes) : Prop :=
  ∃ (size : Bytes) (chunks : List RiffChunk), size.length = 4 ∧ leNat size + 8 = bytes.length ∧
    bytes = ascii "RIFF" ++ (size ++ (ascii "WEBP" ++ chunks.flatMap RiffChunk.bytes)) ∧
      ∀ chunk ∈ chunks, chunk.Rendering

inductive SubBlocks : Bytes → Prop
  | finish : SubBlocks [0]
  | block {len : UInt8} {data rest : Bytes} (filled : len ≠ 0) (length : data.length = len.toNat)
    (later : SubBlocks rest) : SubBlocks (len :: (data ++ rest))

/-- Image data, a graphic control or a looping extension. -/
inductive GifBlock : Bytes → Prop
  | image {descriptor table data : Bytes} {packed codeSize : UInt8} (described : descriptor.length = 8)
    (tabled : table.length = tableLen packed) (blocks : SubBlocks data) :
    GifBlock ([0x2c] ++ descriptor ++ [packed] ++ table ++ [codeSize] ++ data)
  | control {state : Bytes} (length : state.length = 4) :
    GifBlock ([0x21, 0xf9, 4] ++ state ++ [0])
  | looping {app loops : Bytes} (isLooping : app ∈ Media.looping) (length : loops.length = 2) :
    GifBlock ([0x21, 0xff, 11] ++ app ++ [3, 1] ++ loops ++ [0])

def GifFile (bytes : Bytes) : Prop :=
  ∃ (header screen table : Bytes) (blocks : List Bytes), header ∈ [ascii "GIF87a", ascii "GIF89a"] ∧ screen.length = 7 ∧
    (∀ packed, screen[4]? = some packed → table.length = tableLen packed) ∧
      (∀ block ∈ blocks, GifBlock block) ∧
        bytes = header ++ screen ++ table ++ blocks.flatten ++ [0x3b]

/-- What the check of each format lets through. -/
def Structured (bytes : Bytes) : ImageFormat → Prop
  | .jpeg => JpegFile NoMetadataSegment bytes
  | .png => PngFile PngChunk.NoMetadata 1 bytes
  | .webp => WebpFile bytes
  | .gif => GifFile bytes

def RenderingOnly (bytes : Bytes) : ImageFormat → Prop
  | .jpeg => JpegFile ListedSegment bytes
  | .png => PngFile PngChunk.Listed 0 bytes
  | .webp => WebpFile bytes
  | .gif => GifFile bytes

end Buzz.Media
