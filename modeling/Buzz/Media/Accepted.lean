import Buzz.Media.Structures
import Mathlib.Data.List.TakeWhile

/-! An image that passes its check is made of the structures of its format, from its first byte to its
last, and no check reads past the end. -/

namespace Buzz.Media

open List
open Buzz.Nostr (Bytes)
open Library.Cursor

variable {bytes payload size kind : Bytes} {i fuel : ℕ}

section jpegWalk

variable {marker : UInt8} {inScan : Bool}

theorem skipFill_spec (isFill : bytes.drop i = 0xff :: bytes.drop (i + 1)) :
    i < skipFill bytes i ∧ ∃ fill,
      bytes.drop i = replicate (fill + 1) 0xff ++ bytes.drop (skipFill bytes i) := by
  have split := takeWhile_append_dropWhile (p := fun byte : UInt8 => byte = 0xff)
    (l := bytes.drop i)
  have filled : (bytes.drop i).takeWhile (· = 0xff) =
      replicate ((bytes.drop i).takeWhile (· = 0xff)).length 0xff := by
    apply eq_replicate_of_mem
    intro byte member
    have isFill := mem_takeWhile_imp member
    exact of_decide_eq_true isFill
  have rest : bytes.drop (skipFill bytes i) =
      (bytes.drop i).dropWhile fun byte => decide (byte = 0xff) := by
    rw [skipFill, ← drop_drop]
    calc
      _ = ((bytes.drop i).takeWhile (· = 0xff) ++
          (bytes.drop i).dropWhile (· = 0xff)).drop
            ((bytes.drop i).takeWhile (· = 0xff)).length := by rw [split]
      _ = (bytes.drop i).dropWhile fun byte => decide (byte = 0xff) := drop_left
  have positive : 0 < ((bytes.drop i).takeWhile (· = 0xff)).length := by
    rw [isFill, takeWhile_cons_of_pos (by decide)]
    exact Nat.succ_pos _
  refine ⟨Nat.lt_add_of_pos_right positive,
    ((bytes.drop i).takeWhile (· = 0xff)).length - 1, ?_⟩
  rw [Nat.sub_add_cancel positive, ← filled, rest, split]

theorem checkJfif_meets : Meets (checkJfif payload) fun _ => CanonicalJfif payload := by
  refine meets_check.bind fun _ long => ?_
  refine (meets_slice (by omega) (by omega)).bind fun head isHead => ?_
  refine meets_check.bind fun _ canonical => ?_
  refine (meets_index (by omega)).bind fun width isWidth => ?_
  refine (meets_index (by omega)).bind fun height isHeight => ?_
  refine meets_check.mono fun _ length => ⟨?_, width, height, isWidth.1, isHeight.1, length⟩
  rw [take_eq_of_piece isHead.1 isHead.2]
  exact canonical

theorem checkAdobe_meets : Meets (checkAdobe payload) fun _ => CanonicalAdobe payload := by
  refine meets_check.bind fun _ length => ?_
  refine (meets_slice (by omega) (by omega)).bind fun head isHead => ?_
  refine meets_check.mono fun _ canonical => ⟨?_, length⟩
  rw [take_eq_of_piece isHead.1 isHead.2]
  exact canonical

theorem checkSegment_meets {first last : ℕ} (ordered : first ≤ last) (inside : last ≤ bytes.length) :
    Meets (checkSegment bytes marker first last) fun _ => ∃ payload, payload.length = last - first ∧
      bytes.drop first = payload ++ bytes.drop last ∧ NoMetadataSegment marker payload := by
  unfold checkSegment NoMetadataSegment
  split
  · refine (meets_slice ordered inside).bind fun payload isPayload => ?_
    exact checkJfif_meets.mono fun _ jfif => ⟨payload, isPayload.1, isPayload.2, jfif⟩
  · split
    · refine (meets_slice ordered inside).bind fun payload isPayload => ?_
      exact checkAdobe_meets.mono fun _ adobe => ⟨payload, isPayload.1, isPayload.2, adobe⟩
    · obtain ⟨sized, split⟩ := drop_split ordered inside
      exact meets_check.mono fun _ other => ⟨_, sized, split, other⟩

theorem jpegLoop_meets (inside : i ≤ bytes.length) (enough : bytes.length - i < fuel) :
    Meets (jpegLoop bytes fuel i inScan) fun _ =>
      JpegBody NoMetadataSegment inScan (bytes.drop i) := by
  induction fuel generalizing i inScan with
  | zero => omega
  | succ fuel ih =>
    rw [jpegLoop]
    refine meets_check.bind fun _ within => ?_
    refine (meets_index within).bind fun byte isByte => ?_
    split
    next plain =>
      refine meets_check.bind fun _ scanning => ?_
      refine (ih (by omega) (by omega)).mono fun _ body => ?_
      rw [isByte.2]
      subst scanning
      exact .entropy plain body
    next isFill =>
      rw [not_not.mp isFill] at isByte
      obtain ⟨further, fill, split⟩ := skipFill_spec isByte.2
      refine meets_check.bind fun _ within => ?_
      refine (meets_index within).bind fun marker isMarker => ?_
      have here : bytes.drop i = markerBytes fill marker ++ bytes.drop (skipFill bytes i + 1) := by
        rw [split, isMarker.2, markerBytes, append_assoc]
        rfl
      dsimp only
      split
      next stuffed =>
        obtain ⟨rfl, rfl⟩ := stuffed
        refine (ih (by omega) (by omega)).mono fun _ body => ?_
        rw [here]
        exact .stuffed fill body
      · split
        next alone =>
          refine (ih (by omega) (by omega)).mono fun _ body => ?_
          rw [here]
          exact .standalone fill alone body
        · split
          next isEnd =>
            refine meets_check.mono fun _ ended => ?_
            rw [here, ended, drop_length, append_nil, isEnd]
            exact .finish fill
          · split
            · exact meets_reject
            · refine meets_check.bind fun _ short => ?_
              refine (meets_slice (by omega) short).bind fun size isSize => ?_
              refine meets_check.bind fun _ atLeast => ?_
              refine meets_check.bind fun _ fits => ?_
              refine (checkSegment_meets (by omega) fits).bind fun _ checked => ?_
              refine (ih (by omega) (by omega)).mono fun _ body => ?_
              obtain ⟨payload, sized, payloads, allowed⟩ := checked
              rw [here, isSize.2, payloads]
              refine .segment fill (by omega) (by omega) allowed body

theorem validateJpegMetadataFree_meets : Meets (validateJpegMetadataFree bytes) fun _ =>
    JpegFile NoMetadataSegment bytes := by
  refine meets_check.bind fun _ starts => ?_
  obtain ⟨rest, rfl⟩ := starts
  refine (jpegLoop_meets (by simp) (by simp only [length_append]; omega)).mono fun _ body => ?_
  exact ⟨rest, rfl, body⟩

end jpegWalk

section pngWalk

variable {sawSnapshotChunk : Bool}

theorem exists_pngChunk (isSize : size.length = 4 ∧ bytes.drop i = size ++ bytes.drop (i + 4))
    (isKind : kind.length = 4 ∧ bytes.drop (i + 4) = kind ++ bytes.drop (i + 8))
    (fits : i + 12 + beNat size ≤ bytes.length)
    (isPayload : payload.length = i + 12 + beNat size - 4 - (i + 8) ∧
      bytes.drop (i + 8) = payload ++ bytes.drop (i + 12 + beNat size - 4)) :
    ∃ chunk : PngChunk, chunk.kind = kind ∧ chunk.payload = payload ∧
      bytes.drop i = chunk.bytes ++ bytes.drop (i + 12 + beNat size) := by
  obtain ⟨sized, sizes⟩ := isSize
  obtain ⟨named, kinds⟩ := isKind
  obtain ⟨length, payloads⟩ := isPayload
  obtain ⟨summed, crcs⟩ := @drop_split _ bytes (i + 12 + beNat size - 4) (i + 12 + beNat size)
    (by omega) fits
  refine ⟨⟨size, kind, payload, _, sized, named, summed.trans (by omega), by omega⟩, rfl, rfl, ?_⟩
  calc
    bytes.drop i = size ++ (kind ++ (payload ++ (_ ++ bytes.drop (i + 12 + beNat size)))) := by
      rw [sizes, kinds, payloads, crcs]
    _ = _ := by simp only [PngChunk.bytes, append_assoc]

/-- The chunks of a walk that has found its `IEND`. -/
def WalkedPng (bytes : Bytes) (i snapshots : ℕ) (out : ℕ × Bool) : Prop :=
  out.2 → ∃ chunks, bytes.drop i = chunks.flatMap PngChunk.bytes ++ bytes.drop out.1 ∧
    PngChunks PngChunk.NoMetadata snapshots chunks

theorem WalkedPng.cons {chunk : PngChunk} {next snapshots snapshots' : ℕ} {out : ℕ × Bool}
    (walked : WalkedPng bytes next snapshots out)
    (here : bytes.drop i = chunk.bytes ++ bytes.drop next)
    (isAllowed : chunk.IsSnapshot ∨ chunk.NoMetadata)
    (counted : snapshots + (if chunk.IsSnapshot then 1 else 0) ≤ snapshots')
    (notEnd : chunk.kind ≠ ascii "IEND") : WalkedPng bytes i snapshots' out := by
  intro ended
  obtain ⟨chunks, split, each, manifests, front, last, isLast, isEnd, others⟩ := walked ended
  refine ⟨chunk :: chunks, ?_, ?_, ?_, chunk :: front, last, ?_, isEnd, ?_⟩
  · rw [here, split, flatMap_cons, append_assoc]
  · intro other member
    rcases mem_cons.mp member with rfl | later
    · exact isAllowed
    · exact each other later
  · rw [filter_cons]
    split at counted
    next isSnapshot =>
      rw [if_pos (decide_eq_true isSnapshot), length_cons]
      omega
    next notSnapshot =>
      rw [if_neg (by simpa using notSnapshot)]
      omega
  · rw [isLast, cons_append]
  · intro other member
    rcases mem_cons.mp member with rfl | later
    · exact notEnd
    · exact others other later

theorem pngLoop_meets (enough : bytes.length - i < fuel) :
    Meets (pngLoop bytes fuel i sawSnapshotChunk)
      (WalkedPng bytes i (if sawSnapshotChunk then 0 else 1)) := by
  induction fuel generalizing i sawSnapshotChunk with
  | zero => omega
  | succ fuel ih =>
    rw [pngLoop]
    split
    · exact fun ended => nomatch ended
    · refine meets_check.bind fun _ within => ?_
      refine (meets_slice (by omega) (by omega)).bind fun size isSize => ?_
      refine (meets_slice (by omega) (by omega)).bind fun kind isKind => ?_
      refine meets_check.bind fun _ fits => ?_
      have sized : size.length = 4 := by omega
      have named : kind.length = 4 := by omega
      split
      next isText =>
        refine (meets_slice (by omega) (by omega)).bind fun payload isPayload => ?_
        refine meets_check.bind fun _ manifest => ?_
        obtain ⟨first, isManifest⟩ := manifest
        obtain ⟨chunk, sameKind, samePayload, here⟩ :=
          exists_pngChunk ⟨sized, isSize.2⟩ ⟨named, isKind.2⟩ fits isPayload
        have isSnapshot : chunk.IsSnapshot :=
          ⟨sameKind.trans isText, samePayload ▸ isManifest⟩
        refine (ih (by omega)).mono fun out walked => ?_
        refine walked.cons here (.inl isSnapshot) ?_ ?_
        · rw [first, if_pos isSnapshot]
          decide
        · rw [sameKind, isText]
          decide
      next notText =>
        refine meets_check.bind fun _ _ => ?_
        refine meets_check.bind fun _ listed => ?_
        obtain ⟨isSplit, rest⟩ := @drop_split _ bytes (i + 8) (i + 12 + beNat size - 4)
          (by omega) (by omega)
        obtain ⟨chunk, sameKind, -, here⟩ :=
          exists_pngChunk ⟨sized, isSize.2⟩ ⟨named, isKind.2⟩ fits ⟨isSplit, rest⟩
        have notSnapshot : ¬ chunk.IsSnapshot := fun isSnapshot =>
          notText (sameKind.symm.trans isSnapshot.1)
        have noMetadata : chunk.NoMetadata := by
          unfold PngChunk.NoMetadata
          rw [sameKind]
          exact listed
        split
        next isEnd =>
          intro _
          refine ⟨[chunk], ?_, ?_, ?_, [], chunk, rfl, sameKind.trans isEnd, ?_⟩
          · rw [flatMap_cons, flatMap_nil, append_nil]
            exact here
          · intro other member
            rw [mem_singleton.mp member]
            exact .inr noMetadata
          · simp [notSnapshot]
          · intro other member
            cases member
        next notEnd =>
          refine (ih (by omega)).mono fun out walked => ?_
          refine walked.cons here (.inr noMetadata) ?_ ?_
          · rw [if_neg notSnapshot, Nat.add_zero]
          · rw [sameKind]
            exact notEnd

theorem validatePngMetadataFree_meets : Meets (validatePngMetadataFree bytes) fun _ =>
    PngFile PngChunk.NoMetadata 1 bytes := by
  refine meets_check.bind fun _ starts => ?_
  obtain ⟨rest, rfl⟩ := starts
  refine (pngLoop_meets (by omega)).bind fun out walked => ?_
  refine meets_check.mono fun _ ended => ?_
  obtain ⟨chunks, split, valid⟩ := walked ended.1
  refine ⟨chunks, ?_, valid⟩
  rw [ended.2, drop_length, append_nil, drop_left] at split
  rw [split]

end pngWalk

section webpWalk

variable {sawAlpha sawImage : Bool}

theorem exists_riffChunk (isKind : kind.length = 4 ∧ bytes.drop i = kind ++ bytes.drop (i + 4))
    (isSize : size.length = 4 ∧ bytes.drop (i + 4) = size ++ bytes.drop (i + 8))
    (fits : i + 8 + (leNat size + leNat size % 2) ≤ bytes.length)
    (isPayload : payload.length = leNat size ∧
      bytes.drop (i + 8) = payload ++ bytes.drop (i + 8 + leNat size)) :
    ∃ chunk : RiffChunk, chunk.kind = kind ∧ chunk.payload = payload ∧
      bytes.drop i = chunk.bytes ++ bytes.drop (i + 8 + (leNat size + leNat size % 2)) := by
  obtain ⟨named, kinds⟩ := isKind
  obtain ⟨sized, sizes⟩ := isSize
  obtain ⟨length, payloads⟩ := isPayload
  obtain ⟨padded, pads⟩ := @drop_split _ bytes (i + 8 + leNat size)
    (i + 8 + (leNat size + leNat size % 2)) (by omega) fits
  refine ⟨⟨kind, size, payload, _, named, sized, length.symm, padded.trans ?_⟩, rfl, rfl, ?_⟩
  · rw [length]
    omega
  · calc
      bytes.drop i = kind ++ (size ++ (payload ++
          (_ ++ bytes.drop (i + 8 + (leNat size + leNat size % 2))))) := by
        rw [kinds, sizes, payloads, pads]
      _ = _ := by simp only [RiffChunk.bytes, append_assoc]

theorem head_of_drop_cons {flags : UInt8} {next : ℕ} {tail : Bytes}
    (isFlags : bytes.drop i = flags :: tail) (rest : bytes.drop i = payload ++ bytes.drop next) :
    ∀ found ∈ payload.head?, found = flags := by
  intro found isFound
  cases payload with
  | nil => cases isFound
  | cons head payload =>
    rw [isFlags, cons_append] at rest
    injection rest with same
    cases isFound
    exact same.symm

def framesLeft (sawAlpha sawImage : Bool) : List (List Bytes) :=
  if sawImage then [[]]
  else if sawAlpha then [[ascii "VP8 "]]
  else [[ascii "VP8 "], [ascii "VP8L"], [ascii "ALPH", ascii "VP8 "]]

theorem frameLoop_meets (enough : bytes.length - i < fuel) :
    Meets (frameLoop bytes fuel i sawAlpha sawImage) fun _ => ∃ chunks : List RiffChunk,
      bytes.drop i = chunks.flatMap RiffChunk.bytes ∧
        chunks.map RiffChunk.kind ∈ framesLeft sawAlpha sawImage := by
  induction fuel generalizing i sawAlpha sawImage with
  | zero => omega
  | succ fuel ih =>
    rw [frameLoop]
    split
    next past =>
      refine meets_check.mono fun _ ended => ⟨[], drop_eq_nil_of_le past, ?_⟩
      rw [ended]
      exact mem_singleton_self _
    · refine meets_check.bind fun _ within => ?_
      refine (meets_slice (by omega) (by omega)).bind fun kind isKind => ?_
      refine (meets_slice (by omega) (by omega)).bind fun size isSize => ?_
      refine meets_check.bind fun _ fits => ?_
      obtain ⟨isSplit, rest⟩ := @drop_split _ bytes (i + 8) (i + 8 + leNat size) (by omega) (by omega)
      obtain ⟨chunk, sameKind, -, here⟩ := exists_riffChunk ⟨by omega, isKind.2⟩
        ⟨by omega, isSize.2⟩ fits ⟨isSplit.trans (by omega), rest⟩
      have later {alpha image : Bool}
          (more : ∀ kinds ∈ framesLeft alpha image, kind :: kinds ∈ framesLeft sawAlpha sawImage) :
          Meets (frameLoop bytes fuel (i + 8 + (leNat size + leNat size % 2)) alpha image)
            fun _ => ∃ chunks : List RiffChunk, bytes.drop i = chunks.flatMap RiffChunk.bytes ∧
              chunks.map RiffChunk.kind ∈ framesLeft sawAlpha sawImage := by
        refine (ih (by omega)).mono fun _ frames => ?_
        obtain ⟨chunks, split, kinds⟩ := frames
        refine ⟨chunk :: chunks, ?_, ?_⟩
        · rw [here, split, flatMap_cons]
        · rw [map_cons, sameKind]
          exact more _ kinds
      split
      next alpha =>
        obtain ⟨rfl, rfl, rfl⟩ := alpha
        apply later
        decide
      · split
        next image =>
          obtain ⟨rfl, rfl⟩ := image
          apply later
          cases sawAlpha <;> decide
        · split
          next lossless =>
            obtain ⟨rfl, rfl, rfl⟩ := lossless
            apply later
            decide
          · split
            · exact meets_reject
            · exact meets_reject

theorem validateFramePayload_meets : Meets (validateFramePayload payload) fun _ =>
    FramePayload payload := by
  refine meets_check.bind fun _ long => ?_
  obtain ⟨sized, split⟩ := @drop_split _ payload 0 frameHeaderLen (Nat.zero_le _) long
  refine (frameLoop_meets (by omega)).mono fun _ frames => ?_
  obtain ⟨chunks, rest, kinds⟩ := frames
  refine ⟨_, chunks, sized, ?_, kinds⟩
  rw [← rest, ← split, drop_zero]

theorem webpLoop_meets (enough : bytes.length - i < fuel) :
    Meets (webpLoop bytes fuel i) fun _ => ∃ chunks : List RiffChunk,
      bytes.drop i = chunks.flatMap RiffChunk.bytes ∧ ∀ chunk ∈ chunks, chunk.Rendering := by
  induction fuel generalizing i with
  | zero => omega
  | succ fuel ih =>
    rw [webpLoop]
    split
    next past => exact ⟨[], drop_eq_nil_of_le past, fun _ member => nomatch member⟩
    · refine meets_check.bind fun _ within => ?_
      refine (meets_slice (by omega) (by omega)).bind fun kind isKind => ?_
      refine (meets_slice (by omega) (by omega)).bind fun size isSize => ?_
      refine meets_check.bind fun _ fits => ?_
      refine meets_check.bind fun _ listed => ?_
      have later (payload : Bytes) (isPayload : payload.length = leNat size ∧
          bytes.drop (i + 8) = payload ++ bytes.drop (i + 8 + leNat size))
          (noFlags : kind = ascii "VP8X" → ∀ flags ∈ payload.head?, flags &&& 0x2c = 0)
          (frame : kind = ascii "ANMF" → FramePayload payload) :
          Meets (webpLoop bytes fuel (i + 8 + (leNat size + leNat size % 2))) fun _ =>
            ∃ chunks : List RiffChunk, bytes.drop i = chunks.flatMap RiffChunk.bytes ∧
              ∀ chunk ∈ chunks, chunk.Rendering := by
        obtain ⟨chunk, sameKind, samePayload, here⟩ := exists_riffChunk ⟨by omega, isKind.2⟩
          ⟨by omega, isSize.2⟩ fits isPayload
        refine (ih (by omega)).mono fun _ chunks => ?_
        obtain ⟨chunks, split, each⟩ := chunks
        refine ⟨chunk :: chunks, ?_, ?_⟩
        · rw [here, split, flatMap_cons]
        · intro other member
          rcases mem_cons.mp member with rfl | more
          · refine ⟨sameKind ▸ listed, fun isExtended => ?_, fun isFrame => ?_⟩
            · rw [samePayload]
              exact noFlags (sameKind.symm.trans isExtended)
            · rw [samePayload]
              exact frame (sameKind.symm.trans isFrame)
          · exact each other more
      obtain ⟨isSplit, rest⟩ := @drop_split _ bytes (i + 8) (i + 8 + leNat size) (by omega) (by omega)
      split
      next isExtended =>
        refine meets_check.bind fun _ within => ?_
        refine (meets_index within).bind fun flags isFlags => ?_
        refine meets_check.bind fun _ noFlags => ?_
        refine later _ ⟨isSplit.trans (by omega), rest⟩ (fun _ found isFound => ?_) fun isFrame => ?_
        · have same := head_of_drop_cons isFlags.2 rest found isFound
          rw [same]
          exact noFlags
        · rw [isExtended] at isFrame
          exact absurd isFrame (by decide)
      next notExtended =>
        split
        · refine (meets_slice (by omega) (by omega)).bind fun payload isPayload => ?_
          refine validateFramePayload_meets.bind fun _ frame => ?_
          exact later payload ⟨by omega, isPayload.2⟩ (fun same => absurd same notExtended)
            fun _ => frame
        next notFrame =>
          exact later _ ⟨isSplit.trans (by omega), rest⟩ (fun same => absurd same notExtended)
            fun same => absurd same notFrame

theorem validateWebpMetadataFree_meets : Meets (validateWebpMetadataFree bytes) fun _ =>
    WebpFile bytes := by
  refine meets_check.bind fun _ long => ?_
  refine (meets_slice (by omega) (by omega)).bind fun riff isRiff => ?_
  refine meets_check.bind fun _ riffs => ?_
  refine (meets_slice (by omega) (by omega)).bind fun webp isWebp => ?_
  refine meets_check.bind fun _ webps => ?_
  refine (meets_slice (by omega) (by omega)).bind fun declared isDeclared => ?_
  refine meets_check.bind fun _ exact => ?_
  refine (webpLoop_meets (by omega)).mono fun _ walked => ?_
  obtain ⟨chunks, split, each⟩ := walked
  refine ⟨declared, chunks, by omega, exact, ?_, each⟩
  have whole : bytes.drop 0 = bytes := drop_zero
  rw [← split, ← riffs, ← webps, ← isWebp.2, ← isDeclared.2, ← isRiff.2, whole]

end webpWalk

section gifWalk

variable {packed : UInt8}

theorem skipSubBlocks_meets (enough : bytes.length - i < fuel) :
    Meets (skipSubBlocks bytes fuel i) fun next =>
      ∃ data, SubBlocks data ∧ Between bytes i next data := by
  induction fuel generalizing i with
  | zero => omega
  | succ fuel ih =>
    rw [skipSubBlocks]
    refine meets_check.bind fun _ within => ?_
    refine (meets_index within).bind fun len isLen => ?_
    have lengths := between_one isLen.1
    split
    next isEmpty =>
      refine meets_ok ⟨[len], ?_, lengths⟩
      rw [isEmpty]
      exact .finish
    next filled =>
      refine meets_check.bind fun _ fits => ?_
      obtain ⟨data, length, between⟩ := exists_between fits
      refine (ih (by omega)).mono fun next later => ?_
      obtain ⟨rest, blocks, rests⟩ := later
      exact ⟨_, .block filled length blocks, lengths.append (between.append rests)⟩

theorem skipTable_meets : Meets (skipTable bytes packed i) fun next =>
    ∃ table, table.length = tableLen packed ∧ Between bytes i next table := by
  refine meets_check.bind fun _ fits => ?_
  exact meets_pure (exists_between fits)

def Passed (bytes : Bytes) (i next : ℕ) : Prop :=
  ∃ block, GifBlock block ∧ Between bytes i next block

theorem Passed.further {next : ℕ} (passed : Passed bytes i next) : i < next := by
  obtain ⟨block, valid, between⟩ := passed
  have filled : 0 < block.length := by
    cases valid <;> simp
  have length := between.length
  omega

theorem skipImage_meets (introduced : bytes[i]? = some 0x2c) :
    Meets (skipImage bytes i) (Passed bytes i) := by
  refine meets_check.bind fun _ fits => ?_
  refine (meets_index (by omega)).bind fun packed isPacked => ?_
  refine skipTable_meets.bind fun after table => ?_
  obtain ⟨table, tabled, tables⟩ := table
  refine meets_check.bind fun _ within => ?_
  refine (skipSubBlocks_meets (by omega)).mono fun next data => ?_
  obtain ⟨data, blocks, rest⟩ := data
  obtain ⟨descriptor, described, descriptors⟩ := @exists_between _ bytes (i + 1) 8 (by omega)
  obtain ⟨codeSize, isCodeSize⟩ : ∃ codeSize, bytes[after]? = some codeSize :=
    ⟨_, getElem?_eq_getElem within⟩
  have whole := (between_one introduced).append descriptors
    |>.append (between_one isPacked.1)
    |>.append tables
    |>.append (between_one isCodeSize)
    |>.append rest
  exact ⟨_, .image described tabled blocks, whole⟩

theorem skipControl_meets (introduced : Between bytes i (i + 2) [0x21, 0xf9]) :
    Meets (skipControl bytes (i + 2)) (Passed bytes i) := by
  refine meets_check.bind fun _ sized => ?_
  refine meets_check.bind fun _ fits => ?_
  refine (meets_index (by omega)).bind fun terminator isTerminator => ?_
  refine meets_check.bind fun _ terminated => ?_
  rw [terminated] at isTerminator
  obtain ⟨state, length, states⟩ := @exists_between _ bytes (i + 3) 4 (by omega)
  have whole := introduced.append (between_one sized)
    |>.append states
    |>.append (between_one isTerminator.1)
  exact meets_pure ⟨_, .control length, whole⟩

theorem skipLooping_meets (introduced : Between bytes i (i + 2) [0x21, 0xff]) :
    Meets (skipLooping bytes (i + 2)) (Passed bytes i) := by
  refine meets_check.bind fun _ sized => ?_
  refine meets_check.bind fun _ fits => ?_
  refine (meets_slice (by omega) fits).bind fun app isApp => ?_
  refine meets_check.bind fun _ isLooping => ?_
  refine meets_check.bind fun _ sub => ?_
  obtain ⟨opened, one, closed⟩ := sub
  have apps : Between bytes (i + 3) (i + 14) app := ⟨fits, by omega, isApp.2⟩
  have inside : i + 18 < bytes.length := (List.getElem?_eq_some_iff.mp closed).1
  obtain ⟨loops, length, counts⟩ := @exists_between _ bytes (i + 16) 2 (by omega)
  have whole := introduced.append (between_one sized)
    |>.append apps
    |>.append ((between_one opened).append (between_one one))
    |>.append counts
    |>.append (between_one closed)
  exact meets_pure ⟨_, .looping isLooping length, whole⟩

theorem skipExtension_meets (introduced : bytes[i]? = some 0x21) :
    Meets (skipExtension bytes i) (Passed bytes i) := by
  refine meets_check.bind fun _ within => ?_
  refine (meets_index within).bind fun label isLabel => ?_
  have opening := (between_one introduced).append (between_one isLabel.1)
  split
  next isControl =>
    rw [isControl] at opening
    exact skipControl_meets opening
  · split
    next isApplication =>
      rw [isApplication] at opening
      exact skipLooping_meets opening
    · exact meets_reject

theorem gifLoop_meets (enough : bytes.length - i < fuel) :
    Meets (gifLoop bytes fuel i) fun _ => ∃ blocks : List Bytes,
      (∀ block ∈ blocks, GifBlock block) ∧ bytes.drop i = blocks.flatten ++ [0x3b] := by
  induction fuel generalizing i with
  | zero => omega
  | succ fuel ih =>
    have later (next : ℕ) (within : i < bytes.length) (passed : Passed bytes i next) :
        Meets (gifLoop bytes fuel next) fun _ => ∃ blocks : List Bytes,
          (∀ block ∈ blocks, GifBlock block) ∧ bytes.drop i = blocks.flatten ++ [0x3b] := by
      have further := passed.further
      refine (ih (by omega)).mono fun _ rest => ?_
      obtain ⟨block, valid, between⟩ := passed
      obtain ⟨blocks, each, split⟩ := rest
      refine ⟨block :: blocks, ?_, ?_⟩
      · intro other member
        rcases mem_cons.mp member with rfl | more
        · exact valid
        · exact each other more
      · rw [between.split, split, flatten_cons, append_assoc]
    rw [gifLoop]
    refine meets_check.bind fun _ within => ?_
    refine (meets_index within).bind fun introducer isIntroducer => ?_
    split
    next isImage =>
      rw [isImage] at isIntroducer
      exact (skipImage_meets isIntroducer.1).bind fun next passed => later next within passed
    · split
      next isExtension =>
        rw [isExtension] at isIntroducer
        exact (skipExtension_meets isIntroducer.1).bind fun next passed =>
          later next within passed
      · split
        next isTrailer =>
          refine meets_check.mono fun _ ended => ⟨[], forall_mem_nil _, ?_⟩
          rw [isIntroducer.2, isTrailer, ended, drop_length]
          rfl
        · exact meets_reject

theorem validateGifMetadataFree_meets : Meets (validateGifMetadataFree bytes) fun _ =>
    GifFile bytes := by
  refine meets_check.bind fun _ starts => ?_
  obtain ⟨signed, long⟩ := starts
  refine (meets_index (by omega)).bind fun packed isPacked => ?_
  refine skipTable_meets.bind fun next table => ?_
  obtain ⟨table, tabled, tables⟩ := table
  refine (gifLoop_meets (by omega)).mono fun _ rest => ?_
  obtain ⟨blocks, each, split⟩ := rest
  obtain ⟨header, isHeader, here⟩ : ∃ header, header ∈ [ascii "GIF87a", ascii "GIF89a"] ∧
      header <+: bytes := by
    rcases signed with first | second
    · exact ⟨_, mem_cons_self, first⟩
    · exact ⟨_, mem_cons_of_mem _ mem_cons_self, second⟩
  have sized : header.length = 6 := by
    rcases mem_cons.mp isHeader with rfl | second
    · rfl
    · rw [mem_singleton.mp second]
      rfl
  obtain ⟨screen, length, screens⟩ := @exists_between _ bytes 6 7 (by omega)
  have headers : Between bytes 0 6 header := by
    obtain ⟨rest, rfl⟩ := here
    refine ⟨by omega, by omega, ?_⟩
    rw [drop_zero, ← sized, drop_left]
  have whole := (headers.append screens |>.append tables).split
  refine ⟨header, screen, table, blocks, isHeader, length, ?_, each, ?_⟩
  · intro packed' found
    have same : bytes[10]? = screen[4]? := by
      calc
        bytes[10]? = (bytes.drop 6)[4]? := by rw [getElem?_drop]
        _ = (screen ++ bytes.drop (6 + 7))[4]? := by rw [screens.split]
        _ = screen[4]? := getElem?_append_left (by omega)
    rw [isPacked.1, found] at same
    injection same with same
    rw [← same]
    exact tabled
  · rw [drop_zero] at whole
    rw [whole, split, append_assoc (header ++ screen ++ table)]

end gifWalk

theorem validateImageMetadataFree_meets (bytes : Bytes) (format : ImageFormat) :
    Meets (validateImageMetadataFree bytes format) fun _ => Structured bytes format := by
  cases format with
  | jpeg => exact validateJpegMetadataFree_meets
  | png => exact validatePngMetadataFree_meets
  | webp => exact validateWebpMetadataFree_meets
  | gif => exact validateGifMetadataFree_meets

/-- Every check ends within the file. -/
theorem validateImageMetadataFree_structured (bytes : Bytes) (format : ImageFormat) :
    (validateImageMetadataFree bytes format ≠ .error .outOfRange ∧
      validateImageMetadataFree bytes format ≠ .error .exhausted) ∧
    (validateImageMetadataFree bytes format = .ok () → Structured bytes format) := by
  have met := validateImageMetadataFree_meets bytes format
  exact ⟨met.ends, met.of_ok⟩

def sampleGif : Bytes :=
  ascii "GIF89a" ++ replicate 7 0 ++ [0x21, 0xff, 11] ++ ascii "NETSCAPE2.0" ++
    [3, 1, 0, 0, 0, 0x3b]

theorem sampleGif_structured : Structured sampleGif .gif :=
  (validateImageMetadataFree_structured sampleGif .gif).2 (by decide +kernel)

def sampleManifest : Bytes :=
  pngSignature ++ ([0, 0, 0, 19] ++ (ascii "tEXt" ++ (ascii "buzz_team_snapshot" ++ [0] ++
    [0, 0, 0, 0] ++ ([0, 0, 0, 0] ++ (ascii "IEND" ++ [0, 0, 0, 0])))))

theorem PngFile.firstKind {allowed : PngChunk → Prop} {snapshots : ℕ} {size kind rest : Bytes}
    (file : PngFile allowed snapshots (pngSignature ++ (size ++ (kind ++ rest))))
    (sized : size.length = 4) (named : kind.length = 4) :
    ∃ chunks, PngChunks allowed snapshots chunks ∧ ∃ chunk ∈ chunks, chunk.kind = kind := by
  obtain ⟨chunks, split, valid⟩ := file
  obtain ⟨front, last, isLast, -, -⟩ := valid.ends
  cases chunks with
  | nil => simp at isLast
  | cons chunk later =>
    refine ⟨_, valid, chunk, mem_cons_self, ?_⟩
    have same := append_cancel_left split
    rw [flatMap_cons, PngChunk.bytes, append_assoc, append_assoc] at same
    have rests := (append_inj same (sized.trans chunk.sized.symm)).2
    exact (append_inj rests (named.trans chunk.named.symm)).1.symm

theorem sampleManifest_carries :
    validateImageMetadataFree sampleManifest .png = .ok () ∧ ¬ RenderingOnly sampleManifest .png := by
  refine ⟨by decide +kernel, fun file => ?_⟩
  obtain ⟨chunks, valid, chunk, member, isText⟩ := PngFile.firstKind file rfl rfl
  have none : chunks.filter (fun chunk => decide chunk.IsSnapshot) = [] :=
    length_eq_zero_iff.mp (Nat.le_zero.mp valid.manifests)
  rcases valid.each chunk member with isSnapshot | listed
  · have found : chunk ∈ chunks.filter fun chunk => decide chunk.IsSnapshot :=
      mem_filter.mpr ⟨member, decide_eq_true isSnapshot⟩
    rw [none] at found
    cases found
  · unfold PngChunk.Listed at listed
    rw [isText] at listed
    revert listed
    decide

end Buzz.Media
