import Buzz.Media.Walks

/-! The checks of an uploaded video's boxes: the top-level scan for `moov`, and the walk of the tree. -/

namespace Buzz.Media

open Buzz.Nostr (Bytes)
open List

inductive VideoError
  | moovNotAtFront
  | invalidVideo
  | metadataForbidden
  deriving DecidableEq

/-- `seek`, then `read_exact`. -/
def readExact (bytes : Bytes) (offset length : ℕ) : Option Bytes :=
  if offset + length ≤ bytes.length then some ((bytes.drop offset).take length) else none

/-- A file, whose length is a `u64`. -/
structure VideoFile where
  bytes : Bytes
  sized : bytes.length < 2 ^ 64

section scan

variable {bytes : Bytes} {offset atoms : ℕ} {kinds : List Bytes} {moovSeen : Bool}

end scan

def maxBoxes : ℕ := 100000

def maxBoxDepth : ℕ := 32

def emptyFfmpegUdta : Bytes :=
  [0, 0, 0, 0x35] ++ ascii "meta" ++ [0, 0, 0, 0, 0, 0, 0, 0x21] ++ ascii "hdlr" ++
    replicate 8 0 ++ ascii "mdirappl" ++ replicate 12 0 ++ [8] ++ ascii "ilst"

def forbiddenBoxes : List Bytes :=
  ["meta", "ilst", "keys", "data", "uuid", "xml ", "bxml", "loci", "©xyz", "name", "chap"].map ascii

def containerBoxes : List Bytes :=
  ["moov", "trak", "mdia", "minf", "stbl", "edts", "dinf", "sinf", "schi"].map ascii

def allowedBoxes : List Bytes :=
  ["ftyp", "moov", "mdat", "free", "skip", "wide", "trak", "mdia", "minf", "stbl", "edts", "dinf",
    "sinf", "schi", "udta", "mvhd", "tkhd", "mdhd", "hdlr", "vmhd", "smhd", "dref", "url ", "urn ",
    "stsd", "stts", "stss", "ctts", "stsc", "stsz", "stco", "co64", "sgpd", "sbgp", "elst"].map ascii

/-- The kind of a box with its size and whether that is an extended one. -/
def boxHeader (bytes : Bytes) (offset last : ℕ) : Option (Bytes × ℕ × Bool) := do
  let header ← readExact bytes offset 8
  let compact := beNat (header.take 4)
  if compact = 1 then
    let ext ← readExact bytes (offset + 8) 8
    some (header.drop 4, beNat ext, true)
  else some (header.drop 4, if compact = 0 then last - offset else compact, false)

def headerLength (extended : Bool) : ℕ := if extended then 16 else 8

/-- Each call has a shorter range. -/
def walkBoxes (bytes : Bytes) (depth offset last count : ℕ) : Except VideoError ℕ :=
  if maxBoxDepth < depth then .error .invalidVideo
  else if _inside : offset < last then
    if maxBoxes < count + 1 ∨ last - offset < 8 then .error .invalidVideo
    else
      match boxHeader bytes offset last with
      | none => .error .invalidVideo
      | some (kind, size, extended) =>
        let header := headerLength extended
        if fits : size < header ∨ last < offset + size then .error .invalidVideo
        else if kind ∈ forbiddenBoxes ∨ kind ∉ allowedBoxes then .error .metadataForbidden
        else if kind = ascii "udta" then
          if size ≠ header + emptyFfmpegUdta.length then .error .metadataForbidden
          else
            match readExact bytes (offset + header) emptyFfmpegUdta.length with
            | none => .error .invalidVideo
            | some body =>
              if body ≠ emptyFfmpegUdta then .error .metadataForbidden
              else walkBoxes bytes depth (offset + size) last (count + 1)
        else if kind ∈ containerBoxes then
          match walkBoxes bytes (depth + 1) (offset + header) (offset + size) (count + 1) with
          | .error error => .error error
          | .ok count => walkBoxes bytes depth (offset + size) last count
        else walkBoxes bytes depth (offset + size) last (count + 1)
  else .ok count
termination_by last - offset
decreasing_by
  all_goals
    have positive : 8 ≤ headerLength extended := by cases extended <;> decide
    omega

def validateMp4MetadataFree (file : VideoFile) : Except VideoError Unit :=
  (walkBoxes file.bytes 0 0 file.bytes.length 0).map fun _ => ()

/-- Its three forms. -/
def IsHeader (header kind payload rest : Bytes) : Prop :=
  header.length = 8 ∧ header.drop 4 = kind ∧
      (beNat (header.take 4) = 8 + payload.length ∨ beNat (header.take 4) = 0 ∧ rest = []) ∨
    header.length = 16 ∧ (header.take 8).drop 4 = kind ∧ beNat (header.take 4) = 1 ∧
      beNat (header.drop 8) = 16 + payload.length

/-- The bytes are boxes and nothing else, at the depth, and so many in all. -/
inductive Tiles : ℕ → Bytes → ℕ → Prop
  | nil {depth : ℕ} (shallow : depth ≤ maxBoxDepth) : Tiles depth [] 0
  | leaf {depth count : ℕ} {header kind payload rest : Bytes}
    (isHeader : IsHeader header kind payload rest) (allowed : kind ∈ allowedBoxes)
    (noContainer : kind ∉ containerBoxes)
    (constant : kind = ascii "udta" → payload = emptyFfmpegUdta) (others : Tiles depth rest count) :
    Tiles depth (header ++ payload ++ rest) (count + 1)
  | container {depth inner count : ℕ} {header kind payload rest : Bytes}
    (isHeader : IsHeader header kind payload rest) (allowed : kind ∈ allowedBoxes)
    (isContainer : kind ∈ containerBoxes) (children : Tiles (depth + 1) payload inner)
    (others : Tiles depth rest count) : Tiles depth (header ++ payload ++ rest) (inner + count + 1)

def range (bytes : Bytes) (first last : ℕ) : Bytes := (bytes.drop first).take (last - first)

section walk

variable {bytes kind body : Bytes} {offset middle last size length : ℕ} {extended : Bool}

theorem readExact_some (read : readExact bytes offset length = some body) :
    offset + length ≤ bytes.length ∧ body = range bytes offset (offset + length) := by
  unfold readExact at read
  split at read
  next inside =>
    cases read
    exact ⟨inside, by rw [range, Nat.add_sub_cancel_left]⟩
  · cases read

theorem length_range (inside : last ≤ bytes.length) : (range bytes offset last).length = last - offset := by
  rw [range, length_take, length_drop]
  omega

theorem range_split (first : offset ≤ middle) (second : middle ≤ last) :
    range bytes offset last = range bytes offset middle ++ range bytes middle last := by
  have sum : last - offset = (middle - offset) + (last - middle) := by omega
  rw [range, sum, take_add, drop_drop, Nat.add_sub_cancel' first]
  rfl

theorem boxHeader_some (read : boxHeader bytes offset last = some (kind, size, extended))
    (positive : headerLength extended ≤ size) (fits : offset + size ≤ last)
    (inside : last ≤ bytes.length) :
    IsHeader (range bytes offset (offset + headerLength extended)) kind
      (range bytes (offset + headerLength extended) (offset + size))
      (range bytes (offset + size) last) := by
  unfold IsHeader
  rw [length_range (by omega), length_range (by omega)]
  unfold boxHeader at read
  rcases Option.bind_eq_some_iff.mp read with ⟨header, isHeader, read⟩
  rcases readExact_some isHeader with ⟨within, rfl⟩
  have eight := @length_range bytes offset (offset + 8) within
  dsimp only at read
  split at read
  next compact =>
    rcases Option.bind_eq_some_iff.mp read with ⟨ext, isExt, read⟩
    rcases readExact_some isExt with ⟨_, isRange⟩
    change ext = range bytes (offset + 8) (offset + 16) at isRange
    subst isRange
    cases read
    have split : range bytes offset (offset + 16) =
        range bytes offset (offset + 8) ++ range bytes (offset + 8) (offset + 16) :=
      range_split (by omega) (by omega)
    have taken : (range bytes offset (offset + 16)).take 8 = range bytes offset (offset + 8) := by
      rw [split, take_left' (by omega)]
    have first : (range bytes offset (offset + 16)).take 4 =
        (range bytes offset (offset + 8)).take 4 := by
      rw [← taken, take_take]
      rfl
    refine .inr ⟨by simp [headerLength], ?_, ?_, ?_⟩
    · exact congrArg (drop 4) taken
    · exact (congrArg beNat first).trans compact
    · change beNat ((range bytes offset (offset + 16)).drop 8) = _
      rw [split, drop_left' (by omega)]
      simp only [headerLength, if_true] at positive ⊢
      omega
  · cases read
    refine .inl ⟨by simp [headerLength], rfl, ?_⟩
    simp only [headerLength, Bool.false_eq_true, if_false] at positive ⊢
    by_cases zero : beNat ((range bytes offset (offset + 8)).take 4) = 0
    · refine .inr ⟨zero, ?_⟩
      rw [if_pos zero]
      exact length_eq_zero_iff.mp ((length_range inside).trans (by omega))
    · rw [if_neg zero] at positive ⊢
      exact .inl (by omega)

theorem range_parts {header : ℕ} (fits : ¬ (size < header ∨ last < offset + size)) :
    range bytes offset last = range bytes offset (offset + header) ++
      range bytes (offset + header) (offset + size) ++ range bytes (offset + size) last := by
  rw [append_assoc, ← range_split (by omega) (by omega), ← range_split (by omega) (by omega)]

theorem walkBoxes_ok {depth count boxes : ℕ} (ordered : offset ≤ last) (inside : last ≤ bytes.length)
    (few : count ≤ maxBoxes) (ok : walkBoxes bytes depth offset last count = .ok boxes) :
    boxes ≤ maxBoxes ∧ ∃ more, boxes = count + more ∧ Tiles depth (range bytes offset last) more := by
  fun_induction walkBoxes bytes depth offset last count generalizing boxes with
  | case1 | case2 | case3 | case4 | case5 | case6 | case7 | case8 | case10 => cases ok
  | case9 =>
    rename_i depth offset last count _ _ bounds size extended header fits exact body isBody same read listed ih
    rcases ih (by omega) inside (by omega) ok with ⟨within, more, rfl, tiles⟩
    refine ⟨within, more + 1, by omega, ?_⟩
    rw [range_parts fits]
    have isHeader := boxHeader_some read (by omega) (by omega) inside
    refine .leaf isHeader (not_not.mp (not_or.mp listed).2) (by decide) (fun _ => ?_) tiles
    have isBody := (readExact_some isBody).2
    rw [← not_not.mp same, isBody, not_not.mp exact, Nat.add_assoc]
  | case11 =>
    rename_i depth offset last count _ _ bounds kind size extended read header fits listed notUdta
      isContainer inner isInner childIh ih
    rcases childIh (by omega) (by omega) (by omega) isInner with ⟨few, children, rfl, isChildren⟩
    rcases ih (by omega) inside few ok with ⟨within, more, rfl, tiles⟩
    refine ⟨within, children + more + 1, by omega, ?_⟩
    rw [range_parts fits]
    have isHeader := boxHeader_some read (by omega) (by omega) inside
    exact .container isHeader (not_not.mp (not_or.mp listed).2) isContainer isChildren tiles
  | case12 =>
    rename_i depth offset last count _ _ bounds kind size extended read header fits listed notUdta
      noContainer ih
    rcases ih (by omega) inside (by omega) ok with ⟨within, more, rfl, tiles⟩
    refine ⟨within, more + 1, by omega, ?_⟩
    rw [range_parts fits]
    have isHeader := boxHeader_some read (by omega) (by omega) inside
    exact .leaf isHeader (not_not.mp (not_or.mp listed).2) noContainer (absurd · notUdta) tiles
  | case13 depth offset last count shallow ended =>
    cases ok
    refine ⟨few, 0, rfl, ?_⟩
    rw [range, Nat.sub_eq_zero_of_le (Nat.le_of_not_lt ended)]
    exact .nil (Nat.le_of_not_lt shallow)

end walk

/-- Boxes tile the file, and each container its children. -/
theorem validateMp4MetadataFree_ok (file : VideoFile) (ok : validateMp4MetadataFree file = .ok ()) :
    ∃ boxes ≤ maxBoxes, Tiles 0 file.bytes boxes := by
  unfold validateMp4MetadataFree at ok
  cases isWalk : walkBoxes file.bytes 0 0 file.bytes.length 0 with
  | error error =>
    rw [isWalk] at ok
    cases ok
  | ok boxes =>
    rcases walkBoxes_ok (Nat.zero_le _) le_rfl (Nat.zero_le _) isWalk with ⟨few, more, rfl, tiles⟩
    refine ⟨more, by omega, ?_⟩
    rwa [range, drop_zero, Nat.sub_zero, take_length] at tiles

def sampleTree : VideoFile := ⟨[0, 0, 0, 16] ++ ascii "moov" ++ ([0, 0, 0, 0] ++ ascii "trak"), by decide⟩

theorem sampleTree_tiled : ∃ boxes ≤ maxBoxes, Tiles 0 sampleTree.bytes boxes :=
  validateMp4MetadataFree_ok sampleTree (by decide +kernel)

end Buzz.Media
