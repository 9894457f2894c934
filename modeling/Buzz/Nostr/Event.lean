import Mathlib.Algebra.Group.Int.Defs
import Mathlib.Algebra.Group.Nat.Defs
import Mathlib.Data.List.AList

/-! Identifiers and Nostr events, with the parts of their text forms that the code compares. -/

namespace Buzz.Nostr

open List Option

abbrev Bytes := List UInt8

def hexDigit (n : ℕ) : Char :=
  ['0', '1', '2', '3', '4', '5', '6', '7', '8', '9', 'a', 'b', 'c', 'd', 'e', 'f'].getD n '0'

def hexByte (byte : UInt8) : List Char :=
  [hexDigit (byte.toNat / 16), hexDigit (byte.toNat % 16)]

/-- `hex::encode`: two lower-case digits a byte. -/
def hexEncode (bytes : Bytes) : List Char := bytes.flatMap hexByte

theorem hexDigit_injOn : ∀ m < 16, ∀ n < 16, hexDigit m = hexDigit n → m = n := by
  decide

theorem hexByte_injective : Function.Injective hexByte := by
  intro first second same
  simp only [hexByte, List.cons.injEq, and_true] at same
  have firstBound := first.toNat_lt
  have secondBound := second.toNat_lt
  have high := hexDigit_injOn _ (by omega) _ (by omega) same.1
  have low := hexDigit_injOn _ (by omega) _ (by omega) same.2
  exact UInt8.toNat_inj.mp (by omega)

theorem hexEncode_injective : Function.Injective hexEncode := by
  intro first second same
  induction first generalizing second with
  | nil =>
    cases second with
    | nil => rfl
    | cons byte rest => simp [hexEncode, hexByte] at same
  | cons byte rest ih =>
    cases second with
    | nil => simp [hexEncode, hexByte] at same
    | cons other more =>
      simp only [hexEncode, flatMap_cons, hexByte, cons_append, nil_append,
        List.cons.injEq] at same
      have head : byte = other := hexByte_injective (by simp [hexByte, same.1, same.2.1])
      rw [head, ih same.2.2]

theorem hexEncode_length (bytes : Bytes) : (hexEncode bytes).length = 2 * bytes.length := by
  induction bytes with
  | nil => rfl
  | cons byte rest ih =>
    simp only [hexEncode, flatMap_cons, length_append, length_cons] at ih ⊢
    rw [ih]
    simp only [hexByte, length_cons, length_nil]
    omega

def hexValue (c : Char) : Option ℕ :=
  if '0' ≤ c ∧ c ≤ '9' then some (c.toNat - '0'.toNat)
  else if 'a' ≤ c ∧ c ≤ 'f' then some (c.toNat - 'a'.toNat + 10)
  else if 'A' ≤ c ∧ c ≤ 'F' then some (c.toNat - 'A'.toNat + 10)
  else none

/-- `hex::decode`. -/
def hexDecode : List Char → Option Bytes
  | [] => some []
  | high :: low :: rest => do
    let first ← hexValue high
    let second ← hexValue low
    let bytes ← hexDecode rest
    some (UInt8.ofNat (16 * first + second) :: bytes)
  | [_] => none

theorem hexValue_hexDigit : ∀ n < 16, hexValue (hexDigit n) = some n := by
  decide

theorem hexDecode_hexEncode (bytes : Bytes) : hexDecode (hexEncode bytes) = some bytes := by
  induction bytes with
  | nil => rfl
  | cons byte rest ih =>
    have bound := byte.toNat_lt
    have high := hexValue_hexDigit (byte.toNat / 16) (by omega)
    have low := hexValue_hexDigit (byte.toNat % 16) (by omega)
    have whole : 16 * (byte.toNat / 16) + byte.toNat % 16 = byte.toNat := Nat.div_add_mod _ 16
    simp only [hexEncode, flatMap_cons, hexByte, cons_append, nil_append] at ih ⊢
    simp only [hexDecode, high, low, ih, bind_eq_bind, bind_some, whole,
      UInt8.ofNat_toNat]

abbrev FixedBytes (length : ℕ) := {bytes : Bytes // bytes.length = length}

abbrev EventId := FixedBytes 32
abbrev PublicKey := FixedBytes 32
abbrev Uuid := FixedBytes 16

instance : LawfulBEq Bytes := inferInstance

instance : LawfulBEq Uuid := inferInstance

/-- The same byte throughout. -/
abbrev FixedBytes.fill {length : ℕ} (byte : UInt8) : FixedBytes length :=
  ⟨replicate length byte, length_replicate⟩

def FixedBytes.toHex {length : ℕ} (self : FixedBytes length) : String :=
  String.ofList (hexEncode self.val)

theorem toHex_injective {length : ℕ} :
    Function.Injective (@FixedBytes.toHex length) := by
  intro first second same
  apply Subtype.ext
  apply hexEncode_injective
  have lists := congrArg String.toList same
  simpa only [FixedBytes.toHex, String.toList_ofList] using lists

def Uuid.toString (self : Uuid) : String :=
  let hex := hexEncode self.val
  String.ofList <| hex.take 8 ++ '-' :: (hex.drop 8).take 4 ++ '-' :: (hex.drop 12).take 4 ++
    '-' :: (hex.drop 16).take 4 ++ '-' :: hex.drop 20

structure CommunityId where
  uuid : Uuid
  deriving DecidableEq

abbrev Kind := UInt16

structure Tag where
  buf : List String
  nonempty : buf ≠ []
  deriving DecidableEq

/-- `tag.kind().to_string()`. -/
def Tag.kind (self : Tag) : String := self.buf.head self.nonempty

def Tag.content (self : Tag) : Option String := self.buf[1]?

structure Event where
  id : EventId
  pubkey : PublicKey
  createdAt : ℕ
  kind : Kind
  tags : List Tag
  content : String
  sig : Bytes
  deriving DecidableEq

structure StoredEvent where
  event : Event
  channelId : Option Uuid
  deriving DecidableEq

end Buzz.Nostr

/-! Subscription filters and their matching: filters are or-ed, the fields of one are and-ed. -/

namespace Buzz.Nostr

structure SingleLetterTag where
  character : Char
  letter : character.isAlpha
  deriving DecidableEq

def SingleLetterTag.toString (self : SingleLetterTag) : String :=
  String.singleton self.character

structure Filter where
  ids : Option (List EventId)
  authors : Option (List PublicKey)
  kinds : Option (List Kind)
  search : Option String
  since : Option ℕ
  «until» : Option ℕ
  limit : Option ℕ
  genericTags : AList fun _ : SingleLetterTag => List String

def tagContents (key : String) (tags : List Tag) : List String :=
  (tags.filter (·.kind == key)).filterMap Tag.content

/-- An unmatched `h` filter falls back to the stored channel. -/
def genericTagMatches (key : SingleLetterTag) (values : List String) (ev : StoredEvent) : Bool :=
  let hasMatch := values.any fun value => (tagContents key.toString ev.event.tags).any (· == value)
  if !hasMatch && key.toString == "h" then
    if ev.event.tags.any fun tag => tag.kind == "h" then false
    else match ev.channelId with
      | some channel => values.any (· == channel.toString)
      | none => false
  else hasMatch

def filterMatchOne (f : Filter) (ev : StoredEvent) : Bool :=
  (f.kinds.all (·.contains ev.event.kind)) &&
  (f.authors.all (·.contains ev.event.pubkey)) &&
  (f.since.all fun since => !decide (ev.event.createdAt < since)) &&
  (f.until.all fun latest => !decide (ev.event.createdAt > latest)) &&
  (f.ids.all fun ids => ids.any fun id => id.toHex.toList.isPrefixOf ev.event.id.toHex.toList) &&
  f.genericTags.entries.all fun entry => genericTagMatches entry.1 entry.2 ev

def filtersMatch (filters : List Filter) (ev : StoredEvent) : Bool :=
  filters.any fun f => filterMatchOne f ev

variable {ev : StoredEvent}

theorem filterMatchOne_kind {f : Filter} {kinds : List Kind}
    (matched : filterMatchOne f ev) (present : f.kinds = some kinds) :
    ev.event.kind ∈ kinds := by
  simp only [filterMatchOne, Bool.and_eq_true, present, Option.all_some,
    List.contains_iff_mem] at matched
  exact matched.1.1.1.1.1

theorem filterMatchOne_tag {f : Filter} {key : SingleLetterTag}
    {values : List String} (matched : filterMatchOne f ev)
    (present : f.genericTags.lookup key = some values) (notChannel : key.toString ≠ "h") :
    ∃ value ∈ values, value ∈ tagContents key.toString ev.event.tags := by
  simp only [filterMatchOne, Bool.and_eq_true, List.all_eq_true] at matched
  have entry := matched.2 ⟨key, values⟩ (AList.mem_lookup_iff.mp present)
  simpa [genericTagMatches, notChannel] using entry

end Buzz.Nostr
