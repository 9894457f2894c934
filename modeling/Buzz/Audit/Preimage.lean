import Buzz.Audit.Entry
import Buzz.JsonText

/-! When two entries are hashed from the same bytes. -/

namespace Buzz.Audit

open Nostr Library.UniqueReading List
open String (toList_append toList_ofList)

/-- A Nostr key, a SHA-256 digest, an `i64`. -/
structure AuditEntry.Sized (entry : AuditEntry) : Prop where
  seq : -2 ^ 63 ≤ entry.seq ∧ entry.seq < 2 ^ 63
  actorPubkey : ∀ key, entry.actorPubkey = some key → key.length = 32
  prevHash : ∀ hash, entry.prevHash = some hash → hash.length = 32

/-- None of these texts starts the text of another stamp. -/
def StampText (toRfc3339 : ℤ → String) : Prop :=
  ∀ first second, (toRfc3339 (toStoragePrecision first)).toList <+:
      (toRfc3339 (toStoragePrecision second)).toList →
    toStoragePrecision first = toStoragePrecision second

structure SameFrame (first second : AuditEntry) : Prop where
  communityId : first.communityId = second.communityId
  seq : first.seq = second.seq
  createdAt : toStoragePrecision first.createdAt = toStoragePrecision second.createdAt
  action : first.action = second.action
  actorPubkey : first.actorPubkey = second.actorPubkey

structure Agree (first second : AuditEntry) : Prop extends SameFrame first second where
  objectId : first.objectId = second.objectId
  detail : first.detail = second.detail
  prevHash : first.prevHash = second.prevHash

namespace Externals

variable (externals : Externals)

def detailText (entry : AuditEntry) : String :=
  canonicalJson externals.formatFloat entry.detail.json

structure Moved (first second : AuditEntry) : Prop extends SameFrame first second where
  prevHash : first.prevHash.getD genesisHash = second.prevHash.getD genesisHash
  piece : ∃ object piece, piece ≠ "" ∧ first.objectId = some object ∧
    second.objectId = some (object ++ piece) ∧
    externals.detailText first = piece ++ externals.detailText second

end Externals

structure GenesisTwin (first second : AuditEntry) : Prop extends SameFrame first second where
  objectId : first.objectId = second.objectId
  detail : first.detail = second.detail
  absent : first.prevHash = none
  sentinel : second.prevHash = some genesisHash

namespace Externals

variable (externals : Externals)

def Confused (first second : AuditEntry) : Prop :=
  externals.Moved first second ∨ GenesisTwin first second

end Externals

theorem utf8EncodeChar_code : PrefixCode String.utf8EncodeChar := by
  intro first second before after same
  have read : some first = some second := by
    calc
      some first = ByteArray.utf8DecodeChar?
          ((String.utf8EncodeChar first).toByteArray ++ before.toByteArray) 0 :=
        ByteArray.utf8DecodeChar?_utf8EncodeChar_append.symm
      _ = ByteArray.utf8DecodeChar?
          ((String.utf8EncodeChar second).toByteArray ++ after.toByteArray) 0 := by
        rw [← toByteArray_append, ← toByteArray_append, same]
      _ = some second := ByteArray.utf8DecodeChar?_utf8EncodeChar_append
  exact Option.some.inj read

theorem utf8_append (first second : String) : utf8 (first ++ second) = utf8 first ++ utf8 second := by
  simp [utf8]

theorem utf8_injective {first second : String} (same : utf8 first = utf8 second) :
    first = second :=
  String.toList_inj.mp
    (utf8EncodeChar_code.flatMap_injective (fun _ => String.utf8EncodeChar_ne_nil) same)

theorem utf8_prefix {first second : String} {before after : Bytes}
    (same : utf8 first ++ before = utf8 second ++ after) :
    first.toList <+: second.toList ∨ second.toList <+: first.toList :=
  utf8EncodeChar_code.prefix_of_flatMap same

theorem toByteArray_utf8 (text : String) : (utf8 text).toByteArray = text.toByteArray := by
  rw [utf8, ← String.utf8Encode_toList]
  rfl

theorem utf8_length (text : String) : (utf8 text).length = text.utf8ByteSize := by
  rw [← size_toByteArray, toByteArray_utf8]
  rfl

theorem fromUTF8_utf8 (text : String) : String.fromUTF8? (utf8 text).toByteArray = some text := by
  simp [String.fromUTF8?, toByteArray_utf8, text.isValidUTF8]
  rfl

theorem utf8EncodeChar_ascii {c : Char} (ascii : c.toNat < 128) :
    String.utf8EncodeChar c = [UInt8.ofNat c.toNat] := by
  have small : c.toNat ≤ 127 := Nat.le_of_lt_succ ascii
  simp [String.utf8EncodeChar, small]

theorem mem_utf8_ascii {text : String} (ascii : ∀ c ∈ text.toList, c.toNat < 128) {b : UInt8}
    (member : b ∈ utf8 text) : ∃ c ∈ text.toList, b = UInt8.ofNat c.toNat := by
  rcases mem_flatMap.mp member with ⟨c, inside, encoded⟩
  rw [utf8EncodeChar_ascii (ascii c inside), mem_singleton] at encoded
  exact ⟨c, inside, encoded⟩

theorem notMem_utf8 {text : String} {code : ℕ} (small : code < 128)
    (each : ∀ c ∈ text.toList, c.toNat < 128 ∧ c.toNat ≠ code) : UInt8.ofNat code ∉ utf8 text := by
  intro member
  rcases mem_utf8_ascii (fun c inside => (each c inside).1) member with ⟨c, inside, same⟩
  have codes := congrArg UInt8.toNat same
  simp only [UInt8.toNat_ofNat'] at codes
  have bounds := each c inside
  omega

theorem i64ToBeBytes_length (n : ℤ) : (i64ToBeBytes n).length = 8 := by
  simp [i64ToBeBytes]

theorem eq_of_bytes {count first second : ℕ} (fits : first < 256 ^ count)
    (fits' : second < 256 ^ count)
    (same : ∀ place < count, first / 256 ^ place % 256 = second / 256 ^ place % 256) :
    first = second := by
  induction count generalizing first second with
  | zero => omega
  | succ count ih =>
    have low := same 0 (by omega)
    have high : first / 256 = second / 256 := by
      rw [Nat.pow_succ'] at fits fits'
      apply ih (Nat.div_lt_of_lt_mul fits) (Nat.div_lt_of_lt_mul fits')
      intro place inside
      have further := same (place + 1) (by omega)
      simpa [Nat.pow_succ', Nat.div_div_eq_div_mul] using further
    simp only [Nat.pow_zero, Nat.div_one] at low
    omega

theorem i64ToBeBytes_injective {first second : ℤ} (range : -2 ^ 63 ≤ first ∧ first < 2 ^ 63)
    (range' : -2 ^ 63 ≤ second ∧ second < 2 ^ 63)
    (same : i64ToBeBytes first = i64ToBeBytes second) : first = second := by
  have words : (first % 2 ^ 64).toNat = (second % 2 ^ 64).toNat := by
    apply @eq_of_bytes 8
    · omega
    · omega
    · intro place inside
      have bytes := (map_inj_left.mp same) (7 - place) (mem_range.mpr (by omega))
      have turned : 7 - (7 - place) = place := by omega
      simpa [turned] using congrArg UInt8.toNat bytes
  omega

theorem AuditAction.asStr_prefix :
    ∀ first second : AuditAction, first.asStr.toList <+: second.asStr.toList → first = second := by
  intro first second
  cases first <;> cases second <;> decide

section reading

variable {before after : Bytes}

theorem tagged_reads {first second : Option Bytes} {size : ℕ}
    (sized : ∀ bytes, first = some bytes → bytes.length = size)
    (sized' : ∀ bytes, second = some bytes → bytes.length = size)
    (same : tagged first ++ before = tagged second ++ after) : first = second ∧ before = after := by
  cases first with
  | none =>
    cases second with
    | none => exact ⟨rfl, append_cancel_left same⟩
    | some second => cases same
  | some first =>
    cases second with
    | none => cases same
    | some second =>
      have lengths : first.length = second.length :=
        (sized first rfl).trans (sized' second rfl).symm
      rcases append_inj (List.cons.inj same).2 lengths with ⟨rfl, rests⟩
      exact ⟨rfl, rests⟩

theorem texts_split {object object' detail detail' : String}
    (same : object ++ detail = object' ++ detail') :
    object = object' ∧ detail = detail' ∨
      (∃ piece, piece ≠ "" ∧ object' = object ++ piece ∧ detail = piece ++ detail') ∨
      ∃ piece, piece ≠ "" ∧ object = object' ++ piece ∧ detail' = piece ++ detail := by
  have chars : object.toList ++ detail.toList = object'.toList ++ detail'.toList := by
    rw [← toList_append, same, toList_append]
  have text {whole left : String} {piece : List Char}
      (shape : whole.toList = left.toList ++ piece) : whole = left ++ String.ofList piece := by
    apply String.toList_inj.mp
    simp [shape]
  have filled {piece : List Char} (filled : piece ≠ []) : String.ofList piece ≠ "" := by
    intro empty
    exact filled (by simpa using congrArg String.toList empty)
  have rest {whole right : String} {piece : List Char}
      (shape : whole.toList = piece ++ right.toList) : whole = String.ofList piece ++ right := by
    apply String.toList_inj.mp
    simp [shape]
  rcases append_eq_append_iff.mp chars with ⟨piece, left, right⟩ | ⟨piece, left, right⟩
  · by_cases nothing : piece = []
    · rw [nothing, append_nil] at left
      rw [nothing, nil_append] at right
      exact .inl ⟨String.toList_inj.mp left.symm, String.toList_inj.mp right⟩
    · exact .inr (.inl ⟨String.ofList piece, filled nothing, text left, rest right⟩)
  · by_cases nothing : piece = []
    · rw [nothing, append_nil] at left
      rw [nothing, nil_append] at right
      exact .inl ⟨String.toList_inj.mp left, String.toList_inj.mp right.symm⟩
    · exact .inr (.inr ⟨String.ofList piece, filled nothing, text left, rest right⟩)

end reading

section preimage

variable {externals : Externals} {first second : AuditEntry}

def Externals.tail (externals : Externals) (entry : AuditEntry) : Bytes :=
  tagged (entry.objectId.map utf8) ++
    (utf8 (externals.detailText entry) ++ entry.prevHash.getD genesisHash)

theorem preimage_eq (entry : AuditEntry) :
    externals.preimage entry = entry.communityId.val ++ (i64ToBeBytes entry.seq ++
      (utf8 (externals.toRfc3339 (toStoragePrecision entry.createdAt)) ++
        (utf8 entry.action.asStr ++ (tagged entry.actorPubkey ++ externals.tail entry)))) := by
  simp [Externals.preimage, Externals.tail, Externals.detailText]

theorem stamp_reads (stamps : StampText externals.toRfc3339) {first second : ℤ}
    {before after : Bytes}
    (same : utf8 (externals.toRfc3339 (toStoragePrecision first)) ++ before =
      utf8 (externals.toRfc3339 (toStoragePrecision second)) ++ after) :
    toStoragePrecision first = toStoragePrecision second ∧ before = after := by
  have stamp : toStoragePrecision first = toStoragePrecision second := by
    rcases utf8_prefix same with left | right
    · exact stamps first second left
    · exact (stamps second first right).symm
  rw [stamp] at same
  exact ⟨stamp, append_cancel_left same⟩

theorem action_reads {first second : AuditAction} {before after : Bytes}
    (same : utf8 first.asStr ++ before = utf8 second.asStr ++ after) :
    first = second ∧ before = after := by
  have action : first = second := by
    rcases utf8_prefix same with left | right
    · exact AuditAction.asStr_prefix first second left
    · exact (AuditAction.asStr_prefix second first right).symm
  rw [action] at same
  exact ⟨action, append_cancel_left same⟩

theorem frame_reads (stamps : StampText externals.toRfc3339) (sized : first.Sized)
    (sized' : second.Sized) (same : externals.preimage first = externals.preimage second) :
    SameFrame first second ∧ externals.tail first = externals.tail second := by
  rw [preimage_eq, preimage_eq] at same
  have communityLengths : first.communityId.val.length = second.communityId.val.length :=
    first.communityId.property.trans second.communityId.property.symm
  rcases append_inj same communityLengths with ⟨community, fromSeq⟩
  have seqLengths : (i64ToBeBytes first.seq).length = (i64ToBeBytes second.seq).length := by
    rw [i64ToBeBytes_length, i64ToBeBytes_length]
  rcases append_inj fromSeq seqLengths with ⟨seq, fromStamp⟩
  rcases stamp_reads stamps fromStamp with ⟨stamp, fromAction⟩
  rcases action_reads fromAction with ⟨action, fromActor⟩
  rcases tagged_reads sized.actorPubkey sized'.actorPubkey fromActor with ⟨actor, tails⟩
  exact ⟨⟨Subtype.ext community, i64ToBeBytes_injective sized.seq sized'.seq seq, stamp, action,
    actor⟩, tails⟩

theorem AuditEntry.Sized.prevHash_length {entry : AuditEntry} (sized : entry.Sized) :
    (entry.prevHash.getD genesisHash).length = 32 := by
  cases prev : entry.prevHash with
  | none => rfl
  | some hash => exact sized.prevHash hash prev

theorem tail_reads (sized : first.Sized) (sized' : second.Sized)
    (same : externals.tail first = externals.tail second) :
    first.prevHash.getD genesisHash = second.prevHash.getD genesisHash ∧
      (first.objectId = none ∧ second.objectId = none ∧
          externals.detailText first = externals.detailText second ∨
        ∃ object object', first.objectId = some object ∧ second.objectId = some object' ∧
          object ++ externals.detailText first = object' ++ externals.detailText second) := by
  have hashes := sized.prevHash_length.trans sized'.prevHash_length.symm
  unfold Externals.tail at same
  cases object : first.objectId with
  | none =>
    cases object' : second.objectId with
    | none =>
      rw [object, object'] at same
      rcases append_inj' (append_cancel_left same) hashes with ⟨texts, prev⟩
      exact ⟨prev, .inl ⟨rfl, rfl, utf8_injective texts⟩⟩
    | some text' =>
      rw [object, object'] at same
      cases same
  | some text =>
    cases object' : second.objectId with
    | none =>
      rw [object, object'] at same
      cases same
    | some text' =>
      rw [object, object'] at same
      have texts : utf8 text ++ (utf8 (externals.detailText first) ++
          first.prevHash.getD genesisHash) = utf8 text' ++
          (utf8 (externals.detailText second) ++ second.prevHash.getD genesisHash) :=
        (List.cons.inj same).2
      rw [← append_assoc, ← append_assoc] at texts
      rcases append_inj' texts hashes with ⟨joined, prev⟩
      refine ⟨prev, .inr ⟨text, text', rfl, rfl, utf8_injective ?_⟩⟩
      rw [utf8_append, utf8_append]
      exact joined

theorem prevHash_reads (prev : first.prevHash.getD genesisHash = second.prevHash.getD genesisHash) :
    first.prevHash = second.prevHash ∨
      first.prevHash = none ∧ second.prevHash = some genesisHash ∨
      second.prevHash = none ∧ first.prevHash = some genesisHash := by
  cases hash : first.prevHash with
  | none =>
    cases hash' : second.prevHash with
    | none => exact .inl rfl
    | some bytes' =>
      rw [hash, hash'] at prev
      exact .inr (.inl ⟨rfl, congrArg some prev.symm⟩)
  | some bytes =>
    cases hash' : second.prevHash with
    | none =>
      rw [hash, hash'] at prev
      exact .inr (.inr ⟨rfl, congrArg some prev⟩)
    | some bytes' =>
      rw [hash, hash'] at prev
      exact .inl (congrArg some prev)

theorem SameFrame.symm (frame : SameFrame first second) : SameFrame second first :=
  ⟨frame.communityId.symm, frame.seq.symm, frame.createdAt.symm, frame.action.symm,
    frame.actorPubkey.symm⟩

theorem agree_or_confused (frame : SameFrame first second)
    (object : first.objectId = second.objectId) (detail : first.detail = second.detail)
    (prev : first.prevHash.getD genesisHash = second.prevHash.getD genesisHash) :
    Agree first second ∨ externals.Confused first second ∨ externals.Confused second first := by
  rcases prevHash_reads prev with same | ⟨absent, sentinel⟩ | ⟨absent, sentinel⟩
  · exact .inl ⟨frame, object, detail, same⟩
  · exact .inr (.inl (.inr ⟨frame, object, detail, absent, sentinel⟩))
  · exact .inr (.inr (.inr ⟨frame.symm, object.symm, detail.symm, absent, sentinel⟩))

theorem preimage_cases (printed : FloatText externals.formatFloat)
    (stamps : StampText externals.toRfc3339) (sized : first.Sized) (sized' : second.Sized)
    (same : externals.preimage first = externals.preimage second) :
    Agree first second ∨ externals.Confused first second ∨ externals.Confused second first := by
  rcases frame_reads stamps sized sized' same with ⟨frame, tails⟩
  rcases tail_reads sized sized' tails with ⟨prev, ⟨absent, absent', texts⟩ | split⟩
  · have detail := canonicalJson_injective printed texts
    exact agree_or_confused frame (absent.trans absent'.symm) detail prev
  · rcases split with ⟨object, object', present, present', joined⟩
    rcases texts_split joined with ⟨objects, texts⟩ | ⟨piece, filled, continued, taken⟩ |
      ⟨piece, filled, continued, taken⟩
    · rw [← objects] at present'
      have detail := canonicalJson_injective printed texts
      exact agree_or_confused frame (present.trans present'.symm) detail prev
    · rw [continued] at present'
      exact .inr (.inl (.inl ⟨frame, prev, object, piece, filled, present, present', taken⟩))
    · rw [continued] at present
      exact .inr (.inr (.inl ⟨frame.symm, prev.symm, object', piece, filled, present',
        present, taken⟩))

theorem preimage_eq_of_frame (frame : SameFrame first second)
    (tails : externals.tail first = externals.tail second) :
    externals.preimage first = externals.preimage second := by
  rw [preimage_eq, preimage_eq, frame.communityId, frame.seq, frame.createdAt, frame.action,
    frame.actorPubkey, tails]

theorem confused_preimage (confused : externals.Confused first second) :
    externals.preimage first = externals.preimage second := by
  rcases confused with moved | twin
  · apply preimage_eq_of_frame moved.toSameFrame
    rcases moved.piece with ⟨object, piece, -, present, present', taken⟩
    unfold Externals.tail
    rw [present, present', taken, moved.prevHash]
    simp [tagged, utf8_append]
  · apply preimage_eq_of_frame twin.toSameFrame
    unfold Externals.tail Externals.detailText
    rw [twin.objectId, twin.detail, twin.absent, twin.sentinel]
    rfl

theorem confused_disagree (confused : externals.Confused first second) :
    ¬ Agree first second ∧ ¬ Agree second first := by
  have objects {object piece : String} (filled : piece ≠ "") : object ++ piece ≠ object := by
    intro same
    apply filled
    have chars := congrArg String.toList same
    rw [toList_append] at chars
    exact String.toList_inj.mp (append_right_eq_self.mp chars)
  rcases confused with moved | twin
  · rcases moved.piece with ⟨object, piece, filled, present, present', -⟩
    constructor
    · intro agree
      have same := agree.objectId
      rw [present, present', Option.some.injEq] at same
      exact objects filled same.symm
    · intro agree
      have same := agree.objectId
      rw [present, present', Option.some.injEq] at same
      exact objects filled same
  · constructor
    · intro agree
      have same := agree.prevHash
      rw [twin.absent, twin.sentinel] at same
      cases same
    · intro agree
      have same := agree.prevHash
      rw [twin.absent, twin.sentinel] at same
      cases same

end preimage

theorem preimage_injective_iff (externals : Externals) (printed : FloatText externals.formatFloat)
    (stamps : StampText externals.toRfc3339) (first second : AuditEntry) (sized : first.Sized)
    (sized' : second.Sized) :
    (externals.preimage first = externals.preimage second → Agree first second) ↔
      ¬ externals.Confused first second ∧ ¬ externals.Confused second first := by
  constructor
  · intro determined
    constructor
    · intro confused
      exact (confused_disagree confused).1 (determined (confused_preimage confused))
    · intro confused
      exact (confused_disagree confused).2 (determined (confused_preimage confused).symm)
  · rintro ⟨apart, apart'⟩ same
    rcases preimage_cases printed stamps sized sized' same with agree | confused | confused
    · exact agree
    · exact absurd confused apart
    · exact absurd confused apart'

def signed (negative : Bool) (value : ℕ) : List Char :=
  if negative then '-' :: value.repr.toList else value.repr.toList

theorem signed_chars (negative : Bool) (value : ℕ) :
    ∀ c ∈ signed negative value, c = '-' ∨ c.isDigit := by
  intro c member
  cases negative with
  | false => exact .inr (repr_chars value c member)
  | true =>
    rcases mem_cons.mp member with sign | digit
    · exact .inl sign
    · exact .inr (repr_chars value c digit)

theorem signed_injective {negative negative' : Bool} {value value' : ℕ}
    (same : signed negative value = signed negative' value') :
    negative = negative' ∧ value = value' := by
  have unsigned (value value' : ℕ) : value.repr.toList ≠ '-' :: value'.repr.toList := by
    intro equal
    have sign : '-' ∈ value.repr.toList := by
      rw [equal]
      exact mem_cons_self
    have digit := repr_chars value '-' sign
    cases digit
  cases negative <;> cases negative'
  · exact ⟨rfl, repr_injective same⟩
  · exact absurd same (unsigned value value')
  · exact absurd same.symm (unsigned value' value)
  · exact ⟨rfl, repr_injective (List.cons.inj same).2⟩

def plainFloat (value : F64) : String :=
  String.ofList (signed value.negative value.digits ++
    'e' :: signed (value.exponent < 0) value.exponent.natAbs)

theorem plain_floats : FloatText plainFloat where
  injective := by
    intro first second same
    have chars := congrArg String.toList same
    simp only [plainFloat, toList_ofList] at chars
    have outside (negative : Bool) (value : ℕ) : 'e' ∉ signed negative value := by
      intro member
      rcases signed_chars negative value 'e' member with sign | digit
      · cases sign
      · cases digit
    rcases (append_cons_inj_of_notMem (outside _ _) (outside _ _)).mp chars with
      ⟨significand, -, exponent⟩
    rcases signed_injective significand with ⟨negative, digits⟩
    rcases signed_injective exponent with ⟨sign, size⟩
    have exponents : first.exponent = second.exponent := by
      rw [decide_eq_decide] at sign
      omega
    cases first
    cases second
    simp_all
  characters := by
    intro value c member
    have part (negative : Bool) (value : ℕ) (inside : c ∈ signed negative value) :
        numberChar c := by
      rcases signed_chars negative value c inside with rfl | digit
      · decide
      · simp [numberChar, digit]
    simp only [plainFloat, toList_ofList] at member
    rcases mem_append.mp member with significand | rest
    · exact part _ _ significand
    · rcases mem_cons.mp rest with rfl | exponent
      · decide
      · exact part _ _ exponent
  fractional := by
    intro value
    exact ⟨'e', by simp [plainFloat], .inr rfl⟩

def plainRfc3339 (stamp : ℤ) : String :=
  if stamp = 0 then "1970-01-01T00:00:00+00:00"
  else String.ofList ((if 0 ≤ stamp then '+' else '-') :: replicate stamp.natAbs 'n' ++ ['Z'])

theorem plain_stamps : StampText plainRfc3339 := by
  intro first second starts
  generalize toStoragePrecision first = left at starts ⊢
  generalize toStoragePrecision second = right at starts ⊢
  have epoch (stamp : ℤ) : (if 0 ≤ stamp then '+' else '-') ≠ '1' := by
    split
    · decide
    · decide
  unfold plainRfc3339 at starts
  by_cases zero : left = 0 <;> by_cases zero' : right = 0
  · rw [zero, zero']
  · rw [if_pos zero, if_neg zero', toList_ofList, toList_ofList] at starts
    exact absurd (cons_prefix_cons.mp starts).1.symm (epoch right)
  · rw [if_neg zero, if_pos zero', toList_ofList] at starts
    exact absurd (cons_prefix_cons.mp starts).1 (epoch left)
  · rw [if_neg zero, if_neg zero', toList_ofList, toList_ofList, cons_append,
      cons_append] at starts
    rcases cons_prefix_cons.mp starts with ⟨sign, rest, whole⟩
    have outside : 'Z' ∉ replicate right.natAbs 'n' := by
      intro member
      cases eq_of_mem_replicate member
    rw [append_assoc] at whole
    rcases (append_cons_inj_of_notMem outside not_mem_nil).mp whole.symm with ⟨size, -⟩
    have lengths := congrArg List.length size
    rw [length_replicate, length_replicate] at lengths
    split at sign <;> split at sign
    · omega
    · cases sign
    · cases sign
    · omega

def plainExternals : Externals where
  sha256 := fun _ => ⟨genesisHash, rfl⟩
  toRfc3339 := plainRfc3339
  formatFloat := plainFloat
  readFloat := fun _ => .zero

def shifted (object : String) (detail : ℕ) (fits : detail < 2 ^ 64) : AuditEntry where
  communityId := ⟨[0, 0, 0, 0, 0, 0, 0, 0, 0, 0, 0, 0, 0, 0, 0, 1], rfl⟩
  seq := 1
  hash := []
  prevHash := none
  action := .eventCreated
  actorPubkey := some (replicate 32 2)
  objectId := some object
  detail := ⟨.number (.posInt detail fits), trivial⟩
  createdAt := 0

theorem shifted_sized (object : String) (detail : ℕ) (fits : detail < 2 ^ 64) :
    (shifted object detail fits).Sized where
  seq := by
    simp [shifted]
  actorPubkey := by
    intro key present
    cases present
    rfl
  prevHash := by
    intro hash present
    cases present

theorem preimage_injective_iff_shifted :
    (plainExternals.preimage (shifted "x" 12 (by decide)) =
        plainExternals.preimage (shifted "y" 12 (by decide)) →
      Agree (shifted "x" 12 (by decide)) (shifted "y" 12 (by decide))) ↔
    ¬ plainExternals.Confused (shifted "x" 12 (by decide)) (shifted "y" 12 (by decide)) ∧
      ¬ plainExternals.Confused (shifted "y" 12 (by decide)) (shifted "x" 12 (by decide)) :=
  preimage_injective_iff plainExternals plain_floats plain_stamps _ _ (shifted_sized _ _ _)
    (shifted_sized _ _ _)

/-- The object id of one entry takes the first digit of the other's detail. -/
theorem shifted_shares_preimage :
    ¬ (plainExternals.preimage (shifted "x" 12 (by decide)) =
        plainExternals.preimage (shifted "x1" 2 (by decide)) →
      Agree (shifted "x" 12 (by decide)) (shifted "x1" 2 (by decide))) := by
  intro determined
  have agree := determined (by decide +kernel)
  have objects := agree.objectId
  exact absurd objects (by decide)

end Buzz.Audit
