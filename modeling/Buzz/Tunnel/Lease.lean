import Buzz.Nostr.Event

/-! Lease records of tunnel sessions: the text that Lua writes and both sides parse. -/

namespace Buzz.Tunnel

open Nostr List

abbrev RuntimeId := FixedBytes 32

inductive Profile
  | reliableStream
  | realtimeMedia
  | huddleControl
  deriving DecidableEq

namespace Profile

def asWireStr : Profile → String
  | .reliableStream => "reliable-stream"
  | .realtimeMedia => "realtime-media"
  | .huddleControl => "huddle-control"

def fromWire (value : String) : Option Profile :=
  if value = "reliable-stream" then some .reliableStream
  else if value = "realtime-media" then some .realtimeMedia
  else if value = "huddle-control" then some .huddleControl
  else none

theorem fromWire_asWireStr (profile : Profile) : fromWire profile.asWireStr = some profile := by
  cases profile <;> decide

theorem asWireStr_plain (profile : Profile) : '|' ∉ profile.asWireStr.toList := by
  cases profile <;> decide

end Profile

structure SessionLease where
  communityId : CommunityId
  sessionId : Uuid
  ownerRuntimeId : RuntimeId
  generation : ℕ
  profile : Profile
  deriving DecidableEq

structure FencedHeader where
  sessionId : Uuid
  generation : ℕ
  ownerRuntimeId : RuntimeId
  deriving DecidableEq

def SessionLease.fencedHeader (self : SessionLease) : FencedHeader :=
  ⟨self.sessionId, self.generation, self.ownerRuntimeId⟩

/-- `expectFailed` is the panic of an `expect`. -/
inductive DirectoryError
  | redis
  | malformedLease (communityId : CommunityId) (sessionId : Uuid) (value : String)
  | malformedGeneration (communityId : CommunityId) (sessionId : Uuid) (value : String)
  | unexpectedScriptStatus (status : String)
  | invalidLeaseTtl
  | expectFailed (message : String)
  deriving DecidableEq

/-- Beyond fourteen significant digits in exponent form. -/
structure LuaPrinter where
  large : ℕ → String
  exponent : ∀ n, 'e' ∈ (large n).toList
  plain : ∀ n, '|' ∉ (large n).toList

instance : Inhabited LuaPrinter :=
  ⟨⟨fun _ => "1e+14", fun _ => by decide, fun _ => by decide⟩⟩

/-- `tostring` of an integral Lua number. -/
def LuaPrinter.toString (lua : LuaPrinter) (n : ℕ) : String :=
  if n < 10 ^ 14 then Nat.repr n else lua.large n

/-- `str::parse::<u64>`. -/
def parseU64 (text : String) : Option ℕ :=
  let digits := match text.toList with
    | '+' :: rest => rest
    | all => all
  if digits.isEmpty || !digits.all Char.isDigit then none
  else
    let value := Nat.ofDigitChars 10 digits 0
    if value < 2 ^ 64 then some value else none

theorem repr_digits (n : ℕ) {c : Char} (member : c ∈ (Nat.repr n).toList) : c.isDigit := by
  rw [Nat.toList_repr] at member
  exact Nat.isDigit_of_mem_toDigits (by decide) (by decide) member

theorem parseU64_repr {n : ℕ} (fits : n < 2 ^ 64) : parseU64 (Nat.repr n) = some n := by
  have digits : ∀ c ∈ Nat.toDigits 10 n, c.isDigit := by
    intro c member
    exact Nat.isDigit_of_mem_toDigits (by decide) (by decide) member
  have unsigned : (match (Nat.repr n).toList with
      | '+' :: rest => rest
      | all => all) = Nat.toDigits 10 n := by
    rw [Nat.toList_repr]
    split
    next rest shape =>
      have sign := digits '+' (by rw [shape]; exact mem_cons_self)
      exact absurd sign (by decide)
    · rfl
  unfold parseU64
  simp only [unsigned, Nat.ofDigitChars_ten_toDigits, fits, if_true]
  rw [if_neg]
  simp only [Bool.or_eq_true, List.isEmpty_iff, Bool.not_eq_true', not_or, Bool.not_eq_false]
  exact ⟨Nat.toDigits_ne_nil, all_eq_true.mpr digits⟩

theorem parseU64_exponent {text : String} (exponent : 'e' ∈ text.toList) :
    parseU64 text = none := by
  have kept : 'e' ∈ (match text.toList with
      | '+' :: rest => rest
      | all => all) := by
    split
    next rest shape =>
      rw [shape] at exponent
      rcases mem_cons.mp exponent with sign | later
      · exact absurd sign (by decide)
      · exact later
    · exact exponent
  unfold parseU64
  simp only
  rw [if_pos]
  rw [Bool.or_eq_true, Bool.not_eq_true', all_eq_false]
  exact Or.inr ⟨'e', kept, by decide⟩

/-- Splitting at `|`, as `str::split` does. -/
def splitBar (value : String) : List String := (value.toList.splitOn '|').map String.ofList

def hexRuntimeId (text : String) : Option RuntimeId :=
  (hexDecode text.toList).bind fun bytes =>
    if size : bytes.length = 32 then some ⟨bytes, size⟩ else none

def parseLease (communityId : CommunityId) (sessionId : Uuid) (value : String) :
    Except DirectoryError SessionLease :=
  let malformed := Except.error (.malformedLease communityId sessionId value)
  match splitBar value with
  | [ownerHex, generationText, profileText] =>
    match parseU64 generationText with
    | none => malformed
    | some generation =>
      if generation = 0 then malformed
      else match Profile.fromWire profileText, hexRuntimeId ownerHex with
        | some profile, some ownerRuntimeId =>
          .ok ⟨communityId, sessionId, ownerRuntimeId, generation, profile⟩
        | _, _ => malformed
  | _ => malformed

def parseOptionalLease (communityId : CommunityId) (sessionId : Uuid) (value : String) :
    Except DirectoryError (Option SessionLease) :=
  if value.isEmpty then .ok none else (parseLease communityId sessionId value).map some

def parseOptionalGeneration (communityId : CommunityId) (sessionId : Uuid) (value : String) :
    Except DirectoryError (Option ℕ) :=
  let malformed := Except.error (.malformedGeneration communityId sessionId value)
  if value.isEmpty then .ok none
  else match parseU64 value with
    | none => malformed
    | some generation => if generation = 0 then malformed else .ok (some generation)

/-- The Lua pattern `^([^|]+)|([^|]+)|([^|]+)$`. -/
def luaMatch (value : String) : Option (String × String × String) :=
  match splitBar value with
  | [owner, generation, profile] =>
    if owner.isEmpty || generation.isEmpty || profile.isEmpty then none
    else some (owner, generation, profile)
  | _ => none

/-- `owner .. '|' .. tostring(generation) .. '|' .. profile`. -/
def leaseText (owner generation profile : String) : String :=
  owner ++ "|" ++ generation ++ "|" ++ profile

theorem splitBar_leaseText {owner generation profile : String} (ownerPlain : '|' ∉ owner.toList)
    (generationPlain : '|' ∉ generation.toList) (profilePlain : '|' ∉ profile.toList) :
    splitBar (leaseText owner generation profile) = [owner, generation, profile] := by
  have chars : (leaseText owner generation profile).toList =
      owner.toList ++ '|' :: (generation.toList ++ '|' :: profile.toList) := by
    simp [leaseText, String.toList_append]
  unfold splitBar
  rw [chars, splitOn_append_cons_self_of_not_mem ownerPlain,
    splitOn_append_cons_self_of_not_mem generationPlain, splitOn_eq_singleton profilePlain]
  simp

theorem toHex_plain (owner : RuntimeId) : '|' ∉ owner.toHex.toList := by
  have digits : ∀ n < 16, hexDigit n ≠ '|' := by decide
  rw [FixedBytes.toHex, String.toList_ofList, hexEncode, mem_flatMap]
  intro present
  obtain ⟨byte, -, member⟩ := present
  have bound := byte.toNat_lt
  simp only [hexByte, mem_cons, not_mem_nil, or_false] at member
  rcases member with high | low
  · exact digits _ (by omega) high.symm
  · exact digits _ (by omega) low.symm

theorem repr_plain (n : ℕ) : '|' ∉ (Nat.repr n).toList := by
  intro member
  exact absurd (repr_digits n member) (by decide)

theorem LuaPrinter.toString_plain (lua : LuaPrinter) (n : ℕ) : '|' ∉ (lua.toString n).toList := by
  unfold LuaPrinter.toString
  split
  · exact repr_plain n
  · exact lua.plain n

theorem hexRuntimeId_toHex (owner : RuntimeId) : hexRuntimeId owner.toHex = some owner := by
  unfold hexRuntimeId FixedBytes.toHex
  rw [String.toList_ofList, hexDecode_hexEncode, Option.bind_some, dif_pos owner.property]

def writtenLease (lua : LuaPrinter) (owner : RuntimeId) (generation : ℕ) (profile : Profile) :
    String :=
  leaseText owner.toHex (lua.toString generation) profile.asWireStr

theorem splitBar_writtenLease (lua : LuaPrinter) (owner : RuntimeId) (generation : ℕ)
    (profile : Profile) :
    splitBar (writtenLease lua owner generation profile) =
      [owner.toHex, lua.toString generation, profile.asWireStr] :=
  splitBar_leaseText (toHex_plain owner) (lua.toString_plain generation) profile.asWireStr_plain

/-- Generations that Lua does not print in full do not parse at all. -/
theorem parseLease_written (lua : LuaPrinter) (communityId : CommunityId) (sessionId : Uuid)
    (owner : RuntimeId) {generation : ℕ} (positive : 0 < generation) (profile : Profile) :
    parseLease communityId sessionId (writtenLease lua owner generation profile) =
      if generation < 10 ^ 14 then .ok ⟨communityId, sessionId, owner, generation, profile⟩
      else .error (.malformedLease communityId sessionId
        (writtenLease lua owner generation profile)) := by
  unfold parseLease
  rw [splitBar_writtenLease]
  by_cases small : generation < 10 ^ 14
  · have parsed : parseU64 (lua.toString generation) = some generation := by
      rw [LuaPrinter.toString, if_pos small]
      exact parseU64_repr (by omega)
    have nonzero : generation ≠ 0 := by omega
    simp only [parsed, nonzero, if_false, Profile.fromWire_asWireStr, hexRuntimeId_toHex, small,
      if_true]
  · have unparsed : parseU64 (lua.toString generation) = none := by
      rw [LuaPrinter.toString, if_neg small]
      exact parseU64_exponent (lua.exponent generation)
    simp only [unparsed, small, if_false]

end Buzz.Tunnel
