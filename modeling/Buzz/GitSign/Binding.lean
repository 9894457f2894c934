import Buzz.GitSign.Envelope
import Buzz.Audit.Preimage

/-! When two signed objects are hashed from the same bytes: no length and no mark says whether an
attestation stands before the payload. -/

namespace Buzz.GitSign

open Nostr Library.Results List Option
open Buzz.Library.UniqueReading (read_to)
open Buzz.Audit (utf8 utf8_append utf8_injective utf8_prefix)
open Json (asStr field)

structure SignedObject where
  timestamp : ℕ
  oa : Option OwnerAttestation
  payload : Bytes
  deriving DecidableEq

namespace SignedObject

variable (self : SignedObject)

def preimage : Bytes := signingPreimage self.timestamp self.oa self.payload

/-- `parse_envelope` accepts an envelope with the attestation, or without one. -/
def Accepted (externals : Externals) : Prop :=
  ∃ parsed envelope, parseEnvelope externals parsed = .ok envelope ∧ envelope.oa = self.oa

structure Swallowed (object other : SignedObject) : Prop where
  timestamp : object.timestamp = other.timestamp
  absent : other.oa = none
  present : ∃ oa, object.oa = some oa ∧ other.payload = utf8 (oaBinding oa) ++ object.payload

end SignedObject

section fields

theorem isLowerHexDigit_colon : isLowerHexDigit ':' = false := by decide

theorem validateHexField_ok {val : String} {expectedLen : ℕ} {name : String} {value : Unit}
    (ok : validateHexField val expectedLen name = .ok value) : ':' ∉ val.toList := by
  obtain ⟨_, -, ok⟩ := bind_ok ok
  rw [require_ok] at ok
  intro member
  have digit := all_eq_true.mp ok ':' member
  rw [isLowerHexDigit_colon] at digit
  cases digit

variable {text : List Char}

theorem parseDecimalU32_digits {value : ℕ} (parsed : parseDecimalU32 text = some value) : ':' ∉ text := by
  unfold parseDecimalU32 at parsed
  split at parsed
  · cases parsed
  · split at parsed
    · cases parsed
    · split at parsed
      · cases parsed
      · split at parsed
        next digits =>
          intro member
          exact absurd (all_eq_true.mp digits ':' member) (by decide)
        · cases parsed

variable {clause : List Char}

theorem dropped_colon {value keyword : List Char} (dropped : clause.dropPrefix? keyword = some value)
    (outside : ':' ∉ keyword) (digits : ':' ∉ value) : ':' ∉ clause := by
  obtain ⟨start, rfl, same⟩ := dropPrefix?_eq_some_iff.mp dropped
  rw [mem_append, eq_of_beq same]
  exact not_or.mpr ⟨outside, digits⟩

theorem validClause_colon (valid : validClause clause) :
    ':' ∉ clause := by
  unfold validClause at valid
  split at valid
  · cases valid
  · split at valid
    next value dropped =>
      obtain ⟨n, parsed, -⟩ := any_eq_true _ _ |>.mp valid
      exact dropped_colon dropped (by decide) (parseDecimalU32_digits parsed)
    · split at valid
      next value dropped =>
        obtain ⟨n, parsed⟩ := isSome_iff_exists.mp valid
        exact dropped_colon dropped (by decide) (parseDecimalU32_digits parsed)
      · split at valid
        next value dropped =>
          obtain ⟨n, parsed⟩ := isSome_iff_exists.mp valid
          exact dropped_colon dropped (by decide) (parseDecimalU32_digits parsed)
        · cases valid

theorem mem_splitOn {sep c : Char} (member : c ∈ text) (different : c ≠ sep) :
    ∃ clause ∈ text.splitOn sep, c ∈ clause := by
  induction text with
  | nil => cases member
  | cons head tail ih =>
    rw [splitOn_cons_eq_if_modifyHead]
    split
    next isSep =>
      rcases mem_cons.mp member with rfl | later
      · exact absurd (eq_of_beq isSep) different
      · obtain ⟨clause, isClause, inside⟩ := ih later
        exact ⟨clause, mem_cons_of_mem _ isClause, inside⟩
    · cases parts : tail.splitOn sep with
      | nil => exact absurd parts (splitOn_ne_nil _ _)
      | cons first rest =>
        rw [modifyHead_cons]
        rcases mem_cons.mp member with rfl | later
        · exact ⟨_, mem_cons_self, mem_cons_self⟩
        · obtain ⟨clause, isClause, inside⟩ := ih later
          rw [parts] at isClause
          rcases mem_cons.mp isClause with rfl | further
          · exact ⟨_, mem_cons_self, mem_cons_of_mem _ inside⟩
          · exact ⟨clause, mem_cons_of_mem _ further, inside⟩

theorem validateConditions_colon {conditions : String}
    (valid : validateConditions conditions) : ':' ∉ conditions.toList := by
  unfold validateConditions at valid
  split at valid
  next isEmpty =>
    rw [isEmpty]
    decide
  · intro member
    obtain ⟨clause, isClause, inside⟩ := mem_splitOn member (show ':' ≠ '&' by decide)
    exact validClause_colon (all_eq_true.mp valid clause isClause) inside

structure OwnerAttestation.Plain (oa : OwnerAttestation) : Prop where
  owner : ':' ∉ oa.owner.toList
  conditions : ':' ∉ oa.conditions.toList
  ownerSig : ':' ∉ oa.ownerSig.toList

variable {externals : Externals}

theorem parseOa_plain {pk : String} {value : Json Number} {oa : OwnerAttestation}
    (ok : parseOa externals pk value = .ok oa) : oa.Plain := by
  obtain ⟨arr, -, ok⟩ := bind_ok ok
  obtain ⟨_, -, ok⟩ := bind_ok ok
  obtain ⟨owner, -, ok⟩ := bind_ok ok
  obtain ⟨conditions, -, ok⟩ := bind_ok ok
  obtain ⟨ownerSig, -, ok⟩ := bind_ok ok
  obtain ⟨_, ownerHex, ok⟩ := bind_ok ok
  obtain ⟨_, sigHex, ok⟩ := bind_ok ok
  obtain ⟨_, valid, ok⟩ := bind_ok ok
  obtain ⟨_, -, ok⟩ := bind_ok ok
  obtain ⟨_, -, ok⟩ := bind_ok ok
  cases ok
  exact ⟨validateHexField_ok ownerHex, validateConditions_colon (require_ok.mp valid),
    validateHexField_ok sigHex⟩

theorem parseEnvelope_plain {parsed : Result (Json Number)} {envelope : Envelope}
    (ok : parseEnvelope externals parsed = .ok envelope) :
    ∀ oa, envelope.oa = some oa → oa.Plain := by
  obtain ⟨val, -, ok⟩ := bind_ok ok
  obtain ⟨obj, -, ok⟩ := bind_ok ok
  obtain ⟨_, -, ok⟩ := bind_ok ok
  obtain ⟨version, -, ok⟩ := bind_ok ok
  obtain ⟨v, -, ok⟩ := bind_ok ok
  obtain ⟨_, -, ok⟩ := bind_ok ok
  obtain ⟨pk, -, ok⟩ := bind_ok ok
  obtain ⟨_, -, ok⟩ := bind_ok ok
  obtain ⟨sig, -, ok⟩ := bind_ok ok
  obtain ⟨_, -, ok⟩ := bind_ok ok
  obtain ⟨stamp, -, ok⟩ := bind_ok ok
  obtain ⟨_, -, ok⟩ := bind_ok ok
  obtain ⟨t, -, ok⟩ := bind_ok ok
  obtain ⟨_, -, ok⟩ := bind_ok ok
  intro oa isOa
  split at ok
  · cases ok
    cases isOa
  · obtain ⟨parsedOa, isParsed, ok⟩ := bind_ok ok
    cases ok
    cases isOa
    exact parseOa_plain isParsed

end fields

section headers

variable {first second : SignedObject} {oa other : OwnerAttestation} {rest : List Char}

def bindingChars (oa : Option OwnerAttestation) : List Char := ((oa.map oaBinding).getD "").toList

theorem bindingChars_some : bindingChars (some oa) = oa.owner.toList ++ ':' ::
    (oa.conditions.toList ++ ':' :: (oa.ownerSig.toList ++ [':'])) := by
  simp [bindingChars, oaBinding]

theorem signingHeader_toList (timestamp : ℕ) (oa : Option OwnerAttestation) :
    (signingHeader timestamp oa).toList =
      domainSeparator.toList ++ (timestamp.repr.toList ++ ':' :: bindingChars oa) := by
  simp [signingHeader, bindingChars, toString]

theorem repr_colon (value : ℕ) : ':' ∉ value.repr.toList := by
  intro member
  exact absurd (repr_chars value ':' member) (by decide)

theorem header_reads {timestamp timestamp' : ℕ} {oa oa' : Option OwnerAttestation}
    (same : (signingHeader timestamp' oa').toList = (signingHeader timestamp oa).toList ++ rest) :
    timestamp = timestamp' ∧ bindingChars oa' = bindingChars oa ++ rest := by
  rw [signingHeader_toList, signingHeader_toList, append_assoc, append_assoc,
    cons_append] at same
  have tails := append_cancel_left same
  obtain ⟨stamps, bindings⟩ :=
    read_to (repr_colon timestamp') (repr_colon timestamp) tails
  exact ⟨(repr_injective stamps).symm, bindings⟩

theorem binding_reads (plain : oa.Plain) (plain' : other.Plain)
    (same : bindingChars (some other) = bindingChars (some oa) ++ rest) : oa = other ∧ rest = [] := by
  rw [bindingChars_some, bindingChars_some] at same
  simp only [append_assoc, cons_append, nil_append] at same
  obtain ⟨owners, same⟩ := read_to plain'.owner plain.owner same
  obtain ⟨conditions, same⟩ := read_to plain'.conditions plain.conditions same
  obtain ⟨sigs, same⟩ := read_to plain'.ownerSig plain.ownerSig same
  refine ⟨?_, same.symm⟩
  cases oa
  cases other
  simp only [String.toList_inj] at owners conditions sigs
  rw [owners, conditions, sigs]

theorem payload_starts (same : first.preimage = second.preimage)
    (longer : (signingHeader second.timestamp second.oa).toList =
      (signingHeader first.timestamp first.oa).toList ++ rest) :
    first.payload = rest.flatMap String.utf8EncodeChar ++ second.payload := by
  rw [SignedObject.preimage, SignedObject.preimage, signingPreimage, signingPreimage, utf8, utf8,
    longer, flatMap_append, append_assoc] at same
  exact append_cancel_left same

theorem eq_or_swallowed (plain : ∀ oa, first.oa = some oa → oa.Plain)
    (plain' : ∀ oa, second.oa = some oa → oa.Plain) (same : first.preimage = second.preimage)
    (shorter : (signingHeader first.timestamp first.oa).toList <+:
      (signingHeader second.timestamp second.oa).toList) :
    first = second ∨ second.Swallowed first := by
  obtain ⟨rest, longer⟩ := shorter
  have payloads := payload_starts same longer.symm
  obtain ⟨stamps, bindings⟩ := header_reads longer.symm
  cases isOa : first.oa with
  | none =>
    rw [isOa] at bindings
    have rests : bindingChars second.oa = rest := bindings
    cases isOther : second.oa with
    | none =>
      rw [isOther] at rests
      have noRest : rest = [] := rests.symm
      rw [noRest, flatMap_nil, nil_append] at payloads
      refine .inl ?_
      cases first
      cases second
      simp_all
    | some other =>
      rw [isOther] at rests
      refine .inr ⟨stamps.symm, isOa, other, isOther, ?_⟩
      rw [payloads, ← rests]
      rfl
  | some oa =>
    rw [isOa] at bindings
    cases isOther : second.oa with
    | none =>
      rw [isOther, bindingChars_some] at bindings
      simp [bindingChars] at bindings
    | some other =>
      rw [isOther] at bindings
      obtain ⟨sameOa, noRest⟩ := binding_reads (plain oa isOa) (plain' other isOther) bindings
      rw [noRest, flatMap_nil, nil_append] at payloads
      refine .inl ?_
      cases first
      cases second
      simp_all

theorem swallowed_preimage (swallowed : first.Swallowed second) :
    first.preimage = second.preimage := by
  obtain ⟨oa, isOa, payload⟩ := swallowed.present
  have header : signingHeader first.timestamp first.oa =
      signingHeader second.timestamp none ++ oaBinding oa := by
    apply String.toList_inj.mp
    simp [signingHeader, swallowed.timestamp, isOa]
  rw [SignedObject.preimage, SignedObject.preimage, signingPreimage, signingPreimage,
    swallowed.absent, payload, header, utf8_append, append_assoc]

theorem swallowed_ne (swallowed : first.Swallowed second) : first ≠ second := by
  rintro rfl
  obtain ⟨oa, isOa, -⟩ := swallowed.present
  cases swallowed.absent.symm.trans isOa

end headers

/-- But for an attestation. -/
theorem signature_binds_iff (externals : Externals) (first second : SignedObject)
    (accepted : first.Accepted externals) (accepted' : second.Accepted externals) :
    (first.preimage = second.preimage → first = second) ↔
      ¬ first.Swallowed second ∧ ¬ second.Swallowed first := by
  have plain (object : SignedObject) (isAccepted : object.Accepted externals) :
      ∀ oa, object.oa = some oa → oa.Plain := by
    obtain ⟨parsed, envelope, ok, same⟩ := isAccepted
    rw [← same]
    exact parseEnvelope_plain ok
  constructor
  · intro binds
    constructor
    · exact fun swallowed => swallowed_ne swallowed (binds (swallowed_preimage swallowed))
    · exact fun swallowed =>
        swallowed_ne swallowed (binds (swallowed_preimage swallowed).symm).symm
  · rintro ⟨apart, apart'⟩ same
    rcases utf8_prefix same with shorter | longer
    · exact (eq_or_swallowed (plain first accepted) (plain second accepted') same shorter).resolve_right
        apart'
    · exact ((eq_or_swallowed (plain second accepted') (plain first accepted) same.symm
        longer).resolve_right apart).symm

def sampleOa : OwnerAttestation where
  owner := "79be667ef9dcbbac55a06295ce870b07029bfcdb2dce28d959f2815b16f81798"
  conditions := "kind=1"
  ownerSig := "54b97dfd2b7d61c1bc1b5facab9d12a991fe0ac3dcb9044b3176f63bebb6f67340eb0ad866f2d5568b78b58ba234ee9f490f8c41e64a949c200315801520ed25"

def samplePk : String := "f9308a019258c31049344f85f89d5229b531c845836f99b08601f113bce036f9"

def sampleEnvelope (oa : List (String × Json Number)) : Json Number :=
  .object (oa ++ [("pk", .string samplePk), ("sig", .string sampleOa.ownerSig),
    ("t", .number (.posInt 1700000000 (by decide))), ("v", .number (.posInt 1 (by decide)))])

def sampleExternals : Externals where
  debug text := text
  publicKey text := if text = sampleOa.owner then .ok () else .error "malformed public key"

def sampleAttested : SignedObject := ⟨1700000000, some sampleOa, utf8 "tree"⟩

def sampleBare : SignedObject := ⟨1700000000, none, utf8 (oaBinding sampleOa ++ "tree")⟩

theorem sampleAttested_accepted : sampleAttested.Accepted sampleExternals := by
  refine ⟨.ok (sampleEnvelope [("oa", .array [.string sampleOa.owner, .string sampleOa.conditions,
    .string sampleOa.ownerSig])]), ⟨samplePk, sampleOa.ownerSig, 1700000000, some sampleOa⟩, ?_, rfl⟩
  decide +kernel

theorem sampleBare_accepted : sampleBare.Accepted sampleExternals := by
  refine ⟨.ok (sampleEnvelope []), ⟨samplePk, sampleOa.ownerSig, 1700000000, none⟩, ?_, rfl⟩
  decide +kernel

theorem sampleBare_binds :
    (sampleAttested.preimage = sampleBare.preimage → sampleAttested = sampleBare) ↔
      ¬ sampleAttested.Swallowed sampleBare ∧ ¬ sampleBare.Swallowed sampleAttested :=
  signature_binds_iff sampleExternals sampleAttested sampleBare sampleAttested_accepted
    sampleBare_accepted

theorem sampleBare_shares : ¬ ∀ (externals : Externals) (first second : SignedObject),
    first.Accepted externals → second.Accepted externals → first.preimage = second.preimage →
      first = second := by
  intro binds
  have payload : sampleBare.payload = utf8 (oaBinding sampleOa) ++ sampleAttested.payload := by
    simp only [sampleBare, sampleAttested, utf8_append]
  have swallowed : sampleAttested.Swallowed sampleBare := ⟨rfl, rfl, sampleOa, rfl, payload⟩
  have same := binds sampleExternals sampleAttested sampleBare sampleAttested_accepted
    sampleBare_accepted (swallowed_preimage swallowed)
  exact swallowed_ne swallowed same

end Buzz.GitSign
