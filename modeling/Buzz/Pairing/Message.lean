import Buzz.Nostr.Event

/-! The messages of a device pairing, its errors, and the values that both parties derive. -/

namespace Buzz.Pairing

open Nostr

def pairingKind : Kind := 24134

inductive PayloadType
  | nsec
  | bunker
  | connect
  | custom
  deriving DecidableEq

inductive AbortReason
  | sasMismatch
  | userDenied
  | timeout
  | protocolError
  | unknown
  deriving DecidableEq

inductive PairingMessage
  | offer (sessionId : String) (version : ℕ)
  | sasConfirm (transcriptHash : String)
  | payload (payloadType : PayloadType) (payload : String)
  | complete (success : Bool)
  | abort (reason : AbortReason)
  deriving DecidableEq

inductive PairingError
  | invalidQr (reason : String)
  | invalidSessionId
  | sasMismatch
  | transcriptMismatch
  | unexpectedMessage (expected got : String)
  | sessionExpired
  | nip44 (error : String)
  | json (error : String)
  | invalidPubkey (reason : String)
  | signingError (reason : String)
  deriving DecidableEq

def unexpected (expected : String) (got : PairingMessage) : PairingError :=
  .unexpectedMessage expected <| match got with
    | .offer .. => "offer"
    | .sasConfirm .. => "sas-confirm"
    | .payload .. => "payload"
    | .complete .. => "complete"
    | .abort .. => "abort"

abbrev SecretKey := FixedBytes 32

/-- What an `EventBuilder` holds. -/
structure EventDraft where
  createdAt : ℕ
  kind : Kind
  tags : List Tag
  content : String
  deriving DecidableEq

/-- The `nostr` crate and `serde_json`. -/
structure Primitives where
  publicKey : SecretKey → PublicKey
  hkdfExtract : Bytes → Bytes → Bytes
  hkdfExpand : Bytes → Bytes → (length : ℕ) → FixedBytes length
  generateSharedKey : SecretKey → PublicKey → Except String (FixedBytes 32)
  encrypt : SecretKey → PublicKey → String → Bytes → Except String String
  decrypt : SecretKey → PublicKey → String → Except String String
  toJson : PairingMessage → Except String String
  fromJson : String → Except String PairingMessage
  sign : SecretKey → EventDraft → Bytes → Except String Event
  verify : Event → Except String Unit

/-- Both ends of an exchange derive one key and read what the other wrote. -/
structure Primitives.Lawful (primitives : Primitives) : Prop where
  sharedKey : ∀ first second key,
    primitives.generateSharedKey first (primitives.publicKey second) = .ok key →
      primitives.generateSharedKey second (primitives.publicKey first) = .ok key
  nip44 : ∀ first second text nonce sealed,
    primitives.encrypt first (primitives.publicKey second) text nonce = .ok sealed →
      primitives.decrypt second (primitives.publicKey first) sealed = .ok text
  json : ∀ message text, primitives.toJson message = .ok text →
    primitives.fromJson text = .ok message
  signed : ∀ keys draft aux event, primitives.sign keys draft aux = .ok event →
    event.pubkey = primitives.publicKey keys ∧ event.kind = draft.kind ∧
      event.tags ⊆ draft.tags ∧ event.content = draft.content

def ascii (text : String) : Bytes := text.toList.map fun c => UInt8.ofNat c.toNat

def infoSessionId : Bytes := ascii "nostr-pair-session-id"
def infoSas : Bytes := ascii "nostr-pair-sas-v1"
def infoTranscript : Bytes := ascii "nostr-pair-transcript-v1"

section

variable (primitives : Primitives)

def hkdf32 (salt ikm info : Bytes) : FixedBytes 32 :=
  primitives.hkdfExpand (primitives.hkdfExtract salt ikm) info 32

def deriveSessionId (sessionSecret : FixedBytes 32) : FixedBytes 32 :=
  hkdf32 primitives [] sessionSecret.val infoSessionId

def u32FromBeBytes : Bytes → ℕ
  | first :: second :: third :: fourth :: _ =>
    ((first.toNat * 256 + second.toNat) * 256 + third.toNat) * 256 + fourth.toNat
  | _ => 0

def deriveSas (ecdhShared sessionSecret : FixedBytes 32) : ℕ × FixedBytes 32 :=
  let sasInput := hkdf32 primitives sessionSecret.val ecdhShared.val infoSas
  (u32FromBeBytes sasInput.val % 1000000, sasInput)

def deriveTranscriptHash (sessionId sourcePubkey targetPubkey sasInput sessionSecret :
    FixedBytes 32) : FixedBytes 32 :=
  hkdf32 primitives sessionSecret.val
    (sessionId.val ++ sourcePubkey.val ++ targetPubkey.val ++ sasInput.val) infoTranscript

end

def formatSas (code : ℕ) : String :=
  let digits := Nat.toDigits 10 code
  String.ofList (List.replicate (6 - digits.length) '0' ++ digits)

/-- `hex::decode` of a hash, where it has 32 bytes. -/
def decodeHash (text : String) : Option (FixedBytes 32) :=
  match hexDecode text.toList with
  | some bytes => if length : bytes.length = 32 then some ⟨bytes, length⟩ else none
  | none => none

end Buzz.Pairing
