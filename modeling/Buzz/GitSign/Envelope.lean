import Buzz.Audit.Entry
import Buzz.Library.Results

/-! The signature of a git object: the envelope that carries it, and the bytes that are hashed. -/

namespace Buzz.GitSign

open Nostr Library.Results
open Buzz.Audit (utf8)
open Json (asStr asArray asObject asU64 isF64 field)

abbrev Result := Except String

structure OwnerAttestation where
  owner : String
  conditions : String
  ownerSig : String
  deriving DecidableEq

structure Envelope where
  pk : String
  sig : String
  t : ℕ
  oa : Option OwnerAttestation
  deriving DecidableEq

/-- How errors quote a text, and which texts are keys. -/
structure Externals where
  debug : String → String
  publicKey : String → Result Unit

def isLowerHexDigit (c : Char) : Bool := decide ('0' ≤ c ∧ c ≤ '9' ∨ 'a' ≤ c ∧ c ≤ 'f')

def validateHexField (val : String) (expectedLen : ℕ) (name : String) : Result Unit := do
  require (val.utf8ByteSize = expectedLen)
    (name ++ " must be exactly " ++ toString expectedLen ++ " characters, got " ++
      toString val.utf8ByteSize)
  require (val.toList.all isLowerHexDigit) (name ++ " must be lowercase hex")

def parseDecimalU32 (text : List Char) : Option ℕ :=
  if text = [] then none
  else if text.head? = some '+' ∨ text.head? = some '-' then none
  else if 1 < text.length ∧ text.head? = some '0' then none
  else if text.all Char.isDigit then
    let value := text.foldl (fun value c => 10 * value + (c.toNat - '0'.toNat)) 0
    if value < 2 ^ 32 then some value else none
  else none

def validClause (clause : List Char) : Bool :=
  if clause = [] then false
  else
    match clause.dropPrefix? "kind=".toList with
    | some value => (parseDecimalU32 value).any (· ≤ 65535)
    | none =>
      match clause.dropPrefix? "created_at<".toList with
      | some value => (parseDecimalU32 value).isSome
      | none =>
        match clause.dropPrefix? "created_at>".toList with
        | some value => (parseDecimalU32 value).isSome
        | none => false

def validateConditions (conditions : String) : Bool :=
  if conditions = "" then true else (conditions.toList.splitOn '&').all validClause

def allowed : List String := ["v", "pk", "sig", "t", "oa"]

def requiredStr (object : List (String × Json Number)) (key : String) : Result String := do
  let value ← okOr (field object key) ("missing required field: " ++ key)
  okOr (asStr value) (key ++ " must be a string")

def parseOa (externals : Externals) (pk : String) (value : Json Number) : Result OwnerAttestation := do
  let arr ← okOr (asArray value) "oa must be an array"
  require (arr.length = 3) ("oa must have exactly 3 elements, got " ++ toString arr.length)
  let owner ← okOr (arr[0]?.bind asStr) "oa[0] must be a string"
  let conditions ← okOr (arr[1]?.bind asStr) "oa[1] must be a string"
  let ownerSig ← okOr (arr[2]?.bind asStr) "oa[2] must be a string"
  validateHexField owner 64 "oa[0]"
  validateHexField ownerSig 128 "oa[2]"
  require (validateConditions conditions)
    "oa[1] conditions contain invalid characters (allowed: alphanumeric, _=<>&)"
  (externals.publicKey owner).mapError
    fun error => "oa[0] is not a valid BIP-340 public key: " ++ error
  require (owner ≠ pk) "oa[0] (owner) must not equal pk (self-attestation)"
  pure ⟨owner, conditions, ownerSig⟩

def unknownKey (object : List (String × Json Number)) : Option String :=
  (object.map Prod.fst).find? (· ∉ allowed)

def checkKeys (externals : Externals) (object : List (String × Json Number)) : Result Unit :=
  match unknownKey object with
  | some key => .error ("unknown key in v=1 envelope: " ++ externals.debug key)
  | none => .ok ()

def parseEnvelope (externals : Externals) (parsed : Result (Json Number)) : Result Envelope := do
  let val ← parsed.mapError fun error => "invalid JSON: " ++ error
  let obj ← okOr (asObject val) "JSON must be an object"
  checkKeys externals obj
  let version ← okOr (field obj "v") "missing required field: v"
  let v ← okOr (asU64 version) "v must be an integer"
  require (v = 1) ("unsupported version: " ++ toString v)
  let pk ← requiredStr obj "pk"
  validateHexField pk 64 "pk"
  let sig ← requiredStr obj "sig"
  validateHexField sig 128 "sig"
  let stamp ← okOr (field obj "t") "missing required field: t"
  require (isF64 stamp = false) "t must be an integer, not a float"
  let t ← okOr (asU64 stamp) "t must be a non-negative integer"
  require (t ≤ 4294967295) ("t out of range: " ++ toString t)
  match field obj "oa" with
  | none => pure ⟨pk, sig, t, none⟩
  | some value => do
    let oa ← parseOa externals pk value
    pure ⟨pk, sig, t, some oa⟩

def domainSeparator : String := "nostr:git:v1:"

def oaBinding (oa : OwnerAttestation) : String :=
  oa.owner ++ ":" ++ oa.conditions ++ ":" ++ oa.ownerSig ++ ":"

/-- What `compute_signing_hash` feeds the hash function before the payload. -/
def signingHeader (timestamp : ℕ) (oa : Option OwnerAttestation) : String :=
  domainSeparator ++ toString timestamp ++ ":" ++ (oa.map oaBinding).getD ""

def signingPreimage (timestamp : ℕ) (oa : Option OwnerAttestation) (payload : Bytes) : Bytes :=
  utf8 (signingHeader timestamp oa) ++ payload

end Buzz.GitSign
