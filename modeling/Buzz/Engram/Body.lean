import Buzz.Audit.Preimage
import Buzz.Engram.Strict
import Buzz.Git.Manifest
import Mathlib

/-! The body of an engram, as the JSON bytes that are encrypted and as what they are read to. -/

namespace Buzz.Engram

open Nostr Buzz.JsonGrammar Buzz.JsonReader List
open Buzz.Audit (utf8 fromUTF8_utf8)
open Buzz.Git (stripPrefix)
open Library.Results

def coreSlug : String := "core"

def slugMaxLen : ℕ := 255

def memPrefix : String := "mem/"

inductive SlugFault
  | length (bytes max : ℕ)
  | expected (slug : String)
  | emptyAfterPrefix
  | segment (number : ℕ) (segment why : String)
  deriving DecidableEq

inductive EngramError
  | invalidSlug (fault : SlugFault)
  | invalidBody (message : String)
  deriving DecidableEq

def isLowerAlnum (b : UInt8) : Bool := (97 ≤ b && b ≤ 122) || (48 ≤ b && b ≤ 57)

def validateSegment (segment : String) : Except String Unit :=
  match utf8 segment with
  | [] => .error "empty"
  | first :: more =>
    if 64 < (first :: more).length then .error "longer than 64 bytes"
    else if !isLowerAlnum first then .error "first byte must be [a-z0-9]"
    else if more.all fun b => isLowerAlnum b || b == 95 || b == 45 then .ok ()
    else .error "only [a-z0-9_-] allowed after the first byte"

def validateSegments (number : ℕ) : List (List Char) → Except EngramError Unit
  | [] => .ok ()
  | segment :: more =>
    match validateSegment (String.ofList segment) with
    | .error why => .error (.invalidSlug (.segment number (String.ofList segment) why))
    | .ok () => validateSegments (number + 1) more

def validateSlug (slug : String) : Except EngramError Unit :=
  if slug = coreSlug then .ok ()
  else if slugMaxLen < slug.utf8ByteSize then
    .error (.invalidSlug (.length slug.utf8ByteSize slugMaxLen))
  else
    match stripPrefix slug memPrefix with
    | none => .error (.invalidSlug (.expected slug))
    | some rest =>
      if rest = "" then .error (.invalidSlug .emptyAfterPrefix)
      else validateSegments 1 (rest.toList.splitOn '/')

inductive Body
  | core (profile : String)
  | memory (slug : String) (value : Option String)
  deriving DecidableEq

namespace Body

def slug : Body → String
  | .core _ => coreSlug
  | .memory slug _ => slug

def toJson (self : Body) : String :=
  "\x7b\"slug\":" ++ stringText self.slug ++
    (match self with
    | .memory _ (some value) => ",\"value\":" ++ stringText value
    | .memory _ none => ",\"value\":null"
    | .core profile => ",\"profile\":" ++ stringText profile) ++ "\x7d"

def toJsonBytes (self : Body) : Bytes := utf8 self.toJson

end Body

def parseStrictJson (deserializer : Deserializer) (bytes : Bytes) :
    Except EngramError (Json Number) :=
  match strictValue (deserializer.visits bytes) with
  | .error message =>
    .error (.invalidBody ("invalid JSON body: " ++ deserializer.display bytes message))
  | .ok value =>
    match deserializer.trailing bytes with
    | some message =>
      .error (.invalidBody ("trailing data after JSON body: " ++
        deserializer.display bytes message))
    | none => .ok value

def topObject : Json Number → Except EngramError (List (String × Json Number))
  | .object entries => .ok entries
  | _ => .error (.invalidBody "top-level not an object")

def stringMember (object : List (String × Json Number)) (key missing wrong : String) :
    Except EngramError String :=
  match Json.field object key with
  | some (.string text) => .ok text
  | some _ => .error (.invalidBody wrong)
  | none => .error (.invalidBody missing)

def valueMember (object : List (String × Json Number)) : Except EngramError (Option String) :=
  match Json.field object "value" with
  | some (.string text) => .ok (some text)
  | some .null => .ok none
  | some _ => .error (.invalidBody "`value` is not a string")
  | none => .error (.invalidBody "memory missing `value`")

def Body.ofJson (raw : Json Number) : Except EngramError Body := do
  let object ← topObject raw
  let slug ← stringMember object "slug" "missing `slug`" "`slug` is not a string"
  validateSlug slug
  if slug = coreSlug then do
    let profile ← stringMember object "profile" "core missing `profile`" "`profile` is not a string"
    .ok (.core profile)
  else do
    let value ← valueMember object
    .ok (.memory slug value)

def Body.fromJsonBytes (deserializer : Deserializer) (bytes : Bytes) : Except EngramError Body := do
  let raw ← parseStrictJson deserializer bytes
  Body.ofJson raw

def Body.member : Body → String × Written
  | .core profile => ("profile", .string profile)
  | .memory _ value => ("value", value.elim .null .string)

theorem Body.document_toJson (body : Body) :
    document body.toJson = some (.object [("slug", .string body.slug), body.member]) := by
  have written : body.toJson =
      String.ofList (shown (.object [("slug", .string body.slug), body.member])) := by
    have slug : stringText "slug" = "\"slug\"" := by decide
    have profile : stringText "profile" = "\"profile\"" := by decide
    have value : stringText "value" = "\"value\"" := by decide
    apply String.toList_inj.mp
    cases body with
    | core text => simp [toJson, member, shown, shownEntries, slug, profile]
    | memory _ content =>
      cases content <;> simp [toJson, member, shown, shownEntries, slug, value]
  rw [written]
  apply document_shown
  cases body with
  | core text => exact ⟨trivial, trivial, trivial, trivial⟩
  | memory _ content => cases content <;> exact ⟨trivial, trivial, trivial, trivial⟩

variable {readFloat : List Char → Option F64} {deserializer : Deserializer}

section read

variable {json : Json Number} {value : Written}

theorem parseStrictJson_of_document (lawful : deserializer.Rfc8259 readFloat) {text : String}
    (written : document text = some value)
    (strict : strictValue (visitsOf readFloat maxDepth value) = .ok json) :
    parseStrictJson deserializer (utf8 text) = .ok json := by
  simp [parseStrictJson, lawful.visits _ _ written, lawful.trailing _ _ written, strict]

theorem parseStrictJson_of_repeated (lawful : deserializer.Rfc8259 readFloat) {text : String}
    (written : document text = some value) (repeated : ¬ UniqueNames value) :
    ∃ message, parseStrictJson deserializer (utf8 text) = .error (.invalidBody message) := by
  cases strict : strictValue (visitsOf readFloat maxDepth value) with
  | ok json => exact absurd (unique_of_strictValue value strict) repeated
  | error message =>
    exact ⟨_, by rw [parseStrictJson, lawful.visits _ _ written, strict]⟩

theorem strict_pair (slug : String) {name : String} {member : Written} (other : name ≠ "slug")
    (strict : strictValue (visitsOf readFloat (maxDepth - 1) member) = .ok json) :
    strictValue (visitsOf readFloat maxDepth (.object [("slug", .string slug), (name, member)])) =
      .ok (.object (Json.sortByKey (· ≤ ·) [("slug", .string slug), (name, json)])) := by
  have deep : maxDepth ≠ 0 := by decide
  simp [visitsOf, visitsOfEntries, strictValue, strictMap, deep, other, strict, ended]

def Body.Addressed : Body → Prop
  | .core _ => True
  | .memory slug _ => slug ≠ coreSlug

theorem sorted_profile (slug profile : Json Number) :
    Json.sortByKey (· ≤ ·) [("slug", slug), ("profile", profile)] =
      [("profile", profile), ("slug", slug)] := by
  have before : ¬ "slug" ≤ "profile" := by decide
  simp [Json.sortByKey, insertionSort, before]

theorem sorted_value (slug value : Json Number) :
    Json.sortByKey (· ≤ ·) [("slug", slug), ("value", value)] =
      [("slug", slug), ("value", value)] := by
  have before : "slug" ≤ "value" := by decide
  simp [Json.sortByKey, insertionSort, before]

theorem ofJson_core (profile : String) :
    Body.ofJson (.object [("profile", .string profile), ("slug", .string coreSlug)]) =
      .ok (.core profile) := by
  have valid : validateSlug coreSlug = .ok () := by simp [validateSlug]
  simp [Body.ofJson, topObject, stringMember, Json.field, List.lookup, valid]

theorem ofJson_memory {slug : String} (valid : validateSlug slug = .ok ())
    (addressed : slug ≠ coreSlug) (value : Option String) :
    Body.ofJson (.object [("slug", .string slug), ("value", value.elim .null .string)]) =
      .ok (.memory slug value) := by
  cases value <;>
    simp [Body.ofJson, topObject, stringMember, valueMember, Json.field, List.lookup, valid, addressed]

theorem fromJsonBytes_core (lawful : deserializer.Rfc8259 readFloat) (profile : String) :
    Body.fromJsonBytes deserializer (Body.core profile).toJsonBytes = .ok (.core profile) := by
  have strict := strict_pair coreSlug (by decide : "profile" ≠ "slug")
    (rfl : strictValue (visitsOf readFloat _ (.string profile)) = .ok (.string profile))
  have parsed := parseStrictJson_of_document lawful (Body.core profile).document_toJson strict
  rw [Body.fromJsonBytes, Body.toJsonBytes, parsed, ok_bind, sorted_profile]
  exact ofJson_core profile

theorem fromJsonBytes_memory (lawful : deserializer.Rfc8259 readFloat) (slug : String)
    (value : Option String) :
    Body.fromJsonBytes deserializer (Body.memory slug value).toJsonBytes =
      Body.ofJson (.object [("slug", .string slug), ("value", value.elim .null .string)]) := by
  have read : strictValue (visitsOf readFloat (maxDepth - 1) (value.elim .null .string)) =
      .ok (value.elim .null .string) := by
    cases value <;> rfl
  have strict := strict_pair slug (by decide : "value" ≠ "slug") read
  have parsed := parseStrictJson_of_document lawful (Body.memory slug value).document_toJson strict
  rw [Body.fromJsonBytes, Body.toJsonBytes, parsed, ok_bind, sorted_value]

end read

/-- A text with a repeated name is never read. -/
theorem strict_round_trip (lawful : deserializer.Rfc8259 readFloat) :
    (∀ body : Body, validateSlug body.slug = .ok () → body.Addressed →
      Body.fromJsonBytes deserializer body.toJsonBytes = .ok body) ∧
    ∀ text value, document text = some value → ¬ UniqueNames value →
      ∃ message, Body.fromJsonBytes deserializer (utf8 text) = .error (.invalidBody message) := by
  constructor
  · intro body valid addressed
    cases body with
    | core profile => exact fromJsonBytes_core lawful profile
    | memory slug value =>
      rw [fromJsonBytes_memory lawful]
      exact ofJson_memory valid addressed value
  · intro text value written repeated
    rcases parseStrictJson_of_repeated lawful written repeated with ⟨message, refused⟩
    exact ⟨message, by rw [Body.fromJsonBytes, refused, error_bind]⟩

def documents (readFloat : List Char → Option F64) : Deserializer where
  visits bytes :=
    match (String.fromUTF8? bytes.toByteArray).bind document with
    | some value => visitsOf readFloat maxDepth value
    | none => .failure "expected value"
  trailing _ := none
  display _ message := message ++ " at line 1 column 0"

theorem documents_rfc8259 (readFloat : List Char → Option F64) :
    (documents readFloat).Rfc8259 readFloat where
  visits := by
    intro text value written
    simp only [documents, fromUTF8_utf8, Option.bind_some, written]
  trailing := fun _ _ _ => rfl

def sampleBody : Body := .memory "mem/notes/a_1" (some "\"é\" \\ \u0001\n")

def repeatedValue : Written := .object [("slug", .string "core"), ("slug", .string "mem/a")]

def repeatedText : String := String.ofList (shown repeatedValue)

theorem strict_round_trip_sample :
    Body.fromJsonBytes (documents fun _ => none) sampleBody.toJsonBytes = .ok sampleBody ∧
    ∃ message, Body.fromJsonBytes (documents fun _ => none) (utf8 repeatedText) =
      .error (.invalidBody message) := by
  have lawful := documents_rfc8259 fun _ => none
  constructor
  · exact (strict_round_trip lawful).1 sampleBody (by decide +kernel)
      (by simp [sampleBody, Body.Addressed, coreSlug])
  · have written : document repeatedText = some repeatedValue :=
      document_shown ⟨trivial, trivial, trivial, trivial⟩
    apply (strict_round_trip lawful).2 repeatedText _ written
    intro unique
    have names := unique.1
    simp at names

/-- A memory whose slug is the reserved one is read as a core without a profile. -/
theorem not_roundTripsStrictly :
    ¬ ∀ deserializer readFloat, Deserializer.Rfc8259 readFloat deserializer →
      ∀ body : Body, validateSlug body.slug = .ok () →
        Body.fromJsonBytes deserializer body.toJsonBytes = .ok body := by
  intro holds
  have read := holds _ _ (documents_rfc8259 fun _ => none) (.memory coreSlug none) (by decide +kernel)
  rw [fromJsonBytes_memory (documents_rfc8259 fun _ => none)] at read
  cases read

end Buzz.Engram
