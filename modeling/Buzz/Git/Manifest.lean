import Buzz.Nostr.Event
import Mathlib.Data.List.Destutter
import Mathlib.Data.List.Infix
import Mathlib.Data.List.Sort
import Mathlib.Data.String.Basic

/-! The manifest of a repository: its published refs and the packs that cover them. -/

namespace Buzz.Git

open Nostr List

def manifestVersion : ℕ := 1
def maxManifestPacks : ℕ := 128
def packCompactionThreshold : ℕ := maxManifestPacks * 3 / 4
def maxManifestRefs : ℕ := 10000

def insertEntry (name oid : String) : List (String × String) → List (String × String)
  | [] => [(name, oid)]
  | (other, value) :: rest =>
    if name < other then (name, oid) :: (other, value) :: rest
    else if name = other then (name, oid) :: rest
    else (other, value) :: insertEntry name oid rest

variable {entries : List (String × String)}

theorem mem_insertEntry {name oid : String}
    {entry : String × String} (member : entry ∈ insertEntry name oid entries) :
    entry = (name, oid) ∨ entry ∈ entries := by
  induction entries with
  | nil => exact .inl (mem_singleton.mp member)
  | cons head rest ih =>
    rw [insertEntry] at member
    split at member
    · exact mem_cons.mp member
    · split at member
      · rcases mem_cons.mp member with new | old
        · exact .inl new
        · exact .inr (mem_cons_of_mem _ old)
      · rcases mem_cons.mp member with same | later
        · exact .inr (same ▸ mem_cons_self)
        · rcases ih later with new | old
          · exact .inl new
          · exact .inr (mem_cons_of_mem _ old)

theorem insertEntry_sorted (name oid : String)
    (sorted : entries.Pairwise fun first second => first.1 < second.1) :
    (insertEntry name oid entries).Pairwise fun first second => first.1 < second.1 := by
  induction entries with
  | nil => exact pairwise_singleton _ _
  | cons head rest ih =>
    rcases pairwise_cons.mp sorted with ⟨above, tail⟩
    rw [insertEntry]
    split
    next before =>
      apply pairwise_cons.mpr
      refine ⟨?_, sorted⟩
      intro other member
      rcases mem_cons.mp member with same | later
      · rw [same]
        exact before
      · exact lt_trans before (above other later)
    next notBefore =>
      split
      next same =>
        apply pairwise_cons.mpr
        refine ⟨?_, tail⟩
        intro other member
        rw [same]
        exact above other member
      next different =>
        apply pairwise_cons.mpr
        refine ⟨?_, ih tail⟩
        intro other member
        rcases mem_insertEntry member with new | old
        · rw [new]
          exact lt_of_le_of_ne (not_lt.mp notBefore) (Ne.symm different)
        · exact above other old

structure Refs where
  entries : List (String × String)
  sorted : entries.Pairwise fun first second => first.1 < second.1
  deriving DecidableEq

namespace Refs

def empty : Refs := ⟨[], List.Pairwise.nil⟩

def insert (self : Refs) (name oid : String) : Refs :=
  ⟨insertEntry name oid self.entries, insertEntry_sorted name oid self.sorted⟩

def containsKey (self : Refs) (name : String) : Bool :=
  self.entries.any (·.1 == name)

def keys (self : Refs) : List String := self.entries.map Prod.fst

def values (self : Refs) : List String := self.entries.map Prod.snd

end Refs

structure Manifest where
  version : ℕ
  head : String
  refs : Refs
  packs : List String
  parent : Option String
  deriving DecidableEq

inductive ManifestError
  | serde
  | unsupportedVersion (got expected : ℕ)
  | unsafeRefName (name : String)
  | malformedOid (refname oid : String)
  | emptyHead
  | malformedParent (parent : String)
  | tooManyPacks (got max : ℕ)
  | tooManyRefs (got max : ℕ)
  | malformedPackKey (key : String)
  deriving DecidableEq

def startsWith (text lead : String) : Bool := lead.toList.isPrefixOf text.toList

def endsWith (text last : String) : Bool := last.toList.isSuffixOf text.toList

def containsText (text part : String) : Bool := part.toList <:+: text.toList

def stripPrefix (text lead : String) : Option String :=
  if startsWith text lead then some (String.ofList (text.toList.drop lead.toList.length)) else none

theorem stripPrefix_append (lead rest : String) : stripPrefix (lead ++ rest) lead = some rest := by
  have leads : startsWith (lead ++ rest) lead := by
    rw [startsWith, isPrefixOf_iff_prefix, String.toList_append]
    exact prefix_append _ _
  rw [stripPrefix, if_pos leads, String.toList_append, drop_left, String.ofList_toList]

def isRefChar (c : Char) : Bool :=
  c.isAlphanum || c == '/' || c == '_' || c == '.' || c == '-'

def isSafeRefname (name : String) : Bool :=
  startsWith name "refs/" &&
    !(containsText name ".." || containsText name "//" || startsWith name "/" ||
      endsWith name "/") &&
    name.toList.all isRefChar

def isHexDigit (c : Char) : Bool :=
  c.isDigit || decide ('a' ≤ c ∧ c ≤ 'f') || decide ('A' ≤ c ∧ c ≤ 'F')

/-- All hexadecimal digits are one byte long. -/
def isHexOid (oid : String) : Bool :=
  (oid.toList.length == 40 || oid.toList.length == 64) && oid.toList.all isHexDigit

def isManifestDigest (digest : String) : Bool :=
  digest.toList.length == 64 &&
    digest.toList.all fun c => c.isDigit || decide ('a' ≤ c ∧ c ≤ 'f')

def isPackKey (key : String) : Bool := (stripPrefix key "packs/").any isManifestDigest

def validateRefs : List (String × String) → Except ManifestError Unit
  | [] => .ok ()
  | (refname, oid) :: rest =>
    if !isSafeRefname refname then .error (.unsafeRefName refname)
    else if !isHexOid oid then .error (.malformedOid refname oid)
    else validateRefs rest

def validatePacks (packs : List String) : Except ManifestError Unit :=
  match packs.find? fun pack => !isPackKey pack with
  | some pack => .error (.malformedPackKey pack)
  | none => .ok ()

def validateParent (parent : Option String) : Except ManifestError Unit :=
  match parent with
  | some digest => if isManifestDigest digest then .ok () else .error (.malformedParent digest)
  | none => .ok ()

def Manifest.validate (self : Manifest) : Except ManifestError Unit :=
  if maxManifestPacks < self.packs.length then
    .error (.tooManyPacks self.packs.length maxManifestPacks)
  else if maxManifestRefs < self.refs.entries.length then
    .error (.tooManyRefs self.refs.entries.length maxManifestRefs)
  else if self.head = "" then .error .emptyHead
  else if !isSafeRefname self.head then .error (.unsafeRefName self.head)
  else do
    validateRefs self.refs.entries
    validatePacks self.packs
    validateParent self.parent

/-- `sort` and then `dedup`. -/
def sortDedup (packs : List String) : List String :=
  (packs.insertionSort (· ≤ ·)).destutter (· ≠ ·)

theorem sortDedup_eq_dedup (packs : List String) :
    sortDedup packs = (packs.insertionSort (· ≤ ·)).dedup :=
  (pairwise_insertionSort (· ≤ ·) packs).destutter_eq_dedup

theorem mem_sortDedup {packs : List String} {pack : String} :
    pack ∈ sortDedup packs ↔ pack ∈ packs := by
  rw [sortDedup_eq_dedup, mem_dedup, mem_insertionSort]

theorem sortDedup_idem (packs : List String) : sortDedup (sortDedup packs) = sortDedup packs := by
  have ordered : (sortDedup packs).Pairwise (· ≤ ·) :=
    (pairwise_insertionSort (· ≤ ·) packs).sublist (destutter_sublist _ _)
  rw [sortDedup, ordered.insertionSort_eq]
  exact destutter_idem _ _

structure Serde where
  toVec : Manifest → Bytes
  fromSlice : Bytes → Option Manifest

def Manifest.canonicalBytes (serde : Serde) (self : Manifest) : Bytes :=
  serde.toVec { self with packs := sortDedup self.packs }

def Manifest.fromBytes (serde : Serde) (bytes : Bytes) : Except ManifestError Manifest :=
  match serde.fromSlice bytes with
  | none => .error .serde
  | some manifest =>
    if manifest.version ≠ manifestVersion then
      .error (.unsupportedVersion manifest.version manifestVersion)
    else .ok manifest

end Buzz.Git
