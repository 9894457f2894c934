import Buzz.Git.Store

/-! The parts of `hydrate_for_write` and `cas_publish` between their accesses to the object
store. -/

namespace Buzz.Git

open Nostr List

def maxManifestBytes : ℕ := 4 * 1024 * 1024
def maxRefSnapshotBytes : ℕ := 4 * 1024 * 1024
def maxCompactionObjects : ℕ := 1000000
def u64Base : ℕ := 2 ^ 64

inductive CasError
  | conflict (winnerManifest : Manifest) (winnerManifestKey : String)
  | manifestReadFailed (reason : String)
  | manifestInvalid (error : ManifestError)
  | backend (error : StoreError)
  | packCapture (reason : String)
  | resourceLimit (reason : String)
  deriving DecidableEq

structure PublishLimits where
  parentHydratedBytes : ℕ
  maxPackBytes : ℕ
  maxRepoBytes : ℕ
  deriving DecidableEq

structure ParentState where
  ifMatch : Option String
  parentDigest : Option String
  parent : Manifest
  deriving DecidableEq

def ParentState.fresh : ParentState where
  ifMatch := none
  parentDigest := none
  parent := ⟨manifestVersion, "", .empty, [], none⟩

def ParentState.fromLoaded (etag digest : String) (parent : Manifest) : ParentState where
  ifMatch := some etag
  parentDigest := some digest
  parent

def ParentState.precond (self : ParentState) : Precond :=
  match self.ifMatch with
  | some tag => .ifMatch tag
  | none => .ifNoneMatchStar

/-- Unicode `White_Space`. -/
def isWhitespace (c : Char) : Bool :=
  decide (0x09 ≤ c.val ∧ c.val ≤ 0x0d) || c.val == 0x20 || c.val == 0x85 || c.val == 0xa0 ||
    c.val == 0x1680 || decide (0x2000 ≤ c.val ∧ c.val ≤ 0x200a) || c.val == 0x2028 ||
    c.val == 0x2029 || c.val == 0x202f || c.val == 0x205f || c.val == 0x3000

def trim (text : String) : String :=
  String.ofList
    ((text.toList.dropWhile isWhitespace).reverse.dropWhile isWhitespace).reverse

def parsePointer (body : String) : Option String :=
  let digest := trim body
  if digest.toList.length = 64 ∧ digest.toList.all isHexDigit then some digest else none

def manifestKey (digest : String) : String := "manifests/" ++ digest

def digestFromManifestKey (key : String) : Option String := stripPrefix key "manifests/"

structure Workspace where
  refLines : List String
  refBytes : ℕ
  symbolicHead : Option String

def splitSpace (line : String) : Option (String × String) :=
  let name := line.toList.takeWhile (· != ' ')
  match line.toList.dropWhile (· != ' ') with
  | [] => none
  | _ :: oid => some (String.ofList name, String.ofList oid)

def readRefLine (refs : Refs) (line : String) : Except CasError Refs :=
  match splitSpace line with
  | none => .ok refs
  | some (name, oid) =>
    if oid.toList.length ≠ 40 ∨ !oid.toList.all isHexDigit then .ok refs
    else if maxManifestRefs ≤ refs.entries.length ∧ !refs.containsKey name then
      .error (.resourceLimit s!"workspace contains more than {maxManifestRefs} refs")
    else .ok (refs.insert name oid)

def snapshotWorkspaceState (workspace : Workspace) : Except CasError (Refs × String) :=
  if maxRefSnapshotBytes < workspace.refBytes then
    .error (.resourceLimit s!"ref snapshot is {workspace.refBytes} bytes (max {maxRefSnapshotBytes})")
  else do
    let refs ← workspace.refLines.foldlM readRefLine Refs.empty
    return (refs, (workspace.symbolicHead.map trim).getD "")

def isPublishedBranch (refs : Refs) (name : String) : Bool :=
  startsWith name "refs/heads/" && refs.containsKey name

def resolvePublishedHead (refs : Refs) (observedHead parentHead : String) : String :=
  if isPublishedBranch refs observedHead then observedHead
  else if isPublishedBranch refs parentHead then parentHead
  else if refs.containsKey "refs/heads/main" then "refs/heads/main"
  else if refs.containsKey "refs/heads/master" then "refs/heads/master"
  else match refs.keys.find? fun name => startsWith name "refs/heads/" with
    | some branch => branch
    | none => if observedHead ≠ "" then observedHead else parentHead

def shouldCompact (parentPackCount threshold : ℕ) : Bool := threshold ≤ parentPackCount

def compactedPackSetIsUsable (parentPackCount compactedPackCount : ℕ) : Bool :=
  decide (compactedPackCount < parentPackCount) ||
    decide (maxManifestPacks ≤ parentPackCount ∧ compactedPackCount ≤ maxManifestPacks)

structure CompactedPack where
  pack : Bytes
  idxBytes : ℕ
  deriving DecidableEq

/-- The size checks of `capture_compacted_packs`, with the bytes counted so far. -/
def checkCompactedSizes (limits : PublishLimits) : List CompactedPack → ℕ → Except CasError ℕ
  | [], total => .ok total
  | pack :: rest, total =>
    if limits.maxPackBytes < pack.pack.length then
      .error (.resourceLimit
        s!"compacted pack is {pack.pack.length} bytes (max {limits.maxPackBytes})")
    else if u64Base ≤ total + pack.pack.length then
      .error (.resourceLimit "compacted byte count overflowed u64")
    else if limits.maxRepoBytes < total + pack.pack.length then
      .error (.resourceLimit
        s!"compacted repo needs {total + pack.pack.length} bytes (max {limits.maxRepoBytes})")
    else if limits.maxPackBytes < pack.idxBytes then
      .error (.resourceLimit
        s!"compacted idx is {pack.idxBytes} bytes (max {limits.maxPackBytes})")
    else checkCompactedSizes limits rest (total + pack.pack.length)

/-- None for a repository without refs. -/
def prepareCompaction (limits : PublishLimits) (packsBefore : ℕ) (refsAfter : Refs)
    (objectCount : ℕ) (captured : List CompactedPack) : Except CasError (List CompactedPack) := do
  let packs ←
    if refsAfter.entries = [] then .ok []
    else if maxCompactionObjects < objectCount then
      .error (.resourceLimit s!"repository has {objectCount} objects (compaction max {maxCompactionObjects})")
    else if maxManifestPacks < captured.length then
      .error (.resourceLimit s!"compaction produced {captured.length} packs (max {maxManifestPacks})")
    else (checkCompactedSizes limits captured 0).map fun _ => captured
  if compactedPackSetIsUsable packsBefore packs.length then .ok packs
  else .error (.resourceLimit
    s!"compaction did not reduce pack count (before {packsBefore}, after {packs.length})")

/-- The tips that `pack-objects` is fed: `oid` lines and `^oid` lines. -/
structure Revs where
  positive : List String
  negative : List String

def deltaRevs (refsBefore refsAfter : Refs) : Revs := ⟨refsAfter.values, refsBefore.values⟩

/-- Each tip once. -/
def compactionRevs (refsAfter : Refs) : Revs := ⟨refsAfter.values.dedup, []⟩

def capturePack (limits : PublishLimits) (refsAfter : Refs) (stdout : Bytes) :
    Except CasError (Option Bytes) :=
  if refsAfter.entries = [] then .ok none
  else if limits.maxPackBytes < stdout.length then
    .error (.resourceLimit
      s!"pack-objects output is {stdout.length} bytes (max {limits.maxPackBytes})")
  else if stdout = [] then .ok none
  else .ok (some stdout)

def prepareDelta (limits : PublishLimits) (packsBefore : ℕ) (compactionFailure : Option CasError)
    (refsAfter : Refs) (stdout : Bytes) : Except CasError (Option Bytes) := do
  match ← capturePack limits refsAfter stdout with
  | none => return none
  | some pack =>
    if maxManifestPacks ≤ packsBefore then
      .error (compactionFailure.getD (.resourceLimit
        s!"repository already names {packsBefore} packs and compaction failed"))
    else if u64Base ≤ limits.parentHydratedBytes + pack.length then
      .error (.resourceLimit "repo byte count overflowed u64")
    else if limits.maxRepoBytes < limits.parentHydratedBytes + pack.length then
      .error (.resourceLimit
        s!"repo would need {limits.parentHydratedBytes + pack.length} hydrated bytes (max {limits.maxRepoBytes})")
    else return some pack

def composeAfter (parent : Manifest) (parentDigest : Option String) (head : String) (refs : Refs)
    (newPackKey : Option String) : Manifest where
  version := manifestVersion
  head
  refs
  packs := sortDedup <| match newPackKey with
    | some key => if parent.packs.any (· == key) then parent.packs else parent.packs ++ [key]
    | none => parent.packs
  parent := parentDigest

def composeCompactedAfter (parentDigest : Option String) (head : String) (refs : Refs)
    (compactedPackKeys : List String) : Manifest where
  version := manifestVersion
  head
  refs
  packs := sortDedup compactedPackKeys
  parent := parentDigest

def seedManifest : Manifest := ⟨manifestVersion, "refs/heads/main", .empty, [], none⟩

theorem mem_composeAfter {parent : Manifest} {parentDigest : Option String} {head : String}
    {refs : Refs} {newPackKey : Option String} {pack : String} :
    pack ∈ (composeAfter parent parentDigest head refs newPackKey).packs ↔
      pack ∈ parent.packs ∨ newPackKey = some pack := by
  simp only [composeAfter, mem_sortDedup]
  cases newPackKey with
  | none => simp
  | some key =>
    simp only [Option.some.injEq]
    split
    next present =>
      rcases any_eq_true.mp present with ⟨found, member, same⟩
      rw [beq_iff_eq] at same
      constructor
      · exact .inl
      · intro known
        rcases known with old | new
        · exact old
        · rw [← new, ← same]
          exact member
    · rw [mem_append, mem_singleton]
      constructor
      · intro known
        rcases known with old | new
        · exact .inl old
        · exact .inr new.symm
      · intro known
        rcases known with old | new
        · exact .inl old
        · exact .inr new.symm

theorem composeAfter_canonical (parent : Manifest) (parentDigest : Option String) (head : String)
    (refs : Refs) (newPackKey : Option String) :
    sortDedup (composeAfter parent parentDigest head refs newPackKey).packs =
      (composeAfter parent parentDigest head refs newPackKey).packs :=
  sortDedup_idem _

theorem composeCompactedAfter_canonical (parentDigest : Option String) (head : String)
    (refs : Refs) (keys : List String) :
    sortDedup (composeCompactedAfter parentDigest head refs keys).packs =
      (composeCompactedAfter parentDigest head refs keys).packs :=
  sortDedup_idem _

theorem isWhitespace_hexDigit {c : Char} (hex : isHexDigit c) : isWhitespace c = false := by
  simp only [isHexDigit, Char.isDigit, Char.le_def, UInt32.le_iff_toNat_le, Bool.or_eq_true,
    Bool.and_eq_true, decide_eq_true_eq] at hex
  have range : 0x30 ≤ c.toNat ∧ c.toNat ≤ 0x66 := by
    simp at hex
    omega
  simp only [isWhitespace, Bool.or_eq_false_iff, decide_eq_false_iff_not, beq_eq_false_iff_ne,
    UInt32.le_iff_toNat_le, ← UInt32.toNat_inj, ne_eq]
  simp
  omega

theorem dropWhile_isWhitespace {chars : List Char} (hex : ∀ c ∈ chars, isHexDigit c) :
    chars.dropWhile isWhitespace = chars := by
  cases chars with
  | nil => rfl
  | cons head tail =>
    rw [dropWhile_cons, isWhitespace_hexDigit (hex head mem_cons_self)]
    rfl

theorem trim_hex {text : String} (hex : ∀ c ∈ text.toList, isHexDigit c) :
    trim text = text := by
  have reversed : ∀ c ∈ text.toList.reverse, isHexDigit c := by
    intro c member
    exact hex c (mem_reverse.mp member)
  rw [trim, dropWhile_isWhitespace hex, dropWhile_isWhitespace reversed, reverse_reverse,
    String.ofList_toList]

end Buzz.Git
