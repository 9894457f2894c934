import Buzz.Audit.Preimage
import Buzz.Git.Manifest
import Buzz.Library.Results

/-! The callback of the pre-receive hook: what the policy endpoint checks before it looks at the
signature, and the bytes that are signed. -/

namespace Buzz.GitPerms

open Buzz.Audit List
open Buzz.Git (containsText isHexDigit startsWith)
open Library.Results Library.UniqueReading Nostr

structure HookRefUpdate where
  oldOid : String
  newOid : String
  refName : String
  isAncestor : Bool
  deriving DecidableEq

structure HookCallbackRequest where
  repoId : String
  repoOwner : String
  communityId : String
  pusherPubkey : String
  refUpdates : List HookRefUpdate
  timestamp : ℕ
  signature : String

/-- A character of a key: `is_ascii_hexdigit` and not `is_ascii_uppercase`. -/
def isKeyChar (c : Char) : Bool := isHexDigit c && !c.isUpper

def isKey (key : String) : Bool := key.utf8ByteSize == 64 && key.toList.all isKeyChar

def isOid (oid : String) : Bool := oid.utf8ByteSize == 40 && oid.toList.all isHexDigit

def isRefName (name : String) : Bool :=
  name != "" && name.utf8ByteSize ≤ 256 && startsWith name "refs/" &&
    !containsText name ".." && !(utf8 name).any fun b => decide (b ≤ 0x20) || b == 0x7f

def checkUpdate (update : HookRefUpdate) : Except String Unit := do
  require (isOid update.oldOid) "invalid old_oid"
  require (isOid update.newOid) "invalid new_oid"
  require (isRefName update.refName) "invalid ref_name"

def checkUpdates : List HookRefUpdate → Except String Unit
  | [] => .ok ()
  | update :: rest => do
    checkUpdate update
    checkUpdates rest

/-- The parsed community, or the text of the refusal. -/
def checkFields (parseUuid : String → Option Uuid) (req : HookCallbackRequest) :
    Except String Uuid := do
  require (req.repoId ≠ "" ∧ req.repoId.utf8ByteSize ≤ 64) "invalid repo_id"
  require (isKey req.repoOwner) "invalid repo_owner"
  require (isKey req.pusherPubkey) "invalid pusher_pubkey"
  let community ← okOr (parseUuid req.communityId) "invalid community_id"
  require (req.refUpdates ≠ [] ∧ req.refUpdates.length ≤ 500) "invalid ref_updates count"
  checkUpdates req.refUpdates
  .ok community

/-- Simple, hyphenated, URN and braced. -/
def UuidText (text : String) : Prop :=
  ∃ digits : List Char, (∀ c ∈ digits, isHexDigit c ∨ c = '-') ∧
    (text.toList = digits ∨ text.toList = "urn:uuid:".toList ++ digits ∨
      text.toList = '{' :: digits ++ ['}'])

def decimal (n : ℕ) : Bytes := utf8 (Nat.repr n)

def updatePayload (update : HookRefUpdate) : List Bytes :=
  [utf8 update.oldOid, utf8 update.newOid, decimal update.refName.utf8ByteSize, [0x3a],
    utf8 update.refName, [if update.isAncestor then 0x31 else 0x30]]

def refsSorted (updates : List HookRefUpdate) : List HookRefUpdate :=
  updates.insertionSort fun first second => first.refName ≤ second.refName

/-- What `compute_hmac` passes to `update`, call by call. -/
def macUpdates (req : HookCallbackRequest) : List Bytes :=
  [decimal req.repoId.utf8ByteSize, [0x3a], utf8 req.repoId, [0x7c], utf8 req.repoOwner, [0x7c],
    utf8 req.communityId, [0x7c], utf8 req.pusherPubkey, [0x7c]] ++
  (refsSorted req.refUpdates).flatMap updatePayload ++ [[0x7c], decimal req.timestamp]

def macInput (req : HookCallbackRequest) : Bytes := (macUpdates req).flatten

def computeHmac (hmacSha256 : Bytes → Bytes → Bytes) (secret : Bytes) (req : HookCallbackRequest) :
    Bytes :=
  hmacSha256 secret (macInput req)

section bytes

theorem isDigit_bounds {c : Char} (digit : c.isDigit) : 48 ≤ c.toNat ∧ c.toNat ≤ 57 := by
  simp only [Char.isDigit, Bool.and_eq_true, decide_eq_true_eq] at digit
  exact digit

theorem isHexDigit_bounds {c : Char} (digit : isHexDigit c) :
    48 ≤ c.toNat ∧ c.toNat ≤ 102 := by
  simp only [isHexDigit, Bool.or_eq_true, decide_eq_true_eq] at digit
  rcases digit with (decimal | ⟨low, high⟩) | ⟨low, high⟩
  · have bounds := isDigit_bounds decimal
    omega
  · have low' : 97 ≤ c.toNat := low
    have high' : c.toNat ≤ 102 := high
    omega
  · have low' : 65 ≤ c.toNat := low
    have high' : c.toNat ≤ 70 := high
    omega

theorem decimal_plain (n : ℕ) {code : ℕ} (small : code < 128) (other : 57 < code) :
    UInt8.ofNat code ∉ decimal n := by
  apply notMem_utf8 small
  intro c member
  rw [Nat.toList_repr] at member
  have bounds := isDigit_bounds (Nat.isDigit_of_mem_toDigits (by decide) (by decide) member)
  omega

theorem decimal_injective {first second : ℕ} (same : decimal first = decimal second) :
    first = second :=
  repr_injective (congrArg String.toList (utf8_injective same))

variable {before after : Bytes} {first second : String}

theorem read_text (sizes : first.utf8ByteSize = second.utf8ByteSize)
    (same : utf8 first ++ before = utf8 second ++ after) : first = second ∧ before = after := by
  rcases append_inj same (by rw [utf8_length, utf8_length, sizes]) with ⟨texts, rest⟩
  exact ⟨utf8_injective texts, rest⟩

theorem read_prefixed (same : decimal first.utf8ByteSize ++ 0x3a :: (utf8 first ++ before)
      = decimal second.utf8ByteSize ++ 0x3a :: (utf8 second ++ after)) :
    first = second ∧ before = after := by
  have plain (n : ℕ) : (0x3a : UInt8) ∉ decimal n := decimal_plain n (by decide) (by decide)
  rcases read_to (plain _) (plain _) same with ⟨lengths, rest⟩
  exact read_text (decimal_injective lengths) rest

end bytes

theorem isOid_size {oid : String} (valid : isOid oid) : oid.utf8ByteSize = 40 := by
  simp only [isOid, Bool.and_eq_true, beq_iff_eq] at valid
  exact valid.1

abbrev CheckedUpdate := {update : HookRefUpdate // checkUpdate update = .ok ()}

theorem checkUpdate_ok {update : HookRefUpdate} :
    checkUpdate update = .ok ()
      ↔ isOid update.oldOid ∧ isOid update.newOid ∧ isRefName update.refName := by
  constructor
  · intro checked
    rcases bind_ok checked with ⟨_, old, rest⟩
    rcases bind_ok rest with ⟨_, new, name⟩
    exact ⟨require_ok.mp old, require_ok.mp new, require_ok.mp name⟩
  · rintro ⟨old, new, name⟩
    simp [checkUpdate, require, old, new, name]

theorem checkUpdates_ok {updates : List HookRefUpdate} :
    checkUpdates updates = .ok () ↔ ∀ update ∈ updates, checkUpdate update = .ok () := by
  induction updates with
  | nil => simp [checkUpdates]
  | cons update rest ih =>
    rw [forall_mem_cons, ← ih]
    constructor
    · intro checked
      rcases bind_ok checked with ⟨_, first, others⟩
      exact ⟨first, others⟩
    · rintro ⟨first, others⟩
      simp [checkUpdates, first, others]

def updateBytes (update : HookRefUpdate) : Bytes := (updatePayload update).flatten

theorem updateBytes_code : PrefixCode fun update : CheckedUpdate => updateBytes update.val := by
  rintro ⟨first, checked⟩ ⟨second, checked'⟩ before after same
  have valid := checkUpdate_ok.mp checked
  have valid' := checkUpdate_ok.mp checked'
  simp only [updateBytes, updatePayload, flatten_cons, flatten_nil, append_nil,
    append_assoc, cons_append, nil_append] at same
  rcases read_text ((isOid_size valid.1).trans (isOid_size valid'.1).symm) same with ⟨old, rest⟩
  rcases read_text ((isOid_size valid.2.1).trans (isOid_size valid'.2.1).symm) rest
    with ⟨new, rest⟩
  rcases read_prefixed rest with ⟨name, rest⟩
  have flag : first.isAncestor = second.isAncestor := by
    have byte := (List.cons.inj rest).1
    cases isFirst : first.isAncestor <;> cases isSecond : second.isAncestor <;>
      simp [isFirst, isSecond] at byte ⊢
  apply Subtype.ext
  cases first
  cases second
  simp_all

theorem updateBytes_start (update : CheckedUpdate) (before after : Bytes) :
    updateBytes update.val ++ before ≠ 0x7c :: after := by
  intro same
  have valid := (checkUpdate_ok.mp update.property).1
  have size := isOid_size valid
  simp only [isOid, Bool.and_eq_true, all_eq_true] at valid
  have absent : (0x7c : UInt8) ∉ utf8 update.val.oldOid := by
    apply notMem_utf8 (by decide : 124 < 128)
    intro c member
    have bounds := isHexDigit_bounds (valid.2 c member)
    omega
  simp only [updateBytes, updatePayload, flatten_cons, append_assoc] at same
  cases shape : utf8 update.val.oldOid with
  | nil => simp [← utf8_length, shape] at size
  | cons byte rest =>
    rw [shape, cons_append] at same
    rw [shape, mem_cons, not_or] at absent
    exact absent.1 (List.cons.inj same).1.symm

theorem read_updates {first second : List HookRefUpdate} {before after : Bytes}
    (checked : checkUpdates first = .ok ()) (checked' : checkUpdates second = .ok ())
    (same : first.flatMap updateBytes ++ 0x7c :: before
      = second.flatMap updateBytes ++ 0x7c :: after) :
    first = second ∧ before = after := by
  rw [checkUpdates_ok] at checked checked'
  have marked {updates : List HookRefUpdate} (each : ∀ u ∈ updates, checkUpdate u = .ok ()) :
      ((updates.attachWith _ each).flatMap fun update : CheckedUpdate => updateBytes update.val)
        = updates.flatMap updateBytes := by
    calc
      _ = ((updates.attachWith _ each).map Subtype.val).flatMap updateBytes := by
        rw [flatMap_map]
      _ = updates.flatMap updateBytes := by rw [attachWith_map_subtype_val]
  rw [← marked checked, ← marked checked'] at same
  rcases updateBytes_code.read_until updateBytes_start same with ⟨lists, rest⟩
  have values := congrArg (List.map Subtype.val) lists
  rw [attachWith_map_subtype_val, attachWith_map_subtype_val] at values
  exact ⟨values, rest⟩

section requests

variable {parseUuid : String → Option Uuid}

structure Checked (parseUuid : String → Option Uuid) (req : HookCallbackRequest) : Prop where
  repoOwner : isKey req.repoOwner
  pusherPubkey : isKey req.pusherPubkey
  communityId : ∃ community, parseUuid req.communityId = some community
  refUpdates : checkUpdates req.refUpdates = .ok ()

theorem checked_of_checkFields {req : HookCallbackRequest} {community : Uuid}
    (ok : checkFields parseUuid req = .ok community) : Checked parseUuid req := by
  rcases bind_ok ok with ⟨_, _, rest⟩
  rcases bind_ok rest with ⟨_, owner, rest⟩
  rcases bind_ok rest with ⟨_, pusher, rest⟩
  rcases bind_ok rest with ⟨found, parsed, rest⟩
  rcases bind_ok rest with ⟨_, _, rest⟩
  rcases bind_ok rest with ⟨_, updates, _⟩
  exact ⟨require_ok.mp owner, require_ok.mp pusher, ⟨found, okOr_ok.mp parsed⟩, updates⟩

theorem isKey_size {key : String} (valid : isKey key) : key.utf8ByteSize = 64 := by
  simp only [isKey, Bool.and_eq_true, beq_iff_eq] at valid
  exact valid.1

theorem uuidText_plain {text : String} (form : UuidText text) : (0x7c : UInt8) ∉ utf8 text := by
  apply notMem_utf8 (by decide : 124 < 128)
  rcases form with ⟨digits, hex, shape⟩
  have inDigits : ∀ c ∈ digits, c.toNat < 128 ∧ c.toNat ≠ 124 := by
    intro c member
    rcases hex c member with digit | rfl
    · have bounds := isHexDigit_bounds digit
      omega
    · decide
  rcases shape with simple | urn | braced
  · rwa [simple]
  · rw [urn]
    simpa [or_imp, forall_and] using inDigits
  · rw [braced]
    simpa [or_imp, forall_and] using inDigits

structure SameSigned (first second : HookCallbackRequest) : Prop where
  repoId : first.repoId = second.repoId
  repoOwner : first.repoOwner = second.repoOwner
  communityId : first.communityId = second.communityId
  pusherPubkey : first.pusherPubkey = second.pusherPubkey
  timestamp : first.timestamp = second.timestamp
  refUpdates : first.refUpdates.Perm second.refUpdates

theorem refsSorted_perm (updates : List HookRefUpdate) : (refsSorted updates).Perm updates :=
  perm_insertionSort _ updates

theorem checkUpdates_refsSorted {updates : List HookRefUpdate}
    (checked : checkUpdates updates = .ok ()) : checkUpdates (refsSorted updates) = .ok () := by
  rw [checkUpdates_ok] at checked ⊢
  intro update member
  exact checked update ((refsSorted_perm updates).mem_iff.mp member)

theorem macInput_eq (req : HookCallbackRequest) :
    macInput req = decimal req.repoId.utf8ByteSize ++ 0x3a :: (utf8 req.repoId ++ 0x7c ::
      (utf8 req.repoOwner ++ 0x7c :: (utf8 req.communityId ++ 0x7c ::
        (utf8 req.pusherPubkey ++ 0x7c ::
          ((refsSorted req.refUpdates).flatMap updateBytes ++ 0x7c :: decimal req.timestamp))))) := by
  have updates (list : List HookRefUpdate) :
      (list.flatMap updatePayload).flatten = list.flatMap updateBytes := by
    induction list with
    | nil => rfl
    | cons update rest ih => simp [flatMap_cons, ih, updateBytes]
  simp [macInput, macUpdates, updates]

/-- The signed bytes have one reading among the requests that pass the checks. -/
theorem macInput_unambiguous (forms : ∀ text id, parseUuid text = some id → UuidText text)
    {first second : HookCallbackRequest} {community community' : Uuid}
    (ok : checkFields parseUuid first = .ok community)
    (ok' : checkFields parseUuid second = .ok community')
    (same : macInput first = macInput second) : SameSigned first second := by
  have checked := checked_of_checkFields ok
  have checked' := checked_of_checkFields ok'
  rcases checked.communityId with ⟨_, parsed⟩
  rcases checked'.communityId with ⟨_, parsed'⟩
  rw [macInput_eq, macInput_eq] at same
  rcases read_prefixed same with ⟨repoId, same⟩
  rcases read_text ((isKey_size checked.repoOwner).trans (isKey_size checked'.repoOwner).symm)
    (List.cons.inj same).2 with ⟨repoOwner, same⟩
  rcases read_to (uuidText_plain (forms _ _ parsed)) (uuidText_plain (forms _ _ parsed'))
    (List.cons.inj same).2 with ⟨communities, same⟩
  rcases read_text ((isKey_size checked.pusherPubkey).trans (isKey_size checked'.pusherPubkey).symm)
    same with ⟨pusherPubkey, same⟩
  rcases read_updates (checkUpdates_refsSorted checked.refUpdates)
    (checkUpdates_refsSorted checked'.refUpdates) (List.cons.inj same).2 with ⟨updates, same⟩
  refine ⟨repoId, repoOwner, utf8_injective communities, pusherPubkey, decimal_injective same, ?_⟩
  calc
    List.Perm first.refUpdates (refsSorted first.refUpdates) := (refsSorted_perm _).symm
    _ = refsSorted second.refUpdates := updates
    List.Perm _ second.refUpdates := refsSorted_perm _

def sampleCommunity : Uuid := .fill 7

def sampleParse (text : String) : Option Uuid :=
  if text = "07070707-0707-0707-0707-070707070707" then some sampleCommunity else none

def samplePush (refUpdates : List HookRefUpdate) : HookCallbackRequest where
  repoId := "a|b"
  repoOwner := String.ofList (replicate 64 'a')
  communityId := "07070707-0707-0707-0707-070707070707"
  pusherPubkey := String.ofList (replicate 64 'b')
  refUpdates
  timestamp := 1700000000
  signature := ""

def sampleUpdate (refName : String) : HookRefUpdate where
  oldOid := String.ofList (replicate 40 '0')
  newOid := String.ofList (replicate 40 'F')
  refName
  isAncestor := false

theorem sampleParse_forms (text : String) (id : Uuid) (parsed : sampleParse text = some id) :
    UuidText text := by
  unfold sampleParse at parsed
  split at parsed
  next shape =>
    subst shape
    exact ⟨_, by simp [isHexDigit], Or.inl rfl⟩
  · cases parsed

theorem macInput_unambiguous_order :
    SameSigned (samplePush [sampleUpdate "refs/heads/main", sampleUpdate "refs/heads/dev"])
      (samplePush [sampleUpdate "refs/heads/dev", sampleUpdate "refs/heads/main"]) := by
  have bothOk :
      checkFields sampleParse
          (samplePush [sampleUpdate "refs/heads/main", sampleUpdate "refs/heads/dev"])
        = .ok sampleCommunity ∧
      checkFields sampleParse
          (samplePush [sampleUpdate "refs/heads/dev", sampleUpdate "refs/heads/main"])
        = .ok sampleCommunity := by decide +kernel
  have sorted :
      refsSorted [sampleUpdate "refs/heads/main", sampleUpdate "refs/heads/dev"]
        = refsSorted [sampleUpdate "refs/heads/dev", sampleUpdate "refs/heads/main"] := by
    decide +kernel
  apply macInput_unambiguous sampleParse_forms bothOk.1 bothOk.2
  simp only [macInput, macUpdates, samplePush, sorted]

end requests

end Buzz.GitPerms
