import Buzz.Git.Manifest

/-! The object store of the relay: create-only content-addressed objects and one pointer a
repository, written under a precondition. -/

namespace Buzz.Git

open Nostr List

/-- The hash, the object store's entity tag of a pointer body, and `serde_json`. -/
structure Externals where
  sha256 : Bytes → FixedBytes 32
  etag : String → String
  serde : Serde

inductive StoreError
  | backend
  | notFound (key : String)
  | digestMismatch (key expected actual : String)
  | objectTooLarge (key : String) (size max : ℕ)
  deriving DecidableEq

inductive Precond
  | ifMatch (etag : String)
  | ifNoneMatchStar
  deriving DecidableEq

inductive CasOutcome
  | won (etag : String)
  | lostRace
  deriving DecidableEq

structure Store where
  objects : String → Option Bytes
  pointer : Option String

def Store.empty : Store := ⟨fun _ => none, none⟩

variable (externals : Externals)

def Externals.digestHex (bytes : Bytes) : String := (externals.sha256 bytes).toHex

def Externals.contentKey (kind : String) (bytes : Bytes) : String :=
  kind ++ "/" ++ externals.digestHex bytes

theorem isHexDigit_hexDigit : ∀ n < 16, isHexDigit (hexDigit n) := by
  decide

theorem isHexDigit_digestHex (bytes : Bytes) :
    ∀ c ∈ (externals.digestHex bytes).toList, isHexDigit c := by
  intro c member
  rw [Externals.digestHex, FixedBytes.toHex, String.toList_ofList, hexEncode] at member
  rcases mem_flatMap.mp member with ⟨byte, -, digit⟩
  have bound := byte.toNat_lt
  rcases mem_cons.mp digit with high | low
  · rw [high]
    exact isHexDigit_hexDigit _ (by omega)
  · rw [mem_singleton.mp low]
    exact isHexDigit_hexDigit _ (by omega)

namespace Store

def putImmutable (self : Store) (kind : String) (bytes : Bytes) : String × Store :=
  let key := externals.contentKey kind bytes
  if (self.objects key).isSome then (key, self)
  else (key, { self with objects := Function.update self.objects key (some bytes) })

def putPack (self : Store) (bytes : Bytes) : String × Store :=
  self.putImmutable externals "packs" bytes

def putManifest (self : Store) (bytes : Bytes) : String × Store :=
  self.putImmutable externals "manifests" bytes

def getVerified (self : Store) (key expectedDigest : String) : Except StoreError Bytes :=
  match self.objects key with
  | none => .error (.notFound key)
  | some bytes =>
    let actual := externals.digestHex bytes
    if actual ≠ expectedDigest then .error (.digestMismatch key expectedDigest actual)
    else .ok bytes

def getVerifiedLimited (self : Store) (key expectedDigest : String) (maxBytes : ℕ) :
    Except StoreError Bytes :=
  match self.objects key with
  | none => .error (.notFound key)
  | some bytes =>
    if maxBytes < bytes.length then .error (.objectTooLarge key bytes.length maxBytes)
    else self.getVerified externals key expectedDigest

def getPointer (self : Store) : Option (String × String) :=
  self.pointer.map fun body => (externals.etag body, body)

/-- The conditional write. `If-Match` on a missing object is a client error. -/
def putPointer (self : Store) (body : String) (precond : Precond) :
    Except StoreError CasOutcome × Store :=
  match precond, self.pointer with
  | .ifNoneMatchStar, none => (.ok (.won (externals.etag body)), { self with pointer := some body })
  | .ifNoneMatchStar, some _ => (.ok .lostRace, self)
  | .ifMatch _, none => (.error .backend, self)
  | .ifMatch tag, some current =>
    if externals.etag current = tag then
      (.ok (.won (externals.etag body)), { self with pointer := some body })
    else (.ok .lostRace, self)

variable {externals}

theorem putImmutable_key (self : Store) (kind : String) (bytes : Bytes) :
    (self.putImmutable externals kind bytes).1 = externals.contentKey kind bytes := by
  simp only [putImmutable]
  split
  · rfl
  · rfl

theorem putImmutable_pointer (self : Store) (kind : String) (bytes : Bytes) :
    (self.putImmutable externals kind bytes).2.pointer = self.pointer := by
  simp only [putImmutable]
  split
  · rfl
  · rfl

variable {key : String} {stored : Bytes}

theorem putImmutable_grows (self : Store) (kind : String) (bytes : Bytes)
    (here : self.objects key = some stored) :
    (self.putImmutable externals kind bytes).2.objects key = some stored := by
  simp only [putImmutable]
  split
  · exact here
  next absent =>
    have other : key ≠ externals.contentKey kind bytes := by
      intro same
      rw [← same, here] at absent
      exact absent rfl
    exact (Function.update_of_ne other _ _).trans here

theorem putImmutable_cases (self : Store) (kind : String) (bytes : Bytes)
    (here : (self.putImmutable externals kind bytes).2.objects key = some stored) :
    self.objects key = some stored ∨
      key = externals.contentKey kind bytes ∧ stored = bytes := by
  simp only [putImmutable] at here
  split at here
  · exact .inl here
  · change Function.update self.objects _ (some bytes) key = some stored at here
    by_cases same : key = externals.contentKey kind bytes
    · rw [same, Function.update_self, Option.some.injEq] at here
      exact .inr ⟨same, here.symm⟩
    · rw [Function.update_of_ne same] at here
      exact .inl here

theorem putImmutable_present (self : Store) (kind : String) (bytes : Bytes) :
    ((self.putImmutable externals kind bytes).2.objects
      (externals.contentKey kind bytes)).isSome := by
  simp only [putImmutable]
  split
  · assumption
  · change (Function.update self.objects _ (some bytes) _).isSome
    rw [Function.update_self]
    rfl

variable {self : Store} {digest : String}

theorem getVerified_ok {bytes : Bytes} (read : self.getVerified externals key digest = .ok bytes) :
    self.objects key = some bytes ∧ externals.digestHex bytes = digest := by
  unfold getVerified at read
  split at read
  · cases read
  next stored here =>
    simp only at read
    split at read
    · cases read
    next same =>
      cases read
      exact ⟨here, not_not.mp same⟩

theorem getVerifiedLimited_ok {maxBytes : ℕ} {bytes : Bytes}
    (read : self.getVerifiedLimited externals key digest maxBytes = .ok bytes) :
    self.objects key = some bytes ∧ externals.digestHex bytes = digest := by
  unfold getVerifiedLimited at read
  split at read
  · cases read
  · split at read
    · cases read
    · exact getVerified_ok read

theorem putPointer_objects (self : Store) (body : String) (precond : Precond) :
    (self.putPointer externals body precond).2.objects = self.objects := by
  unfold putPointer
  split
  · rfl
  · rfl
  · rfl
  · split
    · rfl
    · rfl

theorem putPointer_create (absent : self.pointer = none) (body : String) :
    self.putPointer externals body .ifNoneMatchStar =
      (.ok (.won (externals.etag body)), { self with pointer := some body }) := by
  unfold putPointer
  rw [absent]

theorem putPointer_exists {current : String} (present : self.pointer = some current)
    (body : String) : self.putPointer externals body .ifNoneMatchStar = (.ok .lostRace, self) := by
  unfold putPointer
  rw [present]

theorem putPointer_cases (self : Store) (body : String) (precond : Precond) :
    (∃ tag, (self.putPointer externals body precond).1 = .ok (.won tag) ∧
      (self.putPointer externals body precond).2 = { self with pointer := some body } ∧
      match precond with
      | .ifNoneMatchStar => self.pointer = none
      | .ifMatch expected => self.pointer.map externals.etag = some expected) ∨
    ((∀ tag, (self.putPointer externals body precond).1 ≠ .ok (.won tag)) ∧
      (self.putPointer externals body precond).2 = self) := by
  unfold putPointer
  split
  next absent => exact .inl ⟨_, rfl, rfl, absent⟩
  · exact .inr ⟨nofun, rfl⟩
  · exact .inr ⟨nofun, rfl⟩
  next tag current present =>
    split
    next same =>
      refine .inl ⟨_, rfl, rfl, ?_⟩
      simp only
      rw [present, Option.map_some, same]
    · exact .inr ⟨nofun, rfl⟩

theorem putPointer_won {body tag : String} {precond : Precond}
    (won : (self.putPointer externals body precond).1 = .ok (.won tag)) :
    (self.putPointer externals body precond).2 = { self with pointer := some body } := by
  rcases self.putPointer_cases body precond with applied | unchanged
  · rcases applied with ⟨_, -, stored, -⟩
    exact stored
  · exact absurd won (unchanged.1 tag)

end Store

end Buzz.Git
