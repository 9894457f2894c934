import Buzz.Git.Publish
import Buzz.Library.Runs

/-! Any number of pushes to one repository, their accesses to the object store interleaved. -/

namespace Buzz.Git

open Nostr Library.Transition

/-- It is not run without refs. -/
structure PackObjects where
  delta : Revs → Bytes → Prop
  compacted : Revs → List CompactedPack → Prop

structure Push where
  parent : ParentState
  limits : PublishLimits
  refsAfter : Refs
  head : String

/-- First in `hydrate_for_write`, then in `cas_publish`. -/
inductive Phase
  | idle
  | located (etag digest : String)
  | hydrated (parent : ParentState) (limits : PublishLimits)
  | snapshotted (push : Push)
  | uploading (push : Push) (pending : List CompactedPack) (keys : List String)
  | capturing (push : Push) (compactionFailure : Option CasError)
  | pushing (push : Push) (pack : Bytes)
  | composed (parent : ParentState) (manifest : Manifest)
  | written (parent : ParentState) (manifest : Manifest) (manifestKey digest : String)
  | lostRace
  | winnerLocated (digest : String)
  | succeeded (manifest : Manifest) (manifestKey : String)
  | conflicted (winnerManifest : Manifest) (winnerManifestKey : String)
  | failed (error : CasError)

def Phase.finished : Phase → Bool
  | .succeeded .. | .conflicted .. | .failed .. => true
  | _ => false

structure Installed where
  writer : Option ℕ
  digest : String
  manifest : Manifest

/-- The history is newest first. `hashed` and `written` list what was ever put. -/
structure World where
  store : Store
  phases : ℕ → Phase
  history : List Installed
  hashed : List Bytes
  written : List Manifest

def World.initial : World := ⟨.empty, fun _ => .idle, [], [], []⟩

inductive Action
  | announceManifest
  | announcePointer
  | locateFresh (writer : ℕ) (limits : PublishLimits)
  | locate (writer : ℕ)
  | load (writer : ℕ) (limits : PublishLimits)
  | receive (writer : ℕ) (workspace : Workspace)
  | skipCompaction (writer : ℕ)
  | captureCompacted (writer : ℕ) (objectCount : ℕ) (captured : List CompactedPack)
  | uploadCompacted (writer : ℕ)
  | composeCompacted (writer : ℕ)
  | failCompaction (writer : ℕ) (error : CasError)
  | captureDelta (writer : ℕ) (stdout : Bytes)
  | pushDelta (writer : ℕ)
  | putManifest (writer : ℕ)
  | putPointer (writer : ℕ)
  | loseResponse (writer : ℕ)
  | reread (writer : ℕ)
  | readWinner (writer : ℕ)
  | fail (writer : ℕ) (error : CasError)

variable (externals : Externals) (packObjects : PackObjects)

namespace World

def setPhase (self : World) (writer : ℕ) (phase : Phase) : World :=
  { self with phases := Function.update self.phases writer phase }

def putPack (self : World) (bytes : Bytes) : World :=
  { self with
    store := (self.store.putPack externals bytes).2
    hashed := bytes :: self.hashed }

def putManifest (self : World) (manifest : Manifest) : World :=
  let bytes := manifest.canonicalBytes externals.serde
  { self with
    store := (self.store.putManifest externals bytes).2
    hashed := bytes :: self.hashed
    written := manifest :: self.written }

def install (self : World) (writer : Option ℕ) (digest : String) (manifest : Manifest)
    (precond : Precond) : World :=
  { self with
    store := (self.store.putPointer externals digest precond).2
    history := ⟨writer, digest, manifest⟩ :: self.history }

end World

def seedDigest : String := externals.digestHex (seedManifest.canonicalBytes externals.serde)

/-- Failures to materialize are `fail` steps. -/
inductive Step : World → Action → World → Prop
  | announceManifest {world : World} :
      Step world .announceManifest (world.putManifest externals seedManifest)
  | announcePointer {world : World} {tag : String} (known : seedManifest ∈ world.written)
      (won : (world.store.putPointer externals (seedDigest externals) .ifNoneMatchStar).1 =
        .ok (.won tag)) :
      Step world .announcePointer (world.install externals none (seedDigest externals)
        seedManifest .ifNoneMatchStar)
  | locateFresh {world : World} {writer : ℕ} {limits : PublishLimits}
      (idle : world.phases writer = .idle) (absent : world.store.getPointer externals = none) :
      Step world (.locateFresh writer limits) (world.setPhase writer (.hydrated .fresh limits))
  | locate {world : World} {writer : ℕ} {tag body digest : String}
      (idle : world.phases writer = .idle)
      (read : world.store.getPointer externals = some (tag, body))
      (parsed : parsePointer body = some digest) :
      Step world (.locate writer) (world.setPhase writer (.located tag digest))
  | load {world : World} {writer : ℕ} {limits : PublishLimits} {tag digest : String}
      {bytes : Bytes} {manifest : Manifest}
      (located : world.phases writer = .located tag digest)
      (read : world.store.getVerifiedLimited externals (manifestKey digest) digest
        maxManifestBytes = .ok bytes)
      (parsed : Manifest.fromBytes externals.serde bytes = .ok manifest)
      (valid : manifest.validate = .ok ()) :
      Step world (.load writer limits)
        (world.setPhase writer (.hydrated (.fromLoaded tag digest manifest) limits))
  | receive {world : World} {writer : ℕ} {parent : ParentState} {limits : PublishLimits}
      {workspace : Workspace} {refsAfter : Refs} {observedHead : String}
      (hydrated : world.phases writer = .hydrated parent limits)
      (snapshot : snapshotWorkspaceState workspace = .ok (refsAfter, observedHead)) :
      Step world (.receive writer workspace) (world.setPhase writer (.snapshotted
        ⟨parent, limits, refsAfter, resolvePublishedHead refsAfter observedHead parent.parent.head⟩))
  | skipCompaction {world : World} {writer : ℕ} {push : Push}
      (snapshotted : world.phases writer = .snapshotted push)
      (small : shouldCompact push.parent.parent.packs.length packCompactionThreshold = false) :
      Step world (.skipCompaction writer) (world.setPhase writer (.capturing push none))
  | captureCompacted {world : World} {writer : ℕ} {push : Push} {objectCount : ℕ}
      {captured packs : List CompactedPack}
      (snapshotted : world.phases writer = .snapshotted push)
      (large : shouldCompact push.parent.parent.packs.length packCompactionThreshold)
      (output : push.refsAfter.entries ≠ [] →
        packObjects.compacted (compactionRevs push.refsAfter) captured)
      (prepared : prepareCompaction push.limits push.parent.parent.packs.length push.refsAfter
        objectCount captured = .ok packs) :
      Step world (.captureCompacted writer objectCount captured)
        (world.setPhase writer (.uploading push packs []))
  | uploadCompacted {world : World} {writer : ℕ} {push : Push} {pack : CompactedPack}
      {pending : List CompactedPack} {keys : List String}
      (uploading : world.phases writer = .uploading push (pack :: pending) keys) :
      Step world (.uploadCompacted writer) ((world.putPack externals pack.pack).setPhase writer
        (.uploading push pending (keys ++ [(world.store.putPack externals pack.pack).1])))
  | composeCompacted {world : World} {writer : ℕ} {push : Push} {keys : List String}
      (uploading : world.phases writer = .uploading push [] keys)
      (valid : (composeCompactedAfter push.parent.parentDigest push.head push.refsAfter
        (sortDedup keys)).validate = .ok ()) :
      Step world (.composeCompacted writer) (world.setPhase writer (.composed push.parent
        (composeCompactedAfter push.parent.parentDigest push.head push.refsAfter
          (sortDedup keys))))
  | failCompaction {world : World} {writer : ℕ} {push : Push} {error : CasError}
      (compacting : (world.phases writer = .snapshotted push ∧
        shouldCompact push.parent.parent.packs.length packCompactionThreshold) ∨
        ∃ pending keys, world.phases writer = .uploading push pending keys) :
      Step world (.failCompaction writer error)
        (world.setPhase writer (.capturing push (some error)))
  | captureDelta {world : World} {writer : ℕ} {push : Push} {compactionFailure : Option CasError}
      {stdout pack : Bytes} (capturing : world.phases writer = .capturing push compactionFailure)
      (output : push.refsAfter.entries ≠ [] →
        packObjects.delta (deltaRevs push.parent.parent.refs push.refsAfter) stdout)
      (prepared : prepareDelta push.limits push.parent.parent.packs.length compactionFailure
        push.refsAfter stdout = .ok (some pack)) :
      Step world (.captureDelta writer stdout) (world.setPhase writer (.pushing push pack))
  | captureNothing {world : World} {writer : ℕ} {push : Push}
      {compactionFailure : Option CasError} {stdout : Bytes}
      (capturing : world.phases writer = .capturing push compactionFailure)
      (output : push.refsAfter.entries ≠ [] →
        packObjects.delta (deltaRevs push.parent.parent.refs push.refsAfter) stdout)
      (prepared : prepareDelta push.limits push.parent.parent.packs.length compactionFailure
        push.refsAfter stdout = .ok none)
      (valid : (composeAfter push.parent.parent push.parent.parentDigest push.head push.refsAfter
        none).validate = .ok ()) :
      Step world (.captureDelta writer stdout) (world.setPhase writer (.composed push.parent
        (composeAfter push.parent.parent push.parent.parentDigest push.head push.refsAfter none)))
  | pushDelta {world : World} {writer : ℕ} {push : Push} {pack : Bytes}
      (pushing : world.phases writer = .pushing push pack)
      (valid : (composeAfter push.parent.parent push.parent.parentDigest push.head push.refsAfter
        (some (world.store.putPack externals pack).1)).validate = .ok ()) :
      Step world (.pushDelta writer) ((world.putPack externals pack).setPhase writer
        (.composed push.parent (composeAfter push.parent.parent push.parent.parentDigest push.head
          push.refsAfter (some (world.store.putPack externals pack).1))))
  | putManifest {world : World} {writer : ℕ} {parent : ParentState} {manifest : Manifest}
      {key digest : String} (composed : world.phases writer = .composed parent manifest)
      (put : (world.store.putManifest externals
        (manifest.canonicalBytes externals.serde)).1 = key)
      (named : digestFromManifestKey key = some digest) :
      Step world (.putManifest writer) ((world.putManifest externals manifest).setPhase writer
        (.written parent manifest key digest))
  | putPointer {world : World} {writer : ℕ} {parent : ParentState} {manifest : Manifest}
      {key digest tag : String} (ready : world.phases writer = .written parent manifest key digest)
      (won : (world.store.putPointer externals digest parent.precond).1 = .ok (.won tag)) :
      Step world (.putPointer writer)
        ((world.install externals (some writer) digest manifest parent.precond).setPhase writer
          (.succeeded manifest key))
  | losePointer {world : World} {writer : ℕ} {parent : ParentState} {manifest : Manifest}
      {key digest : String} (ready : world.phases writer = .written parent manifest key digest)
      (lost : (world.store.putPointer externals digest parent.precond).1 = .ok .lostRace) :
      Step world (.putPointer writer) { world.setPhase writer .lostRace with
        store := (world.store.putPointer externals digest parent.precond).2 }
  | loseResponse {world : World} {writer : ℕ} {parent : ParentState} {manifest : Manifest}
      {key digest tag : String} (ready : world.phases writer = .written parent manifest key digest)
      (won : (world.store.putPointer externals digest parent.precond).1 = .ok (.won tag)) :
      Step world (.loseResponse writer)
        ((world.install externals (some writer) digest manifest parent.precond).setPhase writer
          (.failed (.backend .backend)))
  | reread {world : World} {writer : ℕ} {tag body digest : String}
      (lost : world.phases writer = .lostRace)
      (read : world.store.getPointer externals = some (tag, body))
      (parsed : parsePointer body = some digest) :
      Step world (.reread writer) (world.setPhase writer (.winnerLocated digest))
  | readWinner {world : World} {writer : ℕ} {digest : String} {bytes : Bytes}
      {manifest : Manifest} (located : world.phases writer = .winnerLocated digest)
      (read : world.store.getVerified externals (manifestKey digest) digest = .ok bytes)
      (parsed : Manifest.fromBytes externals.serde bytes = .ok manifest) :
      Step world (.readWinner writer)
        (world.setPhase writer (.conflicted manifest (manifestKey digest)))
  | fail {world : World} {writer : ℕ} {error : CasError}
      (running : (world.phases writer).finished = false) :
      Step world (.fail writer error) (world.setPhase writer (.failed error))

end Buzz.Git
