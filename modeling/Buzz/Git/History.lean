import Buzz.Git.Writers

/-! What holds of the pointer's history and of every push in any interleaving. -/

namespace Buzz.Git

open Nostr Library.Transition List Option

variable (externals : Externals) (packObjects : PackObjects)

def installs (history : List Installed) (writer : ℕ) : List Installed :=
  history.filter (·.writer = some writer)

def ReportedAs (installed : List Installed) (writer : ℕ) : Phase → Prop
  | .succeeded manifest key => ∃ digest, key = manifestKey digest ∧
      installed = [⟨some writer, digest, manifest⟩]
  | .failed _ => installed.length ≤ 1
  | _ => installed = []

abbrev Reported (history : List Installed) (writer : ℕ) (phase : Phase) : Prop :=
  ReportedAs (installs history writer) writer phase

def ParentState.Observed (self : ParentState) : Prop :=
  (self.ifMatch = none ∧ self.parentDigest = none) ∨
    ∃ digest, self.ifMatch = some (externals.etag digest) ∧ self.parentDigest = some digest

def Ready (written : List Manifest) : Phase → Prop
  | .located tag digest => tag = externals.etag digest
  | .hydrated parent _ => parent.Observed externals
  | .snapshotted push => push.parent.Observed externals
  | .uploading push _ _ => push.parent.Observed externals
  | .capturing push _ => push.parent.Observed externals
  | .pushing push _ => push.parent.Observed externals
  | .composed parent manifest =>
    parent.Observed externals ∧ manifest.parent = parent.parentDigest
  | .written parent manifest key digest =>
    parent.Observed externals ∧ manifest.parent = parent.parentDigest ∧
      manifest ∈ written ∧
      digest = externals.digestHex (manifest.canonicalBytes externals.serde) ∧
      key = manifestKey digest
  | _ => True

structure Inv (world : World) : Prop where
  pointer : world.store.pointer = world.history.head?.map Installed.digest
  addressed : ∀ entry ∈ world.history, entry.manifest ∈ world.written ∧
    entry.digest = externals.digestHex (entry.manifest.canonicalBytes externals.serde)
  hashed : ∀ manifest ∈ world.written, manifest.canonicalBytes externals.serde ∈ world.hashed
  ready : ∀ writer, Ready externals world.written (world.phases writer)
  reported : ∀ writer, Reported world.history writer (world.phases writer)

variable {externals}

theorem inv_initial : Inv externals .initial where
  pointer := rfl
  addressed := nofun
  hashed := nofun
  ready := fun _ => trivial
  reported := fun _ => rfl

variable {phase : Phase}

theorem Ready.grow {written more : List Manifest} (grown : written ⊆ more)
    (ready : Ready externals written phase) : Ready externals more phase := by
  cases phase with
  | written parent manifest key digest =>
    exact ⟨ready.1, ready.2.1, grown ready.2.2.1, ready.2.2.2⟩
  | idle => trivial
  | located tag digest | hydrated parent limits | snapshotted push | uploading push pending keys
  | capturing push failure | pushing push pack | composed parent manifest => exact ready
  | lostRace | winnerLocated digest | succeeded manifest key | conflicted manifest key
  | failed error => trivial

theorem World.setPhase_phases (world : World) (writer other : ℕ) (phase : Phase) :
    (world.setPhase writer phase).phases other =
      if other = writer then phase else world.phases other :=
  Function.update_apply world.phases writer phase other

variable {world : World} {writer : ℕ}

theorem Inv.setPhase (inv : Inv externals world)
    (ready : Ready externals world.written phase) (reported : Reported world.history writer phase) :
    Inv externals (world.setPhase writer phase) := { inv with
  ready := by
    intro other
    rw [World.setPhase_phases]
    split
    · exact ready
    · exact inv.ready other
  reported := by
    intro other
    rw [World.setPhase_phases]
    split
    next same =>
      rw [same]
      exact reported
    · exact inv.reported other }

theorem Inv.putPack (inv : Inv externals world) (bytes : Bytes) :
    Inv externals (world.putPack externals bytes) := { inv with
  pointer := (Store.putImmutable_pointer world.store "packs" bytes).trans inv.pointer
  hashed := fun manifest member => mem_cons_of_mem _ (inv.hashed manifest member) }

theorem Inv.putManifest {world : World} (inv : Inv externals world) (manifest : Manifest) :
    Inv externals (world.putManifest externals manifest) where
  pointer := (Store.putImmutable_pointer world.store "manifests" _).trans inv.pointer
  addressed := fun entry member =>
    ⟨mem_cons_of_mem _ (inv.addressed entry member).1, (inv.addressed entry member).2⟩
  hashed := by
    intro other member
    rcases mem_cons.mp member with same | old
    · rw [same]
      exact mem_cons_self
    · exact mem_cons_of_mem _ (inv.hashed other old)
  ready := fun writer => (inv.ready writer).grow (subset_cons_self _ _)
  reported := inv.reported

variable {digest : String}

theorem Inv.parsePointer (inv : Inv externals world) {body : String}
    (read : world.store.pointer = some body) (parsed : parsePointer body = some digest) :
    digest = body := by
  have hex : ∀ c ∈ body.toList, isHexDigit c := by
    rw [inv.pointer] at read
    rcases map_eq_some_iff.mp read with ⟨entry, head, same⟩
    have known := (inv.addressed entry (mem_of_head? head)).2
    rw [← same, known]
    exact isHexDigit_digestHex externals _
  simp only [Git.parsePointer, trim_hex hex] at parsed
  split at parsed
  · exact (Option.some.inj parsed).symm
  · cases parsed

variable {manifest : Manifest}

theorem Inv.install (inv : Inv externals world) {writer : Option ℕ} {precond : Precond}
    {tag : String} (won : (world.store.putPointer externals digest precond).1 = .ok (.won tag))
    (written : manifest ∈ world.written)
    (named : digest = externals.digestHex (manifest.canonicalBytes externals.serde))
    {phases : ℕ → Phase} (ready : ∀ other, Ready externals world.written (phases other))
    (reported : ∀ other, Reported (⟨writer, digest, manifest⟩ :: world.history) other
      (phases other)) :
    Inv externals { world.install externals writer digest manifest precond with
      phases } where
  pointer := by
    change (world.store.putPointer externals digest precond).2.pointer = some digest
    rw [Store.putPointer_won won]
  addressed := by
    intro entry member
    rcases mem_cons.mp member with same | old
    · rw [same]
      exact ⟨written, named⟩
    · exact inv.addressed entry old
  hashed := inv.hashed
  ready
  reported

theorem installs_other {history : List Installed} {entry : Installed} {other : ℕ}
    (different : entry.writer ≠ some other) :
    installs (entry :: history) other = installs history other := by
  rw [installs, filter_cons_of_neg (by simpa using different)]
  rfl

theorem installs_own (history : List Installed) (writer : ℕ) (digest : String)
    (manifest : Manifest) :
    installs (⟨some writer, digest, manifest⟩ :: history) writer =
      ⟨some writer, digest, manifest⟩ :: installs history writer := by
  rw [installs, filter_cons_of_pos (by simp)]
  rfl

theorem Inv.advance (inv : Inv externals world)
    (silent : installs world.history writer = []) (ready : Ready externals world.written phase)
    (open_ : ReportedAs [] writer phase) :
    Inv externals (world.setPhase writer phase) := by
  apply inv.setPhase ready
  rw [Reported, silent]
  exact open_

theorem contentKey_manifests (bytes : Bytes) :
    externals.contentKey "manifests" bytes = manifestKey (externals.digestHex bytes) := by
  have joined : "manifests" ++ "/" = "manifests/" := by decide
  rw [Externals.contentKey, joined, manifestKey]

theorem digestFromManifestKey_manifestKey (digest : String) :
    digestFromManifestKey (manifestKey digest) = some digest :=
  stripPrefix_append "manifests/" digest

theorem Inv.won (inv : Inv externals world) {parent : ParentState} {key tag : String}
    (ready : world.phases writer = .written parent manifest key digest)
    (won : (world.store.putPointer externals digest parent.precond).1 = .ok (.won tag))
    (claim : Ready externals world.written phase)
    (reported : ReportedAs [⟨some writer, digest, manifest⟩] writer phase) :
    Inv externals ((world.install externals (some writer) digest manifest
      parent.precond).setPhase writer phase) := by
  have before := inv.ready writer
  have silent := inv.reported writer
  rw [ready] at before silent
  rcases before with ⟨-, -, written, named, -⟩
  apply inv.install won written named
  · intro other
    rw [Function.update_apply]
    split
    · exact claim
    · exact inv.ready other
  · intro other
    rw [Function.update_apply]
    split
    next same =>
      rw [Reported, same, installs_own, silent]
      exact reported
    next different =>
      have foreign : (some writer : Option ℕ) ≠ some other := by
        intro same
        exact different (Option.some.inj same).symm
      rw [Reported, installs_other foreign]
      exact inv.reported other

theorem Inv.step {next : World} {action : Action} (inv : Inv externals world)
    (step : Step externals packObjects world action next) : Inv externals next := by
  have known (writer : ℕ) (phase : Phase) (here : world.phases writer = phase) :
      Ready externals world.written phase ∧ Reported world.history writer phase := by
    rw [← here]
    exact ⟨inv.ready writer, inv.reported writer⟩
  cases step with
  | announceManifest => exact inv.putManifest seedManifest
  | announcePointer seeded won =>
    apply inv.install won seeded rfl inv.ready
    intro other
    have foreign : (none : Option ℕ) ≠ some other := nofun
    rw [Reported, installs_other foreign]
    exact inv.reported other
  | @locateFresh writer limits idle absent =>
    have before := known writer _ idle
    exact inv.advance before.2 (Or.inl ⟨rfl, rfl⟩) rfl
  | @locate writer tag body digest idle read parsed =>
    have before := known writer _ idle
    rcases map_eq_some_iff.mp read with ⟨current, present, same⟩
    cases same
    have seen := inv.parsePointer present parsed
    exact inv.advance before.2 (congrArg externals.etag seen.symm) rfl
  | @load writer limits tag digest bytes manifest located read parsed valid =>
    have before := known writer _ located
    exact inv.advance before.2 (Or.inr ⟨digest, congrArg some before.1, rfl⟩) rfl
  | @receive writer parent limits workspace refsAfter observedHead hydrated snapshot =>
    have before := known writer _ hydrated
    exact inv.advance before.2 before.1 rfl
  | @skipCompaction writer push snapshotted small
  | @captureCompacted writer push objectCount captured packs snapshotted large output prepared =>
    have before := known writer _ snapshotted
    exact inv.advance before.2 before.1 rfl
  | @uploadCompacted writer push pack pending keys uploading =>
    have before := known writer _ uploading
    exact (inv.putPack pack.pack).advance before.2 before.1 rfl
  | @composeCompacted writer push keys uploading valid =>
    have before := known writer _ uploading
    exact inv.advance before.2 ⟨before.1, rfl⟩ rfl
  | @failCompaction writer push error compacting =>
    rcases compacting with ⟨snapshotted, -⟩ | ⟨pending, keys, uploading⟩
    · have before := known writer _ snapshotted
      exact inv.advance before.2 before.1 rfl
    · have before := known writer _ uploading
      exact inv.advance before.2 before.1 rfl
  | @captureDelta writer push failure stdout pack capturing output prepared =>
    have before := known writer _ capturing
    exact inv.advance before.2 before.1 rfl
  | @captureNothing writer push failure stdout capturing output prepared valid =>
    have before := known writer _ capturing
    exact inv.advance before.2 ⟨before.1, rfl⟩ rfl
  | @pushDelta writer push pack pushing valid =>
    have before := known writer _ pushing
    exact (inv.putPack pack).advance before.2 ⟨before.1, rfl⟩ rfl
  | @putManifest writer parent manifest key digest composed put named =>
    have before := known writer _ composed
    have keyed : key = manifestKey (externals.digestHex
        (manifest.canonicalBytes externals.serde)) :=
      put.symm.trans ((Store.putImmutable_key _ _ _).trans (contentKey_manifests _))
    rw [keyed, digestFromManifestKey_manifestKey, Option.some.injEq] at named
    exact (inv.putManifest manifest).advance before.2
      ⟨before.1.1, before.1.2, mem_cons_self, named.symm, keyed.trans (named ▸ rfl)⟩ rfl
  | @putPointer writer parent manifest key digest tag ready won =>
    exact inv.won ready won trivial ⟨digest, (known writer _ ready).1.2.2.2.2, rfl⟩
  | @losePointer writer parent manifest key digest ready lost =>
    have before := known writer _ ready
    rcases world.store.putPointer_cases digest parent.precond with applied | unchanged
    · rcases applied with ⟨tag, outcome, -, -⟩
      rw [outcome] at lost
      cases lost
    · rw [unchanged.2]
      exact inv.advance before.2 trivial rfl
  | @loseResponse writer parent manifest key digest tag ready won =>
    exact inv.won ready won trivial (Nat.le_refl 1)
  | @reread writer tag body digest lost read parsed =>
    have before := known writer _ lost
    exact inv.advance before.2 trivial rfl
  | @readWinner writer digest bytes manifest located read parsed =>
    have before := known writer _ located
    exact inv.advance before.2 trivial rfl
  | @fail writer error running =>
    have silent : installs world.history writer = [] := by
      have reported := inv.reported writer
      cases phase : world.phases writer with
      | succeeded manifest key | conflicted manifest key | failed error =>
        rw [phase] at running
        cases running
      | _ =>
        rw [phase] at reported
        exact reported
    exact inv.advance silent trivial (Nat.zero_le 1)

variable (externals)

def CollisionFree (hashed : List Bytes) : Prop :=
  ∀ first ∈ hashed, ∀ second ∈ hashed,
    externals.sha256 first = externals.sha256 second → first = second

def RoundTrips (written : List Manifest) : Prop :=
  ∀ manifest ∈ written,
    externals.serde.fromSlice (manifest.canonicalBytes externals.serde) =
      some { manifest with packs := sortDedup manifest.packs }

variable {externals}

theorem Inv.digest_eq (inv : Inv externals world)
    (collisionFree : CollisionFree externals world.hashed)
    (roundTrips : RoundTrips externals world.written) {first second : Manifest}
    (known : first ∈ world.written) (member : second ∈ world.written)
    (same : externals.digestHex (first.canonicalBytes externals.serde) =
      externals.digestHex (second.canonicalBytes externals.serde)) :
    { first with packs := sortDedup first.packs } =
      { second with packs := sortDedup second.packs } := by
  have bytes := collisionFree _ (inv.hashed first known) _ (inv.hashed second member)
    (toHex_injective same)
  have read := roundTrips first known
  rw [bytes, roundTrips second member] at read
  exact (Option.some.inj read).symm

end Buzz.Git
