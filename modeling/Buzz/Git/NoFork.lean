import Buzz.Git.History
import Buzz.Library.Forest

/-! The pointer has one chain of manifests: every manifest installed names the one installed
before it, whatever the interleaving of the pushes. -/

namespace Buzz.Git

open Nostr Library.ParentChain Library.Transition List

variable {externals : Externals} (packObjects : PackObjects)

abbrev Chained (history : List Installed) : Prop :=
  Linked Installed.digest (·.manifest.parent) history

variable {world : World}

theorem Inv.follows (inv : Inv externals world)
    (etagInjective : Function.Injective externals.etag) {parent : ParentState}
    (observed : parent.Observed externals) {digest tag : String}
    (won : (world.store.putPointer externals digest parent.precond).1 = .ok (.won tag)) :
    parent.parentDigest = world.history.head?.map Installed.digest := by
  rcases world.store.putPointer_cases digest parent.precond with applied | unchanged
  · rcases applied with ⟨_, -, -, condition⟩
    rcases observed with fresh | ⟨seen, tagged, named⟩
    · have precond : parent.precond = .ifNoneMatchStar := by
        rw [ParentState.precond, fresh.1]
      rw [precond] at condition
      rw [fresh.2, ← inv.pointer]
      exact condition.symm
    · have precond : parent.precond = .ifMatch (externals.etag seen) := by
        rw [ParentState.precond, tagged]
      rw [precond] at condition
      rcases Option.map_eq_some_iff.mp condition with ⟨current, present, same⟩
      rw [named, ← inv.pointer, present, etagInjective same]
  · exact absurd won (unchanged.1 tag)

variable {next : World} {action : Action}

/-- An installed manifest names what its push observed. -/
theorem step_history (inv : Inv externals world)
    (step : Step externals packObjects world action next) :
    next.history = world.history ∨
      ∃ writer digest manifest parent tag, ParentState.Observed externals parent ∧
        manifest.parent = parent.parentDigest ∧ manifest ∈ world.written ∧
        (world.store.putPointer externals digest parent.precond).1 = .ok (.won tag) ∧
        next.history = ⟨writer, digest, manifest⟩ :: world.history := by
  cases step with
  | announcePointer seeded won =>
    exact .inr ⟨none, _, seedManifest, .fresh, _, .inl ⟨rfl, rfl⟩, rfl, seeded, won, rfl⟩
  | @putPointer writer parent manifest key digest tag ready won
  | @loseResponse writer parent manifest key digest tag ready won =>
    have before := inv.ready writer
    rw [ready] at before
    exact .inr ⟨_, _, _, parent, _, before.1, before.2.1, before.2.2.1, won, rfl⟩
  | announceManifest | locateFresh | locate | load | receive | skipCompaction | captureCompacted
  | uploadCompacted | composeCompacted | failCompaction | captureDelta | captureNothing
  | pushDelta | putManifest | losePointer | reread | readWinner | fail => exact .inl rfl

theorem chained_step (etagInjective : Function.Injective externals.etag) (inv : Inv externals world)
    (chained : Chained world.history) (step : Step externals packObjects world action next) :
    Chained next.history := by
  rcases step_history packObjects inv step with same | installed
  · rw [same]
    exact chained
  · rcases installed with ⟨writer, digest, manifest, parent, tag, observed, parented, -, won, shape⟩
    rw [shape]
    exact ⟨parented.trans (inv.follows etagInjective observed won), chained⟩

theorem lostRace_store {writer : ℕ}
    (step : Step externals packObjects world (.putPointer writer) next)
    (lost : next.phases writer = .lostRace) : next.store = world.store := by
  cases step with
  | putPointer ready won =>
    rw [World.setPhase_phases, if_pos rfl] at lost
    cases lost
  | @losePointer _ parent manifest key digest ready refused =>
    rcases world.store.putPointer_cases digest parent.precond with applied | unchanged
    · rcases applied with ⟨tag, outcome, -, -⟩
      rw [outcome] at refused
      cases refused
    · exact unchanged.2

/-- Each entry names the one before it; a success is there once. -/
theorem no_fork {actions : List Action} {world : World}
    (etagInjective : Function.Injective externals.etag)
    (run : Run (Step externals packObjects) .initial actions world)
    (collisionFree : CollisionFree externals world.hashed)
    (roundTrips : RoundTrips externals world.written) :
    world.store.pointer = world.history.head?.map Installed.digest ∧
      Chained world.history ∧
      (world.history.map Installed.digest).Nodup ∧
      (∀ writer, Reported world.history writer (world.phases writer)) ∧
      ∀ writer next, Step externals packObjects world (.putPointer writer) next →
        next.phases writer = .lostRace → next.store = world.store := by
  have both : Inv externals world ∧ Chained world.history := by
    apply @Run.invariant _ _ _ (fun state => Inv externals state ∧ Chained state.history) _ _ _ _
      run ⟨inv_initial, trivial⟩
    intro state action next known step
    exact ⟨known.1.step packObjects step,
      chained_step packObjects etagInjective known.1 known.2 step⟩
  rcases both with ⟨inv, chained⟩
  refine ⟨inv.pointer, chained, ?_, inv.reported, ?_⟩
  · apply chained.nodup
    intro first known second member same
    have firstAddressed := inv.addressed first known
    have secondAddressed := inv.addressed second member
    rw [firstAddressed.2, secondAddressed.2] at same
    have equal := inv.digest_eq collisionFree roundTrips firstAddressed.1 secondAddressed.1 same
    have parents := congrArg Manifest.parent equal
    exact parents
  · intro writer next step lost
    exact lostRace_store packObjects step lost

def sampleOid : String := "3b18e512dba79e4c8300dd08aeb37f8e728b8dad"

def samplePack : Bytes := [80, 65, 67, 75]

def samplePackKey : String :=
  "packs/0a1f4adb6f560d2864be0441d942f0e08b283991b35f574673d715ed6769409d"

def sampleManifest : Manifest where
  version := 1
  head := "refs/heads/main"
  refs := ⟨[("refs/heads/main", sampleOid)], pairwise_singleton _ _⟩
  packs := [samplePackKey]
  parent := none

def sampleText : String :=
  "\x7b\"version\":1,\"head\":\"refs/heads/main\",\"refs\":\x7b\"refs/heads/main\":\"" ++ sampleOid ++
    "\"\x7d,\"packs\":[\"" ++ samplePackKey ++ "\"],\"parent\":null\x7d"

@[irreducible] def sampleBytes : Bytes := sampleText.toList.map fun c => UInt8.ofNat c.toNat

def sampleSha256 (bytes : Bytes) : FixedBytes 32 :=
  if bytes = samplePack then
    ⟨[10, 31, 74, 219, 111, 86, 13, 40, 100, 190, 4, 65, 217, 66, 240, 224,
      139, 40, 57, 145, 179, 95, 87, 70, 115, 215, 21, 237, 103, 105, 64, 157], rfl⟩
  else
    ⟨[217, 149, 44, 252, 200, 148, 172, 195, 86, 146, 230, 29, 107, 186, 74, 23,
      164, 210, 254, 160, 159, 84, 206, 186, 160, 178, 29, 45, 62, 90, 4, 54], rfl⟩

def sampleDigest : String := "d9952cfcc894acc35692e61d6bba4a17a4d2fea09f54cebaa0b21d2d3e5a0436"

def sampleTag : String := "\"5f3ab6ed2521edcad320c8f7418d0146\""

def sampleEtag (body : String) : String := if body = sampleDigest then sampleTag else "W/" ++ body


def sampleSerde : Serde where
  toVec manifest := if manifest = sampleManifest then sampleBytes else []
  fromSlice bytes := if bytes = sampleBytes then some sampleManifest else none

def sampleExternals : Externals := ⟨sampleSha256, sampleEtag, sampleSerde⟩

def sampleWorkspace : Workspace :=
  ⟨["refs/heads/main " ++ sampleOid], 57, some "refs/heads/main\n"⟩

def sampleLimits : PublishLimits := ⟨0, 1000, 1000⟩

def samplePackObjects : PackObjects where
  delta revs stdout := revs.positive = [sampleOid] ∧ revs.negative = [] ∧ stdout = samplePack
  compacted _ _ := False

def samplePush : Push := ⟨.fresh, sampleLimits, sampleManifest.refs, sampleManifest.head⟩

theorem sample_computed :
    snapshotWorkspaceState sampleWorkspace = .ok (sampleManifest.refs, sampleManifest.head) ∧
    resolvePublishedHead sampleManifest.refs sampleManifest.head "" = sampleManifest.head ∧
    prepareDelta sampleLimits 0 none sampleManifest.refs samplePack = .ok (some samplePack) ∧
    sampleExternals.contentKey "packs" samplePack = samplePackKey ∧
    composeAfter ParentState.fresh.parent none sampleManifest.head sampleManifest.refs
      (some samplePackKey) = sampleManifest ∧
    sampleManifest.validate = .ok () := by
  refine ⟨?_, ?_, ?_, ?_, ?_, ?_⟩ <;> decide +kernel

theorem sample_digests : sampleExternals.digestHex sampleBytes = sampleDigest ∧
    sampleSha256 sampleBytes ≠ sampleSha256 samplePack ∧ sampleTag.toList.head? = some '"' := by
  refine ⟨?_, ?_, ?_⟩ <;> decide +kernel

theorem sample_sorted : sortDedup sampleManifest.packs = sampleManifest.packs := rfl

theorem sample_bytes : sampleManifest.canonicalBytes sampleSerde = sampleBytes := by
  rw [Manifest.canonicalBytes, sample_sorted]
  change (if sampleManifest = sampleManifest then sampleBytes else []) = sampleBytes
  exact if_pos rfl

theorem sampleTag_ne (body : String) : sampleTag ≠ "W/" ++ body := by
  intro same
  have letters := congrArg (fun text : String => text.toList.head?) same
  have weak : "W/".toList = ['W', '/'] := by decide
  simp only [String.toList_append, weak, sample_digests.2.2, cons_append, head?_cons] at letters
  exact absurd letters (by decide)

theorem sampleEtag_injective : Function.Injective sampleEtag := by
  intro first second same
  unfold sampleEtag at same
  split at same
  · split at same
    next here there => rw [here, there]
    · exact absurd same (sampleTag_ne second)
  · split at same
    · exact absurd same.symm (sampleTag_ne first)
    · have lists := congrArg String.toList same
      rw [String.toList_append, String.toList_append] at lists
      exact String.toList_inj.mp (append_cancel_left lists)

def sampleActions (writer : ℕ) : List Action :=
  [.locateFresh writer sampleLimits, .receive writer sampleWorkspace, .skipCompaction writer,
    .captureDelta writer samplePack, .pushDelta writer, .putManifest writer]

def sampleWritten : Phase :=
  .written .fresh sampleManifest (manifestKey sampleDigest) sampleDigest

theorem sample_ready {world : World} {writer : ℕ} (idle : world.phases writer = .idle)
    (absent : world.store.pointer = none) :
    ∃ next, Run (Step sampleExternals samplePackObjects) world (sampleActions writer) next ∧
      next.phases = Function.update world.phases writer sampleWritten ∧
      next.store.pointer = none ∧ next.history = world.history ∧
      next.written = sampleManifest :: world.written ∧
      next.hashed = sampleBytes :: samplePack :: world.hashed := by
  obtain ⟨snapshot, head, delta, packKey, same, valid⟩ := sample_computed
  have here (state : World) (phase : Phase) : (state.setPhase writer phase).phases writer = phase := by
    rw [World.setPhase_phases, if_pos rfl]
  have located : world.store.getPointer sampleExternals = none := by
    rw [Store.getPointer, absent]
    rfl
  have key (store : Store) : (store.putPack sampleExternals samplePack).1 = samplePackKey :=
    (Store.putImmutable_key store "packs" samplePack).trans packKey
  let hydrated := world.setPhase writer (.hydrated .fresh sampleLimits)
  let snapshotted := hydrated.setPhase writer (.snapshotted samplePush)
  let capturing := snapshotted.setPhase writer (.capturing samplePush none)
  let pushing := capturing.setPhase writer (.pushing samplePush samplePack)
  let composed := (pushing.putPack sampleExternals samplePack).setPhase writer
    (.composed .fresh sampleManifest)
  let written := (composed.putManifest sampleExternals sampleManifest).setPhase writer sampleWritten
  have received : Step sampleExternals samplePackObjects hydrated (.receive writer sampleWorkspace)
      snapshotted := by
    have step := @Step.receive sampleExternals samplePackObjects hydrated writer .fresh
      sampleLimits sampleWorkspace sampleManifest.refs sampleManifest.head (here _ _)
      snapshot
    change resolvePublishedHead sampleManifest.refs sampleManifest.head
      ParentState.fresh.parent.head = _ at head
    rw [head] at step
    exact step
  have pushed : Step sampleExternals samplePackObjects pushing (.pushDelta writer) composed := by
    have step := @Step.pushDelta sampleExternals samplePackObjects pushing writer samplePush
      samplePack (here _ _)
    rw [key] at step
    change composeAfter samplePush.parent.parent samplePush.parent.parentDigest samplePush.head
      samplePush.refsAfter _ = _ at same
    rw [same] at step
    exact step valid
  have put : Step sampleExternals samplePackObjects composed (.putManifest writer) written := by
    apply Step.putManifest (here _ _)
    · rw [Store.putManifest, Store.putImmutable_key, contentKey_manifests]
      change manifestKey (sampleExternals.digestHex (sampleManifest.canonicalBytes sampleSerde)) = _
      rw [sample_bytes, sample_digests.1]
    · exact digestFromManifestKey_manifestKey sampleDigest
  refine ⟨written, ?_, ?_, ?_, rfl, rfl, ?_⟩
  · exact .cons (.locateFresh idle located) <| .cons received <|
      .cons (.skipCompaction (here _ _) rfl) <|
      .cons (.captureDelta (here _ _) (fun _ => ⟨rfl, rfl, rfl⟩) delta) <|
      .cons pushed <| .cons put (.nil _)
  · simp only [written, composed, pushing, capturing, snapshotted, hydrated, World.setPhase,
      World.putPack, World.putManifest, Function.update_idem]
  · change (Store.putManifest sampleExternals composed.store _).2.pointer = none
    rw [Store.putManifest, Store.putImmutable_pointer]
    change (Store.putPack sampleExternals pushing.store samplePack).2.pointer = none
    rw [Store.putPack, Store.putImmutable_pointer]
    exact absent
  · change sampleManifest.canonicalBytes sampleSerde :: samplePack :: world.hashed = _
    rw [sample_bytes]

theorem sample_collisionFree {hashed : List Bytes}
    (known : ∀ bytes ∈ hashed, bytes = sampleBytes ∨ bytes = samplePack) :
    CollisionFree sampleExternals hashed := by
  have different := sample_digests.2.1
  intro first member second other same
  rcases known first member with rfl | rfl
  · rcases known second other with rfl | rfl
    · rfl
    · exact absurd same different
  · rcases known second other with rfl | rfl
    · exact absurd same.symm different
    · rfl

theorem sample_roundTrips {written : List Manifest}
    (known : ∀ manifest ∈ written, manifest = sampleManifest) :
    RoundTrips sampleExternals written := by
  intro manifest member
  rw [known manifest member]
  change sampleSerde.fromSlice (sampleManifest.canonicalBytes sampleSerde) = _
  rw [sample_bytes, sample_sorted]
  exact if_pos rfl

theorem no_fork_race : ∃ world : World,
    (world.phases 0 = .succeeded sampleManifest (manifestKey sampleDigest) ∧
      world.phases 1 = .lostRace) ∧
    world.store.pointer = world.history.head?.map Installed.digest ∧
      Chained world.history ∧
      (world.history.map Installed.digest).Nodup ∧
      (∀ writer, Reported world.history writer (world.phases writer)) ∧
      ∀ writer next, Step sampleExternals samplePackObjects world (.putPointer writer) next →
        next.phases writer = .lostRace → next.store = world.store := by
  rcases @sample_ready .initial 0 rfl rfl with
    ⟨first, firstRun, firstPhases, firstPointer, firstHistory, firstWritten, firstHashed⟩
  have idle : first.phases 1 = .idle := by
    rw [firstPhases]
    rfl
  rcases sample_ready idle firstPointer with
    ⟨second, secondRun, secondPhases, secondPointer, secondHistory, secondWritten, secondHashed⟩
  have ready : second.phases 0 = sampleWritten := by
    rw [secondPhases, firstPhases]
    rfl
  have won : (second.store.putPointer sampleExternals sampleDigest .ifNoneMatchStar).1 =
      .ok (.won sampleTag) := by
    have tagged : sampleEtag sampleDigest = sampleTag := if_pos rfl
    rw [Store.putPointer_create secondPointer]
    exact congrArg (fun tag => Except.ok (CasOutcome.won tag)) tagged
  let third := (second.install sampleExternals (some 0) sampleDigest sampleManifest
    ParentState.fresh.precond).setPhase 0 (.succeeded sampleManifest (manifestKey sampleDigest))
  have behind : third.phases 1 = sampleWritten := by
    change Function.update second.phases 0
      (.succeeded sampleManifest (manifestKey sampleDigest)) 1 = _
    rw [secondPhases]
    rfl
  have taken : third.store.pointer = some sampleDigest := by
    change (second.store.putPointer sampleExternals sampleDigest .ifNoneMatchStar).2.pointer = _
    rw [Store.putPointer_create secondPointer]
  have lost : (third.store.putPointer sampleExternals sampleDigest .ifNoneMatchStar).1 =
      .ok .lostRace := by
    rw [Store.putPointer_exists taken]
  have run := firstRun.append (secondRun.append (.cons (.putPointer ready won)
    (.cons (.losePointer behind lost) (.nil _))))
  have hashed : ∀ bytes ∈ second.hashed, bytes = sampleBytes ∨ bytes = samplePack := by
    rw [secondHashed, firstHashed]
    simp [World.initial]
  have written : ∀ manifest ∈ second.written, manifest = sampleManifest := by
    rw [secondWritten, firstWritten]
    simp [World.initial]
  exact ⟨_, ⟨rfl, rfl⟩, no_fork samplePackObjects sampleEtag_injective run
    (sample_collisionFree hashed) (sample_roundTrips written)⟩

end Buzz.Git
