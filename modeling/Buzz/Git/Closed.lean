import Buzz.Git.NoFork
import Buzz.Library.Reachability

/-! Every manifest that is installed can be cloned: its packs are in the store, and together
they hold all that its refs reach. -/

namespace Buzz.Git

open Nostr Library.Reachability Library.Transition List Option

variable (externals : Externals) (packObjects : PackObjects)
variable (refers : String → String → Prop) (contents : Bytes → Set String)

/-- What the positive tips reach and the negative ones do not. -/
structure Exact : Prop where
  delta : ∀ revs stdout, packObjects.delta revs stdout →
    contents stdout = closure refers revs.positive \ closure refers revs.negative
  compacted : ∀ revs packs, packObjects.compacted revs packs →
    {object | ∃ pack ∈ packs, object ∈ contents pack.pack} =
      closure refers revs.positive \ closure refers revs.negative
  empty : contents [] = ∅

def packed (store : Store) (keys : List String) : Set String :=
  {object | ∃ key ∈ keys, ∃ bytes, store.objects key = some bytes ∧ object ∈ contents bytes}

def pendingObjects (pending : List CompactedPack) : Set String :=
  {object | ∃ pack ∈ pending, object ∈ contents pack.pack}

def Stored (store : Store) (keys : List String) : Prop :=
  ∀ key ∈ keys, ∃ bytes, key = externals.contentKey "packs" bytes ∧
    store.objects key = some bytes

structure Complete (store : Store) (refs : Refs) (packs : List String) : Prop where
  stored : Stored externals store packs
  covered : closure refers refs.values ⊆ packed contents store packs

structure Published (store : Store) (manifest : Manifest) : Prop where
  valid : manifest.validate = .ok ()
  complete : Complete externals refers contents store manifest.refs manifest.packs

def Backed (store : Store) (written : List Manifest) : Phase → Prop
  | .located _ digest => ∃ manifest ∈ written,
      digest = externals.digestHex (manifest.canonicalBytes externals.serde)
  | .hydrated parent _ =>
    Complete externals refers contents store parent.parent.refs parent.parent.packs
  | .snapshotted push =>
    Complete externals refers contents store push.parent.parent.refs push.parent.parent.packs
  | .uploading push pending keys =>
    Complete externals refers contents store push.parent.parent.refs push.parent.parent.packs ∧
      Stored externals store keys ∧
      closure refers push.refsAfter.values ⊆
        packed contents store keys ∪ pendingObjects contents pending
  | .capturing push _ =>
    Complete externals refers contents store push.parent.parent.refs push.parent.parent.packs
  | .pushing push pack =>
    Complete externals refers contents store push.parent.parent.refs push.parent.parent.packs ∧
      closure refers push.refsAfter.values \ closure refers push.parent.parent.refs.values ⊆
        contents pack
  | .composed _ manifest => Published externals refers contents store manifest ∧
      sortDedup manifest.packs = manifest.packs
  | _ => True

structure Sound (world : World) : Prop where
  objects : ∀ key bytes, world.store.objects key = some bytes →
    bytes ∈ world.hashed ∧ ∃ kind, key = externals.contentKey kind bytes
  written : ∀ manifest ∈ world.written,
    Published externals refers contents world.store manifest ∧
      sortDedup manifest.packs = manifest.packs
  backed : ∀ writer,
    Backed externals refers contents world.store world.written (world.phases writer)

variable {externals refers contents}

variable {limits : PublishLimits} {packsBefore : ℕ} {refsAfter : Refs}
  {captured packs : List CompactedPack} {objectCount : ℕ}

theorem prepareCompaction_ok
    (prepared : prepareCompaction limits packsBefore refsAfter objectCount captured = .ok packs) :
    refsAfter.entries = [] ∨ (refsAfter.entries ≠ [] ∧ packs = captured) := by
  by_cases empty : refsAfter.entries = []
  · exact .inl empty
  · right
    refine ⟨empty, ?_⟩
    rw [prepareCompaction, if_neg empty] at prepared
    split at prepared
    · cases prepared
    · split at prepared
      · cases prepared
      · cases checked : checkCompactedSizes limits captured 0 with
        | error failure =>
          rw [checked] at prepared
          cases prepared
        | ok total =>
          rw [checked] at prepared
          change (if _ then Except.ok captured else _) = Except.ok packs at prepared
          split at prepared
          · cases prepared
            rfl
          · cases prepared

variable {stdout : Bytes}

theorem capturePack_ok
    {captured : Option Bytes} (capture : capturePack limits refsAfter stdout = .ok captured) :
    (refsAfter.entries = [] ∧ captured = none) ∨
      (refsAfter.entries ≠ [] ∧ stdout = captured.getD []) := by
  rw [capturePack] at capture
  split at capture
  next empty =>
    cases capture
    exact .inl ⟨empty, rfl⟩
  next refs =>
    split at capture
    · cases capture
    · split at capture
      next nothing =>
        cases capture
        exact .inr ⟨refs, nothing⟩
      · cases capture
        exact .inr ⟨refs, rfl⟩

variable {failure : Option CasError} {delta : Option Bytes}

theorem prepareDelta_ok
    (prepared : prepareDelta limits packsBefore failure refsAfter stdout = .ok delta) :
    capturePack limits refsAfter stdout = .ok delta := by
  rw [prepareDelta] at prepared
  cases captured : capturePack limits refsAfter stdout with
  | error error =>
    rw [captured] at prepared
    cases prepared
  | ok pack =>
    rw [captured] at prepared
    cases pack with
    | none =>
      cases prepared
      rfl
    | some bytes =>
      change (if _ then _ else _) = Except.ok delta at prepared
      split at prepared
      · cases prepared
      · split at prepared
        · cases prepared
        · split at prepared
          · cases prepared
          · cases prepared
            rfl

theorem digestHex_length (externals : Externals) (bytes : Bytes) :
    (externals.digestHex bytes).toList.length = 64 := by
  rw [Externals.digestHex, FixedBytes.toHex, String.toList_ofList, hexEncode_length,
    (externals.sha256 bytes).property]

theorem contentKey_digest {kind other : String} {first second : Bytes}
    (same : externals.contentKey kind first = externals.contentKey other second) :
    externals.sha256 first = externals.sha256 second := by
  have lists := congrArg String.toList same
  rw [Externals.contentKey, Externals.contentKey, @String.toList_append (kind ++ "/"),
    @String.toList_append (other ++ "/")] at lists
  have lengths : (externals.digestHex first).toList.length =
      (externals.digestHex second).toList.length := by
    rw [digestHex_length, digestHex_length]
  have digests := (append_inj' lists lengths).2
  exact toHex_injective (String.toList_inj.mp digests)

def Store.Grows (self next : Store) : Prop :=
  ∀ key bytes, self.objects key = some bytes → next.objects key = some bytes

variable {store next : Store}

theorem packed_grow (grows : store.Grows next) (keys : List String) :
    packed contents store keys ⊆ packed contents next keys := by
  rintro object ⟨key, member, bytes, here, held⟩
  exact ⟨key, member, bytes, grows key bytes here, held⟩

theorem packed_append (store : Store) (keys more : List String) :
    packed contents store (keys ++ more) =
      packed contents store keys ∪ packed contents store more := by
  ext object
  constructor
  · rintro ⟨key, member, held⟩
    rcases mem_append.mp member with first | second
    · exact .inl ⟨key, first, held⟩
    · exact .inr ⟨key, second, held⟩
  · rintro (⟨key, member, held⟩ | ⟨key, member, held⟩)
    · exact ⟨key, mem_append_left _ member, held⟩
    · exact ⟨key, mem_append_right _ member, held⟩

variable {keys more : List String}

theorem packed_mono (store : Store) (within : keys ⊆ more) :
    packed contents store keys ⊆ packed contents store more := by
  rintro object ⟨key, member, held⟩
  exact ⟨key, within member, held⟩

variable {bytes : Bytes}

theorem subset_packed {key : String}
    (here : store.objects key = some bytes) : contents bytes ⊆ packed contents store [key] :=
  fun _ held => ⟨key, mem_singleton_self key, bytes, here, held⟩

theorem Stored.grow (grows : store.Grows next)
    (stored : Stored externals store keys) : Stored externals next keys := by
  intro key member
  rcases stored key member with ⟨bytes, named, here⟩
  exact ⟨bytes, named, grows key bytes here⟩

theorem Stored.mono (within : more ⊆ keys)
    (stored : Stored externals store keys) : Stored externals store more :=
  fun key member => stored key (within member)

theorem Stored.append (first : Stored externals store keys) (second : Stored externals store more) :
    Stored externals store (keys ++ more) := by
  intro key member
  rcases mem_append.mp member with here | there
  · exact first key here
  · exact second key there

theorem Complete.grow (grows : store.Grows next) {refs : Refs}
    {packs : List String} (complete : Complete externals refers contents store refs packs) :
    Complete externals refers contents next refs packs where
  stored := complete.stored.grow grows
  covered := complete.covered.trans (packed_grow grows packs)

variable {manifest : Manifest}

theorem Published.grow (grows : store.Grows next)
    (published : Published externals refers contents store manifest) :
    Published externals refers contents next manifest where
  valid := published.valid
  complete := published.complete.grow grows

theorem Backed.grow {written more : List Manifest} {phase : Phase}
    (grows : store.Grows next) (within : written ⊆ more)
    (backed : Backed externals refers contents store written phase) :
    Backed externals refers contents next more phase := by
  cases phase with
  | located tag digest =>
    rcases backed with ⟨manifest, member, named⟩
    exact ⟨manifest, within member, named⟩
  | hydrated parent limits | snapshotted push => exact Complete.grow grows backed
  | uploading push pending keys =>
    rcases backed with ⟨parent, stored, covered⟩
    refine ⟨parent.grow grows, stored.grow grows, covered.trans ?_⟩
    exact Set.union_subset_union_left _ (packed_grow grows keys)
  | capturing push failure => exact Complete.grow grows backed
  | pushing push pack | composed parent manifest => exact ⟨backed.1.grow grows, backed.2⟩
  | idle | written parent manifest key digest | lostRace | winnerLocated digest
  | succeeded manifest key | conflicted manifest key | failed error => trivial

theorem sound_initial : Sound externals refers contents .initial where
  objects := nofun
  written := nofun
  backed := fun _ => trivial

variable {world : World}

section

variable (sound : Sound externals refers contents world)

include sound

theorem Sound.setPhase {writer : ℕ} {phase : Phase}
    (backed : Backed externals refers contents world.store world.written phase) :
    Sound externals refers contents (world.setPhase writer phase) := { sound with
  backed := by
    intro other
    rw [World.setPhase_phases]
    split
    · exact backed
    · exact sound.backed other }

theorem Sound.install
    (writer : Option ℕ) (digest : String) (manifest : Manifest) (precond : Precond) :
    Sound externals refers contents (world.install externals writer digest manifest precond) := by
  have same := @Store.putPointer_objects externals world.store digest precond
  have grows : world.store.Grows (world.install externals writer digest manifest precond).store := by
    intro key bytes here
    exact (congrFun same key).trans here
  refine ⟨?_, ?_, ?_⟩
  · intro key bytes here
    exact sound.objects key bytes ((congrFun same key).symm.trans here)
  · intro other member
    exact ⟨(sound.written other member).1.grow grows, (sound.written other member).2⟩
  · intro other
    exact (sound.backed other).grow grows (List.Subset.refl _)

theorem Sound.putPack_holds (collisionFree : CollisionFree externals (bytes :: world.hashed)) :
    (world.putPack externals bytes).store.objects (externals.contentKey "packs" bytes) =
      some bytes := by
  rcases isSome_iff_exists.mp (world.store.putImmutable_present "packs" bytes) with
    ⟨stored, here⟩
  refine Eq.trans here ?_
  rcases world.store.putImmutable_cases "packs" bytes here with old | new
  · rcases sound.objects _ _ old with ⟨known, other, named⟩
    exact congrArg some (collisionFree _ (mem_cons_of_mem _ known) _ mem_cons_self
      (contentKey_digest named.symm))
  · exact congrArg some new.2

theorem Sound.putImmutable_objects (kind : String)
    {key : String} {stored : Bytes}
    (here : (world.store.putImmutable externals kind bytes).2.objects key = some stored) :
    stored ∈ bytes :: world.hashed ∧ ∃ kind, key = externals.contentKey kind stored := by
  rcases world.store.putImmutable_cases kind bytes here with old | new
  · rcases sound.objects key stored old with ⟨known, named⟩
    exact ⟨mem_cons_of_mem _ known, named⟩
  · rcases new with ⟨named, same⟩
    rw [same]
    exact ⟨mem_cons_self, kind, named⟩

theorem Sound.putPack
    (bytes : Bytes) : Sound externals refers contents (world.putPack externals bytes) := by
  have grows : world.store.Grows (world.putPack externals bytes).store :=
    fun key stored here => world.store.putImmutable_grows "packs" bytes here
  refine ⟨?_, ?_, ?_⟩
  · intro key stored here
    exact sound.putImmutable_objects "packs" here
  · intro manifest member
    exact ⟨(sound.written manifest member).1.grow grows, (sound.written manifest member).2⟩
  · intro writer
    exact (sound.backed writer).grow grows (List.Subset.refl _)

end

theorem Sound.putManifest {world : World} (sound : Sound externals refers contents world)
    {manifest : Manifest}
    (published : Published externals refers contents world.store manifest)
    (canonical : sortDedup manifest.packs = manifest.packs) :
    Sound externals refers contents (world.putManifest externals manifest) := by
  have grows : world.store.Grows (world.putManifest externals manifest).store :=
    fun key stored here => world.store.putImmutable_grows "manifests" _ here
  refine ⟨?_, ?_, ?_⟩
  · intro key stored here
    exact sound.putImmutable_objects "manifests" here
  · intro other member
    rcases mem_cons.mp member with same | old
    · rw [same]
      exact ⟨published.grow grows, canonical⟩
    · exact ⟨(sound.written other old).1.grow grows, (sound.written other old).2⟩
  · intro writer
    exact (sound.backed writer).grow grows (subset_cons_self _ _)

theorem Sound.loaded (sound : Sound externals refers contents world)
    (inv : Inv externals world) (collisionFree : CollisionFree externals world.hashed)
    (roundTrips : RoundTrips externals world.written) {digest : String} {maxBytes : ℕ}
    (named : ∃ manifest ∈ world.written,
      digest = externals.digestHex (manifest.canonicalBytes externals.serde))
    (read : world.store.getVerifiedLimited externals (manifestKey digest) digest maxBytes =
      .ok bytes) (parsed : Manifest.fromBytes externals.serde bytes = .ok manifest) :
    manifest ∈ world.written := by
  rcases named with ⟨original, known, digested⟩
  rcases Store.getVerifiedLimited_ok read with ⟨here, verified⟩
  have same : bytes = original.canonicalBytes externals.serde := by
    apply collisionFree _ (sound.objects _ _ here).1 _ (inv.hashed original known)
    exact toHex_injective (verified.trans digested)
  have trip := roundTrips original known
  rw [(sound.written original known).2] at trip
  rw [Manifest.fromBytes, same, trip] at parsed
  simp only at parsed
  split at parsed
  · cases parsed
  · cases parsed
    exact known

theorem closure_values_nil {refs : Refs} (empty : refs.entries = []) (held : Set String) :
    closure refers refs.values ⊆ held := by
  rw [Refs.values, empty, map_nil, closure_nil]
  exact Set.empty_subset held

theorem seedManifest_published (store : Store) :
    Published externals refers contents store seedManifest where
  valid := by decide +kernel
  complete := ⟨nofun, closure_values_nil rfl _⟩

theorem Exact.covers_compacted (precise : Exact packObjects refers contents)
    (output : refsAfter.entries ≠ [] →
      packObjects.compacted (compactionRevs refsAfter) captured)
    (prepared : prepareCompaction limits packsBefore refsAfter objectCount captured = .ok packs) :
    closure refers refsAfter.values ⊆ pendingObjects contents packs := by
  rcases prepareCompaction_ok prepared with empty | ⟨refs, same⟩
  · exact closure_values_nil empty _
  · have whole := precise.compacted _ _ (output refs)
    rw [same]
    change closure refers refsAfter.values ⊆ {object | ∃ pack ∈ captured, object ∈ contents pack.pack}
    calc
      closure refers refsAfter.values ⊆ closure refers (compactionRevs refsAfter).positive :=
        closure_mono fun oid member => mem_dedup.mpr member
      _ = closure refers (compactionRevs refsAfter).positive \ closure refers [] := by
        rw [closure_nil, Set.sdiff_empty]
      _ ⊆ _ := whole.symm.subset

/-- The delta holds what the refs reach beyond those of the parent. -/
theorem Exact.covers_delta (precise : Exact packObjects refers contents) {refsBefore : Refs}
    (output : refsAfter.entries ≠ [] → packObjects.delta (deltaRevs refsBefore refsAfter) stdout)
    (prepared : prepareDelta limits packsBefore failure refsAfter stdout = .ok delta) :
    closure refers refsAfter.values \ closure refers refsBefore.values ⊆
      contents (delta.getD []) := by
  rcases capturePack_ok (prepareDelta_ok prepared) with ⟨empty, -⟩ | ⟨refs, same⟩
  · exact Set.sdiff_subset.trans (closure_values_nil empty _)
  · rw [← same, precise.delta _ _ (output refs)]
    rfl

variable {action : Action}

theorem Sound.step {next : World}
    (precise : Exact packObjects refers contents) (inv : Inv externals world)
    (sound : Sound externals refers contents world)
    (collisionFree : CollisionFree externals next.hashed)
    (roundTrips : RoundTrips externals next.written)
    (step : Step externals packObjects world action next) :
    Sound externals refers contents next := by
  have known (writer : ℕ) (phase : Phase) (here : world.phases writer = phase) :
      Backed externals refers contents world.store world.written phase := by
    rw [← here]
    exact sound.backed writer
  cases step with
  | announceManifest => exact sound.putManifest (seedManifest_published _) rfl
  | announcePointer seeded won => exact sound.install _ _ _ _
  | locateFresh idle absent => exact sound.setPhase ⟨nofun, closure_values_nil rfl _⟩
  | @locate writer tag body digest idle read parsed =>
    rcases map_eq_some_iff.mp read with ⟨current, present, same⟩
    cases same
    have seen := inv.parsePointer present parsed
    rw [inv.pointer] at present
    rcases map_eq_some_iff.mp present with ⟨entry, head, named⟩
    have addressed := inv.addressed entry (mem_of_head? head)
    exact sound.setPhase
      ⟨entry.manifest, addressed.1, seen.trans (named.symm.trans addressed.2)⟩
  | @load writer limits tag digest bytes manifest located read parsed valid =>
    have member := sound.loaded inv collisionFree roundTrips (known writer _ located) read parsed
    exact sound.setPhase (sound.written manifest member).1.complete
  | @receive writer parent limits workspace refsAfter observedHead hydrated snapshot =>
    have parentComplete := known writer _ hydrated
    exact sound.setPhase parentComplete
  | @skipCompaction writer push snapshotted small =>
    have parentComplete := known writer _ snapshotted
    exact sound.setPhase parentComplete
  | @captureCompacted writer push objectCount captured packs snapshotted large output prepared =>
    have parentComplete := known writer _ snapshotted
    have covered := precise.covers_compacted packObjects output prepared
    exact sound.setPhase
      ⟨parentComplete, nofun, covered.trans Set.subset_union_right⟩
  | @uploadCompacted writer push pack pending keys uploading =>
    have uploaded := (sound.putPack pack.pack).backed writer
    change Backed _ _ _ _ _ (world.phases writer) at uploaded
    rw [uploading] at uploaded
    rcases uploaded with ⟨parentComplete, stored, covered⟩
    have holds := sound.putPack_holds collisionFree
    rw [Store.putPack, Store.putImmutable_key]
    apply (sound.putPack pack.pack).setPhase
    refine ⟨parentComplete, stored.append ?_, covered.trans ?_⟩
    · intro key member
      rw [mem_singleton.mp member]
      exact ⟨pack.pack, rfl, holds⟩
    · rw [packed_append, Set.union_assoc]
      apply Set.union_subset_union_right
      rintro object ⟨other, member, held⟩
      rcases mem_cons.mp member with same | later
      · rw [same] at held
        exact .inl (subset_packed holds held)
      · exact .inr ⟨other, later, held⟩
  | @composeCompacted writer push keys uploading valid =>
    rcases known writer _ uploading with ⟨-, stored, covered⟩
    have same : ∀ key, key ∈ sortDedup (sortDedup keys) ↔ key ∈ keys := by
      intro key
      rw [mem_sortDedup, mem_sortDedup]
    refine sound.setPhase ⟨⟨valid, ?_, ?_⟩, composeCompactedAfter_canonical _ _ _ _⟩
    · exact stored.mono fun key member => (same key).mp member
    · intro object reached
      rcases covered reached with held | ⟨pack, member, -⟩
      · exact packed_mono _ (fun key member => (same key).mpr member) held
      · cases member
  | @failCompaction writer push error compacting =>
    rcases compacting with ⟨snapshotted, -⟩ | ⟨pending, keys, uploading⟩
    · have parentComplete := known writer _ snapshotted
      exact sound.setPhase parentComplete
    · have parentComplete := (known writer _ uploading).1
      exact sound.setPhase parentComplete
  | @captureDelta writer push failure stdout pack capturing output prepared =>
    have parentComplete := known writer _ capturing
    exact sound.setPhase ⟨parentComplete, precise.covers_delta packObjects output prepared⟩
  | @captureNothing writer push failure stdout capturing output prepared valid =>
    have parentComplete := known writer _ capturing
    have missing := precise.covers_delta packObjects output prepared
    rw [getD_none, precise.empty] at missing
    have covered := closure_subset_of_delta parentComplete.covered missing
    rw [Set.union_empty] at covered
    refine sound.setPhase ⟨⟨valid, ?_, ?_⟩, composeAfter_canonical _ _ _ _ _⟩
    · apply parentComplete.stored.mono
      intro key member
      rcases mem_composeAfter.mp member with old | new
      · exact old
      · cases new
    · exact covered.trans (packed_mono _ fun key member => mem_composeAfter.mpr (.inl member))
  | @pushDelta writer push pack pushing valid =>
    have pushed := (sound.putPack pack).backed writer
    change Backed _ _ _ _ _ (world.phases writer) at pushed
    rw [pushing] at pushed
    rcases pushed with ⟨parentComplete, missing⟩
    have holds := sound.putPack_holds collisionFree
    rw [Store.putPack, Store.putImmutable_key] at valid ⊢
    apply (sound.putPack pack).setPhase
    refine ⟨⟨valid, ?_, ?_⟩, composeAfter_canonical _ _ _ _ _⟩
    · intro key member
      rcases mem_composeAfter.mp member with old | new
      · exact parentComplete.stored key old
      · cases new
        exact ⟨pack, rfl, holds⟩
    · have covered := closure_subset_of_delta parentComplete.covered
        (missing.trans (subset_packed holds))
      rw [← packed_append] at covered
      apply covered.trans
      apply packed_mono
      intro key member
      rcases mem_append.mp member with old | new
      · exact mem_composeAfter.mpr (.inl old)
      · exact mem_composeAfter.mpr (.inr (congrArg some (mem_singleton.mp new).symm))
  | @putManifest writer parent manifest key digest composed put named =>
    rcases known writer _ composed with ⟨published, canonical⟩
    exact (sound.putManifest published canonical).setPhase trivial
  | putPointer ready won => exact (sound.install _ _ _ _).setPhase trivial
  | @losePointer writer parent manifest key digest ready lost =>
    rcases world.store.putPointer_cases digest parent.precond with applied | unchanged
    · rcases applied with ⟨tag, outcome, -, -⟩
      rw [outcome] at lost
      cases lost
    · rw [unchanged.2]
      exact sound.setPhase trivial
  | loseResponse ready won => exact (sound.install _ _ _ _).setPhase trivial
  | reread lost read parsed | readWinner located read parsed | fail running =>
    exact sound.setPhase trivial

theorem step_grows {next : World} (step : Step externals packObjects world action next) :
    world.hashed ⊆ next.hashed ∧ world.written ⊆ next.written := by
  have same : world.hashed ⊆ world.hashed ∧ world.written ⊆ world.written :=
    ⟨List.Subset.refl _, List.Subset.refl _⟩
  cases step with
  | announceManifest | putManifest => exact ⟨subset_cons_self _ _, subset_cons_self _ _⟩
  | uploadCompacted | pushDelta => exact ⟨subset_cons_self _ _, same.2⟩
  | announcePointer | locateFresh | locate | load | receive | skipCompaction | captureCompacted
  | composeCompacted | failCompaction | captureDelta | captureNothing | putPointer | losePointer
  | loseResponse | reread | readWinner | fail => exact same

theorem Sound.run {actions : List Action} (precise : Exact packObjects refers contents)
    (run : Run (Step externals packObjects) .initial actions world)
    (collisionFree : CollisionFree externals world.hashed)
    (roundTrips : RoundTrips externals world.written) :
    Inv externals world ∧ Sound externals refers contents world := by
  have held : Inv externals world ∧ (CollisionFree externals world.hashed →
      RoundTrips externals world.written → Sound externals refers contents world) := by
    apply @Run.invariant _ _ _ (fun state => Inv externals state ∧
      (CollisionFree externals state.hashed → RoundTrips externals state.written →
        Sound externals refers contents state)) _ _ _ _ run ⟨inv_initial, fun _ _ => sound_initial⟩
    intro state action next known step
    refine ⟨known.1.step packObjects step, ?_⟩
    intro distinct readable
    have grown := step_grows packObjects step
    apply Sound.step packObjects precise known.1 _ distinct readable step
    apply known.2
    · intro first here second there
      exact distinct first (grown.1 here) second (grown.1 there)
    · intro manifest member
      exact readable manifest (grown.2 member)
  exact ⟨held.1, held.2 collisionFree roundTrips⟩

/-- Each is valid, and its packs hold all that its refs reach. -/
theorem published_closed {actions : List Action} {world : World}
    (precise : Exact packObjects refers contents)
    (run : Run (Step externals packObjects) .initial actions world)
    (collisionFree : CollisionFree externals world.hashed)
    (roundTrips : RoundTrips externals world.written) :
    (∀ entry ∈ world.history, Published externals refers contents world.store entry.manifest) ∧
      ∀ action next entry, Step externals packObjects world action next →
        next.history = entry :: world.history →
        Published externals refers contents world.store entry.manifest := by
  rcases Sound.run packObjects precise run collisionFree roundTrips with ⟨inv, sound⟩
  constructor
  · intro entry member
    exact (sound.written _ (inv.addressed entry member).1).1
  · intro action next entry step grown
    rcases step_history packObjects inv step with same | installed
    · rw [same] at grown
      exact absurd grown.symm (cons_ne_self _ _)
    · rcases installed with ⟨writer, digest, manifest, parent, tag, -, -, known, -, shape⟩
      rw [shape] at grown
      cases grown
      exact (sound.written manifest known).1

def sampleTree : String := "4b825dc642cb6eb9a060e54bf8d69288fbee4904"

def sampleRefers (source target : String) : Prop := source = sampleOid ∧ target = sampleTree

def sampleContents (bytes : Bytes) : Set String :=
  {object | bytes = samplePack ∧ (object = sampleOid ∨ object = sampleTree)}

theorem sample_closure :
    closure sampleRefers [sampleOid] = {object | object = sampleOid ∨ object = sampleTree} := by
  ext object
  constructor
  · rintro ⟨tip, member, reached⟩
    rw [mem_singleton.mp member] at reached
    rcases reached.cases_head with same | ⟨tree, edge, further⟩
    · exact .inl same.symm
    · rw [edge.2] at further
      rcases further.cases_head with same | ⟨other, wrong, -⟩
      · exact .inr same.symm
      · exact absurd wrong.1 (by decide)
  · intro known
    refine ⟨sampleOid, mem_singleton_self _, ?_⟩
    rcases known with same | same
    · rw [same]
    · rw [same]
      exact Relation.ReflTransGen.single ⟨rfl, rfl⟩

theorem sample_exact : Exact samplePackObjects sampleRefers sampleContents where
  delta := by
    rintro revs stdout ⟨positive, negative, same⟩
    rw [positive, negative, same, closure_nil, Set.sdiff_empty, sample_closure]
    ext object
    exact and_iff_right rfl
  compacted := nofun
  empty := by
    apply Set.eq_empty_of_forall_notMem
    rintro object ⟨wrong, -⟩
    cases wrong

/-- A first push of one commit. -/
theorem published_closed_first : ∃ world : World,
    world.store.pointer = some sampleDigest ∧
    (∀ entry ∈ world.history,
      Published sampleExternals sampleRefers sampleContents world.store entry.manifest) ∧
      ∀ action next entry, Step sampleExternals samplePackObjects world action next →
        next.history = entry :: world.history →
        Published sampleExternals sampleRefers sampleContents world.store entry.manifest := by
  rcases @sample_ready .initial 0 rfl rfl with
    ⟨world, run, phases, pointer, history, written, hashed⟩
  have ready : world.phases 0 = sampleWritten := by
    rw [phases]
    rfl
  have won : (world.store.putPointer sampleExternals sampleDigest .ifNoneMatchStar).1 =
      .ok (.won (sampleEtag sampleDigest)) := by
    rw [Store.putPointer_create pointer]
    rfl
  have installed : (world.store.putPointer sampleExternals sampleDigest
      .ifNoneMatchStar).2.pointer = some sampleDigest := by
    rw [Store.putPointer_create pointer]
  have pushed := run.append (.cons (.putPointer ready won) (.nil _))
  refine ⟨_, installed, published_closed samplePackObjects sample_exact pushed
    (sample_collisionFree ?_) (sample_roundTrips ?_)⟩
  · change ∀ bytes ∈ world.hashed, bytes = sampleBytes ∨ bytes = samplePack
    rw [hashed]
    simp [World.initial]
  · change ∀ manifest ∈ world.written, manifest = sampleManifest
    rw [written]
    simp [World.initial]

end Buzz.Git
