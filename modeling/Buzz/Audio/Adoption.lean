import Buzz.Audio.Owners
import Buzz.Library.Runs
import Buzz.Library.Slots

/-! When a join that brings a lease is given the signals of a live epoch, and no lease that a room
uses is given back. -/

namespace Buzz.Audio

open Nostr Library Library.Runs List Option
open Buzz.Tunnel (SessionKeys SessionLease RuntimeId)

/-- The room is empty, or knows that it is drained or lost. -/
def Renewer.Unused (renewer : Renewer) : Prop :=
  renewer.emptied ∨ renewer.draining ∨ renewer.lost

namespace Owners

def attached (owners : Owners) : OwnerStep → Option SessionLease
  | .attach task =>
    match owners.attaching.get task with
    | some (.acquired lease) => some lease
    | _ => none
  | .insert task =>
    match owners.attaching.get task with
    | some (.inserting lease) => some lease
    | _ => none
  | _ => none

/-- The signals are those of an entry that is not lost; or the relay shuts down. -/
def Adopts (owners : Owners) (sessionId : Uuid) : HuddleOwnerSignals → Prop
  | .refused => owners.registry.draining
  | .ofEpoch epoch =>
    (∃ entry ∈ owners.registry.entries.get sessionId, entry.epoch = epoch) ∧
      ∃ renewer ∈ owners.renewers[epoch]?, renewer.lost = false

/-- The renewer whose lease a release call gives back. -/
def ending (owners : Owners) : OwnerStep → Option Renewer
  | .callRelease epoch true _ =>
    (owners.renewers[epoch]?).filter fun renewer =>
      decide (owners.directory.Owns renewer.lease ∧ renewer.stage ∈ [.releasing true, .releasing false])
  | _ => none

/-- An attached lease is adopted, and none in use is given back. -/
def Sound (owners : Owners) (step : OwnerStep) : Prop :=
  (∀ signals ∈ owners.returned step, ∀ lease ∈ owners.attached step,
      (owners.step step).Adopts lease.sessionId signals) ∧
    ∀ renewer ∈ owners.ending step, renewer.Unused

/-- Every lease ends once, and a renewer still running can be told to stop. -/
structure Settled (owners : Owners) : Prop where
  once : ∀ lease ∈ owners.directory.acquired,
    owners.directory.ended.count lease = if owners.directory.Owns lease then 0 else 1
  calls : ∀ renewer ∈ owners.renewers, renewer.calls = if renewer.stage = .done then 1 else 0
  kept : ∀ epoch renewer, owners.renewers[epoch]? = some renewer → renewer.stage = .renewing →
    renewer.cancel = false →
      ∃ entry ∈ owners.registry.entries.get renewer.lease.sessionId, entry.epoch = epoch

def Clean (owners : Owners) : OwnerStep → Prop
  | .attach task => owners.registry.draining = false →
    ∀ lease ∈ owners.attached (.attach task),
      ∀ entry ∈ owners.registry.entries.get lease.sessionId,
        (∃ renewer ∈ owners.renewers[entry.epoch]?, renewer.lost = false) ∧
          ¬ owners.directory.Owns lease
  | .insert task => ∀ lease ∈ owners.attached (.insert task),
    ∀ entry ∈ owners.registry.entries.get lease.sessionId,
      ∀ renewer ∈ owners.renewers[entry.epoch]?, renewer.stage ≠ .renewing
  | .release keys generation => ∀ entry ∈ owners.registry.entries.get keys.sessionId,
    entry.generation = generation →
      ∀ renewer ∈ owners.renewers[entry.epoch]?, renewer.lease.communityId = keys.communityId
  | _ => True

instance (owners : Owners) : ∀ step, Decidable (owners.Clean step)
  | .attach task => inferInstanceAs (Decidable (_ → ∀ lease ∈ owners.attached (.attach task), _))
  | .insert task => inferInstanceAs (Decidable (∀ lease ∈ owners.attached (.insert task), _))
  | .release keys _ => inferInstanceAs
      (Decidable (∀ entry ∈ owners.registry.entries.get keys.sessionId, _))
  | .acquire .. => isTrue trivial
  | .expire _ => isTrue trivial
  | .recheck _ => isTrue trivial
  | .giveUp _ => isTrue trivial
  | .drain .. => isTrue trivial
  | .startDrainAll => isTrue trivial
  | .renew .. => isTrue trivial
  | .cancelled _ => isTrue trivial
  | .callRelease .. => isTrue trivial

end Owners

namespace Directory

structure Ledger (directory : Directory) : Prop where
  nodup : directory.acquired.Nodup
  known : ∀ keys lease, directory.live.get keys = some lease →
    lease.keys = keys ∧ lease ∈ directory.acquired
  counted : ∀ lease ∈ directory.acquired,
    lease.generation ≤ (directory.counter.get lease.keys).getD 0
  once : ∀ lease ∈ directory.acquired,
    directory.ended.count lease = if directory.Owns lease then 0 else 1
  ended : ∀ lease ∈ directory.ended, lease ∈ directory.acquired

variable {directory : Directory} {lease : SessionLease} {keys : SessionKeys}

structure Stays (directory next : Directory) : Prop where
  acquired : ∀ lease ∈ directory.acquired, lease ∈ next.acquired
  ended : ∀ lease ∈ directory.acquired, ¬ directory.Owns lease → ¬ next.Owns lease

theorem Stays.refl : directory.Stays directory := ⟨fun _ => id, fun _ _ => id⟩

theorem owns_endLease {other : SessionLease} :
    (directory.endLease lease).Owns other ↔ directory.Owns other ∧ other.keys ≠ lease.keys := by
  rw [Owns, Directory.endLease, Keyed.get_erase]
  split
  next same => simp [same]
  next different => simp [Owns, different]

theorem owns_grant {other : SessionLease} : (directory.grant lease).Owns other ↔
    other = lease ∨ directory.Owns other ∧ other.keys ≠ lease.keys := by
  rw [Owns, Directory.grant, Keyed.get_insert]
  split
  next same => simp [same, eq_comm]
  next different =>
    have unequal : other ≠ lease := by
      rintro rfl
      exact different rfl
    simp [Owns, different, unequal]

theorem Ledger.endLease (ledger : directory.Ledger) (owns : directory.Owns lease) :
    (directory.endLease lease).Ledger := { ledger with
  known keys other isOther := by
    rw [Directory.endLease, Keyed.get_erase] at isOther
    split at isOther
    · cases isOther
    · exact ledger.known keys other isOther
  once other isAcquired := by
    have before := ledger.once other isAcquired
    change (lease :: directory.ended).count other = _
    by_cases same : other = lease
    · subst same
      rw [if_pos owns] at before
      rw [count_cons_self, before, if_neg fun still => (owns_endLease.mp still).2 rfl]
    · rw [count_cons_of_ne (Ne.symm same)]
      apply before.trans
      apply if_congr _ rfl rfl
      rw [owns_endLease]
      apply (and_iff_left_of_imp _).symm
      intro otherOwns sameKeys
      rw [Owns, sameKeys, owns] at otherOwns
      exact same (Option.some.inj otherOwns).symm
  ended other member := by
    rcases mem_cons.mp member with rfl | old
    · exact (ledger.known _ _ owns).2
    · exact ledger.ended other old }

theorem stays_endLease : directory.Stays (directory.endLease lease) :=
  ⟨fun _ => id, fun _ _ notOwned owned => notOwned (owns_endLease.mp owned).1⟩

theorem Ledger.expire (ledger : directory.Ledger) : (directory.expire keys).Ledger := by
  unfold Directory.expire
  cases isLive : directory.live.get keys with
  | none => exact ledger
  | some lease =>
    have same := (ledger.known keys lease isLive).1
    subst same
    exact ledger.endLease isLive

theorem stays_expire : directory.Stays (directory.expire keys) := by
  unfold Directory.expire
  split
  · exact stays_endLease
  · exact Stays.refl

section

variable (ledger : directory.Ledger)

include ledger

theorem Ledger.fresh (next : lease.generation = (directory.counter.get lease.keys).getD 0 + 1) :
    lease ∉ directory.acquired := by
  intro old
  have bound := ledger.counted lease old
  omega

theorem Ledger.grant (unowned : directory.live.get lease.keys = none)
    (next : lease.generation = (directory.counter.get lease.keys).getD 0 + 1) :
    (directory.grant lease).Ledger where
  nodup := nodup_cons.mpr ⟨ledger.fresh next, ledger.nodup⟩
  known keys other isOther := by
    rw [Directory.grant, Keyed.get_insert] at isOther
    split at isOther
    next same =>
      cases isOther
      exact ⟨same.symm, mem_cons_self⟩
    · obtain ⟨sameKeys, old⟩ := ledger.known keys other isOther
      exact ⟨sameKeys, mem_cons_of_mem _ old⟩
  counted other isAcquired := by
    rw [Directory.grant, Keyed.get_insert]
    rcases mem_cons.mp isAcquired with rfl | old
    · rw [if_pos rfl]
      exact Nat.le_refl _
    · have bound := ledger.counted other old
      split
      next same =>
        rw [same] at bound
        change other.generation ≤ lease.generation
        omega
      · exact bound
  once other isAcquired := by
    rcases mem_cons.mp isAcquired with rfl | old
    · rw [if_pos (owns_grant.mpr (.inl rfl))]
      exact count_eq_zero.mpr fun member => ledger.fresh next (ledger.ended _ member)
    · apply (ledger.once other old).trans
      apply if_congr _ rfl rfl
      rw [owns_grant]
      constructor
      · intro owned
        refine .inr ⟨owned, fun sameKeys => ?_⟩
        rw [Owns, sameKeys, unowned] at owned
        cases owned
      · rintro (rfl | owned)
        · exact absurd old (ledger.fresh next)
        · exact owned.1
  ended other member := mem_cons_of_mem _ (ledger.ended other member)

theorem Ledger.stays_grant
    (next : lease.generation = (directory.counter.get lease.keys).getD 0 + 1) :
    directory.Stays (directory.grant lease) := by
  refine ⟨fun other old => mem_cons_of_mem _ old, fun other old notOwned owned => ?_⟩
  rcases owns_grant.mp owned with rfl | before
  · exact ledger.fresh next old
  · exact notOwned before.1

end

end Directory

structure Renewer.Orderly (renewer : Renewer) (directory : Directory)
    (entries : Keyed Uuid HuddleOwnerEntry) (epoch : ℕ) : Prop where
  known : renewer.lease ∈ directory.acquired
  kept : renewer.stage = .renewing → renewer.cancel = false →
    ∃ entry ∈ entries.get renewer.lease.sessionId, entry.epoch = epoch
  stopped : renewer.cancel → renewer.Unused ∨ ¬ directory.Owns renewer.lease
  releasing : renewer.stage = .releasing true ∨ renewer.stage = .releasing false →
    renewer.cancel ∨ renewer.lost
  calls : renewer.calls = if renewer.stage = .done then 1 else 0

namespace Owners

structure Orderly (owners : Owners) : Prop where
  ledger : owners.directory.Ledger
  renewers : ∀ (epoch : ℕ) (renewer : Renewer), owners.renewers[epoch]? = some renewer →
    renewer.Orderly owners.directory owners.registry.entries epoch
  entries : ∀ sessionId entry, owners.registry.entries.get sessionId = some entry →
    ∃ renewer, owners.renewers[entry.epoch]? = some renewer ∧
      renewer.lease.sessionId = sessionId ∧ renewer.lease.generation = entry.generation
  attaching : ∀ task lease, owners.attaching.get task = some (.acquired lease) ∨
    owners.attaching.get task = some (.inserting lease) → lease ∈ owners.directory.acquired

variable {owners next : Owners} {lease : SessionLease} {epoch other task : ℕ}
  {renewer changed : Renewer} {turn : Renewer → Renewer}

theorem getElem?_changeRenewer : (owners.changeRenewer epoch turn).renewers[other]? =
    (owners.renewers[other]?).map fun renewer => if epoch = other then turn renewer else renewer := by
  rw [changeRenewer, getElem?_modify]
  cases owners.renewers[other]? with
  | none | some renewer => split <;> rfl

section

variable (orderly : owners.Orderly)

include orderly

theorem Orderly.stays {directory : Directory}
    (ledger : directory.Ledger) (stays : owners.directory.Stays directory) :
    Orderly { owners with directory } where
  ledger
  renewers epoch renewer isRenewer := by
    have kept := orderly.renewers epoch renewer isRenewer
    exact ⟨stays.acquired _ kept.known, kept.kept,
      fun cancelled => (kept.stopped cancelled).imp id (stays.ended _ kept.known), kept.releasing,
      kept.calls⟩
  entries := orderly.entries
  attaching task lease isTask := stays.acquired _ (orderly.attaching task lease isTask)

theorem Orderly.change (sameLease : ∀ renewer : Renewer, (turn renewer).lease = renewer.lease)
    (fine : ∀ renewer, owners.renewers[epoch]? = some renewer →
      (turn renewer).Orderly owners.directory owners.registry.entries epoch) :
    (owners.changeRenewer epoch turn).Orderly := { orderly with
  renewers other changed isChanged := by
    rw [getElem?_changeRenewer] at isChanged
    obtain ⟨renewer, isRenewer, rfl⟩ := map_eq_some_iff.mp isChanged
    split
    next same =>
      subst same
      exact fine renewer isRenewer
    · exact orderly.renewers other renewer isRenewer
  entries sessionId entry isEntry := by
    obtain ⟨renewer, isRenewer, session, generation⟩ := orderly.entries sessionId entry isEntry
    rw [getElem?_changeRenewer, isRenewer]
    refine ⟨_, rfl, ?_⟩
    split
    · rw [sameLease]
      exact ⟨session, generation⟩
    · exact ⟨session, generation⟩ }

theorem Orderly.finish : (owners.finish task).Orderly := { orderly with
  attaching other lease isTask := by
    apply orderly.attaching other lease
    simp only [Owners.finish, Keyed.get_erase] at isTask
    split at isTask
    · simp at isTask
    · exact isTask }

theorem Orderly.setTask {phase : Attaching}
    (known : ∀ lease, phase = .acquired lease ∨ phase = .inserting lease → lease ∈ owners.directory.acquired) :
    (owners.setTask task phase).Orderly where
  ledger := orderly.ledger
  renewers := orderly.renewers
  entries := orderly.entries
  attaching other lease isTask := by
    simp only [Owners.setTask, Keyed.get_insert] at isTask
    split at isTask
    · exact known lease (isTask.imp Option.some.inj Option.some.inj)
    · exact orderly.attaching other lease isTask

theorem Orderly.spawnCancelled {draining : Bool}
    (known : lease ∈ owners.directory.acquired)
    (stopped : draining ∨ ¬ owners.directory.Owns lease) :
    (owners.spawn lease draining true).Orderly := { orderly with
  renewers epoch renewer isRenewer := by
    rcases Locks.getElem?_concat isRenewer with old | ⟨-, rfl⟩
    · exact orderly.renewers epoch renewer old
    · refine ⟨known, ?_, ?_, ?_, rfl⟩
      · intro _ uncancelled
        cases uncancelled
      · exact fun _ => stopped.imp (fun drained => .inr (.inl drained)) id
      · intro releasing
        simp at releasing
  entries sessionId entry isEntry := by
    obtain ⟨renewer, isRenewer, session, generation⟩ := orderly.entries sessionId entry isEntry
    have inside := (List.getElem?_eq_some_iff.mp isRenewer).1
    exact ⟨renewer, (getElem?_append_left inside).trans isRenewer, session, generation⟩ }

end

section calls

variable {keys : SessionKeys} {sessionId : Uuid} {generation : ℕ}

theorem Orderly.acquire (orderly : owners.Orderly) {task : Option ℕ} {runtime : RuntimeId} :
    (owners.acquire task keys runtime).Orderly := by
  unfold Owners.acquire Directory.acquire
  cases isLive : owners.directory.live.get keys with
  | some lease =>
    cases task with
    | none | some task => exact orderly
  | none =>
    have granted := @Directory.Ledger.grant _ (owners.directory.nextLease keys runtime)
      orderly.ledger isLive rfl
    have after := orderly.stays granted (orderly.ledger.stays_grant rfl)
    cases task with
    | none => exact after
    | some task =>
      apply after.setTask
      rintro lease (same | same)
      · cases same
        exact mem_cons_self
      · cases same

theorem Orderly.expire (orderly : owners.Orderly) :
    Orderly { owners with directory := owners.directory.expire keys } :=
  orderly.stays orderly.ledger.expire Directory.stays_expire

theorem attached_attach (isAttached : owners.attached (.attach task) = some lease) :
    owners.attaching.get task = some (.acquired lease) := by
  simp only [attached] at isAttached
  split at isAttached
  next isTask =>
    cases isAttached
    exact isTask
  · cases isAttached

theorem attached_insert (isAttached : owners.attached (.insert task) = some lease) :
    owners.attaching.get task = some (.inserting lease) := by
  simp only [attached] at isAttached
  split at isAttached
  next isTask =>
    cases isAttached
    exact isTask
  · cases isAttached

section

variable (orderly : owners.Orderly)

include orderly

theorem Orderly.attach (clean : owners.Clean (.attach task)) :
    (owners.attach task).2.Orderly := by
  unfold Owners.attach
  split
  next lease isTask =>
    have isAttached : owners.attached (.attach task) = some lease := by
      simp only [attached, isTask]
    have known := orderly.attaching task lease (.inl isTask)
    split
    · exact (orderly.spawnCancelled known (.inl rfl)).finish
    next isOpen =>
      cases isEntry : owners.registry.entries.get lease.sessionId with
      | some existing =>
        have ended := (clean (Bool.eq_false_iff.mpr isOpen) lease isAttached existing isEntry).2
        exact (orderly.spawnCancelled known (.inr ended)).finish
      | none =>
        apply orderly.setTask
        rintro other (same | same)
        · cases same
        · cases same
          exact known
  · exact orderly

theorem Orderly.insert (clean : owners.Clean (.insert task)) :
    (owners.insert task).2.Orderly := by
  unfold Owners.insert
  split
  next lease isTask =>
    have isAttached : owners.attached (.insert task) = some lease := by
      simp only [attached, isTask]
    have known := orderly.attaching task lease (.inr isTask)
    refine Orderly.setTask ?_ (by rintro other (same | same) <;> cases same)
    constructor
    · exact orderly.ledger
    · intro epoch renewer isRenewer
      rcases Locks.getElem?_concat isRenewer with old | ⟨rfl, rfl⟩
      · have kept := orderly.renewers epoch renewer old
        refine ⟨kept.known, ?_, kept.stopped, kept.releasing, kept.calls⟩
        intro renewing uncancelled
        obtain ⟨entry, isEntry, isEpoch⟩ := kept.kept renewing uncancelled
        have other : renewer.lease.sessionId ≠ lease.sessionId := by
          intro same
          rw [same] at isEntry
          subst isEpoch
          exact clean lease isAttached entry isEntry renewer old renewing
        refine ⟨entry, ?_, isEpoch⟩
        rw [Keyed.get_insert, if_neg other]
        exact isEntry
      · refine ⟨known, fun _ _ => ?_, ?_, ?_, rfl⟩
        · exact ⟨_, (owners.registry.entries.get_insert).trans (if_pos rfl), rfl⟩
        · intro cancelled
          cases cancelled
        · intro releasing
          simp at releasing
    · intro sessionId entry isEntry
      rw [Keyed.get_insert] at isEntry
      split at isEntry
      next same =>
        cases isEntry
        exact ⟨_, getElem?_concat_length, same.symm, rfl⟩
      · obtain ⟨renewer, isRenewer, linked⟩ := orderly.entries sessionId entry isEntry
        have inside := (List.getElem?_eq_some_iff.mp isRenewer).1
        exact ⟨renewer, (getElem?_append_left inside).trans isRenewer, linked⟩
    · exact orderly.attaching
  · exact orderly

theorem Orderly.remove {entry : HuddleOwnerEntry}
    (isEntry : owners.registry.entries.get sessionId = some entry)
    (sameLease : ∀ renewer : Renewer, (turn renewer).lease = renewer.lease)
    (cancels : ∀ renewer : Renewer, (turn renewer).cancel)
    (fine : ∀ renewer, owners.renewers[entry.epoch]? = some renewer →
      renewer.Orderly owners.directory owners.registry.entries entry.epoch →
        (turn renewer).Orderly owners.directory owners.registry.entries entry.epoch) :
    Orderly (Owners.changeRenewer
      { owners with
        registry := { owners.registry with entries := owners.registry.entries.erase sessionId } }
      entry.epoch turn) := { orderly with
  renewers epoch changed isChanged := by
    rw [getElem?_changeRenewer] at isChanged
    obtain ⟨renewer, isRenewer, rfl⟩ := map_eq_some_iff.mp isChanged
    have before := orderly.renewers epoch renewer isRenewer
    by_cases same : entry.epoch = epoch
    · subst same
      rw [if_pos rfl]
      have kept := fine renewer isRenewer before
      refine ⟨kept.known, fun _ uncancelled => ?_, kept.stopped, kept.releasing, kept.calls⟩
      rw [cancels] at uncancelled
      cases uncancelled
    · rw [if_neg same]
      refine ⟨before.known, fun renewing uncancelled => ?_, before.stopped, before.releasing,
        before.calls⟩
      obtain ⟨other, isOther, isEpoch⟩ := before.kept renewing uncancelled
      have otherSession : renewer.lease.sessionId ≠ sessionId := by
        intro equal
        rw [equal] at isOther
        cases isEntry.symm.trans isOther
        exact same isEpoch
      exact ⟨other, (Keyed.get_erase _).trans ((if_neg otherSession).trans isOther), isEpoch⟩
  entries other found isFound := by
    rw [changeRenewer, Keyed.get_erase] at isFound
    split at isFound
    · cases isFound
    · obtain ⟨renewer, isRenewer, session, isGeneration⟩ := orderly.entries other found isFound
      rw [getElem?_changeRenewer, isRenewer]
      refine ⟨_, rfl, ?_⟩
      split
      · rw [sameLease]
        exact ⟨session, isGeneration⟩
      · exact ⟨session, isGeneration⟩ }

end

variable {entries : Keyed Uuid HuddleOwnerEntry} {directory : Directory}

theorem drained_orderly (before : renewer.Orderly directory entries epoch) :
    renewer.drained.Orderly directory entries epoch := { before with
  kept _ uncancelled := by cases uncancelled
  stopped _ := .inl (.inr (.inl rfl))
  releasing _ := .inl rfl }

theorem removeIf_cases {registry : HuddleOwnerRegistry} :
    (∃ entry, registry.entries.get sessionId = some entry ∧ entry.generation = generation ∧
      registry.removeIf sessionId generation =
        (some entry.epoch, { registry with entries := registry.entries.erase sessionId })) ∨
      (∀ entry, registry.entries.get sessionId = some entry → entry.generation ≠ generation) ∧
        registry.removeIf sessionId generation = (none, registry) := by
  unfold HuddleOwnerRegistry.removeIf
  cases isEntry : registry.entries.get sessionId with
  | none => exact .inr ⟨fun entry isSome => (nomatch isSome), rfl⟩
  | some entry =>
    dsimp only
    split
    next same => exact .inl ⟨entry, rfl, same, rfl⟩
    next different =>
      refine .inr ⟨fun found isFound => ?_, rfl⟩
      cases isFound
      exact different

theorem Orderly.drain (orderly : owners.Orderly) : (owners.drain sessionId generation).Orderly := by
  unfold Owners.drain
  rcases @removeIf_cases sessionId generation owners.registry with
    ⟨entry, isEntry, -, removed⟩ | ⟨-, kept⟩
  · rw [removed]
    exact orderly.remove isEntry (fun _ => rfl) (fun _ => rfl) fun _ _ before =>
      drained_orderly before
  · rw [kept]
    exact orderly

theorem Orderly.recheck (orderly : owners.Orderly) : (owners.recheck task).Orderly := by
  unfold Owners.recheck
  split
  next sessionId epoch generation isTask =>
    split
    · apply Orderly.finish
      apply orderly.drain.change
      · exact fun _ => rfl
      · exact fun renewer isRenewer => drained_orderly (orderly.drain.renewers epoch renewer isRenewer)
    · exact orderly.finish
  · exact orderly

theorem lease_empty : (renewer.empty keys generation).lease = renewer.lease := by
  unfold Renewer.empty
  split <;> rfl

theorem empty_orderly (before : renewer.Orderly directory entries epoch) :
    (renewer.empty keys generation).Orderly directory entries epoch := by
  unfold Renewer.empty
  split
  · exact ⟨before.known, before.kept, fun _ => .inl (.inl rfl), before.releasing, before.calls⟩
  · exact before

theorem Orderly.empty (orderly : owners.Orderly) :
    Orderly { owners with
      renewers := owners.renewers.map fun renewer => renewer.empty keys generation } :=
  { orderly with
    renewers epoch changed isChanged := by
      rw [getElem?_map] at isChanged
      obtain ⟨renewer, isRenewer, rfl⟩ := map_eq_some_iff.mp isChanged
      exact empty_orderly (orderly.renewers epoch renewer isRenewer)
    entries sessionId entry isEntry := by
      obtain ⟨renewer, isRenewer, linked⟩ := orderly.entries sessionId entry isEntry
      refine ⟨_, (getElem?_map).trans (congrArg _ isRenewer), ?_⟩
      rw [lease_empty]
      exact linked }

theorem Orderly.release (orderly : owners.Orderly) (clean : owners.Clean (.release keys generation)) :
    (owners.release keys generation).Orderly := by
  unfold Owners.release
  rcases @removeIf_cases keys.sessionId generation owners.registry with
    ⟨entry, isEntry, isGeneration, removed⟩ | ⟨-, kept⟩
  · rw [removed]
    refine orderly.empty.remove isEntry (fun _ => rfl) (fun _ => rfl) fun changed isChanged before => ?_
    -- The renewer of the entry is the one of the room that is empty.
    obtain ⟨renewer, isRenewer, session, sameGeneration⟩ :=
      orderly.entries keys.sessionId entry isEntry
    have community := clean entry isEntry isGeneration renewer isRenewer
    rw [getElem?_map, isRenewer] at isChanged
    cases isChanged
    have isKeys : renewer.lease.keys = keys := by
      rw [SessionLease.keys, community, session]
    have emptied : (renewer.empty keys generation).emptied := by
      unfold Renewer.empty
      rw [if_pos ⟨isKeys, sameGeneration.trans isGeneration⟩]
    exact ⟨before.known, fun _ uncancelled => (nomatch uncancelled), fun _ => .inl (.inl emptied),
      fun _ => .inl rfl, before.calls⟩
  · rw [kept]
    exact orderly.empty

variable {reaches : Bool}

section

variable (orderly : owners.Orderly)

include orderly

theorem Orderly.renew :
    (owners.renew epoch reaches).Orderly := by
  unfold Owners.renew
  cases isRenewer : owners.renewers[epoch]? with
  | none => exact orderly
  | some renewer =>
    dsimp only
    split
    · exact orderly
    next renewing =>
      split
      · exact orderly
      · apply orderly.change
        · exact fun _ => rfl
        · intro same isSame
          cases isRenewer.symm.trans isSame
          have before := orderly.renewers epoch renewer isRenewer
          have calls := before.calls
          rw [Decidable.not_not.mp renewing] at calls
          exact ⟨before.known, fun renewing => (nomatch renewing),
            fun _ => .inl (.inr (.inr rfl)), fun _ => .inr rfl, calls⟩

theorem Orderly.cancelled : (owners.cancelled epoch).Orderly := by
  unfold Owners.cancelled
  cases isRenewer : owners.renewers[epoch]? with
  | none => exact orderly
  | some renewer =>
    dsimp only
    split
    next stops =>
      apply orderly.change
      · exact fun _ => rfl
      · intro same isSame
        cases isRenewer.symm.trans isSame
        have before := orderly.renewers epoch renewer isRenewer
        have calls := before.calls
        rw [stops.1] at calls
        exact ⟨before.known, fun renewing => (nomatch renewing), before.stopped,
          fun _ => .inl stops.2, calls⟩
    · exact orderly

theorem Orderly.finishRenewer {lost : Bool}
    (releasing : ∀ renewer, owners.renewers[epoch]? = some renewer → renewer.stage ≠ .done) :
    (owners.finishRenewer epoch lost).Orderly := by
  apply orderly.change
  · exact fun _ => rfl
  · intro renewer isRenewer
    have before := orderly.renewers epoch renewer isRenewer
    have calls := before.calls
    rw [if_neg (releasing renewer isRenewer)] at calls
    refine ⟨before.known, fun renewing => (nomatch renewing), fun cancelled => ?_, ?_, ?_⟩
    · refine (before.stopped cancelled).imp (Or.imp id (Or.imp id fun isLost => ?_)) id
      exact Bool.or_eq_true_iff.mpr (.inl isLost)
    · intro stage
      simp at stage
    · change renewer.calls + 1 = _
      rw [calls, if_pos rfl]

theorem Orderly.callRelease {answered : Bool} :
    (owners.callRelease epoch reaches answered).Orderly := by
  unfold Owners.callRelease
  cases isRenewer : owners.renewers[epoch]? with
  | none => exact orderly
  | some renewer =>
    dsimp only
    split
    next callerCancelled isReleasing =>
      have notDone : ∀ other, owners.renewers[epoch]? = some other → other.stage ≠ .done := by
        intro other isOther
        cases isRenewer.symm.trans isOther
        rw [isReleasing]
        exact fun same => nomatch same
      have after : Orderly { owners with
          directory :=
            if (reaches && owners.directory.Owns renewer.lease)
            then owners.directory.endLease renewer.lease else owners.directory } := by
        split
        next isOwner =>
          have owns := of_decide_eq_true (Bool.and_eq_true_iff.mp isOwner).2
          exact orderly.stays (orderly.ledger.endLease owns) Directory.stays_endLease
        · exact orderly
      split
      · exact after.finishRenewer notDone
      · exact after.finishRenewer notDone
    · exact orderly

theorem Orderly.step {step : OwnerStep} (clean : owners.Clean step) :
    (owners.step step).Orderly := by
  cases step with
  | acquire task keys runtime => exact orderly.acquire
  | expire keys => exact orderly.expire
  | attach task => exact orderly.attach clean
  | insert task => exact orderly.insert clean
  | recheck task => exact orderly.recheck
  | giveUp task => exact orderly.finish
  | release keys generation => exact orderly.release clean
  | drain sessionId generation => exact orderly.drain
  | startDrainAll =>
    exact ⟨orderly.ledger, orderly.renewers, orderly.entries, orderly.attaching⟩
  | renew epoch reaches => exact orderly.renew
  | cancelled epoch => exact orderly.cancelled
  | callRelease epoch reaches answered => exact orderly.callRelease

end

end calls

variable {signals : HuddleOwnerSignals}

theorem adopts_attach (clean : owners.Clean (.attach task))
    (isReturned : (owners.attach task).1 = some signals)
    (isAttached : owners.attached (.attach task) = some lease) :
    (owners.attach task).2.Adopts lease.sessionId signals := by
  have isTask := attached_attach isAttached
  unfold Owners.attach at isReturned ⊢
  simp only [isTask] at isReturned ⊢
  split
  next isDraining =>
    rw [if_pos isDraining] at isReturned
    cases isReturned
    exact isDraining
  next isOpen =>
    rw [if_neg isOpen] at isReturned
    cases isEntry : owners.registry.entries.get lease.sessionId with
    | none =>
      simp only [isEntry] at isReturned
      cases isReturned
    | some existing =>
      simp only [isEntry] at isReturned
      cases isReturned
      obtain ⟨renewer, isRenewer, isAlive⟩ :=
        (clean (Bool.eq_false_iff.mpr isOpen) lease isAttached existing isEntry).1
      have inside := (List.getElem?_eq_some_iff.mp isRenewer).1
      refine ⟨⟨existing, isEntry, rfl⟩, renewer, ?_, isAlive⟩
      exact (getElem?_append_left inside).trans isRenewer

theorem adopts_insert (isReturned : (owners.insert task).1 = some signals)
    (isAttached : owners.attached (.insert task) = some lease) :
    (owners.insert task).2.Adopts lease.sessionId signals := by
  have isTask := attached_insert isAttached
  unfold Owners.insert at isReturned ⊢
  simp only [isTask] at isReturned ⊢
  cases isReturned
  refine ⟨⟨_, (Keyed.get_insert _).trans (if_pos rfl), rfl⟩, ?_⟩
  exact ⟨_, getElem?_concat_length, rfl⟩

theorem Orderly.sound (orderly : owners.Orderly) {step : OwnerStep} (clean : owners.Clean step) :
    owners.Sound step := by
  constructor
  · intro signals isReturned lease isAttached
    cases step with
    | attach task => exact adopts_attach clean isReturned isAttached
    | insert task => exact adopts_insert isReturned isAttached
    | _ => cases isReturned
  · intro renewer isEnding
    unfold ending at isEnding
    split at isEnding
    next epoch answered =>
      obtain ⟨isRenewer, conditions⟩ := filter_eq_some_iff.mp isEnding
      obtain ⟨owns, isReleasing⟩ := of_decide_eq_true conditions
      have before := orderly.renewers epoch renewer isRenewer
      have releasing : renewer.stage = .releasing true ∨ renewer.stage = .releasing false := by
        simpa using isReleasing
      rcases before.releasing releasing with cancelled | isLost
      · exact (before.stopped cancelled).resolve_right (not_not_intro owns)
      · exact .inr (.inr isLost)
    · cases isEnding

theorem Orderly.settled (orderly : owners.Orderly) : owners.Settled where
  once := orderly.ledger.once
  calls renewer member := by
    obtain ⟨epoch, isRenewer⟩ := getElem?_of_mem member
    exact (orderly.renewers epoch renewer isRenewer).calls
  kept epoch renewer isRenewer := (orderly.renewers epoch renewer isRenewer).kept

theorem orderly_start : Owners.start.Orderly where
  ledger := ⟨nodup_nil, fun _ _ isLive => (nomatch isLive), fun _ member => (nomatch member),
    fun _ member => (nomatch member), fun _ member => (nomatch member)⟩
  renewers epoch renewer isRenewer := by cases isRenewer
  entries sessionId entry isEntry := by cases isEntry
  attaching task lease isTask := by
    rcases isTask with isTask | isTask
    · cases isTask
    · cases isTask

/-- Each attached lease is adopted and ends once. -/
theorem adoption_sound (steps : List OwnerStep)
    (clean : EachStep Owners.step Owners.Clean Owners.start steps) :
    EachStep Owners.step Owners.Sound Owners.start steps ∧
      (steps.foldl Owners.step Owners.start).Settled := by
  have preserved (owners : Owners) (step : OwnerStep) (orderly : owners.Orderly)
      (isClean : owners.Clean step) := orderly.step isClean
  constructor
  · exact clean.ensures preserved (fun owners step orderly isClean => orderly.sound isClean)
      orderly_start
  · exact (EachStep.invariant preserved orderly_start clean).settled

def sampleKeys : SessionKeys := ⟨⟨.fill 1⟩, .fill 2⟩

def sampleRuntime : RuntimeId := .fill 3

/-- The next lease is drained. -/
def sampleTerm : List OwnerStep :=
  [.acquire (some 0) sampleKeys sampleRuntime, .attach 0, .insert 0, .recheck 0, .renew 0 true,
    .release sampleKeys 1, .cancelled 0, .callRelease 0 true true,
    .acquire (some 1) sampleKeys sampleRuntime, .attach 1, .insert 1, .startDrainAll, .recheck 1,
    .cancelled 1, .callRelease 1 true true]

theorem sampleTerm_sound : EachStep Owners.step Owners.Sound Owners.start sampleTerm ∧
    (sampleTerm.foldl Owners.step Owners.start).Settled :=
  adoption_sound sampleTerm (by decide +kernel)

def sampleStale : List OwnerStep :=
  [.acquire (some 0) sampleKeys sampleRuntime, .attach 0, .insert 0, .recheck 0, .expire sampleKeys,
    .renew 0 true, .acquire (some 1) sampleKeys sampleRuntime, .attach 1]

/-- The new lease is given back, for an entry whose loss has been signalled. -/
theorem sampleStale_unsound : ¬ (EachStep Owners.step Owners.Sound Owners.start sampleStale ∧
    (sampleStale.foldl Owners.step Owners.start).Settled) := by
  rintro ⟨⟨-, -, -, -, -, -, -, last, -⟩, -⟩
  have adopts := last.1 (.ofEpoch 0) (by decide +kernel) _ rfl
  obtain ⟨-, renewer, isRenewer, isAlive⟩ := adopts
  cases isRenewer
  cases isAlive

end Owners

end Buzz.Audio
