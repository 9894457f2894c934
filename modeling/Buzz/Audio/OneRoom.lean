import Buzz.Audio.Admission
import Buzz.Audio.Manager
import Buzz.Library.Slots

/-! When all peers of a channel are in the one room that the map holds. -/

namespace Buzz.Audio

open Nostr Library Library.Runs List Option

namespace Manager

def OneRoom (manager : Manager) : Prop :=
  ∀ first second (room other : Room), manager.objects[first]? = some room →
    manager.objects[second]? = some other → ∀ peer ∈ room.peers.entries,
      ∀ another ∈ other.peers.entries, room.key = other.key →
        first = second ∧ manager.rooms.get room.key = some first

def Unjoined (manager : Manager) (task room : ℕ) : Prop :=
  ∀ entry ∈ manager.tasks.entries, entry.1 ≠ task → entry.2.joins room = false

/-- It has ended, or no one else is on the way into it. -/
def CleansUp (manager : Manager) (task : ℕ) (key : RoomKey) : Prop :=
  ∀ room ∈ manager.emptied key, manager.Unjoined task room ∨
    ∃ object ∈ manager.objects[room]?, object.guard.ended

/-- The channel whose room it removes if no one is in it. -/
def cleaning (manager : Manager) : Step → Option (ℕ × RoomKey)
  | .giveUp task true =>
    match manager.tasks.get task with
    | some (.joining origin key _) => if origin = .stream then none else some (task, key)
    | _ => none
  | .cleanup task =>
    match manager.tasks.get task with
    | some (.leaving key) => some (task, key)
    | _ => none
  | _ => none

def reopening (manager : Manager) : Step → Option (ℕ × ℕ)
  | .archived task false =>
    match manager.tasks.get task with
    | some (.archiving _ room) => some (task, room)
    | _ => none
  | _ => none

/-- A cleanup, or a room that opens again, shuts out no join that has begun. -/
def Undisturbed (manager : Manager) (step : Step) : Prop :=
  (∀ cleaned ∈ manager.cleaning step, manager.CleansUp cleaned.1 cleaned.2) ∧
    ∀ opened ∈ manager.reopening step, ∀ object ∈ manager.objects[opened.2]?,
      manager.rooms.get object.key = some opened.2 ∨ manager.Unjoined opened.1 opened.2

instance (manager : Manager) (task room : ℕ) : Decidable (manager.Unjoined task room) :=
  inferInstanceAs (Decidable (∀ entry ∈ manager.tasks.entries, _))

instance (manager : Manager) (task : ℕ) (key : RoomKey) : Decidable (manager.CleansUp task key) :=
  inferInstanceAs (Decidable (∀ room ∈ manager.emptied key, _))

instance (manager : Manager) (step : Step) : Decidable (manager.Undisturbed step) :=
  inferInstanceAs (Decidable (_ ∧ _))

/-- A room that is no longer live is empty, and no one can enter it. -/
structure Sound (manager : Manager) : Prop where
  live : ∀ key room, manager.rooms.get key = some room →
    ∃ object, manager.objects[room]? = some object ∧ object.key = key
  shut : ∀ room object, manager.objects[room]? = some object →
    manager.rooms.get object.key ≠ some room → object.peers.entries = [] ∧
      (object.guard.ended ∨ ∀ entry ∈ manager.tasks.entries, entry.2.joins room = false)

variable {manager : Manager} {task room : ℕ} {key : RoomKey} {phase : Task} {object : Room}

section

variable (sound : manager.Sound)

include sound

theorem Sound.oneRoom : manager.OneRoom := by
  intro first second room other isRoom isOther peer present another anotherPresent sameKey
  have isLive : ∀ {place : ℕ} {object : Room} {peer : Uuid × AudioPeer},
      manager.objects[place]? = some object → peer ∈ object.peers.entries →
        manager.rooms.get object.key = some place := by
    intro place object peer isObject member
    by_contra notLive
    have empty := (sound.shut place object isObject notLive).1
    rw [empty] at member
    cases member
  have firstLive := isLive isRoom present
  have secondLive := isLive isOther anotherPresent
  rw [← sameKey] at secondLive
  exact ⟨Option.some.inj (firstLive.symm.trans secondLive), firstLive⟩

theorem Sound.setTask
    (joins : ∀ room, phase.joins room → ∀ object, manager.objects[room]? = some object →
      manager.rooms.get object.key = some room) : (manager.setTask task phase).Sound where
  live := sound.live
  shut room object isObject notLive := by
    obtain ⟨empty, closed⟩ := sound.shut room object isObject notLive
    refine ⟨empty, closed.imp id fun unjoined entry member => ?_⟩
    rcases (manager.tasks.mem_insert).mp member with rfl | ⟨old, -⟩
    · rw [← Bool.not_eq_true]
      exact fun isJoin => notLive (joins room isJoin object isObject)
    · exact unjoined entry old

theorem Sound.settle (joins : ∀ room, phase.joins room = false) :
    (manager.setTask task phase).Sound :=
  sound.setTask fun room isJoin => absurd ((joins room).symm.trans isJoin) Bool.false_ne_true

theorem Sound.finish : (manager.finish task).Sound where
  live := sound.live
  shut room object isObject notLive := by
    obtain ⟨empty, closed⟩ := sound.shut room object isObject notLive
    refine ⟨empty, closed.imp id fun unjoined entry member => ?_⟩
    exact unjoined entry (manager.tasks.mem_erase.mp member).1

end

section rooms

variable {change : Room → Room}

theorem getElem?_changeRoom {place : ℕ} :
    (manager.changeRoom room change).objects[place]? =
      (manager.objects[place]?).map fun object => if room = place then change object else object := by
  rw [changeRoom, getElem?_modify]
  cases manager.objects[place]? with
  | none | some object => split <;> rfl

section

variable (sound : manager.Sound)

include sound

theorem Sound.changeRoom
    (sameKey : ∀ object, manager.objects[room]? = some object → (change object).key = object.key)
    (shut : ∀ object, manager.objects[room]? = some object → manager.rooms.get object.key ≠ some room →
      (change object).peers.entries = [] ∧ ((change object).guard.ended ∨
        ∀ entry ∈ manager.tasks.entries, entry.2.joins room = false)) :
    (manager.changeRoom room change).Sound where
  live key place isLive := by
    obtain ⟨object, isObject, isKey⟩ := sound.live key place isLive
    rw [getElem?_changeRoom, isObject]
    by_cases same : room = place
    · subst same
      exact ⟨_, congrArg some (if_pos rfl), (sameKey object isObject).trans isKey⟩
    · exact ⟨object, congrArg some (if_neg same), isKey⟩
  shut place changed isChanged notLive := by
    rw [getElem?_changeRoom] at isChanged
    obtain ⟨object, isObject, rfl⟩ := map_eq_some_iff.mp isChanged
    by_cases same : room = place
    · subst same
      rw [if_pos rfl] at notLive ⊢
      rw [sameKey object isObject] at notLive
      exact shut object isObject notLive
    · rw [if_neg same] at notLive ⊢
      exact sound.shut place object isObject notLive

theorem Sound.shrink (sameKey : ∀ object : Room, (change object).key = object.key)
    (fewer : ∀ object : Room, object.peers.entries = [] → (change object).peers.entries = [])
    (ended : ∀ object : Room, object.guard.ended → (change object).guard.ended) :
    (manager.changeRoom room change).Sound := by
  refine sound.changeRoom (fun object _ => sameKey object) fun object isObject notLive => ?_
  obtain ⟨empty, closed⟩ := sound.shut room object isObject notLive
  exact ⟨fewer object empty, closed.imp (ended object) id⟩

theorem Sound.getOrCreate : (manager.getOrCreate key).2.Sound ∧
    ∀ object, (manager.getOrCreate key).2.objects[(manager.getOrCreate key).1]? = some object →
      (manager.getOrCreate key).2.rooms.get object.key = some (manager.getOrCreate key).1 := by
  unfold Manager.getOrCreate
  cases known : manager.rooms.get key with
  | some room =>
    refine ⟨sound, fun object isObject => ?_⟩
    obtain ⟨other, isOther, isKey⟩ := sound.live key room known
    cases isObject.symm.trans isOther
    rw [isKey]
    exact known
  | none =>
    dsimp only
    constructor
    · constructor
      · intro other place isLive
        rw [Keyed.get_insert] at isLive
        split at isLive
        next same =>
          cases isLive
          subst same
          exact ⟨.new other.communityId other.channelId, getElem?_concat_length, rfl⟩
        · obtain ⟨object, isObject, isKey⟩ := sound.live other place isLive
          have inside := (List.getElem?_eq_some_iff.mp isObject).1
          exact ⟨object, (getElem?_append_left inside).trans isObject, isKey⟩
      · intro place object isObject notLive
        rw [Keyed.get_insert] at notLive
        cases Locks.getElem?_concat isObject with
        | inl old =>
          apply sound.shut place object old
          intro isLive
          have other : object.key ≠ key := by
            rintro rfl
            cases known.symm.trans isLive
          exact notLive ((if_neg other).trans isLive)
        | inr new =>
          obtain ⟨rfl, rfl⟩ := new
          exact absurd (if_pos rfl) notLive
    · intro object isObject
      cases getElem?_concat_length.symm.trans isObject
      rw [Keyed.get_insert]
      exact if_pos rfl

end

theorem emptied_eq_some : manager.emptied key = some room ↔
    manager.rooms.get key = some room ∧
      ∃ object, manager.objects[room]? = some object ∧ object.peers.entries = [] := by
  rw [emptied, filter_eq_some_iff]
  apply and_congr_right
  intro _
  cases manager.objects[room]? with
  | none => simp
  | some object => simp [Room.isEmpty]

theorem Sound.cleanup (sound : manager.Sound)
    (shut : ∀ room ∈ manager.emptied key, (∃ object ∈ manager.objects[room]?,
      object.guard.ended) ∨ ∀ entry ∈ manager.tasks.entries, entry.2.joins room = false) :
    (manager.cleanupIfEmpty key).Sound := by
  unfold cleanupIfEmpty
  cases isEmptied : manager.emptied key with
  | none => exact sound
  | some room =>
    obtain ⟨isLive, empty, isEmpty, noPeers⟩ := emptied_eq_some.mp isEmptied
    constructor
    · intro other place live
      rw [Keyed.get_erase] at live
      split at live
      · cases live
      · exact sound.live other place live
    · intro place object isObject notLive
      rw [Keyed.get_erase] at notLive
      by_cases wasLive : manager.rooms.get object.key = some place
      · have same : object.key = key := by
          by_contra other
          exact notLive ((if_neg other).trans wasLive)
        rw [same, isLive] at wasLive
        cases wasLive
        cases isObject.symm.trans isEmpty
        refine ⟨noPeers, (shut room isEmptied).imp ?_ id⟩
        rintro ⟨other, isOther, ended⟩
        cases isObject.symm.trans isOther
        exact ended
      · exact sound.shut place object isObject wasLive

end rooms

section steps

theorem cleanup_finish : (manager.cleanupIfEmpty key).finish task =
    (manager.finish task).cleanupIfEmpty key := by
  have same : (manager.finish task).emptied key = manager.emptied key := rfl
  rw [cleanupIfEmpty, cleanupIfEmpty, same]
  cases manager.emptied key <;> rfl

theorem unjoined_finish (unjoined : manager.Unjoined task room) :
    ∀ entry ∈ (manager.finish task).tasks.entries, entry.2.joins room = false := by
  intro entry member
  obtain ⟨old, other⟩ := manager.tasks.mem_erase.mp member
  exact unjoined entry old other

theorem Sound.cleanup_finish (sound : manager.Sound) (cleansUp : manager.CleansUp task key) :
    ((manager.cleanupIfEmpty key).finish task).Sound := by
  rw [Manager.cleanup_finish]
  apply sound.finish.cleanup
  intro room isEmptied
  exact (cleansUp room isEmptied).symm.imp id unjoined_finish

variable {peerId : Uuid}

theorem key_removePeer : (object.removePeer peerId).key = object.key := by
  rcases @History.removePeer_cases peerId object with same | ⟨peer, -, left⟩
  · rw [same]
  · rw [left]
    rfl

theorem Sound.removePeer (sound : manager.Sound) :
    (manager.changeRoom room (·.removePeer peerId)).Sound := by
  apply sound.shrink
  · exact fun object => key_removePeer
  · intro object empty
    rcases @History.removePeer_cases peerId object with same | ⟨peer, present, -⟩
    · rw [same]
      exact empty
    · rw [Keyed.get_eq_some, empty] at present
      cases present
  · intro object ended
    rcases @History.removePeer_cases peerId object with same | ⟨peer, -, left⟩
    · rw [same]
      exact ended
    · rw [left]
      exact ended

theorem Sound.replace (sound : manager.Sound) (isObject : manager.objects[room]? = some object)
    {next : Room} (sameKey : next.key = object.key)
    (shut : manager.rooms.get object.key ≠ some room → object.peers.entries = [] →
      (object.guard.ended ∨ ∀ entry ∈ manager.tasks.entries, entry.2.joins room = false) →
        next.peers.entries = [] ∧ (object.guard.ended → next.guard.ended)) :
    (manager.changeRoom room fun _ => next).Sound := by
  apply sound.changeRoom
  · intro other isOther
    cases isObject.symm.trans isOther
    exact sameKey
  · intro other isOther notLive
    cases isObject.symm.trans isOther
    obtain ⟨empty, closed⟩ := sound.shut room object isObject notLive
    obtain ⟨stillEmpty, stillEnded⟩ := shut notLive empty closed
    exact ⟨stillEmpty, closed.imp stillEnded id⟩

structure Admits {Answer : Type} (admission : Room → Except AdmissionError Answer × Room) : Prop where
  sameKey : ∀ object, (admission object).2.key = object.key
  refused : ∀ object, object.guard.ended → (admission object).2 = object

variable {pubkey : String} {version : UInt8}

theorem admits_addPeer :
    Admits fun object => object.addPeer peerId pubkey version where
  sameKey object := by
    rcases @History.addPeer_cases peerId pubkey version object with
      ⟨cause, refused⟩ | ⟨given, next, entered, -⟩
    · rw [refused]
    · rw [entered]
      rfl
  refused object ended := by
    rw [Room.addPeer, if_pos ended]

theorem admits_addPeerAtIndex {index : UInt8} :
    Admits fun object => object.addPeerAtIndex peerId pubkey version index where
  sameKey object := by
    rcases @History.addPeerAtIndex_cases peerId pubkey version index object with
      ⟨cause, refused⟩ | ⟨entered, -⟩
    · rw [refused]
    · rw [entered]
      rfl
  refused object ended := by
    rw [Room.addPeerAtIndex, if_pos ended]

section

variable (sound : manager.Sound)

include sound

theorem Sound.enter {Answer : Type} {fits : Origin → Bool}
    {admission : Room → Except AdmissionError Answer × Room} (admits : Admits admission) :
    (manager.enter task fits peerId admission).Sound := by
  unfold Manager.enter
  split
  next origin key room isTask =>
    cases isObject : manager.objects[room]? with
    | none => exact sound
    | some object =>
      dsimp only
      split
      · have changed : (manager.changeRoom room fun _ => (admission object).2).Sound := by
          apply sound.replace isObject (admits.sameKey object)
          intro notLive empty closed
          have ended : object.guard.ended := by
            rcases closed with ended | unjoined
            · exact ended
            · have joined := unjoined _ (manager.tasks.get_eq_some.mp isTask)
              exact absurd (joined.symm.trans (decide_eq_true rfl)) Bool.false_ne_true
          rw [admits.refused object ended]
          exact ⟨empty, id⟩
        split
        · exact changed.settle fun _ => rfl
        · exact changed.finish
      · exact sound
  · exact sound

theorem Sound.removePeerAndCheckEnded (isObject : manager.objects[room]? = some object) :
    (manager.changeRoom room fun _ => (object.removePeerAndCheckEnded peerId).2).Sound := by
  rcases @History.removePeerAndCheckEnded_cases peerId object with same | ⟨peer, present, left⟩
  · rw [same]
    exact sound.replace isObject rfl fun _ empty _ => ⟨empty, id⟩
  · have someone : object.peers.entries ≠ [] := by
      intro empty
      rw [Keyed.get_eq_some, empty] at present
      cases present
    have sameKey : (object.removePeerAndCheckEnded peerId).2.key = object.key := by
      rcases left with ended | stays
      · rw [ended]
        rfl
      · rw [stays]
        rfl
    exact sound.replace isObject sameKey fun _ empty _ => absurd empty someone

theorem Sound.leave : (manager.leave task).Sound := by
  unfold Manager.leave
  split
  next key room peerId isTask =>
    cases isObject : manager.objects[room]? with
    | none => exact sound
    | some object =>
      dsimp only
      split
      · exact (sound.removePeerAndCheckEnded isObject).settle fun _ => rfl
      · exact (sound.removePeerAndCheckEnded isObject).settle fun _ => rfl
  · exact sound.removePeer.settle fun _ => rfl
  · split
    · exact sound.finish
    · exact sound.settle fun _ => rfl
  · exact sound

theorem Sound.step {step : Step} (undisturbed : manager.Undisturbed step) :
    (manager.step step).Sound := by
  cases step with
  | getOrCreate task origin key =>
    rw [Manager.step]
    split
    · exact sound
    · obtain ⟨created, live⟩ := @Sound.getOrCreate manager key sound
      apply created.setTask
      intro room joins object isObject
      have same := of_decide_eq_true joins
      subst same
      exact live object isObject
  | addPeer task peerId pubkey version => exact sound.enter admits_addPeer
  | addPeerAtIndex task peerId pubkey version index => exact sound.enter admits_addPeerAtIndex
  | giveUp task cleansUp =>
    rw [Manager.step]
    split
    next origin key room isTask =>
      split
      next both =>
        obtain ⟨rfl, here⟩ := both
        have isCleaning : manager.cleaning (.giveUp task true) = some (task, key) := by
          rw [cleaning, isTask]
          exact if_neg here
        exact sound.cleanup_finish (undisturbed.1 _ isCleaning)
      · exact sound.finish
    · exact sound
  | leave task => exact sound.leave
  | archived task succeeded =>
    rw [Manager.step]
    split
    next key room isTask =>
      cases succeeded with
      | true => exact sound.settle fun _ => rfl
      | false =>
        change ((manager.finish task).changeRoom room Room.clearEnded).Sound
        apply sound.finish.changeRoom
        · exact fun _ _ => rfl
        · intro object isObject notLive
          refine ⟨(sound.shut room object isObject notLive).1, .inr ?_⟩
          have isReopening : manager.reopening (.archived task false) = some (task, room) := by
            rw [reopening, isTask]
          rcases undisturbed.2 _ isReopening object isObject with live | unjoined
          · exact absurd live notLive
          · exact unjoined_finish unjoined
    · exact sound
  | cleanup task =>
    rw [Manager.step]
    split
    next key isTask =>
      have isCleaning : manager.cleaning (.cleanup task) = some (task, key) := by
        rw [cleaning, isTask]
      exact sound.cleanup_finish (undisturbed.1 _ isCleaning)
    · exact sound
  | unregister task =>
    rw [Manager.step]
    split
    · exact sound.removePeer.finish
    · exact sound

end

theorem start_sound : start.Sound where
  live _ _ isLive := nomatch isLive
  shut _ _ isObject := nomatch isObject

end steps

end Manager

/-- While no cleanup shuts out a join that has begun. -/
theorem one_room_per_channel (steps : List Step)
    (undisturbed : EachStep Manager.step Manager.Undisturbed .start steps) :
    EachStep Manager.step (fun manager step => (manager.step step).OneRoom) .start steps :=
  undisturbed.ensures (fun _ _ sound => sound.step)
    (fun _ _ sound within => (sound.step within).oneRoom) Manager.start_sound

def sampleKey : RoomKey := ⟨⟨.fill 0⟩, .fill 0⟩

def samplePeer (byte : UInt8) : Uuid := .fill byte

def sampleJoins : List Step :=
  [.getOrCreate 0 .owner sampleKey, .giveUp 0 true, .getOrCreate 1 .owner sampleKey,
    .getOrCreate 2 .stream sampleKey, .addPeer 1 (samplePeer 1) "alice" 2,
    .addPeer 2 (samplePeer 2) "bob" 2, .leave 1, .cleanup 1]

theorem sampleJoins_one_room :
    EachStep Manager.step (fun manager step => (manager.step step).OneRoom) .start sampleJoins :=
  one_room_per_channel sampleJoins (by decide +kernel)

def sampleSplit : List Step :=
  [.getOrCreate 0 .owner sampleKey, .getOrCreate 1 .owner sampleKey, .giveUp 0 true,
    .getOrCreate 2 .owner sampleKey, .addPeer 2 (samplePeer 2) "bob" 2,
    .addPeer 1 (samplePeer 1) "alice" 2]

theorem sampleSplit_two_rooms : ¬ (sampleSplit.foldl Manager.step .start).OneRoom := by
  have filled : ∀ place < 2, ∃ room,
      (sampleSplit.foldl Manager.step .start).objects[place]? = some room ∧
        room.key = sampleKey ∧ ∃ peer, peer ∈ room.peers.entries := by
    intro place inside
    have both : ∀ place < 2, ((sampleSplit.foldl Manager.step .start).objects[place]?).any
        (fun room => room.key = sampleKey && !room.peers.entries.isEmpty) := by
      decide +kernel
    obtain ⟨room, isRoom, holds⟩ := (any_eq_true _ _).mp (both place inside)
    obtain ⟨isKey, someone⟩ := Bool.and_eq_true_iff.mp holds
    refine ⟨room, isRoom, of_decide_eq_true isKey, exists_mem_of_ne_nil _ ?_⟩
    simpa using someone
  intro oneRoom
  obtain ⟨first, isFirst, firstKey, peer, present⟩ := filled 0 (by decide)
  obtain ⟨second, isSecond, secondKey, another, anotherPresent⟩ := filled 1 (by decide)
  have same := (oneRoom 0 1 first second isFirst isSecond peer present another anotherPresent
    (firstKey.trans secondKey.symm)).1
  cases same

end Buzz.Audio
