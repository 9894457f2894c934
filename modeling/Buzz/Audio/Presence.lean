import Buzz.Audio.OneRoom

/-! Who is in a room, and how long the room stays the live one of its channel. -/

namespace Buzz.Audio

open Nostr Library Library.Runs Option

namespace Manager

def Present (manager : Manager) (place : ℕ) (peerId : Uuid) : Prop :=
  ∃ object peer, manager.objects[place]? = some object ∧ (peerId, peer) ∈ object.peers.entries

variable {manager : Manager} {place room task : ℕ} {peerId other : Uuid} {key : RoomKey}

theorem present_changeRoom (entering : Uuid → Prop) {change : Room → Room}
    (before : ∀ object, manager.objects[room]? = some object →
      ∀ entry ∈ (change object).peers.entries, entry ∈ object.peers.entries ∨ entering entry.1)
    (present : (manager.changeRoom room change).Present place peerId) :
    manager.Present place peerId ∨ (room = place ∧ entering peerId) := by
  obtain ⟨changed, peer, isChanged, member⟩ := present
  rw [getElem?_changeRoom] at isChanged
  obtain ⟨object, isObject, rfl⟩ := map_eq_some_iff.mp isChanged
  by_cases same : room = place
  · subst same
    rw [if_pos rfl] at member
    rcases before object isObject _ member with old | new
    · exact .inl ⟨object, peer, isObject, old⟩
    · exact .inr ⟨rfl, new⟩
  · rw [if_neg same] at member
    exact .inl ⟨object, peer, isObject, member⟩

variable {entry : Uuid × AudioPeer}

theorem entries_removePeer {object : Room}
    (member : entry ∈ (object.removePeer peerId).peers.entries) :
    entry ∈ object.peers.entries ∧ entry.1 ≠ peerId := by
  unfold Room.removePeer at member
  split at member
  next absent => exact ⟨member, object.peers.get_eq_none.mp absent entry member⟩
  · exact object.peers.mem_erase.mp member

theorem present_removePeer
    (present : (manager.changeRoom room (·.removePeer peerId)).Present place other) :
    manager.Present place other ∧ (place = room → other ≠ peerId) := by
  constructor
  · apply (present_changeRoom (fun _ => False) ?_ present).resolve_right
    · exact (·.2)
    · exact fun object _ entry member => .inl (entries_removePeer member).1
  · rintro rfl
    obtain ⟨changed, peer, isChanged, member⟩ := present
    rw [getElem?_changeRoom] at isChanged
    obtain ⟨object, -, rfl⟩ := map_eq_some_iff.mp isChanged
    rw [if_pos rfl] at member
    exact (entries_removePeer member).2

/-- An admission brings no one into a room but the peer that it is for. -/
def Introduces {Answer : Type} (admission : Room → Except AdmissionError Answer × Room)
    (peerId : Uuid) : Prop :=
  ∀ object, ∀ entry ∈ (admission object).2.peers.entries,
    entry ∈ object.peers.entries ∨ entry.1 = peerId

variable {pubkey : String} {version : UInt8}

theorem introduces_addPeer :
    Introduces (·.addPeer peerId pubkey version) peerId := by
  intro object entry member
  dsimp only at member
  rcases @History.addPeer_cases peerId pubkey version object with
    ⟨cause, refused⟩ | ⟨given, next, entered, -⟩
  · rw [refused] at member
    exact .inl member
  · rw [entered] at member
    exact (object.peers.mem_insert.mp member).symm.imp (·.1) (congrArg Prod.fst)

theorem introduces_addPeerAtIndex {index : UInt8} :
    Introduces (·.addPeerAtIndex peerId pubkey version index) peerId := by
  intro object entry member
  dsimp only at member
  rcases @History.addPeerAtIndex_cases peerId pubkey version index object with
    ⟨cause, refused⟩ | ⟨entered, -⟩
  · rw [refused] at member
    exact .inl member
  · rw [entered] at member
    exact (object.peers.mem_insert.mp member).symm.imp (·.1) (congrArg Prod.fst)

variable {fits : Origin → Bool}

theorem present_enter {Answer : Type} {admission : Room → Except AdmissionError Answer × Room}
    (introduces : Introduces admission peerId)
    (present : (manager.enter task fits peerId admission).Present place other) :
    manager.Present place other ∨ other = peerId := by
  unfold Manager.enter at present
  split at present
  next origin key room isTask =>
    cases isObject : manager.objects[room]? with
    | none =>
      rw [isObject] at present
      exact .inl present
    | some object =>
      rw [isObject] at present
      dsimp only at present
      have entered (next : (manager.changeRoom room fun _ => (admission object).2).Present place
          other) : manager.Present place other ∨ other = peerId := by
        refine (present_changeRoom (· = peerId) ?_ next).imp
          id And.right
        intro same isSame entry member
        cases isObject.symm.trans isSame
        exact introduces object entry member
      split at present
      · split at present
        · exact entered present
        · exact entered present
      · exact .inl present
  · exact .inl present

theorem entries_removePeerAndCheckEnded {object : Room}
    (member : entry ∈ (object.removePeerAndCheckEnded peerId).2.peers.entries) :
    entry ∈ object.peers.entries := by
  rcases @History.removePeerAndCheckEnded_cases peerId object with same | ⟨peer, -, ended | stays⟩
  · rw [same] at member
    exact member
  · rw [ended] at member
    exact (object.peers.mem_erase.mp member).1
  · rw [stays] at member
    exact (object.peers.mem_erase.mp member).1

theorem present_leave (present : (manager.leave task).Present place other) :
    manager.Present place other := by
  unfold Manager.leave at present
  split at present
  next key room peerId isTask =>
    cases isObject : manager.objects[room]? with
    | none =>
      rw [isObject] at present
      exact present
    | some object =>
      rw [isObject] at present
      dsimp only at present
      have before (next : (manager.changeRoom room fun _ =>
          (object.removePeerAndCheckEnded peerId).2).Present place other) :
          manager.Present place other := by
        apply (present_changeRoom (fun _ => False) ?_ next).resolve_right
        · exact (·.2)
        · intro same isSame entry member
          cases isObject.symm.trans isSame
          exact .inl (entries_removePeerAndCheckEnded member)
      split at present
      · exact before present
      · exact before present
  · exact (present_removePeer present).1
  · split at present
    · exact present
    · exact present
  · exact present

theorem present_getOrCreate (present : (manager.getOrCreate key).2.Present place other) :
    manager.Present place other := by
  unfold Manager.getOrCreate at present
  split at present
  · exact present
  · obtain ⟨object, peer, isObject, member⟩ := present
    cases Locks.getElem?_concat isObject with
    | inl old => exact ⟨object, peer, old, member⟩
    | inr new =>
      obtain ⟨-, rfl⟩ := new
      cases member

theorem present_cleanupIfEmpty (present : (manager.cleanupIfEmpty key).Present place other) :
    manager.Present place other := by
  unfold Manager.cleanupIfEmpty at present
  split at present
  · exact present
  · exact present

theorem present_step {step : Step} (present : (manager.step step).Present place other) :
    manager.Present place other ∨ step.draws = some other := by
  cases step with
  | getOrCreate task origin key =>
    unfold Manager.step at present
    dsimp only at present
    split at present
    · exact .inl present
    · exact .inl (present_getOrCreate present)
  | addPeer task peerId pubkey version =>
    exact (present_enter introduces_addPeer present).imp id fun same => congrArg some same.symm
  | addPeerAtIndex task peerId pubkey version index =>
    exact (present_enter introduces_addPeerAtIndex present).imp id
      fun same => congrArg some same.symm
  | giveUp task cleansUp =>
    unfold Manager.step at present
    dsimp only at present
    split at present
    · split at present
      · exact .inl (present_cleanupIfEmpty present)
      · exact .inl present
    · exact .inl present
  | leave task => exact .inl (present_leave present)
  | archived task succeeded =>
    unfold Manager.step at present
    dsimp only at present
    split at present
    · split at present
      · exact .inl present
      · refine .inl ((present_changeRoom (fun _ => False) ?_ present).resolve_right
          (·.2))
        exact fun object _ entry member => .inl member
    · exact .inl present
  | cleanup task =>
    unfold Manager.step at present
    dsimp only at present
    split at present
    · exact .inl (present_cleanupIfEmpty present)
    · exact .inl present
  | unregister task =>
    unfold Manager.step at present
    dsimp only at present
    split at present
    · exact .inl (present_removePeer present).1
    · exact .inl present

theorem live_cleanupIfEmpty {cleaned : RoomKey} (live : manager.rooms.get key = some place)
    (present : manager.Present place peerId) :
    (manager.cleanupIfEmpty cleaned).rooms.get key = some place := by
  unfold Manager.cleanupIfEmpty
  cases isEmptied : manager.emptied cleaned with
  | none => exact live
  | some room =>
    obtain ⟨isRoom, empty, isEmpty, noPeers⟩ := emptied_eq_some.mp isEmptied
    obtain ⟨object, peer, isObject, member⟩ := present
    have other : key ≠ cleaned := by
      rintro rfl
      cases live.symm.trans isRoom
      cases isObject.symm.trans isEmpty
      rw [noPeers] at member
      cases member
    exact (manager.rooms.get_erase).trans ((if_neg other).trans live)

theorem live_getOrCreate {created : RoomKey} (live : manager.rooms.get key = some place) :
    (manager.getOrCreate created).2.rooms.get key = some place := by
  unfold Manager.getOrCreate
  split
  · exact live
  next absent =>
    have other : key ≠ created := by
      rintro rfl
      cases live.symm.trans absent
    exact (manager.rooms.get_insert).trans ((if_neg other).trans live)

theorem rooms_enter {Answer : Type} {admission : Room → Except AdmissionError Answer × Room} :
    (manager.enter task fits peerId admission).rooms = manager.rooms := by
  unfold Manager.enter
  split
  · split
    · rfl
    · split
      · dsimp only
        split
        · rfl
        · rfl
      · rfl
  · rfl

theorem rooms_leave : (manager.leave task).rooms = manager.rooms := by
  unfold Manager.leave
  split
  · split
    · rfl
    · dsimp only
      split
      · rfl
      · rfl
  · rfl
  · split
    · rfl
    · rfl
  · rfl

theorem live_step {step : Step} (live : manager.rooms.get key = some place)
    (present : manager.Present place peerId) : (manager.step step).rooms.get key = some place := by
  cases step with
  | getOrCreate task origin created =>
    unfold Manager.step
    dsimp only
    split
    · exact live
    · exact live_getOrCreate live
  | addPeer task peerId pubkey version => exact (congrArg (·.get key) rooms_enter).trans live
  | addPeerAtIndex task peerId pubkey version index =>
    exact (congrArg (·.get key) rooms_enter).trans live
  | giveUp task cleansUp =>
    unfold Manager.step
    dsimp only
    split
    · split
      · exact live_cleanupIfEmpty live present
      · exact live
    · exact live
  | leave task => exact (congrArg (·.get key) rooms_leave).trans live
  | archived task succeeded =>
    unfold Manager.step
    dsimp only
    split
    · split
      · exact live
      · exact live
    · exact live
  | cleanup task =>
    unfold Manager.step
    dsimp only
    split
    · exact live_cleanupIfEmpty live present
    · exact live
  | unregister task =>
    unfold Manager.step
    dsimp only
    split
    · exact live
    · exact live

end Manager

end Buzz.Audio
