import Buzz.Audio.Admission

/-! The published roster: a snapshot and the deltas after it give the roster of any later time. -/

namespace Buzz.Audio

open Nostr Library.Runs List

section roster

def sortPeers (peers : List RosterPeer) : List RosterPeer :=
  peers.mergeSort fun first second => first.peerIndex ≤ second.peerIndex

/-- The peer who left is taken out, the one who joined comes in. -/
def RosterSnapshot.apply (self : RosterSnapshot) (delta : RosterDelta) : RosterSnapshot where
  revision := delta.revision
  peers := sortPeers ((self.peers.filter fun peer => delta.left ≠ some peer) ++
    delta.joined.toList)

def Room.roster (self : Room) : List RosterPeer :=
  self.peers.entries.map fun entry => ⟨entry.2.pubkey, entry.2.peerIndex⟩

variable {room : Room} {guard : AdmissionGuard} {peerId : Uuid} {pubkey : String} {index : UInt8}

theorem Room.indices_eq : room.indices = room.roster.map RosterPeer.peerIndex := by
  simp [Room.indices, Room.roster]

theorem sortPeers_perm (peers : List RosterPeer) : (sortPeers peers).Perm peers :=
  mergeSort_perm ..

theorem sortPeers_congr {first second : List RosterPeer} (perm : first.Perm second)
    (distinct : (second.map RosterPeer.peerIndex).Nodup) : sortPeers first = sortPeers second := by
  have order : ∀ peers : List RosterPeer,
      (sortPeers peers).Pairwise fun first second => first.peerIndex ≤ second.peerIndex := by
    intro peers
    have sorted : (sortPeers peers).Pairwise fun first second =>
        decide (first.peerIndex ≤ second.peerIndex) := by
      apply pairwise_mergeSort
      · intro a b c below above
        simp only [decide_eq_true_eq] at below above ⊢
        exact UInt8.le_trans below above
      · intro a b
        simpa using UInt8.le_total a.peerIndex b.peerIndex
    exact sorted.imp of_decide_eq_true
  have same : (sortPeers first).Perm (sortPeers second) :=
    ((sortPeers_perm first).trans perm).trans (sortPeers_perm second).symm
  apply same.eq_of_pairwise _ (order first) (order second)
  intro a b member member' below above
  have inSecond : a ∈ second := perm.mem_iff.mp ((sortPeers_perm first).mem_iff.mp member)
  have inSecond' : b ∈ second := (sortPeers_perm second).mem_iff.mp member'
  exact inj_on_of_nodup_map distinct inSecond inSecond' (UInt8.le_antisymm below above)

theorem Room.rosterSnapshot_sorted (sorted : room.roster.Pairwise fun first second =>
    decide (first.peerIndex ≤ second.peerIndex) = true) :
    room.rosterSnapshot = ⟨room.guard.rosterRevision, room.roster⟩ :=
  congrArg (RosterSnapshot.mk _) (mergeSort_of_pairwise sorted)

theorem rosterSnapshot_enter (fresh : ∀ entry ∈ room.peers.entries, entry.1 ≠ peerId)
    (distinct : (room.enter peerId pubkey index guard).indices.Nodup) :
    (room.enter peerId pubkey index guard).rosterSnapshot =
      room.rosterSnapshot.apply ⟨guard.rosterRevision + 1, some ⟨pubkey, index⟩, none⟩ := by
  have kept : (room.peers.insert peerId ⟨pubkey, index⟩).entries =
      (peerId, ⟨pubkey, index⟩) :: room.peers.entries := by
    apply congrArg (_ :: ·)
    apply filter_eq_self.mpr
    intro entry member
    exact decide_eq_true (fresh entry member)
  have entered : (room.enter peerId pubkey index guard).roster = ⟨pubkey, index⟩ :: room.roster := by
    simp [Room.roster, Room.enter, Room.publish, kept]
  have perm : (((sortPeers room.roster).filter fun _ => true) ++
      [(⟨pubkey, index⟩ : RosterPeer)]).Perm
      (room.enter peerId pubkey index guard).roster := by
    rw [entered, filter_true]
    exact (perm_append_singleton _ _).trans ((sortPeers_perm _).cons _)
  rw [Room.indices_eq] at distinct
  exact congrArg (RosterSnapshot.mk _) (sortPeers_congr perm distinct).symm

theorem rosterSnapshot_leave {peer : AudioPeer} (present : room.peers.get peerId = some peer)
    (distinct : room.indices.Nodup) :
    (room.leave peerId peer).rosterSnapshot = room.rosterSnapshot.apply
      ⟨room.guard.rosterRevision + 1, none, some ⟨peer.pubkey, peer.peerIndex⟩⟩ := by
  have split : room.roster.Perm
      (⟨peer.pubkey, peer.peerIndex⟩ :: (room.leave peerId peer).roster) :=
    (room.peers.perm_erase (room.peers.get_eq_some.mp present)).map _
  rw [Room.indices_eq, (split.map _).nodup_iff, map_cons, nodup_cons] at distinct
  have others : (⟨peer.pubkey, peer.peerIndex⟩ : RosterPeer) ∉ (room.leave peerId peer).roster :=
    fun member => distinct.1 (mem_map_of_mem member)
  have perm : (((sortPeers room.roster).filter fun other =>
      some (⟨peer.pubkey, peer.peerIndex⟩ : RosterPeer) ≠ some other) ++ []).Perm
      (room.leave peerId peer).roster := by
    rw [append_nil]
    have left := ((sortPeers_perm _).trans split).filter fun other =>
      some (⟨peer.pubkey, peer.peerIndex⟩ : RosterPeer) ≠ some other
    have kept : (room.leave peerId peer).roster.filter (fun other =>
        some (⟨peer.pubkey, peer.peerIndex⟩ : RosterPeer) ≠ some other) =
          (room.leave peerId peer).roster := by
      apply filter_eq_self.mpr
      intro other member
      apply decide_eq_true
      intro same
      rw [Option.some.inj same] at others
      exact others member
    rw [filter_cons_of_neg (by simp), kept] at left
    exact left
  exact congrArg (RosterSnapshot.mk _) (sortPeers_congr perm distinct.2).symm

end roster

variable {history : History}

section runs

namespace History

variable (self : History)

def mutates : Operation → Bool
  | .addPeer peerId pubkey requestedVersion =>
    (self.room.addPeer peerId pubkey requestedVersion).1.isOk
  | .addPeerAtIndex peerId pubkey requestedVersion peerIndex =>
    (self.room.addPeerAtIndex peerId pubkey requestedVersion peerIndex).1.isOk
  | .removePeer peerId => (self.room.peers.get peerId).isSome
  | .removePeerAndCheckEnded peerId => (self.room.removePeerAndCheckEnded peerId).1.isSome
  | _ => false

def reportsEnd : Operation → Bool
  | .removePeerAndCheckEnded peerId =>
    (self.room.removePeerAndCheckEnded peerId).1.any (·.2)
  | _ => false

def Fresh : Operation → Prop
  | .addPeer peerId _ _ => ∀ entry ∈ self.room.peers.entries, entry.1 ≠ peerId
  | .addPeerAtIndex peerId _ _ _ => ∀ entry ∈ self.room.peers.entries, entry.1 ≠ peerId
  | _ => True

def count (test : History → Operation → Bool) (self : History) : List Operation → ℕ
  | [] => 0
  | operation :: rest => (test self operation).toNat + count test (self.step operation) rest

end History

structure Room.Follows (first room : Room) (mutations : ℕ) (deltas : List RosterDelta) : Prop where
  sent : room.sent = first.sent ++ deltas
  revision : room.guard.rosterRevision.toNat = first.guard.rosterRevision.toNat + mutations
  after : ∀ delta ∈ deltas, first.guard.rosterRevision < delta.revision
  until_ : ∀ delta ∈ deltas, delta.revision ≤ room.guard.rosterRevision
  replayed : deltas.foldl RosterSnapshot.apply first.rosterSnapshot = room.rosterSnapshot

theorem Room.Follows.same {room next : Room} (sent : next.sent = room.sent)
    (revision : next.guard.rosterRevision = room.guard.rosterRevision)
    (snapshot : next.rosterSnapshot = room.rosterSnapshot) : room.Follows next 0 [] := by
  constructor <;> simp [sent, revision, snapshot]

theorem Room.Follows.trans {first middle last : Room} {mutations more : ℕ}
    {deltas later : List RosterDelta} (start : first.Follows middle mutations deltas)
    (rest : middle.Follows last more later) :
    first.Follows last (mutations + more) (deltas ++ later) := by
  have grown : first.guard.rosterRevision ≤ middle.guard.rosterRevision := by
    rw [UInt64.le_iff_toNat_le, start.revision]
    exact Nat.le_add_right _ _
  have grown' : middle.guard.rosterRevision ≤ last.guard.rosterRevision := by
    rw [UInt64.le_iff_toNat_le, rest.revision]
    exact Nat.le_add_right _ _
  constructor
  · rw [rest.sent, start.sent, append_assoc]
  · rw [rest.revision, start.revision, Nat.add_assoc]
  · intro delta member
    rcases mem_append.mp member with before | after
    · exact start.after delta before
    · exact UInt64.lt_of_le_of_lt grown (rest.after delta after)
  · intro delta member
    rcases mem_append.mp member with before | after
    · exact UInt64.le_trans (start.until_ delta before) grown'
    · exact rest.until_ delta after
  · rw [foldl_append, start.replayed, rest.replayed]

theorem Room.Follows.one {room next : Room} {delta : RosterDelta}
    (revision : next.guard.rosterRevision = room.guard.rosterRevision + 1)
    (same : delta.revision = room.guard.rosterRevision + 1) (sent : next.sent = room.sent ++ [delta])
    (replayed : next.rosterSnapshot = room.rosterSnapshot.apply delta)
    (bounded : room.guard.rosterRevision.toNat + 1 < 2 ^ 64) : room.Follows next 1 [delta] := by
  have value : (room.guard.rosterRevision + 1).toNat = room.guard.rosterRevision.toNat + 1 := by
    rw [UInt64.toNat_add, UInt64.toNat_one, Nat.mod_eq_of_lt bounded]
  have later : room.guard.rosterRevision < room.guard.rosterRevision + 1 := by
    rw [UInt64.lt_iff_toNat_lt, value]
    exact Nat.lt_succ_self _
  constructor
  · exact sent
  · rw [revision, value]
  · simpa [same] using later
  · simp [same, revision]
  · exact replayed.symm

section steps

variable {room : Room} {guard : AdmissionGuard} {peerId : Uuid} {pubkey : String} {index : UInt8}

theorem alloc_revision (given : room.guard.alloc = some (index, guard)) :
    guard.rosterRevision = room.guard.rosterRevision := by
  unfold AdmissionGuard.alloc at given
  split at given
  · cases given
    rfl
  · split at given
    · cases given
    · cases given
      rfl

theorem Room.Follows.enter (fresh : ∀ entry ∈ room.peers.entries, entry.1 ≠ peerId)
    (distinct : (room.enter peerId pubkey index guard).indices.Nodup)
    (same : guard.rosterRevision = room.guard.rosterRevision)
    (bounded : room.guard.rosterRevision.toNat + 1 < 2 ^ 64) :
    room.Follows (room.enter peerId pubkey index guard) 1
      [⟨guard.rosterRevision + 1, some ⟨pubkey, index⟩, none⟩] :=
  .one (congrArg (· + 1) same) (congrArg (· + 1) same) rfl (rosterSnapshot_enter fresh distinct)
    bounded

theorem Room.Follows.leave {peer : AudioPeer} (present : room.peers.get peerId = some peer)
    (distinct : room.indices.Nodup) (bounded : room.guard.rosterRevision.toNat + 1 < 2 ^ 64) :
    room.Follows (room.leave peerId peer) 1
      [⟨room.guard.rosterRevision + 1, none, some ⟨peer.pubkey, peer.peerIndex⟩⟩] :=
  .one rfl rfl rfl (rosterSnapshot_leave present distinct) bounded

end steps

variable {operation : Operation}

theorem History.step_follows (sound : history.Sound) (fresh : history.Fresh operation)
    (bounded : history.room.guard.rosterRevision.toNat +
      (history.mutates operation).toNat < 2 ^ 64) :
    ∃ deltas, history.room.Follows (history.step operation).room
      (history.mutates operation).toNat deltas := by
  have distinct := sound.orderly.distinct
  have next := (sound.step operation).orderly.distinct
  cases operation with
  | addPeer peerId pubkey version =>
    rcases @addPeer_cases peerId pubkey version history.room with
      ⟨cause, refused⟩ | ⟨given, guard, entered, -, -, -, allocated⟩
    · simp only [mutates, step, noted, refused]
      exact ⟨[], .same rfl rfl rfl⟩
    · simp only [mutates, step, noted, entered] at bounded next ⊢
      have same : guard.rosterRevision = history.room.guard.rosterRevision := alloc_revision allocated
      exact ⟨_, .enter fresh next same bounded⟩
  | addPeerAtIndex peerId pubkey version index =>
    rcases @addPeerAtIndex_cases peerId pubkey version index history.room with
      ⟨cause, refused⟩ | ⟨entered, -⟩
    · simp only [mutates, step, noted, refused]
      exact ⟨[], .same rfl rfl rfl⟩
    · simp only [mutates, step, noted, entered] at bounded next ⊢
      exact ⟨_, .enter fresh next rfl bounded⟩
  | removePeer peerId =>
    simp only [mutates, step, Room.removePeer] at bounded ⊢
    cases present : history.room.peers.get peerId with
    | none => exact ⟨[], .same rfl rfl rfl⟩
    | some peer =>
      rw [present] at bounded
      exact ⟨_, .leave present distinct bounded⟩
  | removePeerAndCheckEnded peerId =>
    rcases @removePeerAndCheckEnded_cases peerId history.room with
      absent | ⟨peer, present, ended | left⟩
    · simp only [mutates, step, absent]
      exact ⟨[], .same rfl rfl rfl⟩
    · simp only [mutates, step, ended] at bounded ⊢
      have follows := Room.Follows.leave present distinct bounded
      exact ⟨_, ⟨follows.sent, follows.revision, follows.after, follows.until_, follows.replayed⟩⟩
    · simp only [mutates, step, left] at bounded ⊢
      exact ⟨_, .leave present distinct bounded⟩
  | markEnded | clearEnded => exact ⟨[], .same rfl rfl rfl⟩

theorem History.run_follows (operations : List Operation) (sound : history.Sound)
    (fresh : EachStep History.step History.Fresh history operations)
    (bounded : history.room.guard.rosterRevision.toNat +
      history.count History.mutates operations < 2 ^ 64) :
    ∃ deltas, history.room.Follows (operations.foldl History.step history).room
      (history.count History.mutates operations) deltas := by
  induction operations generalizing history with
  | nil => exact ⟨[], .same rfl rfl rfl⟩
  | cons operation rest ih =>
    rw [count] at bounded ⊢
    rcases step_follows sound fresh.1 (by omega) with ⟨deltas, follows⟩
    have later := ih (sound.step operation) fresh.2 (by rw [follows.revision]; omega)
    rcases later with ⟨more, followed⟩
    exact ⟨deltas ++ more, follows.trans followed⟩

theorem History.step_reportsEnd (kept : operation ≠ .clearEnded) :
    (history.reportsEnd operation).toNat +
      (if (history.step operation).room.guard.ended then 0 else 1) ≤
        if history.room.guard.ended then 0 else 1 := by
  cases operation with
  | addPeer peerId pubkey version =>
    rcases @addPeer_cases peerId pubkey version history.room with
      ⟨cause, refused⟩ | ⟨given, guard, entered, isOpen, -⟩
    · simp [reportsEnd, step, noted, refused]
    · simp only [reportsEnd, isOpen]
      split <;> simp
  | addPeerAtIndex peerId pubkey version index =>
    rcases @addPeerAtIndex_cases peerId pubkey version index history.room with
      ⟨cause, refused⟩ | ⟨entered, isOpen, -⟩
    · simp [reportsEnd, step, noted, refused]
    · simp only [reportsEnd, isOpen]
      split <;> simp
  | removePeer peerId =>
    rcases @removePeer_cases peerId history.room with same | ⟨peer, -, left⟩
    · simp [reportsEnd, step, same]
    · simp [reportsEnd, step, left, Room.leave, Room.publish, AdmissionGuard.release]
  | removePeerAndCheckEnded peerId =>
    cases present : history.room.peers.get peerId with
    | none => simp [reportsEnd, step, Room.removePeerAndCheckEnded, present]
    | some peer =>
      have same : (history.room.leave peerId peer).guard.ended = history.room.guard.ended := rfl
      cases isEnded : history.room.guard.ended <;>
        cases empty : (history.room.leave peerId peer).isEmpty <;>
          simp [reportsEnd, step, Room.removePeerAndCheckEnded, present, same, isEnded, empty,
            Room.markEnded]
  | markEnded => simp [reportsEnd, step, Room.markEnded]
  | clearEnded => exact absurd rfl kept

theorem History.count_reportsEnd (operations : List Operation) (kept : .clearEnded ∉ operations) :
    history.count History.reportsEnd operations ≤ if history.room.guard.ended then 0 else 1 := by
  induction operations generalizing history with
  | nil => exact Nat.zero_le _
  | cons operation rest ih =>
    rw [mem_cons, not_or] at kept
    have first := history.step_reportsEnd (Ne.symm kept.1)
    have later := @ih (history.step operation) kept.2
    rw [count]
    omega

theorem History.count_append (test : History → Operation → Bool) (before after : List Operation) :
    history.count test (before ++ after) =
      history.count test before + (before.foldl History.step history).count test after := by
  induction before generalizing history with
  | nil => simp [count]
  | cons operation rest ih => simp [count, ih, Nat.add_assoc]

end runs

section claims

variable (communityId : CommunityId) (channelId : Uuid)

def History.reached (operations : List Operation) : History :=
  operations.foldl History.step (.start communityId channelId)

def Room.replay (self : Room) (snapshot : RosterSnapshot) : RosterSnapshot :=
  (self.sent.filter fun delta => snapshot.revision < delta.revision).foldl
    RosterSnapshot.apply snapshot

variable {communityId channelId}

theorem Room.Follows.replay {first room : Room} {mutations : ℕ} {deltas : List RosterDelta}
    (follows : first.Follows room mutations deltas)
    (seen : ∀ delta ∈ first.sent, delta.revision ≤ first.guard.rosterRevision) :
    room.replay first.rosterSnapshot = room.rosterSnapshot := by
  have past : first.sent.filter (fun delta =>
      first.rosterSnapshot.revision < delta.revision) = [] := by
    apply filter_eq_nil_iff.mpr
    intro delta member
    rw [decide_eq_true_eq]
    exact UInt64.not_lt.mpr (seen delta member)
  have later : deltas.filter (fun delta =>
      first.rosterSnapshot.revision < delta.revision) = deltas := by
    apply filter_eq_self.mpr
    intro delta member
    exact decide_eq_true (follows.after delta member)
  rw [Room.replay, follows.sent, filter_append, past, later, nil_append]
  exact follows.replayed

variable (communityId channelId)

theorem roster_replay (before after : List Operation)
    (fresh : EachStep History.step History.Fresh (.start communityId channelId) (before ++ after))
    (bounded : (History.start communityId channelId).count History.mutates (before ++ after) <
      2 ^ 64) :
    (History.reached communityId channelId (before ++ after)).room.guard.rosterRevision.toNat =
        (History.reached communityId channelId before).room.guard.rosterRevision.toNat +
          (History.reached communityId channelId before).count History.mutates after ∧
      (History.reached communityId channelId (before ++ after)).room.replay
          (History.reached communityId channelId before).room.rosterSnapshot =
        (History.reached communityId channelId (before ++ after)).room.rosterSnapshot ∧
      (.clearEnded ∉ after →
        (History.reached communityId channelId before).count History.reportsEnd after ≤ 1) := by
  rcases EachStep.append.mp fresh with ⟨early, late⟩
  rw [History.count_append] at bounded
  have zero : (History.start communityId channelId).room.guard.rosterRevision.toNat = 0 := rfl
  rcases History.run_follows before History.start_sound early (by omega) with ⟨old, taken⟩
  have preserved : ∀ (history : History) operation, history.Sound → history.Fresh operation →
      (history.step operation).Sound := fun _ operation sound _ => sound.step operation
  have sound : (History.reached communityId channelId before).Sound :=
    EachStep.invariant preserved History.start_sound early
  rcases History.run_follows after sound late (by
    rw [History.reached, taken.revision]
    omega) with ⟨new, current⟩
  simp only [History.reached, foldl_append] at current ⊢
  refine ⟨current.revision, ?_, ?_⟩
  · apply current.replay
    intro delta member
    rw [taken.sent] at member
    exact taken.until_ delta member
  · intro kept
    have few := @History.count_reportsEnd (History.reached communityId channelId before) after kept
    exact Nat.le_trans few (by split <;> simp)

instance (history : History) : DecidablePred history.Fresh
  | .addPeer peerId _ _ =>
    inferInstanceAs (Decidable (∀ entry ∈ history.room.peers.entries, entry.1 ≠ peerId))
  | .addPeerAtIndex peerId _ _ _ =>
    inferInstanceAs (Decidable (∀ entry ∈ history.room.peers.entries, entry.1 ≠ peerId))
  | .removePeer _ => isTrue trivial
  | .removePeerAndCheckEnded _ => isTrue trivial
  | .markEnded => isTrue trivial
  | .clearEnded => isTrue trivial

def replayPeer (byte : UInt8) : Uuid := .fill byte

def replayCommunity : CommunityId := ⟨replayPeer 0⟩

def replayJoins : List Operation :=
  [.addPeer (replayPeer 1) "alice" 2, .addPeerAtIndex (replayPeer 2) "bob" 2 4]

def replayLeaves : List Operation :=
  [.removePeer (replayPeer 1), .removePeerAndCheckEnded (replayPeer 2)]

theorem roster_replay_leaves :
    (History.reached replayCommunity (replayPeer 0) (replayJoins ++ replayLeaves)).room.replay
        (History.reached replayCommunity (replayPeer 0) replayJoins).room.rosterSnapshot =
      ⟨4, []⟩ := by
  have replayed := (roster_replay replayCommunity (replayPeer 0) replayJoins replayLeaves
    (by decide +kernel) (by decide +kernel)).2.1
  rw [replayed, Room.rosterSnapshot_sorted (by decide +kernel)]
  decide +kernel

end claims

section wrapping

structure History.Idle (history : History) (revision : UInt64) : Prop where
  nobody : history.room.peers.entries = []
  isOpen : history.room.guard.ended = false
  pinned : history.room.guard.pinnedVersion = none ∨ history.room.guard.pinnedVersion = some 2
  index : history.room.guard.free = [0] ∨
    history.room.guard.free = [] ∧ history.room.guard.nextFresh = 0
  revision : history.room.guard.rosterRevision = revision

variable {revision : UInt64}

theorem History.Idle.visit (idle : history.Idle revision) :
    (history.step (.addPeer (replayPeer 1) "alice" 2)).room.rosterSnapshot =
        ⟨revision + 1, [⟨"alice", 0⟩]⟩ ∧
      ((history.step (.addPeer (replayPeer 1) "alice" 2)).step
        (.removePeer (replayPeer 1))).Idle (revision + 1 + 1) := by
  rcases history with
    ⟨⟨community, channel, ⟨entries, distinct⟩, ⟨fresh, free, ended, pin, rev⟩, sent⟩, versions⟩
  rcases idle with ⟨nobody, isOpen, pinned, index, isRevision⟩
  dsimp only at nobody isOpen pinned index isRevision
  subst nobody isOpen isRevision
  rcases pinned with rfl | rfl <;> rcases index with rfl | ⟨rfl, rfl⟩
  all_goals
    constructor
    · exact Room.rosterSnapshot_sorted (pairwise_singleton _ _)
    · exact ⟨rfl, rfl, .inr rfl, .inl rfl, rfl⟩

theorem History.Idle.fresh (idle : history.Idle revision) :
    EachStep History.step History.Fresh history
      [.addPeer (replayPeer 1) "alice" 2, .removePeer (replayPeer 1)] := by
  refine ⟨?_, trivial, trivial⟩
  intro entry member
  rw [idle.nobody] at member
  cases member

def visits : ℕ → List Operation
  | 0 => []
  | n + 1 => visits n ++ [.addPeer (replayPeer 1) "alice" 2, .removePeer (replayPeer 1)]

theorem visits_idle (n : ℕ) :
    (History.reached replayCommunity (replayPeer 0) (visits n)).Idle (UInt64.ofNat (2 * n)) ∧
      EachStep History.step History.Fresh (.start replayCommunity (replayPeer 0)) (visits n) := by
  induction n with
  | zero => exact ⟨⟨rfl, rfl, .inl rfl, .inr ⟨rfl, rfl⟩, rfl⟩, trivial⟩
  | succ n ih =>
    have revision : UInt64.ofNat (2 * (n + 1)) = UInt64.ofNat (2 * n) + 1 + 1 := by
      rw [Nat.mul_add, UInt64.ofNat_add, UInt64.add_assoc]
      rfl
    rw [revision, History.reached, visits, foldl_append]
    exact ⟨ih.1.visit.2, EachStep.append.mpr ⟨ih.2, ih.1.fresh⟩⟩

/-- The revision wraps: before revision 0 no later delta is found. -/
theorem not_replaysAlways : ¬ ∀ (communityId : CommunityId) (channelId : Uuid)
    (before after : List Operation),
    EachStep History.step History.Fresh (.start communityId channelId) (before ++ after) →
    (History.reached communityId channelId (before ++ after)).room.replay
        (History.reached communityId channelId before).room.rosterSnapshot =
      (History.reached communityId channelId (before ++ after)).room.rosterSnapshot := by
  intro always
  have half : ∃ n, 2 * n + 1 = 2 ^ 64 - 1 := ⟨2 ^ 63 - 1, rfl⟩
  rcases half with ⟨n, half⟩
  rcases visits_idle n with ⟨idle, fresh⟩
  have replayed := always replayCommunity (replayPeer 0)
    (visits n ++ [.addPeer (replayPeer 1) "alice" 2]) [.removePeer (replayPeer 1)] (by
      rw [append_assoc]
      exact EachStep.append.mpr ⟨fresh, idle.fresh⟩)
  have last : (UInt64.ofNat (2 * n) + 1).toNat = 2 ^ 64 - 1 := by
    rw [← half, ← UInt64.ofNat_one, ← UInt64.ofNat_add]
    exact UInt64.toNat_ofNat_of_lt' (by rw [half]; decide)
  have stale : ∀ (room : Room) peers, room.replay ⟨UInt64.ofNat (2 * n) + 1, peers⟩ =
      ⟨UInt64.ofNat (2 * n) + 1, peers⟩ := by
    intro room peers
    have none : room.sent.filter (fun delta =>
        UInt64.ofNat (2 * n) + 1 < delta.revision) = [] := by
      apply filter_eq_nil_iff.mpr
      intro delta _ later
      have bound := delta.revision.toNat_lt
      have above := UInt64.lt_iff_toNat_lt.mp (of_decide_eq_true later)
      rw [last] at above
      omega
    rw [Room.replay, none]
    rfl
  simp only [History.reached, foldl_append, foldl_cons, foldl_nil] at replayed
  rw [History.reached] at idle
  rw [idle.visit.1, stale,
    Room.rosterSnapshot_sorted (by rw [Room.roster, idle.visit.2.nobody]; exact .nil)] at replayed
  have peers := congrArg RosterSnapshot.peers replayed
  rw [Room.roster, idle.visit.2.nobody] at peers
  cases peers

end wrapping

end Buzz.Audio
