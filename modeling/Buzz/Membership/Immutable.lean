import Buzz.Membership.Events
import Buzz.Membership.Governance

/-! When the participant set of a direct message stays what it was. -/

namespace Buzz.Membership

open Nostr Buzz.Channel Library.Results List

def World.LiveDm (world : World) (channel : Channel) : Prop :=
  channel ∈ world.store.channels ∧ channel.channelType = .dm ∧ channel.deleted = false

def Pending.extended : Pending → Option Uuid
  | .handler _ _ => none
  | .look extended _ _ => extended
  | .create extended _ _ => extended

section statements

variable (sha256 : Bytes → FixedBytes 32) (parseUuid : String → Option Uuid) (world : World)

structure World.Immutable : Prop where
  participants : ∀ channel, world.LiveDm channel → ∀ key,
    (channel.activeRole key).isSome → key ∈ world.createdFor channel.id
  readers : ∀ channel, world.LiveDm channel → ∀ key,
    world.store.readableBy channel.id key → key ∈ world.createdFor channel.id
  hashed : ∀ channel, world.LiveDm channel →
    channel.participantHash = some (computeParticipantHash sha256 (world.createdFor channel.id))
  single : ∀ first second, world.LiveDm first → world.LiveDm second →
    (∀ key, key ∈ world.createdFor first.id ↔ key ∈ world.createdFor second.id) → first = second

/-- It is not the DM that it extends. -/
def Step.NewChannel : Step → Prop
  | .advance index lookups id => ∀ pending, world.pending[index]? = some pending →
      ∀ dm, pending.extended = some dm →
        (pending.run sha256 parseUuid lookups world.store id).returned ≠ some dm
  | _ => True

structure Step.Kept (step : Step) : Prop where
  immutable : (step.after sha256 parseUuid world).Immutable sha256
  newChannel : step.NewChannel sha256 parseUuid world

/-- A DM add-member comes to another set. -/
def Pending.Within : Pending → Prop
  | .handler .putUser event => ∀ channel target actorRole requested, world.LiveDm channel →
      extractHTagChannel parseUuid event = some channel.id → extractPTag event = some target →
        channel.activeRole event.pubkey.val = some actorRole →
          requestedRole event = .ok requested →
            (requested.any MemberRole.isElevated → actorRole.isElevated) →
              target ∈ world.createdFor channel.id
  | .look (some dm) pubkeys createdBy => ∀ channel, world.LiveDm channel → channel.id = dm →
      (mergeCreator pubkeys createdBy).length ≤ 9 → channel.participantHash ≠
        some (computeParticipantHash sha256 (mergeCreator pubkeys createdBy))
  | _ => True

def Step.Within : Step → Prop
  | .advance index _ _ => ∀ pending, world.pending[index]? = some pending →
      pending.Within sha256 parseUuid world
  | _ => True

def World.EachStep (holds : World → Step → Prop) (world : World) : List Step → Prop
  | [] => True
  | step :: rest => holds world step ∧ EachStep holds (step.after sha256 parseUuid world) rest

structure DmSound (channel : Channel) : Prop where
  isPrivate : channel.visibility = .private
  isLive : channel.deleted = false
  hashed : channel.participantHash =
    some (computeParticipantHash sha256 (world.createdFor channel.id))
  creator : channel.createdBy ∈ world.createdFor channel.id
  members : ∀ key, (channel.activeRole key).isSome → key ∈ world.createdFor channel.id

/-- One that is about to be created has another set. -/
def PendingSound : Pending → Prop
  | .handler _ _ => True
  | .look extended _ _ => ∀ dm, extended = some dm →
      ∃ channel ∈ world.store.channels, channel.id = dm ∧ channel.channelType = .dm
  | .create extended participants createdBy => createdBy ∈ participants ∧
      ∀ dm, extended = some dm → ∃ channel ∈ world.store.channels, channel.id = dm ∧
        channel.participantHash ≠ some (computeParticipantHash sha256 participants)

structure World.Sound : Prop where
  dms : ∀ channel ∈ world.store.channels, channel.channelType = .dm →
    DmSound sha256 world channel
  pendings : ∀ pending ∈ world.pending, PendingSound sha256 world pending

end statements

variable {sha256 : Bytes → FixedBytes 32} {parseUuid : String → Option Uuid} {world : World}
  {channel : Channel} {lookups : Lookups} {event : Event}

section sound

variable {next : Channel}

theorem World.Sound.immutable (sound : world.Sound sha256) : world.Immutable sha256 where
  participants channel live key active :=
    (sound.dms channel live.1 live.2.1).members key active
  readers channel live key readable := by
    have dm := sound.dms channel live.1 live.2.1
    have isChannel := Store.get_eq_some.mpr ⟨live.1, rfl⟩
    rw [Store.readableBy, isChannel] at readable
    simp only [dm.isLive, dm.isPrivate, Bool.not_false, Bool.true_and, reduceCtorEq, decide_false,
      Bool.false_or] at readable
    exact dm.members key readable
  hashed channel live := (sound.dms channel live.1 live.2.1).hashed
  single first second live again same := by
    have isFirst := (sound.dms first live.1 live.2.1).hashed
    have isSecond := (sound.dms second again.1 again.2.1).hashed
    rw [← computeParticipantHash_congr sha256 same] at isSecond
    exact Store.hash_unique live.1 again.1 isFirst isSecond

theorem World.start_sound (groups : Groups) : (World.start groups).Sound sha256 where
  dms channel member isDm := absurd isDm (groups.noDm channel member)
  pendings _ member := absurd member not_mem_nil

theorem World.Sound.save (sound : world.Sound sha256) (member : channel ∈ world.store.channels)
    (rows : next = { channel with members := next.members, keyed := next.keyed })
    (inside : channel.channelType = .dm → ∀ key, (next.activeRole key).isSome →
      key ∈ world.createdFor channel.id) :
    World.Sound sha256 { world with store := world.store.save next } := by
  have find (other : Channel) (before : other ∈ world.store.channels) :
      ∃ after ∈ (world.store.save next).channels, after.id = other.id ∧
        after.channelType = other.channelType ∧ after.participantHash = other.participantHash := by
    by_cases isChannel : other.id = channel.id
    · have same := Store.id_unique before member isChannel
      subst same
      refine ⟨next, (Store.mem_save member rows).mpr (.inl rfl), ?_, ?_, ?_⟩
      all_goals rw [rows]
    · exact ⟨other, (Store.mem_save member rows).mpr (.inr ⟨before, isChannel⟩), rfl, rfl, rfl⟩
  refine ⟨fun other after isDm => ?_, fun pending waits => ?_⟩
  · cases (Store.mem_save member rows).mp after with
    | inl isNext =>
      subst isNext
      have sameId : other.id = channel.id := by rw [rows]
      have sameType : channel.channelType = .dm := by rw [← isDm, rows]
      have dm := sound.dms channel member sameType
      refine ⟨?_, ?_, ?_, ?_, ?_⟩
      · rw [rows]
        exact dm.isPrivate
      · rw [rows]
        exact dm.isLive
      · rw [sameId, rows]
        exact dm.hashed
      · rw [sameId, rows]
        exact dm.creator
      · rw [sameId]
        exact inside sameType
    | inr kept =>
      have dm := sound.dms other kept.1 isDm
      exact ⟨dm.isPrivate, dm.isLive, dm.hashed, dm.creator, dm.members⟩
  · have before := sound.pendings pending waits
    cases pending with
    | handler kind event => trivial
    | look extended pubkeys createdBy =>
      intro dm isDm
      obtain ⟨old, present, isId, isType⟩ := before dm isDm
      obtain ⟨after, now, sameId, sameType, -⟩ := find old present
      exact ⟨after, now, sameId.trans isId, sameType.trans isType⟩
    | create extended participants createdBy =>
      refine ⟨before.1, fun dm isDm => ?_⟩
      obtain ⟨old, present, isId, otherHash⟩ := before.2 dm isDm
      obtain ⟨after, now, sameId, -, sameHash⟩ := find old present
      exact ⟨after, now, sameId.trans isId, by rw [sameHash]; exact otherHash⟩

theorem World.Sound.pend {pending : List Pending} (sound : world.Sound sha256)
    (waits : ∀ item ∈ pending, item ∈ world.pending ∨ PendingSound sha256 world item) :
    World.Sound sha256 { world with pending } := by
  refine ⟨fun channel member isDm => ?_, fun item waiting => ?_⟩
  · have dm := sound.dms channel member isDm
    exact ⟨dm.isPrivate, dm.isLive, dm.hashed, dm.creator, dm.members⟩
  · have held : PendingSound sha256 world item := by
      cases waits item waiting with
      | inl old => exact sound.pendings item old
      | inr new => exact new
    cases item with
    | handler kind event => trivial
    | look extended pubkeys createdBy | create extended participants createdBy => exact held

end sound

section turns

variable {target : Bytes} {role : MemberRole}

theorem putUser_target (sound : world.Sound sha256) (live : world.LiveDm channel)
    (within : (Pending.handler .putUser event).Within sha256 parseUuid world)
    (isChannel : extractHTagChannel parseUuid event = some channel.id)
    (isTarget : extractPTag event = some target)
    (isRole : putUserRole world.store event channel.id target = .ok role)
    (effective : channel.effectiveRole target role (some event.pubkey.val) = .ok role) :
    target ∈ world.createdFor channel.id := by
  have dm := sound.dms channel live.1 live.2.1
  rw [Channel.effectiveRole, dm.isPrivate] at effective
  dsimp only at effective
  split at effective
  next creator =>
    rw [← creator.1, creator.2]
    exact dm.creator
  · split at effective
    · cases effective
    next actorRole isActor =>
      split at effective
      · cases effective
      next allowed =>
        obtain ⟨requested, isRequested, given⟩ := putUserRole_ok isRole
        refine within channel target actorRole requested live isChannel isTarget isActor isRequested
          fun high => ?_
        cases requested with
        | none => cases high
        | some asked =>
          rw [Option.getD_some] at given
          subst given
          rw [Option.any_some] at high
          simpa [high] using allowed

theorem World.Sound.remove {after : Store} {channelId : Uuid} {actor : Bytes} {isOwner : Bool}
    {next : Channel} (sound : world.Sound sha256)
    (removed : removeMember channelId (world.store.get channelId) target actor isOwner = .ok next)
    (isAfter : after = world.store.save next) : World.Sound sha256 { world with store := after } := by
  obtain ⟨channel, found, isNext, -⟩ := removeMember_ok removed
  subst isNext isAfter
  have member := (Store.get_eq_some.mp found).1
  refine sound.save member rfl fun isDm key active => ?_
  rw [Channel.activeRole_dropMember] at active
  split at active
  · cases active
  · exact (sound.dms channel member isDm).members key active

theorem World.Sound.handler {kind : MembershipKind} {after : Store} (sound : world.Sound sha256)
    (within : (Pending.handler kind event).Within sha256 parseUuid world)
    (ok : handleSideEffects lookups world.store event parseUuid kind = .ok after) :
    World.Sound sha256 { world with store := after } := by
  unfold handleSideEffects at ok
  split at ok
  · cases ok
  next channelId isChannel =>
    cases kind with
    | putUser =>
      obtain ⟨target, role, next, isTarget, isRole, added, isAfter⟩ := handlePutUser_ok ok
      obtain ⟨channel, found, isLive, -, effective, -, isNext⟩ := addMember_ok added
      obtain ⟨member, isId⟩ := Store.get_eq_some.mp found
      subst isNext isAfter isId
      refine sound.save member rfl fun isDm key active => ?_
      rw [Channel.activeRole_upsertMember] at active
      split at active
      next isKey =>
        rw [isKey]
        exact putUser_target sound ⟨member, isDm, isLive⟩ within isChannel isTarget isRole effective
      · exact (sound.dms channel member isDm).members key active
    | removeUser =>
      obtain ⟨target, next, removed, isAfter⟩ := handleRemoveUser_ok ok
      exact sound.remove removed isAfter
    | joinRequest =>
      cases handleJoinRequest_ok ok with
      | inl same =>
        subst same
        exact sound
      | inr joined =>
        obtain ⟨channel, next, found, isOpen, added, isAfter⟩ := joined
        obtain ⟨other, same, -, -, -, -, isNext⟩ := addMember_ok added
        cases same
        subst isNext isAfter
        have member := (Store.get_eq_some.mp found).1
        refine sound.save member rfl fun isDm => ?_
        have isPrivate := (sound.dms channel member isDm).isPrivate
        rw [isOpen] at isPrivate
        cases isPrivate
    | leaveRequest =>
      obtain ⟨target, next, removed, isAfter⟩ := handleLeaveRequest_ok ok
      exact sound.remove removed isAfter

theorem World.Sound.create {after : Store} {id : Uuid} {participants : List Bytes}
    {createdBy : Bytes} (sound : world.Sound sha256) (creator : createdBy ∈ participants)
    (ok : createDm sha256 world.store id participants createdBy = .ok (after, channel, true)) :
    World.Sound sha256 { world with
      store := after
      createdFor := fun other => if other = channel.id then participants else world.createdFor other } := by
  cases createDm_ok ok with
  | inl there => exact absurd there.1 nofun
  | inr new =>
    obtain ⟨-, isChannel, fresh, rows⟩ := new
    have isId : channel.id = id := by rw [isChannel]; rfl
    refine ⟨fun other member isDm => ?_, fun pending waits => ?_⟩
    · dsimp only at member
      rw [rows, mem_cons] at member
      cases member with
      | inl isNew =>
        rw [isNew, isChannel]
        refine ⟨rfl, rfl, ?_, ?_, fun key active => ?_⟩
        · dsimp only
          rw [if_pos rfl]
          rfl
        · dsimp only
          rw [if_pos rfl]
          exact creator
        · dsimp only
          rw [if_pos rfl]
          exact dmChannel_activeRole active
      | inr old =>
        have dm := sound.dms other old isDm
        have apart : ¬ other.id = channel.id := by
          rw [isId]
          exact fresh other old
        refine ⟨dm.isPrivate, dm.isLive, ?_, ?_, ?_⟩
        all_goals dsimp only
        all_goals rw [if_neg apart]
        · exact dm.hashed
        · exact dm.creator
        · exact dm.members
    · have held := sound.pendings pending waits
      have keep (other : Channel) (member : other ∈ world.store.channels) :
          other ∈ after.channels := by
        rw [rows]
        exact mem_cons_of_mem channel member
      cases pending with
      | handler kind event => trivial
      | look extended pubkeys createdBy =>
        intro dm isDm
        obtain ⟨other, member, isOther⟩ := held dm isDm
        exact ⟨other, keep other member, isOther⟩
      | create extended participants createdBy =>
        refine ⟨held.1, fun dm isDm => ?_⟩
        obtain ⟨other, member, isOther⟩ := held.2 dm isDm
        exact ⟨other, keep other member, isOther⟩

end turns

section steps

variable {id : Uuid}

theorem extendedSet_ok {dm : Uuid} {allBytes : List Bytes}
    (ok : extendedSet parseUuid lookups world.store event = .ok (dm, allBytes)) :
    ∃ channel ∈ world.store.channels, channel.id = dm ∧ channel.channelType = .dm := by
  unfold extendedSet at ok
  split at ok
  · cases ok
  · split at ok
    · cases ok
    next channelId _ =>
      obtain ⟨_, -, ok⟩ := bind_ok ok
      obtain ⟨_, -, ok⟩ := bind_ok ok
      split at ok
      · cases ok
      next channel found =>
        obtain ⟨_, isDm, ok⟩ := bind_ok ok
        obtain ⟨_, -, ok⟩ := bind_ok ok
        obtain ⟨_, -, ok⟩ := bind_ok ok
        cases ok
        have present : world.store.get dm = some channel := by
          unfold getChannel at found
          split at found
          · cases found
          next other isOther =>
            split at found
            · cases found
            · cases found
              exact isOther
        obtain ⟨member, isId⟩ := Store.get_eq_some.mp present
        refine ⟨channel, member, isId, ?_⟩
        by_contra other
        rw [rejectIf, if_pos (decide_eq_true other)] at isDm
        cases isDm

theorem World.Sound.applied {turn : Turn} {index : ℕ}
    (sound : World.Sound sha256 { turn.applied world index with pending := world.pending })
    (next : ∀ item ∈ turn.next,
      PendingSound sha256 { turn.applied world index with pending := world.pending } item) :
    (turn.applied world index).Sound sha256 := by
  apply sound.pend
  intro item waits
  cases mem_append.mp waits with
  | inl old => exact .inl (mem_of_mem_eraseIdx old)
  | inr new => exact .inr (next item new)

theorem World.Sound.turn {pending : Pending} {index : ℕ} (sound : world.Sound sha256)
    (waits : pending ∈ world.pending) (within : pending.Within sha256 parseUuid world) :
    ((pending.run sha256 parseUuid lookups world.store id).applied world index).Sound sha256 := by
  have held := sound.pendings pending waits
  cases pending with
  | handler kind event =>
    unfold Pending.run
    dsimp only
    split
    · exact World.Sound.applied sound fun item new => absurd new not_mem_nil
    next after ok =>
      exact World.Sound.applied (sound.handler within ok) fun item new =>
        absurd new not_mem_nil
  | look extended pubkeys createdBy =>
    unfold Pending.run
    dsimp only
    split
    · exact World.Sound.applied sound fun item new => absurd new not_mem_nil
    · exact World.Sound.applied sound fun item new => absurd new not_mem_nil
    next ok =>
      obtain ⟨-, absent⟩ := lookDm_ok ok
      refine World.Sound.applied sound fun item new => ?_
      rw [mem_singleton.mp new]
      refine ⟨mem_mergeCreator, fun dm isDm => ?_⟩
      obtain ⟨channel, member, isId, isType⟩ := held dm isDm
      refine ⟨channel, member, isId, fun isHash => ?_⟩
      have isLive := (sound.dms channel member isType).isLive
      rw [Store.findDm_isSome member isHash isType isLive] at absent
      cases absent
  | create extended participants createdBy =>
    unfold Pending.run
    dsimp only
    split
    · exact World.Sound.applied sound fun item new => absurd new not_mem_nil
    next after channel ok =>
      exact World.Sound.applied (sound.create held.1 ok) fun item new =>
        absurd new not_mem_nil
    next after channel ok =>
      cases createDm_ok ok with
      | inl there =>
        obtain ⟨-, same, -⟩ := there
        subst same
        exact World.Sound.applied sound fun item new => absurd new not_mem_nil
      | inr new => exact absurd new.1 nofun

theorem World.Sound.step {step : Step} (sound : world.Sound sha256)
    (within : step.Within sha256 parseUuid world) :
    (step.after sha256 parseUuid world).Sound sha256 := by
  cases step with
  | accept lookups kind event =>
    unfold Step.after
    dsimp only
    split
    · exact sound
    · refine sound.pend fun item waits => ?_
      cases mem_append.mp waits with
      | inl old => exact .inl old
      | inr new =>
        rw [mem_singleton.mp new]
        exact .inr trivial
  | openDm pubkeys createdBy =>
    refine sound.pend fun item waits => ?_
    cases mem_append.mp waits with
    | inl old => exact .inl old
    | inr new =>
      rw [mem_singleton.mp new]
      exact .inr fun dm isDm => absurd isDm nofun
  | dmAddMember lookups event =>
    unfold Step.after
    dsimp only
    split
    · exact sound
    next dm allBytes ok =>
      refine sound.pend fun item waits => ?_
      cases mem_append.mp waits with
      | inl old => exact .inl old
      | inr new =>
        rw [mem_singleton.mp new]
        refine .inr fun other isOther => ?_
        cases isOther
        exact extendedSet_ok ok
  | advance index lookups id =>
    unfold Step.after
    dsimp only
    split
    · exact sound
    next pending isPending =>
      exact sound.turn (mem_of_getElem? isPending) (within pending isPending)

theorem World.Sound.newChannel {step : Step} (sound : world.Sound sha256)
    (within : step.Within sha256 parseUuid world) : step.NewChannel sha256 parseUuid world := by
  cases step with
  | accept lookups kind event | openDm pubkeys createdBy | dmAddMember lookups event => trivial
  | advance index lookups id =>
    intro pending isPending dm isDm same
    have held := sound.pendings pending (mem_of_getElem? isPending)
    have allowed := within pending isPending
    cases pending with
    | handler kind event => cases isDm
    | look extended pubkeys createdBy =>
      cases isDm
      unfold Pending.run at same
      dsimp only at same
      split at same
      · cases same
      next existing ok =>
        cases same
        obtain ⟨few, found⟩ := lookDm_ok ok
        obtain ⟨member, isHash, isType, isLive⟩ := Store.findDm_eq_some found.symm
        exact allowed existing ⟨member, isType, isLive⟩ rfl few isHash
      · cases same
    | create extended participants createdBy =>
      obtain ⟨channel, member, isId, otherHash⟩ := held.2 dm isDm
      unfold Pending.run at same
      dsimp only at same
      split at same
      · cases same
      next after made ok =>
        cases same
        cases createDm_ok ok with
        | inl there => exact absurd there.1 nofun
        | inr new =>
          obtain ⟨-, isMade, fresh, -⟩ := new
          rw [isMade] at isId
          exact fresh channel member isId
      next after existing ok =>
        cases same
        cases createDm_ok ok with
        | inl there =>
          obtain ⟨second, isHash, -, -⟩ := Store.findDm_eq_some there.2.2
          have same := Store.id_unique member second isId
          exact otherHash (same ▸ isHash)
        | inr new => exact absurd new.1 nofun

theorem putUser_outsider {target : Bytes} {actorRole : MemberRole} {requested : Option MemberRole}
    (dm : DmSound sha256 world channel) (live : world.LiveDm channel)
    (isTarget : extractPTag event = some target)
    (isActor : channel.activeRole event.pubkey.val = some actorRole)
    (isRequested : requestedRole event = .ok requested)
    (allowed : requested.any MemberRole.isElevated → actorRole.isElevated)
    (outside : target ∉ world.createdFor channel.id) :
    handlePutUser world.store event channel.id = .ok (world.store.save
      (channel.upsertMember target (requested.getD .member) (some event.pubkey.val))) := by
  have isChannel := Store.get_eq_some.mpr ⟨live.1, rfl⟩
  have length : target.length = 32 := by
    obtain ⟨tag, -, found⟩ := exists_of_findSome?_eq_some isTarget
    split at found
    · exact of_decide_eq_true (Option.filter_eq_some_iff.mp found).2
    · cases found
  have gone : channel.activeRole target = none := by
    cases current : channel.activeRole target with
    | none => rfl
    | some role => exact absurd (dm.members target (by rw [current]; rfl)) outside
  have noRow : roleIn (world.store.getMembers channel.id) target = none := by
    rw [roleIn, Option.map_eq_none_iff, find?_eq_none]
    intro row member isKey
    rw [Store.getMembers, isChannel] at member
    simp only [dm.isLive, Bool.false_eq_true, if_false] at member
    obtain ⟨present, active⟩ := mem_filter.mp (mem_of_mem_take member)
    have isRole : channel.activeRole target = some row.role :=
      Channel.activeRole_eq_some.mpr ⟨row, present, of_decide_eq_true isKey, by simpa using active, rfl⟩
    rw [gone] at isRole
    cases isRole
  have isRole : putUserRole world.store event channel.id target =
      .ok (requested.getD .member) := by
    rw [putUserRole, isRequested, noRow]
    rfl
  have effective : channel.effectiveRole target (requested.getD .member) (some event.pubkey.val) =
      .ok (requested.getD .member) := by
    rw [Channel.effectiveRole, dm.isPrivate]
    dsimp only
    split
    · rfl
    · rw [isActor]
      dsimp only
      cases requested with
      | none => rfl
      | some role =>
        rw [Option.any_some] at allowed
        cases high : role.isElevated with
        | true => simp [high, allowed high]
        | false => simp [high]
  have checked : channel.checkRoleChange target (requested.getD .member)
      (some event.pubkey.val) = .ok () := by
    rw [Channel.checkRoleChange, gone]
  have added : addMember channel.id (some channel) target (requested.getD .member)
      (some event.pubkey.val) =
        .ok (channel.upsertMember target (requested.getD .member) (some event.pubkey.val)) := by
    simp [addMember, pubkeyLength, getChannel, length, dm.isLive, bind, Except.bind, effective,
      checked]
  rw [handlePutUser, isTarget]
  simp only [isRole, bind, Except.bind, isChannel, added, saved]

theorem Step.within_of_kept {step : Step} (sound : world.Sound sha256)
    (kept : step.Kept sha256 parseUuid world) : step.Within sha256 parseUuid world := by
  cases step with
  | accept lookups kind event | openDm pubkeys createdBy | dmAddMember lookups event => trivial
  | advance index lookups id =>
    intro pending isPending
    have immutable := kept.immutable
    have newChannel := kept.newChannel pending isPending
    cases pending with
    | handler kind event =>
      cases kind with
      | putUser =>
        intro channel target actorRole requested live isChannel isTarget isActor isRequested
          allowed
        by_contra outside
        have dm := sound.dms channel live.1 live.2.1
        have done := putUser_outsider dm live isTarget isActor isRequested allowed outside
        unfold Step.after at immutable
        simp only [isPending, Pending.run, handleSideEffects, isChannel, done] at immutable
        let next := channel.upsertMember target (requested.getD .member) (some event.pubkey.val)
        have member : next ∈ (world.store.save next).channels :=
          (Store.mem_save live.1 rfl).mpr (.inl rfl)
        have active := @Channel.activeRole_upsertMember channel target target
          (requested.getD .member) (some event.pubkey.val)
        rw [if_pos rfl] at active
        exact outside (immutable.participants next ⟨member, live.2.1, live.2.2⟩ target
          (by rw [active]; rfl))
      | removeUser | joinRequest | leaveRequest => trivial
    | look extended pubkeys createdBy =>
      cases extended with
      | none => trivial
      | some dm =>
        intro channel live isId few isHash
        have found := Store.findDm_isSome live.1 isHash live.2.1 live.2.2
        apply newChannel dm rfl
        simp only [Pending.run, lookDm, if_neg (Nat.not_lt.mpr few), found, isId]
    | create extended participants createdBy => trivial

theorem Step.kept_iff {step : Step} (sound : world.Sound sha256) :
    step.Kept sha256 parseUuid world ↔ step.Within sha256 parseUuid world := by
  constructor
  · exact Step.within_of_kept sound
  · exact fun within => ⟨(sound.step within).immutable, sound.newChannel within⟩

theorem World.Sound.eachStep_iff {steps : List Step} : ∀ {world : World}, world.Sound sha256 →
    (world.EachStep sha256 parseUuid (fun world step => step.Kept sha256 parseUuid world) steps ↔
      world.EachStep sha256 parseUuid (fun world step => step.Within sha256 parseUuid world)
        steps) := by
  induction steps with
  | nil => exact fun _ => Iff.rfl
  | cons step rest hypothesis =>
    intro world sound
    constructor
    · intro kept
      have within := Step.within_of_kept sound kept.1
      exact ⟨within, (hypothesis (sound.step within)).mp kept.2⟩
    · intro condition
      exact ⟨(Step.kept_iff sound).mpr condition.1,
        (hypothesis (sound.step condition.1)).mpr condition.2⟩

end steps

/-- The sets stay exactly as long as each step is within the condition. -/
theorem participants_exact (sha256 : Bytes → FixedBytes 32) (parseUuid : String → Option Uuid)
    (groups : Groups) (steps : List Step) :
    (World.start groups).EachStep sha256 parseUuid
        (fun world step => step.Kept sha256 parseUuid world) steps ↔
      (World.start groups).EachStep sha256 parseUuid
        (fun world step => step.Within sha256 parseUuid world) steps :=
  (World.start_sound groups).eachStep_iff

theorem World.Immutable.noOutsider {sha256 : Bytes → FixedBytes 32} {world : World}
    (immutable : world.Immutable sha256) (key : Bytes) :
    (world.store.channels.any fun channel => channel.channelType = .dm &&
      !channel.deleted && (channel.activeRole key).isSome &&
        key ∉ world.createdFor channel.id) = false := by
  rw [any_eq_false]
  intro channel member outsider
  simp only [Bool.and_eq_true, decide_eq_true_eq, Bool.not_eq_true'] at outsider
  obtain ⟨⟨⟨isDm, isLive⟩, active⟩, outside⟩ := outsider
  exact outside (immutable.participants channel ⟨member, isDm, isLive⟩ key active)

def sampleId : Uuid := .fill 7

def sampleKey (byte : UInt8) : PublicKey := .fill byte

def sampleLookups : Lookups := ⟨fun _ => none, fun _ _ => false, fun _ _ => true⟩

def samplePutUser (target : PublicKey) : Event where
  id := sampleKey 9
  pubkey := sampleKey 1
  createdAt := 0
  kind := 9000
  tags := [⟨["h", "dm"], nofun⟩, ⟨["p", target.toHex], nofun⟩]
  content := ""
  sig := []

/-- A DM of two keys; one of them adds a third by `PUT_USER`. -/
theorem outsider_added :
    let parseUuid : String → Option Uuid := fun text => if text = "dm" then some sampleId else none
    ¬ (World.start ⟨⟨[], nodup_nil, nodup_nil⟩, nofun⟩).EachStep (fun _ => sampleKey 0)
      parseUuid (fun world step => step.Kept (fun _ => sampleKey 0) parseUuid world)
      [.openDm [(sampleKey 2).val] (sampleKey 1).val, .advance 0 sampleLookups sampleId,
        .advance 0 sampleLookups sampleId,
        .accept sampleLookups .putUser (samplePutUser (sampleKey 3)),
        .advance 0 sampleLookups sampleId] := by
  intro parseUuid kept
  have last := kept.2.2.2.2.1.immutable
  exact absurd (last.noOutsider (sampleKey 3).val) (by decide +kernel)

end Buzz.Membership
