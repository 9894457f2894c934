import Buzz.Library.Runs
import Buzz.Subscription.Moves

/-! A registration on one connection at the same time as a removal on another one: what they leave
listed, whichever way their map operations fall. -/

namespace Buzz.Subscription

open Nostr Library.Accumulate Library.PostingIndex Library.Runs SubscriptionRegistry List

variable {connId otherConn : ConnId} {subId : SubId} {entry : SubEntry} {move : Move} {race : Race}

section invariant

def OfRemoval (registry : SubscriptionRegistry) (connId : ConnId) : Move → Prop
  | .take other _ => other = connId
  | .takeAll other => other = connId
  | .collect _ other _ => other = connId
  | .prune _ subscriber => subscriber.1 = connId ∧ registry.lookupSub subscriber = none
  | .delete _ => True
  | .put .. => False
  | .push .. => False

def OfClearing (registry : SubscriptionRegistry) (subscriber : Subscriber) : Move → Prop
  | .prune _ other => other = subscriber
  | .delete slot => registry.postingsAt slot = []
  | _ => False

/-- A step that only takes things out of the registry. -/
structure Shrinks (before after : SubscriptionRegistry) (connId : ConnId) (move : Move)
    (follows : List Move) : Prop where
  subs : ∀ subscriber, subscriber.1 ≠ connId →
    after.lookupSub subscriber = before.lookupSub subscriber
  fewer : ∀ subscriber entry, after.lookupSub subscriber = some entry →
    before.lookupSub subscriber = some entry
  postings : ∀ slot subscriber, subscriber ∈ after.postingsAt slot →
    subscriber ∈ before.postingsAt slot
  lost : ∀ slot subscriber, subscriber ∈ before.postingsAt slot →
    subscriber ∈ after.postingsAt slot ∨
      subscriber.1 = connId ∧ before.lookupSub subscriber = none ∨ move = .delete slot
  next : ∀ move ∈ follows, OfRemoval after connId move
  emptied : ∀ slot, .delete slot ∈ follows → after.postingsAt slot = []

variable {registry after : SubscriptionRegistry} {slot : Slot} {subscriber : Subscriber}
  {follows : List Move}

theorem OfRemoval.shrinks (ofRemoval : OfRemoval registry connId move) :
    Shrinks registry (registry.make move).1 connId move (registry.make move).2 := by
  cases move with
  | take other subId =>
    change other = connId at ofRemoval
    subst ofRemoval
    constructor
    · intro subscriber elsewhere
      rw [lookupSub_take, if_neg]
      rintro rfl
      exact elsewhere rfl
    · intro subscriber entry present
      rw [lookupSub_take] at present
      split at present
      · cases present
      · exact present
    · intro slot subscriber listed
      rwa [postingsAt_take] at listed
    · intro slot subscriber listed
      rw [postingsAt_take]
      exact .inl listed
    · intro move member
      obtain ⟨slot, rfl⟩ := follows_take member
      exact ⟨rfl, lookupSub_take.trans (if_pos rfl)⟩
    · intro slot member
      obtain ⟨other, same⟩ := follows_take member
      cases same
  | takeAll other =>
    change other = connId at ofRemoval
    subst ofRemoval
    constructor
    · intro subscriber elsewhere
      rw [lookupSub_takeAll, if_neg elsewhere]
    · intro subscriber entry present
      rw [lookupSub_takeAll] at present
      split at present
      · cases present
      · exact present
    · intro slot subscriber listed
      rwa [postingsAt_takeAll] at listed
    · intro slot subscriber listed
      rw [postingsAt_takeAll]
      exact .inl listed
    · intro move member
      obtain ⟨slot, subId, rfl⟩ := follows_takeAll member
      exact ⟨rfl, lookupSub_takeAll.trans (if_pos rfl)⟩
    · intro slot member
      obtain ⟨other, subId, same⟩ := follows_takeAll member
      cases same
  | collect communityId other channelId =>
    change other = connId at ofRemoval
    subst ofRemoval
    refine ⟨fun _ _ => rfl, fun _ _ => id, fun _ _ => id, fun _ _ => .inl, ?_, ?_⟩
    · intro move member
      obtain ⟨subId, rfl⟩ := follows_collect member
      rfl
    · intro slot member
      obtain ⟨subId, same⟩ := follows_collect member
      cases same
  | prune place gone =>
    obtain ⟨isConn, absent⟩ := ofRemoval
    refine ⟨fun _ _ => lookupSub_prune, fun _ _ => lookupSub_prune.symm.trans, ?_, ?_, ?_, ?_⟩
    · intro slot subscriber listed
      exact (mem_postingsAt_prune.mp listed).1
    · intro slot subscriber listed
      by_cases pruned : slot = place ∧ subscriber = gone
      · rw [pruned.2]
        exact .inr (.inl ⟨isConn, absent⟩)
      · exact .inl (mem_postingsAt_prune.mpr ⟨listed, pruned⟩)
    · intro move member
      rw [(follows_prune member).1]
      exact trivial
    · intro slot member
      obtain ⟨same, empty⟩ := follows_prune member
      cases same
      exact empty
  | delete place =>
    have fewer : ∀ slot subscriber,
        subscriber ∈ (registry.make (.delete place)).1.postingsAt slot →
          subscriber ∈ registry.postingsAt slot := by
      intro slot subscriber listed
      rw [make, postingsAt_eraseBucket] at listed
      split at listed
      · cases listed
      · exact listed
    refine ⟨fun _ _ => lookupSub_eraseBucket, fun _ _ => lookupSub_eraseBucket.symm.trans, fewer,
      ?_, fun _ member => absurd member not_mem_nil, fun _ member => absurd member not_mem_nil⟩
    intro slot subscriber listed
    by_cases same : slot = place
    · exact .inr (.inr (congrArg Move.delete same.symm))
    · left
      rw [make, postingsAt_eraseBucket, if_neg same]
      exact listed
  | put | push => exact ofRemoval.elim

theorem OfClearing.ofRemoval (ofClearing : OfClearing registry (connId, subId) move)
    (gone : registry.lookupSub (connId, subId) = none) : OfRemoval registry connId move := by
  cases move with
  | prune slot other =>
    change other = (connId, subId) at ofClearing
    subst ofClearing
    exact ⟨rfl, gone⟩
  | delete => exact trivial
  | take | takeAll | collect | put | push => exact ofClearing.elim

theorem OfRemoval.mono (ofRemoval : OfRemoval registry connId move)
    (fewer : ∀ subscriber, subscriber.1 = connId → registry.lookupSub subscriber = none →
      after.lookupSub subscriber = none) : OfRemoval after connId move := by
  cases move with
  | prune slot other => exact ⟨ofRemoval.1, fewer other ofRemoval.1 ofRemoval.2⟩
  | _ => exact ofRemoval

theorem Shrinks.absent (shrinks : Shrinks registry after connId move follows)
    (absent : registry.lookupSub subscriber = none) : after.lookupSub subscriber = none := by
  cases present : after.lookupSub subscriber with
  | none => rfl
  | some entry => cases absent.symm.trans (shrinks.fewer subscriber entry present)

end invariant

section race

def pushes (subscriber : Subscriber) (pending : List Slot) : List Move :=
  pending.map fun slot => .push slot subscriber

variable (connId otherConn : ConnId) (subId : SubId) (entry : SubEntry)

inductive Registering (race : Race) : Prop
  | starting (isMoves : race.register =
      .take connId subId :: .put connId subId entry :: pushes (connId, subId) (slots entry))
  | clearing (clears : List Move)
      (isMoves : race.register =
        clears ++ .put connId subId entry :: pushes (connId, subId) (slots entry))
      (each : ∀ move ∈ clears, OfClearing race.registry (connId, subId) move)
      (gone : race.registry.lookupSub (connId, subId) = none)
  | pushing (pending : List Slot) (isMoves : race.register = pushes (connId, subId) pending)
      (sublist : pending.Sublist (slots entry))
      (present : race.registry.lookupSub (connId, subId) = some entry)

/-- A bucket found empty holds no one but the new subscriber. -/
def Refilled (race : Race) (slot : Slot) : Prop :=
  ∀ subscriber ∈ race.registry.postingsAt slot, subscriber = (connId, subId) ∧
    ∃ pending, race.register = pushes (connId, subId) pending ∧ slot ∉ pending ∧ slot ∈ slots entry

structure Race.Sound (race : Race) : Prop where
  removal : ∀ move ∈ race.removal, OfRemoval race.registry otherConn move
  kept : ∀ subscriber stored, subscriber ≠ (connId, subId) →
    race.registry.lookupSub subscriber = some stored →
      ∀ slot ∈ slots stored, subscriber ∈ race.registry.postingsAt slot
  phase : Registering connId subId entry race
  refilled : ∀ slot, .delete slot ∈ race.removal → Refilled connId subId entry race slot

def Race.Intact (race : Race) : Prop :=
  ∀ pending, race.register = pushes (connId, subId) pending →
    ∀ slot ∈ slots entry, (connId, subId) ∈ race.registry.postingsAt slot ∨ slot ∈ pending

def Race.Lost (race : Race) : Prop :=
  ∃ pending, race.register = pushes (connId, subId) pending ∧
    ∃ slot ∈ slots entry, slot ∉ pending ∧ (connId, subId) ∉ race.registry.postingsAt slot

variable {connId otherConn subId entry} {rest : List Move}

theorem pushes_injective {subscriber : Subscriber} {first second : List Slot}
    (same : pushes subscriber first = pushes subscriber second) : first = second :=
  map_injective_iff.mpr (fun _ _ equal => (Move.push.inj equal).1) same

theorem not_pushes {clears : List Move} {pending : List Slot} {subscriber : Subscriber}
    {after : List Move} :
    clears ++ .put connId subId entry :: after ≠ pushes subscriber pending := by
  intro same
  have member : Move.put connId subId entry ∈ pushes subscriber pending := by
    rw [← same]
    exact mem_append_right _ mem_cons_self
  obtain ⟨slot, -, isPush⟩ := mem_map.mp member
  cases isPush

theorem Race.Sound.unfilled (sound : race.Sound connId otherConn subId entry)
    (before : ∀ pending, race.register ≠ pushes (connId, subId) pending) (slot : Slot)
    (deleted : .delete slot ∈ race.removal) : race.registry.postingsAt slot = [] := by
  apply eq_nil_iff_forall_not_mem.mpr
  intro subscriber listed
  obtain ⟨-, pending, isMoves, -⟩ := sound.refilled slot deleted subscriber listed
  exact before pending isMoves

theorem OfClearing.mono {registry after : SubscriptionRegistry} {subscriber : Subscriber}
    (ofClearing : OfClearing registry subscriber move)
    (fewer : ∀ slot subscriber, subscriber ∈ after.postingsAt slot →
      subscriber ∈ registry.postingsAt slot) : OfClearing after subscriber move := by
  cases move with
  | delete slot =>
    change registry.postingsAt slot = [] at ofClearing
    apply eq_nil_iff_forall_not_mem.mpr
    intro subscriber listed
    have before := fewer slot subscriber listed
    rw [ofClearing] at before
    cases before
  | _ => exact ofClearing

section

variable (sound : race.Sound connId otherConn subId entry)

include sound

theorem Race.Sound.remove (different : otherConn ≠ connId) (isMoves : race.removal = move :: rest) :
    Race.Sound connId otherConn subId entry
      ⟨(race.registry.make move).1, race.register, (race.registry.make move).2 ++ rest⟩ := by
  have inside : move ∈ race.removal := isMoves ▸ mem_cons_self
  have later : ∀ other ∈ rest, other ∈ race.removal := fun other member =>
    isMoves ▸ mem_cons_of_mem _ member
  have shrinks := (sound.removal move inside).shrinks
  constructor
  · intro other member
    rcases mem_append.mp member with follows | pending
    · exact shrinks.next other follows
    · exact (sound.removal other (later other pending)).mono fun subscriber _ => shrinks.absent
  · intro subscriber stored elsewhere present slot wanted
    have before := shrinks.fewer subscriber stored present
    rcases shrinks.lost slot subscriber (sound.kept subscriber stored elsewhere before slot wanted)
      with listed | ⟨-, absent⟩ | rfl
    · exact listed
    · cases before.symm.trans absent
    · have held := sound.kept subscriber stored elsewhere before slot wanted
      exact absurd (sound.refilled slot inside subscriber held).1 elsewhere
  · rcases sound.phase with isStart | ⟨clears, isClearing, each, gone⟩ |
      ⟨pending, isPushing, sublist, present⟩
    · exact .starting isStart
    · exact .clearing clears isClearing
        (fun other member => (each other member).mono shrinks.postings) (shrinks.absent gone)
    · exact .pushing pending isPushing sublist
        ((shrinks.subs (connId, subId) different.symm).trans present)
  · intro slot deleted subscriber listed
    rcases mem_append.mp deleted with follows | pending
    · rw [shrinks.emptied slot follows] at listed
      cases listed
    · exact sound.refilled slot (later _ pending) subscriber (shrinks.postings slot subscriber listed)

theorem Race.Sound.clear (before : ∀ pending, race.register ≠ pushes (connId, subId) pending)
    (ofRemoval : OfRemoval race.registry connId move)
    (deletes : ∀ slot, move = .delete slot → race.registry.postingsAt slot = [])
    {register : List Move}
    (phase : Registering connId subId entry ⟨(race.registry.make move).1, register, race.removal⟩) :
    Race.Sound connId otherConn subId entry ⟨(race.registry.make move).1, register, race.removal⟩ := by
  have shrinks := ofRemoval.shrinks
  constructor
  · exact fun other member => (sound.removal other member).mono fun subscriber _ => shrinks.absent
  · intro subscriber stored elsewhere present slot wanted
    have known := shrinks.fewer subscriber stored present
    have held := sound.kept subscriber stored elsewhere known slot wanted
    rcases shrinks.lost slot subscriber held with listed | ⟨-, absent⟩ | isDelete
    · exact listed
    · cases known.symm.trans absent
    · rw [deletes slot isDelete] at held
      cases held
  · exact phase
  · intro slot deleted subscriber listed
    have held := shrinks.postings slot subscriber listed
    rw [sound.unfilled before slot deleted] at held
    cases held

theorem Race.Sound.register (different : otherConn ≠ connId) (distinct : (slots entry).Nodup)
    (isMoves : race.register = move :: rest) :
    Race.Sound connId otherConn subId entry
      ⟨(race.registry.make move).1, (race.registry.make move).2 ++ rest, race.removal⟩ := by
  rcases sound.phase with isStart | ⟨clears, isClearing, each, gone⟩ |
    ⟨pending, isPushing, sublist, present⟩
  · have before : ∀ pending, race.register ≠ pushes (connId, subId) pending := by
      intro pending same
      exact @not_pushes connId subId entry [.take connId subId] _ _ _ (isStart.symm.trans same)
    cases isStart.symm.trans isMoves
    have ofRemoval : OfRemoval race.registry connId (.take connId subId) := rfl
    refine sound.clear before ofRemoval (fun _ same => (nomatch same)) (.clearing _ rfl ?_ ?_)
    · intro move member
      obtain ⟨slot, rfl⟩ := follows_take member
      rfl
    · exact lookupSub_take.trans (if_pos rfl)
  · have before : ∀ pending, race.register ≠ pushes (connId, subId) pending := fun pending same =>
      not_pushes (isClearing.symm.trans same)
    cases clears with
    | nil =>
      -- The entry is stored, and all of its pushes are yet to come.
      cases isClearing.symm.trans isMoves
      have elsewhere : ∀ subscriber, subscriber ≠ (connId, subId) →
          (race.registry.make (.put connId subId entry)).1.lookupSub subscriber =
            race.registry.lookupSub subscriber := fun subscriber other => by
        rw [lookupSub_put, if_neg other]
      constructor
      · intro other member
        refine (sound.removal other member).mono fun subscriber isConn absent => ?_
        rw [elsewhere]
        · exact absent
        · rintro rfl
          exact different isConn.symm
      · intro subscriber stored other present slot wanted
        rw [elsewhere subscriber other] at present
        have held := sound.kept subscriber stored other present slot wanted
        rwa [make, postingsAt_setSubs]
      · exact .pushing _ rfl (.refl _) (lookupSub_put.trans (if_pos rfl))
      · intro slot deleted subscriber listed
        rw [make, postingsAt_setSubs, sound.unfilled before slot deleted] at listed
        cases listed
    | cons head clears =>
      cases isClearing.symm.trans isMoves
      have ofClearing := each move mem_cons_self
      have ofRemoval := ofClearing.ofRemoval gone
      refine sound.clear before ofRemoval ?_ (.clearing ((race.registry.make move).2 ++ clears) ?_ ?_ ?_)
      · rintro slot rfl
        exact ofClearing
      · exact (append_assoc ..).symm
      · intro other member
        rcases mem_append.mp member with follows | later
        · cases move with
          | prune slot subscriber =>
            obtain ⟨rfl, empty⟩ := follows_prune follows
            exact empty
          | delete => cases follows
          | take | takeAll | collect | put | push => exact ofClearing.elim
        · exact (each other (mem_cons_of_mem _ later)).mono ofRemoval.shrinks.postings
      · exact ofRemoval.shrinks.absent gone
  · cases pending with
    | nil => cases isPushing.symm.trans isMoves
    | cons head pending =>
      cases isPushing.symm.trans isMoves
      have sameSubs : ∀ subscriber,
          (race.registry.make (.push head (connId, subId))).1.lookupSub subscriber =
            race.registry.lookupSub subscriber := fun subscriber => lookupSub_setBucket
      constructor
      · exact fun other member => (sound.removal other member).mono fun subscriber _ absent =>
          (sameSubs subscriber).trans absent
      · intro subscriber stored other known slot wanted
        rw [sameSubs] at known
        exact mem_postingsAt_push.mpr (.inl (sound.kept subscriber stored other known slot wanted))
      · exact .pushing pending rfl ((sublist_cons_self _ _).trans sublist)
          ((sameSubs _).trans present)
      · intro slot deleted subscriber listed
        rcases mem_postingsAt_push.mp listed with held | ⟨rfl, rfl⟩
        · obtain ⟨isNew, more, isMore, absent, wanted⟩ :=
            sound.refilled slot deleted subscriber held
          cases pushes_injective (isPushing.symm.trans isMore)
          exact ⟨isNew, pending, rfl, fun member => absent (mem_cons_of_mem _ member), wanted⟩
        · have once := nodup_cons.mp (distinct.sublist sublist)
          exact ⟨rfl, pending, rfl, once.1, sublist.subset mem_cons_self⟩

end

/-- A bucket is deleted only while it is empty. -/
def Race.DeletesEmpty (race : Race) (party : Party) : Prop :=
  ∀ slot, (race.moves party).head? = some (.delete slot) → race.registry.postingsAt slot = []

variable {party : Party}

theorem Race.step_of_moves (isMoves : race.moves party = move :: rest) :
    race.step party = match party with
      | .registering =>
        ⟨(race.registry.make move).1, (race.registry.make move).2 ++ rest, race.removal⟩
      | .removing =>
        ⟨(race.registry.make move).1, race.register, (race.registry.make move).2 ++ rest⟩ := by
  unfold Race.step
  rw [isMoves]
  cases party <;> rfl

theorem Race.step_of_nil (isMoves : race.moves party = []) :
    race.step party = race := by
  unfold Race.step
  rw [isMoves]

theorem Race.Sound.step (sound : race.Sound connId otherConn subId entry)
    (different : otherConn ≠ connId) (distinct : (slots entry).Nodup) (party : Party) :
    (race.step party).Sound connId otherConn subId entry := by
  cases isMoves : race.moves party with
  | nil =>
    rw [race.step_of_nil isMoves]
    exact sound
  | cons move rest =>
    rw [race.step_of_moves isMoves]
    cases party with
    | registering => exact sound.register different distinct isMoves
    | removing => exact sound.remove different isMoves

theorem Race.Sound.register_cases (sound : race.Sound connId otherConn subId entry)
    (isMoves : race.register = move :: rest) {pending : List Slot}
    (isPushing : (race.registry.make move).2 ++ rest = pushes (connId, subId) pending) :
    (move = .put connId subId entry ∧ pending = slots entry) ∨
      ∃ slot, move = .push slot (connId, subId) ∧
        race.register = pushes (connId, subId) (slot :: pending) := by
  rcases sound.phase with isStart | ⟨clears, isClearing, -, -⟩ | ⟨before, isBefore, -, -⟩
  · cases isStart.symm.trans isMoves
    exact absurd isPushing not_pushes
  · cases clears with
    | nil =>
      cases isClearing.symm.trans isMoves
      exact .inl ⟨rfl, (pushes_injective isPushing).symm⟩
    | cons head clears =>
      cases isClearing.symm.trans isMoves
      exact absurd ((append_assoc ..).trans isPushing) not_pushes
  · cases before with
    | nil => cases isBefore.symm.trans isMoves
    | cons slot before =>
      cases isBefore.symm.trans isMoves
      cases pushes_injective isPushing
      exact .inr ⟨slot, rfl, isBefore⟩

theorem Race.Intact.step (intact : race.Intact connId subId entry)
    (sound : race.Sound connId otherConn subId entry) (different : otherConn ≠ connId)
    (deletesEmpty : race.DeletesEmpty party) :
    (race.step party).Intact connId subId entry := by
  cases isMoves : race.moves party with
  | nil =>
    rw [race.step_of_nil isMoves]
    exact intact
  | cons move rest =>
    rw [race.step_of_moves isMoves]
    cases party with
    | registering =>
      intro pending isPushing slot wanted
      rcases sound.register_cases isMoves isPushing with ⟨-, rfl⟩ | ⟨head, rfl, isBefore⟩
      · exact .inr wanted
      · rcases intact _ isBefore slot wanted with listed | member
        · exact .inl (mem_postingsAt_push.mpr (.inl listed))
        · rcases mem_cons.mp member with rfl | later
          · exact .inl (mem_postingsAt_push.mpr (.inr ⟨rfl, rfl⟩))
          · exact .inr later
    | removing =>
      intro pending isPushing slot wanted
      have inside : move ∈ race.removal := by
        rw [show race.removal = move :: rest from isMoves]
        exact mem_cons_self
      refine (intact pending isPushing slot wanted).imp (fun listed => ?_) id
      rcases (sound.removal move inside).shrinks.lost slot _ listed with
        kept | ⟨isConn, -⟩ | rfl
      · exact kept
      · exact absurd isConn.symm different
      · rw [deletesEmpty slot (by rw [isMoves]; rfl)] at listed
        cases listed

theorem Race.Lost.step (lost : race.Lost connId subId entry)
    (sound : race.Sound connId otherConn subId entry) (party : Party) :
    (race.step party).Lost connId subId entry := by
  obtain ⟨pending, isPushing, slot, wanted, absent, unlisted⟩ := lost
  cases isMoves : race.moves party with
  | nil =>
    rw [race.step_of_nil isMoves]
    exact ⟨pending, isPushing, slot, wanted, absent, unlisted⟩
  | cons move rest =>
    rw [race.step_of_moves isMoves]
    cases party with
    | registering =>
      cases pending with
      | nil => cases isPushing.symm.trans isMoves
      | cons head pending =>
        cases isPushing.symm.trans isMoves
        refine ⟨pending, rfl, slot, wanted, fun later => absent (mem_cons_of_mem _ later), ?_⟩
        rintro listed
        rcases mem_postingsAt_push.mp listed with before | ⟨rfl, -⟩
        · exact unlisted before
        · exact absent mem_cons_self
    | removing =>
      have inside : move ∈ race.removal := by
        rw [show race.removal = move :: rest from isMoves]
        exact mem_cons_self
      exact ⟨pending, isPushing, slot, wanted, absent, fun listed =>
        unlisted ((sound.removal move inside).shrinks.postings slot _ listed)⟩

theorem Race.Sound.lost (sound : race.Sound connId otherConn subId entry)
    (full : ¬ race.DeletesEmpty party) : (race.step party).Lost connId subId entry := by
  unfold Race.DeletesEmpty at full
  push Not at full
  obtain ⟨slot, isHead, someone⟩ := full
  obtain ⟨rest, isMoves⟩ : ∃ rest, race.moves party = .delete slot :: rest := by
    cases moves : race.moves party with
    | nil => rw [moves] at isHead; cases isHead
    | cons head rest =>
      rw [moves] at isHead
      cases isHead
      exact ⟨rest, rfl⟩
  rw [race.step_of_moves isMoves]
  cases party with
  | registering =>
    -- A bucket that the registration itself has found empty stays so.
    rcases sound.phase with isStart | ⟨clears, isClearing, each, -⟩ | ⟨pending, isPushing, -, -⟩
    · cases isStart.symm.trans isMoves
    · cases clears with
      | nil => cases isClearing.symm.trans isMoves
      | cons head clears =>
        cases isClearing.symm.trans isMoves
        exact absurd (each _ mem_cons_self) someone
    · cases pending with
      | nil | cons head pending => cases isPushing.symm.trans isMoves
  | removing =>
    have inside : .delete slot ∈ race.removal := by
      rw [show race.removal = .delete slot :: rest from isMoves]
      exact mem_cons_self
    obtain ⟨subscriber, listed⟩ := exists_mem_of_ne_nil _ someone
    obtain ⟨rfl, pending, isPushing, absent, wanted⟩ := sound.refilled slot inside subscriber listed
    refine ⟨pending, isPushing, slot, wanted, absent, ?_⟩
    rw [make, postingsAt_eraseBucket, if_pos rfl]
    exact not_mem_nil

end race

section claims

variable {filters : List Filter}

theorem extractKinds_nodup {kinds : List Kind}
    (extracted : extractKindsFromFilters filters = some kinds) : kinds.Nodup := by
  apply foldlM_nodup _ extracted nodup_nil
  intro seen filter next isNext distinct
  split at isNext
  · cases isNext
    exact foldl_pushNew_nodup distinct _
  · cases isNext

variable {communityId : CommunityId}

theorem extractGlobalPKind_nodup {keys : List GlobalPKindIndexKey}
    (extracted : extractGlobalPKindIndexKeys communityId filters = some keys) : keys.Nodup := by
  apply foldlM_nodup _ extracted nodup_nil
  intro seen filter next isNext distinct
  split at isNext
  · cases isNext
  · split at isNext
    · cases isNext
      exact distinct
    · split at isNext
      · cases isNext
      · split at isNext
        · cases isNext
        · cases isNext
          exact foldl_pushNew_nodup distinct _

theorem slots_nodup (entry : SubEntry) : (slots entry).Nodup := by
  obtain ⟨filters, communityId, channelId⟩ := entry
  cases channelId with
  | some chId =>
    rw [slots]
    split
    · exact nodup_singleton _
    next kinds extracted =>
      exact (extractKinds_nodup extracted).map fun _ _ same => by
        injection same with _ sameKey
        injection sameKey
  | none =>
    rw [slots]
    split
    next keys extracted =>
      exact (extractGlobalPKind_nodup extracted).map fun _ _ same => by injection same
    · split
      · exact nodup_singleton _
      next kinds extracted =>
        exact (extractKinds_nodup extracted).map fun _ _ same => by injection same

def SubscriptionRegistry.AllListed (registry : SubscriptionRegistry) : Prop :=
  ∀ subscriber entry, registry.lookupSub subscriber = some entry →
    ∀ slot ∈ slots entry, subscriber ∈ registry.postingsAt slot

def Race.start (registry : SubscriptionRegistry) (register removal : Operation) : Race :=
  ⟨registry, register.moves, removal.moves⟩

theorem Race.start_sound {registry : SubscriptionRegistry} (indexed : registry.Indexed)
    {communityId : CommunityId} {filters : List Filter} {channelId : Option Uuid} {removal : Operation}
    (removes : removal.removesFrom = some otherConn) :
    (Race.start registry (.registerScoped communityId connId subId filters channelId) removal).Sound
      connId otherConn subId (filters, communityId, channelId) where
  removal move member := by
    cases removal with
    | registerScoped => cases removes
    | removeSubscription conn sub | removeConnection conn
    | removeChannelSubscriptionsScoped community conn channel =>
      cases removes
      rw [mem_singleton.mp member]
      rfl
  kept subscriber stored _ present slot wanted :=
    (indexed slot subscriber).mpr ⟨stored, present, wanted⟩
  phase := .starting rfl
  refilled slot deleted := by
    cases removal with
    | registerScoped => cases removes
    | removeSubscription conn sub | removeConnection conn => cases mem_singleton.mp deleted
    | removeChannelSubscriptionsScoped community conn channel =>
      cases mem_singleton.mp deleted

theorem Race.start_intact {registry : SubscriptionRegistry}
    {channelId : Option Uuid} {removal : Operation} :
    (Race.start registry (.registerScoped communityId connId subId filters channelId) removal).Intact
      connId subId (filters, communityId, channelId) :=
  fun _ isPushing => absurd isPushing (@not_pushes _ _ _ [.take connId subId] _ _ _)

theorem Race.Sound.finished (sound : race.Sound connId otherConn subId entry)
    (finished : race.Finished) :
    race.registry.AllListed ↔ race.Intact connId subId entry := by
  obtain ⟨pending, isPushing, present⟩ : ∃ pending, race.register = pushes (connId, subId) pending ∧
      race.registry.lookupSub (connId, subId) = some entry := by
    rcases sound.phase with isStart | ⟨clears, isClearing, -, -⟩ | ⟨pending, isPushing, -, present⟩
    · cases isStart.symm.trans finished.1
    · cases clears with
      | nil | cons head clears => cases isClearing.symm.trans finished.1
    · exact ⟨pending, isPushing, present⟩
  have done : ∀ pending, race.register = pushes (connId, subId) pending → pending = [] :=
    fun pending isPushing => map_eq_nil_iff.mp (isPushing.symm.trans finished.1)
  constructor
  · intro all pending _ slot wanted
    exact .inl (all _ entry present slot wanted)
  · intro intact subscriber stored isStored slot wanted
    by_cases same : subscriber = (connId, subId)
    · subst same
      cases isStored.symm.trans present
      rcases intact pending isPushing slot wanted with listed | member
      · exact listed
      · rw [done pending isPushing] at member
        cases member
    · exact sound.kept subscriber stored same isStored slot wanted

theorem Race.Lost.not_intact (lost : race.Lost connId subId entry) :
    ¬ race.Intact connId subId entry := by
  obtain ⟨pending, isPushing, slot, wanted, absent, unlisted⟩ := lost
  intro intact
  exact (intact pending isPushing slot wanted).elim unlisted absent

theorem Race.Sound.run (sound : race.Sound connId otherConn subId entry)
    (different : otherConn ≠ connId) (distinct : (slots entry).Nodup) (parties : List Party) :
    (parties.foldl Race.step race).Sound connId otherConn subId entry := by
  induction parties generalizing race with
  | nil => exact sound
  | cons party rest ih => exact ih (sound.step different distinct party)

theorem Race.Lost.run (lost : race.Lost connId subId entry)
    (sound : race.Sound connId otherConn subId entry) (different : otherConn ≠ connId)
    (distinct : (slots entry).Nodup) (parties : List Party) :
    (parties.foldl Race.step race).Lost connId subId entry := by
  induction parties generalizing race with
  | nil => exact lost
  | cons party rest ih => exact ih (lost.step sound party) (sound.step different distinct party)

theorem Race.Intact.run_iff (intact : race.Intact connId subId entry)
    (sound : race.Sound connId otherConn subId entry) (different : otherConn ≠ connId)
    (distinct : (slots entry).Nodup) (parties : List Party) :
    (parties.foldl Race.step race).Intact connId subId entry ↔
      EachStep Race.step Race.DeletesEmpty race parties := by
  induction parties generalizing race with
  | nil => exact ⟨fun _ => trivial, fun _ => intact⟩
  | cons party rest ih =>
    have next := sound.step different distinct party
    by_cases deletesEmpty : race.DeletesEmpty party
    · have stays := intact.step sound different deletesEmpty
      exact (ih stays next).trans ⟨fun later => ⟨deletesEmpty, later⟩, And.right⟩
    · have lost := (sound.lost deletesEmpty).run next different distinct rest
      exact ⟨fun kept => absurd kept lost.not_intact, fun each => absurd each.1 deletesEmpty⟩

/-- Exactly when no bucket was refilled before its deletion. -/
theorem all_listed_iff (operations : List Operation) (communityId : CommunityId) (connId : ConnId)
    (subId : SubId) (filters : List Filter) (channelId : Option Uuid) (removal : Operation)
    (otherConn : ConnId) (removes : removal.removesFrom = some otherConn)
    (different : otherConn ≠ connId) (parties : List Party)
    (finished : (parties.foldl Race.step
      (.start (.run operations) (.registerScoped communityId connId subId filters channelId)
        removal)).Finished) :
    (parties.foldl Race.step
        (.start (.run operations) (.registerScoped communityId connId subId filters channelId)
          removal)).registry.AllListed ↔
      EachStep Race.step Race.DeletesEmpty
        (.start (.run operations) (.registerScoped communityId connId subId filters channelId)
          removal) parties := by
  have sound := @Race.start_sound connId otherConn subId _ (indexed_run operations) communityId filters
    channelId removal removes
  have distinct := slots_nodup (filters, communityId, channelId)
  exact ((sound.run different distinct parties).finished finished).trans
    (Race.start_intact.run_iff sound different distinct parties)

end claims

def sampleId (byte : UInt8) : Uuid := .fill byte

def sampleCommunity : CommunityId := ⟨sampleId 9⟩

def sampleFilter : Filter := ⟨none, none, none, none, none, none, none, ∅⟩

def sampleRegister (byte : UInt8) : Operation :=
  .registerScoped sampleCommunity (sampleId byte) "s" [sampleFilter] (some (sampleId 0))

def sampleRace : Race :=
  .start (.run [sampleRegister 2]) (sampleRegister 1) (.removeConnection (sampleId 2))

theorem sampleRace_listed :
    (([.registering, .registering, .removing, .removing, .removing, .registering].foldl Race.step
      sampleRace).registry.AllListed ↔
    EachStep Race.step Race.DeletesEmpty sampleRace
      [.registering, .registering, .removing, .removing, .removing, .registering]) :=
  all_listed_iff [sampleRegister 2] sampleCommunity (sampleId 1) "s" [sampleFilter] (some (sampleId 0))
    (.removeConnection (sampleId 2)) (sampleId 2) rfl (by decide) _ ⟨rfl, rfl⟩

def sampleRefill : List Party :=
  [.registering, .registering, .removing, .removing, .registering, .removing]

theorem sampleRefill_unlisted : (sampleRefill.foldl Race.step sampleRace).Finished ∧
    ¬ (sampleRefill.foldl Race.step sampleRace).registry.AllListed := by
  refine ⟨⟨rfl, rfl⟩, fun all => ?_⟩
  have present : (sampleRefill.foldl Race.step sampleRace).registry.lookupSub (sampleId 1, "s") =
      some ([sampleFilter], sampleCommunity, some (sampleId 0)) := rfl
  have listed := all _ _ present (.channelWildcard sampleCommunity (sampleId 0)) mem_cons_self
  have empty : (sampleRefill.foldl Race.step sampleRace).registry.postingsAt
      (.channelWildcard sampleCommunity (sampleId 0)) = [] := rfl
  rw [empty] at listed
  cases listed

end Buzz.Subscription
