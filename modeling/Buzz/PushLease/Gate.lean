import Buzz.PushLease.Runs

/-! The gate between activations and the trigger of event insertions. -/

namespace Buzz.PushLease

open Nostr Buzz.Push Library.Locks List
open Bool (and_eq_true or_eq_true)

/-- The row with the key is inserted and not committed. -/
def Insert.holdsKey (self : Insert) (key : CommunityId × EventId) : Bool :=
  self.phase ≠ .ended && self.rows.any (·.key = key)

/-- Behind the trigger its job is pending or no lease is eligible. -/
structure Gated (world : World) (insert : Insert) : Prop where
  started : insert.now ≤ world.clock
  fresh : ∀ row ∈ insert.rows, ∀ event ∈ world.events, event.key ≠ row.key
  jobs : ∀ key ∈ insert.jobs, ∃ row ∈ insert.rows, row.key = key
  trigger : ∀ row, insert.phase = .triggered row ∨ insert.phase = .locked row → row ∈ insert.rows
  locked : ∀ row, insert.phase = .locked row → row.community ∈ insert.gates
  owed : ∀ row ∈ insert.rows, pushKinds.contains row.kind → insert.phase ≠ .triggered row →
    insert.phase ≠ .locked row → row.community ∈ insert.gates ∧ (row.key ∈ insert.jobs ∨
      ∀ lease ∈ world.leases, lease.communityId = row.community →
        lease.eligible insert.now = false)

structure Owed (world : World) : Prop where
  sound : Sound world
  gated : ∀ insert ∈ world.inserts, insert.phase ≠ .ended → Gated world insert
  apart : Exclusive Insert.holdsKey world.inserts
  jobs : ∀ key ∈ world.jobs, ∃ event ∈ world.events, event.key = key
  calls : ∀ call ∈ world.calls, ∀ key ∈ call.jobs, ∃ event ∈ world.events, event.key = key

section gate

variable {world next : World} {index : ℕ} {insert : Insert} {call : Call} {label : Label}
  {labels : List Label} {clock : ℤ}

theorem epoch_mono {earlier later : ℤ} (before : earlier ≤ later) : epoch earlier ≤ epoch later := by
  unfold epoch
  omega

theorem eligible_earlier {lease : LeaseRow} {earlier later : ℤ} (before : earlier ≤ later)
    (eligible : lease.eligible later) : lease.eligible earlier := by
  have monotone := epoch_mono before
  simp only [LeaseRow.eligible, and_eq_true, decide_eq_true_eq] at eligible ⊢
  exact ⟨eligible.1, by omega⟩

theorem Gated.keep (gated : Gated world insert) (clock : world.clock ≤ next.clock)
    (events : ∀ row ∈ insert.rows, ∀ event ∈ next.events, event.key ≠ row.key)
    (leases : ∀ community ∈ insert.gates, ∀ lease ∈ next.leases, lease.communityId = community →
      lease.eligible insert.now →
        ∃ old ∈ world.leases, old.communityId = community ∧ old.eligible insert.now) :
    Gated next insert := by
  constructor
  · exact Int.le_trans gated.started clock
  · exact events
  · exact gated.jobs
  · exact gated.trigger
  · exact gated.locked
  · intro row member kind untriggered unlocked
    obtain ⟨gate, owed⟩ := gated.owed row member kind untriggered unlocked
    refine ⟨gate, ?_⟩
    cases owed with
    | inl pending => exact .inl pending
    | inr none =>
      right
      intro lease isLease community
      by_contra eligible
      obtain ⟨old, isOld, same, wasEligible⟩ := leases row.community gate lease isLease community
        (eq_true_of_ne_false eligible)
      rw [none old isOld same] at wasEligible
      cases wasEligible

theorem leases_of_commit (sound : Sound world) (found : world.calls[index]? = some call)
    (phase : call.phase = .backfilled) (member : insert ∈ world.inserts)
    (running : insert.phase ≠ .ended) (community : CommunityId) (gate : community ∈ insert.gates)
    (lease : LeaseRow) (isLease : lease ∈ (world.commit index call).leases)
    (isCommunity : lease.communityId = community) (eligible : lease.eligible insert.now) :
    ∃ old ∈ world.leases, old.communityId = community ∧ old.eligible insert.now := by
  cases mem_cons.mp isLease with
  | inl new =>
    have active : call.active.isSome := by
      simp only [LeaseRow.eligible, and_eq_true, new] at eligible
      exact eligible.1.1
    have same : call.address.community = community := by
      rw [← isCommunity, new]
      rfl
    have holds : call.holdsGate community := by
      simp [Call.holdsGate, active, same, Call.within, phase, Phase.rank]
    have shared := sound.shared call (mem_of_getElem? found) insert member community holds
    have held : insert.holdsGate community := by
      simp [Insert.holdsGate, running, gate]
    rw [held] at shared
    cases shared
  | inr old => exact ⟨lease, (mem_filter.mp old).1, isCommunity, eligible⟩

theorem leases_of_disable {address : Address} {generation now : ℤ} {community : CommunityId}
    (lease : LeaseRow) (isLease : lease ∈ world.leases.map (disabled address generation))
    (isCommunity : lease.communityId = community) (eligible : lease.eligible now) :
    ∃ old ∈ world.leases, old.communityId = community ∧ old.eligible now := by
  obtain ⟨old, isOld, rfl⟩ := mem_map.mp isLease
  unfold disabled at isCommunity eligible
  split at eligible
  · simp [LeaseRow.eligible] at eligible
  next kept =>
    rw [if_neg kept] at isCommunity
    exact ⟨old, isOld, isCommunity, eligible⟩

theorem Owed.calls_step (owed : Owed world) (sound : Sound next)
    (same : next.inserts = world.inserts) (clock : world.clock ≤ next.clock)
    (events : next.events = world.events)
    (leases : ∀ insert ∈ world.inserts, insert.phase ≠ .ended → ∀ community ∈ insert.gates,
      ∀ lease ∈ next.leases, lease.communityId = community → lease.eligible insert.now →
        ∃ old ∈ world.leases, old.communityId = community ∧ old.eligible insert.now)
    (jobs : ∀ key ∈ next.jobs, ∃ event ∈ world.events, event.key = key)
    (calls : ∀ call ∈ next.calls, ∀ key ∈ call.jobs, ∃ event ∈ world.events, event.key = key) :
    Owed next := by
  refine ⟨sound, ?_, ?_, ?_, ?_⟩
  · intro insert member running
    rw [same] at member
    have gated := owed.gated insert member running
    apply gated.keep clock
    · rw [events]
      exact gated.fresh
    · exact leases insert member running
  · rw [same]
    exact owed.apart
  · rw [events]
    exact jobs
  · rw [events]
    exact calls

variable {moved : Insert}

theorem Owed.setInsert (owed : Owed world) (sound : Sound (world.setInsert index moved))
    (gated : moved.phase ≠ .ended → Gated world moved) (keys : ∀ key, moved.holdsKey key →
      (∃ old, world.inserts[index]? = some old ∧ old.holdsKey key) ∨
        others index (·.holdsKey key) world.inserts = false) :
    Owed (world.setInsert index moved) := by
  have keep (insert : Insert) (gated : Gated world insert) :
      Gated (world.setInsert index moved) insert :=
    gated.keep (Int.le_refl _) gated.fresh
      fun community _ lease member same eligible => ⟨lease, member, same, eligible⟩
  refine ⟨sound, ?_, owed.apart.set keys, owed.jobs, owed.calls⟩
  intro insert member running
  cases mem_set_iff member with
  | inl new =>
    rw [new] at running ⊢
    exact keep moved (gated running)
  | inr old => exact keep insert (owed.gated insert old running)

theorem Owed.insertRow (owed : Owed world) (found : world.inserts[index]? = some insert)
    (ready : insert.phase = .ready) (row : PushEvent)
    (sound : Sound (world.insertRow index insert row)) :
    Owed (world.insertRow index insert row) := by
  have running : insert.phase ≠ .ended := by
    rw [ready]
    exact nofun
  have gated := owed.gated insert (mem_of_getElem? found) running
  unfold World.insertRow at sound ⊢
  split at sound
  next present =>
    rw [if_pos present]
    exact owed
  next absent =>
    rw [if_neg absent]
    rw [or_eq_true, or_eq_true, not_or, not_or] at absent
    obtain ⟨⟨uncommitted, -⟩, free⟩ := absent
    apply owed.setInsert sound
    · intro _
      constructor
      · exact gated.started
      · intro other member event isEvent same
        cases mem_cons.mp member with
        | inl new =>
          rw [new] at same
          exact uncommitted (any_eq_true.mpr ⟨event, isEvent, decide_eq_true same⟩)
        | inr old => exact gated.fresh other old event isEvent same
      · intro key member
        obtain ⟨other, within, same⟩ := gated.jobs key member
        exact ⟨other, mem_cons_of_mem row within, same⟩
      · intro other phase
        dsimp only at phase
        split at phase
        · cases phase with
          | inl triggered =>
            cases triggered
            exact mem_cons_self
          | inr locked => cases locked
        · cases phase with
          | inl triggered => cases triggered
          | inr locked => cases locked
      · intro other phase
        dsimp only at phase
        split at phase <;> cases phase
      · intro other member kind untriggered _
        cases mem_cons.mp member with
        | inl new =>
          rw [new] at kind untriggered
          exact (untriggered (if_pos kind)).elim
        | inr old =>
          exact gated.owed other old kind (by rw [ready]; exact nofun) (by rw [ready]; exact nofun)
    · intro key holds
      simp only [Insert.holdsKey, any_cons, and_eq_true, or_eq_true,
        decide_eq_true_eq] at holds
      cases holds.2 with
      | inl own =>
        right
        rw [← own]
        exact eq_false_of_ne_true free
      | inr old =>
        left
        refine ⟨insert, found, ?_⟩
        simp only [Insert.holdsKey, and_eq_true, decide_eq_true_eq]
        exact ⟨running, old⟩

theorem holdsKey_of_rows (found : world.inserts[index]? = some insert)
    (running : insert.phase ≠ .ended) (rows : moved.rows = insert.rows)
    (key : CommunityId × EventId) (holds : moved.holdsKey key) :
    (∃ old, world.inserts[index]? = some old ∧ old.holdsKey key) ∨
      others index (·.holdsKey key) world.inserts = false := by
  left
  refine ⟨insert, found, ?_⟩
  simp only [Insert.holdsKey, and_eq_true, decide_eq_true_eq, rows] at holds ⊢
  exact ⟨running, holds.2⟩

variable {row : PushEvent}

section

variable (owed : Owed world)

include owed

theorem Owed.lockShared (found : world.inserts[index]? = some insert)
    (triggered : insert.phase = .triggered row)
    (isMoved : moved = { insert with gates := row.community :: insert.gates, phase := .locked row })
    (sound : Sound (world.setInsert index moved)) : Owed (world.setInsert index moved) := by
  subst isMoved
  have running : insert.phase ≠ .ended := by
    rw [triggered]
    exact nofun
  have gated := owed.gated insert (mem_of_getElem? found) running
  apply owed.setInsert sound
  · intro _
    constructor
    · exact gated.started
    · exact gated.fresh
    · exact gated.jobs
    · intro other phase
      cases phase with
      | inl triggers => cases triggers
      | inr locks =>
        cases locks
        exact gated.trigger row (.inl triggered)
    · intro other locks
      cases locks
      exact mem_cons_self
    · intro other member kind _ unlocked
      have apart : row ≠ other := fun same => unlocked (congrArg InsertPhase.locked same)
      obtain ⟨gate, job⟩ := gated.owed other member kind
        (by rw [triggered]; exact fun same => apart (InsertPhase.triggered.inj same))
        (by rw [triggered]; exact nofun)
      exact ⟨mem_cons_of_mem _ gate, job⟩
  · exact holdsKey_of_rows found running rfl

theorem Owed.enqueueMatch (found : world.inserts[index]? = some insert)
    (locked : insert.phase = .locked row) (sound : Sound (world.enqueueMatch index insert row)) :
    Owed (world.enqueueMatch index insert row) := by
  have running : insert.phase ≠ .ended := by
    rw [locked]
    exact nofun
  have gated := owed.gated insert (mem_of_getElem? found) running
  have inserted := gated.trigger row (.inr locked)
  have unqueued : world.jobs.contains row.key = false := by
    by_contra queued
    obtain ⟨event, isEvent, same⟩ :=
      owed.jobs row.key (contains_iff_mem.mp (eq_true_of_ne_false queued))
    exact gated.fresh row inserted event isEvent same
  apply owed.setInsert sound
  · intro _
    constructor
    · exact gated.started
    · exact gated.fresh
    · intro key member
      dsimp only at member
      split at member
      · cases mem_cons.mp member with
        | inl new => exact ⟨row, inserted, new.symm⟩
        | inr old => exact gated.jobs key old
      · exact gated.jobs key member
    · intro other phase
      cases phase with
      | inl triggers => cases triggers
      | inr locks => cases locks
    · intro other locks
      cases locks
    · intro other member kind _ _
      rw [unqueued, Bool.not_false, Bool.and_true]
      by_cases same : other = row
      · refine ⟨same ▸ gated.locked row locked, ?_⟩
        by_cases eligible : (world.leases.any fun lease =>
            lease.communityId = row.community && lease.eligible insert.now)
        · left
          rw [if_pos eligible, same]
          exact mem_cons_self
        · right
          intro lease isLease community
          by_contra isEligible
          apply eligible
          refine any_eq_true.mpr ⟨lease, isLease, ?_⟩
          rw [and_eq_true, decide_eq_true_eq]
          exact ⟨same ▸ community, eq_true_of_ne_false isEligible⟩
      · obtain ⟨gate, job⟩ := gated.owed other member kind (by rw [locked]; exact nofun)
          (by rw [locked]; exact fun isRow => same (InsertPhase.locked.inj isRow).symm)
        refine ⟨gate, ?_⟩
        cases job with
        | inl pending =>
          left
          split
          · exact mem_cons_of_mem _ pending
          · exact pending
        | inr none => exact .inr none
  · exact holdsKey_of_rows found running rfl

theorem Owed.ended (sound : Sound (world.setInsert index { insert with phase := .ended })) :
    Owed (world.setInsert index { insert with phase := .ended }) := by
  apply owed.setInsert sound
  · intro running
    exact (running rfl).elim
  · intro key holds
    simp [Insert.holdsKey] at holds

theorem Owed.commitInsert (found : world.inserts[index]? = some insert)
    (ready : insert.phase = .ready) {after : World}
    (isAfter : after = { world.setInsert index { insert with phase := .ended } with
      events := insert.rows ++ world.events
      jobs := insert.jobs ++ world.jobs }) (sound : Sound after) : Owed after := by
  subst isAfter
  have running : insert.phase ≠ .ended := by
    rw [ready]
    exact nofun
  have gated := owed.gated insert (mem_of_getElem? found) running
  have more {key : CommunityId × EventId} (before : ∃ event ∈ world.events, event.key = key) :
      ∃ event ∈ insert.rows ++ world.events, event.key = key := by
    obtain ⟨event, member, same⟩ := before
    exact ⟨event, mem_append_right _ member, same⟩
  refine ⟨sound, ?_, ?_, ?_, fun call member key isKey => more (owed.calls call member key isKey)⟩
  · intro other member isRunning
    obtain ⟨position, isAt⟩ := mem_iff_getElem?.mp member
    cases getElem?_set isAt with
    | inl new =>
      rw [new.2] at isRunning
      exact (isRunning rfl).elim
    | inr old =>
      obtain ⟨elsewhere, before⟩ := old
      have otherGated := owed.gated other (mem_of_getElem? before) isRunning
      refine @Gated.keep world _ other otherGated (Int.le_refl _) ?_ ?_
      · intro row isRow event isEvent same
        cases mem_append.mp isEvent with
        | inl own =>
          apply elsewhere
          apply owed.apart position index other insert row.key before found
          · simp only [Insert.holdsKey, and_eq_true, decide_eq_true_eq, any_eq_true]
            exact ⟨isRunning, row, isRow, rfl⟩
          · simp only [Insert.holdsKey, and_eq_true, decide_eq_true_eq, any_eq_true]
            exact ⟨running, event, own, same⟩
        | inr committed => exact otherGated.fresh row isRow event committed same
      · exact fun community _ lease isLease same eligible => ⟨lease, isLease, same, eligible⟩
  · apply owed.apart.set
    intro key holds
    simp [Insert.holdsKey] at holds
  · intro key member
    cases mem_append.mp member with
    | inl own =>
      obtain ⟨row, isRow, same⟩ := gated.jobs key own
      exact ⟨row, mem_append_left _ isRow, same⟩
    | inr old => exact more (owed.jobs key old)

end

theorem jobs_of_advance {moved : Call} (owed : Owed world) (found : world.calls[index]? = some call)
    (advance : Advance world index call moved) :
    ∀ key ∈ moved.jobs, ∃ event ∈ world.events, event.key = key := by
  have before := owed.calls call (mem_of_getElem? found)
  cases advance with
  | backfill phase =>
    intro key member
    dsimp only [World.backfill] at member
    split at member
    · obtain ⟨event, isEvent, same⟩ := mem_map.mp member
      exact ⟨event, (mem_filter.mp isEvent).1, same⟩
    · exact absurd member not_mem_nil
  | address | author | gate | unbound | check | sweep | count | inactive | passes | store | upsert
    | replace | finish => exact before

theorem Owed.step (owed : Owed world) (label : Label) : Owed (world.step label) := by
  have sound := owed.sound.step label
  have same (insert : Insert) (_ : insert ∈ world.inserts) (_ : insert.phase ≠ .ended)
      (community : CommunityId) (_ : community ∈ insert.gates) (lease : LeaseRow)
      (member : lease ∈ world.leases) (isCommunity : lease.communityId = community)
      (eligible : lease.eligible insert.now) :
      ∃ old ∈ world.leases, old.communityId = community ∧ old.eligible insert.now :=
    ⟨lease, member, isCommunity, eligible⟩
  have setCall {moved : Call}
      (jobs : ∀ key ∈ moved.jobs, ∃ event ∈ world.events, event.key = key) (index : ℕ) :
      ∀ call ∈ world.calls.set index moved, ∀ key ∈ call.jobs,
        ∃ event ∈ world.events, event.key = key := by
    intro call member
    cases mem_set_iff member with
    | inl new =>
      rw [new]
      exact jobs
    | inr old => exact owed.calls call old
  cases label with
  | tick now =>
    exact owed.calls_step sound rfl (Int.le_max_left _ _) rfl same owed.jobs owed.calls
  | call input =>
    apply owed.calls_step sound rfl (Int.le_refl _) rfl same owed.jobs
    intro call member
    cases mem_append.mp member with
    | inl before => exact owed.calls call before
    | inr new =>
      rw [mem_singleton.mp new]
      exact fun key isKey => absurd isKey not_mem_nil
  | advance index =>
    dsimp only [World.step] at sound ⊢
    split at sound
    next call found =>
      split at sound
      next moved isNext =>
        have jobs := jobs_of_advance owed found (advance_of_next isNext)
        exact owed.calls_step sound rfl (Int.le_refl _) rfl same owed.jobs (setCall jobs index)
      · exact owed
    · exact owed
  | commit index =>
    dsimp only [World.step] at sound ⊢
    split at sound
    next call found =>
      split at sound
      next phase =>
        rw [if_pos phase]
        have own := owed.calls call (mem_of_getElem? found)
        apply owed.calls_step sound rfl (Int.le_refl _) rfl
        · exact fun insert member running => leases_of_commit owed.sound found phase member running
        · intro key member
          cases mem_append.mp member with
          | inl new => exact own key new
          | inr old => exact owed.jobs key old
        · exact @setCall (call.finish (some .accepted)) own index
      next phase =>
        rw [if_neg phase]
        exact owed
    · exact owed
  | fail index =>
    dsimp only [World.step] at sound ⊢
    split at sound
    next call found =>
      split at sound
      next running =>
        rw [if_pos running]
        have own := owed.calls call (mem_of_getElem? found)
        exact owed.calls_step sound rfl (Int.le_refl _) rfl same owed.jobs
          (@setCall (call.finish none) own index)
      next running =>
        rw [if_neg running]
        exact owed
    · exact owed
  | disable address generation =>
    cases @step_disable world address generation with
    | inl waits =>
      rw [waits.2]
      exact owed
    | inr changed =>
      rw [changed.2] at sound ⊢
      apply owed.calls_step sound rfl (Int.le_refl _) rfl _ owed.jobs owed.calls
      exact fun insert _ _ community _ => leases_of_disable
  | begin =>
    refine ⟨sound, ?_, ?_, owed.jobs, owed.calls⟩
    · intro insert member running
      cases mem_append.mp member with
      | inl before =>
        have gated := owed.gated insert before running
        exact gated.keep (Int.le_refl _) gated.fresh (same insert before running)
      | inr new =>
        rw [mem_singleton.mp new]
        have none {α : Type} {item : α} (within : item ∈ ([] : List α)) : False :=
          not_mem_nil within
        constructor
        · exact Int.le_refl _
        · exact fun _ within => (none within).elim
        · exact fun _ within => (none within).elim
        · intro row phase
          cases phase with
          | inl triggers => cases triggers
          | inr locks => cases locks
        · intro row locks
          cases locks
        · exact fun _ within => (none within).elim
    · apply owed.apart.concat
      intro key
      rfl
  | insert index row =>
    dsimp only [World.step] at sound ⊢
    split at sound
    next insert found =>
      split at sound
      next ready =>
        rw [if_pos ready]
        exact owed.insertRow found ready row sound
      next busy =>
        rw [if_neg busy]
        exact owed
    · exact owed
  | lockShared index =>
    dsimp only [World.step] at sound ⊢
    split at sound
    next insert found =>
      split at sound
      next row triggered =>
        split at sound
        next waits =>
          rw [if_pos waits]
          exact owed
        next free =>
          rw [if_neg free]
          exact owed.lockShared found triggered rfl sound
      · exact owed
    · exact owed
  | enqueue index =>
    dsimp only [World.step] at sound ⊢
    split at sound
    next insert found =>
      split at sound
      next row locked => exact owed.enqueueMatch found locked sound
      · exact owed
    · exact owed
  | commitInsert index =>
    dsimp only [World.step] at sound ⊢
    split at sound
    next insert found =>
      split at sound
      next ready =>
        rw [if_pos ready]
        exact owed.commitInsert found ready rfl sound
      next busy =>
        rw [if_neg busy]
        exact owed
    · exact owed
  | rollback index =>
    dsimp only [World.step] at sound ⊢
    split at sound
    · exact owed.ended sound
    · exact owed
  | deleteEvent community id =>
    have kept (event : PushEvent) :
        (if event.key = (community, id) then { event with live := false } else event).key =
          event.key := by
      split <;> rfl
    have still {key : CommunityId × EventId} (before : ∃ event ∈ world.events, event.key = key) :
        ∃ event ∈ (world.step (.deleteEvent community id)).events, event.key = key := by
      obtain ⟨event, member, isKey⟩ := before
      exact ⟨_, mem_map_of_mem member, (kept event).trans isKey⟩
    refine ⟨sound, ?_, owed.apart, fun key member => still (owed.jobs key member),
      fun call member key isKey => still (owed.calls call member key isKey)⟩
    intro insert member running
    have gated := owed.gated insert member running
    refine @Gated.keep world _ insert gated (Int.le_refl _) ?_ (same insert member running)
    intro row isRow event isEvent isKey
    obtain ⟨old, isOld, rfl⟩ := mem_map.mp isEvent
    exact gated.fresh row isRow old isOld ((kept old).symm.trans isKey)
  | matched community id =>
    apply owed.calls_step sound rfl (Int.le_refl _) rfl same _ owed.calls
    exact fun key member => owed.jobs key (mem_filter.mp member).1

theorem owed_initial : Owed (World.initial clock) := by
  have none {α : Type} {item : α} (within : item ∈ ([] : List α)) : False :=
    not_mem_nil within
  refine ⟨sound_initial, ?_, ?_, ?_, ?_⟩
  · exact fun _ member => (none member).elim
  · exact fun _ _ _ _ _ found => by cases found
  · exact fun _ member => (none member).elim
  · exact fun _ member => (none member).elim

theorem Owed.after (owed : Owed world) (labels : List Label) : Owed (world.after labels) := by
  induction labels generalizing world with
  | nil => exact owed
  | cons label labels ih => exact ih (owed.step label)

/-- A job for each of its rows that wants one. -/
theorem wakes_owed (clock : ℤ) (labels : List Label) :
    (∀ (index : ℕ) (insert : Insert),
      ((World.initial clock).after labels).inserts[index]? = some insert →
        insert.phase = .ready → ∀ row ∈ insert.rows, pushKinds.contains row.kind →
          (∃ lease ∈ ((World.initial clock).after labels).leases,
            lease.communityId = row.community ∧
              lease.eligible ((World.initial clock).after labels).clock) →
            row ∈ (((World.initial clock).after labels).step (.commitInsert index)).events ∧
              row.key ∈ (((World.initial clock).after labels).step (.commitInsert index)).jobs) ∧
      (∀ (index : ℕ) (insert : Insert),
        ((World.initial clock).after labels).inserts[index]? = some insert →
          insert.phase ≠ .ended → ∀ row ∈ insert.rows,
            row.key ∉ (((World.initial clock).after labels).step (.rollback index)).jobs) ∧
      ∀ key ∈ ((World.initial clock).after labels).jobs,
        ∃ event ∈ ((World.initial clock).after labels).events, event.key = key := by
  have owed := (@owed_initial clock).after labels
  generalize (World.initial clock).after labels = world at owed ⊢
  refine ⟨?_, ?_, owed.jobs⟩
  · intro index insert found ready row member kind present
    obtain ⟨lease, isLease, community, eligible⟩ := present
    have gated := owed.gated insert (mem_of_getElem? found) (by simp [ready])
    have committed : world.step (.commitInsert index) =
        { world.setInsert index { insert with phase := .ended } with
          events := insert.rows ++ world.events
          jobs := insert.jobs ++ world.jobs } := by
      rw [World.step, found]
      exact if_pos ready
    rw [committed]
    refine ⟨mem_append_left _ member, mem_append_left _ ?_⟩
    obtain ⟨-, job⟩ := gated.owed row member kind (by simp [ready])
      (by simp [ready])
    cases job with
    | inl pending => exact pending
    | inr none =>
      have earlier := eligible_earlier gated.started eligible
      rw [none lease isLease community] at earlier
      cases earlier
  · intro index insert found running row member
    have gated := owed.gated insert (mem_of_getElem? found) running
    have kept : (world.step (.rollback index)).jobs = world.jobs := by
      rw [World.step, found]
      rfl
    rw [kept]
    intro queued
    obtain ⟨event, isEvent, same⟩ := owed.jobs row.key queued
    exact gated.fresh row member event isEvent same

end gate

end Buzz.PushLease
