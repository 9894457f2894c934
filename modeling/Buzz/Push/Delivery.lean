import Mathlib.Data.List.Induction
import Buzz.Push.Fencing

/-! Runs of the delivery workers: what a request rests on, and how many there are for a job. -/

namespace Buzz.Push

open Nostr Library.Page Library.Slots List

def Found (tables : Tables) (now : ℤ) (wake : ClaimedWake) : Prop :=
  ∃ job ∈ tables.jobs, job.heldBy wake.community wake.id wake.claimId ∧
    (job.leaseUntil.any fun lease => now ≤ lease) ∧ epoch now < job.expiresAt ∧
      (∃ lease ∈ tables.leases, job.joins lease ∧ lease.eligible now) ∧
        (tables.events job.communityId job.eventId).isSome

section phases

variable {world : World} {label : Label} {task other : ℕ} {phase : Phase} {wake : ClaimedWake}
  {tables : Tables} {now : ℤ}

theorem current_isSome {job : WakeJob} (current : (job.current tables now).isSome) :
    epoch now < job.expiresAt ∧
      (∃ lease ∈ tables.leases, job.joins lease ∧ lease.eligible now) ∧
        (tables.events job.communityId job.eventId).isSome := by
  unfold WakeJob.current at current
  split at current
  next unexpired =>
    split at current
    next lease channelId joined live =>
      have kept := find?_some joined
      rw [Bool.and_eq_true] at kept
      exact ⟨unexpired, ⟨lease, mem_of_find?_eq_some joined, kept.1, kept.2⟩, by rw [live]; rfl⟩
    · cases current
  · cases current

theorem revalidate_found {community : CommunityId} {id claimId : Uuid}
    (found : tables.revalidateWakeForSend community id claimId now = some wake) :
    Found tables now wake := by
  obtain ⟨job, held, toClaimed⟩ := Option.bind_eq_some_iff.mp found
  obtain ⟨active, -, rfl⟩ := Option.map_eq_some_iff.mp toClaimed
  have kept := find?_some held
  rw [Bool.and_eq_true, Bool.and_eq_true] at kept
  obtain ⟨key, claimed, sending⟩ := heldBy_iff.mp kept.1.1
  refine ⟨job, mem_of_find?_eq_some held, ?_, kept.1.2, current_isSome kept.2⟩
  rw [heldBy_iff]
  exact ⟨rfl, claimed, sending⟩

theorem phase_setPhase : (world.setPhase task phase).phase other =
    if task = other then (world.phase other).map fun _ => phase else world.phase other := by
  unfold World.setPhase World.phase
  rw [getElem?_modify]
  split
  · rw [Option.map_map, Option.map_eq_map, Option.map_map]
    rfl
  · simp

theorem ready_of_setPhase {next : World} (ready : next.phase other = some (.ready wake))
    (tasks : next.tasks = (world.setPhase task phase).tasks) (unready : phase ≠ .ready wake) :
    world.phase other = some (.ready wake) := by
  have same : next.phase other = (world.setPhase task phase).phase other := by
    rw [World.phase, tasks]
    rfl
  rw [same, phase_setPhase] at ready
  split at ready
  · obtain ⟨old, -, isReady⟩ := Option.map_eq_some_iff.mp ready
    exact absurd isReady unready
  · exact ready

theorem ready_of_revalidate {next : ClaimedWake → Phase} {held : ClaimedWake}
    {available : Bool}
    (ready : (world.revalidate task held next now available).phase other = some (.ready wake)) :
    world.phase other = some (.ready wake) ∨
      task = other ∧ available ∧ ∃ found, next found = .ready wake ∧
        Found world.tables now found := by
  unfold World.revalidate at ready
  split at ready
  next isAvailable =>
    split at ready
    next found isFound =>
      rw [phase_setPhase] at ready
      split at ready
      next same =>
        obtain ⟨old, -, isReady⟩ := Option.map_eq_some_iff.mp ready
        exact .inr ⟨same, isAvailable, found, isReady, revalidate_found isFound⟩
      · exact .inl ready
    · exact .inl (ready_of_setPhase ready rfl Phase.noConfusion)
  · exact .inl (ready_of_setPhase ready rfl Phase.noConfusion)

theorem ready_of_step (ready : (world.step label).phase task = some (.ready wake)) :
    world.phase task = some (.ready wake) ∨
      ∃ now, label = .revalidate task now true ∧ Found world.tables now wake := by
  cases label with
  | enqueue community now requests =>
    dsimp only [World.step] at ready
    split at ready <;> exact .inl ready
  | claim community limit leaseUntil claimId now locked =>
    dsimp only [World.step] at ready
    split at ready
    · exact .inl ready
    · rw [World.phase, getElem?_append] at ready
      split at ready
      · exact .inl ready
      · rw [getElem?_map, Option.map_map] at ready
        obtain ⟨claimed, -, isReady⟩ := Option.map_eq_some_iff.mp ready
        cases isReady
  | revalidate index now available =>
    dsimp only [World.step] at ready
    split at ready
    · cases ready_of_revalidate ready with
      | inl before => exact .inl before
      | inr now =>
        obtain ⟨-, -, found, isReady, -⟩ := now
        rw [World.afterRevalidation] at isReady
        split at isReady <;> cases isReady
    · cases ready_of_revalidate ready with
      | inl before => exact .inl before
      | inr found =>
        obtain ⟨rfl, rfl, found, isReady, isFound⟩ := found
        cases isReady
        exact .inr ⟨now, rfl, isFound⟩
    · exact .inl ready
  | isMember index answer | send index =>
    dsimp only [World.step] at ready
    split at ready <;> first
      | exact Or.inl (ready_of_setPhase ready rfl Phase.noConfusion)
      | exact Or.inl ready
  | answer index result =>
    dsimp only [World.step] at ready
    split at ready
    next held sent =>
      apply Or.inl (ready_of_setPhase ready rfl _)
      intro same
      have unsent := (@answered_wake held result).2
      rw [same] at unsent
      cases unsent
    · exact Or.inl ready
  | settle index now available =>
    dsimp only [World.step] at ready
    split at ready
    · exact .inl (ready_of_setPhase ready rfl Phase.noConfusion)
    · exact .inl (ready_of_setPhase ready rfl Phase.noConfusion)
    · exact .inl ready
  | crash index => exact .inl (ready_of_setPhase ready rfl Phase.noConfusion)
  | prune community before now matching | leases leases | events events => exact .inl ready

end phases

namespace World

def OneCurrent (self : World) : Prop :=
  ∀ (first second : ℕ) (wake other : ClaimedWake),
    self.wakes[first]? = some wake → self.wakes[second]? = some other →
    wake.key = other.key → self.Current wake → self.Current other → first = second

def Bounded (self : World) : Label → Prop
  | .claim community limit _ _ now locked =>
    ∀ job ∈ self.tables.candidates community limit now locked, job.attempts < maxAttempts
  | _ => True

end World

section runs

variable {world : World} {label : Label} {labels : List Label} {task : ℕ} {wake : ClaimedWake}
  {key : CommunityId × Uuid} {leases : List LeaseRow}
  {events : CommunityId → EventId → Option (Option Uuid)}

theorem after_append {first rest : List Label} :
    world.after (first ++ rest) = (world.after first).after rest :=
  foldl_append

theorem after_concat : world.after (labels ++ [label]) = (world.after labels).step label := by
  rw [after_append]
  rfl

theorem sound_initial : Sound (World.initial leases events) := by
  constructor
  · exact ⟨nodup_nil, nodup_nil, fun job member => absurd member not_mem_nil,
      fun job member => absurd member not_mem_nil⟩
  · exact fun wake member => absurd member not_mem_nil
  · exact nodup_nil
  · exact fun task member => absurd member not_mem_nil
  · exact fun key => Nat.le_of_eq rfl
  · exact fun job member => absurd member not_mem_nil

theorem Sound.after (sound : Sound world) (labels : List Label) : Sound (world.after labels) := by
  induction labels generalizing world with
  | nil => exact sound
  | cons label labels ih => exact ih (sound.step label)

theorem wake_of_step (found : world.wakes[task]? = some wake) :
    (world.step label).wakes[task]? = some wake := by
  by_cases isClaim : ∃ community limit leaseUntil claimId now locked,
      label = .claim community limit leaseUntil claimId now locked
  · obtain ⟨community, limit, leaseUntil, claimId, now, locked, rfl⟩ := isClaim
    dsimp only [World.step]
    split
    · exact found
    · rw [World.wakes, map_append, getElem?_append_left]
      · exact found
      · exact (List.getElem?_eq_some_iff.mp found).1
  · rw [wakes_step]
    · exact found
    · intro community limit leaseUntil claimId now locked same
      exact isClaim ⟨community, limit, leaseUntil, claimId, now, locked, same⟩

theorem wake_of_after (found : world.wakes[task]? = some wake) :
    (world.after labels).wakes[task]? = some wake := by
  induction labels generalizing world with
  | nil => exact found
  | cons label labels ih => exact ih (wake_of_step found)

theorem drawn_of_step {id : Uuid} (drawn : id ∈ world.jobIds) :
    id ∈ (world.step label).jobIds := by
  cases label with
  | enqueue community now requests =>
    dsimp only [World.step]
    split
    · exact mem_append_left _ drawn
    · exact drawn
  | claim community limit leaseUntil claimId now locked =>
    dsimp only [World.step]
    split <;> exact drawn
  | revalidate index now available =>
    dsimp only [World.step, World.revalidate]
    repeat' (first | exact drawn | split)
  | isMember index answer | send index | answer index result | settle index now available =>
    dsimp only [World.step]
    split <;> exact drawn
  | crash index | prune community before now matching | leases leases | events events => exact drawn

section

variable (sound : Sound world)

include sound

theorem Sound.oneCurrent : world.OneCurrent := by
  intro first second wake other isFirst isSecond sameKey current otherCurrent
  obtain ⟨job, member, held⟩ := current
  obtain ⟨otherJob, otherMember, otherHeld⟩ := otherCurrent
  obtain ⟨key, claimed, -⟩ := heldBy_iff.mp held
  obtain ⟨otherKey, otherClaimed, -⟩ := heldBy_iff.mp otherHeld
  have jobKey : job.key = otherJob.key := key.trans (sameKey.trans otherKey.symm)
  have sameJob : job = otherJob :=
    inj_on_of_nodup_map sound.keyed.ids member otherMember jobKey
  rw [← sameJob, claimed, Option.some.injEq] at otherClaimed
  have sameClaim : wake.claim = other.claim := by
    simp only [ClaimedWake.key, Prod.mk.injEq] at sameKey
    simp only [ClaimedWake.claim, sameKey, otherClaimed]
  have inFirst : (world.wakes.map ClaimedWake.claim)[first]? = some wake.claim := by
    rw [getElem?_map, isFirst]
    rfl
  have inSecond : (world.wakes.map ClaimedWake.claim)[second]? = some wake.claim := by
    rw [getElem?_map, isSecond, sameClaim]
    rfl
  have bound := (List.getElem?_eq_some_iff.mp inFirst).1
  exact (getElem?_inj bound sound.alone).mp (inFirst.trans inSecond.symm)

theorem settle_of_superseded (found : world.wakes[task]? = some wake)
    (superseded : ¬ world.Current wake) (now : ℤ) (available : Bool) :
    (world.step (.settle task now available)).tables.jobs = world.tables.jobs := by
  dsimp only [World.step]
  split
  · cases available <;> rfl
  next held settlement isSettling =>
    cases available with
    | false => rfl
    | true =>
      obtain ⟨entry, here, isPhase⟩ := Option.map_eq_some_iff.mp isSettling
      have own : entry.wake = wake := by
        rw [World.wakes, getElem?_map, here] at found
        exact Option.some.inj found
      have same := sound.phases entry (mem_of_getElem? here) held (by rw [isPhase]; rfl)
      rw [own] at same
      simp only [ClaimedWake.claim, Prod.mk.injEq] at same
      have gone : ¬ world.Current held := by
        rw [World.Current, same.1, same.2.1, same.2.2]
        exact superseded
      exact congrArg Tables.jobs (settleWith_of_superseded gone settlement now)
  · rfl

theorem superseded_of_after (found : world.wakes[task]? = some wake)
    (superseded : ¬ world.Current wake) : ¬ (world.after labels).Current wake := by
  induction labels generalizing world with
  | nil => exact superseded
  | cons label labels ih =>
    apply ih (sound.step label) (wake_of_step found)
    intro current
    exact superseded
      (current_of_step sound (sound.claimed wake (mem_of_getElem? found)).2 current)

theorem claims_of_terminal (drawn : key.2 ∈ world.jobIds)
    (terminal : ∀ job ∈ world.tables.jobs, job.key = key → job.terminal) :
    (world.after labels).claims key = world.claims key := by
  induction labels generalizing world with
  | nil => rfl
  | cons label labels ih =>
    have next : (world.step label).claims key = world.claims key := by
      cases @claims_step world label key sound with
      | inl same => exact same
      | inr claimed =>
        obtain ⟨community, limit, leaseUntil, claimId, now, locked, job, -, candidate, isKey,
          -⟩ := claimed
        have taken := mem_candidates candidate
        have settled := terminal job taken.1 isKey
        rw [terminal_not_due taken.2.2.1] at settled
        cases settled
    exact (ih (sound.step label) (drawn_of_step drawn)
      (terminal_of_step sound drawn terminal)).trans next

end

theorem revalidated_of_ready
    (ready : ((World.initial leases events).after labels).phase task = some (.ready wake)) :
    ∃ first now later, labels = first ++ .revalidate task now true :: later ∧
      Found ((World.initial leases events).after first).tables now wake ∧
        ∀ since, since <+: later →
          ((World.initial leases events).after (first ++ .revalidate task now true :: since)).phase
            task = some (.ready wake) := by
  induction labels using reverseRecOn with
  | nil => cases ready
  | append_singleton labels label ih =>
    have stepped := ready
    rw [after_concat] at stepped
    cases ready_of_step stepped with
    | inl before =>
      obtain ⟨first, now, later, rfl, found, kept⟩ := ih before
      refine ⟨first, now, later ++ [label], by simp, found, ?_⟩
      intro since isPrefix
      cases prefix_concat_iff.mp isPrefix with
      | inl whole =>
        rw [whole]
        simpa using ready
      | inr earlier => exact kept since earlier
    | inr revalidated =>
      obtain ⟨now, rfl, found⟩ := revalidated
      refine ⟨labels, now, [], rfl, found, ?_⟩
      intro since isPrefix
      rw [prefix_nil.mp isPrefix]
      exact ready

theorem claims_le_of_bounded
    (bounded : ∀ before label more, labels = before ++ label :: more →
      ((World.initial leases events).after before).Bounded label) (key : CommunityId × Uuid) :
    ((World.initial leases events).after labels).claims key ≤ maxAttempts := by
  induction labels using reverseRecOn with
  | nil => exact Nat.zero_le _
  | append_singleton labels label ih =>
    have before : ((World.initial leases events).after labels).claims key ≤ maxAttempts := by
      apply ih
      intro first other more same
      exact bounded first other (more ++ [label]) (by simp [same])
    have sound := (@sound_initial leases events).after labels
    rw [after_concat]
    cases @claims_step _ label key sound with
    | inl same => rwa [same]
    | inr claimed =>
      obtain ⟨community, limit, leaseUntil, claimId, now, locked, job, rfl, candidate, -,
        count⟩ := claimed
      have fewer := bounded labels _ [] rfl job candidate
      omega

theorem requests_of_step : (world.step label).requests = world.requests ∨
    ∃ task wake, label = .send task ∧ world.phase task = some (.ready wake) ∧
      (world.step label).requests = wake.key :: world.requests := by
  cases label with
  | enqueue community now requests | claim community limit leaseUntil claimId now locked =>
    dsimp only [World.step]
    split <;> exact .inl rfl
  | revalidate index now available =>
    dsimp only [World.step, World.revalidate]
    repeat' (first | exact .inl rfl | split)
  | isMember index answer =>
    dsimp only [World.step]
    split <;> exact .inl rfl
  | send index =>
    cases ready : world.phase index with
    | none =>
      rw [World.step, ready]
      exact .inl rfl
    | some phase =>
      cases phase with
      | ready wake =>
        rw [World.step, ready]
        exact .inr ⟨index, wake, rfl, ready, rfl⟩
      | claimed | revalidated | checked | sent | disabling | settling | done =>
        rw [World.step, ready]
        exact .inl rfl
  | answer index result | settle index now available =>
    dsimp only [World.step]
    split <;> exact .inl rfl
  | crash index | prune community before now matching | leases leases | events events =>
    exact .inl rfl

structure Fencing (start : World) (labels : List Label) : Prop where
  oneCurrent : (start.after labels).OneCurrent
  oneJob : ((start.after labels).tables.jobs.map WakeJob.dedupKey).Nodup
  superseded : ∀ before more, labels = before ++ more → ∀ (task : ℕ) (wake : ClaimedWake),
    (start.after before).wakes[task]? = some wake → ¬ (start.after before).Current wake →
      ¬ (start.after labels).Current wake ∧ ∀ now available,
        ((start.after labels).step (.settle task now available)).tables.jobs =
          (start.after labels).tables.jobs
  settled : ∀ before more, labels = before ++ more → ∀ job ∈ (start.after before).tables.jobs,
    job.terminal →
      (start.after labels).claims job.key = (start.after before).claims job.key
  revalidated : ∀ before label more, labels = before ++ label :: more →
    ((start.after before).step label).requests ≠ (start.after before).requests →
      ∃ task wake first now later, label = .send task ∧
        ((start.after before).step label).requests = wake.key :: (start.after before).requests ∧
          before = first ++ .revalidate task now true :: later ∧
            Found (start.after first).tables now wake ∧ ∀ since, since <+: later →
              (start.after (first ++ .revalidate task now true :: since)).phase task =
                some (.ready wake)

theorem outbox_fenced (leases : List LeaseRow)
    (events : CommunityId → EventId → Option (Option Uuid)) (labels : List Label) :
    Fencing (World.initial leases events) labels ∧
      ((∀ before label more, labels = before ++ label :: more →
          ((World.initial leases events).after before).Bounded label) →
        ∀ key, ((World.initial leases events).after labels).requests.count key ≤ maxAttempts) := by
  have sound (labels : List Label) := (@sound_initial leases events).after labels
  constructor
  · constructor
    · exact (sound labels).oneCurrent
    · exact (sound labels).keyed.unique
    · rintro before more rfl task wake found superseded
      have later := @superseded_of_after _ more task wake (sound before) found superseded
      rw [← after_append] at later
      have kept := @wake_of_after _ more task wake found
      rw [← after_append] at kept
      exact ⟨later, settle_of_superseded (sound (before ++ more)) kept later⟩
    · rintro before more rfl job member terminal
      rw [after_append]
      apply claims_of_terminal (sound before) ((sound before).keyed.drawn job member)
      intro other within same
      have one := inj_on_of_nodup_map (sound before).keyed.ids within member same
      rw [one]
      exact terminal
    · intro before label more _ sent
      cases @requests_of_step ((World.initial leases events).after before) label with
      | inl same => exact (sent same).elim
      | inr request =>
        obtain ⟨task, wake, isSend, ready, requested⟩ := request
        obtain ⟨first, now, later, split, found, kept⟩ := revalidated_of_ready ready
        exact ⟨task, wake, first, now, later, isSend, requested, split, found, kept⟩
  · intro bounded key
    have claims := claims_le_of_bounded bounded key
    have counted := (sound labels).counted key
    omega

end runs

def phoneEndpoint : ActiveLease := ⟨"app", .fill 3, "grant", .default⟩

def phoneLease : LeaseRow where
  communityId := ⟨.fill 0⟩
  author := .fill 1
  installationId := "phone"
  sourceEventId := .fill 2
  sourceCreatedAt := 0
  generation := 1
  active := some phoneEndpoint
  endpointEnabled := true
  expiresAt := 3600

def phoneWake : WakeRequest :=
  ⟨phoneLease.author, "phone", 1, .fill 4, .default, 3600⟩

def drawnId (n : ℕ) : Uuid := ⟨UInt8.ofNat n :: replicate 15 9, rfl⟩

def phoneJobId : Uuid := .fill 8

/-- The job when `n` workers have claimed it, each half a minute after the one before. -/
def phoneJob (n : ℕ) : WakeJob where
  communityId := phoneLease.communityId
  id := phoneJobId
  author := phoneLease.author
  installationId := "phone"
  leaseGeneration := 1
  endpointHash := phoneEndpoint.endpointHash
  eventId := phoneWake.eventId
  wakeClass := .default
  expiresAt := 3600
  state := if n = 0 then .pending else .sending
  attempts := n
  nextAttemptAt := 0
  leaseUntil := if n = 0 then none else some (31000000 * (n - 1) + 30000000)
  claimId := if n = 0 then none else some (drawnId (n - 1))
  createdAt := 0

def phoneTables (n : ℕ) : Tables := ⟨[phoneLease], [phoneJob n], fun _ _ => some none⟩

def phoneClaimed (n : ℕ) : ClaimedWake :=
  (phoneJob (n + 1)).toClaimed (drawnId n) phoneEndpoint none

def lostWorker (n : ℕ) : List Label :=
  [.claim phoneLease.communityId 32 (31000000 * n + 30000000) (drawnId n) (31000000 * n)
      fun _ => false,
    .revalidate n (31000000 * n) true, .revalidate n (31000000 * n) true, .send n, .crash n]

/-- The job has been claimed and sent by `n` workers. -/
structure SentBy (n : ℕ) (world : World) : Prop where
  tables : world.tables = phoneTables n
  tasks : world.tasks.length = n
  drawn : ∀ id ∈ world.claimIds, ∃ m < n, id = drawnId m
  requests : world.requests.count (phoneJob 0).key = n

theorem phoneJob_current {n m : ℕ} {now : ℤ} (early : epoch now < 3600) :
    (phoneJob n).current (phoneTables m) now = some (phoneEndpoint, none) := by
  have eligible : phoneLease.eligible now := by
    simp [LeaseRow.eligible, phoneLease, early]
  have joined : (phoneJob n).joins phoneLease := rfl
  have unexpired : epoch now < (phoneJob n).expiresAt := early
  rw [WakeJob.current, if_pos unexpired, phoneTables, find?_cons, joined, eligible]
  rfl

theorem phoneJob_due (n : ℕ) : (phoneJob n).due (31000000 * n) := by
  have started : (phoneJob n).nextAttemptAt ≤ 31000000 * n :=
    Int.mul_nonneg (by omega) (Int.natCast_nonneg n)
  rw [WakeJob.due, decide_eq_true started, Bool.true_and]
  cases n with
  | zero => rfl
  | succ n =>
    have expired : (31000000 * (((n + 1 : ℕ) : ℤ) - 1) + 30000000) <
        31000000 * ((n + 1 : ℕ) : ℤ) := by
      omega
    exact decide_eq_true expired

theorem early_epoch {n : ℕ} (early : n < 100) : epoch (31000000 * n) < 3600 := by
  rw [epoch]
  omega

theorem phoneTables_candidates {n : ℕ} (early : n < 100) :
    (phoneTables n).candidates phoneLease.communityId 32 (31000000 * n) (fun _ => false) =
      [phoneJob n] := by
  have kept : (phoneTables n).jobs.filter (fun job =>
      job.communityId = phoneLease.communityId && job.due (31000000 * n) &&
        (job.current (phoneTables n) (31000000 * n)).isSome && !false) = [phoneJob n] := by
    have jobs : (phoneTables n).jobs = [phoneJob n] := rfl
    rw [jobs, filter_singleton, phoneJob_due n, phoneJob_current (early_epoch early)]
    rfl
  rw [Tables.candidates, page, kept, mergeSort_singleton]
  rfl

section single

variable {tables : Tables} {job : WakeJob} {now : ℤ} {found : ActiveLease × Option Uuid}
  {community : CommunityId} {claimId : Uuid}

theorem claimDueWakes_single {limit : ℕ} {leaseUntil : ℤ}
    {locked : Uuid → Bool} (jobs : tables.jobs = [job])
    (candidates : tables.candidates community limit now locked = [job])
    (current : job.current tables now = some found) :
    tables.claimDueWakes community limit leaseUntil claimId now locked =
      ({ tables with jobs := [job.claimedBy claimId leaseUntil] },
        [(job.claimedBy claimId leaseUntil).toClaimed claimId found.1 found.2]) := by
  have taken : [job].contains job := contains_iff_mem.mpr mem_cons_self
  rw [Tables.claimDueWakes, candidates, jobs, map_singleton, filter_singleton, taken,
    if_pos rfl, cond_true]
  simp only [filterMap_cons, filterMap_nil, current, Option.map_some]

theorem revalidate_single {id : Uuid}
    (jobs : tables.jobs = [job]) (held : job.heldBy community id claimId)
    (leased : (job.leaseUntil.any fun lease => now ≤ lease))
    (current : job.current tables now = some found) :
    tables.revalidateWakeForSend community id claimId now =
      some (job.toClaimed claimId found.1 found.2) := by
  rw [Tables.revalidateWakeForSend, jobs]
  simp only [find?_cons, held, leased, current, Option.isSome_some, Bool.and_self,
    Option.bind_some, Option.map_some]

end single

theorem phoneTables_claimed {n : ℕ} (early : n < 100) :
    (phoneTables n).claimDueWakes phoneLease.communityId 32 (31000000 * n + 30000000) (drawnId n)
      (31000000 * n) (fun _ => false) = (phoneTables (n + 1), [phoneClaimed n]) := by
  have next : (phoneJob n).claimedBy (drawnId n) (31000000 * n + 30000000) = phoneJob (n + 1) := by
    simp [WakeJob.claimedBy, phoneJob]
  rw [claimDueWakes_single rfl (phoneTables_candidates early) (phoneJob_current (early_epoch early)),
    next]
  rfl

theorem phoneTables_revalidated {n : ℕ} (early : n < 100) :
    (phoneTables (n + 1)).revalidateWakeForSend (phoneClaimed n).community (phoneClaimed n).id
      (phoneClaimed n).claimId (31000000 * n) = some (phoneClaimed n) := by
  have held : (phoneJob (n + 1)).heldBy (phoneClaimed n).community (phoneClaimed n).id
      (phoneClaimed n).claimId :=
    heldBy_iff.mpr ⟨rfl, rfl, rfl⟩
  have leased : ((phoneJob (n + 1)).leaseUntil.any fun lease =>
      (31000000 * n : ℤ) ≤ lease) := by
    have later : (31000000 * n : ℤ) ≤ 31000000 * (((n + 1 : ℕ) : ℤ) - 1) + 30000000 := by omega
    exact decide_eq_true later
  exact revalidate_single rfl held leased (phoneJob_current (early_epoch early))

theorem phase_concat {world : World} {entry : Task} {tasks : List Task} {n : ℕ}
    (length : tasks.length = n) (claimed : world.tasks = tasks ++ [entry]) :
    world.phase n = some entry.phase := by
  rw [World.phase, claimed, ← length, getElem?_concat_length]
  rfl

theorem setPhase_concat {world : World} {entry : Task} {tasks : List Task} {phase : Phase} {n : ℕ}
    (length : tasks.length = n) (claimed : world.tasks = tasks ++ [entry]) :
    world.setPhase n phase = { world with tasks := tasks ++ [{ entry with phase }] } := by
  rw [World.setPhase, claimed, ← length, modify_concat_length]

/-- What `n` workers and the one after them have left, with that one in a phase. -/
def lostWorld (n : ℕ) (world : World) (phase : Phase) : World :=
  { world with
    tables := phoneTables (n + 1)
    tasks := world.tasks ++ [⟨phoneClaimed n, phase⟩]
    claimIds := drawnId n :: world.claimIds }

section lost

variable {n : ℕ} {world : World} (sent : SentBy n world)
include sent

theorem lostWorld_phase {phase : Phase} : (lostWorld n world phase).phase n = some phase :=
  @phase_concat _ ⟨phoneClaimed n, phase⟩ _ _ sent.tasks rfl

theorem lostWorld_setPhase {phase next : Phase} :
    (lostWorld n world phase).setPhase n next = lostWorld n world next := by
  rw [setPhase_concat sent.tasks rfl]
  rfl

theorem lostWorld_claim (early : n < 100) :
    world.step (.claim phoneLease.communityId 32 (31000000 * n + 30000000) (drawnId n)
      (31000000 * n) fun _ => false) = lostWorld n world (.claimed (phoneClaimed n)) := by
  have fresh : drawnId n ∉ world.claimIds := by
    intro member
    obtain ⟨m, before, same⟩ := sent.drawn _ member
    have first := head_eq_of_cons_eq (congrArg Subtype.val same)
    have value := congrArg UInt8.toNat first
    rw [UInt8.toNat_ofNat', UInt8.toNat_ofNat'] at value
    omega
  rw [World.step, if_neg fresh, sent.tables, phoneTables_claimed early]
  rfl

theorem lostWorld_revalidate (early : n < 100) {next : ClaimedWake → Phase} {phase : Phase} :
    (lostWorld n world phase).revalidate n (phoneClaimed n) next (31000000 * n) true =
      lostWorld n world (next (phoneClaimed n)) := by
  have found : (lostWorld n world phase).tables.revalidateWakeForSend (phoneClaimed n).community
      (phoneClaimed n).id (phoneClaimed n).claimId (31000000 * n) = some (phoneClaimed n) :=
    phoneTables_revalidated early
  rw [World.revalidate, if_pos rfl, found]
  exact lostWorld_setPhase sent

theorem lostWorld_after (early : n < 100) : world.after (lostWorker n) =
    { lostWorld n world .done with requests := (phoneJob 0).key :: world.requests } := by
  have first : (lostWorld n world (.claimed (phoneClaimed n))).step
      (.revalidate n (31000000 * n) true) = lostWorld n world (.checked (phoneClaimed n)) := by
    rw [World.step, lostWorld_phase sent]
    exact lostWorld_revalidate sent early
  have second : (lostWorld n world (.checked (phoneClaimed n))).step
      (.revalidate n (31000000 * n) true) = lostWorld n world (.ready (phoneClaimed n)) := by
    rw [World.step, lostWorld_phase sent]
    exact lostWorld_revalidate sent early
  have requested : (lostWorld n world (.ready (phoneClaimed n))).step (.send n) =
      { lostWorld n world (.sent (phoneClaimed n)) with
        requests := (phoneJob 0).key :: world.requests } := by
    rw [World.step, lostWorld_phase sent]
    dsimp only
    rw [lostWorld_setPhase sent]
    rfl
  have stopped : ({ lostWorld n world (.sent (phoneClaimed n)) with
      requests := (phoneJob 0).key :: world.requests } : World).setPhase n .done =
        { lostWorld n world .done with requests := (phoneJob 0).key :: world.requests } :=
    @setPhase_concat _ ⟨phoneClaimed n, .sent (phoneClaimed n)⟩ _ _ _ sent.tasks rfl
  rw [lostWorker, World.after, foldl_cons, lostWorld_claim sent early, foldl_cons, first,
    foldl_cons, second, foldl_cons, requested]
  exact stopped

theorem sentBy_lostWorker (early : n < 100) : SentBy (n + 1) (world.after (lostWorker n)) := by
  rw [lostWorld_after sent early]
  constructor
  · rfl
  · exact (length_append.trans (congrArg (· + 1) sent.tasks))
  · intro id member
    cases mem_cons.mp member with
    | inl same => exact ⟨n, Nat.lt_succ_self n, same⟩
    | inr before =>
      obtain ⟨m, earlier, same⟩ := sent.drawn id before
      exact ⟨m, Nat.lt_succ_of_lt earlier, same⟩
  · exact count_cons_self.trans (congrArg (· + 1) sent.requests)

end lost

def lostWorkers (n : ℕ) : List Label :=
  .enqueue phoneLease.communityId 0 [(phoneWake, phoneJobId)] :: (List.range n).flatMap lostWorker

def phoneStart : World := World.initial [phoneLease] fun _ _ => some none

theorem sentBy_lostWorkers {n : ℕ} (early : n ≤ 100) :
    SentBy n (phoneStart.after (lostWorkers n)) := by
  induction n with
  | zero =>
    constructor
    · rfl
    · rfl
    · exact fun id member => absurd member not_mem_nil
    · rfl
  | succ n ih =>
    have next := sentBy_lostWorker (ih (Nat.le_of_succ_le early)) early
    rw [← after_append] at next
    rw [lostWorkers, range_succ, flatMap_append, flatMap_singleton]
    exact next

/-- Nine workers that stop after their requests: a job has one request too many. -/
theorem lost_workers_exceed : ¬ ∀ leases events labels key,
    ((World.initial leases events).after labels).requests.count key ≤ maxAttempts := by
  intro bounded
  have sent := (@sentBy_lostWorkers 9 (by omega)).requests
  have few := bounded [phoneLease] (fun _ _ => some none) (lostWorkers 9) (phoneJob 0).key
  rw [phoneStart] at sent
  rw [sent] at few
  exact absurd few (by decide)

/-- One of them may stop so. -/
theorem lost_worker_fenced : (phoneStart.after (lostWorkers 1)).requests.count (phoneJob 0).key ≤
    maxAttempts := by
  apply (outbox_fenced [phoneLease] (fun _ _ => some none) (lostWorkers 1)).2
  intro before label more split
  cases before with
  | nil =>
    obtain ⟨rfl, -⟩ := List.cons.inj split
    trivial
  | cons first before =>
    obtain ⟨rfl, rest⟩ := List.cons.inj split
    cases before with
    | nil =>
      obtain ⟨rfl, -⟩ := List.cons.inj rest
      intro job candidate
      have taken := @phoneTables_candidates 0 (by omega)
      have only : job ∈ [phoneJob 0] := taken ▸ candidate
      rw [mem_singleton.mp only]
      decide
    | cons second before =>
      obtain ⟨-, others⟩ := List.cons.inj rest
      have later : (lostWorker 0).tail ++ [] = before ++ label :: more := others
      have member : label ∈ (lostWorker 0).tail ++ [] :=
        later ▸ mem_append_right before mem_cons_self
      simp only [lostWorker, tail_cons, append_nil, mem_cons,
        not_mem_nil, or_false] at member
      obtain rfl | rfl | rfl | rfl := member <;> trivial

end Buzz.Push
