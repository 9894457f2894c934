import Buzz.Library.Slots
import Buzz.Push.Worker

/-! What holds in every run of the delivery workers. -/

namespace Buzz.Push

open Nostr Library.Page Library.Slots List

def WakeJob.key (self : WakeJob) : CommunityId × Uuid := (self.communityId, self.id)

def WakeJob.dedupKey (self : WakeJob) : CommunityId × EndpointHash × EventId :=
  (self.communityId, self.endpointHash, self.eventId)

def ClaimedWake.key (self : ClaimedWake) : CommunityId × Uuid := (self.community, self.id)

def ClaimedWake.claim (self : ClaimedWake) : CommunityId × Uuid × Uuid :=
  (self.community, self.id, self.claimId)

def WakeJob.terminal (self : WakeJob) : Bool :=
  decide (self.state = .delivered) || decide (self.state = .failed)

namespace Phase

def wake : Phase → Option ClaimedWake
  | .claimed wake | .revalidated wake | .checked wake | .ready wake | .sent wake
  | .disabling wake _ | .settling wake _ => some wake
  | .done => none

def unsent : Phase → Bool
  | .claimed _ | .revalidated _ | .checked _ | .ready _ => true
  | _ => false

end Phase

namespace World

def wakes (self : World) : List ClaimedWake := self.tasks.map Task.wake

def claims (self : World) (key : CommunityId × Uuid) : ℕ :=
  (self.wakes.map ClaimedWake.key).count key

def unsent (self : World) (key : CommunityId × Uuid) : ℕ :=
  self.tasks.countP fun task => task.wake.key = key && task.phase.unsent

def Current (self : World) (wake : ClaimedWake) : Prop :=
  ∃ job ∈ self.tables.jobs, job.heldBy wake.community wake.id wake.claimId

end World

structure Keyed (jobs : List WakeJob) (jobIds claimIds : List Uuid) : Prop where
  ids : (jobs.map WakeJob.key).Nodup
  unique : (jobs.map WakeJob.dedupKey).Nodup
  drawn : ∀ job ∈ jobs, job.id ∈ jobIds
  held : ∀ job ∈ jobs, ∀ claimId, job.claimId = some claimId → claimId ∈ claimIds

structure Sound (world : World) : Prop where
  keyed : Keyed world.tables.jobs world.jobIds world.claimIds
  claimed : ∀ wake ∈ world.wakes, wake.id ∈ world.jobIds ∧ wake.claimId ∈ world.claimIds
  alone : (world.wakes.map ClaimedWake.claim).Nodup
  phases : ∀ task ∈ world.tasks, ∀ wake, task.phase.wake = some wake →
    wake.claim = task.wake.claim
  counted : ∀ key, world.requests.count key + world.unsent key ≤ world.claims key
  attempted : ∀ job ∈ world.tables.jobs, world.claims job.key = job.attempts

section jobs

variable {jobs : List WakeJob} {jobIds claimIds more : List Uuid} {tables : Tables}
  {community : CommunityId} {now : ℤ} {request : WakeRequest × Uuid}
  {requests : List (WakeRequest × Uuid)}

theorem Keyed.map (keyed : Keyed jobs jobIds claimIds) {changed : WakeJob → WakeJob}
    (key : ∀ job, (changed job).key = job.key)
    (dedupKey : ∀ job, (changed job).dedupKey = job.dedupKey)
    (held : ∀ job ∈ jobs, ∀ claimId, (changed job).claimId = some claimId →
      claimId ∈ more) : Keyed (jobs.map changed) jobIds more := by
  constructor
  · rw [map_map, show WakeJob.key ∘ changed = WakeJob.key from funext key]
    exact keyed.ids
  · rw [map_map, show WakeJob.dedupKey ∘ changed = WakeJob.dedupKey from funext dedupKey]
    exact keyed.unique
  · intro job member
    obtain ⟨old, within, rfl⟩ := mem_map.mp member
    have same : (changed old).id = old.id := congrArg Prod.snd (key old)
    rw [same]
    exact keyed.drawn old within
  · intro job member claimId claimed
    obtain ⟨old, within, rfl⟩ := mem_map.mp member
    exact held old within claimId claimed

theorem Keyed.sublist (keyed : Keyed jobs jobIds claimIds) {fewer : List WakeJob}
    (within : fewer.Sublist jobs) : Keyed fewer jobIds claimIds where
  ids := keyed.ids.sublist (within.map _)
  unique := keyed.unique.sublist (within.map _)
  drawn job member := keyed.drawn job (within.subset member)
  held job member := keyed.held job (within.subset member)

theorem insertWake_jobs {self : Tables} :
    self.insertWake community now tables request = tables ∨
      ∃ job : WakeJob, self.insertWake community now tables request =
          { tables with jobs := tables.jobs ++ [job] } ∧
        job.id = request.2 ∧ job.claimId = none ∧ job.attempts = 0 ∧ job.state = .pending ∧
          job.dedupKey ∉ tables.jobs.map WakeJob.dedupKey := by
  unfold Tables.insertWake
  cases self.resolve community now request.1 with
  | none => exact .inl rfl
  | some endpointHash =>
    dsimp only
    by_cases present : (tables.jobFor community endpointHash request.1.eventId).isSome
    · rw [if_pos present]
      exact .inl rfl
    · rw [if_neg present]
      refine .inr ⟨_, rfl, rfl, rfl, rfl, rfl, ?_⟩
      intro member
      obtain ⟨job, within, same⟩ := mem_map.mp member
      apply present
      rw [Tables.jobFor, find?_isSome]
      simp only [WakeJob.dedupKey, Prod.mk.injEq] at same
      exact ⟨job, within, by simp [same]⟩

theorem Keyed.draw (keyed : Keyed jobs jobIds claimIds) (ids : List Uuid) :
    Keyed jobs (jobIds ++ ids) claimIds := { keyed with
  drawn job member := mem_append_left ids (keyed.drawn job member) }

theorem Keyed.append {job : WakeJob} (keyed : Keyed jobs jobIds claimIds)
    (fresh : job.id ∉ jobIds) (free : job.claimId = none)
    (unique : job.dedupKey ∉ jobs.map WakeJob.dedupKey) :
    Keyed (jobs ++ [job]) (jobIds ++ [job.id]) claimIds := by
  constructor
  · rw [map_append, map_singleton]
    apply keyed.ids.append (nodup_singleton _)
    rw [disjoint_singleton]
    intro member
    obtain ⟨other, within, same⟩ := mem_map.mp member
    have id : other.id = job.id := congrArg Prod.snd same
    exact fresh (id ▸ keyed.drawn other within)
  · rw [map_append, map_singleton]
    exact keyed.unique.append (nodup_singleton _) (disjoint_singleton.mpr unique)
  · intro other member
    cases mem_append.mp member with
    | inl before => exact mem_append_left _ (keyed.drawn other before)
    | inr last => exact mem_append_right _ (mem_map_of_mem last)
  · intro other member claimId claimed
    cases mem_append.mp member with
    | inl before => exact keyed.held other before claimId claimed
    | inr last =>
      rw [mem_singleton.mp last, free] at claimed
      cases claimed

theorem insertWakes_keyed {self : Tables} (keyed : Keyed tables.jobs jobIds claimIds)
    (distinct : (requests.map Prod.snd).Nodup)
    (fresh : ∀ id ∈ requests.map Prod.snd, id ∉ jobIds) :
    Keyed (requests.foldl (self.insertWake community now) tables).jobs
        (jobIds ++ requests.map Prod.snd) claimIds ∧
      (∀ job ∈ tables.jobs, job ∈ (requests.foldl (self.insertWake community now) tables).jobs) ∧
      ∀ job ∈ (requests.foldl (self.insertWake community now) tables).jobs,
        job ∈ tables.jobs ∨ job.id ∉ jobIds ∧ job.attempts = 0 ∧ job.state = .pending := by
  induction requests generalizing tables jobIds with
  | nil =>
    rw [map_nil, append_nil]
    exact ⟨keyed, fun job member => member, fun job member => .inl member⟩
  | cons request rest ih =>
    rw [map_cons, nodup_cons] at distinct
    have freshId : request.2 ∉ jobIds := fresh _ mem_cons_self
    have later (id : Uuid) (member : id ∈ rest.map Prod.snd) : id ∉ jobIds ++ [request.2] := by
      intro before
      cases mem_append.mp before with
      | inl old => exact fresh id (mem_cons_of_mem _ member) old
      | inr same => exact distinct.1 (mem_singleton.mp same ▸ member)
    rw [foldl_cons, map_cons, ← singleton_append, ← append_assoc]
    cases @insertWake_jobs tables community now request self with
    | inl skipped =>
      rw [skipped]
      obtain ⟨next, kept, origin⟩ := ih (keyed.draw [request.2]) distinct.2 later
      refine ⟨next, kept, fun job member => ?_⟩
      cases origin job member with
      | inl before => exact .inl before
      | inr new => exact .inr ⟨fun old => new.1 (mem_append_left _ old), new.2⟩
    | inr written =>
      obtain ⟨job, inserted, id, free, attempts, state, unique⟩ := written
      rw [inserted]
      have appended : Keyed ({ tables with jobs := tables.jobs ++ [job] } : Tables).jobs
          (jobIds ++ [request.2]) claimIds := id ▸ keyed.append (id ▸ freshId) free unique
      obtain ⟨next, kept, origin⟩ := ih appended distinct.2 later
      refine ⟨next, fun other member => kept other (mem_append_left _ member), ?_⟩
      intro other member
      cases origin other member with
      | inl before =>
        cases mem_append.mp before with
        | inl old => exact .inl old
        | inr last =>
          rw [mem_singleton.mp last]
          exact .inr ⟨id ▸ freshId, attempts, state⟩
      | inr new => exact .inr ⟨fun old => new.1 (mem_append_left _ old), new.2⟩

variable {limit : ℕ} {leaseUntil : ℤ} {claimId : Uuid} {locked : Uuid → Bool}

theorem mem_candidates {job : WakeJob}
    (member : job ∈ tables.candidates community limit now locked) :
    job ∈ tables.jobs ∧ job.communityId = community ∧ job.due now ∧
      (job.current tables now).isSome := by
  obtain ⟨within, kept⟩ := mem_of_mem_page member
  simp only [Bool.and_eq_true, decide_eq_true_eq] at kept
  exact ⟨within, kept.1.1.1, kept.1.1.2, kept.1.2⟩

theorem claimDueWakes_wakes :
    (tables.claimDueWakes community limit leaseUntil claimId now locked).2.map
        ClaimedWake.claim =
      (tables.jobs.filter (tables.candidates community limit now locked).contains).map
        fun job => (job.communityId, job.id, claimId) := by
  rw [Tables.claimDueWakes, ← filterMap_eq_map, filterMap_filterMap,
    ← filterMap_eq_map]
  apply filterMap_congr
  intro job member
  have taken := contains_iff_mem.mp (mem_filter.mp member).2
  obtain ⟨found, current⟩ := Option.isSome_iff_exists.mp (mem_candidates taken).2.2.2
  rw [current]
  rfl

theorem claimDueWakes_keys :
    (tables.claimDueWakes community limit leaseUntil claimId now locked).2.map ClaimedWake.key =
      (tables.jobs.filter (tables.candidates community limit now locked).contains).map
        WakeJob.key := by
  have wakes := congrArg (List.map fun claim : CommunityId × Uuid × Uuid => (claim.1, claim.2.1))
    (@claimDueWakes_wakes tables community now limit leaseUntil claimId locked)
  rw [map_map, map_map] at wakes
  exact wakes

theorem Keyed.claim (keyed : Keyed tables.jobs jobIds claimIds) :
    Keyed (tables.claimDueWakes community limit leaseUntil claimId now locked).1.jobs jobIds
      (claimId :: claimIds) := by
  apply keyed.map
  · intro job
    split <;> rfl
  · intro job
    split <;> rfl
  · intro job member other claimed
    split at claimed
    · cases claimed
      exact mem_cons_self
    · exact mem_cons_of_mem _ (keyed.held job member other claimed)

theorem Keyed.settle (keyed : Keyed tables.jobs jobIds claimIds) {id : Uuid}
    {settled : WakeJob → WakeJob} (key : ∀ job, (settled job).key = job.key)
    (dedupKey : ∀ job, (settled job).dedupKey = job.dedupKey)
    (free : ∀ job, (settled job).claimId = none) :
    Keyed (tables.settleWake community id claimId settled).1.jobs jobIds claimIds := by
  apply keyed.map
  · intro job
    split
    · exact key job
    · rfl
  · intro job
    split
    · exact dedupKey job
    · rfl
  · intro job member other claimed
    split at claimed
    · rw [free] at claimed
      cases claimed
    · exact keyed.held job member other claimed

end jobs

section steps

variable {world : World} {task : ℕ} {phase old : Phase} {wake : ClaimedWake}
  {tables : Tables} {key : CommunityId × Uuid}

theorem claims_eq_zero (sound : Sound world) (fresh : key.2 ∉ world.jobIds) :
    world.claims key = 0 := by
  apply count_eq_zero_of_not_mem
  intro member
  obtain ⟨wake, within, same⟩ := mem_map.mp member
  apply fresh
  rw [← same]
  exact (sound.claimed wake within).1

theorem Sound.enqueue {community : CommunityId} {now : ℤ} {requests : List (WakeRequest × Uuid)}
    (sound : Sound world) (distinct : (requests.map Prod.snd).Nodup)
    (fresh : ∀ id ∈ requests.map Prod.snd, id ∉ world.jobIds) :
    Sound { world with
      tables := (world.tables.enqueueWakes community now requests).1
      jobIds := world.jobIds ++ requests.map Prod.snd } := by
  obtain ⟨keyed, -, origin⟩ := @insertWakes_keyed world.jobIds world.claimIds world.tables
    community now requests world.tables sound.keyed distinct fresh
  constructor
  · exact keyed
  · intro wake member
    have before := sound.claimed wake member
    exact ⟨mem_append_left _ before.1, before.2⟩
  · exact sound.alone
  · exact sound.phases
  · exact sound.counted
  · intro job member
    cases origin job member with
    | inl before => exact sound.attempted job before
    | inr new =>
      have zero : world.claims job.key = 0 := claims_eq_zero sound new.1
      exact zero.trans new.2.1.symm

theorem count_claimed {community : CommunityId} {limit : ℕ} {leaseUntil now : ℤ} {claimId : Uuid}
    {locked : Uuid → Bool} (sound : Sound world) {job : WakeJob}
    (member : job ∈ world.tables.jobs) :
    ((world.tables.claimDueWakes community limit leaseUntil claimId now locked).2.map
        ClaimedWake.key).count job.key =
      if (world.tables.candidates community limit now locked).contains job then 1 else 0 := by
  rw [claimDueWakes_keys]
  have nodup : ((world.tables.jobs.filter
      (world.tables.candidates community limit now locked).contains).map WakeJob.key).Nodup :=
    sound.keyed.ids.sublist (filter_sublist.map _)
  by_cases taken : (world.tables.candidates community limit now locked).contains job
  · rw [if_pos taken]
    exact count_eq_one_of_mem nodup
      (mem_map_of_mem (mem_filter.mpr ⟨member, taken⟩))
  · rw [if_neg taken]
    apply count_eq_zero_of_not_mem
    intro within
    obtain ⟨other, isTaken, same⟩ := mem_map.mp within
    have filtered := mem_filter.mp isTaken
    have one := inj_on_of_nodup_map sound.keyed.ids filtered.1 member same
    exact taken (one ▸ filtered.2)

theorem wakes_of_claimed {wakes : List ClaimedWake} :
    (wakes.map fun wake => (⟨wake, .claimed wake⟩ : Task)).map Task.wake = wakes := by
  rw [map_map]
  exact map_id wakes

theorem Sound.claim {community : CommunityId} {limit : ℕ} {leaseUntil now : ℤ} {claimId : Uuid}
    {locked : Uuid → Bool} (sound : Sound world) (fresh : claimId ∉ world.claimIds) :
    Sound (world.step (.claim community limit leaseUntil claimId now locked)) := by
  rw [World.step, if_neg fresh]
  have claimed := @claimDueWakes_wakes world.tables community now limit leaseUntil claimId locked
  have count (job : WakeJob) (member : job ∈ world.tables.jobs) :=
    @count_claimed world community limit leaseUntil now claimId locked sound job member
  have keys := @claimDueWakes_keys world.tables community now limit leaseUntil claimId locked
  have jobsOf : (world.tables.claimDueWakes community limit leaseUntil claimId now locked).1.jobs =
      world.tables.jobs.map fun job =>
        if (world.tables.candidates community limit now locked).contains job then
          job.claimedBy claimId leaseUntil else job := rfl
  have keyedAfter : Keyed
      (world.tables.claimDueWakes community limit leaseUntil claimId now locked).1.jobs
      world.jobIds (claimId :: world.claimIds) := sound.keyed.claim
  generalize world.tables.claimDueWakes community limit leaseUntil claimId now locked = after at *
  obtain ⟨tables, wakes⟩ := after
  dsimp only at *
  have origin (wake : ClaimedWake) (member : wake ∈ wakes) : ∃ job ∈ world.tables.jobs,
      (job.communityId, job.id, claimId) = wake.claim := by
    have within : wake.claim ∈ wakes.map ClaimedWake.claim := mem_map_of_mem member
    rw [claimed] at within
    obtain ⟨job, filtered, same⟩ := mem_map.mp within
    exact ⟨job, (mem_filter.mp filtered).1, same⟩
  have claims (key : CommunityId × Uuid) :
      (((world.tasks ++ wakes.map fun wake => (⟨wake, .claimed wake⟩ : Task)).map
        Task.wake).map ClaimedWake.key).count key =
          world.claims key + (wakes.map ClaimedWake.key).count key := by
    rw [map_append, wakes_of_claimed, map_append, count_append]
    rfl
  constructor
  · exact keyedAfter
  · intro wake member
    rw [World.wakes, map_append, wakes_of_claimed, mem_append] at member
    cases member with
    | inl before =>
      have old := sound.claimed wake before
      exact ⟨old.1, mem_cons_of_mem _ old.2⟩
    | inr new =>
      obtain ⟨job, within, same⟩ := origin wake new
      simp only [ClaimedWake.claim, Prod.mk.injEq] at same
      exact ⟨same.2.1 ▸ sound.keyed.drawn job within, same.2.2 ▸ mem_cons_self⟩
  · rw [World.wakes, map_append, wakes_of_claimed, map_append]
    apply sound.alone.append
    · have keysNodup : (wakes.map ClaimedWake.key).Nodup := by
        rw [keys]
        exact sound.keyed.ids.sublist (filter_sublist.map _)
      have projected : wakes.map ClaimedWake.key =
          (wakes.map ClaimedWake.claim).map fun claim => (claim.1, claim.2.1) := by
        rw [map_map]
        rfl
      rw [projected] at keysNodup
      exact keysNodup.of_map _
    · intro claim before new
      obtain ⟨old, within, rfl⟩ := mem_map.mp before
      obtain ⟨wake, isNew, same⟩ := mem_map.mp new
      obtain ⟨job, -, sameClaim⟩ := origin wake isNew
      rw [same] at sameClaim
      have drawn := (sound.claimed old within).2
      have own : claimId = old.claimId := congrArg (·.2.2) sameClaim
      rw [← own] at drawn
      exact fresh drawn
  · intro task member wake isWake
    cases mem_append.mp member with
    | inl before => exact sound.phases task before wake isWake
    | inr new =>
      obtain ⟨own, -, rfl⟩ := mem_map.mp new
      cases isWake
      rfl
  · intro key
    have counted := sound.counted key
    have total := claims key
    have unsent : (world.tasks ++ wakes.map fun wake => (⟨wake, .claimed wake⟩ : Task)).countP
        (fun task => task.wake.key = key && task.phase.unsent) =
          world.unsent key + (wakes.map ClaimedWake.key).count key := by
      rw [countP_append, countP_map, List.count, countP_map]
      congr 1
      apply countP_congr
      intro wake member
      simp [Phase.unsent]
    have goal : world.requests.count key + (world.unsent key + (wakes.map ClaimedWake.key).count key) ≤
        world.claims key + (wakes.map ClaimedWake.key).count key := by omega
    rw [← total, ← unsent] at goal
    exact goal
  · intro job member
    rw [jobsOf] at member
    obtain ⟨old, within, rfl⟩ := mem_map.mp member
    have attempted := sound.attempted old within
    have counted := count old within
    have sameKey : (if (world.tables.candidates community limit now locked).contains old then
        old.claimedBy claimId leaseUntil else old).key = old.key := by
      split <;> rfl
    rw [sameKey]
    have total := claims old.key
    rw [counted, attempted] at total
    refine total.trans ?_
    split <;> rfl

theorem wakes_setPhase : (world.setPhase task phase).wakes = world.wakes :=
  map_modify fun _ => rfl

theorem Sound.setPhase (sound : Sound world) (found : world.phase task = some old)
    (same : ∀ wake, phase.wake = some wake → ∃ earlier, old.wake = some earlier ∧
      wake.claim = earlier.claim)
    (unsent : phase.unsent → old.unsent) : Sound (world.setPhase task phase) := by
  obtain ⟨entry, here, isOld⟩ := Option.map_eq_some_iff.mp found
  constructor
  · exact sound.keyed
  · rw [wakes_setPhase]
    exact sound.claimed
  · rw [wakes_setPhase]
    exact sound.alone
  · intro other member wake isWake
    cases mem_modify member with
    | inl before => exact sound.phases other before wake isWake
    | inr changed =>
      obtain ⟨before, there, rfl⟩ := changed
      rw [here, Option.some.injEq] at there
      obtain ⟨earlier, isEarlier, sameClaim⟩ := same wake isWake
      rw [sameClaim, ← there]
      exact sound.phases entry (mem_of_getElem? here) earlier (isOld ▸ isEarlier)
  · intro key
    have fewer : (world.setPhase task phase).unsent key ≤ world.unsent key := by
      apply countP_modify_le
      intro before there
      rw [here, Option.some.injEq] at there
      rw [← there, Bool.and_eq_true, Bool.and_eq_true, isOld]
      exact fun both => ⟨both.1, unsent both.2⟩
    have counted := sound.counted key
    have claims : (world.setPhase task phase).claims key = world.claims key := by
      rw [World.claims, wakes_setPhase, World.claims]
    have requests : (world.setPhase task phase).requests = world.requests := rfl
    rw [claims, requests]
    omega
  · intro job member
    rw [World.claims, wakes_setPhase]
    exact sound.attempted job member

theorem Sound.withTables (sound : Sound world)
    (keyed : Keyed tables.jobs world.jobIds world.claimIds)
    (attempted : ∀ job ∈ tables.jobs, ∃ old ∈ world.tables.jobs, old.key = job.key ∧
      old.attempts = job.attempts) : Sound { world with tables } := by
  refine ⟨keyed, sound.claimed, sound.alone, sound.phases, sound.counted, ?_⟩
  intro job member
  obtain ⟨old, within, sameKey, same⟩ := attempted job member
  have before := sound.attempted old within
  rw [sameKey, same] at before
  exact before

theorem Sound.send (sound : Sound world) (found : world.phase task = some (.ready wake)) :
    Sound { world.setPhase task (.sent wake) with
      requests := (wake.community, wake.id) :: world.requests } := by
  have next : Sound (world.setPhase task (.sent wake)) := by
    apply sound.setPhase found
    · intro other isWake
      exact ⟨wake, rfl, by cases isWake; rfl⟩
    · intro unsent
      cases unsent
  obtain ⟨entry, here, isReady⟩ := Option.map_eq_some_iff.mp found
  have own := sound.phases entry (mem_of_getElem? here) wake (by rw [isReady]; rfl)
  simp only [ClaimedWake.claim, Prod.mk.injEq] at own
  refine ⟨next.keyed, next.claimed, next.alone, next.phases, ?_, next.attempted⟩
  intro key
  have counted := next.counted key
  have before := sound.counted key
  by_cases same : (wake.community, wake.id) = key
  · have dropped : (world.setPhase task (.sent wake)).unsent key + 1 = world.unsent key := by
      apply countP_modify_add_one here
      · rw [isReady, ← same, ClaimedWake.key, own.1, own.2.1]
        simp [Phase.unsent]
      · simp [Phase.unsent]
    have claims : (world.setPhase task (.sent wake)).claims key = world.claims key := by
      rw [World.claims, wakes_setPhase, World.claims]
    have goal : world.requests.count key + 1 + (world.setPhase task (.sent wake)).unsent key ≤
        (world.setPhase task (.sent wake)).claims key := by omega
    rw [← count_cons_self, ← same] at goal
    rw [← same]
    exact goal
  · have others : ((wake.community, wake.id) :: world.requests).count key =
        world.requests.count key := count_cons_of_ne same
    exact others ▸ counted

theorem settleWith_eq (settlement : Settlement) (now : ℤ) :
    ∃ settled : WakeJob → WakeJob,
      (∀ job, (settled job).key = job.key ∧ (settled job).dedupKey = job.dedupKey ∧
        (settled job).attempts = job.attempts ∧ (settled job).claimId = none) ∧
      world.settleWith wake now settlement =
        (world.tables.settleWake wake.community wake.id wake.claimId settled).1 := by
  cases settlement with
  | complete | fail | retry seconds =>
    refine ⟨_, ?_, rfl⟩
    exact fun job => ⟨rfl, rfl, rfl, rfl⟩

theorem Sound.settle (sound : Sound world) (settlement : Settlement) (now : ℤ) :
    Sound { world with tables := world.settleWith wake now settlement } := by
  obtain ⟨settled, same, settles⟩ := @settleWith_eq world wake settlement now
  rw [settles]
  apply sound.withTables
  · exact sound.keyed.settle (fun job => (same job).1) (fun job => (same job).2.1)
      fun job => (same job).2.2.2
  · intro job member
    obtain ⟨old, within, rfl⟩ := mem_map.mp member
    refine ⟨old, within, ?_⟩
    split
    · exact ⟨(same old).1.symm, (same old).2.2.1.symm⟩
    · exact ⟨rfl, rfl⟩

theorem Sound.revalidate (sound : Sound world) {next : ClaimedWake → Phase} {now : ℤ}
    {available : Bool} (found : world.phase task = some old) (isWake : old.wake = some wake)
    (unsent : old.unsent)
    (wakes : ∀ found, (next found).wake = some found) :
    Sound (world.revalidate task wake next now available) := by
  unfold World.revalidate
  split
  · split
    next again isFound =>
      apply sound.setPhase found
      · intro other isOther
        rw [wakes, Option.some.injEq] at isOther
        refine ⟨wake, isWake, ?_⟩
        obtain ⟨job, held, toClaimed⟩ := Option.bind_eq_some_iff.mp isFound
        obtain ⟨active, -, rfl⟩ := Option.map_eq_some_iff.mp toClaimed
        have kept := find?_some held
        simp only [Bool.and_eq_true, WakeJob.heldBy, WakeJob.isAt, decide_eq_true_eq] at kept
        rw [← isOther]
        simp only [WakeJob.toClaimed, ClaimedWake.claim, kept.1.1.1.1]
      · exact fun _ => unsent
    · apply sound.setPhase found
      · intro other isOther
        cases isOther
        exact ⟨wake, isWake, rfl⟩
      · exact fun _ => unsent
  · apply sound.setPhase found
    · intro other isOther
      cases isOther
    · exact fun _ => unsent

theorem answered_wake {result : GatewayResult} :
    (wake.answered result).wake = some wake ∧ (wake.answered result).unsent = false := by
  unfold ClaimedWake.answered
  split <;> first | exact ⟨rfl, rfl⟩ | (split <;> exact ⟨rfl, rfl⟩)

theorem Sound.step (sound : Sound world) (label : Label) : Sound (world.step label) := by
  cases label with
  | enqueue community now requests =>
    dsimp only [World.step]
    split
    next drawn => exact sound.enqueue drawn.1 drawn.2
    · exact sound
  | claim community limit leaseUntil claimId now locked =>
    by_cases drawn : claimId ∈ world.claimIds
    · rw [World.step, if_pos drawn]
      exact sound
    · exact sound.claim drawn
  | revalidate task now available =>
    dsimp only [World.step]
    split
    next wake found =>
      apply sound.revalidate found rfl rfl
      intro other
      rw [World.afterRevalidation]
      split <;> rfl
    next wake found => exact sound.revalidate found rfl rfl fun _ => rfl
    · exact sound
  | isMember task answer =>
    dsimp only [World.step]
    split
    next wake found =>
      exact sound.setPhase found (fun other isOther => ⟨wake, rfl, by cases isOther; rfl⟩)
        fun _ => rfl
    next wake found =>
      exact sound.setPhase found (fun other isOther => ⟨wake, rfl, by cases isOther; rfl⟩)
        fun _ => rfl
    next wake found =>
      exact sound.setPhase found (fun other isOther => ⟨wake, rfl, by cases isOther; rfl⟩)
        fun _ => rfl
    · exact sound
  | send task =>
    dsimp only [World.step]
    split
    next wake found => exact sound.send found
    · exact sound
  | answer task result =>
    dsimp only [World.step]
    split
    next wake found =>
      obtain ⟨same, sent⟩ := @answered_wake wake result
      apply sound.setPhase found
      · intro other isOther
        rw [same] at isOther
        exact ⟨wake, rfl, by cases isOther; rfl⟩
      · intro unsent
        rw [sent] at unsent
        cases unsent
    · exact sound
  | settle task now available =>
    dsimp only [World.step]
    split
    next wake generation found =>
      have next : Sound (world.setPhase task (.settling wake .fail)) := by
        apply sound.setPhase found
        · exact fun other isOther => ⟨wake, rfl, by cases isOther; rfl⟩
        · intro unsent
          cases unsent
      cases available with
      | false => exact next
      | true => exact next.withTables next.keyed fun job member => ⟨job, member, rfl, rfl⟩
    next wake settlement found =>
      have next : Sound (world.setPhase task .done) := by
        apply sound.setPhase found
        · intro other isOther
          cases isOther
        · intro unsent
          cases unsent
      cases available with
      | false => exact next
      | true => exact next.settle settlement now
    · exact sound
  | crash task =>
    cases found : world.phase task with
    | none =>
      have outside : world.tasks[task]? = none := Option.map_eq_none_iff.mp found
      have idle : world.setPhase task .done = world := by
        rw [World.setPhase, modify_eq_self (List.getElem?_eq_none_iff.mp outside)]
      change Sound (world.setPhase task .done)
      rw [idle]
      exact sound
    | some old =>
      apply sound.setPhase found
      · intro other isOther
        cases isOther
      · intro unsent
        cases unsent
  | prune community before now matching =>
    apply sound.withTables
    · exact sound.keyed.sublist filter_sublist
    · intro job member
      exact ⟨job, (mem_filter.mp member).1, rfl, rfl⟩
  | leases leases | events events =>
    exact sound.withTables sound.keyed fun job member => ⟨job, member, rfl, rfl⟩

end steps

section claims

variable {world : World} {label : Label} {labels : List Label} {wake : ClaimedWake}
  {key : CommunityId × Uuid} {job : WakeJob}

theorem heldBy_iff {community : CommunityId} {id claimId : Uuid} :
    job.heldBy community id claimId ↔
      job.key = (community, id) ∧ job.claimId = some claimId ∧ job.state = .sending := by
  simp only [WakeJob.heldBy, WakeJob.isAt, Bool.and_eq_true, decide_eq_true_eq, WakeJob.key,
    Prod.mk.injEq, and_assoc]

/-- Where a row after a step comes from. -/
inductive Came (world : World) (label : Label) (job : WakeJob) : Prop
  | same (within : job ∈ world.tables.jobs)
  | fresh (id : job.id ∉ world.jobIds) (pending : job.state = .pending)
  | claimed (old : WakeJob) (within : old ∈ world.tables.jobs) (community : CommunityId)
      (limit : ℕ) (leaseUntil : ℤ) (claimId : Uuid) (now : ℤ) (locked : Uuid → Bool)
      (isClaim : label = .claim community limit leaseUntil claimId now locked)
      (undrawn : claimId ∉ world.claimIds)
      (candidate : old ∈ world.tables.candidates community limit now locked)
      (taken : job = old.claimedBy claimId leaseUntil)
  | settled (old : WakeJob) (within : old ∈ world.tables.jobs) (sending : old.state = .sending)
      (key : job.key = old.key) (free : job.claimId = none)

theorem came_of_step (sound : Sound world)
    (member : job ∈ (world.step label).tables.jobs) : Came world label job := by
  have unchanged {next : World} (same : next.tables.jobs = world.tables.jobs)
      (member : job ∈ next.tables.jobs) : Came world label job := .same (same ▸ member)
  cases label with
  | enqueue community now requests =>
    dsimp only [World.step] at member
    split at member
    next drawn =>
      cases (insertWakes_keyed sound.keyed drawn.1 drawn.2).2.2 job member with
      | inl before => exact .same before
      | inr new => exact .fresh new.1 new.2.2
    · exact .same member
  | claim community limit leaseUntil claimId now locked =>
    by_cases drawn : claimId ∈ world.claimIds
    · rw [World.step, if_pos drawn] at member
      exact .same member
    · rw [World.step, if_neg drawn] at member
      obtain ⟨old, within, rfl⟩ := mem_map.mp member
      split
      next candidate =>
        exact .claimed old within community limit leaseUntil claimId now locked rfl drawn
          (contains_iff_mem.mp candidate) rfl
      · exact .same within
  | revalidate task now available =>
    apply unchanged _ member
    dsimp only [World.step, World.revalidate]
    repeat' (first | rfl | split)
  | isMember task answer | send task | answer task result =>
    apply unchanged _ member
    dsimp only [World.step]
    split <;> rfl
  | settle task now available =>
    dsimp only [World.step] at member
    split at member
    · cases available <;> exact .same member
    next wake settlement found =>
      cases available with
      | false => exact .same member
      | true =>
        obtain ⟨settled, same, settles⟩ := @settleWith_eq world wake settlement now
        rw [if_pos rfl, settles] at member
        obtain ⟨old, within, rfl⟩ := mem_map.mp member
        split
        next held =>
          exact .settled old within (heldBy_iff.mp held).2.2 (same old).1 (same old).2.2.2
        · exact .same within
    · exact .same member
  | crash task => exact .same member
  | prune community before now matching => exact .same (mem_filter.mp member).1
  | leases leases | events events => exact .same member

theorem current_of_step (sound : Sound world) (drawn : wake.claimId ∈ world.claimIds)
    (current : (world.step label).Current wake) : world.Current wake := by
  obtain ⟨job, member, held⟩ := current
  obtain ⟨key, claimed, sending⟩ := heldBy_iff.mp held
  cases came_of_step sound member with
  | same within => exact ⟨job, within, held⟩
  | fresh id pending =>
    rw [pending] at sending
    cases sending
  | claimed old within community limit leaseUntil claimId now locked isClaim undrawn candidate
      taken =>
      rw [taken] at claimed
      cases claimed
      exact absurd drawn undrawn
  | settled old within isSending sameKey free =>
    rw [free] at claimed
    cases claimed

theorem settleWith_of_superseded (superseded : ¬ world.Current wake) (settlement : Settlement)
    (now : ℤ) : world.settleWith wake now settlement = world.tables := by
  obtain ⟨settled, -, settles⟩ := @settleWith_eq world wake settlement now
  have idle : world.tables.jobs.map (fun job =>
      if job.heldBy wake.community wake.id wake.claimId then settled job else job) =
        world.tables.jobs := by
    conv_rhs => rw [← map_id world.tables.jobs]
    apply map_congr_left
    intro job member
    rw [if_neg fun held => superseded ⟨job, member, held⟩]
    rfl
  rw [settles, Tables.settleWake, idle]

theorem terminal_not_due {now : ℤ} (due : job.due now) :
    job.terminal = false := by
  simp only [WakeJob.due, Bool.and_eq_true, Bool.or_eq_true, decide_eq_true_eq] at due
  cases due.2 with
  | inl pending => simp [WakeJob.terminal, pending]
  | inr sending => simp [WakeJob.terminal, sending.1]

theorem terminal_of_step (sound : Sound world) (drawn : key.2 ∈ world.jobIds)
    (terminal : ∀ job ∈ world.tables.jobs, job.key = key → job.terminal) :
    ∀ job ∈ (world.step label).tables.jobs, job.key = key → job.terminal := by
  intro job member isKey
  cases came_of_step sound member with
  | same within => exact terminal job within isKey
  | fresh id pending =>
    have same : job.id = key.2 := congrArg Prod.snd isKey
    exact absurd (same ▸ drawn) id
  | claimed old within community limit leaseUntil claimId now locked isClaim undrawn candidate
      taken =>
      rw [taken] at isKey
      have before := terminal old within isKey
      rw [terminal_not_due (mem_candidates candidate).2.2.1] at before
      cases before
  | settled old within isSending sameKey free =>
    have before := terminal old within (sameKey.symm.trans isKey)
    rw [WakeJob.terminal, isSending] at before
    cases before

theorem wakes_step (other : ∀ community limit leaseUntil claimId now locked,
    label ≠ .claim community limit leaseUntil claimId now locked) :
    (world.step label).wakes = world.wakes := by
  have phases {next : World} {task : ℕ} {phase : Phase}
      (tasks : next.tasks = (world.setPhase task phase).tasks) : next.wakes = world.wakes := by
    rw [World.wakes, tasks]
    exact wakes_setPhase
  cases label with
  | enqueue community now requests =>
    dsimp only [World.step]
    split <;> rfl
  | claim community limit leaseUntil claimId now locked =>
    exact (other community limit leaseUntil claimId now locked rfl).elim
  | revalidate task now available =>
    dsimp only [World.step, World.revalidate]
    repeat' (first | exact phases rfl | rfl | split)
  | isMember task answer | send task | answer task result | settle task now available =>
    dsimp only [World.step]
    split <;> first | exact phases rfl | rfl
  | crash task => exact phases rfl
  | prune community before now matching | leases leases | events events => rfl

theorem claims_step (sound : Sound world) :
    (world.step label).claims key = world.claims key ∨
      ∃ community limit leaseUntil claimId now locked job,
        label = .claim community limit leaseUntil claimId now locked ∧
          job ∈ world.tables.candidates community limit now locked ∧ job.key = key ∧
            (world.step label).claims key = job.attempts + 1 := by
  by_cases isClaim : ∃ community limit leaseUntil claimId now locked,
      label = .claim community limit leaseUntil claimId now locked
  · obtain ⟨community, limit, leaseUntil, claimId, now, locked, rfl⟩ := isClaim
    by_cases drawn : claimId ∈ world.claimIds
    · rw [World.step, if_pos drawn]
      exact .inl rfl
    · have total : (world.step (.claim community limit leaseUntil claimId now locked)).claims key =
          world.claims key + ((world.tables.claimDueWakes community limit leaseUntil claimId now
            locked).2.map ClaimedWake.key).count key := by
        rw [World.step, if_neg drawn, World.claims, World.wakes, map_append, wakes_of_claimed,
          map_append, count_append]
        rfl
      by_cases taken : ∃ job ∈ world.tables.candidates community limit now locked, job.key = key
      · obtain ⟨job, candidate, isKey⟩ := taken
        have within := (mem_candidates candidate).1
        have count := @count_claimed world community limit leaseUntil now claimId locked sound job
          within
        rw [if_pos (contains_iff_mem.mpr candidate), isKey] at count
        have attempted := sound.attempted job within
        rw [isKey] at attempted
        rw [count, attempted] at total
        exact .inr ⟨community, limit, leaseUntil, claimId, now, locked, job, rfl, candidate, isKey,
          total⟩
      · left
        rw [total, claimDueWakes_keys, count_eq_zero_of_not_mem, Nat.add_zero]
        intro member
        obtain ⟨job, filtered, isKey⟩ := mem_map.mp member
        exact taken ⟨job, contains_iff_mem.mp (mem_filter.mp filtered).2, isKey⟩
  · left
    rw [World.claims, wakes_step, World.claims]
    intro community limit leaseUntil claimId now locked same
    exact isClaim ⟨community, limit, leaseUntil, claimId, now, locked, same⟩

end claims

end Buzz.Push
