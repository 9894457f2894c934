import Buzz.Push.Delivery

/-! How a job comes to be delivered, and the expiry that all attempts of a job share. -/

namespace Buzz.Push

open Nostr Library.Page Library.Slots List

variable {world : World} {label : Label} {task other : ℕ} {phase : Phase} {wake : ClaimedWake}

theorem delivered_of_settle {job : WakeJob} {settlement : Settlement} {now : ℤ}
    (member : job ∈ (world.settleWith wake now settlement).jobs)
    (delivered : job.state = .delivered) :
    job ∈ world.tables.jobs ∨ settlement = .complete ∧ job.key = wake.key := by
  cases settlement with
  | complete =>
    obtain ⟨before, isJob, rfl⟩ := mem_map.mp member
    split
    next held => exact .inr ⟨rfl, (heldBy_iff.mp held).1⟩
    · exact .inl isJob
  | fail | retry seconds =>
    obtain ⟨before, isJob, rfl⟩ := mem_map.mp member
    split at delivered
    · cases delivered
    next unheld =>
      rw [if_neg unheld]
      exact .inl isJob

theorem delivered_of_step (sound : Sound world) {job : WakeJob}
    (member : job ∈ (world.step label).tables.jobs) (delivered : job.state = .delivered) :
    job ∈ world.tables.jobs ∨ ∃ task wake, world.phase task = some (.settling wake .complete) ∧
      job.key = wake.key := by
  cases label with
  | settle task now available =>
    dsimp only [World.step] at member
    split at member
    · cases available <;> exact .inl member
    next wake settlement found =>
      cases available with
      | false => exact .inl member
      | true =>
        rcases delivered_of_settle member delivered with before | ⟨rfl, key⟩
        · exact .inl before
        · exact .inr ⟨task, wake, found, key⟩
    · exact .inl member
  | enqueue community now requests =>
    dsimp only [World.step] at member
    split at member
    next drawn =>
      rcases (insertWakes_keyed sound.keyed drawn.1 drawn.2).2.2 job member with before | new
      · exact .inl before
      · cases new.2.2.symm.trans delivered
    · exact .inl member
  | claim community limit leaseUntil claimId now locked =>
    dsimp only [World.step] at member
    split at member
    · exact .inl member
    · obtain ⟨old, within, rfl⟩ := mem_map.mp member
      split at delivered
      · cases delivered
      next skipped =>
        rw [if_neg skipped]
        exact .inl within
  | revalidate task now available =>
    left
    dsimp only [World.step, World.revalidate] at member
    repeat' (first | exact member | split at member)
  | isMember task answer =>
    left
    dsimp only [World.step] at member
    split at member <;> exact member
  | send task | answer task result =>
    left
    dsimp only [World.step] at member
    split at member <;> exact member
  | crash task | leases leases | events events => exact .inl member
  | prune community before now matching => exact .inl (mem_filter.mp member).1

theorem completing_of_setPhase {next : World}
    (found : next.phase other = some (.settling wake .complete))
    (tasks : next.tasks = (world.setPhase task phase).tasks)
    (unlike : phase ≠ .settling wake .complete) :
    world.phase other = some (.settling wake .complete) := by
  have same : next.phase other = (world.setPhase task phase).phase other := by
    rw [World.phase, tasks]
    rfl
  rw [same, phase_setPhase] at found
  split at found
  · obtain ⟨old, -, isPhase⟩ := Option.map_eq_some_iff.mp found
    exact absurd isPhase unlike
  · exact found

theorem completing_of_revalidate {next : ClaimedWake → Phase} {held : ClaimedWake} {now : ℤ}
    {available : Bool}
    (found : (world.revalidate task held next now available).phase other =
      some (.settling wake .complete))
    (unlike : ∀ again, next again ≠ .settling wake .complete) :
    world.phase other = some (.settling wake .complete) := by
  unfold World.revalidate at found
  split at found
  · split at found
    · exact completing_of_setPhase found rfl (unlike _)
    · exact completing_of_setPhase found rfl (by simp)
  · exact completing_of_setPhase found rfl (by simp)

theorem completing_of_step
    (found : (world.step label).phase other = some (.settling wake .complete)) :
    world.phase other = some (.settling wake .complete) ∨ ∃ result, label = .answer other result ∧
      world.phase other = some (.sent wake) ∧
      wake.answered result = .settling wake .complete := by
  cases label with
  | answer task result =>
    dsimp only [World.step] at found
    split at found
    next held sent =>
      rw [phase_setPhase] at found
      split at found
      next same =>
        obtain ⟨old, -, isPhase⟩ := Option.map_eq_some_iff.mp found
        have isWake := (@answered_wake held result).1
        rw [isPhase] at isWake
        cases isWake
        subst same
        exact .inr ⟨result, rfl, sent, isPhase⟩
      · exact .inl found
    · exact .inl found
  | enqueue community now requests =>
    dsimp only [World.step] at found
    split at found <;> exact .inl found
  | claim community limit leaseUntil claimId now locked =>
    dsimp only [World.step] at found
    split at found
    · exact .inl found
    · rw [World.phase, getElem?_append] at found
      split at found
      · exact .inl found
      · rw [getElem?_map, Option.map_map] at found
        obtain ⟨claimed, -, isPhase⟩ := Option.map_eq_some_iff.mp found
        cases isPhase
  | revalidate task now available =>
    left
    dsimp only [World.step] at found
    split at found
    · apply completing_of_revalidate found
      intro again
      unfold World.afterRevalidation
      split <;> exact Phase.noConfusion
    · exact completing_of_revalidate found fun _ => Phase.noConfusion
    · exact found
  | isMember task answer | send task | settle task now available =>
    left
    dsimp only [World.step] at found
    split at found <;> first
      | exact found
      | exact completing_of_setPhase found rfl (by simp)
  | crash task => exact .inl (completing_of_setPhase found rfl (by simp))
  | prune community before now matching | leases leases | events events => exact .inl found

section dated

structure Dated (date : Uuid → ℤ) (world : World) : Prop where
  jobs : ∀ job ∈ world.tables.jobs, job.expiresAt = date job.id
  phases : ∀ task ∈ world.tasks, ∀ wake, task.phase.wake = some wake →
    wake.expiresAt = date wake.id

variable {date : Uuid → ℤ}

theorem Dated.setPhase (dated : Dated date world)
    (known : ∀ wake, phase.wake = some wake → wake.expiresAt = date wake.id) :
    Dated date (world.setPhase task phase) where
  jobs := dated.jobs
  phases := by
    intro entry member wake isWake
    rcases mem_modify member with before | ⟨old, _, rfl⟩
    · exact dated.phases entry before wake isWake
    · exact known wake isWake

theorem Dated.held (dated : Dated date world) (found : world.phase task = some phase)
    (isWake : phase.wake = some wake) : wake.expiresAt = date wake.id := by
  obtain ⟨entry, here, rfl⟩ := Option.map_eq_some_iff.mp found
  exact dated.phases entry (mem_of_getElem? here) wake isWake

variable {now : ℤ}

theorem Dated.revalidate (dated : Dated date world) {next : ClaimedWake → Phase}
    {held : ClaimedWake} {available : Bool} (known : held.expiresAt = date held.id)
    (wakes : ∀ found, (next found).wake = some found) :
    Dated date (world.revalidate task held next now available) := by
  unfold World.revalidate
  split
  · split
    next again isFound =>
      apply dated.setPhase
      intro found isWake
      rw [wakes] at isWake
      cases isWake
      obtain ⟨job, held, toClaimed⟩ := Option.bind_eq_some_iff.mp isFound
      obtain ⟨active, -, rfl⟩ := Option.map_eq_some_iff.mp toClaimed
      exact dated.jobs job (mem_of_find?_eq_some held)
    · apply dated.setPhase
      intro found isWake
      cases isWake
      exact known
  · apply dated.setPhase
    intro found isWake
    cases isWake

theorem Dated.settle (dated : Dated date world) (settlement : Settlement) (now : ℤ) :
    ∀ job ∈ (world.settleWith wake now settlement).jobs, job.expiresAt = date job.id := by
  cases settlement with
  | complete | fail | retry =>
    intro job member
    obtain ⟨before, isJob, rfl⟩ := mem_map.mp member
    split <;> exact dated.jobs before isJob

variable {community : CommunityId} {requests : List (WakeRequest × Uuid)}

theorem insertWakes_dated {self tables : Tables} {job : WakeJob}
    (member : job ∈ (requests.foldl (self.insertWake community now) tables).jobs) :
    job ∈ tables.jobs ∨ ∃ request ∈ requests, job.id = request.2 ∧
      job.expiresAt = request.1.expiresAt := by
  induction requests generalizing tables with
  | nil => exact .inl member
  | cons request rest ih =>
    rcases ih member with before | ⟨other, later, same⟩
    · unfold Tables.insertWake at before
      split at before
      · exact .inl before
      · split at before
        · exact .inl before
        · rcases mem_append.mp before with old | new
          · exact .inl old
          · rw [mem_singleton.mp new]
            exact .inr ⟨request, mem_cons_self, rfl, rfl⟩
    · exact .inr ⟨other, mem_cons_of_mem _ later, same⟩

theorem Dated.enqueue (sound : Sound world) (dated : Dated date world)
    (distinct : (requests.map Prod.snd).Nodup)
    (fresh : ∀ id ∈ requests.map Prod.snd, id ∉ world.jobIds) :
    ∃ next : Uuid → ℤ, (∀ id ∈ world.jobIds, next id = date id) ∧ Dated next { world with
      tables := (world.tables.enqueueWakes community now requests).1
      jobIds := world.jobIds ++ requests.map Prod.snd } := by
  refine ⟨fun id => if id ∈ world.jobIds then date id else
    ((requests.find? (·.2 = id)).map fun request =>
      request.1.expiresAt).getD 0, fun id drawn => if_pos drawn, ?_, ?_⟩
  · intro job member
    rcases insertWakes_dated member with before | ⟨request, isRequest, isId, expiry⟩
    · rw [if_pos (sound.keyed.drawn job before)]
      exact dated.jobs job before
    · have undrawn := fresh request.2 (mem_map_of_mem isRequest)
      have found : requests.find? (·.2 = request.2) = some request := by
        cases first : requests.find? fun other => decide (other.2 = request.2) with
        | none =>
          have absent := find?_eq_none.mp first request isRequest
          exact absurd (decide_eq_true rfl) absent
        | some other =>
          have same := find?_some first
          rw [inj_on_of_nodup_map distinct (mem_of_find?_eq_some first) isRequest
            (of_decide_eq_true same)]
      rw [isId, if_neg undrawn, found, expiry]
      rfl
  · intro task member wake isWake
    have drawn : wake.id ∈ world.jobIds := by
      have same := sound.phases task member wake isWake
      have claimed := sound.claimed task.wake (mem_map_of_mem member)
      rw [ClaimedWake.claim, ClaimedWake.claim, Prod.mk.injEq, Prod.mk.injEq] at same
      rw [same.2.1]
      exact claimed.1
    rw [if_pos drawn]
    exact dated.phases task member wake isWake

theorem Dated.step (sound : Sound world) (dated : Dated date world) (label : Label) :
    ∃ next : Uuid → ℤ, (∀ id ∈ world.jobIds, next id = date id) ∧
      Dated next (world.step label) := by
  have same (kept : Dated date (world.step label)) : ∃ next : Uuid → ℤ,
      (∀ id ∈ world.jobIds, next id = date id) ∧ Dated next (world.step label) :=
    ⟨date, fun _ _ => rfl, kept⟩
  cases label with
  | enqueue community now requests =>
    dsimp only [World.step] at same ⊢
    split
    next drawn => exact dated.enqueue sound drawn.1 drawn.2
    next refused =>
      rw [if_neg refused] at same
      exact same dated
  | claim community limit leaseUntil claimId now locked =>
    apply same
    dsimp only [World.step]
    split
    · exact dated
    · constructor
      · intro job member
        obtain ⟨old, within, rfl⟩ := mem_map.mp member
        split <;> exact dated.jobs old within
      · intro task member wake isWake
        rcases mem_append.mp member with before | new
        · exact dated.phases task before wake isWake
        · obtain ⟨claimed, isClaimed, rfl⟩ := mem_map.mp new
          cases isWake
          obtain ⟨job, within, found⟩ := mem_filterMap.mp isClaimed
          obtain ⟨active, -, rfl⟩ := Option.map_eq_some_iff.mp found
          exact dated.jobs job (mem_filter.mp within).1
  | revalidate task now available =>
    apply same
    dsimp only [World.step]
    split
    next wake found =>
      refine dated.revalidate (dated.held found rfl) ?_
      intro again
      unfold World.afterRevalidation
      split <;> rfl
    next wake found => exact dated.revalidate (dated.held found rfl) fun _ => rfl
    · exact dated
  | isMember task answer =>
    apply same
    dsimp only [World.step]
    split
    all_goals first
      | exact dated
      | (rename_i found
         apply dated.setPhase
         intro other isWake
         cases isWake
         exact dated.held found rfl)
  | send task =>
    apply same
    dsimp only [World.step]
    split
    next wake found =>
      have sent : Dated date (world.setPhase task (.sent wake)) := by
        apply dated.setPhase
        intro other isWake
        cases isWake
        exact dated.held found rfl
      exact ⟨sent.jobs, sent.phases⟩
    · exact dated
  | answer task result =>
    apply same
    dsimp only [World.step]
    split
    next wake found =>
      apply dated.setPhase
      intro other isWake
      rw [answered_wake.1] at isWake
      cases isWake
      exact dated.held found rfl
    · exact dated
  | settle task now available =>
    apply same
    dsimp only [World.step]
    split
    next wake generation found =>
      have settling : Dated date (world.setPhase task (.settling wake .fail)) := by
        apply dated.setPhase
        intro other isWake
        cases isWake
        exact dated.held found rfl
      cases available <;> exact ⟨dated.jobs, settling.phases⟩
    next wake settlement found =>
      have done : Dated date (world.setPhase task .done) := by
        apply dated.setPhase
        intro other isWake
        cases isWake
      cases available with
      | false => exact ⟨dated.jobs, done.phases⟩
      | true => exact ⟨dated.settle settlement now, done.phases⟩
    · exact dated
  | crash task =>
    apply same
    apply dated.setPhase
    intro other isWake
    cases isWake
  | prune community before now matching =>
    apply same
    exact ⟨fun job member => dated.jobs job (mem_filter.mp member).1, dated.phases⟩
  | leases leases | events events => exact same ⟨dated.jobs, dated.phases⟩

end dated

end Buzz.Push
