import Buzz.PushLease.Calls

/-! What a statement of a call can do, and the locks under which it does it. -/

namespace Buzz.PushLease

open Nostr Buzz.Push Library.Locks List Option

inductive Advance (world : World) (index : ℕ) (call : Call) : Call → Prop
  | address (accepts : call.accepts) (phase : call.phase = .begun)
      (free : others index (·.holdsAddress call.address) world.calls = false) :
      Advance world index call { call with phase := .addressLocked }
  | author (accepts : call.accepts) (phase : call.phase = .addressLocked) :
      Advance world index call { call with phase := .authorLocked }
  | gate (accepts : call.accepts → call.phase = .authorLocked) (phase : call.phase.rank < 3)
      (free : call.active.isSome →
        others index (·.holdsGate call.address.community) world.calls = false ∧
          ∀ insert ∈ world.inserts, insert.holdsGate call.address.community = false) :
      Advance world index call { call with phase := .gated }
  | unbound (accepts : call.accepts) (phase : call.phase = .gated) :
      Advance world index call { call with phase := .unbound }
  | check (accepts : call.accepts) (phase : call.phase = .unbound)
      (free : (world.leases.find? call.address.isOf).isSome →
        others index (·.holdsRow call.address) world.calls = false)
      (advances : ∀ current, world.leases.find? call.address.isOf = some current →
        call.version.advances current) :
      Advance world index call
        { call with phase := .checked, found := world.leases.find? call.address.isOf }
  | sweep (accepts : call.accepts) (phase : call.phase = .checked) :
      Advance world index call { call with phase := .swept }
  | count (maxActiveLeases : ℤ) (accepts : call.function = .acceptLeaseEvent maxActiveLeases)
      (phase : call.phase = .swept)
      (below : (world.leases.countP call.othersActive : ℤ) < maxActiveLeases) :
      Advance world index call { call with phase := .counted }
  | inactive (accepts : call.accepts) (phase : call.phase = .swept)
      (none : call.active = none) : Advance world index call { call with phase := .admitted }
  | passes (accepts : call.accepts) (phase : call.phase = .counted) :
      Advance world index call { call with phase := .admitted }
  | store (accepts : call.accepts) (phase : call.phase = .admitted) :
      Advance world index call { call with
        phase := .stored
        erased := (world.sources.filter fun source =>
          source.address = call.address && source.live).map SourceEvent.id }
  | upsert (accepts : call.accepts) (phase : call.phase = .stored)
      (free : others index (·.holdsRow call.address) world.calls = false)
      (unique : ∀ lease ∈ world.leases, call.sharesEndpoint lease = false) :
      Advance world index call { call with phase := .upserted }
  | replace (replaces : call.accepts = false) (phase : call.phase = .gated)
      (free : others index (·.holdsRow call.address) world.calls = false)
      (advances : ∀ current, world.leases.find? call.address.isOf = some current →
        call.version.advances current)
      (unique : ∀ lease ∈ world.leases, call.sharesEndpoint lease = false) :
      Advance world index call
        { call with phase := .upserted, found := world.leases.find? call.address.isOf }
  | backfill (phase : call.phase = .upserted) : Advance world index call (world.backfill call)
  | finish (outcome : Option AcceptLeaseOutcome) (rejected : outcome ≠ some .accepted) :
      Advance world index call (call.finish outcome)

section next

variable {world : World} {index : ℕ} {call moved : Call}

theorem others_of_waits (free : ¬ world.upsertWaits index call) :
    others index (·.holdsRow call.address) world.calls = false := by
  rw [others_eq_false]
  intro other slot apart found
  have waits := others_eq_false.mp (eq_false_of_ne_true free) other slot apart found
  rw [Bool.or_eq_false_iff] at waits
  exact waits.1

theorem unique_of_upsert (lawful : world.upsertViolation call = none) :
    ∀ lease ∈ world.leases, call.sharesEndpoint lease = false := by
  unfold World.upsertViolation at lawful
  split at lawful
  · cases lawful
  · split at lawful
    · cases lawful
    · split at lawful
      · cases lawful
      next unique =>
        exact any_eq_false.mp (eq_false_of_ne_true unique) |> fun none lease member =>
          eq_false_of_ne_true (none lease member)

theorem advances_of_find {current : Option LeaseRow}
    (wins : ¬ current.any (fun current => !call.version.winsEvent current))
    (later : ¬ current.any (fun current => call.version.generation ≤ current.generation) =
      true) (lease : LeaseRow) (found : current = some lease) :
    call.version.advances lease := by
  rw [found, any_some, Bool.not_eq_true, Bool.not_eq_false'] at wins
  rw [found, any_some, decide_eq_true_eq, Int.not_le] at later
  rw [LeaseVersion.advances, wins, Bool.true_and, decide_eq_true_eq]
  exact later

theorem advance_of_lockGate (accepts : call.accepts → call.phase = .authorLocked)
    (phase : call.phase.rank < 3) (isNext : world.lockGate index call = some moved) :
    Advance world index call moved := by
  unfold World.lockGate at isNext
  split at isNext
  · cases isNext
  next waits =>
    cases isNext
    apply Advance.gate accepts phase
    intro active
    rw [active, Bool.true_and, Bool.or_eq_true, not_or] at waits
    refine ⟨eq_false_of_ne_true waits.1, ?_⟩
    intro insert member
    by_contra held
    exact waits.2 (any_eq_true.mpr ⟨insert, member, eq_true_of_ne_false held⟩)

theorem advance_of_checkOrder (accepts : call.accepts) (phase : call.phase = .unbound)
    (isNext : world.checkOrder index call = some moved) : Advance world index call moved := by
  unfold World.checkOrder at isNext
  dsimp only at isNext
  split at isNext
  · cases isNext
  next waits =>
    split at isNext
    · cases isNext
      exact .finish _ (by simp)
    next wins =>
      split at isNext
      · cases isNext
        exact .finish _ (by simp)
      next later =>
        cases isNext
        apply Advance.check accepts phase _ (advances_of_find wins later)
        intro present
        rw [present, Bool.true_and] at waits
        exact eq_false_of_ne_true waits

theorem advance_of_storeEvent (accepts : call.accepts) (phase : call.phase = .admitted)
    (isNext : world.storeEvent index call = some moved) : Advance world index call moved := by
  unfold World.storeEvent at isNext
  split at isNext
  · cases isNext
  · split at isNext
    · cases isNext
      exact .finish _ (by simp)
    · cases isNext
      exact .store accepts phase

theorem violation_not_accepted {outcome : AcceptLeaseOutcome}
    (violation : world.upsertViolation call = some outcome) :
    some outcome ≠ some AcceptLeaseOutcome.accepted := by
  unfold World.upsertViolation at violation
  repeat' split at violation
  all_goals
    cases violation
    try simp

theorem advance_of_upsertLease (accepts : call.accepts) (phase : call.phase = .stored)
    (isNext : world.upsertLease index call = some moved) : Advance world index call moved := by
  unfold World.upsertLease at isNext
  split at isNext
  · cases isNext
  next waits =>
    split at isNext
    next outcome violation =>
      cases isNext
      exact .finish _ (violation_not_accepted violation)
    next lawful =>
      cases isNext
      exact .upsert accepts phase (others_of_waits waits) (unique_of_upsert lawful)

theorem advance_of_replaceLease (replaces : call.accepts = false) (phase : call.phase = .gated)
    (isNext : world.replaceLease index call = some moved) : Advance world index call moved := by
  unfold World.replaceLease at isNext
  dsimp only at isNext
  split at isNext
  · cases isNext
  next waits =>
    split at isNext
    · cases isNext
      exact .finish _ (by simp)
    · split at isNext
      · cases isNext
        apply Advance.finish
        split <;> simp
      next ordered =>
        split at isNext
        · cases isNext
          exact .finish _ (by simp)
        next lawful =>
          cases isNext
          apply Advance.replace replaces phase (others_of_waits waits)
          · intro current found
            rw [found, any_some, Bool.not_eq_true, Bool.not_eq_false'] at ordered
            exact ordered
          · exact unique_of_upsert (not_isSome_iff_eq_none.mp lawful)

theorem advance_of_next (isNext : world.next index call = some moved) :
    Advance world index call moved := by
  obtain ⟨function, address, version, active, now, phase, found, erased, jobs⟩ := call
  cases function with
  | acceptLeaseEvent maxActiveLeases =>
    cases phase with
    | begun =>
      dsimp only [World.next, World.lockAddress] at isNext
      split at isNext
      · cases isNext
      next free =>
        cases isNext
        exact .address rfl rfl (eq_false_of_ne_true free)
    | addressLocked =>
      dsimp only [World.next, World.lockAuthor] at isNext
      split at isNext
      · cases isNext
      · cases isNext
        exact .author rfl rfl
    | authorLocked => exact advance_of_lockGate (fun _ => rfl) (Nat.lt_succ_self 2) isNext
    | gated =>
      dsimp only [World.next, World.lookUpSource] at isNext
      split at isNext
      · cases isNext
        apply Advance.finish
        split <;> simp
      · cases isNext
        exact .unbound rfl rfl
    | unbound => exact advance_of_checkOrder rfl rfl isNext
    | checked =>
      dsimp only [World.next, World.sweepExpired] at isNext
      split at isNext
      · cases isNext
        exact .finish _ (by simp)
      · cases isNext
        exact .sweep rfl rfl
    | swept =>
      dsimp only [World.next, World.countActive] at isNext
      split at isNext
      next inactive =>
        cases isNext
        exact .inactive rfl rfl (isNone_iff_eq_none.mp inactive)
      · split at isNext
        · cases isNext
          exact .finish _ (by simp)
        next below =>
          cases isNext
          exact .count maxActiveLeases rfl rfl (Int.not_le.mp below)
    | counted =>
      dsimp only [World.next, World.checkEndpoint] at isNext
      split at isNext
      · cases isNext
        exact .finish _ (by simp)
      · cases isNext
        exact .passes rfl rfl
    | admitted => exact advance_of_storeEvent rfl rfl isNext
    | stored => exact advance_of_upsertLease rfl rfl isNext
    | upserted =>
      cases isNext
      exact .backfill rfl
    | backfilled | done outcome => cases isNext
  | replaceLease =>
    cases phase with
    | begun => exact advance_of_lockGate nofun (Nat.zero_lt_succ 2) isNext
    | gated => exact advance_of_replaceLease rfl rfl isNext
    | upserted =>
      cases isNext
      exact .backfill rfl
    | addressLocked | authorLocked | unbound | checked | swept | counted | admitted | stored
      | backfilled => cases isNext
    | done outcome => cases isNext

theorem running_of_next (isNext : world.next index call = some moved) : call.phase.rank < 12 := by
  by_contra past
  obtain ⟨function, address, version, active, now, phase, found, erased, jobs⟩ := call
  cases phase with
  | done outcome => cases function <;> cases isNext
  | begun | addressLocked | authorLocked | gated | unbound | checked | swept | counted | admitted
    | stored | upserted | backfilled => simp [Phase.rank] at past

theorem Advance.input (advance : Advance world index call moved) :
    moved.function = call.function ∧ moved.address = call.address ∧ moved.version = call.version ∧
      moved.active = call.active := by
  cases advance <;> exact ⟨rfl, rfl, rfl, rfl⟩

theorem within_of_done {outcome : Option AcceptLeaseOutcome} {first : ℕ} :
    (call.finish outcome).within first = false := by
  simp [Call.within, Call.finish, Phase.rank]

theorem within_backfill {first : ℕ} (phase : call.phase = .upserted) (early : first ≤ 10) :
    call.within first := by
  simp [Call.within, phase, Phase.rank, early]

section

variable (advance : Advance world index call moved)

include advance

theorem Advance.holdsAddress (address : Address)
    (held : moved.holdsAddress address) : call.holdsAddress address ∨
      others index (·.holdsAddress address) world.calls = false := by
  have kept (accepts : call.accepts) (same : call.address = address)
      (within : call.within 1) : call.holdsAddress address := by
    simp [Call.holdsAddress, accepts, same, within]
  simp only [Call.holdsAddress, Bool.and_eq_true, decide_eq_true_eq] at held
  obtain ⟨⟨accepts, same⟩, within⟩ := held
  cases advance with
  | address isAccept phase free =>
    right
    rw [← same]
    exact free
  | author isAccept phase | unbound isAccept phase | check isAccept phase
    | sweep isAccept phase | inactive isAccept phase | passes isAccept phase | store isAccept phase
    | upsert isAccept phase =>
      exact .inl (kept accepts same (by simp [Call.within, phase, Phase.rank]))
  | gate isAccept phase =>
    have authored := isAccept accepts
    exact .inl (kept accepts same (by simp [Call.within, authored, Phase.rank]))
  | count maximum isAccept phase =>
    exact .inl (kept accepts same (by simp [Call.within, phase, Phase.rank]))
  | replace replaces phase =>
    have accepts : call.accepts := accepts
    rw [replaces] at accepts
    cases accepts
  | backfill phase => exact .inl (kept accepts same (within_backfill phase (by omega)))
  | finish outcome rejected =>
    rw [within_of_done] at within
    cases within

theorem Advance.holdsGate (community : CommunityId)
    (held : moved.holdsGate community) : call.holdsGate community ∨
      others index (·.holdsGate community) world.calls = false ∧
        ∀ insert ∈ world.inserts, insert.holdsGate community = false := by
  have kept (active : call.active.isSome) (same : call.address.community = community)
      (within : call.within 3) : call.holdsGate community := by
    simp [Call.holdsGate, active, same, within]
  simp only [Call.holdsGate, Bool.and_eq_true, decide_eq_true_eq] at held
  obtain ⟨⟨active, same⟩, within⟩ := held
  cases advance with
  | address isAccept phase | author isAccept phase =>
    simp [Call.within, Phase.rank] at within
  | gate isAccept phase free =>
    right
    rw [← same]
    exact free active
  | unbound isAccept phase | check isAccept phase | sweep isAccept phase
    | inactive isAccept phase | passes isAccept phase | store isAccept phase
    | upsert isAccept phase | replace isAccept phase =>
      exact .inl (kept active same (by simp [Call.within, phase, Phase.rank]))
  | count maximum isAccept phase =>
    exact .inl (kept active same (by simp [Call.within, phase, Phase.rank]))
  | backfill phase => exact .inl (kept active same (within_backfill phase (by omega)))
  | finish outcome rejected =>
    rw [within_of_done] at within
    cases within

theorem Advance.holdsRow (address : Address)
    (held : moved.holdsRow address) : call.holdsRow address ∨
      others index (·.holdsRow address) world.calls = false := by
  have kept (same : call.address = address) (present : call.found.isSome)
      (within : call.within 5) : call.holdsRow address := by
    simp [Call.holdsRow, present, same, within]
  simp only [Call.holdsRow, Bool.and_eq_true, Bool.or_eq_true, decide_eq_true_eq] at held
  obtain ⟨same, held⟩ := held
  cases advance with
  | address isAccept phase | author isAccept phase | gate isAccept phase | unbound isAccept phase =>
    simp [Call.within, Call.writes, Phase.rank] at held
  | check isAccept phase free =>
    right
    rw [← same]
    simp only [Call.within, Call.writes, Phase.rank] at held
    exact free (by simpa using held)
  | sweep isAccept phase | inactive isAccept phase | passes isAccept phase | store isAccept phase =>
    simp only [Call.within, Call.writes, Phase.rank] at held
    exact Or.inl (kept same (by simpa using held) (by simp [Call.within, phase, Phase.rank]))
  | count maximum isAccept phase =>
    simp only [Call.within, Call.writes, Phase.rank] at held
    exact Or.inl (kept same (by simpa using held) (by simp [Call.within, phase, Phase.rank]))
  | upsert isAccept phase free | replace isAccept phase free =>
    right
    rw [← same]
    exact free
  | backfill phase =>
    left
    have same : call.address = address := same
    simp [Call.holdsRow, same, Call.writes, within_backfill phase (Nat.le_refl 10)]
  | finish outcome rejected =>
    rw [Call.writes, within_of_done, within_of_done] at held
    simp at held

end

end next

end Buzz.PushLease
