import Mathlib.Data.List.Induction
import Buzz.PushLease.Statements

/-! What a call relies on between its statements, and what its commit does to the tables. -/

namespace Buzz.PushLease

open Nostr Buzz.Push Library.Locks List

structure Held (world : World) (call : Call) : Prop where
  found : call.within 5 → ∀ current, call.found = some current →
    world.leases.find? call.address.isOf = some current ∧ call.version.advances current
  absent : call.accepts = false → call.writes → call.found = none →
    world.leases.find? call.address.isOf = none
  counted : ∀ maxActiveLeases, call.function = .acceptLeaseEvent maxActiveLeases →
    call.active.isSome → call.within 7 →
      (world.leases.countP call.othersActive : ℤ) < maxActiveLeases
  erased : call.accepts → call.within 9 → ∀ source ∈ world.sources,
    source.address = call.address → source.live → source.id ∈ call.erased
  unique : call.writes → ∀ lease ∈ world.leases, call.sharesEndpoint lease = false

variable {world next : World} {index : ℕ} {call moved : Call}

section held

theorem held_finish (outcome : Option AcceptLeaseOutcome) : Held world (call.finish outcome) := by
  constructor
  · intro within
    rw [within_of_done] at within
    cases within
  · intro _ within
    rw [Call.writes, within_of_done] at within
    cases within
  · intro _ _ _ within
    rw [within_of_done] at within
    cases within
  · intro _ within
    rw [within_of_done] at within
    cases within
  · intro within
    rw [Call.writes, within_of_done] at within
    cases within

theorem held_early (rank : call.phase.rank < 9)
    (found : call.within 5 → ∀ current, call.found = some current →
      world.leases.find? call.address.isOf = some current ∧ call.version.advances current)
    (counted : ∀ maxActiveLeases, call.function = .acceptLeaseEvent maxActiveLeases →
      call.active.isSome → call.within 7 →
        (world.leases.countP call.othersActive : ℤ) < maxActiveLeases) : Held world call := by
  have before {first : ℕ} (within : call.within first) (bound : 9 ≤ first) : False := by
    simp only [Call.within, Bool.and_eq_true, decide_eq_true_eq] at within
    omega
  constructor
  · exact found
  · exact fun _ within => (before within (by omega)).elim
  · exact counted
  · exact fun _ within => (before within (by omega)).elim
  · exact fun within => (before within (by omega)).elim

theorem Held.advance (held : Held world call) (advance : Advance world index call moved) :
    Held world moved := by
  have early {later : Call} (rank : later.phase.rank < 5) : Held world later := by
    have before {first : ℕ} (within : later.within first) (bound : 5 ≤ first) : False := by
      simp only [Call.within, Bool.and_eq_true, decide_eq_true_eq] at within
      omega
    apply held_early (by omega)
    · exact fun within => (before within (by omega)).elim
    · exact fun _ _ _ within => (before within (by omega)).elim
  cases advance with
  | address accepts phase | author accepts phase | gate accepts phase | unbound accepts phase =>
    exact early (by simp [Phase.rank])
  | check accepts phase free advances =>
    apply held_early (by simp [Phase.rank])
    · exact fun _ current found => ⟨found, advances current found⟩
    · intro _ _ _ within
      simp [Call.within, Phase.rank] at within
  | sweep accepts phase =>
    apply held_early (by simp [Phase.rank])
    · exact fun _ => held.found (by simp [Call.within, phase, Phase.rank])
    · intro _ _ _ within
      simp [Call.within, Phase.rank] at within
  | count maxActiveLeases accepts phase below =>
    apply held_early (by simp [Phase.rank])
    · exact fun _ => held.found (by simp [Call.within, phase, Phase.rank])
    · intro maximum isAccept _ _
      have isAccept : call.function = .acceptLeaseEvent maximum := isAccept
      rw [accepts] at isAccept
      cases isAccept
      exact below
  | inactive accepts phase none =>
    apply held_early (by simp [Phase.rank])
    · exact fun _ => held.found (by simp [Call.within, phase, Phase.rank])
    · intro _ _ active
      have active : call.active.isSome := active
      rw [none] at active
      cases active
  | passes accepts phase =>
    apply held_early (by simp [Phase.rank])
    · exact fun _ => held.found (by simp [Call.within, phase, Phase.rank])
    · exact fun maximum isAccept active _ =>
        held.counted maximum isAccept active (by simp [Call.within, phase, Phase.rank])
  | store accepts phase =>
    constructor
    · exact fun _ => held.found (by simp [Call.within, phase, Phase.rank])
    · intro _ within
      simp [Call.writes, Call.within, Phase.rank] at within
    · exact fun maximum isAccept active _ =>
        held.counted maximum isAccept active (by simp [Call.within, phase, Phase.rank])
    · intro _ _ source member same live
      have same : source.address = call.address := same
      apply mem_map_of_mem
      exact mem_filter.mpr ⟨member, by simp [same, live]⟩
    · intro within
      simp [Call.writes, Call.within, Phase.rank] at within
  | upsert accepts phase free unique =>
    constructor
    · exact fun _ => held.found (by simp [Call.within, phase, Phase.rank])
    · intro replaces
      have replaces : call.accepts = false := replaces
      rw [accepts] at replaces
      cases replaces
    · exact fun maximum isAccept active _ =>
        held.counted maximum isAccept active (by simp [Call.within, phase, Phase.rank])
    · exact fun isAccept _ => held.erased isAccept (by simp [Call.within, phase, Phase.rank])
    · exact fun _ => unique
  | replace replaces phase free advances unique =>
    constructor
    · exact fun _ current found => ⟨found, advances current found⟩
    · exact fun _ _ absent => absent
    · intro maximum isAccept
      have isAccept : call.function = .acceptLeaseEvent maximum := isAccept
      rw [Call.accepts, isAccept] at replaces
      cases replaces
    · intro accepts
      have accepts : call.accepts := accepts
      rw [replaces] at accepts
      cases accepts
    · exact fun _ => unique
  | backfill phase =>
    have written : call.writes := within_backfill phase (Nat.le_refl 10)
    constructor
    · exact fun _ => held.found (within_backfill phase (by omega))
    · exact fun replaces _ => held.absent replaces written
    · exact fun maximum isAccept active _ =>
        held.counted maximum isAccept active (within_backfill phase (by omega))
    · exact fun accepts _ => held.erased accepts (within_backfill phase (by omega))
    · exact fun _ => held.unique written
  | finish outcome rejected => exact held_finish outcome

theorem Held.same (held : Held world call) (leases : next.leases = world.leases)
    (sources : next.sources = world.sources) : Held next call := by
  constructor
  · rw [leases]
    exact held.found
  · rw [leases]
    exact held.absent
  · rw [leases]
    exact held.counted
  · rw [sources]
    exact held.erased
  · rw [leases]
    exact held.unique

variable {address : Address} {lease : LeaseRow}

theorem isOf_iff : address.isOf lease ↔
    lease.communityId = address.community ∧ lease.author = address.author ∧
      lease.installationId = address.installationId := by
  simp only [Address.isOf, LeaseRow.isAt, Bool.and_eq_true, decide_eq_true_eq, and_assoc]

theorem isOf_row : address.isOf call.row ↔ call.address = address := by
  rw [isOf_iff]
  constructor
  · intro same
    obtain ⟨community, author, installationId⟩ := same
    have eta : call.address = ⟨address.community, address.author, address.installationId⟩ := by
      rw [← community, ← author, ← installationId]
      rfl
    exact eta
  · intro same
    rw [← same]
    exact ⟨rfl, rfl, rfl⟩

theorem find?_map_of_fixed {leases : List LeaseRow}
    {change : LeaseRow → LeaseRow} (isOf : ∀ lease, address.isOf (change lease) = address.isOf lease)
    (fixed : ∀ lease, address.isOf lease → change lease = lease) :
    (leases.map change).find? address.isOf = leases.find? address.isOf := by
  rw [find?_map, show address.isOf ∘ change = address.isOf from funext isOf]
  cases found : leases.find? address.isOf with
  | none => rfl
  | some lease => exact congrArg some (fixed lease (find?_some found))

theorem Held.map (held : Held world call) {change : LeaseRow → LeaseRow}
    (leases : next.leases = world.leases.map change) (sources : next.sources = world.sources)
    (isOf : ∀ lease, call.address.isOf (change lease) = call.address.isOf lease)
    (active : ∀ lease, call.othersActive (change lease) = call.othersActive lease)
    (endpoint : ∀ lease, call.sharesEndpoint (change lease) = call.sharesEndpoint lease)
    (fixed : call.holdsRow call.address →
      ∀ lease, call.address.isOf lease → change lease = lease) : Held next call := by
  have rowOf (within : call.within 5) (present : call.found.isSome) :
      call.holdsRow call.address := by
    simp [Call.holdsRow, within, present]
  constructor
  · intro within current found
    rw [leases, find?_map_of_fixed isOf (fixed (rowOf within (by rw [found]; rfl)))]
    exact held.found within current found
  · intro replaces written absent
    rw [leases, find?_map_of_fixed isOf (fixed (by simp [Call.holdsRow, written]))]
    exact held.absent replaces written absent
  · intro maximum accepts isActive within
    rw [leases, countP_map, show call.othersActive ∘ change = call.othersActive from
      funext active]
    exact held.counted maximum accepts isActive within
  · rw [sources]
    exact held.erased
  · intro written lease member
    rw [leases] at member
    obtain ⟨old, within, rfl⟩ := mem_map.mp member
    rw [endpoint]
    exact held.unique written old within

theorem sharesEndpoint_active (shares : call.sharesEndpoint lease) :
    call.active.isSome ∧ lease.active.isSome ∧
      lease.communityId = call.address.community := by
  simp only [Call.sharesEndpoint, Call.othersActive, Bool.and_eq_true, decide_eq_true_eq] at shares
  obtain ⟨⟨⟨⟨community, -⟩, active⟩, -⟩, same⟩ := shares
  refine ⟨?_, active, community⟩
  cases own : call.active with
  | none =>
    rw [own, Option.map_none, Option.map_eq_none_iff] at same
    rw [same] at active
    cases active
  | some endpoint => rfl

theorem find?_commit (apart : call.address ≠ address) :
    (world.commit index call).leases.find? address.isOf = world.leases.find? address.isOf := by
  have other : address.isOf call.row = false := by
    by_contra same
    exact apart (isOf_row.mp (eq_true_of_ne_false same))
  change (call.row :: world.leases.filter fun lease => !call.address.isOf lease).find? address.isOf =
    world.leases.find? address.isOf
  rw [find?_cons_of_neg (by rw [other]; exact Bool.false_ne_true), find?_filter]
  congr 1
  funext lease
  by_cases here : address.isOf lease
  · have there : call.address.isOf lease = false := by
      by_contra both
      have first := isOf_iff.mp here
      have second := isOf_iff.mp (eq_true_of_ne_false both)
      apply apart
      have eta : call.address = ⟨address.community, address.author, address.installationId⟩ := by
        rw [← first.1, ← first.2.1, ← first.2.2, second.1, second.2.1, second.2.2]
      exact eta
    simp [here, there]
  · simp [here]

theorem Held.commit {other : Call} (held : Held world other)
    (rows : other.holdsRow other.address → call.address ≠ other.address)
    (addresses : call.accepts → other.holdsAddress other.address →
      call.address ≠ other.address)
    (gates : call.active.isSome → other.holdsGate other.address.community →
      call.address.community ≠ other.address.community) :
    Held (world.commit index call) other := by
  have inactive (active : other.active.isSome) (within : other.within 3) :
      other.othersActive call.row = false := by
    by_contra shares
    have shares := eq_true_of_ne_false shares
    simp only [Call.othersActive, Bool.and_eq_true, decide_eq_true_eq] at shares
    have gate : other.holdsGate other.address.community := by
      simp [Call.holdsGate, active, within]
    exact gates shares.1.2 gate shares.1.1.1
  have weaken {first later : ℕ} (within : other.within later) (before : first ≤ later) :
      other.within first := by
    simp only [Call.within, Bool.and_eq_true, decide_eq_true_eq] at within ⊢
    omega
  constructor
  · intro within current found
    have row : other.holdsRow other.address := by
      simp [Call.holdsRow, within, found]
    rw [find?_commit (rows row)]
    exact held.found within current found
  · intro replaces written absent
    have row : other.holdsRow other.address := by
      simp [Call.holdsRow, written]
    rw [find?_commit (rows row)]
    exact held.absent replaces written absent
  · intro maximum accepts active within
    have fewer : (world.commit index call).leases.countP other.othersActive ≤
        world.leases.countP other.othersActive := by
      change (call.row :: world.leases.filter fun lease => !call.address.isOf lease).countP
        other.othersActive ≤ world.leases.countP other.othersActive
      rw [countP_cons_of_neg (by
        rw [inactive active (weaken within (by omega))]
        exact Bool.false_ne_true)]
      exact filter_sublist.countP_le
    have before := held.counted maximum accepts active within
    omega
  · intro accepts within source member same live
    have address : other.holdsAddress other.address := by
      simp [Call.holdsAddress, accepts, weaken within (show 1 ≤ 9 by omega)]
    dsimp only [World.commit] at member
    split at member
    next stores =>
      cases mem_cons.mp member with
      | inl new =>
        rw [new] at same
        exact (addresses stores address same).elim
      | inr old =>
        obtain ⟨before, within', rfl⟩ := mem_map.mp old
        split at live
        · cases live
        next kept =>
          rw [if_neg kept] at same ⊢
          exact held.erased accepts within before within' same live
    · exact held.erased accepts within source member same live
  · intro written lease member
    cases mem_cons.mp member with
    | inl new =>
      rw [new]
      by_contra shares
      have shares := eq_true_of_ne_false shares
      have active := (sharesEndpoint_active shares).1
      have idle := inactive active (weaken written (by omega))
      rw [Call.sharesEndpoint, idle, Bool.false_and] at shares
      cases shares
    | inr old => exact held.unique written lease (mem_filter.mp old).1

end held

def addressOf (lease : LeaseRow) : Address :=
  ⟨lease.communityId, lease.author, lease.installationId⟩

theorem isOf_iff_addressOf {address : Address} {lease : LeaseRow} :
    address.isOf lease ↔ addressOf lease = address := by
  rw [isOf_iff]
  constructor
  · intro same
    rw [addressOf, same.1, same.2.1, same.2.2]
  · intro same
    rw [← same]
    exact ⟨rfl, rfl, rfl⟩

/-- Locks exclude each other, and calls rely on what they found. -/
structure Sound (world : World) : Prop where
  addresses : Exclusive Call.holdsAddress world.calls
  rows : Exclusive Call.holdsRow world.calls
  gates : Exclusive Call.holdsGate world.calls
  shared : ∀ call ∈ world.calls, ∀ insert ∈ world.inserts, ∀ community,
    call.holdsGate community → insert.holdsGate community = false
  held : ∀ call ∈ world.calls, Held world call
  keyed : (world.leases.map addressOf).Nodup
  endpoints : ∀ lease ∈ world.leases, ∀ other ∈ world.leases,
    lease.communityId = other.communityId → lease.author = other.author →
      lease.active.isSome →
        lease.active.map (fun active => (active.appProfile, active.endpointHash)) =
          other.active.map (fun active => (active.appProfile, active.endpointHash)) →
            lease.installationId = other.installationId

section sound

theorem Sound.same (sound : Sound world) (leases : next.leases = world.leases)
    (sources : next.sources = world.sources) (calls : next.calls = world.calls)
    (shared : ∀ insert ∈ next.inserts, ∀ community, insert.holdsGate community →
      (∃ old ∈ world.inserts, old.holdsGate community) ∨
        ∀ call ∈ world.calls, call.holdsGate community = false) : Sound next := by
  constructor
  · rw [calls]
    exact sound.addresses
  · rw [calls]
    exact sound.rows
  · rw [calls]
    exact sound.gates
  · intro call member insert within community holds
    rw [calls] at member
    by_contra gate
    cases shared insert within community (eq_true_of_ne_false gate) with
    | inl before =>
      obtain ⟨old, isOld, held⟩ := before
      rw [sound.shared call member old isOld community holds] at held
      cases held
    | inr free =>
      rw [free call member] at holds
      cases holds
  · intro call member
    rw [calls] at member
    exact (sound.held call member).same leases sources
  · rw [leases]
    exact sound.keyed
  · rw [leases]
    exact sound.endpoints

theorem Sound.called (sound : Sound world) (input : Input) :
    Sound { world with calls := world.calls ++ [input.call world.clock] } := by
  have within (first : ℕ) (positive : 0 < first) :
      (input.call world.clock).within first = false := by
    simp [Input.call, Call.within, Phase.rank]
    omega
  have gate (community : CommunityId) : (input.call world.clock).holdsGate community = false := by
    rw [Call.holdsGate, within 3 (by omega), Bool.and_false]
  constructor
  · apply sound.addresses.concat
    intro address
    rw [Call.holdsAddress, within 1 (by omega), Bool.and_false]
  · apply sound.rows.concat
    intro address
    rw [Call.holdsRow, Call.writes, within 10 (by omega), within 5 (by omega), Bool.and_false,
      Bool.or_false, Bool.and_false]
  · exact sound.gates.concat gate
  · intro call member insert isInsert community holds
    cases mem_append.mp member with
    | inl before => exact sound.shared call before insert isInsert community holds
    | inr new =>
      rw [mem_singleton.mp new, gate] at holds
      cases holds
  · intro call member
    cases mem_append.mp member with
    | inl before => exact (sound.held call before).same rfl rfl
    | inr new =>
      rw [mem_singleton.mp new]
      constructor
      · intro early
        rw [within 5 (by omega)] at early
        cases early
      · intro _ early
        rw [Call.writes, within 10 (by omega)] at early
        cases early
      · intro _ _ _ early
        rw [within 7 (by omega)] at early
        cases early
      · intro _ early
        rw [within 9 (by omega)] at early
        cases early
      · intro early
        rw [Call.writes, within 10 (by omega)] at early
        cases early
  · exact sound.keyed
  · exact sound.endpoints

theorem mem_set_iff {α : Type} {slots : List α} {slot other : α}
    (member : other ∈ slots.set index slot) : other = slot ∨ other ∈ slots := by
  obtain ⟨position, found⟩ := mem_iff_getElem?.mp member
  cases getElem?_set found with
  | inl changed => exact .inl changed.2
  | inr kept => exact .inr (mem_of_getElem? kept.2)

theorem Sound.setCall (sound : Sound world) (found : world.calls[index]? = some call)
    (addresses : ∀ address, moved.holdsAddress address →
      call.holdsAddress address ∨
        others index (·.holdsAddress address) world.calls = false)
    (gates : ∀ community, moved.holdsGate community → call.holdsGate community ∨
      others index (·.holdsGate community) world.calls = false ∧
        ∀ insert ∈ world.inserts, insert.holdsGate community = false)
    (rows : ∀ address, moved.holdsRow address → call.holdsRow address ∨
      others index (·.holdsRow address) world.calls = false)
    (held : Held world moved) : Sound { world with calls := world.calls.set index moved } := by
  have member := mem_of_getElem? found
  constructor
  · apply sound.addresses.set
    intro address holds
    cases addresses address holds with
    | inl before => exact .inl ⟨call, found, before⟩
    | inr free => exact .inr free
  · apply sound.rows.set
    intro address holds
    cases rows address holds with
    | inl before => exact .inl ⟨call, found, before⟩
    | inr free => exact .inr free
  · apply sound.gates.set
    intro community holds
    cases gates community holds with
    | inl before => exact .inl ⟨call, found, before⟩
    | inr free => exact .inr free.1
  · intro other isOther insert isInsert community holds
    cases mem_set_iff isOther with
    | inl new =>
      rw [new] at holds
      cases gates community holds with
      | inl before => exact sound.shared call member insert isInsert community before
      | inr free => exact free.2 insert isInsert
    | inr old => exact sound.shared other old insert isInsert community holds
  · intro other isOther
    cases mem_set_iff isOther with
    | inl new =>
      rw [new]
      exact held.same rfl rfl
    | inr old => exact (sound.held other old).same rfl rfl
  · exact sound.keyed
  · exact sound.endpoints

theorem Sound.advance (sound : Sound world) (found : world.calls[index]? = some call)
    (advance : Advance world index call moved) :
    Sound { world with calls := world.calls.set index moved } :=
  sound.setCall found advance.holdsAddress advance.holdsGate advance.holdsRow
    ((sound.held call (mem_of_getElem? found)).advance advance)

theorem finish_idle (outcome : Option AcceptLeaseOutcome) :
    (∀ address, (call.finish outcome).holdsAddress address = false) ∧
      (∀ community, (call.finish outcome).holdsGate community = false) ∧
        ∀ address, (call.finish outcome).holdsRow address = false := by
  refine ⟨?_, ?_, ?_⟩
  · intro address
    rw [Call.holdsAddress, within_of_done, Bool.and_false]
  · intro community
    rw [Call.holdsGate, within_of_done, Bool.and_false]
  · intro address
    rw [Call.holdsRow, Call.writes, within_of_done, within_of_done, Bool.and_false, Bool.or_false,
      Bool.and_false]

theorem Sound.finish (sound : Sound world) (found : world.calls[index]? = some call)
    (outcome : Option AcceptLeaseOutcome) :
    Sound { world with calls := world.calls.set index (call.finish outcome) } := by
  obtain ⟨addresses, gates, rows⟩ := @finish_idle call outcome
  apply sound.setCall found
  · intro address holds
    rw [addresses] at holds
    cases holds
  · intro community holds
    rw [gates] at holds
    cases holds
  · intro address holds
    rw [rows] at holds
    cases holds
  · exact held_finish outcome

theorem addressOf_row : addressOf call.row = call.address := rfl

theorem Sound.commit (sound : Sound world) (found : world.calls[index]? = some call)
    (phase : call.phase = .backfilled) : Sound (world.commit index call) := by
  have member := mem_of_getElem? found
  have own : Held world call := sound.held call member
  have within (first : ℕ) (early : first ≤ 11) : call.within first := by
    simp [Call.within, phase, Phase.rank, early]
  have written : call.writes := within 10 (by omega)
  have row : call.holdsRow call.address := by
    simp [Call.holdsRow, written]
  have finished := sound.finish found (some .accepted)
  have leases : (world.commit index call).leases =
      call.row :: world.leases.filter fun lease => !call.address.isOf lease := rfl
  constructor
  · exact finished.addresses
  · exact finished.rows
  · exact finished.gates
  · exact finished.shared
  · intro other isOther
    obtain ⟨position, isAt⟩ := mem_iff_getElem?.mp isOther
    cases getElem?_set isAt with
    | inl new =>
      rw [new.2]
      exact held_finish _
    | inr old =>
      obtain ⟨apart, before⟩ := old
      apply (sound.held other (mem_of_getElem? before)).commit
      · intro otherRow same
        rw [← same] at otherRow
        exact apart (sound.rows position index other call _ before found otherRow row)
      · intro accepts otherAddress same
        have address : call.holdsAddress call.address := by
          simp [Call.holdsAddress, accepts, within 1 (by omega)]
        rw [← same] at otherAddress
        exact apart (sound.addresses position index other call _ before found otherAddress
          address)
      · intro active otherGate same
        have gate : call.holdsGate call.address.community := by
          simp [Call.holdsGate, active, within 3 (by omega)]
        rw [← same] at otherGate
        exact apart (sound.gates position index other call _ before found otherGate gate)
  · rw [leases, map_cons, nodup_cons, addressOf_row]
    constructor
    · intro again
      obtain ⟨lease, isLease, same⟩ := mem_map.mp again
      have kept := (mem_filter.mp isLease).2
      rw [isOf_iff_addressOf.mpr same] at kept
      cases kept
    · exact sound.keyed.sublist (filter_sublist.map _)
  · have apart (lease : LeaseRow) (isLease : lease ∈ world.leases.filter fun lease =>
        !call.address.isOf lease) (community : lease.communityId = call.address.community)
        (author : lease.author = call.address.author) (active : lease.active.isSome) :
        lease.active.map (fun active => (active.appProfile, active.endpointHash)) ≠
          call.active.map fun active => (active.appProfile, active.endpointHash) := by
      intro same
      obtain ⟨isIn, kept⟩ := mem_filter.mp isLease
      have unique := own.unique written lease isIn
      have elsewhere : lease.installationId ≠ call.address.installationId := by
        intro here
        rw [isOf_iff.mpr ⟨community, author, here⟩] at kept
        cases kept
      rw [Call.sharesEndpoint, decide_eq_true same, Bool.and_true] at unique
      simp [Call.othersActive, community, author, active, elsewhere] at unique
    intro lease isLease other isOther community author active same
    have otherActive : other.active.isSome := by
      rw [← Option.isSome_map, ← same, Option.isSome_map]
      exact active
    rw [leases] at isLease isOther
    cases mem_cons.mp isLease with
    | inl new =>
      cases mem_cons.mp isOther with
      | inl both => rw [new, both]
      | inr old =>
        rw [new] at community author same
        exact (apart other old community.symm author.symm otherActive same.symm).elim
    | inr before =>
      cases mem_cons.mp isOther with
      | inl new =>
        rw [new] at community author same
        exact (apart lease before community author active same).elim
      | inr old =>
        exact sound.endpoints lease (mem_filter.mp before).1 other
          (mem_filter.mp old).1 community author active same

/-- What `disable_push_endpoint` does to a row. -/
def disabled (address : Address) (generation : ℤ) (lease : LeaseRow) : LeaseRow :=
  if lease.isAt address.community address.author address.installationId &&
      lease.generation = generation && lease.active.isSome && lease.endpointEnabled then
    { lease with endpointEnabled := false }
  else lease

theorem disabled_kept {address : Address} {generation : ℤ} {lease : LeaseRow} :
    addressOf (disabled address generation lease) = addressOf lease ∧
      (disabled address generation lease).active = lease.active ∧
        (disabled address generation lease).sourceEventId = lease.sourceEventId := by
  unfold disabled
  split <;> exact ⟨rfl, rfl, rfl⟩

theorem step_disable (address : Address) (generation : ℤ) :
    (world.calls.any (·.holdsRow address) ∧
        world.step (.disable address generation) = world) ∨
      (∀ call ∈ world.calls, call.holdsRow address = false) ∧
        world.step (.disable address generation) =
          { world with leases := world.leases.map (disabled address generation) } := by
  by_cases waits : world.calls.any (·.holdsRow address)
  · exact .inl ⟨waits, if_pos waits⟩
  · right
    constructor
    · intro call member
      by_contra holds
      exact waits (any_eq_true.mpr ⟨call, member, eq_true_of_ne_false holds⟩)
    · exact if_neg waits

theorem Sound.disable (sound : Sound world) (address : Address) (generation : ℤ) :
    Sound (world.step (.disable address generation)) := by
  cases @step_disable world address generation with
  | inl waits =>
    rw [waits.2]
    exact sound
  | inr changed =>
    obtain ⟨free, same⟩ := changed
    rw [same]
    have kept (lease : LeaseRow) := @disabled_kept address generation lease
    have parts (lease : LeaseRow) :
        (disabled address generation lease).communityId = lease.communityId ∧
          (disabled address generation lease).author = lease.author ∧
            (disabled address generation lease).installationId = lease.installationId := by
      have address := (kept lease).1
      simp only [addressOf, Address.mk.injEq] at address
      exact address
    constructor
    · exact sound.addresses
    · exact sound.rows
    · exact sound.gates
    · exact sound.shared
    · intro call member
      have held := sound.held call member
      apply @Held.map world { world with leases := world.leases.map (disabled address generation) }
        call held (disabled address generation) rfl rfl
      · intro lease
        simp only [Address.isOf, LeaseRow.isAt, parts lease]
      · intro lease
        simp only [Call.othersActive, parts lease, (kept lease).2.1]
      · intro lease
        simp only [Call.sharesEndpoint, Call.othersActive, parts lease, (kept lease).2.1]
      · intro row lease isOf
        have elsewhere : address.isOf lease = false := by
          by_contra both
          have first := isOf_iff_addressOf.mp isOf
          have second := isOf_iff_addressOf.mp (eq_true_of_ne_false both)
          rw [← first.symm.trans second] at free
          rw [free call member] at row
          cases row
        have unchanged : lease.isAt address.community address.author address.installationId =
          false := elsewhere
        rw [disabled, unchanged]
        rfl
    · rw [map_map, show addressOf ∘ disabled address generation = addressOf from
        funext fun lease => (kept lease).1]
      exact sound.keyed
    · intro lease isLease other isOther
      obtain ⟨first, isFirst, rfl⟩ := mem_map.mp isLease
      obtain ⟨second, isSecond, rfl⟩ := mem_map.mp isOther
      rw [(kept first).2.1, (kept second).2.1, (parts first).1, (parts first).2.1,
        (parts first).2.2, (parts second).1, (parts second).2.1, (parts second).2.2]
      exact sound.endpoints first isFirst second isSecond

variable {insert : Insert}

theorem Sound.setInsert (sound : Sound world)
    (gates : ∀ community, insert.holdsGate community →
      (∃ old ∈ world.inserts, old.holdsGate community) ∨
        ∀ call ∈ world.calls, call.holdsGate community = false) :
    Sound (world.setInsert index insert) := by
  apply @Sound.same world (world.setInsert index insert) sound rfl rfl rfl
  intro other member community holds
  cases mem_set_iff member with
  | inl new =>
    rw [new] at holds
    exact gates community holds
  | inr old => exact .inl ⟨other, old, holds⟩

theorem holdsGate_of_gates {old : Insert} (member : old ∈ world.inserts)
    (gates : insert.gates = old.gates) (open' : old.phase ≠ .ended) (community : CommunityId)
    (holds : insert.holdsGate community) :
    (∃ old ∈ world.inserts, old.holdsGate community) ∨
      ∀ call ∈ world.calls, call.holdsGate community = false := by
  left
  refine ⟨old, member, ?_⟩
  simp only [Insert.holdsGate, Bool.and_eq_true, decide_eq_true_eq] at holds ⊢
  rw [← gates]
  exact ⟨open', holds.2⟩

theorem Sound.step (sound : Sound world) (label : Label) : Sound (world.step label) := by
  have before (insert : Insert) (member : insert ∈ world.inserts) (community : CommunityId)
      (holds : insert.holdsGate community) :
      (∃ old ∈ world.inserts, old.holdsGate community) ∨
        ∀ call ∈ world.calls, call.holdsGate community = false :=
    .inl ⟨insert, member, holds⟩
  have ended (insert : Insert) (done : insert.phase = .ended) (community : CommunityId)
      (holds : insert.holdsGate community) :
      (∃ old ∈ world.inserts, old.holdsGate community) ∨
        ∀ call ∈ world.calls, call.holdsGate community = false := by
    simp [Insert.holdsGate, done] at holds
  cases label with
  | tick now => exact @Sound.same world (world.step (.tick now)) sound rfl rfl rfl before
  | call input => exact sound.called input
  | advance index =>
    dsimp only [World.step]
    split
    next call found =>
      split
      next moved isNext => exact sound.advance found (advance_of_next isNext)
      · exact sound
    · exact sound
  | commit index =>
    dsimp only [World.step]
    split
    next call found =>
      split
      next phase => exact sound.commit found phase
      · exact sound
    · exact sound
  | fail index =>
    dsimp only [World.step]
    split
    next call found =>
      split
      · exact sound.finish found none
      · exact sound
    · exact sound
  | disable address generation => exact sound.disable address generation
  | begin =>
    apply @Sound.same world (world.step .begin) sound rfl rfl rfl
    intro insert member community holds
    cases mem_append.mp member with
    | inl old => exact before insert old community holds
    | inr new =>
      rw [mem_singleton.mp new] at holds
      simp [Insert.holdsGate] at holds
  | insert index row =>
    dsimp only [World.step]
    split
    next insert found =>
      split
      next ready =>
        unfold World.insertRow
        split
        · exact sound
        · exact sound.setInsert (holdsGate_of_gates (mem_of_getElem? found) rfl
            (by rw [ready]; exact nofun))
      · exact sound
    · exact sound
  | lockShared index =>
    dsimp only [World.step]
    split
    next insert found =>
      split
      next row triggered =>
        split
        · exact sound
        next free =>
          apply sound.setInsert
          intro community holds
          simp only [Insert.holdsGate, Bool.and_eq_true, contains_cons, Bool.or_eq_true,
            beq_iff_eq] at holds
          cases holds.2 with
          | inl new =>
            right
            intro call member
            by_contra gate
            rw [new] at gate
            exact free (any_eq_true.mpr ⟨call, member, eq_true_of_ne_false gate⟩)
          | inr old =>
            refine before insert (mem_of_getElem? found) community ?_
            simp [Insert.holdsGate, triggered]
            simpa using old
      · exact sound
    · exact sound
  | enqueue index =>
    dsimp only [World.step]
    split
    next insert found =>
      split
      next row locked =>
        exact sound.setInsert (holdsGate_of_gates (mem_of_getElem? found) rfl
          (by rw [locked]; exact nofun))
      · exact sound
    · exact sound
  | commitInsert index =>
    dsimp only [World.step]
    split
    next insert found =>
      split
      · have next : Sound (world.setInsert index { insert with phase := .ended }) :=
          sound.setInsert (ended _ rfl)
        exact next.same rfl rfl rfl fun insert member community holds =>
          .inl ⟨insert, member, holds⟩
      · exact sound
    · exact sound
  | rollback index =>
    dsimp only [World.step]
    split
    · exact sound.setInsert (ended _ rfl)
    · exact sound
  | deleteEvent community id =>
    exact @Sound.same world (world.step (.deleteEvent community id)) sound rfl rfl rfl before
  | matched community id =>
    exact @Sound.same world (world.step (.matched community id)) sound rfl rfl rfl before

end sound

end Buzz.PushLease
