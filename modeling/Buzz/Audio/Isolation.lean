import Buzz.Audio.Adoption

/-! Two communities with a channel of the same UUID. -/

namespace Buzz.Audio

open Nostr Library Library.Runs List
open Buzz.Tunnel (SessionKeys SessionLease RuntimeId)

inductive FenceVerdict
  | accept (advanced : Bool)
  | rejectStale (known : ℕ)
  deriving DecidableEq

def FenceVerdict.known : FenceVerdict → Option ℕ
  | .accept _ => none
  | .rejectStale known => some known

structure GenerationFloor where
  seen : Keyed Uuid ℕ

namespace GenerationFloor

variable (self : GenerationFloor)

def check (sessionId : Uuid) (generation : ℕ) : FenceVerdict × GenerationFloor :=
  match self.seen.get sessionId with
  | some known =>
    if generation < known then (.rejectStale known, self)
    else if known < generation then (.accept true, ⟨self.seen.insert sessionId generation⟩)
    else (.accept false, self)
  | none => (.accept false, ⟨self.seen.insert sessionId generation⟩)

def forget (sessionId : Uuid) : GenerationFloor := ⟨self.seen.erase sessionId⟩

end GenerationFloor

/-- `holder` is the community whose check has set the floor of a session. -/
structure Tenants where
  owners : Owners
  floor : GenerationFloor
  holder : Keyed Uuid CommunityId

inductive TenantStep
  | owners (step : OwnerStep)
  | lostFor (keys : SessionKeys)
  | drainFor (keys : SessionKeys)
  | drain (keys : SessionKeys) (generation : ℕ)
  | check (keys : SessionKeys) (generation : ℕ)
  | forget (keys : SessionKeys)
  deriving DecidableEq

def TenantStep.floorUsed : TenantStep → Option (Uuid × Option ℕ)
  | .check keys generation => some (keys.sessionId, some generation)
  | .forget keys => some (keys.sessionId, none)
  | _ => none

namespace Tenants

variable (self : Tenants)

def start : Tenants := ⟨.start, ⟨.empty⟩, .empty⟩

def check (keys : SessionKeys) (generation : ℕ) : Tenants :=
  let (_, floor) := self.floor.check keys.sessionId generation
  { self with
    floor
    holder :=
      if self.floor.seen.get keys.sessionId = floor.seen.get keys.sessionId then self.holder
      else self.holder.insert keys.sessionId keys.communityId }

def step : TenantStep → Tenants
  | .owners step => { self with owners := self.owners.step step }
  | .lostFor _ => self
  | .drainFor _ => self
  | .drain keys generation => { self with owners := self.owners.drain keys.sessionId generation }
  | .check keys generation => self.check keys generation
  | .forget keys =>
    { self with
      floor := self.floor.forget keys.sessionId
      holder := self.holder.erase keys.sessionId }

def shown : TenantStep → Option ℕ
  | .owners step =>
    match self.owners.returned step with
    | some (.ofEpoch epoch) => some epoch
    | _ => none
  | .lostFor keys => self.owners.registry.lostFor keys.sessionId
  | .drainFor keys => self.owners.registry.drainFor keys.sessionId
  | _ => none

def known : TenantStep → Option (Uuid × ℕ)
  | .check keys generation =>
    (self.floor.check keys.sessionId generation).1.known.map fun known => (keys.sessionId, known)
  | _ => none

def onBehalf : TenantStep → Option CommunityId
  | .owners (.recheck task) =>
    match self.owners.attaching.get task with
    | some (.rechecking _ epoch _) =>
      (self.owners.renewers[epoch]?).map (·.lease.communityId)
    | _ => none
  | .owners (.release keys _) => some keys.communityId
  | .owners step => (self.owners.attached step).map SessionLease.communityId
  | .lostFor keys => some keys.communityId
  | .drainFor keys => some keys.communityId
  | .drain keys _ => some keys.communityId
  | .check keys _ => some keys.communityId
  | .forget keys => some keys.communityId

def entryUsed : TenantStep → Option (Uuid × Option ℕ)
  | .owners (.attach task) =>
    if self.owners.registry.draining then none
    else (self.owners.attached (.attach task)).map fun lease => (lease.sessionId, none)
  | .owners (.insert task) =>
    (self.owners.attached (.insert task)).map fun lease => (lease.sessionId, none)
  | .owners (.recheck task) =>
    match self.owners.attaching.get task with
    | some (.rechecking sessionId _ generation) =>
      if self.owners.registry.draining then some (sessionId, some generation) else none
    | _ => none
  | .owners (.release keys generation) => some (keys.sessionId, some generation)
  | .lostFor keys => some (keys.sessionId, none)
  | .drainFor keys => some (keys.sessionId, none)
  | .drain keys generation => some (keys.sessionId, some generation)
  | _ => none

end Tenants

/-- The renewers of other communities are as they were. -/
structure Owners.Untouched (owners next : Owners) (community : CommunityId) : Prop where
  renewers : ∀ (epoch : ℕ) (renewer : Renewer), owners.renewers[epoch]? = some renewer →
    renewer.lease.communityId ≠ community → next.renewers[epoch]? = some renewer
  entries : ∀ sessionId entry renewer, owners.registry.entries.get sessionId = some entry →
    owners.renewers[entry.epoch]? = some renewer → renewer.lease.communityId ≠ community →
      next.registry.entries.get sessionId = some entry

namespace Tenants

/-- A call returns, cancels, releases and advances nothing of another community. -/
structure Isolated (tenants : Tenants) (call : TenantStep) (community : CommunityId) : Prop where
  leases : tenants.owners.Untouched (tenants.step call).owners community
  signals : ∀ epoch ∈ tenants.shown call, ∀ renewer,
    (tenants.step call).owners.renewers[epoch]? = some renewer →
      renewer.lease.communityId = community
  floors : ∀ sessionId other, tenants.holder.get sessionId = some other → other ≠ community →
    (tenants.step call).floor.seen.get sessionId = tenants.floor.seen.get sessionId
  known : ∀ found ∈ tenants.known call, ∀ other, tenants.holder.get found.1 = some other →
    other = community

def EntryOwn (tenants : Tenants) (sessionId : Uuid) (generation : Option ℕ)
    (community : CommunityId) : Prop :=
  ∀ entry ∈ tenants.owners.registry.entries.get sessionId,
    (∀ wanted ∈ generation, entry.generation = wanted) →
      ∀ renewer ∈ tenants.owners.renewers[entry.epoch]?, renewer.lease.communityId = community

def FloorOwn (tenants : Tenants) (sessionId : Uuid) (after : Option ℕ) (community : CommunityId) :
    Prop :=
  ∀ other ∈ tenants.holder.get sessionId,
    other = community ∨ tenants.floor.seen.get sessionId = after

def Own (tenants : Tenants) (call : TenantStep) (community : CommunityId) : Prop :=
  (∀ used ∈ tenants.entryUsed call, tenants.EntryOwn used.1 used.2 community) ∧
    ∀ used ∈ call.floorUsed, tenants.FloorOwn used.1 used.2 community

end Tenants

section registry

variable {owners : Owners} {community : CommunityId} {sessionId : Uuid} {generation epoch task : ℕ}
  {turn : Renewer → Renewer} {keys : SessionKeys} {lease : SessionLease} {next : Owners}

theorem untouched_same (renewers : next.renewers = owners.renewers)
    (entries : next.registry.entries = owners.registry.entries) :
    owners.Untouched next community where
  renewers epoch renewer isRenewer _ := by
    rw [renewers]
    exact isRenewer
  entries sessionId entry renewer isEntry _ _ := by
    rw [entries]
    exact isEntry

theorem untouched_finish :
    owners.Untouched (next.finish task) community ↔ owners.Untouched next community :=
  ⟨fun untouched => ⟨untouched.renewers, untouched.entries⟩,
    fun untouched => ⟨untouched.renewers, untouched.entries⟩⟩

theorem untouched_changeRenewer {next : Owners}
    (own : ∀ renewer ∈ owners.renewers[epoch]?, renewer.lease.communityId = community) :
    owners.Untouched (next.changeRenewer epoch turn) community ↔
      owners.Untouched next community := by
  have others {place : ℕ} {renewer : Renewer} (isRenewer : owners.renewers[place]? = some renewer)
      (other : renewer.lease.communityId ≠ community) :
      (next.changeRenewer epoch turn).renewers[place]? = next.renewers[place]? := by
    have elsewhere : epoch ≠ place := by
      rintro rfl
      exact other (own renewer isRenewer)
    rw [Owners.getElem?_changeRenewer]
    simp only [if_neg elsewhere, Option.map_id_fun', id_eq]
  constructor
  · intro untouched
    refine ⟨fun place renewer isRenewer other => ?_, untouched.entries⟩
    rw [← others isRenewer other]
    exact untouched.renewers place renewer isRenewer other
  · intro untouched
    refine ⟨fun place renewer isRenewer other => ?_, untouched.entries⟩
    rw [others isRenewer other]
    exact untouched.renewers place renewer isRenewer other

variable {entry : HuddleOwnerEntry}

theorem untouched_remove {base : List Renewer}
    (kept : ∀ (epoch : ℕ) (renewer : Renewer), owners.renewers[epoch]? = some renewer →
      renewer.lease.communityId ≠ community → base[epoch]? = some renewer)
    (isEntry : owners.registry.entries.get sessionId = some entry) :
    owners.Untouched (Owners.changeRenewer { owners with
        renewers := base
        registry := { owners.registry with entries := owners.registry.entries.erase sessionId } }
      entry.epoch turn) community ↔
      ∀ renewer ∈ owners.renewers[entry.epoch]?, renewer.lease.communityId = community := by
  constructor
  · intro untouched renewer isRenewer
    by_contra other
    have still := untouched.entries sessionId entry renewer isEntry isRenewer other
    rw [Owners.changeRenewer, Keyed.get_erase, if_pos rfl] at still
    cases still
  · intro own
    constructor
    · intro epoch renewer isRenewer other
      rw [Owners.getElem?_changeRenewer]
      refine (congrArg _ (kept epoch renewer isRenewer other)).trans (congrArg some (if_neg ?_))
      rintro rfl
      exact other (own renewer isRenewer)
    · intro session found renewer isFound isRenewer other
      rw [Owners.changeRenewer, Keyed.get_erase, if_neg]
      · exact isFound
      · rintro rfl
        cases isEntry.symm.trans isFound
        exact other (own renewer isRenewer)

variable {tenants : Tenants}

theorem entryOwn_some (isEntry : tenants.owners.registry.entries.get sessionId = some entry)
    (isGeneration : entry.generation = generation) :
    tenants.EntryOwn sessionId (some generation) community ↔
      ∀ renewer ∈ tenants.owners.renewers[entry.epoch]?, renewer.lease.communityId = community := by
  constructor
  · intro own
    exact own entry isEntry fun wanted isWanted => isGeneration.trans (Option.some.inj isWanted)
  · intro own found isFound _
    cases isEntry.symm.trans isFound
    exact own

theorem entryOwn_absent
    (absent : ∀ entry, tenants.owners.registry.entries.get sessionId = some entry →
      entry.generation ≠ generation) :
    tenants.EntryOwn sessionId (some generation) community := by
  intro entry isEntry wanted
  exact absurd (wanted generation rfl) (absent entry isEntry)

theorem untouched_drain :
    tenants.owners.Untouched (tenants.owners.drain sessionId generation) community ↔
      tenants.EntryOwn sessionId (some generation) community := by
  unfold Owners.drain
  rcases @Owners.removeIf_cases sessionId generation tenants.owners.registry with
    ⟨entry, isEntry, isGeneration, removed⟩ | ⟨absent, kept⟩
  · rw [removed, entryOwn_some isEntry isGeneration]
    exact untouched_remove (fun _ _ isRenewer _ => isRenewer) isEntry
  · rw [kept]
    exact ⟨fun _ => entryOwn_absent absent, fun _ => untouched_same rfl rfl⟩

theorem kept_empty (renewer : Renewer) (isRenewer : owners.renewers[epoch]? = some renewer)
    (other : renewer.lease.communityId ≠ keys.communityId) :
    (owners.renewers.map (·.empty keys generation))[epoch]? = some renewer := by
  rw [getElem?_map, isRenewer]
  refine congrArg some (if_neg ?_)
  rintro ⟨sameKeys, -⟩
  exact other (congrArg SessionKeys.communityId sameKeys)

theorem untouched_release :
    tenants.owners.Untouched (tenants.owners.release keys generation) keys.communityId ↔
      tenants.EntryOwn keys.sessionId (some generation) keys.communityId := by
  unfold Owners.release
  rcases @Owners.removeIf_cases keys.sessionId generation tenants.owners.registry with
    ⟨entry, isEntry, isGeneration, removed⟩ | ⟨absent, kept⟩
  · rw [removed, entryOwn_some isEntry isGeneration]
    exact untouched_remove (fun _ => kept_empty) isEntry
  · rw [kept]
    exact ⟨fun _ => entryOwn_absent absent,
      fun _ => ⟨fun _ => kept_empty, fun _ _ _ isFound _ _ => isFound⟩⟩

theorem untouched_spawn {added : Renewer} (renewers : next.renewers = owners.renewers ++ [added])
    (entries : next.registry.entries = owners.registry.entries) :
    owners.Untouched next community where
  renewers epoch renewer isRenewer _ := by
    have inside := (List.getElem?_eq_some_iff.mp isRenewer).1
    rw [renewers]
    exact (getElem?_append_left inside).trans isRenewer
  entries sessionId entry renewer isEntry _ _ := by
    rw [entries]
    exact isEntry

end registry

namespace Tenants

variable {tenants : Tenants} {call : TenantStep} {community : CommunityId} {sessionId : Uuid}
  {generation epoch task : ℕ} {keys : SessionKeys} {lease : SessionLease}

theorem isolated_of_floor (sameFloor : (tenants.step call).floor = tenants.floor)
    (nothing : tenants.known call = none) : tenants.Isolated call community ↔
      tenants.owners.Untouched (tenants.step call).owners community ∧
        ∀ epoch ∈ tenants.shown call, ∀ renewer,
          (tenants.step call).owners.renewers[epoch]? = some renewer →
            renewer.lease.communityId = community := by
  constructor
  · exact fun isolated => ⟨isolated.leases, isolated.signals⟩
  · rintro ⟨leases, signals⟩
    refine ⟨leases, signals, fun _ _ _ _ => by rw [sameFloor], fun found isFound => ?_⟩
    rw [nothing] at isFound
    cases isFound

theorem own_of_entry {wanted : Option ℕ}
    (isUsed : tenants.entryUsed call = some (sessionId, wanted)) (nothing : call.floorUsed = none) :
    tenants.Own call community ↔ tenants.EntryOwn sessionId wanted community := by
  rw [Own, isUsed, nothing]
  constructor
  · exact (·.1 _ rfl)
  · intro own
    constructor
    · intro used isUsed
      cases isUsed
      exact own
    · intro used isNone
      cases isNone

theorem own_of_nothing (noEntry : tenants.entryUsed call = none) (noFloor : call.floorUsed = none) :
    tenants.Own call community := by
  rw [Own, noEntry, noFloor]
  constructor
  · intro used isNone
    cases isNone
  · intro used isNone
    cases isNone

theorem entryOwn_shown : tenants.EntryOwn sessionId none community ↔
    ∀ epoch ∈ tenants.owners.registry.lostFor sessionId, ∀ renewer,
      tenants.owners.renewers[epoch]? = some renewer → renewer.lease.communityId = community := by
  constructor
  · intro own epoch isShown renewer isRenewer
    obtain ⟨entry, isEntry, rfl⟩ := Option.map_eq_some_iff.mp isShown
    exact own entry isEntry (fun _ isNone => nomatch isNone) renewer isRenewer
  · intro shown entry isEntry _ renewer isRenewer
    exact shown entry.epoch (Option.map_eq_some_iff.mpr ⟨entry, isEntry, rfl⟩) renewer isRenewer

theorem isolated_lostFor : tenants.Isolated (.lostFor keys) community ↔
    tenants.Own (.lostFor keys) community := by
  rw [isolated_of_floor rfl rfl, own_of_entry rfl rfl, entryOwn_shown]
  exact and_iff_right (untouched_same rfl rfl)

theorem isolated_drainFor : tenants.Isolated (.drainFor keys) community ↔
    tenants.Own (.drainFor keys) community := by
  rw [isolated_of_floor rfl rfl, own_of_entry rfl rfl, entryOwn_shown]
  exact and_iff_right (untouched_same rfl rfl)

theorem isolated_drain : tenants.Isolated (.drain keys generation) community ↔
    tenants.Own (.drain keys generation) community := by
  rw [isolated_of_floor rfl rfl, own_of_entry rfl rfl, ← untouched_drain]
  exact and_iff_left fun epoch isShown => nomatch isShown

theorem isolated_release :
    tenants.Isolated (.owners (.release keys generation)) keys.communityId ↔
      tenants.Own (.owners (.release keys generation)) keys.communityId := by
  rw [isolated_of_floor rfl rfl, own_of_entry rfl rfl, ← untouched_release]
  exact and_iff_left fun epoch isShown => nomatch isShown

theorem isolated_attach (isAttached : tenants.owners.attached (.attach task) = some lease) :
    tenants.Isolated (.owners (.attach task)) lease.communityId ↔
      tenants.Own (.owners (.attach task)) lease.communityId := by
  have isTask := Owners.attached_attach isAttached
  rw [isolated_of_floor rfl rfl]
  simp only [shown, Tenants.step, Owners.step, Owners.returned]
  by_cases isDraining : tenants.owners.registry.draining
  · have noEntry : tenants.entryUsed (.owners (.attach task)) = none := by
      rw [entryUsed, if_pos isDraining]
    rw [Owners.attach_refused isTask isDraining]
    refine iff_of_true ⟨untouched_spawn rfl rfl, ?_⟩ (own_of_nothing noEntry rfl)
    intro epoch isShown
    cases isShown
  · have isUsed : tenants.entryUsed (.owners (.attach task)) = some (lease.sessionId, none) := by
      rw [entryUsed, if_neg isDraining, isAttached]
      rfl
    rw [own_of_entry isUsed rfl]
    cases isEntry : tenants.owners.registry.entries.get lease.sessionId with
    | none =>
      rw [Owners.attach_absent isTask isDraining isEntry]
      refine iff_of_true ⟨untouched_same rfl rfl, ?_⟩ ?_
      · intro epoch isShown
        cases isShown
      · intro entry isSome
        cases isEntry.symm.trans isSome
    | some existing =>
      rw [Owners.attach_existing isTask isDraining isEntry]
      refine Iff.trans (and_iff_right (untouched_spawn rfl rfl)) ?_
      constructor
      · intro signals entry isSome _ renewer isRenewer
        cases isEntry.symm.trans isSome
        have inside := (List.getElem?_eq_some_iff.mp isRenewer).1
        exact signals existing.epoch rfl renewer
          ((getElem?_append_left inside).trans isRenewer)
      · intro own epoch isShown renewer isRenewer
        cases isShown
        rcases Locks.getElem?_concat isRenewer with old | ⟨-, rfl⟩
        · exact own existing isEntry (fun wanted isNone => nomatch isNone) renewer old
        · rfl

theorem isolated_insert (isAttached : tenants.owners.attached (.insert task) = some lease) :
    tenants.Isolated (.owners (.insert task)) lease.communityId ↔
      tenants.Own (.owners (.insert task)) lease.communityId := by
  have isTask := Owners.attached_insert isAttached
  have isUsed : tenants.entryUsed (.owners (.insert task)) = some (lease.sessionId, none) := by
    rw [entryUsed, isAttached]
    rfl
  rw [isolated_of_floor rfl rfl, own_of_entry isUsed rfl]
  simp only [shown, Tenants.step, Owners.step, Owners.returned, Owners.insert, isTask]
  constructor
  · rintro ⟨untouched, -⟩ entry isEntry _ renewer isRenewer
    by_contra other
    have still := untouched.entries lease.sessionId entry renewer isEntry isRenewer other
    have replaced := ((Keyed.get_insert _).trans (if_pos rfl)).symm.trans still
    cases replaced
    have inside := (List.getElem?_eq_some_iff.mp isRenewer).1
    exact Nat.lt_irrefl _ inside
  · intro own
    refine ⟨⟨?_, ?_⟩, ?_⟩
    · intro epoch renewer isRenewer _
      have inside := (List.getElem?_eq_some_iff.mp isRenewer).1
      exact (getElem?_append_left inside).trans isRenewer
    · intro sessionId entry renewer isEntry isRenewer other
      refine (Keyed.get_insert _).trans ((if_neg ?_).trans isEntry)
      rintro rfl
      exact other (own entry isEntry (fun wanted isNone => nomatch isNone) renewer isRenewer)
    · intro epoch isShown renewer isRenewer
      cases isShown
      cases getElem?_concat_length.symm.trans isRenewer
      rfl

theorem isolated_recheck {renewer : Renewer}
    (isTask : tenants.owners.attaching.get task = some (.rechecking sessionId epoch generation))
    (isRenewer : tenants.owners.renewers[epoch]? = some renewer) :
    tenants.Isolated (.owners (.recheck task)) renewer.lease.communityId ↔
      tenants.Own (.owners (.recheck task)) renewer.lease.communityId := by
  have own : ∀ other ∈ tenants.owners.renewers[epoch]?,
      other.lease.communityId = renewer.lease.communityId := by
    intro other isOther
    cases isRenewer.symm.trans isOther
    rfl
  rw [isolated_of_floor rfl rfl]
  by_cases isDraining : tenants.owners.registry.draining
  · have isUsed : tenants.entryUsed (.owners (.recheck task)) =
        some (sessionId, some generation) := by
      simp only [entryUsed, isTask, if_pos isDraining]
    have changed := @untouched_changeRenewer tenants.owners renewer.lease.communityId epoch
      Renewer.drained (tenants.owners.drain sessionId generation) own
    rw [own_of_entry isUsed rfl, ← untouched_drain, ← changed]
    simp only [Tenants.step, Owners.step, Owners.recheck, isTask, if_pos isDraining]
    refine Iff.trans (and_iff_left ?_) untouched_finish
    intro epoch isShown
    cases isShown
  · have noEntry : tenants.entryUsed (.owners (.recheck task)) = none := by
      simp only [entryUsed, isTask, if_neg isDraining]
    simp only [Tenants.step, Owners.step, Owners.recheck, isTask, if_neg isDraining]
    refine iff_of_true ⟨untouched_same rfl rfl, ?_⟩ (own_of_nothing noEntry rfl)
    intro epoch isShown
    cases isShown

theorem isolated_of_owners (sameOwners : (tenants.step call).owners = tenants.owners)
    (nothing : tenants.shown call = none) (noEntry : tenants.entryUsed call = none)
    {after : Option ℕ} (isUsed : call.floorUsed = some (sessionId, after))
    (elsewhere : ∀ other, other ≠ sessionId →
      (tenants.step call).floor.seen.get other = tenants.floor.seen.get other)
    (session : ∀ found ∈ tenants.known call, found.1 = sessionId)
    (here : (tenants.step call).floor.seen.get sessionId = tenants.floor.seen.get sessionId ∧
      tenants.known call = none ↔ tenants.floor.seen.get sessionId = after) :
    tenants.Isolated call community ↔ tenants.Own call community := by
  rw [Own, noEntry, isUsed]
  constructor
  · intro isolated
    refine ⟨fun used isNone => (nomatch isNone), fun used isUsed other isHolder => ?_⟩
    cases isUsed
    by_contra unowned
    obtain ⟨different, changed⟩ := not_or.mp unowned
    refine changed (here.mp ⟨isolated.floors sessionId other isHolder different, ?_⟩)
    refine Option.eq_none_iff_forall_not_mem.mpr fun found isFound => ?_
    rw [← session found isFound] at isHolder
    exact different (isolated.known found isFound other isHolder)
  · rintro ⟨-, own⟩
    have stays (other : CommunityId) (isHolder : tenants.holder.get sessionId = some other)
        (different : other ≠ community) :=
      here.mpr ((own _ rfl other isHolder).resolve_left different)
    constructor
    · rw [sameOwners]
      exact untouched_same rfl rfl
    · intro epoch isShown
      rw [nothing] at isShown
      cases isShown
    · intro other holder isHolder different
      by_cases same : other = sessionId
      · subst same
        exact (stays holder isHolder different).1
      · exact elsewhere other same
    · intro found isFound holder isHolder
      by_contra different
      rw [session found isFound] at isHolder
      rw [(stays holder isHolder different).2] at isFound
      cases isFound

theorem isolated_forget : tenants.Isolated (.forget keys) community ↔
    tenants.Own (.forget keys) community := by
  apply isolated_of_owners rfl rfl rfl rfl
  · intro other different
    exact (Keyed.get_erase _).trans (if_neg different)
  · exact fun found isFound => nomatch isFound
  · have gone : (tenants.step (.forget keys)).floor.seen.get keys.sessionId = none :=
      (Keyed.get_erase _).trans (if_pos rfl)
    rw [gone]
    exact (and_iff_left rfl).trans eq_comm

theorem check_cases : (∃ known, tenants.floor.seen.get sessionId = some known ∧
      ((generation < known ∧
          tenants.floor.check sessionId generation = (.rejectStale known, tenants.floor)) ∨
        (known < generation ∧ tenants.floor.check sessionId generation =
          (.accept true, ⟨tenants.floor.seen.insert sessionId generation⟩)) ∨
        (known = generation ∧
          tenants.floor.check sessionId generation = (.accept false, tenants.floor)))) ∨
    (tenants.floor.seen.get sessionId = none ∧ tenants.floor.check sessionId generation =
      (.accept false, ⟨tenants.floor.seen.insert sessionId generation⟩)) := by
  unfold GenerationFloor.check
  cases isSeen : tenants.floor.seen.get sessionId with
  | none => exact .inr ⟨rfl, rfl⟩
  | some known =>
    refine .inl ⟨known, rfl, ?_⟩
    dsimp only
    split
    next stale => exact .inl ⟨stale, rfl⟩
    next current =>
      split
      next advances => exact .inr (.inl ⟨advances, rfl⟩)
      next same => exact .inr (.inr ⟨by omega, rfl⟩)

variable {verdict : FenceVerdict} {floor : GenerationFloor}

theorem known_check (isCheck : tenants.floor.check keys.sessionId generation = (verdict, floor)) :
    tenants.known (.check keys generation) =
      verdict.known.map fun known => (keys.sessionId, known) := by
  rw [known, isCheck]

theorem floor_check (isCheck : tenants.floor.check keys.sessionId generation = (verdict, floor)) :
    (tenants.step (.check keys generation)).floor = floor := by
  simp only [Tenants.step, Tenants.check, isCheck]

theorem isolated_check : tenants.Isolated (.check keys generation) community ↔
    tenants.Own (.check keys generation) community := by
  have elsewhere (other : Uuid) (different : other ≠ keys.sessionId) :
      (tenants.step (.check keys generation)).floor.seen.get other =
        tenants.floor.seen.get other := by
    rcases @check_cases tenants keys.sessionId generation with
      ⟨known, isSeen, ⟨-, isCheck⟩ | ⟨-, isCheck⟩ | ⟨-, isCheck⟩⟩ | ⟨absent, isCheck⟩
    · rw [floor_check isCheck]
    · rw [floor_check isCheck]
      exact (Keyed.get_insert _).trans (if_neg different)
    · rw [floor_check isCheck]
    · rw [floor_check isCheck]
      exact (Keyed.get_insert _).trans (if_neg different)
  have inserted : (tenants.floor.seen.insert keys.sessionId generation).get keys.sessionId =
      some generation := (Keyed.get_insert _).trans (if_pos rfl)
  apply isolated_of_owners rfl rfl rfl rfl elsewhere
  · intro found isFound
    obtain ⟨known, -, rfl⟩ := Option.map_eq_some_iff.mp isFound
    rfl
  · rcases @check_cases tenants keys.sessionId generation with
      ⟨known, isSeen, ⟨stale, isCheck⟩ | ⟨advances, isCheck⟩ | ⟨same, isCheck⟩⟩ | ⟨absent, isCheck⟩
    · rw [floor_check isCheck, known_check isCheck, isSeen]
      refine iff_of_false (fun both => nomatch both.2) fun equal => ?_
      exact Nat.ne_of_gt stale (Option.some.inj equal)
    · rw [floor_check isCheck, known_check isCheck, inserted, isSeen]
      exact (and_iff_left rfl).trans eq_comm
    · rw [floor_check isCheck, known_check isCheck, isSeen, same]
      exact iff_of_true ⟨rfl, rfl⟩ rfl
    · rw [floor_check isCheck, known_check isCheck, inserted, absent]
      exact (and_iff_left rfl).trans eq_comm

theorem isolated_iff_own (isOnBehalf : tenants.onBehalf call = some community) :
    tenants.Isolated call community ↔ tenants.Own call community := by
  cases call with
  | lostFor keys => exact isolated_lostFor
  | drainFor keys => exact isolated_drainFor
  | drain keys generation => exact isolated_drain
  | check keys generation => exact isolated_check
  | forget keys => exact isolated_forget
  | owners step =>
    cases step with
    | release keys generation =>
      cases isOnBehalf
      exact isolated_release
    | recheck task =>
      rw [onBehalf] at isOnBehalf
      split at isOnBehalf
      next isTask =>
        obtain ⟨renewer, isRenewer, rfl⟩ := Option.map_eq_some_iff.mp isOnBehalf
        exact isolated_recheck isTask isRenewer
      · cases isOnBehalf
    | attach task =>
      obtain ⟨lease, isAttached, rfl⟩ := Option.map_eq_some_iff.mp isOnBehalf
      exact isolated_attach isAttached
    | insert task =>
      obtain ⟨lease, isAttached, rfl⟩ := Option.map_eq_some_iff.mp isOnBehalf
      exact isolated_insert isAttached
    | _ => cases isOnBehalf

end Tenants

/-- Exactly if every call finds nothing of theirs. -/
theorem tenants_isolated_iff (calls : List TenantStep) :
    EachStep Tenants.step (fun tenants call => ∀ community ∈ tenants.onBehalf call,
        tenants.Isolated call community) Tenants.start calls ↔
      EachStep Tenants.step (fun tenants call => ∀ community ∈ tenants.onBehalf call,
        tenants.Own call community) Tenants.start calls := by
  suffices same : (fun (tenants : Tenants) call => ∀ community ∈ tenants.onBehalf call,
      tenants.Isolated call community) = fun tenants call => ∀ community ∈ tenants.onBehalf call,
        tenants.Own call community by
    rw [same]
  funext tenants call
  exact propext (forall₂_congr fun community isOnBehalf => Tenants.isolated_iff_own isOnBehalf)

def otherKeys : SessionKeys := ⟨⟨.fill 9⟩, Owners.sampleKeys.sessionId⟩

def sampleShared : List TenantStep :=
  [.owners (.acquire (some 0) Owners.sampleKeys Owners.sampleRuntime), .owners (.attach 0),
    .owners (.insert 0), .owners (.recheck 0),
    .owners (.acquire (some 1) otherKeys Owners.sampleRuntime), .owners (.attach 1),
    .owners (.release otherKeys 1)]

theorem sampleShared_released :
    ¬ EachStep Tenants.step (fun tenants call => ∀ community ∈ tenants.onBehalf call,
      tenants.Isolated call community) Tenants.start sampleShared := by
  rintro ⟨-, -, -, -, -, -, last, -⟩
  have kept := (last otherKeys.communityId rfl).leases.entries Owners.sampleKeys.sessionId ⟨0, 1⟩
    _ (by decide +kernel) rfl (by decide +kernel)
  revert kept
  decide +kernel

end Buzz.Audio
