import Buzz.Replace.Convergence
import Buzz.Replace.Retired
import Buzz.Discovery.Emissions

/-! Discovery snapshots converge to the channel. -/

namespace Buzz.Discovery

open Nostr Buzz.Req Buzz.Replace Library.Register List

section statements

variable (state : State) (signer : Signer)

def State.LiveIs (kind : ℕ) (tags : List Tag) : Prop :=
  ∃ row, (state.coordinate signer kind).live state.store = [row] ∧ row.event.tags = tags

def State.snapshotsNow : List (ℕ × List Tag) := snapshots state.groupId state.channel state.members

def State.Settled : Prop := ∀ phase ∈ state.emissions, ∃ picked, phase = .emitting [] picked

def State.Converged : Prop :=
  state.Settled → state.emissions ≠ [] →
    ∀ snapshot ∈ state.snapshotsNow, state.LiveIs signer snapshot.1 snapshot.2

def Step.Within : Step → Prop
  | .readMembers _ => state.members.length ≤ memberLimit
  | .store index =>
    ∀ kind tags createdAt rest dated now,
      state.emissions[index]? = some (.emitting ((kind, tags) :: rest) (some createdAt)) →
        createdAtOf (signer.sign kind tags createdAt) = some dated →
          (kind, now) ∈ state.snapshotsNow → state.LiveIs signer kind now ∨ tags = now →
            if Covers (state.store.existing (state.coordinate signer kind).selects)
                ⟨dated, signer.eventId kind tags createdAt⟩ then
              state.LiveIs signer kind now
            else tags = now ∧ ∀ row ∈ state.store.rows,
              row.stamp ≠ ⟨dated, signer.eventId kind tags createdAt⟩
  | _ => True

def State.EachStep (holds : State → Step → Prop) (state : State) : List Step → Prop
  | [] => True
  | step :: rest => holds state step ∧ EachStep holds (state.step signer step) rest

end statements

section invariant

variable (state : State) (signer : Signer)

def State.Pending (snapshot : ℕ × List Tag) : Phase → Prop
  | .begun | .failed => True
  | .channelRead channel => channel = state.channel
  | .emitting remaining _ => snapshot ∈ remaining

def isDiscoveryKind (kind : ℕ) : Prop :=
  kind = kindNip29GroupMetadata ∨ kind = kindNip29GroupAdmins ∨ kind = kindNip29GroupMembers

structure State.Sound : Prop where
  kinds : ∀ remaining picked, .emitting remaining picked ∈ state.emissions →
    ∀ snapshot ∈ remaining, isDiscoveryKind snapshot.1
  described : state.emissions ≠ [] → ∀ snapshot ∈ state.snapshotsNow,
    state.LiveIs signer snapshot.1 snapshot.2 ∨
      ∃ phase ∈ state.emissions, state.Pending snapshot phase

end invariant

variable {state : State} {signer : Signer} {index : ℕ}

section stores

variable {kind other : ℕ} {tags : List Tag} {createdAt : ℕ} {rest : List (ℕ × List Tag)}

theorem snapshots_kind {groupId : String} {channel : ChannelRecord} {members : List MemberRecord}
    {snapshot : ℕ × List Tag} (member : snapshot ∈ snapshots groupId channel members) :
    isDiscoveryKind snapshot.1 := by
  simp only [snapshots, mem_cons, not_mem_nil, or_false] at member
  rcases member with rfl | rfl | rfl
  · exact .inl rfl
  · exact .inr (.inl rfl)
  · exact .inr (.inr rfl)

section

variable (isKind : isDiscoveryKind kind)

include isKind

theorem sign_kind :
    eventKindU32 (signer.sign kind tags createdAt) = kind := by
  rcases isKind with rfl | rfl | rfl <;> rfl

theorem sign_plain :
    purgedKind (signer.sign kind tags createdAt) = false := by
  rw [purgedKind, sign_kind isKind]
  rcases isKind with rfl | rfl | rfl <;> rfl

theorem sign_shares :
    (state.coordinate signer kind).shares (signer.sign kind tags createdAt) :=
  ⟨sign_kind isKind, rfl⟩

end

variable {store : Store} {row : Row}

theorem accepted_plain (plain : purgedKind row.event = false) :
    store.accepted row = none := by
  unfold Store.accepted Row.readStateKey
  cases row.dTag with
  | none => rfl
  | some dTag =>
    rw [Option.bind_some, not_isNipRs plain]
    rfl

theorem live_stored_apart (apart : kind ≠ other) (isKind : eventKindU32 row.event = kind) :
    (state.coordinate signer other).live (store.stored (state.coordinate signer kind) row) =
      (state.coordinate signer other).live store := by
  have ofKind {row : Row} {kind : ℕ} (selected : (state.coordinate signer kind).selects row) :
      eventKindU32 row.event = kind := by
    simp only [State.coordinate, Coordinate.selects, Coordinate.holds, Coordinate.kind,
      Bool.and_eq_true] at selected
    exact of_decide_eq_true selected.1.1.1.2
  have unselected : ¬ (state.coordinate signer other).selects row :=
    fun selected => apart (isKind.symm.trans (ofKind selected))
  unfold Coordinate.live
  rw [stored_rows, filter_cons_of_neg unselected]
  unfold Store.retire
  rw [filter_filterMap, ← filterMap_eq_filter]
  apply filterMap_congr
  intro old _
  by_cases selected : (state.coordinate signer kind).selects old
  · have skipped : (state.coordinate signer other).selects old = false :=
      eq_false_of_ne_true fun both => apart ((ofKind selected).symm.trans (ofKind both))
    have deleted : (state.coordinate signer other).selects { old with deleted := true } = false := by
      rw [Coordinate.selects, Bool.not_true, Bool.and_false]
    rw [if_pos selected]
    split
    · simp [Option.guard, skipped]
    · simp [Option.guard, skipped, deleted]
  · rw [if_neg selected]
    simp [Option.guard, Option.filter]

def State.snapshotRow (state : State) (signer : Signer) (kind : ℕ) (tags : List Tag)
    (createdAt : ℕ) (dated : ℤ) : Row :=
  (state.coordinate signer kind).rowOf (signer.sign kind tags createdAt) dated none

variable {dated : ℤ}

theorem snapshotRow_event :
    (state.snapshotRow signer kind tags createdAt dated).event = signer.sign kind tags createdAt :=
  rowOf_event

theorem snapshotRow_stamp : (state.snapshotRow signer kind tags createdAt dated).stamp =
    ⟨dated, signer.eventId kind tags createdAt⟩ := rowOf_stamp

theorem replaceAt_snapshot (isKind : isDiscoveryKind kind) (dated : ℤ) :
    (state.coordinate signer kind).replaceAt (some dated) state.store
        (signer.sign kind tags createdAt) none =
      if Covers (state.store.existing (state.coordinate signer kind).selects)
          ⟨dated, signer.eventId kind tags createdAt⟩ then .ok (state.store, false)
      else if (state.store.retire (state.coordinate signer kind).selects
          ((state.coordinate signer kind).erases (signer.sign kind tags createdAt))).rows.any
            (state.snapshotRow signer kind tags createdAt dated).sameKey then
        .ok (state.store, false)
      else .ok (state.store.stored (state.coordinate signer kind)
        (state.snapshotRow signer kind tags createdAt dated), true) := by
  have plain : state.store.accepted (state.snapshotRow signer kind tags createdAt dated) =
      none := accepted_plain (snapshotRow_event ▸ sign_plain isKind)
  have stamp := @snapshotRow_stamp state signer kind tags createdAt dated
  rw [replaceAt_some (sign_shares isKind)]
  unfold State.snapshotRow at plain stamp ⊢
  dsimp only
  rw [plain, stamp]
  simp [not_covers_none]

theorem conflict_stamp {selected erased : Row → Bool}
    (conflict : (store.retire selected erased).rows.any row.sameKey) :
    ∃ other ∈ store.rows, other.stamp = row.stamp := by
  obtain ⟨other, retired, same⟩ := any_eq_true.mp conflict
  have sameStamp := (sameKey_iff.mp same).2
  cases mem_retire retired with
  | inl kept => exact ⟨other, kept.1, sameStamp.symm⟩
  | inr marked =>
    obtain ⟨old, within, -, -, rfl⟩ := marked
    exact ⟨old, within, sameStamp.symm⟩

theorem storeSnapshot_cases (isKind : isDiscoveryKind kind) :
    state.storeSnapshot signer index kind tags createdAt rest = state.setPhase index .failed ∨
      ∃ dated, createdAtOf (signer.sign kind tags createdAt) = some dated ∧
        ((Covers (state.store.existing (state.coordinate signer kind).selects)
              ⟨dated, signer.eventId kind tags createdAt⟩ ∨
            ∃ row ∈ state.store.rows, row.stamp = ⟨dated, signer.eventId kind tags createdAt⟩) ∧
          state.storeSnapshot signer index kind tags createdAt rest =
            state.setPhase index (.emitting rest none) ∨
        ¬ Covers (state.store.existing (state.coordinate signer kind).selects)
            ⟨dated, signer.eventId kind tags createdAt⟩ ∧
          state.storeSnapshot signer index kind tags createdAt rest =
            State.setPhase { state with
              store := state.store.stored (state.coordinate signer kind)
                (state.snapshotRow signer kind tags createdAt dated) }
              index (.emitting rest none)) := by
  have replaced : state.store.replaceAddressableEvent state.communityId
      (signer.sign kind tags createdAt) (some state.channelId) =
        (state.coordinate signer kind).replaceAt (createdAtOf (signer.sign kind tags createdAt))
          state.store (signer.sign kind tags createdAt) none := by
    rw [← replace_eq_replaceAt]
    rfl
  unfold State.storeSnapshot
  rw [replaced]
  obtain ⟨dated, isDated⟩ : ∃ dated, createdAtOf (signer.sign kind tags createdAt) = dated := ⟨_, rfl⟩
  rw [isDated]
  cases dated with
  | none => exact .inl rfl
  | some dated =>
    refine .inr ⟨dated, rfl, ?_⟩
    rw [replaceAt_snapshot isKind dated]
    by_cases covered : Covers (state.store.existing (state.coordinate signer kind).selects)
        ⟨dated, signer.eventId kind tags createdAt⟩
    · rw [if_pos covered]
      exact .inl ⟨.inl covered, rfl⟩
    · rw [if_neg covered]
      split
      next conflict =>
        have taken := conflict_stamp conflict
        rw [snapshotRow_stamp] at taken
        exact .inl ⟨.inr taken, rfl⟩
      · exact .inr ⟨covered, rfl⟩

theorem liveIs_stored (isKind : isDiscoveryKind kind) : State.LiveIs { state with
      store := state.store.stored (state.coordinate signer kind)
        (state.snapshotRow signer kind tags createdAt dated) } signer kind tags := by
  refine ⟨_, live_stored (selects_rowOf (sign_shares isKind)), ?_⟩
  rw [snapshotRow_event]
  rfl

theorem liveIs_stored_apart {now : List Tag} (isKind : isDiscoveryKind kind)
    (apart : kind ≠ other) (isLive : state.LiveIs signer other now) :
    State.LiveIs { state with
      store := state.store.stored (state.coordinate signer kind)
        (state.snapshotRow signer kind tags createdAt dated) } signer other now := by
  obtain ⟨row, live, isNow⟩ := isLive
  refine ⟨row, ?_, isNow⟩
  rw [← live]
  apply live_stored_apart apart
  rw [snapshotRow_event]
  exact sign_kind isKind

end stores

section steps

variable {after : State} {phase found : Phase}

theorem State.Sound.set (sound : state.Sound signer) (isPhase : state.emissions[index]? = some found)
    (emissions : after.emissions = state.emissions.set index phase)
    (channel : after.channel = state.channel) (now : after.snapshotsNow = state.snapshotsNow)
    (kinds : ∀ remaining picked, phase = .emitting remaining picked →
      ∀ snapshot ∈ remaining, isDiscoveryKind snapshot.1)
    (live : ∀ snapshot ∈ state.snapshotsNow, state.LiveIs signer snapshot.1 snapshot.2 →
      after.LiveIs signer snapshot.1 snapshot.2)
    (pending : ∀ snapshot ∈ state.snapshotsNow, state.Pending snapshot found →
      after.LiveIs signer snapshot.1 snapshot.2 ∨ after.Pending snapshot phase) :
    after.Sound signer := by
  have inRange := (List.getElem?_eq_some_iff.mp isPhase).1
  refine ⟨fun remaining picked member => ?_, fun _ snapshot member => ?_⟩
  · rw [emissions] at member
    cases mem_or_eq_of_mem_set member with
    | inl old => exact sound.kinds remaining picked old
    | inr new => exact kinds remaining picked new.symm
  · rw [now] at member
    have some' : state.emissions ≠ [] := by
      intro empty
      rw [empty] at isPhase
      cases isPhase
    cases sound.described some' snapshot member with
    | inl isLive => exact .inl (live snapshot member isLive)
    | inr waits =>
      obtain ⟨other, isOther, isPending⟩ := waits
      obtain ⟨position, atPosition⟩ := getElem?_of_mem isOther
      by_cases same : position = index
      · rw [same, isPhase] at atPosition
        cases atPosition
        cases pending snapshot member isPending with
        | inl isLive => exact .inl isLive
        | inr still =>
          refine .inr ⟨phase, ?_, still⟩
          rw [emissions]
          exact mem_of_getElem? (getElem?_set_self inRange)
      · refine .inr ⟨other, ?_, ?_⟩
        · rw [emissions]
          apply mem_of_getElem?
          rw [getElem?_set_ne (Ne.symm same), atPosition]
        · cases other with
          | begun | failed => exact trivial
          | channelRead read => exact isPending.trans channel.symm
          | emitting remaining picked => exact isPending

theorem State.Sound.begins (sound : state.Sound signer)
    (emissions : after.emissions = state.emissions ++ [.begun]) : after.Sound signer := by
  refine ⟨fun remaining picked member => ?_, fun _ snapshot _ => .inr ⟨.begun, ?_, trivial⟩⟩
  · rw [emissions] at member
    cases mem_append.mp member with
    | inl old => exact sound.kinds remaining picked old
    | inr new => cases mem_singleton.mp new
  · rw [emissions]
    exact mem_append_right _ (mem_singleton_self _)

theorem State.Sound.stores {kind createdAt : ℕ} {tags : List Tag} {rest : List (ℕ × List Tag)}
    (sound : state.Sound signer)
    (isPhase : state.emissions[index]? = some (.emitting ((kind, tags) :: rest) (some createdAt)))
    (within : (Step.store index).Within state signer) :
    (state.storeSnapshot signer index kind tags createdAt rest).Sound signer := by
  have known := sound.kinds _ _ (mem_of_getElem? isPhase)
  have isKind : isDiscoveryKind kind := known (kind, tags) mem_cons_self
  have kinds (remaining : List (ℕ × List Tag)) (picked : Option ℕ)
      (isRest : Phase.emitting rest none = .emitting remaining picked) :
      ∀ snapshot ∈ remaining, isDiscoveryKind snapshot.1 := by
    cases isRest
    exact fun snapshot member => known snapshot (mem_cons_of_mem _ member)
  cases @storeSnapshot_cases state signer index kind tags createdAt rest isKind with
  | inl failed =>
    rw [failed]
    exact sound.set isPhase rfl rfl rfl nofun (fun _ _ isLive => isLive) fun _ _ _ =>
      .inr trivial
  | inr dated =>
    obtain ⟨dated, isDated, stale | stored⟩ := dated
    · obtain ⟨covered, same⟩ := stale
      rw [same]
      refine sound.set isPhase rfl rfl rfl kinds (fun _ _ isLive => isLive)
        fun snapshot isNow isPending => ?_
      cases mem_cons.mp isPending with
      | inr later => exact .inr later
      | inl first =>
        subst first
        have newer := within kind tags createdAt rest dated tags isPhase isDated isNow (.inr rfl)
        split at newer
        · exact .inl newer
        next uncovered =>
          cases covered with
          | inl covers => exact absurd covers uncovered
          | inr taken =>
            obtain ⟨row, isRow, sameStamp⟩ := taken
            exact absurd sameStamp (newer.2 row isRow)
    · obtain ⟨uncovered, same⟩ := stored
      rw [same]
      refine sound.set isPhase rfl rfl rfl kinds (fun snapshot isNow isLive => ?_)
        fun snapshot isNow isPending => ?_
      · by_cases same : kind = snapshot.1
        · have newer := within kind tags createdAt rest dated snapshot.2 isPhase isDated
            (by rw [same]; exact isNow) (.inl (by rw [same]; exact isLive))
          rw [if_neg uncovered] at newer
          rw [← same, ← newer.1]
          exact @liveIs_stored state signer kind tags createdAt dated isKind
        · exact @liveIs_stored_apart state signer kind _ tags createdAt dated _ isKind same isLive
      · cases mem_cons.mp isPending with
        | inr later => exact .inr later
        | inl first =>
          subst first
          exact .inl (@liveIs_stored state signer kind tags createdAt dated isKind)

theorem State.Sound.step (sound : state.Sound signer) {step : Step}
    (within : step.Within state signer) : (state.step signer step).Sound signer := by
  unfold State.step
  cases step with
  | change channel members | emit => exact sound.begins rfl
  | readChannel index =>
    dsimp only
    split
    next isPhase =>
      exact sound.set isPhase rfl rfl rfl nofun (fun _ _ isLive => isLive) fun _ _ _ =>
        .inr rfl
    · exact sound
  | readMembers index =>
    dsimp only
    split
    next channel isPhase =>
      have all : state.members.take memberLimit = state.members := take_of_length_le within
      refine sound.set isPhase rfl rfl rfl (fun remaining picked same snapshot member => ?_)
        (fun _ _ isLive => isLive) fun snapshot isNow isPending => .inr ?_
      · cases same
        exact snapshots_kind member
      · change snapshot ∈ snapshots state.groupId channel (state.members.take memberLimit)
        rw [all, isPending]
        exact isNow
    · exact sound
  | lookUp index now queried =>
    dsimp only
    split
    next kind tags rest isPhase =>
      refine sound.set isPhase rfl rfl rfl (fun remaining picked same => ?_)
        (fun _ _ isLive => isLive) fun _ _ isPending => .inr isPending
      cases same
      exact sound.kinds _ _ (mem_of_getElem? isPhase)
    · exact sound
  | store index =>
    dsimp only
    split
    next kind tags rest createdAt isPhase => exact sound.stores isPhase within
    · exact sound
  | fail index =>
    dsimp only
    split
    · exact sound
    · exact sound
    next found _ isPhase =>
      exact sound.set isPhase rfl rfl rfl nofun (fun _ _ isLive => isLive) fun _ _ _ =>
        .inr trivial

theorem State.Sound.start (communityId : CommunityId) (channelId : Uuid) (channel : ChannelRecord)
    (members : List MemberRecord) : (State.start communityId channelId channel members).Sound signer :=
  ⟨fun _ _ member => absurd member not_mem_nil, fun some' => absurd rfl some'⟩

theorem State.Sound.converged (sound : state.Sound signer) : state.Converged signer := by
  intro settled some' snapshot member
  cases sound.described some' snapshot member with
  | inl isLive => exact isLive
  | inr waits =>
    obtain ⟨phase, isPhase, isPending⟩ := waits
    obtain ⟨picked, rfl⟩ := settled phase isPhase
    cases isPending

theorem State.Sound.eachStep (sound : state.Sound signer) (steps : List Step)
    (within : state.EachStep signer (fun state step => step.Within state signer) steps) :
    state.EachStep signer (fun state step => (state.step signer step).Converged signer) steps := by
  induction steps generalizing state with
  | nil => exact trivial
  | cons step rest ih =>
    have next := sound.step within.1
    exact ⟨next.converged, ih next within.2⟩

theorem snapshots_converge (signer : Signer) (communityId : CommunityId) (channelId : Uuid)
    (channel : ChannelRecord) (members : List MemberRecord) (steps : List Step)
    (within : (State.start communityId channelId channel members).EachStep signer
      (fun state step => step.Within state signer) steps) :
    (State.start communityId channelId channel members).EachStep signer
      (fun state step => (state.step signer step).Converged signer) steps :=
  (State.Sound.start communityId channelId channel members).eachStep steps within

end steps

theorem Step.within_first {state : State} {signer : Signer} {index : ℕ} (kind createdAt : ℕ)
    (tags : List Tag) (rest : List (ℕ × List Tag))
    (isPhase : state.emissions[index]? = some (.emitting ((kind, tags) :: rest) (some createdAt)))
    (isNow : ∀ snapshot ∈ state.snapshotsNow, snapshot.1 = kind → tags = snapshot.2)
    (first : ∀ row ∈ state.store.rows, eventKindU32 row.event ≠ kind)
    (unused : ∀ row ∈ state.store.rows, row.event.id ≠ signer.eventId kind tags createdAt) :
    (Step.store index).Within state signer := by
  intro other otherTags time others dated now isOther _ member _
  cases isPhase.symm.trans isOther
  rw [if_neg]
  · exact ⟨isNow _ member rfl, fun row isRow same => unused row isRow (congrArg Stamp.id same)⟩
  · rw [covers_existing_iff]
    rintro ⟨row, isRow, selected, -⟩
    simp only [State.coordinate, Coordinate.selects, Coordinate.holds, Coordinate.kind,
      Bool.and_eq_true] at selected
    exact first row isRow (of_decide_eq_true selected.1.1.1.2)

def sampleUuid : Uuid := .fill 5

def sampleSigner : Signer where
  publicKey := .fill 1
  eventId kind _ createdAt :=
    ⟨[UInt8.ofNat kind, UInt8.ofNat createdAt] ++ replicate 30 0, by simp⟩
  sig _ _ _ := []

def sampleChannel (name : String) : ChannelRecord :=
  ⟨name, none, "open", "stream", none, none, false, none, none⟩

def sampleMembers : List MemberRecord := [⟨replicate 32 2, "owner"⟩]

def sampleStart : State := State.start ⟨sampleUuid⟩ sampleUuid (sampleChannel "old") sampleMembers

def storesOf (index now : ℕ) : List Step :=
  [.lookUp index now true, .store index, .lookUp index now true, .store index,
    .lookUp index now true, .store index]

theorem single_emission_converges : sampleStart.EachStep sampleSigner
    (fun state step => (state.step sampleSigner step).Converged sampleSigner)
    [.change (sampleChannel "new") sampleMembers, .readChannel 0, .readMembers 0,
      .lookUp 0 100 true, .store 0] :=
  snapshots_converge sampleSigner ⟨sampleUuid⟩ sampleUuid (sampleChannel "old") sampleMembers _
    ⟨trivial, trivial, show sampleMembers.length ≤ memberLimit by decide, trivial,
      Step.within_first kindNip29GroupMetadata 100
        (metadataTags sampleUuid.toString (sampleChannel "new") sampleMembers)
        [(kindNip29GroupAdmins, adminTags sampleUuid.toString sampleMembers),
          (kindNip29GroupMembers, memberTags sampleUuid.toString sampleMembers)]
        (by decide +kernel) (by decide +kernel) (by decide +kernel) (by decide +kernel), trivial⟩

/-- The first change's emission overwrites the second's. -/
def overtaken : List Step :=
  [.change (sampleChannel "first") sampleMembers, .readChannel 0, .readMembers 0,
    .change (sampleChannel "second") sampleMembers, .readChannel 1, .readMembers 1] ++
    storesOf 1 100 ++ storesOf 0 100

def overtakenState : State := overtaken.foldl (fun state step => state.step sampleSigner step) sampleStart

theorem stale_snapshot_stays : ¬ overtakenState.Converged sampleSigner := by
  intro converged
  have finished : overtakenState.emissions = [.emitting [] none, .emitting [] none] := by
    decide +kernel
  have settled : overtakenState.Settled := by
    intro phase member
    rw [finished] at member
    exact ⟨none, by simpa using member⟩
  obtain ⟨row, live, isNow⟩ := converged settled (by rw [finished]; nofun)
    (kindNip29GroupMetadata, metadataTags overtakenState.groupId (sampleChannel "second")
      sampleMembers) (by decide +kernel)
  have stale : ((overtakenState.coordinate sampleSigner kindNip29GroupMetadata).live
      overtakenState.store).map (·.event.tags) ≠
        [metadataTags overtakenState.groupId (sampleChannel "second") sampleMembers] := by
    decide +kernel
  rw [live, map_singleton, isNow] at stale
  exact stale rfl

end Buzz.Discovery
