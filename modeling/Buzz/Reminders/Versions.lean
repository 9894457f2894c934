import Buzz.Replace.Convergence
import Buzz.Replace.Retired
import Buzz.Reminders.Scheduler

/-! The versions of a reminder: only what is saved between the query and the publication can be
missed. -/

namespace Buzz.Reminders

open Nostr Buzz.Req Buzz.Replace List

section retire

variable {selected : Row → Bool} {row newer older : Row} {store stored : Store}

@[simp]
theorem rowKey_retireRow : rowKey (retireRow selected row) = rowKey row := by
  simp [rowKey]

@[simp]
theorem supersedes_retireRow_left :
    supersedes (retireRow selected newer) older = supersedes newer older := by
  simp [supersedes]

@[simp]
theorem supersedes_retireRow_right :
    supersedes newer (retireRow selected older) = supersedes newer older := by
  simp [supersedes]

theorem reminder_plain {event : Event} (isReminder : eventKindU32 event = kindEventReminder) :
    purgedKind event = false := by
  rw [purgedKind, isReminder]
  rfl

theorem supersedes_iff : supersedes newer older ↔ newer.communityId = older.communityId ∧
    newer.event.pubkey = older.event.pubkey ∧ newer.dTag = older.dTag ∧ older.stamp < newer.stamp := by
  unfold supersedes
  rw [Bool.and_eq_true, Bool.and_eq_true, Bool.and_eq_true, decide_eq_true_iff, decide_eq_true_iff,
    decide_eq_true_iff, decide_eq_true_iff, and_assoc, and_assoc]

variable {communityId : CommunityId} {event : Event} {dTag : String} {channelId : Option Uuid}

theorem erases_reminder (isReminder : eventKindU32 event = kindEventReminder)
    (alive : row.purged = false) :
    (Coordinate.parameterized communityId (eventKindU32 event) event.pubkey dTag).erases event row =
      false := by
  have plain := reminder_plain isReminder
  rw [Coordinate.erases, not_isNipRs plain, not_isBuzzMeshStatus plain, alive]
  rfl

theorem save_rows
    (reminders : ∀ row ∈ store.rows, eventKindU32 row.event = kindEventReminder)
    (isReminder : eventKindU32 event = kindEventReminder)
    (saved : store.replaceParameterizedEvent communityId event dTag channelId = .ok (stored, true)) :
    ∃ row selected, stored.rows = row :: store.rows.map (retireRow selected) ∧ row.event = event ∧
      (∀ old ∈ store.rows, rowKey old ≠ rowKey row) ∧
        ∀ old ∈ store.rows, supersedes row old → (retireRow selected old).deleted := by
  have replaced : (Coordinate.parameterized communityId (eventKindU32 event) event.pubkey dTag).replace
      store event channelId = .ok (stored, true) := saved
  rw [replace_eq_replaceAt] at replaced
  cases dated : createdAtOf event with
  | none =>
    rw [dated] at replaced
    cases replaced
  | some createdAt =>
    rw [dated, replaceAt_some ⟨rfl, rfl⟩] at replaced
    dsimp only at replaced
    have kept : ∀ row ∈ store.rows,
        (Coordinate.parameterized communityId (eventKindU32 event) event.pubkey dTag).selects row =
          true →
        (Coordinate.parameterized communityId (eventKindU32 event) event.pubkey dTag).erases event
          row = false := fun row member _ =>
      erases_reminder isReminder (not_purged (reminder_plain (reminders row member)))
    split at replaced
    · cases replaced
    · split at replaced
      · split at replaced <;> cases replaced
      · split at replaced
        · cases replaced
        next unique =>
          cases replaced
          rw [retire_rows kept] at unique
          refine ⟨_, _, stored_rows.trans (congrArg _ (retire_rows ?_)), rowOf_event,
            fun old member same => ?_, fun old member newer => ?_⟩
          · rw [rowOf_event]
            exact kept
          · apply unique
            refine any_eq_true.mpr ⟨_, mem_map_of_mem member, ?_⟩
            rw [← @rowKey_retireRow (Coordinate.parameterized communityId (eventKindU32 event)
              event.pubkey dTag).selects old] at same
            exact sameKey_iff.mpr ⟨(congrArg Key.communityId same).symm,
              (congrArg Key.stamp same).symm⟩
          · obtain ⟨sameCommunity, samePubkey, sameTag, -⟩ := supersedes_iff.mp newer
            cases isDeleted : old.deleted with
            | true => exact deleted_retireRow isDeleted
            | false =>
              dsimp only [Coordinate.rowOf] at sameCommunity samePubkey sameTag
              have selects : (Coordinate.parameterized communityId (eventKindU32 event)
                  event.pubkey dTag).selects old := by
                simp [Coordinate.selects, Coordinate.holds, Coordinate.matchesRow,
                  Coordinate.communityId, Coordinate.kind, Coordinate.pubkey, sameCommunity,
                  samePubkey, sameTag, isDeleted, isReminder, reminders old member]
              rw [retireRow, if_pos selects]

end retire

def Pod.reminders (self : Pod) : List DueReminder :=
  match self.phase with
  | .publishing reminder _ => reminder :: self.due
  | .idle | .releasing _ => self.due

namespace State

def Current (state : State) (key : Key) : Prop :=
  state.store.rows.Pairwise fun newer older => rowKey older = key → supersedes newer older = false

structure Versions (state : State) : Prop where
  reminders : ∀ row ∈ state.store.rows, eventKindU32 row.event = kindEventReminder
  keys : (state.store.rows.map rowKey).Nodup
  retired : state.store.rows.Pairwise fun newer older =>
    supersedes newer older → older.deleted
  known : ∀ pod, ∀ reminder ∈ (state.pods pod).reminders,
    ∃ row ∈ state.store.rows, rowKey row = reminder.key
  current : ∀ pod, ∀ reminder ∈ (state.pods pod).reminders, state.Current reminder.key ↔
    ∀ newer ∈ (state.pods pod).savedSince, ∀ row ∈ state.store.rows, rowKey row = reminder.key →
      supersedes newer row = false

section shapes

variable {before after : State} {selected : Row → Bool}

theorem Versions.fewer (versions : before.Versions) (store : after.store = before.store)
    (pods : ∀ pod, ∀ reminder ∈ (after.pods pod).reminders, reminder ∈ (before.pods pod).reminders ∧
      (after.pods pod).savedSince = (before.pods pod).savedSince) : after.Versions := by
  refine ⟨store ▸ versions.reminders, store ▸ versions.keys, store ▸ versions.retired,
    fun pod reminder member => ?_, fun pod reminder member => ?_⟩
  · rw [store]
    exact versions.known pod reminder (pods pod reminder member).1
  · obtain ⟨old, since⟩ := pods pod reminder member
    rw [Current, store, since]
    exact versions.current pod reminder old

theorem Versions.retires (versions : before.Versions)
    (store : after.store.rows = before.store.rows.map (retireRow selected))
    (pods : after.pods = before.pods) : after.Versions := by
  refine ⟨fun row member => ?_, ?_, ?_, fun pod reminder member => ?_, fun pod reminder member => ?_⟩
  · rw [store] at member
    obtain ⟨old, isOld, rfl⟩ := mem_map.mp member
    rw [event_retireRow]
    exact versions.reminders old isOld
  · rw [store, map_map]
    have same : rowKey ∘ retireRow selected = rowKey := funext fun row => rowKey_retireRow
    rw [same]
    exact versions.keys
  · rw [store, pairwise_map]
    refine versions.retired.imp fun {newer older} retired isNewer => ?_
    rw [supersedes_retireRow_left, supersedes_retireRow_right] at isNewer
    exact deleted_retireRow (retired isNewer)
  · rw [pods] at member
    obtain ⟨row, isRow, isKey⟩ := versions.known pod reminder member
    exact ⟨_, store ▸ mem_map_of_mem isRow, rowKey_retireRow.trans isKey⟩
  · rw [pods] at member
    rw [Current, store, pods, pairwise_map]
    simp only [rowKey_retireRow, supersedes_retireRow_left, supersedes_retireRow_right,
      forall_mem_map]
    exact versions.current pod reminder member

theorem Versions.saves {saved : Row} (versions : before.Versions)
    (isReminder : eventKindU32 saved.event = kindEventReminder)
    (store : after.store.rows = saved :: before.store.rows.map (retireRow selected))
    (unique : ∀ row ∈ before.store.rows, rowKey row ≠ rowKey saved)
    (retired : ∀ row ∈ before.store.rows, supersedes saved row →
      (retireRow selected row).deleted)
    (pods : ∀ pod, (after.pods pod).reminders = (before.pods pod).reminders ∧
      (after.pods pod).savedSince = saved :: (before.pods pod).savedSince) : after.Versions := by
  have middle : State.Versions { before with
      store := { before.store with rows := before.store.rows.map (retireRow selected) } } :=
    versions.retires rfl rfl
  have apart {reminder : DueReminder} {pod : ℕ} (member : reminder ∈ (before.pods pod).reminders) :
      rowKey saved ≠ reminder.key := by
    intro same
    obtain ⟨row, isRow, isKey⟩ := versions.known pod reminder member
    exact unique row isRow (isKey.trans same.symm)
  refine ⟨fun row member => ?_, ?_, ?_, fun pod reminder member => ?_, fun pod reminder member => ?_⟩
  · rw [store] at member
    cases mem_cons.mp member with
    | inl same => exact same ▸ isReminder
    | inr old => exact middle.reminders row old
  · rw [store, map_cons, nodup_cons]
    refine ⟨fun member => ?_, middle.keys⟩
    obtain ⟨old, isOld, same⟩ := mem_map.mp member
    obtain ⟨row, isRow, rfl⟩ := mem_map.mp isOld
    rw [rowKey_retireRow] at same
    exact unique row isRow same
  · rw [store, pairwise_cons]
    refine ⟨fun older member isNewer => ?_, middle.retired⟩
    obtain ⟨row, isRow, rfl⟩ := mem_map.mp member
    rw [supersedes_retireRow_right] at isNewer
    exact retired row isRow isNewer
  · rw [(pods pod).1] at member
    obtain ⟨row, isRow, isKey⟩ := middle.known pod reminder member
    exact ⟨row, store ▸ mem_cons_of_mem _ isRow, isKey⟩
  · rw [(pods pod).1] at member
    have before := middle.current pod reminder member
    rw [Current, store, (pods pod).2, pairwise_cons]
    constructor
    · intro current newer isNewer row isRow isKey
      cases mem_cons.mp isRow with
      | inl same => exact absurd (same ▸ isKey) (apart member)
      | inr old =>
        cases mem_cons.mp isNewer with
        | inl latest =>
          rw [latest]
          exact current.1 row old isKey
        | inr earlier => exact before.mp current.2 newer earlier row old isKey
    · intro missed
      refine ⟨fun row old isKey => ?_, before.mpr fun newer earlier row old isKey => ?_⟩
      · exact missed saved mem_cons_self row (mem_cons_of_mem _ old) isKey
      · exact missed newer (mem_cons_of_mem _ earlier) row (mem_cons_of_mem _ old) isKey

theorem Versions.live (versions : before.Versions) {row : Row} (member : row ∈ before.store.rows)
    (isLive : row.deleted = false) : before.Current (rowKey row) := by
  refine versions.retired.imp_of_mem fun {newer older} _ isOlder retired isKey => ?_
  apply eq_false_of_ne_true
  intro isNewer
  have same := inj_on_of_nodup_map versions.keys isOlder member isKey
  rw [← same, retired isNewer] at isLive
  cases isLive

end shapes

section steps

variable {state : State} {collation : Option String → Option String → Bool} {reminder : DueReminder}
  {hosts : CommunityId → Option String} {due : List DueReminder} {batchLimit : ℤ}

theorem mem_queryDueReminders {nowSecs : ℤ}
    (queried : state.queryDueReminders nowSecs batchLimit hosts collation = some due)
    (member : reminder ∈ due) :
    ∃ row ∈ state.store.rows, rowKey row = reminder.key ∧ row.deleted = false ∧
      state.deliveredAt reminder.key = none := by
  unfold queryDueReminders at queried
  split at queried
  · cases queried
  · cases queried
    obtain ⟨row, taken, rfl⟩ := mem_map.mp member
    have sorted := (perm_insertionSort _ _).mem_iff.mp (mem_of_mem_take taken)
    have selected := (mem_filter.mp sorted).1
    obtain ⟨isRow, isSelected⟩ := mem_filter.mp selected
    simp only [selects, Bool.and_eq_true, Bool.not_eq_true', Option.isNone_iff_eq_none] at isSelected
    exact ⟨row, isRow, rfl, isSelected.1.1.2, isSelected.1.2⟩

theorem setPod_reminders {middle : State} {pod other : ℕ} {value : Pod}
    (pods : middle.pods = state.pods)
    (fewer : reminder ∈ value.reminders → reminder ∈ (state.pods pod).reminders ∧
      value.savedSince = (state.pods pod).savedSince)
    (member : reminder ∈ ((middle.setPod pod value).pods other).reminders) :
    reminder ∈ (state.pods other).reminders ∧
      ((middle.setPod pod value).pods other).savedSince = (state.pods other).savedSince := by
  by_cases same : other = pod
  · subst same
    simp only [setPod, if_pos] at member ⊢
    exact fewer member
  · simp only [setPod, if_neg same, pods] at member ⊢
    exact ⟨member, trivial⟩

theorem runStatement_pods (statement : Statement) :
    (state.runStatement statement).1.pods = state.pods := by
  rcases state.runStatement_claims statement with ⟨deliveredAt, same⟩
  rw [same]

theorem runStatement_store (statement : Statement) :
    (state.runStatement statement).1.store = state.store := by
  rcases state.runStatement_claims statement with ⟨deliveredAt, same⟩
  rw [same]

theorem mem_reminders_idle {pod : Pod} (isIdle : pod.phase = .idle) :
    pod.reminders = pod.due := by
  rw [Pod.reminders, isIdle]

theorem mem_reminders_of_due {pod : Pod} (member : reminder ∈ pod.due) :
    reminder ∈ pod.reminders := by
  unfold Pod.reminders
  split
  · exact mem_cons_of_mem _ member
  · exact member
  · exact member

section

variable (versions : state.Versions)

include versions

theorem Versions.tick {pod : ℕ} {nowSecs : ℤ}
    (queried : state.queryDueReminders nowSecs batchLimit hosts collation = some due) :
    (state.setPod pod ⟨due, .idle, []⟩).Versions := by
  refine ⟨versions.reminders, versions.keys, versions.retired, fun other reminder member => ?_,
    fun other reminder member => ?_⟩
  · by_cases same : other = pod
    · subst same
      simp only [setPod, if_pos] at member
      obtain ⟨row, isRow, isKey, -, -⟩ := mem_queryDueReminders queried member
      exact ⟨row, isRow, isKey⟩
    · simp only [setPod, if_neg same] at member
      exact versions.known other reminder member
  · by_cases same : other = pod
    · subst same
      simp only [setPod, if_pos] at member
      obtain ⟨row, isRow, isKey, isLive, -⟩ := mem_queryDueReminders queried member
      have current : state.Current reminder.key := isKey ▸ versions.live isRow isLive
      simp only [setPod, if_pos, not_mem_nil, false_implies, implies_true, iff_true]
      exact current
    · simp only [setPod, if_neg same] at member ⊢
      exact versions.current other reminder member

theorem Versions.save (communityId : CommunityId) (event : Event)
    (dTag : String) (channelId : Option Uuid) :
    (state.save communityId event dTag channelId).Versions := by
  unfold State.save
  split
  next isReminder =>
    split
    next store saved =>
      obtain ⟨row, selected, rows, isEvent, unique, retired⟩ :=
        save_rows versions.reminders isReminder saved
      refine versions.saves (isEvent ▸ isReminder) rows unique retired fun pod => ⟨rfl, ?_⟩
      dsimp only
      rw [rows]
      rfl
    · exact versions
    · exact versions
  · exact versions

theorem Versions.step (step : Step) : (state.after step).Versions := by
  unfold State.after State.step
  cases step with
  | tick pod nowSecs batchLimit hosts collation =>
    dsimp only
    split
    next queried => exact versions.tick queried
    · exact versions
  | claim pod deliveryStamp =>
    dsimp only
    split
    next reminder rest isDue isIdle =>
      have before : (state.pods pod).reminders = reminder :: rest :=
        (mem_reminders_idle isIdle).trans isDue
      refine versions.fewer (runStatement_store _) fun other found member =>
        setPod_reminders (runStatement_pods _) (fun member => ?_) member
      rw [before]
      refine ⟨?_, rfl⟩
      unfold Pod.reminders at member
      dsimp only at member
      split at member
      next isPhase =>
        split at isPhase
        · cases isPhase
          exact member
        · cases isPhase
      · exact mem_cons_of_mem _ member
      · exact mem_cons_of_mem _ member
    · exact versions
  | loseClaim pod deliveryStamp =>
    dsimp only
    split
    next reminder rest isDue isIdle =>
      refine versions.fewer rfl fun other found member => setPod_reminders rfl (fun member => ?_) member
      refine ⟨?_, rfl⟩
      rw [mem_reminders_idle isIdle, isDue]
      exact mem_cons_of_mem _ member
    · exact versions
  | publish pod | publishFails pod sent =>
    dsimp only
    split
    · exact versions.fewer rfl fun other found member => setPod_reminders rfl (fun member =>
        ⟨mem_reminders_of_due member, rfl⟩) member
    · exact versions
    · exact versions
  | release pod =>
    dsimp only
    split
    next claim isPhase =>
      exact versions.fewer (runStatement_store _) fun other found member =>
        setPod_reminders (runStatement_pods _) (fun member =>
          ⟨mem_reminders_of_due member, rfl⟩) member
    · exact versions
    · exact versions
  | loseRelease pod =>
    dsimp only
    split
    · exact versions.fewer rfl fun other found member => setPod_reminders rfl (fun member =>
        ⟨mem_reminders_of_due member, rfl⟩) member
    · exact versions
    · exact versions
  | runDetached number =>
    dsimp only
    split
    · exact versions
    next statement isDetached =>
      refine versions.fewer (runStatement_store _) fun other found member => ?_
      change found ∈ ((state.runStatement statement).1.pods other).reminders at member
      change _ ∧ ((state.runStatement statement).1.pods other).savedSince = _
      rw [runStatement_pods] at member ⊢
      exact ⟨member, rfl⟩
  | crash pod =>
    exact versions.fewer rfl fun other found member => setPod_reminders rfl (fun member =>
      absurd member not_mem_nil) member
  | save communityId event dTag channelId => exact versions.save communityId event dTag channelId
  | softDeleteEvent communityId eventId | softDeleteByCoordinate communityId kind pubkey dTag =>
    exact versions.retires (softDelete_rows fun row member =>
      reminder_plain (versions.reminders row member)) rfl

end

theorem Versions.start : State.start.Versions where
  reminders := fun _ member => absurd member not_mem_nil
  keys := nodup_nil
  retired := List.Pairwise.nil
  known := fun _ _ member => absurd member not_mem_nil
  current := fun _ _ member => absurd member not_mem_nil

end steps

end State

end Buzz.Reminders
