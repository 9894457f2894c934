import Buzz.Replace.Convergence
import Buzz.Replace.Retired
import Buzz.Workflows.Saves

/-! The secret that a save returns stays, and the definition is the newest event's, where saves do
not write over a secret they have not read. -/

namespace Buzz.Workflows

open Nostr Buzz.Req Buzz.Replace Library.Locks List

def Save.IsWritten (save : Save) : Prop := ∃ prepared row, save.phase = .written prepared row

section statements

variable (parseUuid : String → Option Uuid) (parseYaml : String → Except String WorkflowDef)
  (state : State)

def State.storedSecret : Option String :=
  state.workflow.bind (·.definition.extractSecret)

/-- What an uncommitted save has written may be there before its event. -/
structure State.Kept : Prop where
  secret : ∀ secret, state.returned = some secret → state.storedSecret = some secret ∨
    ∃ save ∈ state.saves, save.IsWritten ∧ save.hasWebhook = false
  definition : ∀ row ∈ state.store.rows, (∀ other ∈ state.store.rows, other.stamp ≤ row.stamp) →
    ∃ workflow, state.workflow = some workflow ∧
      (parseYaml row.event.content = .ok workflow.definition.parsed ∨
        ∃ save ∈ state.saves, save.IsWritten ∧
          parseYaml save.request.event.content = .ok workflow.definition.parsed)

def Step.Within : Step → Prop
  | .start event isMember role =>
    ∀ request, checkEvent parseUuid parseYaml event isMember role = .ok request →
      request.workflowId = state.workflowId →
        ∀ save ∈ state.saves, save.dTag = (extractDTag event).getD ""
  | .write index true =>
    ∀ save prepared row, state.saves[index]? = some save → save.phase = .persisted prepared row →
      save.hasWebhook → ∀ secret, state.returned = some secret → prepared.found = some secret
  | .fail index _ => ∀ save, state.saves[index]? = some save → ¬ save.IsWritten
  | _ => True

def State.EachStep (holds : State → Step → Prop) (state : State) : List Step → Prop
  | [] => True
  | step :: rest =>
    holds state step ∧ EachStep holds (state.after parseUuid parseYaml step) rest

end statements

section invariant

variable (parseYaml : String → Except String WorkflowDef) (state : State)

def Request.dTag (self : Request) : String := (extractDTag self.event).getD ""

def State.requests : List Request := state.saves.map Save.request

structure Prepared.Suits (prepared : Prepared) (request : Request) : Prop where
  parsed : prepared.document.parsed = request.parsed
  kept : request.parsed.trigger = .webhook → ∀ secret, prepared.found = some secret →
    prepared.document.extractSecret = some secret
  returned : ∀ secret, prepared.webhookSecret = some secret →
    prepared.document.extractSecret = some secret

structure Inserts (request : Request) (row : Row) : Prop where
  event : row.event = request.event
  communityId : row.communityId = state.communityId
  dTag : row.dTag = some request.dTag
  live : row.deleted = false
  newer : ∀ old ∈ state.store.rows, old.event.pubkey = request.event.pubkey → old.stamp < row.stamp

def Save.Sound (request : Request) : Phase → Prop
  | .checked | .ended => True
  | .prepared prepared => prepared.Suits request
  | .persisted prepared row => prepared.Suits request ∧ Inserts state request row
  | .written prepared row => prepared.Suits request ∧ Inserts state request row ∧
      ∃ workflow, state.workflow = some workflow ∧
        workflow.ownerPubkey = request.event.pubkey ∧ workflow.definition = prepared.document

structure Accepted (row : Row) : Prop where
  owner : ∃ workflow, state.workflow = some workflow ∧ row.event.pubkey = workflow.ownerPubkey
  communityId : row.communityId = state.communityId
  kind : eventKindU32 row.event = kindWorkflowDef
  dTag : ∃ request ∈ state.requests, row.dTag = some request.dTag

structure State.Sound : Prop where
  exclusive : Exclusive (fun save key => save.holds state.communityId key) state.saves
  requests : ∀ request ∈ state.requests, eventKindU32 request.event = kindWorkflowDef ∧
    parseYaml request.event.content = .ok request.parsed
  texts : ∀ first ∈ state.requests, ∀ second ∈ state.requests, first.dTag = second.dTag
  saves : ∀ save ∈ state.saves, Save.Sound state save.request save.phase
  head : ∀ head tail, state.store.rows = head :: tail →
    head.deleted = false ∧ ∀ old ∈ tail, old.stamp < head.stamp
  accepted : ∀ row ∈ state.store.rows, Accepted state row
  definition : ∀ head tail, state.store.rows = head :: tail →
    (∃ save ∈ state.saves, save.IsWritten) ∨ ∃ workflow, state.workflow = some workflow ∧
      parseYaml head.event.content = .ok workflow.definition.parsed
  secret : ∀ secret, state.returned = some secret → state.storedSecret = some secret ∨
    ∃ save ∈ state.saves, save.IsWritten ∧ save.hasWebhook = false

end invariant

variable {parseYaml : String → Except String WorkflowDef} {state : State}
  {parseUuid : String → Option Uuid} {prepared : Prepared} {row : Row}

theorem State.Sound.kept (sound : state.Sound parseYaml) : state.Kept parseYaml where
  secret := sound.secret
  definition row member newest := by
    obtain ⟨workflow, isWorkflow, -⟩ := (sound.accepted row member).owner
    refine ⟨workflow, isWorkflow, ?_⟩
    cases rows : state.store.rows with
    | nil =>
      rw [rows] at member
      cases member
    | cons head tail =>
      have isHead : row = head := by
        rw [rows] at member newest
        cases mem_cons.mp member with
        | inl same => exact same
        | inr older =>
          have below := (sound.head head tail rows).2 row older
          exact absurd (newest head mem_cons_self) (not_le_of_gt below)
      cases sound.definition head tail rows with
      | inr stored =>
        obtain ⟨other, isOther, parsed⟩ := stored
        cases isWorkflow.symm.trans isOther
        exact .inl (isHead ▸ parsed)
      | inl writing =>
        obtain ⟨save, isSave, prepared, inserted, isPhase⟩ := writing
        have isSound := sound.saves save isSave
        rw [isPhase] at isSound
        obtain ⟨suits, -, other, isOther, -, isDefinition⟩ := isSound
        cases isWorkflow.symm.trans isOther
        refine .inr ⟨save, isSave, ⟨prepared, inserted, isPhase⟩, ?_⟩
        rw [isDefinition, suits.parsed]
        exact (sound.requests save.request (mem_map_of_mem isSave)).2

section functions

variable {request : Request}

theorem checkEvent_ok {event : Event} {isMember : Bool} {role : Option String}
    (checked : checkEvent parseUuid parseYaml event isMember role = .ok request) :
    request.event = event ∧ parseYaml event.content = .ok request.parsed := by
  unfold checkEvent at checked
  split at checked
  · cases checked
  · split at checked
    · cases checked
    · split at checked
      · cases checked
      · split at checked
        · cases checked
        · split at checked
          · cases checked
          · split at checked
            · cases checked
            next parsed isParsed =>
              split at checked
              · cases checked
              · cases checked
                exact ⟨rfl, isParsed⟩

theorem prepare_suits {existing : Option WorkflowRecord} {generated : String}
    (isPrepared : prepare request existing generated = .ok prepared) : prepared.Suits request := by
  unfold prepare at isPrepared
  split at isPrepared
  · cases isPrepared
  · dsimp only at isPrepared
    split at isPrepared
    · cases isPrepared
      refine ⟨rfl, fun _ secret found => ?_, fun secret returned => ?_⟩
      · change some _ = some secret
        change existing.bind _ = some secret at found
        rw [found, Option.getD_some]
      · change (if _ then some _ else none) = some secret at returned
        split at returned
        · exact returned
        · cases returned
    next isOther =>
      cases isPrepared
      exact ⟨rfl, fun isWebhook => absurd isWebhook isOther, nofun⟩

theorem State.Sound.inserts (sound : state.Sound parseYaml) (member : request ∈ state.requests)
    {dated : Option ℤ} {channelId : Uuid}
    (inserted : persistCommandEventAt dated state.store state.communityId request.event channelId =
      .ok (.inserted row)) : Inserts state request row := by
  unfold persistCommandEventAt at inserted
  split at inserted
  · cases inserted
  next found isRow =>
    split at inserted
    · cases inserted
    next notDominated =>
      split at inserted
      · cases inserted
      · cases inserted
        unfold commandRowAt at isRow
        split at isRow
        · cases isRow
        · split at isRow
          · cases isRow
          cases isRow
          refine ⟨rfl, rfl, rfl, rfl, fun old isOld sameAuthor => ?_⟩
          rw [any_dominatedBy_iff, covers_existing_iff] at notDominated
          cases rows : state.store.rows with
          | nil =>
            rw [rows] at isOld
            cases isOld
          | cons head tail =>
            have isHead : head ∈ state.store.rows := rows ▸ mem_cons_self
            obtain ⟨isLive, older⟩ := sound.head head tail rows
            have headAccepted := sound.accepted head isHead
            have oldAccepted := sound.accepted old isOld
            have headAuthor : head.event.pubkey = request.event.pubkey := by
              obtain ⟨workflow, isWorkflow, headOwner⟩ := headAccepted.owner
              obtain ⟨other, isOther, oldOwner⟩ := oldAccepted.owner
              cases isWorkflow.symm.trans isOther
              rw [headOwner, ← oldOwner, sameAuthor]
            have headTag : head.dTag = some request.dTag := by
              obtain ⟨first, isFirst, tagged⟩ := headAccepted.dTag
              rw [tagged, sound.texts first isFirst request member]
            have selects : (coordinateOf state.communityId request.event
                ((extractDTag request.event).getD "")).selects head := by
              simp [coordinateOf, Coordinate.selects, Coordinate.holds, Coordinate.matchesRow,
                Coordinate.communityId, Coordinate.kind, Coordinate.pubkey, headAuthor, headTag,
                isLive, headAccepted.communityId, headAccepted.kind, Request.dTag]
            have above : head.stamp < _ :=
              lt_of_not_ge fun below => notDominated ⟨head, isHead, selects, below⟩
            rw [rows] at isOld
            cases mem_cons.mp isOld with
            | inl same => exact same ▸ above
            | inr isOlder => exact lt_trans (older old isOlder) above

theorem State.setSave_requests {index : ℕ} {save : Save} {phase : Phase}
    (isSave : state.saves[index]? = some save) :
    (state.setSave index save.request phase).requests = state.requests := by
  unfold State.requests State.setSave
  dsimp only
  obtain ⟨bound, same⟩ := List.getElem?_eq_some_iff.mp isSave
  subst same
  rw [map_set]
  apply ext_getElem?
  intro other
  rw [List.getElem?_set]
  split
  next here =>
    subst here
    simp [bound]
  · rfl

end functions

section steps

variable {after : State} {index : ℕ} {save : Save} {phase : Phase}

theorem State.mem_requests (isSave : state.saves[index]? = some save) :
    save.request ∈ state.requests :=
  mem_map_of_mem (mem_of_getElem? isSave)

theorem State.Sound.at (sound : state.Sound parseYaml) (isSave : state.saves[index]? = some save) :
    Save.Sound state save.request save.phase :=
  sound.saves save (mem_of_getElem? isSave)

variable {second : ℕ} {other : Save}

theorem State.Sound.writer (sound : state.Sound parseYaml) {first : ℕ}
    (isSave : state.saves[first]? = some save) (isOther : state.saves[second]? = some other)
    (holds : ∀ key, other.holds state.communityId key →
      save.holds state.communityId key) (isWritten : other.IsWritten) : first = second := by
  obtain ⟨prepared, row, isPhase⟩ := isWritten
  have held : other.holds state.communityId (lockKey state.communityId kindWorkflowDef
      other.request.event.pubkey other.dTag) := by
    rw [Save.holds, isPhase]
    exact decide_eq_true rfl
  exact sound.exclusive first second save other _ isSave isOther (holds _ held) held

theorem Save.Sound.frame {request : Request} (sound : Save.Sound state request phase)
    (communityId : after.communityId = state.communityId)
    (rows : (∃ prepared row, phase = .persisted prepared row ∨ phase = .written prepared row) →
      ∀ old ∈ after.store.rows, old.event.pubkey = request.event.pubkey →
        ∃ before ∈ state.store.rows, before.event.pubkey = request.event.pubkey ∧
          before.stamp = old.stamp)
    (workflow : (∃ prepared row, phase = .written prepared row) → after.workflow = state.workflow) :
    Save.Sound after request phase := by
  have inserts {row : Row} (before : Inserts state request row)
      (holds : ∃ prepared row, phase = .persisted prepared row ∨ phase = .written prepared row) :
      Inserts after request row := by
    refine ⟨before.event, communityId ▸ before.communityId, before.dTag, before.live,
      fun old member sameAuthor => ?_⟩
    obtain ⟨older, isOlder, author, sameStamp⟩ := rows holds old member sameAuthor
    exact sameStamp ▸ before.newer older isOlder author
  cases phase with
  | checked | ended => exact trivial
  | prepared prepared => exact sound
  | persisted prepared row => exact ⟨sound.1, inserts sound.2 ⟨prepared, row, .inl rfl⟩⟩
  | written prepared row =>
    obtain ⟨suits, inserted, stored⟩ := sound
    refine ⟨suits, inserts inserted ⟨prepared, row, .inr rfl⟩, ?_⟩
    rw [workflow ⟨prepared, row, rfl⟩]
    exact stored

theorem State.Sound.goes (sound : state.Sound parseYaml) (isSave : state.saves[index]? = some save)
    (unwritten : ¬ save.IsWritten)
    (isSound : Save.Sound state save.request phase)
    (locks : ∀ key, (⟨save.request, phase⟩ : Save).holds state.communityId key →
      save.holds state.communityId key ∨ state.lockFree index key) :
    (state.setSave index save.request phase).Sound parseYaml := by
  have kept {other : Save} (member : other ∈ state.saves) (isWritten : other.IsWritten) :
      other ∈ (state.setSave index save.request phase).saves := by
    obtain ⟨at', isOther⟩ := getElem?_of_mem member
    have apart : index ≠ at' := by
      intro same
      rw [← same, isSave] at isOther
      cases isOther
      exact unwritten isWritten
    apply mem_of_getElem? (i := at')
    rw [State.setSave, getElem?_set_ne apart, isOther]
  refine ⟨?_, ?_, ?_, fun other member => ?_, sound.head, fun row member => ?_,
    fun head tail rows => ?_, fun secret returned => ?_⟩
  · apply sound.exclusive.set
    intro key held
    cases locks key held with
    | inl before => exact .inl ⟨save, isSave, before⟩
    | inr free => exact Or.inr (by simpa [State.lockFree] using free)
  · rw [State.setSave_requests isSave]
    exact sound.requests
  · rw [State.setSave_requests isSave]
    exact sound.texts
  · cases mem_or_eq_of_mem_set member with
    | inl old =>
      exact (sound.saves other old).frame rfl (fun _ old member author =>
        ⟨old, member, author, rfl⟩) fun _ => rfl
    | inr new =>
      rw [new]
      exact isSound.frame rfl (fun _ old member author => ⟨old, member, author, rfl⟩) fun _ => rfl
  · obtain ⟨owner, communityId, kind, dTag⟩ := sound.accepted row member
    exact ⟨owner, communityId, kind, by rw [State.setSave_requests isSave]; exact dTag⟩
  · cases sound.definition head tail rows with
    | inl writing =>
      obtain ⟨other, member, isWritten⟩ := writing
      exact .inl ⟨other, kept member isWritten, isWritten⟩
    | inr stored => exact .inr stored
  · cases sound.secret secret returned with
    | inl stored => exact .inl stored
    | inr removing =>
      obtain ⟨other, member, isWritten, noWebhook⟩ := removing
      exact .inr ⟨other, kept member isWritten, isWritten, noWebhook⟩

variable {record : WorkflowRecord}

theorem upsertWorkflow_ok {workflow : Option WorkflowRecord} {stored : WorkflowRecord}
    (isStored : upsertWorkflow workflow record = .ok stored) :
    stored.ownerPubkey = record.ownerPubkey ∧ stored.definition = record.definition ∧
      ∀ existing, workflow = some existing → existing.ownerPubkey = record.ownerPubkey := by
  unfold upsertWorkflow at isStored
  split at isStored
  · cases isStored
    exact ⟨rfl, rfl, nofun⟩
  next existing =>
    split at isStored
    next same =>
      cases isStored
      exact ⟨same.1, rfl, fun other isOther => Option.some.inj isOther ▸ same.1⟩
    · cases isStored

section

variable (sound : state.Sound parseYaml)

include sound

theorem State.Sound.sameTag {first : ℕ}
    (isSave : state.saves[first]? = some save) (isOther : state.saves[second]? = some other) :
    save.dTag = other.dTag :=
  sound.texts _ (State.mem_requests isSave) _ (State.mem_requests isOther)

theorem State.Sound.alone
    (isSave : state.saves[index]? = some save) (isOther : state.saves[second]? = some other)
    (holds : ∃ prepared row, save.phase = .persisted prepared row ∨ save.phase = .written prepared row)
    (owner : ∀ existing, state.workflow = some existing →
      existing.ownerPubkey = save.request.event.pubkey)
    (isWritten : other.IsWritten) : index = second := by
  refine sound.writer isSave isOther (fun key held => ?_) isWritten
  obtain ⟨prepared, row, isPhase⟩ := isWritten
  have isSound := sound.at isOther
  rw [isPhase] at isSound
  obtain ⟨-, -, workflow, isWorkflow, isOwner, -⟩ := isSound
  have sameAuthor : other.request.event.pubkey = save.request.event.pubkey :=
    isOwner.symm.trans (owner workflow isWorkflow)
  rw [Save.holds, isPhase] at held
  rw [sameAuthor, ← sound.sameTag isSave isOther] at held
  obtain ⟨_, _, both⟩ := holds
  cases both with
  | inl persisted => rw [Save.holds, persisted]; exact held
  | inr written => rw [Save.holds, written]; exact held

theorem State.Sound.writes
    (isSave : state.saves[index]? = some save) (isPhase : save.phase = .persisted prepared row)
    (isStored : upsertWorkflow state.workflow ⟨save.request.workflowName, save.request.event.pubkey,
      save.request.channelId, prepared.document⟩ = .ok record)
    (within : save.hasWebhook → ∀ secret, state.returned = some secret →
      prepared.found = some secret) :
    ({ state with workflow := some record }.setSave index save.request
      (.written prepared row)).Sound parseYaml := by
  obtain ⟨isOwner, isDefinition, owner⟩ := upsertWorkflow_ok isStored
  have isSound := sound.at isSave
  rw [isPhase] at isSound
  have inRange := (List.getElem?_eq_some_iff.mp isSave).1
  have unwritten : ¬ save.IsWritten := by
    rintro ⟨_, _, written⟩
    cases isPhase.symm.trans written
  have present : (⟨save.request, .written prepared row⟩ : Save) ∈
      state.saves.set index ⟨save.request, .written prepared row⟩ :=
    mem_of_getElem? (getElem?_set_self inRange)
  have requests : ({ state with workflow := some record }.setSave index save.request
      (.written prepared row)).requests = state.requests :=
    @State.setSave_requests { state with workflow := some record } index save _ isSave
  refine ⟨?_, requests ▸ sound.requests, requests ▸ sound.texts, fun other member => ?_, sound.head,
    fun old member => ?_, fun head tail rows => ?_, fun secret returned => ?_⟩
  · apply sound.exclusive.set
    intro key held
    refine .inl ⟨save, isSave, ?_⟩
    rw [Save.holds, isPhase]
    exact held
  · obtain ⟨second, isOther⟩ := getElem?_of_mem member
    cases getElem?_set isOther with
    | inl same =>
      rw [same.2]
      exact ⟨isSound.1, ⟨isSound.2.event, isSound.2.communityId, isSound.2.dTag, isSound.2.live,
        isSound.2.newer⟩, record, rfl, isOwner, isDefinition⟩
    | inr kept =>
      refine (sound.at kept.2).frame rfl (fun _ old member author => ⟨old, member, author, rfl⟩) ?_
      rintro ⟨other, inserted, written⟩
      have same := sound.alone isSave kept.2 ⟨prepared, row, .inl isPhase⟩ owner
        ⟨other, inserted, written⟩
      exact absurd same.symm kept.1
  · obtain ⟨workflow, isWorkflow, author⟩ := (sound.accepted old member).owner
    refine ⟨⟨record, rfl, ?_⟩, (sound.accepted old member).communityId,
      (sound.accepted old member).kind, requests ▸ (sound.accepted old member).dTag⟩
    rw [author, owner workflow isWorkflow, isOwner]
  · exact .inl ⟨_, present, prepared, row, rfl⟩
  · by_cases hasWebhook : save.hasWebhook
    · have kept := isSound.1.kept (of_decide_eq_true hasWebhook) secret
        (within hasWebhook secret returned)
      refine .inl ?_
      change record.definition.extractSecret = some secret
      rw [isDefinition]
      exact kept
    · exact .inr ⟨_, present, ⟨prepared, row, rfl⟩, eq_false_of_ne_true hasWebhook⟩

end

theorem definition_plain {event : Event} (isDefinition : eventKindU32 event = kindWorkflowDef) :
    purgedKind event = false := by
  rw [purgedKind, isDefinition]
  rfl

theorem State.Sound.commits (sound : state.Sound parseYaml)
    (isSave : state.saves[index]? = some save) (isPhase : save.phase = .written prepared row) :
    ({ state with
        store := state.publishEvent row
        returned := state.returnedAfter save prepared }.setSave index save.request .ended).Sound
      parseYaml := by
  have isSound := sound.at isSave
  rw [isPhase] at isSound
  obtain ⟨suits, inserted, workflow, isWorkflow, isOwner, isDefinition⟩ := isSound
  have owner (existing : WorkflowRecord) (isExisting : state.workflow = some existing) :
      existing.ownerPubkey = save.request.event.pubkey := by
    cases isWorkflow.symm.trans isExisting
    exact isOwner
  have rows : (state.publishEvent row).rows = row :: state.store.rows.map (retireRow
      (coordinateOf state.communityId row.event (row.dTag.getD "")).selects) := by
    rw [← softDelete_rows fun old member => definition_plain (sound.accepted old member).kind]
    rfl
  have requests : ({ state with
      store := state.publishEvent row
      returned := state.returnedAfter save prepared }.setSave index save.request .ended).requests =
        state.requests :=
    @State.setSave_requests { state with
      store := state.publishEvent row
      returned := state.returnedAfter save prepared } index save _ isSave
  have isDefinitionEvent := sound.requests save.request (State.mem_requests isSave)
  refine ⟨?_, requests ▸ sound.requests, requests ▸ sound.texts, fun other member => ?_,
    fun head tail isRows => ?_, fun old member => ?_, fun head tail isRows => ?_,
    fun secret returned => ?_⟩
  · apply sound.exclusive.set
    intro key held
    cases held
  · obtain ⟨second, isOther⟩ := getElem?_of_mem member
    cases getElem?_set isOther with
    | inl same =>
      rw [same.2]
      exact trivial
    | inr kept =>
      refine (sound.at kept.2).frame rfl (fun holds old member author => ?_) fun _ => rfl
      change old ∈ (state.publishEvent row).rows at member
      rw [rows] at member
      cases mem_cons.mp member with
      | inr older =>
        obtain ⟨before, isBefore, rfl⟩ := mem_map.mp older
        rw [event_retireRow] at author
        exact ⟨before, isBefore, author, stamp_retireRow.symm⟩
      | inl new =>
        have sameAuthor : save.request.event.pubkey = other.request.event.pubkey := by
          rw [← inserted.event, ← new, author]
        have same : second = index := by
          refine sound.writer kept.2 isSave (fun key held => ?_) ⟨prepared, row, isPhase⟩
          rw [Save.holds, isPhase, sameAuthor, sound.sameTag isSave kept.2] at held
          obtain ⟨_, _, both⟩ := holds
          cases both with
          | inl persisted => rw [Save.holds, persisted]; exact held
          | inr written => rw [Save.holds, written]; exact held
        exact absurd same kept.1
  · have same := rows.symm.trans isRows
    cases same
    refine ⟨inserted.live, fun old older => ?_⟩
    obtain ⟨before, isBefore, rfl⟩ := mem_map.mp older
    obtain ⟨existing, isExisting, author⟩ := (sound.accepted before isBefore).owner
    rw [stamp_retireRow]
    exact inserted.newer before isBefore (author.trans (owner existing isExisting))
  · change old ∈ (state.publishEvent row).rows at member
    rw [rows] at member
    cases mem_cons.mp member with
    | inl new =>
      subst new
      refine ⟨⟨workflow, isWorkflow, by rw [inserted.event, isOwner]⟩, inserted.communityId, ?_,
        save.request, ?_, inserted.dTag⟩
      · rw [inserted.event]
        exact isDefinitionEvent.1
      · rw [requests]
        exact State.mem_requests isSave
    | inr older =>
      obtain ⟨before, isBefore, rfl⟩ := mem_map.mp older
      obtain ⟨isOwner, communityId, kind, dTag⟩ := sound.accepted before isBefore
      refine ⟨?_, ?_, ?_, ?_⟩
      · rw [event_retireRow]
        exact isOwner
      · rw [communityId_retireRow]
        exact communityId
      · rw [event_retireRow]
        exact kind
      · rw [requests, dTag_retireRow]
        exact dTag
  · cases rows.symm.trans isRows
    refine .inr ⟨workflow, isWorkflow, ?_⟩
    rw [inserted.event, isDefinition, suits.parsed]
    exact isDefinitionEvent.2
  · refine .inl ?_
    change state.returnedAfter save prepared = some secret at returned
    have stored : state.storedSecret = prepared.document.extractSecret := by
      rw [State.storedSecret, isWorkflow, ← isDefinition]
      rfl
    change state.storedSecret = some secret
    cases isReturned : prepared.webhookSecret with
    | some own =>
      rw [State.returnedAfter, isReturned] at returned
      cases returned
      rw [stored]
      exact suits.returned secret isReturned
    | none =>
      rw [State.returnedAfter, isReturned] at returned
      cases hasWebhook : save.hasWebhook with
      | false =>
        rw [hasWebhook] at returned
        cases returned
      | true =>
        rw [hasWebhook] at returned
        cases sound.secret secret returned with
        | inl before => exact before
        | inr removing =>
          obtain ⟨other, member, isWritten, noWebhook⟩ := removing
          obtain ⟨second, isOther⟩ := getElem?_of_mem member
          have same := sound.alone isSave isOther ⟨prepared, row, .inr isPhase⟩ owner isWritten
          rw [← same, isSave] at isOther
          cases isOther
          rw [hasWebhook] at noWebhook
          cases noWebhook

theorem State.Sound.starts {request : Request} (sound : state.Sound parseYaml)
    (kind : eventKindU32 request.event = kindWorkflowDef)
    (parsed : parseYaml request.event.content = .ok request.parsed)
    (text : ∀ save ∈ state.saves, save.dTag = request.dTag) :
    State.Sound parseYaml { state with saves := state.saves ++ [⟨request, .checked⟩] } := by
  have requests : State.requests { state with saves := state.saves ++ [⟨request, .checked⟩] } =
      state.requests ++ [request] := by
    simp [State.requests]
  have known {other : Request} (member : other ∈ state.requests) : other.dTag = request.dTag := by
    obtain ⟨save, isSave, rfl⟩ := mem_map.mp member
    exact text save isSave
  refine ⟨sound.exclusive.concat fun _ => rfl, fun other member => ?_,
    fun first isFirst second isSecond => ?_, fun other member => ?_, sound.head, fun row member => ?_,
    fun head tail rows => ?_, fun secret returned => ?_⟩
  · rw [requests] at member
    cases mem_append.mp member with
    | inl old => exact sound.requests other old
    | inr new =>
      rw [mem_singleton.mp new]
      exact ⟨kind, parsed⟩
  · have tag {other : Request} (member : other ∈ state.requests ++ [request]) :
        other.dTag = request.dTag := by
      cases mem_append.mp member with
      | inl old => exact known old
      | inr new => rw [mem_singleton.mp new]
    rw [requests] at isFirst isSecond
    rw [tag isFirst, tag isSecond]
  · cases mem_append.mp member with
    | inl old =>
      exact (sound.saves other old).frame rfl (fun _ old member author =>
        ⟨old, member, author, rfl⟩) fun _ => rfl
    | inr new =>
      rw [mem_singleton.mp new]
      exact trivial
  · obtain ⟨owner, communityId, kind, other, isOther, tagged⟩ := sound.accepted row member
    refine ⟨owner, communityId, kind, other, ?_, tagged⟩
    rw [requests]
    exact mem_append_left _ isOther
  · cases sound.definition head tail rows with
    | inl writing =>
      obtain ⟨other, member, isWritten⟩ := writing
      exact .inl ⟨other, mem_append_left _ member, isWritten⟩
    | inr stored => exact .inr stored
  · cases sound.secret secret returned with
    | inl stored => exact .inl stored
    | inr removing =>
      obtain ⟨other, member, isWritten, noWebhook⟩ := removing
      exact .inr ⟨other, mem_append_left _ member, isWritten, noWebhook⟩

theorem State.Sound.onSave (sound : state.Sound parseYaml)
    {act : Save → Option (State × Option Outcome)}
    (acted : ∀ save result, state.saves[index]? = some save → act save = some result →
      result.1.Sound parseYaml) : (state.onSave index act).1.Sound parseYaml := by
  unfold State.onSave
  cases isSave : state.saves[index]? with
  | none => exact sound
  | some save =>
    dsimp only
    cases acts : act save with
    | none => exact sound
    | some result => exact acted save result isSave acts

theorem Save.unwritten {save : Save} (apart : ∀ prepared row, save.phase ≠ .written prepared row) :
    ¬ save.IsWritten := by
  rintro ⟨prepared, row, isPhase⟩
  exact apart prepared row isPhase

theorem State.Sound.ends (sound : state.Sound parseYaml) (isSave : state.saves[index]? = some save)
    (unwritten : ¬ save.IsWritten) :
    (state.setSave index save.request .ended).Sound parseYaml :=
  sound.goes isSave unwritten trivial fun _ held => by cases held

variable {result : State × Option Outcome}

theorem State.Sound.reads {generated : String}
    (sound : state.Sound parseYaml) (isSave : state.saves[index]? = some save)
    (acts : state.readWorkflow index generated save = some result) : result.1.Sound parseYaml := by
  unfold State.readWorkflow at acts
  split at acts
  next isPhase =>
    have unwritten : ¬ save.IsWritten := Save.unwritten (by simp [isPhase])
    split at acts
    · cases acts
      exact sound.ends isSave unwritten
    next prepared isPrepared =>
      cases acts
      exact sound.goes isSave unwritten (prepare_suits isPrepared) fun _ held => by cases held
  · cases acts
  · cases acts
  · cases acts
  · cases acts

theorem State.Sound.persists (sound : state.Sound parseYaml)
    (isSave : state.saves[index]? = some save) (acts : state.persist index save = some result) :
    result.1.Sound parseYaml := by
  unfold State.persist at acts
  split at acts
  next prepared isPhase =>
    have unwritten : ¬ save.IsWritten := Save.unwritten (by simp [isPhase])
    have isSound := sound.at isSave
    rw [isPhase] at isSound
    split at acts
    next isFree =>
      obtain ⟨persisted, isPersisted⟩ : ∃ persisted, persistCommandEvent state.store
          state.communityId save.request.event save.request.channelId = persisted := ⟨_, rfl⟩
      rw [isPersisted] at acts
      cases persisted with
      | error error =>
        cases acts
        exact sound.ends isSave unwritten
      | ok persisted =>
        cases persisted with
        | duplicate =>
          cases acts
          exact sound.ends isSave unwritten
        | inserted row =>
          cases acts
          refine sound.goes isSave unwritten
            ⟨isSound, sound.inserts (State.mem_requests isSave) isPersisted⟩ fun key held => ?_
          rw [of_decide_eq_true held]
          exact .inr isFree
    · cases acts
  · cases acts
  · cases acts
  · cases acts
  · cases acts

theorem State.Sound.step (sound : state.Sound parseYaml) {step : Step}
    (within : step.Within parseUuid parseYaml state) :
    (state.after parseUuid parseYaml step).Sound parseYaml := by
  unfold State.after State.step
  cases step with
  | start event isMember role =>
    dsimp only
    split
    · exact sound
    next request isChecked =>
      split
      next isDefinition =>
        obtain ⟨isEvent, parsed⟩ := checkEvent_ok isChecked
        refine sound.starts (isEvent ▸ isDefinition.2) (isEvent ▸ parsed) fun save member => ?_
        rw [Request.dTag, isEvent]
        exact within request isChecked isDefinition.1 save member
      · exact sound
  | read index generated =>
    refine sound.onSave fun save result isSave acts => ?_
    exact sound.reads isSave acts
  | persist index =>
    refine sound.onSave fun save result isSave acts => ?_
    exact sound.persists isSave acts
  | write index channelFound =>
    refine sound.onSave fun save result isSave acts => ?_
    unfold State.write at acts
    split at acts
    next prepared row isPhase =>
      have unwritten : ¬ save.IsWritten := Save.unwritten (by simp [isPhase])
      cases channelFound with
      | false =>
        cases acts
        exact sound.ends isSave unwritten
      | true =>
        rw [Bool.not_true, if_neg Bool.false_ne_true] at acts
        split at acts
        · cases acts
          exact sound.ends isSave unwritten
        next record isStored =>
          cases acts
          exact sound.writes isSave isPhase isStored (within save prepared row isSave isPhase)
    · cases acts
    · cases acts
    · cases acts
    · cases acts
  | commit index =>
    refine sound.onSave fun save result isSave acts => ?_
    unfold State.commit at acts
    split at acts
    next prepared row isPhase =>
      cases acts
      exact sound.commits isSave isPhase
    · cases acts
    · cases acts
    · cases acts
    · cases acts
  | fail index error =>
    refine sound.onSave fun save result isSave acts => ?_
    have ended : result.1 = state.setSave index save.request .ended := by
      unfold State.fail at acts
      split at acts <;> cases acts <;> rfl
    rw [ended]
    exact sound.ends isSave (within save isSave)

theorem State.Sound.start (communityId : CommunityId) (workflowId : Uuid) :
    (State.start communityId workflowId).Sound parseYaml where
  exclusive first second one two key isOne := by
    rw [State.start, getElem?_nil] at isOne
    cases isOne
  requests _ member := absurd member not_mem_nil
  texts _ member := absurd member not_mem_nil
  saves _ member := absurd member not_mem_nil
  head _ _ rows := by cases rows
  accepted _ member := absurd member not_mem_nil
  definition _ _ rows := by cases rows
  secret _ returned := by cases returned

theorem State.Sound.eachStep (sound : state.Sound parseYaml) (steps : List Step)
    (within : state.EachStep parseUuid parseYaml (fun state step =>
      step.Within parseUuid parseYaml state) steps) :
    state.EachStep parseUuid parseYaml (fun state step =>
      (state.after parseUuid parseYaml step).Kept parseYaml) steps := by
  induction steps generalizing state with
  | nil => exact trivial
  | cons step rest ih =>
    have next := sound.step within.1
    exact ⟨next.kept, ih next within.2⟩

/-- Secret and definition are kept in every state. -/
theorem webhook_secret_stable (parseUuid : String → Option Uuid)
    (parseYaml : String → Except String WorkflowDef) (communityId : CommunityId) (workflowId : Uuid)
    (steps : List Step)
    (within : (State.start communityId workflowId).EachStep parseUuid parseYaml (fun state step =>
      step.Within parseUuid parseYaml state) steps) :
    (State.start communityId workflowId).EachStep parseUuid parseYaml (fun state step =>
      (state.after parseUuid parseYaml step).Kept parseYaml) steps :=
  (State.Sound.start communityId workflowId).eachStep steps within

end steps

def sampleUuid : Uuid := .fill 9

def sampleCommunity : CommunityId := ⟨sampleUuid⟩

def sampleParse (_ : String) : Option Uuid := some sampleUuid

def sampleYaml (_ : String) : Except String WorkflowDef :=
  .ok ⟨"deploy", none, .webhook, [⟨"notify", none, none, none, .sendMessage "done" none⟩], true⟩

def sampleEvent (id : UInt8) (createdAt : ℕ) : Event where
  id := .fill id
  pubkey := .fill 0
  createdAt
  kind := 30620
  tags := [⟨["h", "channel"], by simp⟩, ⟨["d", "workflow"], by simp⟩]
  content := ""
  sig := []

/-- One first save. -/
theorem first_save_kept :
    (State.start sampleCommunity sampleUuid).EachStep sampleParse sampleYaml
      (fun state step => (state.after sampleParse sampleYaml step).Kept sampleYaml)
      [.start (sampleEvent 1 100) true none, .read 0 "secret", .persist 0, .write 0 true,
        .commit 0] := by
  refine webhook_secret_stable sampleParse sampleYaml sampleCommunity sampleUuid _
    ⟨fun _ _ _ _ member => absurd member not_mem_nil, trivial, trivial, ?_, trivial, trivial⟩
  intro save prepared row _ _ _ secret returned
  have unreturned : ([Step.start (sampleEvent 1 100) true none, .read 0 "secret", .persist 0].foldl
      (fun state step => state.after sampleParse sampleYaml step)
      (State.start sampleCommunity sampleUuid)).returned = none := by
    decide +kernel
  cases unreturned.symm.trans returned

def racingSaves : List Step :=
  [.start (sampleEvent 1 100) true none, .start (sampleEvent 2 101) true none, .read 0 "first",
    .read 1 "second", .persist 0, .write 0 true, .commit 0, .persist 1, .write 1 true]

theorem secret_overwritten :
    ¬ (State.start sampleCommunity sampleUuid).EachStep sampleParse sampleYaml
      (fun state step => (state.after sampleParse sampleYaml step).Kept sampleYaml) racingSaves := by
  intro kept
  have last := kept.2.2.2.2.2.2.2.2.1.secret "first" (by decide +kernel)
  cases last with
  | inl stored =>
    revert stored
    decide +kernel
  | inr removing =>
    obtain ⟨save, member, -, noWebhook⟩ := removing
    have allWebhooks : (racingSaves.foldl (fun state step => state.after sampleParse sampleYaml step)
        (State.start sampleCommunity sampleUuid)).saves.all Save.hasWebhook := by
      decide +kernel
    rw [all_eq_true.mp allWebhooks save member] at noWebhook
    cases noWebhook

end Buzz.Workflows
