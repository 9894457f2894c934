import Buzz.Library.Slots
import Buzz.Replace.Calls

/-! Saves of a workflow definition. -/

namespace Buzz.Workflows

open Nostr Buzz.Req Buzz.Replace Library.Locks

def kindWorkflowDef : ℕ := 30620

inductive TriggerDef
  | messagePosted (filter : Option String)
  | reactionAdded (emoji : Option String)
  | diffPosted (filter : Option String)
  | schedule (cron interval : Option String)
  | webhook
  deriving DecidableEq

inductive ActionDef
  | sendMessage (text : String) (channel : Option String)
  | sendDm (recipient text : String)
  | setChannelTopic (topic : String)
  | addReaction (emoji : String)
  | callWebhook (url : String) (method : Option String) (headers : Option (List (String × String)))
      (body : Option String)
  | requestApproval (approver message : String) (timeout : Option String)
  | delay (duration : String)
  deriving DecidableEq

structure WorkflowStep where
  id : String
  name : Option String
  ifExpr : Option String
  timeoutSecs : Option ℕ
  action : ActionDef
  deriving DecidableEq

structure WorkflowDef where
  name : String
  description : Option String
  trigger : TriggerDef
  steps : List WorkflowStep
  enabled : Bool
  deriving DecidableEq

def WorkflowDef.requiresElevatedAuthority (self : WorkflowDef) : Bool :=
  self.steps.any fun step =>
    match step.action with
    | .callWebhook _ _ _ _ => true
    | _ => false

/-- Its fields, and `_webhook_secret`. -/
structure Document where
  parsed : WorkflowDef
  webhookSecret : Option String
  deriving DecidableEq

def Document.injectSecret (self : Document) (secret : String) : Document :=
  { self with webhookSecret := some secret }

def Document.extractSecret (self : Document) : Option String := self.webhookSecret

structure WorkflowRecord where
  name : String
  ownerPubkey : PublicKey
  channelId : Uuid
  definition : Document
  deriving DecidableEq

inductive IngestError
  | rejected (message : String)
  | internal (message : String)
  deriving DecidableEq

/-- What a save goes by once its event is checked. -/
structure Request where
  event : Event
  channelId : Uuid
  workflowId : Uuid
  workflowName : String
  parsed : WorkflowDef
  deriving DecidableEq

/-- `found` is the secret in the workflow that it has read. -/
structure Prepared where
  document : Document
  webhookSecret : Option String
  found : Option String
  deriving DecidableEq

section handler

def extractTag (name : String) (event : Event) : Option String :=
  event.tags.findSome? fun tag => if tag.kind = name then tag.content else none

variable (parseUuid : String → Option Uuid) (parseYaml : String → Except String WorkflowDef)

/-- The answers on membership and role come from outside. -/
def checkEvent (event : Event) (isMember : Bool) (role : Option String) :
    Except IngestError Request :=
  match extractTag "h" event with
  | none => .error (.rejected "invalid: missing h tag (channel_id)")
  | some channelIdStr =>
    match parseUuid channelIdStr with
    | none => .error (.rejected "invalid: bad channel_id format")
    | some channelId =>
      match extractTag "d" event with
      | none => .error (.rejected "invalid: missing d tag (workflow_id)")
      | some workflowIdStr =>
        match parseUuid workflowIdStr with
        | none => .error (.rejected "invalid: bad workflow_id format")
        | some workflowId =>
          if !isMember then .error (.rejected "forbidden: not a member of this channel")
          else
            match parseYaml event.content with
            | .error error => .error (.rejected ("invalid: workflow YAML parse error: " ++ error))
            | .ok parsed =>
              if parsed.requiresElevatedAuthority && role ≠ some "owner" && role ≠ some "admin" then
                .error (.rejected
                  "forbidden: workflows with call_webhook actions require the owner or admin role")
              else
                .ok ⟨event, channelId, workflowId, (extractTag "name" event).getD parsed.name, parsed⟩

/-- A webhook's secret is kept, or generated where there was none. -/
def prepare (request : Request) (existingWorkflow : Option WorkflowRecord) (generated : String) :
    Except IngestError Prepared :=
  if existingWorkflow.any fun workflow =>
      workflow.ownerPubkey ≠ request.event.pubkey || workflow.channelId ≠ request.channelId then
    .error (.rejected "forbidden: workflow belongs to a different owner or channel")
  else
    let document : Document := ⟨request.parsed, none⟩
    let existingSecret := existingWorkflow.bind (·.definition.extractSecret)
    if request.parsed.trigger = .webhook then
      let secret := existingSecret.getD generated
      let returned := if existingSecret.isNone then some secret else none
      .ok ⟨document.injectSecret secret, returned, existingSecret⟩
    else .ok ⟨document, none, existingSecret⟩

def dTagMaxLen : ℕ := 1024

def lockKey (communityId : CommunityId) (kind : ℕ) (pubkey : PublicKey) (dTag : String) : UInt64 :=
  let kindBytes := (List.range 4).map fun index => UInt8.ofNat (kind / 256 ^ index)
  (communityId.uuid.val ++ kindBytes ++ pubkey.val ++ dTag.toUTF8.toList).foldl
    (fun hash byte => (hash ^^^ byte.toUInt64) * 0x100000001b3) 0xcbf29ce484222325

inductive PersistResult
  | duplicate
  | inserted (row : Row)

def coordinateOf (communityId : CommunityId) (event : Event) (dTag : String) : Coordinate :=
  .parameterized communityId kindWorkflowDef event.pubkey dTag

def commandRowAt (dated : Option ℤ) (communityId : CommunityId) (event : Event) (channelId : Uuid) :
    Except IngestError Row :=
  match dated with
  | none => .error (.rejected ("invalid: bad timestamp " ++ toString (asI64 event.createdAt)))
  | some createdAt =>
    if dTagMaxLen < ((extractDTag event).getD "").utf8ByteSize then
      .error (.rejected ("invalid: d tag too long (" ++
        toString ((extractDTag event).getD "").utf8ByteSize ++ " bytes, max " ++
          toString dTagMaxLen ++ ")"))
    else .ok ⟨communityId, event, createdAt, some channelId, some ((extractDTag event).getD ""), false⟩

def persistCommandEventAt (dated : Option ℤ) (store : Store) (communityId : CommunityId)
    (event : Event) (channelId : Uuid) : Except IngestError PersistResult :=
  match commandRowAt dated communityId event channelId with
  | .error error => .error error
  | .ok row =>
    if (store.existing (coordinateOf communityId event ((extractDTag event).getD "")).selects).any
        row.stamp.dominatedBy then
      .ok .duplicate
    else if store.rows.any row.sameKey then .ok .duplicate
    else .ok (.inserted row)

/-- Once its lock is held. -/
def persistCommandEvent (store : Store) (communityId : CommunityId) (event : Event)
    (channelId : Uuid) : Except IngestError PersistResult :=
  persistCommandEventAt (createdAtOf event) store communityId event channelId

/-- `upsert_workflow`. -/
def upsertWorkflow (workflow : Option WorkflowRecord) (record : WorkflowRecord) :
    Except IngestError WorkflowRecord :=
  match workflow with
  | none => .ok record
  | some existing =>
    if existing.ownerPubkey = record.ownerPubkey ∧ existing.channelId = record.channelId then
      .ok { existing with name := record.name, definition := record.definition }
    else .error (.rejected "forbidden: workflow belongs to a different owner or channel")

end handler

inductive Phase
  | checked
  | prepared (prepared : Prepared)
  | persisted (prepared : Prepared) (row : Row)
  | written (prepared : Prepared) (row : Row)
  | ended

structure Save where
  request : Request
  phase : Phase

inductive Outcome
  | response (webhookSecret : Option String)
  | duplicate
  | failed (error : IngestError)
  deriving DecidableEq

/-- `returned` is the last secret still in force. -/
structure State where
  communityId : CommunityId
  workflowId : Uuid
  workflow : Option WorkflowRecord
  store : Store
  saves : List Save
  returned : Option String

inductive Step
  | start (event : Event) (isMember : Bool) (role : Option String)
  | read (index : ℕ) (generated : String)
  | persist (index : ℕ)
  | write (index : ℕ) (channelFound : Bool)
  | commit (index : ℕ)
  | fail (index : ℕ) (error : String)

namespace Save

variable (self : Save)

def dTag : String := (extractDTag self.request.event).getD ""

def holds (communityId : CommunityId) (key : UInt64) : Bool :=
  match self.phase with
  | .persisted _ _ | .written _ _ =>
    key = lockKey communityId kindWorkflowDef self.request.event.pubkey self.dTag
  | .checked | .prepared _ | .ended => false

def hasWebhook : Bool := self.request.parsed.trigger = .webhook

end Save

namespace State

variable (self : State) (parseUuid : String → Option Uuid)
  (parseYaml : String → Except String WorkflowDef)

def start (communityId : CommunityId) (workflowId : Uuid) : State :=
  ⟨communityId, workflowId, none, ⟨[], fun _ => none⟩, [], none⟩

def setSave (index : ℕ) (request : Request) (phase : Phase) : State :=
  { self with saves := self.saves.set index ⟨request, phase⟩ }

def lockFree (index : ℕ) (key : UInt64) : Bool :=
  !others index (·.holds self.communityId key) self.saves

def publishEvent (row : Row) : Store :=
  let retired := self.store.softDelete
    (coordinateOf self.communityId row.event (row.dTag.getD "")).selects
  { retired with rows := row :: retired.rows }

/-- What one save does next, `none` where it waits or is not at that point. -/
def readWorkflow (index : ℕ) (generated : String) (save : Save) : Option (State × Option Outcome) :=
  match save.phase with
  | .checked =>
    match prepare save.request self.workflow generated with
    | .error error => some (self.setSave index save.request .ended, some (.failed error))
    | .ok prepared => some (self.setSave index save.request (.prepared prepared), none)
  | .prepared _ | .persisted _ _ | .written _ _ | .ended => none

def persist (index : ℕ) (save : Save) : Option (State × Option Outcome) :=
  match save.phase with
  | .prepared prepared =>
    if self.lockFree index
        (lockKey self.communityId kindWorkflowDef save.request.event.pubkey save.dTag) then
      match persistCommandEvent self.store self.communityId save.request.event
          save.request.channelId with
      | .error error => some (self.setSave index save.request .ended, some (.failed error))
      | .ok .duplicate => some (self.setSave index save.request .ended, some .duplicate)
      | .ok (.inserted row) => some (self.setSave index save.request (.persisted prepared row), none)
    else none
  | .checked | .persisted _ _ | .written _ _ | .ended => none

def write (index : ℕ) (channelFound : Bool) (save : Save) : Option (State × Option Outcome) :=
  match save.phase with
  | .persisted prepared row =>
    if !channelFound then
      some (self.setSave index save.request .ended,
        some (.failed (.rejected "invalid: workflow channel not found")))
    else
      match upsertWorkflow self.workflow ⟨save.request.workflowName, save.request.event.pubkey,
          save.request.channelId, prepared.document⟩ with
      | .error error => some (self.setSave index save.request .ended, some (.failed error))
      | .ok record =>
        some ({ self with workflow := some record }.setSave index save.request
          (.written prepared row), none)
  | .checked | .prepared _ | .written _ _ | .ended => none

def returnedAfter (save : Save) (prepared : Prepared) : Option String :=
  match prepared.webhookSecret with
  | some secret => some secret
  | none => if save.hasWebhook then self.returned else none

def commit (index : ℕ) (save : Save) : Option (State × Option Outcome) :=
  match save.phase with
  | .written prepared row =>
    some ({ self with
        store := self.publishEvent row
        returned := self.returnedAfter save prepared }.setSave index save.request .ended,
      some (.response prepared.webhookSecret))
  | .checked | .prepared _ | .persisted _ _ | .ended => none

/-- The transaction is rolled back. -/
def fail (index : ℕ) (error : String) (save : Save) : Option (State × Option Outcome) :=
  match save.phase with
  | .checked | .prepared _ | .persisted _ _ | .written _ _ =>
    some (self.setSave index save.request .ended, some (.failed (.internal error)))
  | .ended => none

def onSave (index : ℕ) (act : Save → Option (State × Option Outcome)) : State × Option Outcome :=
  match self.saves[index]? with
  | none => (self, none)
  | some save => (act save).getD (self, none)

def step : Step → State × Option Outcome
  | .start event isMember role =>
    match checkEvent parseUuid parseYaml event isMember role with
    | .error error => (self, some (.failed error))
    | .ok request =>
      if request.workflowId = self.workflowId ∧ eventKindU32 event = kindWorkflowDef then
        ({ self with saves := self.saves ++ [⟨request, .checked⟩] }, none)
      else (self, none)
  | .read index generated => self.onSave index (self.readWorkflow index generated)
  | .persist index => self.onSave index (self.persist index)
  | .write index channelFound => self.onSave index (self.write index channelFound)
  | .commit index => self.onSave index (self.commit index)
  | .fail index error => self.onSave index (self.fail index error)

def after (step : Step) : State := (self.step parseUuid parseYaml step).1

end State

end Buzz.Workflows
