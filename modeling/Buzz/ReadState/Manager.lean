import Buzz.Json
import Buzz.Library.Keyed

/-! The read-state manager of a desktop client: a read marker for each context, and the blobs that
tell of them. -/

namespace Buzz.ReadState

open Library

abbrev Contexts := Ordered String ℕ

def readStateMaxPlaintextBytes : ℕ := 32768
def readStateMaxSlots : ℕ := 8
def maxContexts : ℕ := 10000

def startsWith (text lead : String) : Bool := lead.toList.isPrefixOf text.toList

def isMsgKey (key : String) : Bool := startsWith key "msg:"

def isThreadKey (key : String) : Bool := startsWith key "thread:"

/-- `text.length`: characters outside the basic plane count twice. -/
def utf16Length (text : String) : ℕ :=
  (text.toList.map fun c => if 0x10000 ≤ c.toNat then 2 else 1).sum

structure ReadStateBlob where
  clientId : String
  contexts : Contexts

structure ReadStateEvent where
  slotId : String
  blob : ReadStateBlob
  createdAt : ℕ

def isValidSlotId (slotId : String) : Bool :=
  decide (0 < utf16Length slotId ∧ utf16Length slotId ≤ 64) &&
    slotId.toList.all (·.toNat ≤ 0x7f)

def isValidBlob (blob : ReadStateBlob) : Bool :=
  decide (blob.clientId ≠ "" ∧ utf16Length blob.clientId ≤ 64) &&
    blob.contexts.entries.length ≤ maxContexts

def sanitizeContexts (contexts : Contexts) : Contexts :=
  contexts.filter fun entry => decide (entry.1.utf8ByteSize ≤ 256 ∧ entry.2 ≤ 4294967295)

def parseReadStateEvent (event : ReadStateEvent) : Option ReadStateEvent :=
  if isValidSlotId event.slotId && isValidBlob event.blob then
    some { event with
      blob := ⟨event.blob.clientId, sanitizeContexts event.blob.contexts⟩ }
  else none

def blobText (clientId : String) (contexts : Contexts) : String :=
  "\x7b\"v\":1,\"client_id\":" ++ stringText clientId ++ ",\"contexts\":\x7b" ++
    String.intercalate ","
      (contexts.entries.map fun entry => stringText entry.1 ++ ":" ++ Nat.repr entry.2) ++
        "\x7d\x7d"

def blobBytes (clientId : String) (contexts : Contexts) : ℕ :=
  (blobText clientId contexts).utf8ByteSize

def evictions (maxBytes : ℕ) : ℤ → List (String × ℕ) → List String
  | _, [] => []
  | currentBytes, (key, ts) :: rest =>
    if currentBytes ≤ maxBytes then []
    else
      key :: evictions maxBytes
        (currentBytes - (utf16Length key + 3 + utf16Length (Nat.repr ts) + 1 : ℕ)) rest

def oldestFirst (entries : List (String × ℕ)) : List (String × ℕ) :=
  entries.mergeSort fun one other => one.2 ≤ other.2

structure TrimResult where
  contexts : Contexts
  evicted : ℕ
  fitsAfterTrim : Bool

/-- The oldest of each first; channels stay. -/
def trimContextsToBudget (contexts : Contexts) (clientId : String) (maxBytes : ℕ) : TrimResult :=
  let currentBytes := blobBytes clientId contexts
  if currentBytes ≤ maxBytes then ⟨contexts, 0, true⟩
  else
    let msgEntries := contexts.entries.filter fun entry => isMsgKey entry.1
    let threadEntries := contexts.entries.filter fun entry =>
      !isMsgKey entry.1 && isThreadKey entry.1
    let toEvict := evictions maxBytes currentBytes
      (oldestFirst msgEntries ++ oldestFirst threadEntries)
    let kept := contexts.filter fun entry => !toEvict.contains entry.1
    ⟨kept, toEvict.length, decide (blobBytes clientId kept ≤ maxBytes)⟩

def setAll (contexts : Contexts) (entries : List (String × ℕ)) : Contexts :=
  entries.foldl (fun contexts entry => contexts.set entry.1 entry.2) contexts

def distribute (channelEntries : List (String × ℕ)) (count : ℕ) : List Contexts :=
  (List.range count).map fun slot =>
    setAll .empty ((channelEntries.zipIdx.filter (·.2 % count == slot)).map Prod.fst)

def overflows (clientId : String) (maxBytes : ℕ) (slots : List Contexts) : Bool :=
  slots.any fun contexts => maxBytes < blobBytes clientId contexts

def slotsNeeded (channelEntries : List (String × ℕ)) (clientId : String) (maxBytes : ℕ) :
    ℕ → ℕ → ℕ
  | 0, count => count
  | more + 1, count =>
    if overflows clientId maxBytes (distribute channelEntries count) then
      slotsNeeded channelEntries clientId maxBytes more (count + 1)
    else count

def splitContextsIntoBudgetedSlots (channelEntries threadMsgEntries : List (String × ℕ))
    (clientId : String) (initialSlotCount maxSlots maxBytes : ℕ) : Option (List Contexts) :=
  let count := slotsNeeded channelEntries clientId maxBytes (maxSlots - initialSlotCount)
    initialSlotCount
  let slots := distribute channelEntries count
  if overflows clientId maxBytes slots then none
  else
    match slots with
    | [] => some []
    | first :: others =>
      some ((trimContextsToBudget (setAll first threadMsgEntries) clientId maxBytes).contexts ::
        others)

structure StoredReadState where
  contexts : List (String × ℕ)
  publishableContextIds : List String
  contextSourceCreatedAt : Contexts

structure ReadStateManager where
  clientId : String
  slotId : String
  extraSlotIds : List String
  effectiveState : Contexts
  publishableContextIds : List String
  lastPublishedContexts : Contexts
  maxFetchedCreatedAt : ℕ
  contextSourceCreatedAt : Contexts
  pendingSyncedAdvances : List String
  scheduled : Bool

/-- The relay may store a blob and its answer may be lost. -/
inductive PublishOutcome
  | accepted
  | unanswered
  | failed

def mergeLocalStorageKey (entries : List (String × ℕ)) : Contexts :=
  entries.foldl
    (fun contexts entry =>
      if (contexts.get entry.1).getD 0 < entry.2 then contexts.set entry.1 entry.2 else contexts)
    .empty

def applyRemoteContextTimestamp (effectiveState contextSourceCreatedAt : Contexts)
    (contextId : String) (timestamp eventCreatedAt : ℕ) : Contexts × Contexts × Bool :=
  let sourceCreatedAt := (contextSourceCreatedAt.get contextId).getD 0
  let current := (effectiveState.get contextId).getD 0
  let next := max current timestamp
  (if next = current then effectiveState else effectiveState.set contextId next,
    if sourceCreatedAt < eventCreatedAt then contextSourceCreatedAt.set contextId eventCreatedAt
    else contextSourceCreatedAt,
    next ≠ current)

namespace ReadStateManager

variable (self : ReadStateManager)

def hydrate (clientId slotId : String) (extraSlotIds : List String) (stored : StoredReadState) :
    ReadStateManager where
  clientId
  slotId
  extraSlotIds
  effectiveState := setAll .empty (mergeLocalStorageKey stored.contexts).entries
  publishableContextIds := stored.publishableContextIds
  lastPublishedContexts := .empty
  maxFetchedCreatedAt := 0
  contextSourceCreatedAt := stored.contextSourceCreatedAt
  pendingSyncedAdvances := []
  scheduled := false

def getOwnTimestamp (contextId : String) : Option ℕ := self.effectiveState.get contextId

def getEffectiveTimestamp (parentResolver : String → Option String) (contextId : String) :
    Option ℕ :=
  match parentResolver contextId with
  | none => self.getOwnTimestamp contextId
  | some parentId =>
    match self.getOwnTimestamp parentId, self.getOwnTimestamp contextId with
    | none, own => own
    | some parent, none => some parent
    | some parent, some own => some (max own parent)

def schedulePublish : ReadStateManager := { self with scheduled := true }

def addPublishable (contextId : String) : ReadStateManager :=
  { self with publishableContextIds := self.publishableContextIds.insert contextId }

def advanceContext (contextId : String) (unixTimestamp : ℕ) (publishable : Bool) :
    ReadStateManager :=
  if unixTimestamp ≤ (self.effectiveState.get contextId).getD 0 then
    if !publishable || self.publishableContextIds.contains contextId then self
    else (self.addPublishable contextId).schedulePublish
  else
    let next := { self with effectiveState := self.effectiveState.set contextId unixTimestamp }
    if publishable then (next.addPublishable contextId).schedulePublish else next

def markContextRead (contextId : String) (unixTimestamp now : ℕ) : ReadStateManager :=
  let next := self.advanceContext contextId unixTimestamp true
  { next with
    contextSourceCreatedAt :=
      next.contextSourceCreatedAt.set contextId (max now (next.maxFetchedCreatedAt + 1)) }

def seedContextRead (contextId : String) (unixTimestamp : ℕ) : ReadStateManager :=
  self.advanceContext contextId unixTimestamp false

def applyRemote (createdAt : ℕ) (entry : String × ℕ) : ReadStateManager × Bool :=
  match applyRemoteContextTimestamp self.effectiveState self.contextSourceCreatedAt entry.1 entry.2
      createdAt with
  | (effectiveState, contextSourceCreatedAt, advanced) =>
    ({ self with
        effectiveState, contextSourceCreatedAt
        pendingSyncedAdvances :=
          if advanced then self.pendingSyncedAdvances.insert entry.1
          else self.pendingSyncedAdvances },
      advanced)

def incomingContext (createdAt : ℕ) (state : ReadStateManager × Bool) (entry : String × ℕ) :
    ReadStateManager × Bool :=
  match state.1.applyRemote createdAt entry with
  | (next, advanced) =>
    if next.publishableContextIds.contains entry.1 then (next, state.2 || advanced)
    else (next.addPublishable entry.1, true)

def handleIncomingEvent (event : ReadStateEvent) : ReadStateManager :=
  match parseReadStateEvent event with
  | none => self
  | some parsed =>
    let seen := { self with
      maxFetchedCreatedAt := max self.maxFetchedCreatedAt parsed.createdAt }
    match parsed.blob.contexts.entries.foldl (incomingContext parsed.createdAt) (seen, false) with
    | (next, anyAdvanced) =>
      if anyAdvanced && parsed.blob.clientId != self.clientId then next.schedulePublish else next

def mergeContext (createdAt : ℕ) (state : ReadStateManager) (entry : String × ℕ) :
    ReadStateManager :=
  match state.applyRemote createdAt entry with
  | (next, advanced) => if advanced then next.addPublishable entry.1 else next

def mergeEvent (event : ReadStateEvent) : ReadStateManager :=
  match parseReadStateEvent event with
  | none => self
  | some parsed =>
    parsed.blob.contexts.entries.foldl (mergeContext parsed.createdAt)
      { self with maxFetchedCreatedAt := max self.maxFetchedCreatedAt parsed.createdAt }

def ownBlobsBySlot (events : List ReadStateEvent) : Ordered String ReadStateEvent :=
  (events.filterMap parseReadStateEvent).foldl
    (fun slots parsed =>
      if parsed.blob.clientId = self.clientId then
        match slots.get parsed.slotId with
        | none => slots.set parsed.slotId parsed
        | some existing =>
          if existing.createdAt < parsed.createdAt then slots.set parsed.slotId parsed else slots
      else slots)
    .empty

def unionContexts (slots : List Contexts) : Contexts :=
  (slots.flatMap Ordered.entries).foldl
    (fun contexts entry =>
      match contexts.get entry.1 with
      | none => contexts.set entry.1 entry.2
      | some existing => if existing < entry.2 then contexts.set entry.1 entry.2 else contexts)
    .empty

def settle (events : List ReadStateEvent) (freshSlotId : String) : ReadStateManager :=
  let squatted := (events.filterMap parseReadStateEvent).any fun parsed =>
    parsed.slotId == self.slotId && parsed.blob.clientId != self.clientId
  let moved := { self with slotId := if squatted then freshSlotId else self.slotId }
  let own := (self.ownBlobsBySlot events).entries.map (·.2.blob.contexts)
  if own.isEmpty then moved
  else
    { moved with
      publishableContextIds :=
        (own.flatMap Ordered.entries).foldl (fun ids entry => ids.insert entry.1)
          moved.publishableContextIds
      lastPublishedContexts := unionContexts own }

def publishable : Contexts :=
  self.effectiveState.filter fun entry => self.publishableContextIds.contains entry.1

def currentContexts : Option Contexts :=
  let trimmed := trimContextsToBudget self.publishable self.clientId readStateMaxPlaintextBytes
  if trimmed.fitsAfterTrim then some trimmed.contexts else none

def isIdenticalToLastPublished (contexts : Contexts) : Bool :=
  self.lastPublishedContexts.entries.length = contexts.entries.length &&
    contexts.entries.all fun entry => self.lastPublishedContexts.get entry.1 == some entry.2

def splitContextsIntoSlots (freshIds : ℕ → String) :
    ReadStateManager × Option (List (String × Contexts)) :=
  let isPrunable (entry : String × ℕ) : Bool := isMsgKey entry.1 || isThreadKey entry.1
  let allSlotIds := self.slotId :: self.extraSlotIds
  match splitContextsIntoBudgetedSlots
      (self.publishable.entries.filter fun entry => !isPrunable entry)
      (self.publishable.entries.filter isPrunable) self.clientId allSlotIds.length
      readStateMaxSlots readStateMaxPlaintextBytes with
  | none => (self, none)
  | some slots =>
    let newIds := (List.range (slots.length - allSlotIds.length)).map freshIds
    ({ self with extraSlotIds := self.extraSlotIds ++ newIds },
      some ((allSlotIds ++ newIds).zip slots))

def publishOneSlot (now : ℕ) (outcome : PublishOutcome) (slot : String × Contexts) :
    ReadStateManager × List ReadStateEvent :=
  let createdAt := max now (self.maxFetchedCreatedAt + 1)
  let event : ReadStateEvent := ⟨slot.1, ⟨self.clientId, slot.2⟩, createdAt⟩
  match outcome with
  | .failed => (self, [])
  | .unanswered => (self, [event])
  | .accepted =>
    ({ self with
        contextSourceCreatedAt :=
          setAll self.contextSourceCreatedAt
            ((slot.2.entries.filter fun entry =>
              self.lastPublishedContexts.get entry.1 != some entry.2).map
                fun entry => (entry.1, createdAt))
        lastPublishedContexts := setAll self.lastPublishedContexts slot.2.entries
        maxFetchedCreatedAt := max self.maxFetchedCreatedAt createdAt },
      [event])

def publishSlots (now : ℕ) (outcomes : ℕ → PublishOutcome) (slots : List (String × Contexts)) :
    ReadStateManager × List ReadStateEvent :=
  slots.zipIdx.foldl
    (fun state slot =>
      match state.1.publishOneSlot now (outcomes slot.2) slot.1 with
      | (next, stored) => (next, state.2 ++ stored))
    (self, [])

def publishSplitSlots (now : ℕ) (freshIds : ℕ → String) (outcomes : ℕ → PublishOutcome) :
    ReadStateManager × List ReadStateEvent :=
  match self.splitContextsIntoSlots freshIds with
  | (next, none) => (next, [])
  | (next, some slots) =>
    if next.isIdenticalToLastPublished (unionContexts (slots.map Prod.snd)) then (next, [])
    else { next with lastPublishedContexts := .empty }.publishSlots now outcomes slots

def publish (now : ℕ) (freshIds : ℕ → String) (outcomes : ℕ → PublishOutcome) :
    ReadStateManager × List ReadStateEvent :=
  match self.currentContexts with
  | none => self.publishSplitSlots now freshIds outcomes
  | some contexts =>
    let next := if self.extraSlotIds.isEmpty then self
      else { self with extraSlotIds := [], lastPublishedContexts := .empty }
    if next.isIdenticalToLastPublished contexts then (next, [])
    else next.publishOneSlot now (outcomes 0) (next.slotId, contexts)

/-- The end of the initialization publishes what the relay does not have. -/
def finishInitialize : ReadStateManager :=
  match self.currentContexts with
  | none => self.schedulePublish
  | some contexts => if self.isIdenticalToLastPublished contexts then self else self.schedulePublish

end ReadStateManager

end Buzz.ReadState
