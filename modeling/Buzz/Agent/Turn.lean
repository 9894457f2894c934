import Buzz.Agent.History

/-! `RunCtx::run`, one turn of a session. -/

namespace Buzz.Agent

inductive ProviderStop
  | endTurn
  | toolUse
  | maxTokens
  | refusal
  | other
  deriving DecidableEq

inductive StopReason
  | endTurn
  | cancelled
  | maxTokens
  | maxTurnRequests
  | refusal
  deriving DecidableEq

structure LlmResponse where
  text : String
  toolCalls : List ToolCall
  stop : ProviderStop
  inputTokens : Option ℕ
  reasoningDetails : Option (Json Number)

structure Config where
  formatFloat : F64 → String
  maxRounds : ℕ
  maxHandoffs : ℕ
  stopMaxRejections : ℕ
  maxHistoryBytes : ℕ
  maxContextTokens : ℕ
  maxOutputTokens : ℕ
  requireReply : Bool
  toolTimeoutSecs : ℕ
  has : String → Bool
  isHook : String → Bool

structure RunCtx where
  history : List HistoryItem
  originalTask : Option String
  handoffCount : ℕ
  lastRequestInputTokens : Option ℕ
  lastRequestHistoryBytes : Option ℕ

def RunCtx.initial : RunCtx := ⟨[], none, 0, none, none⟩

/-- `closed` when it never got its permit. -/
inductive ToolAnswer
  | done (content : List ToolResultContent) (isError : Bool)
  | failed (error : AgentError)
  | timeout
  | closed

inductive Phase
  | boundary
  | summarizing
  | compacting (summary : String) (currentPrompt : Option String)
  | requesting
  | stopping
  | preflight (calls : List ToolCall) (results : List (Option ToolResult)) (index : ℕ)
      (runnable : List ℕ)
  | executing (calls : List ToolCall) (results : List (Option ToolResult))
      (runnable tasks : List ℕ) (draining : Bool)
  | returned (result : Except AgentError StopReason)

/-- `fresh` lists the user items since the last request. -/
structure Turn where
  runId : String
  ctx : RunCtx
  queue : List (List ContentBlock)
  cancelled : Bool
  round : ℕ
  stopRejections : ℕ
  buzzReplyCallSeen : Bool
  replyNags : ℕ
  fresh : List String
  phase : Phase

/-- Its input, the histories sent to `Llm::complete`, the turns' ends. -/
inductive Entry
  | prompted (prompt : List ContentBlock)
  | steered (blocks : List ContentBlock)
  | request (history : List HistoryItem)
  | ended (result : Except AgentError StopReason)

def u64Max : ℕ := 2 ^ 64 - 1

def saturatingAdd (first second : ℕ) : ℕ := min u64Max (first + second)

def tokenThreshold (maxContextTokens maxOutputTokens : ℕ) : ℕ :=
  min (maxContextTokens / 10 * 9) (maxContextTokens - maxOutputTokens)

def byteFallbackThreshold (maxContextTokens maxOutputTokens maxHistoryBytes : ℕ) : ℕ :=
  min (tokenThreshold maxContextTokens maxOutputTokens) (maxHistoryBytes / 10 * 9)

def mapStop : ProviderStop → StopReason
  | .endTurn | .toolUse | .other => .endTurn
  | .maxTokens => .maxTokens
  | .refusal => .refusal

def maxReplyNags : ℕ := 2

def replyGuardServer : String := "buzz-agent"

def replyGuardNag : String :=
  "You are about to end this turn without calling `buzz messages send`. " ++
  "Your assistant text and reasoning are never shown to anyone — if you did work, found an " ++
  "answer, or hit a blocker that someone is waiting on, it exists only if you publish it. " ++
  "If you already posted, or if silence is genuinely correct for this turn, ignore this and " ++
  "end your turn."

def getString (arguments : Json Number) (key : String) : Option String :=
  match arguments with
  | .object entries =>
    match entries.lookup key with
    | some (.string value) => some value
    | _ => none
  | _ => none

def contains (text needle : String) : Bool := needle.toList <:+: text.toList

def isReplyShaped (name : String) (arguments : Json Number) : Bool :=
  "__shell".toList <:+ name.toList &&
    (getString arguments "command").any fun cmd =>
      contains cmd "messages send" || contains cmd "reactions add"

def isBuzzReplyCall (config : Config) (call : ToolCall) : Bool :=
  config.has call.name && !config.isHook call.name && isReplyShaped call.name call.arguments

def errorReflectionSuffix : String :=
  "\n\n[Reflect] Before retrying, identify the cause and change your approach."

def loadSkillTool : String := "load_skill"

def syntheticToolResult (call : ToolCall) (message : String) : ToolResult :=
  ⟨call.providerId, [.text message], true⟩

/-- `invoke_tool_inner` and `outcome_to_result`. -/
def outcomeToResult (config : Config) (cancelled : Bool) (call : ToolCall) :
    ToolAnswer → ToolResult
  | .done content isError => ⟨call.providerId, content, isError⟩
  | .failed .cancelled => syntheticToolResult call "cancelled"
  | .failed error => syntheticToolResult call error.display
  | .timeout =>
    if cancelled then syntheticToolResult call "cancelled"
    else
      syntheticToolResult call ("tool: timeout after " ++ Nat.repr config.toolTimeoutSecs ++
        "s. The command took too long. Try a faster approach.")
  | .closed => syntheticToolResult call "cancelled"

def fillCancelled (calls : List ToolCall) (slots : ℕ → Bool) (results : List (Option ToolResult)) :
    List (Option ToolResult) :=
  results.mapIdx fun index result =>
    match result, calls[index]? with
    | none, some call => if slots index then some (syntheticToolResult call "cancelled") else none
    | result, _ => result

def appendedResult (call : ToolCall) (result : Option ToolResult) : ToolResult :=
  let result := result.getD
    ⟨call.providerId, [.text "internal error: missing result"], true⟩
  if result.isError then
    { result with content := result.content ++ [.text errorReflectionSuffix] }
  else result

def appendResults (calls : List ToolCall) (results : List (Option ToolResult))
    (history : List HistoryItem) : List HistoryItem :=
  history ++ calls.mapIdx fun index call =>
    .toolResult (appendedResult call (results[index]?.getD none))

def formatHookOutputBody (formatFloat : F64 → String) (hook server text : String) : String :=
  canonicalJson formatFloat
    (.object [("hook", .string hook), ("server", .string server), ("text", .string text)])

def syntheticHookId (hook server : String) (ordinal : ℕ) : String :=
  "buzz_hook_" ++ hook ++ "_" ++ server ++ "_" ++ Nat.repr ordinal

/-- `ordinal` is drawn from the process's counter. -/
def hookOutputItems (formatFloat : F64 → String) (hook : String) (ordinal : ℕ)
    (output : String × String) : List HistoryItem :=
  let providerId := syntheticHookId hook output.1 ordinal
  [.assistant "" [⟨providerId, output.1 ++ "__" ++ hook, .object [], []⟩] none,
    .toolResult ⟨providerId, [.text (formatHookOutputBody formatFloat hook output.1 output.2)],
      false⟩]

def pushHookOutputsAsToolResults (formatFloat : F64 → String) (history : List HistoryItem)
    (hook : String) (ordinal : ℕ → ℕ) (outputs : List (String × String)) : List HistoryItem :=
  history ++
    (outputs.mapIdx fun index output =>
      hookOutputItems formatFloat hook (ordinal index) output).flatten

namespace Turn

variable (config : Config) (self : Turn)

def setHistory (history : List HistoryItem) : Turn :=
  { self with ctx := { self.ctx with history } }

def returning (result : Except AgentError StopReason) : Turn :=
  { self with phase := .returned result }

def promptError (prompt : List ContentBlock) : Option AgentError :=
  match promptToText prompt with
  | .error error => some error
  | .ok text =>
    if maxPromptBytes < text.utf8ByteSize then
      some (.invalidParams ("prompt: exceeds " ++ Nat.repr maxPromptBytes ++ " bytes"))
    else none

/-- `run` up to its loop. -/
def start (runId : String) (ctx : RunCtx) (prompt : List ContentBlock) : Turn :=
  let turn : Turn := ⟨runId, ctx, [], false, 0, 0, false, 0, [], .boundary⟩
  match promptError prompt with
  | some error => turn.returning (.error error)
  | none =>
    let text := contentText prompt
    { turn with
      ctx := { ctx with
        originalTask := some (ctx.originalTask.getD text)
        history := ctx.history ++ [.user text] }
      fresh := [text] }

def steerText (blocks : List ContentBlock) : Option String :=
  match promptToText blocks with
  | .ok text => if blank text then none else some text
  | .error _ => none

def drainSteers : Turn :=
  let texts := self.queue.filterMap steerText
  { self with
    ctx := { self.ctx with history := self.ctx.history ++ texts.map .user }
    queue := []
    fresh := self.fresh ++ texts }

def projectedHandoffInputTokens : ℕ :=
  let current := pressureTotal config.formatFloat self.ctx.history
  match self.ctx.lastRequestInputTokens with
  | some measured => saturatingAdd measured (current - self.ctx.lastRequestHistoryBytes.getD 0)
  | none => current

def shouldHandoff : Bool :=
  match self.ctx.lastRequestInputTokens with
  | some _ =>
    decide (tokenThreshold config.maxContextTokens config.maxOutputTokens ≤
      self.projectedHandoffInputTokens config)
  | none =>
    decide (byteFallbackThreshold config.maxContextTokens config.maxOutputTokens
      config.maxHistoryBytes < pressureTotal config.formatFloat self.ctx.history)

def truncated : Turn :=
  self.setHistory (truncateHistory config.formatFloat self.ctx.history config.maxHistoryBytes)

def request : Turn × List Entry :=
  if self.cancelled then (self.returning (.ok .cancelled), [])
  else
    ({ self with round := self.round + 1, fresh := [], phase := .requesting },
      [.request self.ctx.history])

def handsOff : Bool :=
  self.shouldHandoff config && self.ctx.handoffCount < config.maxHandoffs

def boundary : Turn × List Entry :=
  if 0 < config.maxRounds ∧ config.maxRounds ≤ self.round then
    (self.returning (.ok .maxTurnRequests), [])
  else if self.cancelled then (self.returning (.ok .cancelled), [])
  else if self.drainSteers.handsOff config then
    ({ self.drainSteers with phase := .summarizing }, [])
  else (self.drainSteers.truncated config).request

def lastUser (history : List HistoryItem) : Option String :=
  history.reverse.findSome? fun
    | .user text => some text
    | _ => none

def summarized (answer : Option String) : Turn × List Entry :=
  if self.cancelled then (self.returning (.ok .cancelled), [])
  else
    match answer.filter fun summary => !blank summary with
    | none => (self.truncated config).request
    | some summary =>
      ({ self.setHistory [] with
        phase := .compacting summary (lastUser self.ctx.history) }, [])

def hookOutputsText (outputs : List (String × String)) : String :=
  String.intercalate "\n\n" (outputs.map fun output => "[" ++ output.1 ++ "]\n" ++ output.2)

def handoffText (summary : String) (postCompact : List (String × String)) : String :=
  "[Context Handoff]\n" ++ summary ++
    if postCompact.isEmpty then ""
    else "\n\n[Post-compact hook output — untrusted]\n" ++ hookOutputsText postCompact

/-- The `_PostCompact` hooks have answered. -/
def compacted (summary : String) (currentPrompt : Option String)
    (postCompact : List (String × String)) : Turn × List Entry :=
  { self with
    ctx := { self.ctx with
      history := .user (handoffText summary postCompact) :: (currentPrompt.map .user).toList
      handoffCount := self.ctx.handoffCount + 1
      lastRequestInputTokens := none
      lastRequestHistoryBytes := none } : Turn }.request

def recordUsage (response : LlmResponse) : Turn :=
  match response.inputTokens with
  | none => self
  | some tokens =>
    { self with
      ctx := { self.ctx with
        lastRequestInputTokens := some tokens
        lastRequestHistoryBytes := some (pressureTotal config.formatFloat self.ctx.history) } }

def pushAssistant (response : LlmResponse) (calls : List ToolCall) : Turn :=
  self.setHistory
    (self.ctx.history ++ [.assistant response.text calls response.reasoningDetails])

/-- A response without tool calls. -/
def answered (response : LlmResponse) : Turn :=
  if response.stop = .toolUse then
    self.returning (.error (.llm "provider: stop=tool_use but zero tool_calls"))
  else
    let pushed := self.pushAssistant response []
    if mapStop response.stop = .endTurn then
      if config.stopMaxRejections ≤ self.stopRejections then pushed.returning (.ok .endTurn)
      else { pushed with phase := .stopping }
    else pushed.returning (.ok (mapStop response.stop))

def called (response : LlmResponse) : Turn :=
  let calls := response.toolCalls.take maxToolCallsPerTurn
  { self.pushAssistant response calls with
    buzzReplyCallSeen := self.buzzReplyCallSeen ||
      config.requireReply && calls.any (isBuzzReplyCall config)
    phase := .preflight calls (List.replicate calls.length none) 0 [] }

/-- `Llm::complete` gives its answer. -/
def completed (answer : Except AgentError LlmResponse) : Turn :=
  if self.cancelled then self.returning (.ok .cancelled)
  else
    match answer with
    | .error error => self.returning (.error error)
    | .ok response =>
      let recorded := self.recordUsage config response
      if response.toolCalls.isEmpty then recorded.answered config response
      else recorded.called config response

def nags : Bool :=
  config.requireReply && !self.buzzReplyCallSeen && self.replyNags < maxReplyNags

def objections (outputs : List (String × String)) : List (String × String) :=
  if self.nags config then outputs ++ [(replyGuardServer, replyGuardNag)] else outputs

def stopHooks (outputs : List (String × String)) (ordinal : ℕ → ℕ) : Turn :=
  let nagged :=
    { self with replyNags := if self.nags config then self.replyNags + 1 else self.replyNags }
  if (self.objections config outputs).isEmpty then nagged.returning (.ok .endTurn)
  else
    { nagged.setHistory (pushHookOutputsAsToolResults config.formatFloat self.ctx.history "_Stop"
        ordinal (self.objections config outputs)) with
      stopRejections := self.stopRejections + 1
      phase := .boundary }

/-- The cancellation is looked at once more. -/
def finishCalls (calls : List ToolCall) (results : List (Option ToolResult)) : Turn :=
  let appended := self.setHistory (appendResults calls results self.ctx.history)
  if self.cancelled then appended.returning (.ok .cancelled)
  else { appended with phase := .boundary }

/-- `skill` is what `load_skill` gives. -/
def preflight (calls : List ToolCall) (results : List (Option ToolResult)) (index : ℕ)
    (runnable : List ℕ) (skill : List ToolResultContent × Bool) : Turn :=
  match calls[index]? with
  | none => { self with phase := .executing calls results runnable runnable false }
  | some call =>
    if self.cancelled then self.finishCalls calls (fillCancelled calls (fun _ => true) results)
    else if call.name = loadSkillTool then
      let results := results.set index (some ⟨call.providerId, skill.1, skill.2⟩)
      { self with phase := .preflight calls results (index + 1) runnable }
    else if !config.has call.name || config.isHook call.name then
      let unknown := syntheticToolResult call ("unknown tool: " ++ call.name)
      { self with phase := .preflight calls (results.set index (some unknown)) (index + 1) runnable }
    else { self with phase := .preflight calls results (index + 1) (runnable ++ [index]) }

inductive Joined
  | outcome (index : ℕ) (answer : ToolAnswer)
  | error (index : ℕ)
  | empty
  | timeout

/-- Slots that were not filled stay for the end, which fills them as cancelled. -/
def execute (calls : List ToolCall) (results : List (Option ToolResult))
    (runnable tasks : List ℕ) (draining : Bool) (joined : Joined) : Turn :=
  let finish := self.finishCalls calls
    (fillCancelled calls (· ∈ runnable) results)
  if self.cancelled && !draining then
    { self with phase := .executing calls results runnable tasks true }
  else
    match joined with
    | .outcome index answer =>
      match calls[index]? with
      | some call =>
        if index ∈ tasks then
          let results := if draining && (results[index]?.getD none).isSome then results
            else results.set index (some (outcomeToResult config self.cancelled call answer))
          { self with phase := .executing calls results runnable (tasks.erase index) draining }
        else self
      | none => self
    | .error index =>
      { self with phase := .executing calls results runnable (tasks.erase index) draining }
    | .empty => if tasks.isEmpty then finish else self
    | .timeout => if draining then finish else self

end Turn

end Buzz.Agent
