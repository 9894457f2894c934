import Buzz.Agent.Session
import Buzz.Library.Runs

/-! Every history that goes to the model, or is left when a turn returns, is well formed. -/

namespace Buzz.Agent

open Library.Exchange Library.Runs List Option

variable {config : Config} {turn : Turn} {history : List HistoryItem} {calls : List ToolCall}
  {results : List (Option ToolResult)}

/-- A history that awaits no result, and is empty or starts with a user item. -/
structure Whole (history : List HistoryItem) : Prop where
  starts : ∀ first ∈ history.head?, first.isUser
  settled : awaits history = some []

/-- A history that starts with a user item and awaits no result. -/
structure Settled (history : List HistoryItem) : Prop where
  starts : history.head?.any HistoryItem.isUser
  settled : awaits history = some []

def Slots (calls : List ToolCall) (results : List (Option ToolResult)) : Prop :=
  ∀ (index : ℕ) (call : ToolCall), calls[index]? = some call → ∀ result : ToolResult,
    results[index]?.getD none = some result → result.providerId = call.providerId

structure Calling (calls : List ToolCall) (results : List (Option ToolResult))
    (history : List HistoryItem) : Prop where
  starts : history.head?.any HistoryItem.isUser
  awaiting : awaits history = some (calls.map ToolCall.providerId)
  slots : Slots calls results

theorem head_append (starts : history.head?.any HistoryItem.isUser) (more : List HistoryItem) :
    (history ++ more).head?.any HistoryItem.isUser := by
  cases history with
  | nil => cases starts
  | cons first rest => exact starts

theorem Whole.wellFormed (whole : Whole history) : WellFormed history :=
  ⟨whole.starts, answered_of_scan whole.settled⟩

theorem whole_nil : Whole [] where
  starts := by
    intro first member
    cases member
  settled := rfl

theorem Settled.whole (settled : Settled history) : Whole history := by
  refine ⟨?_, settled.settled⟩
  intro first isFirst
  have starts := settled.starts
  rw [mem_def.mp isFirst] at starts
  exact starts

theorem Whole.user (whole : Whole history) (text : String) :
    Settled (history ++ [.user text]) := by
  refine ⟨?_, awaits_user whole.settled text⟩
  cases history with
  | nil => rfl
  | cons first rest => exact whole.starts first rfl

section

variable (settled : Settled history)

include settled

theorem Settled.users (texts : List String) :
    Settled (history ++ texts.map .user) := by
  refine ⟨head_append settled.starts _, ?_⟩
  induction texts generalizing history with
  | nil =>
    rw [map_nil, append_nil]
    exact settled.settled
  | cons text rest ih =>
    rw [map_cons, append_cons]
    exact ih ⟨head_append settled.starts _, awaits_user settled.settled text⟩

theorem Settled.truncated (formatFloat : F64 → String)
    (maxBytes : ℕ) : Settled (truncateHistory formatFloat history maxBytes) := by
  have tail := truncateFrom_tail formatFloat maxBytes history.length
    (estimatedTotal formatFloat history) history
  refine ⟨?_, awaits_tail tail settled.settled⟩
  rcases tail.starts with same | ⟨text, rest, starts⟩
  · rw [truncateHistory, same]
    exact settled.starts
  · rw [truncateHistory, starts]
    rfl

theorem Settled.assistant (text : String) (calls : List ToolCall)
    (details : Option (Json Number)) :
    (history ++ [HistoryItem.assistant text calls details]).head?.any HistoryItem.isUser ∧
      awaits (history ++ [.assistant text calls details]) =
        some (calls.map ToolCall.providerId) :=
  ⟨head_append settled.starts _, scan_extend settled.settled rfl⟩

theorem Settled.hookOutput (formatFloat : F64 → String)
    (hook : String) (ordinal : ℕ) (output : String × String) :
    Settled (history ++ hookOutputItems formatFloat hook ordinal output) := by
  refine ⟨head_append settled.starts _, scan_extend settled.settled ?_⟩
  simp [hookOutputItems, scan, roles]

theorem Settled.hookOutputs (formatFloat : F64 → String)
    (hook : String) (ordinal : ℕ → ℕ) (outputs : List (String × String)) :
    Settled (pushHookOutputsAsToolResults formatFloat history hook ordinal outputs) := by
  unfold pushHookOutputsAsToolResults
  induction outputs generalizing history ordinal with
  | nil =>
    rw [mapIdx_nil, flatten_nil, append_nil]
    exact settled
  | cons output rest ih =>
    rw [mapIdx_cons, flatten_cons, ← append_assoc]
    exact ih (settled.hookOutput formatFloat hook (ordinal 0) output) (fun index =>
      ordinal (index + 1))

end

variable {call : ToolCall}

theorem appendedResult_providerId {result : Option ToolResult}
    (own : ∀ filled, result = some filled → filled.providerId = call.providerId) :
    (appendedResult call result).providerId = call.providerId := by
  cases result with
  | none => rfl
  | some filled =>
    have isOwn := own filled rfl
    simp only [appendedResult, getD_some]
    split <;> exact isOwn

theorem Calling.settled (calling : Calling calls results history) :
    Settled (appendResults calls results history) := by
  refine ⟨head_append calling.starts _, ?_⟩
  have awaiting := calling.awaiting
  unfold awaits at awaiting
  rw [appendResults, awaits, scan_append, awaiting]
  apply scan_answers
  apply ext_getElem?
  intro index
  simp only [getElem?_map, getElem?_mapIdx]
  cases isCall : calls[index]? with
  | none => rfl
  | some call =>
    have own := appendedResult_providerId (calling.slots index call isCall)
    exact congrArg (fun id => some (some id)) own

theorem Slots.empty : Slots calls (replicate calls.length none) := by
  intro index call _ result filled
  rw [getElem?_replicate] at filled
  split at filled <;> cases filled

theorem Slots.set (slots : Slots calls results) {index : ℕ}
    (isCall : calls[index]? = some call) {result : ToolResult}
    (own : result.providerId = call.providerId) : Slots calls (results.set index (some result)) := by
  intro other otherCall isOther filled isFilled
  rw [getElem?_set] at isFilled
  split at isFilled
  next same =>
    subst same
    cases isCall.symm.trans isOther
    split at isFilled
    · cases isFilled
      exact own
    · cases isFilled
  · exact slots other otherCall isOther filled isFilled

theorem Slots.fillCancelled (slots : Slots calls results) (which : ℕ → Bool) :
    Slots calls (fillCancelled calls which results) := by
  intro index call isCall result filled
  unfold Agent.fillCancelled at filled
  rw [getElem?_mapIdx] at filled
  cases isResult : results[index]? with
  | none =>
    rw [isResult] at filled
    cases filled
  | some slot =>
    rw [isResult] at filled
    cases slot with
    | none =>
      simp only [map_some, isCall, getD_some] at filled
      split at filled
      · cases filled
        rfl
      · cases filled
    | some old =>
      simp only [map_some, getD_some] at filled
      apply slots index call isCall result
      rw [isResult]
      exact filled

theorem outcomeToResult_providerId (cancelled : Bool) (call : ToolCall) (answer : ToolAnswer) :
    (outcomeToResult config cancelled call answer).providerId = call.providerId := by
  cases answer with
  | done content isError => rfl
  | failed error => cases error <;> rfl
  | timeout => cases cancelled <;> rfl
  | closed => rfl

def Turn.Orderly (self : Turn) : Prop :=
  match self.phase with
  | .boundary | .summarizing | .requesting | .stopping => Settled self.ctx.history
  | .compacting _ _ => self.ctx.history = []
  | .preflight calls results _ _ => Calling calls results self.ctx.history
  | .executing calls results _ _ _ => Calling calls results self.ctx.history
  | .returned _ => Whole self.ctx.history

theorem start_orderly {ctx : RunCtx} (whole : Whole ctx.history) (runId : String)
    (prompt : List ContentBlock) : (Turn.start runId ctx prompt).Orderly := by
  unfold Turn.start
  dsimp only
  cases Turn.promptError prompt with
  | some error => exact whole
  | none => exact whole.user (contentText prompt)

theorem request_orderly (settled : Settled turn.ctx.history) : turn.request.1.Orderly := by
  unfold Turn.request
  split
  · exact settled.whole
  · exact settled

theorem request_log (settled : Settled turn.ctx.history) :
    ∀ history, .request history ∈ turn.request.2 → WellFormed history := by
  intro history member
  unfold Turn.request at member
  split at member
  · cases member
  · cases mem_singleton.mp member
    exact settled.whole.wellFormed

def Sent (next : Turn × List Entry) : Prop :=
  next.1.Orderly ∧ ∀ history, .request history ∈ next.2 → WellFormed history

theorem sent_quiet {next : Turn} (orderly : next.Orderly) : Sent (next, []) := by
  refine ⟨orderly, ?_⟩
  intro history member
  cases member

section

variable (settled : Settled turn.ctx.history)

include settled

theorem sent_request : Sent turn.request :=
  ⟨request_orderly settled, request_log settled⟩

theorem boundary_sent : Sent (turn.boundary config) := by
  have drained : Settled turn.drainSteers.ctx.history := settled.users _
  unfold Turn.boundary
  split
  · exact sent_quiet settled.whole
  · split
    · exact sent_quiet settled.whole
    · split
      · exact sent_quiet drained
      · exact sent_request (drained.truncated config.formatFloat config.maxHistoryBytes)

theorem summarized_sent (answer : Option String) :
    Sent (turn.summarized config answer) := by
  unfold Turn.summarized
  split
  · exact sent_quiet settled.whole
  · split
    · exact sent_request (settled.truncated config.formatFloat config.maxHistoryBytes)
    · exact sent_quiet rfl

end

theorem compacted_sent (summary : String) (currentPrompt : Option String)
    (outputs : List (String × String)) :
    Sent (turn.compacted summary currentPrompt outputs) := by
  apply sent_request
  cases currentPrompt with
  | none | some prompt => exact ⟨rfl, rfl⟩

theorem recordUsage_history (response : LlmResponse) :
    (turn.recordUsage config response).ctx.history = turn.ctx.history := by
  unfold Turn.recordUsage
  split <;> rfl

section

variable (settled : Settled turn.ctx.history)

include settled

theorem answered_orderly (response : LlmResponse) :
    (turn.answered config response).Orderly := by
  obtain ⟨starts, awaiting⟩ := settled.assistant response.text [] response.reasoningDetails
  have pushed : Settled (turn.pushAssistant response []).ctx.history := ⟨starts, awaiting⟩
  unfold Turn.answered
  split
  · exact settled.whole
  · dsimp only
    split
    · split
      · exact pushed.whole
      · exact pushed
    · exact pushed.whole

theorem called_orderly (response : LlmResponse) :
    (turn.called config response).Orderly := by
  obtain ⟨starts, awaiting⟩ := settled.assistant response.text
    (response.toolCalls.take maxToolCallsPerTurn) response.reasoningDetails
  exact ⟨starts, awaiting, .empty⟩

theorem completed_orderly
    (answer : Except AgentError LlmResponse) : (turn.completed config answer).Orderly := by
  unfold Turn.completed
  split
  · exact settled.whole
  · cases answer with
    | error error => exact settled.whole
    | ok response =>
      have recorded : Settled (turn.recordUsage config response).ctx.history := by
        rw [recordUsage_history]
        exact settled
      dsimp only
      split
      · exact answered_orderly recorded response
      · exact called_orderly recorded response

theorem stopHooks_orderly (outputs : List (String × String))
    (ordinal : ℕ → ℕ) : (turn.stopHooks config outputs ordinal).Orderly := by
  unfold Turn.stopHooks
  dsimp only
  split
  · exact settled.whole
  · exact settled.hookOutputs config.formatFloat "_Stop" ordinal _

end

theorem finishCalls_orderly (calling : Calling calls results turn.ctx.history) :
    (turn.finishCalls calls results).Orderly := by
  have settled := calling.settled
  unfold Turn.finishCalls
  dsimp only
  split
  · exact settled.whole
  · exact settled

theorem Calling.fillCancelled (calling : Calling calls results history) (which : ℕ → Bool) :
    Calling calls (fillCancelled calls which results) history :=
  { calling with slots := calling.slots.fillCancelled which }

theorem preflight_orderly (calling : Calling calls results turn.ctx.history) (index : ℕ)
    (runnable : List ℕ) (skill : List ToolResultContent × Bool) :
    (turn.preflight config calls results index runnable skill).Orderly := by
  unfold Turn.preflight
  split
  · exact calling
  next call isCall =>
    split
    · exact finishCalls_orderly (calling.fillCancelled _)
    · split
      · exact { calling with slots := calling.slots.set isCall rfl }
      · split
        · exact { calling with slots := calling.slots.set isCall rfl }
        · exact calling

theorem execute_orderly (calling : Calling calls results turn.ctx.history)
    (runnable tasks : List ℕ) (draining : Bool) (joined : Turn.Joined)
    (before : turn.Orderly) :
    (turn.execute config calls results runnable tasks draining joined).Orderly := by
  have finish := finishCalls_orderly
    (calling.fillCancelled (· ∈ runnable))
  unfold Turn.execute
  dsimp only
  split
  · exact calling
  · cases joined with
    | outcome index answer =>
      dsimp only
      split
      next call isCall =>
        split
        · have slots : Slots calls (if draining && (results[index]?.getD none).isSome then results
              else results.set index
                (some (outcomeToResult config turn.cancelled call answer))) := by
            split
            · exact calling.slots
            · exact calling.slots.set isCall (outcomeToResult_providerId _ _ _)
          exact { calling with slots }
        · exact before
      · exact before
    | error index => exact calling
    | empty | timeout =>
      dsimp only
      split
      · exact finish
      · exact before

theorem advance_sent (orderly : turn.Orderly) (label : Label) : Sent (turn.advance config label) := by
  have stays := sent_quiet orderly
  unfold Turn.Orderly at orderly
  cases label with
  | boundary =>
    rw [Turn.advance]
    cases isPhase : turn.phase with
    | boundary =>
      rw [isPhase] at orderly
      exact boundary_sent orderly
    | _ => exact stays
  | summary answer =>
    rw [Turn.advance]
    cases isPhase : turn.phase with
    | summarizing =>
      rw [isPhase] at orderly
      exact summarized_sent orderly answer
    | _ => exact stays
  | postCompact outputs =>
    rw [Turn.advance]
    cases isPhase : turn.phase with
    | compacting summary currentPrompt => exact compacted_sent summary currentPrompt outputs
    | _ => exact stays
  | complete answer =>
    rw [Turn.advance]
    cases isPhase : turn.phase with
    | requesting =>
      rw [isPhase] at orderly
      exact sent_quiet (completed_orderly orderly answer)
    | _ => exact stays
  | stopHooks outputs ordinal =>
    rw [Turn.advance]
    cases isPhase : turn.phase with
    | stopping =>
      rw [isPhase] at orderly
      exact sent_quiet (stopHooks_orderly orderly outputs ordinal)
    | _ => exact stays
  | preflight skill =>
    rw [Turn.advance]
    cases isPhase : turn.phase with
    | preflight calls results index runnable =>
      rw [isPhase] at orderly
      exact sent_quiet (preflight_orderly orderly index runnable skill)
    | _ => exact stays
  | join joined =>
    rw [Turn.advance]
    cases isPhase : turn.phase with
    | executing calls results runnable tasks draining =>
      have calling := orderly
      rw [isPhase] at calling
      exact sent_quiet (execute_orderly calling runnable tasks draining joined orderly)
    | _ => exact stays
  | _ => exact stays

section runs

/-- The histories in use and every request are in order. -/
structure World.Sound (world : World) : Prop where
  turn : ∀ turn, world.session = .busy turn → turn.Orderly
  kept : ∀ ctx, world.session = .idle ctx → Whole ctx.history
  sent : ∀ history, .request history ∈ world.log → WellFormed history

variable {world : World}

theorem World.Sound.step (sound : world.Sound) (label : Label) :
    (world.step config label).Sound := by
  obtain ⟨session, log⟩ := world
  cases session with
  | idle ctx =>
    cases label with
    | prompt runId prompt =>
      refine ⟨?_, ?_, ?_⟩
      · rintro turn ⟨rfl⟩
        exact start_orderly (sound.kept ctx rfl) runId prompt
      · rintro other ⟨⟩
      · intro history member
        rcases mem_append.mp member with before | new
        · exact sound.sent history before
        · cases mem_singleton.mp new
    | _ => exact sound
  | busy turn =>
    have orderly := sound.turn turn rfl
    have advanced : World.Sound ⟨.busy (turn.advance config label).1,
        log ++ (turn.advance config label).2⟩ := by
      obtain ⟨next, sent⟩ := advance_sent orderly label
      refine ⟨?_, ?_, ?_⟩
      · rintro other ⟨rfl⟩
        exact next
      · rintro other ⟨⟩
      · intro history member
        rcases mem_append.mp member with before | new
        · exact sound.sent history before
        · exact sent history new
    cases label with
    | prompt runId prompt => exact advanced
    | steer expectedRunId blocks =>
      unfold World.step
      dsimp only
      split
      · refine ⟨?_, ?_, ?_⟩
        · rintro other ⟨rfl⟩
          exact orderly
        · rintro other ⟨⟩
        · intro history member
          rcases mem_append.mp member with before | new
          · exact sound.sent history before
          · cases mem_singleton.mp new
      · exact sound
    | cancel =>
      refine ⟨?_, ?_, sound.sent⟩
      · rintro other ⟨rfl⟩
        exact orderly
      · rintro other ⟨⟩
    | finish =>
      unfold World.step
      dsimp only
      split
      next result isPhase =>
        refine ⟨?_, ?_, ?_⟩
        · rintro other ⟨⟩
        · rintro other ⟨rfl⟩
          unfold Turn.Orderly at orderly
          rw [isPhase] at orderly
          exact orderly
        · intro history member
          rcases mem_append.mp member with before | new
          · exact sound.sent history before
          · cases mem_singleton.mp new
      · exact sound
    | _ => exact advanced

theorem sound_initial : World.initial.Sound where
  turn := by
    intro turn isBusy
    cases isBusy
  kept := by
    intro ctx isIdle
    cases isIdle
    exact whole_nil
  sent := by
    intro history member
    cases member

/-- Every history passed to `Llm::complete` or left at the end. -/
structure World.Orderly (world : World) : Prop where
  sent : ∀ history, .request history ∈ world.log → WellFormed history
  left : ∀ turn result, world.session = .busy turn → turn.phase = .returned result →
    WellFormed turn.ctx.history
  kept : ∀ ctx, world.session = .idle ctx → WellFormed ctx.history

theorem histories_wellFormed (config : Config) (labels : List Label) :
    (labels.foldl (World.step config) .initial).Orderly := by
  have preserved : ∀ (world : World) label, world.Sound → True → (world.step config label).Sound :=
    fun _ label sound _ => sound.step label
  have sound : (labels.foldl (World.step config) .initial).Sound :=
    EachStep.invariant preserved sound_initial (EachStep.any labels)
  refine ⟨sound.sent, ?_, fun ctx isIdle => (sound.kept ctx isIdle).wellFormed⟩
  intro turn result isBusy isPhase
  have orderly := sound.turn turn isBusy
  unfold Turn.Orderly at orderly
  rw [isPhase] at orderly
  exact orderly.wellFormed

end runs

end Buzz.Agent
