import Buzz.Agent.Turn

/-! One session of the agent: its turns one after the other, the steers that are queued into the
turn under way, and the cancellations. -/

namespace Buzz.Agent

inductive Session
  | idle (ctx : RunCtx)
  | busy (turn : Turn)

structure World where
  session : Session
  log : List Entry

inductive Label
  | prompt (runId : String) (prompt : List ContentBlock)
  | steer (expectedRunId : String) (blocks : List ContentBlock)
  | cancel
  | boundary
  | summary (answer : Option String)
  | postCompact (outputs : List (String × String))
  | complete (answer : Except AgentError LlmResponse)
  | stopHooks (outputs : List (String × String)) (ordinal : ℕ → ℕ)
  | preflight (skill : List ToolResultContent × Bool)
  | join (joined : Turn.Joined)
  | finish

namespace Turn

variable (config : Config) (self : Turn)

/-- `steer_session` queues what is sent to the run under way. -/
def takesSteer (expectedRunId : String) (blocks : List ContentBlock) : Bool :=
  !blocks.isEmpty && !expectedRunId.isEmpty && self.runId = expectedRunId

def advance : Label → Turn × List Entry
  | .boundary =>
    match self.phase with
    | .boundary => self.boundary config
    | _ => (self, [])
  | .summary answer =>
    match self.phase with
    | .summarizing => self.summarized config answer
    | _ => (self, [])
  | .postCompact outputs =>
    match self.phase with
    | .compacting summary currentPrompt => self.compacted summary currentPrompt outputs
    | _ => (self, [])
  | .complete answer =>
    match self.phase with
    | .requesting => (self.completed config answer, [])
    | _ => (self, [])
  | .stopHooks outputs ordinal =>
    match self.phase with
    | .stopping => (self.stopHooks config outputs ordinal, [])
    | _ => (self, [])
  | .preflight skill =>
    match self.phase with
    | .preflight calls results index runnable =>
      (self.preflight config calls results index runnable skill, [])
    | _ => (self, [])
  | .join joined =>
    match self.phase with
    | .executing calls results runnable tasks draining =>
      (self.execute config calls results runnable tasks draining joined, [])
    | _ => (self, [])
  | _ => (self, [])

end Turn

namespace World

variable (config : Config) (self : World)

def initial : World := ⟨.idle .initial, []⟩

def step (label : Label) : World :=
  match self.session, label with
  | .idle ctx, .prompt runId prompt =>
    ⟨.busy (Turn.start runId ctx prompt), self.log ++ [.prompted prompt]⟩
  | .idle _, _ => self
  | .busy turn, .steer expectedRunId blocks =>
    if turn.takesSteer expectedRunId blocks then
      ⟨.busy { turn with queue := turn.queue ++ [blocks] }, self.log ++ [.steered blocks]⟩
    else self
  | .busy turn, .cancel => { self with session := .busy { turn with cancelled := true } }
  | .busy turn, .finish =>
    match turn.phase with
    | .returned result => ⟨.idle turn.ctx, self.log ++ [.ended result]⟩
    | _ => self
  | .busy turn, label =>
    let next := turn.advance config label
    ⟨.busy next.1, self.log ++ next.2⟩

end World

end Buzz.Agent
