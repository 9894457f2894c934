import Buzz.Library.Runs
import Mathlib.Data.Int.Notation
import Mathlib.Logic.Function.Basic

/-! One MCP server of an agent: its calls, the kills and the restarts, and the attempts that count
against its budget. -/

namespace Buzz.Agent.Mcp

open Library.Runs

/-- Times are in milliseconds. -/
structure Settings where
  maxAttempts : ℕ
  positive : 0 < maxAttempts
  backoffBase : ℕ
  backoffMax : ℕ
  bare : ℕ → String
  isHook : ℕ → Bool

inductive ClientState
  | healthy (client : ℕ) (tools : List String)
  | dead (attempts nextRetry : ℕ) (reason : String) (tools : List String)

inductive Phase
  | idle
  | queued
  | starting (attempt : ℕ) (prevTools : List String)
  | loading
  | running (client : ℕ)
  | overdue (seen : Option ℕ)

structure Server where
  now : ℕ
  client : ClientState
  restartLock : Option ℕ
  started : ℕ
  hookTimeouts : ℕ
  phase : ℕ → Phase

inductive Action
  | tick (now : ℕ)
  | begin (call : ℕ)
  | acquire (call : ℕ)
  | spawned (call : ℕ) (tools : List String)
  | failed (call : ℕ) (reason : String) (jitter : ℤ)
  | load (call : ℕ)
  | answered (call : ℕ) (succeeded : Bool)
  | lost (call : ℕ) (reason : String) (jitter : ℤ)
  | dropped (call : ℕ)
  | expired (call : ℕ)
  | settle (call : ℕ) (reason : String) (jitter : ℤ)

inductive RestartCheck
  | healthy
  | ready (attempt : ℕ) (prevTools : List String)
  | exhausted
  | recovering (reason : String)

def backoff (settings : Settings) (attempt : ℕ) (jitter : ℤ) : ℕ :=
  let ms := min (settings.backoffBase * 2 ^ min (attempt - 1) 20) settings.backoffMax
  (ms + (ms * jitter).tdiv 100 : ℤ).toNat

namespace Server

variable (settings : Settings) (self : Server)

def start (tools : List String) : Server := ⟨0, .healthy 0 tools, none, 0, 0, fun _ => .idle⟩

def checkRestartState : RestartCheck :=
  match self.client with
  | .healthy .. => .healthy
  | .dead attempts nextRetry reason tools =>
    if settings.maxAttempts ≤ attempts then .exhausted
    else if self.now < nextRetry then .recovering reason
    else .ready (attempts + 1) tools

/-- Whether `tools` lists the tool. -/
def offers (bare : String) : Bool :=
  !bare.startsWith "_" &&
    match self.client with
    | .healthy _ tools => bare ∈ tools
    | .dead attempts _ _ tools => attempts < settings.maxAttempts && bare ∈ tools

def setPhase (call : ℕ) (phase : Phase) : Server :=
  { self with phase := Function.update self.phase call phase }

def calling (call client : ℕ) (tools : List String) : Server :=
  self.setPhase call (if settings.bare call ∈ tools then .running client else .idle)

def dead (reason : String) (jitter : ℤ) (tools : List String) : Server :=
  { self with client := .dead 1 (self.now + backoff settings 1 jitter) reason tools }

def killServer (reason : String) (jitter : ℤ) : Server :=
  match self.client with
  | .healthy _ tools => self.dead settings reason jitter tools
  | .dead .. => self

def killAndMarkDeadIfCurrent (failedClient : ℕ) (reason : String) (jitter : ℤ) : Server :=
  match self.client with
  | .healthy client tools =>
    if client = failedClient then self.dead settings reason jitter tools else self
  | .dead .. => self

/-- The future of a call is dropped, with its lock. -/
def giveUp (call : ℕ) (phase : Phase) : Server :=
  match self.phase call with
  | .starting .. => { self with restartLock := none }.setPhase call phase
  | _ => self.setPhase call phase

def step : Action → Server
  | .tick now => { self with now := max self.now now }
  | .begin call =>
    match self.phase call, self.client, self.checkRestartState settings with
    | .idle, .healthy client tools, _ => self.calling settings call client tools
    | .idle, .dead .., .ready .. => self.setPhase call .queued
    | _, _, _ => self
  | .acquire call =>
    match self.phase call, self.restartLock, self.checkRestartState settings with
    | .queued, none, .healthy => self.setPhase call .loading
    | .queued, none, .ready attempt prevTools =>
      { self with restartLock := some call, started := self.started + 1 }.setPhase call
        (.starting attempt prevTools)
    | .queued, none, _ => self.setPhase call .idle
    | _, _, _ => self
  | .spawned call tools =>
    match self.phase call with
    | .starting .. =>
      { self with client := .healthy self.started tools, restartLock := none }.setPhase call .loading
    | _ => self
  | .failed call reason jitter =>
    match self.phase call with
    | .starting attempt prevTools =>
      let nextRetry := self.now +
        if settings.maxAttempts ≤ attempt then 86400000 else backoff settings attempt jitter
      { self with
        client := .dead attempt nextRetry reason prevTools
        restartLock := none }.setPhase call .idle
    | _ => self
  | .load call =>
    match self.phase call, self.client with
    | .loading, .healthy client tools => self.calling settings call client tools
    | .loading, .dead .. => self.setPhase call .idle
    | _, _ => self
  | .answered call succeeded =>
    match self.phase call with
    | .running _ =>
      { self with
        hookTimeouts := if settings.isHook call && succeeded then 0 else self.hookTimeouts }.setPhase
          call .idle
    | _ => self
  | .lost call reason jitter =>
    match self.phase call with
    | .running client =>
      (self.killAndMarkDeadIfCurrent settings client reason jitter).setPhase call .idle
    | _ => self
  | .dropped call => self.giveUp call .idle
  | .expired call =>
    match self.phase call with
    | .idle | .overdue _ => self
    | .running client => self.giveUp call (.overdue (some client))
    | _ => self.giveUp call (.overdue none)
  | .settle call reason jitter =>
    match self.phase call with
    | .overdue _ =>
      if settings.isHook call && self.hookTimeouts + 1 < 2 then
        { self with hookTimeouts := self.hookTimeouts + 1 }.setPhase call .idle
      else
        let next := if settings.isHook call then { self with hookTimeouts := 0 } else self
        (next.killServer settings reason jitter).setPhase call .idle
    | _ => self

def kills : Action → Option (Option ℕ × ℕ)
  | .lost call _ _ =>
    match self.phase call, self.client with
    | .running seen, .healthy client _ => if client = seen then some (some seen, client) else none
    | _, _ => none
  | .settle call _ _ =>
    match self.phase call, self.client with
    | .overdue seen, .healthy client _ =>
      if settings.isHook call && self.hookTimeouts + 1 < 2 then none else some (seen, client)
    | _, _ => none
  | _ => none

def Abandons : Action → Prop
  | .dropped call => ∃ attempt tools, self.phase call = .starting attempt tools
  | .expired call => ∃ attempt tools, self.phase call = .starting attempt tools
  | _ => False

def Guards (action : Action) : Prop :=
  (∀ kill ∈ self.kills settings action, kill.2 = 0) ∧ ¬ self.Abandons action

/-- A dead server has one start for each attempt after the first. -/
def Counted : Prop :=
  ∀ attempts nextRetry reason tools, self.client = .dead attempts nextRetry reason tools →
    attempts = self.started + if self.restartLock = none then 1 else 0

def Exhausted : Prop :=
  ∃ attempts nextRetry reason tools, self.client = .dead attempts nextRetry reason tools ∧
    settings.maxAttempts ≤ attempts

variable {settings self} {action : Action} {call client : ℕ} {phase : Phase}

def Starting (call : ℕ) : Prop := ∃ attempt tools, self.phase call = .starting attempt tools

inductive Move (settings : Settings) (self : Server) (action : Action) : Server → Prop
  | stay {now : ℕ} (harmless : self.kills settings action = none)
      (kept : ¬ self.Abandons action) : Move settings self action { self with now }
  | turn {call hookTimeouts : ℕ} {phase : Phase} (before : ¬ self.Starting call)
      (after : ∀ attempt tools, phase ≠ .starting attempt tools)
      (harmless : self.kills settings action = none) (kept : ¬ self.Abandons action) :
      Move settings self action ({ self with hookTimeouts }.setPhase call phase)
  | kill {call client hookTimeouts retry : ℕ} {tools old : List String} {reason : String}
      {seen : Option ℕ} (before : ¬ self.Starting call)
      (isHealthy : self.client = .healthy client old)
      (kills : self.kills settings action = some (seen, client)) (kept : ¬ self.Abandons action) :
      Move settings self action
        ({ self with client := .dead 1 retry reason tools, hookTimeouts }.setPhase call .idle)
  | acquire {call attempts retry : ℕ} {tools : List String} {reason : String}
      (before : ¬ self.Starting call) (free : self.restartLock = none)
      (isDead : self.client = .dead attempts retry reason tools)
      (more : attempts < settings.maxAttempts) (harmless : self.kills settings action = none)
      (kept : ¬ self.Abandons action) :
      Move settings self action
        ({ self with restartLock := some call, started := self.started + 1 }.setPhase call
          (.starting (attempts + 1) tools))
  | spawned {call : ℕ} {tools : List String} (isStarting : self.Starting call)
      (harmless : self.kills settings action = none) (kept : ¬ self.Abandons action) :
      Move settings self action ({ self with
        client := .healthy self.started tools
        restartLock := none }.setPhase call .loading)
  | failed {call attempt retry : ℕ} {tools old : List String} {reason : String}
      (isStarting : self.phase call = .starting attempt old)
      (harmless : self.kills settings action = none) (kept : ¬ self.Abandons action) :
      Move settings self action ({ self with
        client := .dead attempt retry reason tools
        restartLock := none }.setPhase call .idle)
  | abandon {call : ℕ} {phase : Phase} (isStarting : self.Starting call)
      (after : ∀ attempt tools, phase ≠ .starting attempt tools)
      (harmless : self.kills settings action = none) (abandons : self.Abandons action) :
      Move settings self action ({ self with restartLock := none }.setPhase call phase)

theorem not_starting (isPhase : self.phase call = phase)
    (other : ∀ attempt tools, phase ≠ .starting attempt tools) : ¬ self.Starting call := by
  rintro ⟨attempt, tools, isStarting⟩
  exact other attempt tools (isPhase.symm.trans isStarting)

variable {tools : List String}

theorem Move.calling (before : ¬ self.Starting call)
    (harmless : self.kills settings action = none) (kept : ¬ self.Abandons action) :
    Move settings self action (self.calling settings call client tools) := by
  refine .turn before ?_ harmless kept
  intro attempt others
  split
  · nofun
  · nofun

theorem checkRestartState_ready {attempt : ℕ}
    (ready : self.checkRestartState settings = .ready attempt tools) :
    ∃ attempts retry reason, self.client = .dead attempts retry reason tools ∧
      attempts < settings.maxAttempts ∧ attempt = attempts + 1 := by
  unfold checkRestartState at ready
  split at ready
  · cases ready
  next attempts retry reason old isDead =>
    split at ready
    · cases ready
    · split at ready
      · cases ready
      next more early =>
        cases ready
        exact ⟨attempts, retry, reason, isDead, Nat.lt_of_not_le more, rfl⟩

theorem giveUp_move {phase : Phase} (after : ∀ attempt tools, phase ≠ .starting attempt tools)
    (harmless : self.kills settings action = none)
    (abandons : self.Abandons action ↔ self.Starting call) :
    Move settings self action (self.giveUp call phase) := by
  unfold giveUp
  split
  next attempt tools isStarting =>
    exact .abandon ⟨attempt, tools, isStarting⟩ after harmless (abandons.mpr ⟨attempt, tools, isStarting⟩)
  next other =>
    have before : ¬ self.Starting call := fun ⟨attempt, tools, isStarting⟩ => other attempt tools isStarting
    exact .turn before after harmless fun given => before (abandons.mp given)

theorem step_move (action : Action) : Move settings self action (self.step settings action) := by
  cases action with
  | tick now => exact .stay rfl not_false
  | begin call | load call =>
    simp only [step]
    split
    · exact Move.calling (not_starting ‹_› (by nofun)) rfl not_false
    · exact .turn (not_starting ‹_› (by nofun)) nofun rfl not_false
    · exact .stay rfl not_false
  | acquire call =>
    simp only [step]
    split
    · exact .turn (not_starting ‹_› (by nofun)) nofun rfl not_false
    next attempt tools isPhase free ready =>
      rcases checkRestartState_ready ready with ⟨attempts, retry, reason, isDead, more, rfl⟩
      exact .acquire (not_starting isPhase nofun) free isDead more rfl not_false
    · exact .turn (not_starting ‹_› (by nofun)) nofun rfl not_false
    · exact .stay rfl not_false
  | spawned call tools =>
    simp only [step]
    split
    next attempt prevTools isPhase => exact .spawned ⟨attempt, prevTools, isPhase⟩ rfl not_false
    · exact .stay rfl not_false
  | failed call reason jitter =>
    simp only [step]
    split
    next isPhase => exact .failed isPhase rfl not_false
    · exact .stay rfl not_false
  | answered call succeeded =>
    simp only [step]
    split
    · exact .turn (not_starting ‹_› (by nofun)) nofun rfl not_false
    · exact .stay rfl not_false
  | lost call reason jitter =>
    simp only [step]
    cases isPhase : self.phase call with
    | running seen =>
      have before := not_starting isPhase nofun
      dsimp only
      unfold killAndMarkDeadIfCurrent
      split
      next client tools isClient =>
        split
        next same =>
          refine @Move.kill _ _ _ _ _ _ _ _ _ _ (some seen) before isClient ?_ not_false
          simp only [kills, isPhase, isClient, if_pos same]
        next other =>
          refine .turn before nofun ?_ not_false
          simp only [kills, isPhase, isClient, if_neg other]
      next isClient =>
        refine .turn before nofun ?_ not_false
        simp only [kills, isPhase, isClient]
    | _ => exact .stay (by simp only [kills, isPhase]) not_false
  | dropped call => exact giveUp_move nofun rfl Iff.rfl
  | expired call =>
    simp only [step]
    split
    · exact .stay rfl (not_starting ‹_› (by nofun))
    · exact .stay rfl (not_starting ‹_› (by nofun))
    · exact giveUp_move nofun rfl Iff.rfl
    · exact giveUp_move nofun rfl Iff.rfl
  | settle call reason jitter =>
    simp only [step]
    cases isPhase : self.phase call with
    | overdue seen =>
      have before := not_starting isPhase nofun
      have reset : (if settings.isHook call then { self with hookTimeouts := 0 } else self) =
          { self with hookTimeouts := if settings.isHook call then 0 else self.hookTimeouts } := by
        split
        · rfl
        · rfl
      dsimp only
      rw [reset]
      split
      next first =>
        refine .turn before nofun ?_ not_false
        cases isClient : self.client with
        | healthy client tools => simp only [kills, isPhase, isClient, if_pos first]
        | dead attempts retry reason tools => simp only [kills, isPhase, isClient]
      next further =>
        unfold killServer
        split
        next client tools isClient =>
          refine @Move.kill _ _ _ _ _ _ _ _ _ _ seen before isClient ?_ not_false
          simp only [kills, isPhase, show self.client = _ from isClient, if_neg further]
        next isClient =>
          refine .turn before nofun ?_ not_false
          simp only [kills, isPhase, show self.client = _ from isClient]
    | _ => exact .stay (by simp only [kills, isPhase]) not_false

structure Sound (settings : Settings) (server : Server) : Prop where
  holder : ∀ call attempt tools, server.phase call = .starting attempt tools →
    server.restartLock = some call ∧ ∃ attempts retry reason old,
      server.client = .dead attempts retry reason old ∧ attempt = attempts + 1 ∧
        attempt ≤ settings.maxAttempts
  held : ∀ call, server.restartLock = some call → server.Starting call
  healthy : ∀ client tools, server.client = .healthy client tools → server.started = client

theorem setPhase_self : (self.setPhase call phase).phase call = phase := Function.update_self _ _ _

variable {other : ℕ}

theorem setPhase_ne (different : other ≠ call) :
    (self.setPhase call phase).phase other = self.phase other :=
  Function.update_of_ne different _ _

theorem Sound.free (sound : Sound settings self)
    (isHealthy : self.client = .healthy client tools) : self.restartLock = none := by
  cases isLock : self.restartLock with
  | none => rfl
  | some call =>
    rcases sound.held call isLock with ⟨attempt, old, isStarting⟩
    rcases (sound.holder call attempt old isStarting).2 with ⟨_, _, _, _, isDead, -⟩
    cases isHealthy.symm.trans isDead

theorem setPhase_starting (after : ∀ attempt tools, phase ≠ .starting attempt tools) {attempt : ℕ}
    (isStarting : (self.setPhase call phase).phase other = .starting attempt tools) :
    other ≠ call ∧ self.phase other = .starting attempt tools := by
  by_cases same : other = call
  · subst same
    rw [setPhase_self] at isStarting
    exact absurd isStarting (after attempt tools)
  · rw [setPhase_ne same] at isStarting
    exact ⟨same, isStarting⟩

theorem starting_setPhase (different : other ≠ call) (isStarting : self.Starting other) :
    (self.setPhase call phase).Starting other := by
  rcases isStarting with ⟨attempt, tools, isStarting⟩
  exact ⟨attempt, tools, (setPhase_ne different).trans isStarting⟩

/-- No start is under way any more. -/
theorem Sound.unlock (sound : Sound settings self) (isStarting : self.Starting call)
    (after : ∀ attempt tools, phase ≠ .starting attempt tools) {state : ClientState}
    (healthy : ∀ client tools, state = .healthy client tools → self.started = client) :
    Sound settings ({ self with client := state, restartLock := none }.setPhase call phase) where
  holder other attempt tools isOther := by
    rcases setPhase_starting after isOther with ⟨different, isOther⟩
    rcases isStarting with ⟨_, _, isStarting⟩
    have first := (sound.holder call _ _ isStarting).1
    cases first.symm.trans (sound.holder other attempt tools isOther).1
    exact absurd rfl different
  held := nofun
  healthy

variable {next : Server}

theorem Sound.move (sound : Sound settings self) (move : Move settings self action next) :
    Sound settings next := by
  cases move with
  | stay => exact ⟨sound.holder, sound.held, sound.healthy⟩
  | turn before after =>
    refine ⟨fun other attempt tools isOther => ?_, fun other isLock => ?_, sound.healthy⟩
    · exact sound.holder other attempt tools (setPhase_starting after isOther).2
    · have isOther := sound.held other isLock
      refine starting_setPhase ?_ isOther
      rintro rfl
      exact before isOther
  | kill before isHealthy =>
    refine ⟨fun other attempt tools isOther => ?_, fun other isLock => ?_,
      fun _ _ isHealthy => nomatch isHealthy⟩
    · have isOther := (setPhase_starting (by nofun) isOther).2
      cases (sound.free isHealthy).symm.trans (sound.holder other attempt tools isOther).1
    · cases (sound.free isHealthy).symm.trans isLock
  | @acquire call attempts retry tools reason before free isDead more =>
    refine ⟨fun other attempt old isOther => ?_, fun other isLock => ?_, fun client old isHealthy => ?_⟩
    · by_cases same : other = call
      · subst same
        rw [setPhase_self] at isOther
        cases isOther
        exact ⟨rfl, attempts, retry, reason, tools, isDead, rfl, more⟩
      · rw [setPhase_ne same] at isOther
        cases free.symm.trans (sound.holder other attempt old isOther).1
    · cases isLock
      exact ⟨attempts + 1, tools, setPhase_self⟩
    · cases isDead.symm.trans isHealthy
  | spawned isStarting =>
    refine sound.unlock isStarting (by nofun) fun client tools isHealthy => ?_
    cases isHealthy
    rfl
  | failed isStarting =>
    exact sound.unlock ⟨_, _, isStarting⟩ (by nofun) fun _ _ isHealthy => nomatch isHealthy
  | abandon isStarting after => exact sound.unlock isStarting after sound.healthy

theorem Sound.counted_iff (sound : Sound settings self) (counted : self.Counted)
    (move : Move settings self action next) : next.Counted ↔ self.Guards settings action := by
  have quiet (harmless : self.kills settings action = none) (kept : ¬ self.Abandons action) :
      self.Guards settings action := by
    refine ⟨?_, kept⟩
    rw [harmless]
    nofun
  cases move with
  | stay harmless kept => exact ⟨fun _ => quiet harmless kept, fun _ => counted⟩
  | turn _ _ harmless kept => exact ⟨fun _ => quiet harmless kept, fun _ => counted⟩
  | kill _ isHealthy kills kept =>
    have isStarted := sound.healthy _ _ isHealthy
    constructor
    · intro still
      have sum := still _ _ _ _ rfl
      change 1 = self.started + if self.restartLock = none then 1 else 0 at sum
      rw [sound.free isHealthy, if_pos rfl] at sum
      refine ⟨fun kill isKill => ?_, kept⟩
      cases kills.symm.trans isKill
      dsimp only
      omega
    · rintro ⟨first, -⟩
      have isFirst := first _ kills
      rintro attempts retry reason tools ⟨⟩
      change 1 = self.started + if self.restartLock = none then 1 else 0
      rw [sound.free isHealthy, if_pos rfl, isStarted]
      dsimp only at isFirst
      omega
  | acquire _ free isDead _ harmless kept =>
    refine ⟨fun _ => quiet harmless kept, fun _ attempts retry reason tools isNow => ?_⟩
    have sum := counted attempts retry reason tools isNow
    rw [free, if_pos rfl] at sum
    exact sum
  | spawned _ harmless kept => exact ⟨fun _ => quiet harmless kept, fun _ _ _ _ _ isDead => nomatch isDead⟩
  | failed isStarting harmless kept =>
    refine ⟨fun _ => quiet harmless kept, ?_⟩
    rintro _ attempts retry reason tools ⟨⟩
    rcases sound.holder _ _ _ isStarting with ⟨isLock, attempts, retry, reason, old, isDead, rfl, -⟩
    have sum := counted attempts retry reason old isDead
    rw [isLock, if_neg nofun] at sum
    rw [sum]
    rfl
  | abandon isStarting _ _ abandons =>
    refine ⟨fun still => ?_, fun guards => absurd abandons guards.2⟩
    rcases isStarting with ⟨_, _, isStarting⟩
    rcases sound.holder _ _ _ isStarting with ⟨isLock, attempts, retry, reason, old, isDead, -⟩
    have sum := counted attempts retry reason old isDead
    have later := still attempts retry reason old isDead
    rw [isLock, if_neg nofun] at sum
    change attempts = self.started + 1 at later
    omega

theorem started_move (counted : self.Counted)
    (more : self.started < settings.maxAttempts) (move : Move settings self action next) :
    next.started < settings.maxAttempts := by
  cases move with
  | acquire _ free isDead left =>
    have sum := counted _ _ _ _ isDead
    rw [free, if_pos rfl] at sum
    exact sum ▸ left
  | _ => exact more

theorem Sound.exhausted (sound : Sound settings self)
    (exhausted : self.Exhausted settings) (move : Move settings self action next) :
    next.client = self.client := by
  rcases exhausted with ⟨attempts, retry, reason, tools, isDead, full⟩
  have never (call : ℕ) : ¬ self.Starting call := by
    rintro ⟨attempt, old, isStarting⟩
    rcases (sound.holder call attempt old isStarting).2 with ⟨_, _, _, _, isAlso, rfl, within⟩
    cases isDead.symm.trans isAlso
    omega
  cases move with
  | stay | turn | abandon => rfl
  | kill _ isHealthy => cases isDead.symm.trans isHealthy
  | acquire _ _ isAlso more =>
    cases isDead.symm.trans isAlso
    exact absurd full (Nat.not_le_of_lt more)
  | spawned isStarting => exact absurd isStarting (never _)
  | failed isStarting => exact absurd ⟨_, _, isStarting⟩ (never _)

section runs

variable (sound : Sound settings self) (actions : List Action)

include sound

theorem Sound.run : Sound settings (actions.foldl (step settings) self) := by
  induction actions generalizing self with
  | nil => exact sound
  | cons action rest ih => exact ih (sound.move (step_move action))

theorem Sound.exhausted_run (exhausted : self.Exhausted settings) :
    (actions.foldl (step settings) self).client = self.client := by
  induction actions generalizing self with
  | nil => rfl
  | cons action rest ih =>
    have move := @step_move settings self action
    have same := sound.exhausted exhausted move
    exact (ih (sound.move move) (by rw [Exhausted, same]; exact exhausted)).trans same

end runs

theorem sound_start (tools : List String) : Sound settings (start tools) := ⟨nofun, nofun, fun _ _ same => by cases same; rfl⟩

theorem counted_start (tools : List String) : (start tools).Counted := nofun

/-- No restarted process is killed, and no call given up in a restart. -/
theorem restarts_counted_iff (settings : Settings) (tools : List String) (actions : List Action) :
    (EachStep (step settings) (fun server action => (server.step settings action).Counted)
        (start tools) actions ↔
      EachStep (step settings) (Guards settings) (start tools) actions) ∧
    (EachStep (step settings) (Guards settings) (start tools) actions →
      (actions.foldl (step settings) (start tools)).started < settings.maxAttempts ∧
      EachStep (step settings) (fun server action => ∀ kill ∈ server.kills settings action,
        ∀ seen ∈ kill.1, kill.2 ≤ seen) (start tools) actions) ∧
    (∀ call other, (actions.foldl (step settings) (start tools)).Starting call →
      (actions.foldl (step settings) (start tools)).Starting other → call = other) ∧
    ((actions.foldl (step settings) (start tools)).Exhausted settings → ∀ (more : List Action) bare,
      (more.foldl (step settings) (actions.foldl (step settings) (start tools))).client =
        (actions.foldl (step settings) (start tools)).client ∧
      (more.foldl (step settings) (actions.foldl (step settings) (start tools))).offers settings
        bare = false) := by
  have begins := And.intro (@sound_start settings tools) (counted_start tools)
  have agrees (server : Server) (action : Action) (kept : Sound settings server ∧ server.Counted) :
      (server.step settings action).Counted ↔ server.Guards settings action :=
    kept.1.counted_iff kept.2 (step_move action)
  have stays (server : Server) (action : Action) (kept : Sound settings server ∧ server.Counted)
      (counted : (server.step settings action).Counted) :
      Sound settings (server.step settings action) ∧ (server.step settings action).Counted :=
    ⟨kept.1.move (step_move action), counted⟩
  refine ⟨⟨?_, ?_⟩, fun guards => ⟨?_, ?_⟩, ?_, ?_⟩
  · exact EachStep.ensures stays (fun server action kept => (agrees server action kept).mp) begins
  · exact EachStep.ensures (fun server action kept guards =>
      stays server action kept ((agrees server action kept).mpr guards))
      (fun server action kept => (agrees server action kept).mpr) begins
  · have preserved (server : Server) (action : Action)
        (kept : (Sound settings server ∧ server.Counted) ∧ server.started < settings.maxAttempts)
        (guards : server.Guards settings action) :
        (Sound settings (server.step settings action) ∧ (server.step settings action).Counted) ∧
          (server.step settings action).started < settings.maxAttempts :=
      ⟨stays server action kept.1 ((agrees server action kept.1).mpr guards),
        started_move kept.1.2 kept.2 (step_move action)⟩
    exact (EachStep.invariant preserved ⟨begins, settings.positive⟩ guards).2
  · have aims (server : Server) (action : Action) (_ : True) (kept : server.Guards settings action) :
        ∀ kill ∈ server.kills settings action, ∀ seen ∈ kill.1, kill.2 ≤ seen := by
      intro kill isKill seen _
      rw [kept.1 kill isKill]
      exact Nat.zero_le seen
    exact EachStep.ensures (fun _ _ _ _ => trivial) aims trivial guards
  · rintro call other ⟨_, _, isCall⟩ ⟨_, _, isOther⟩
    have sound := begins.1.run actions
    exact Option.some.inj ((sound.holder call _ _ isCall).1.symm.trans (sound.holder other _ _ isOther).1)
  · intro exhausted more bare
    have same := (begins.1.run actions).exhausted_run more exhausted
    refine ⟨same, ?_⟩
    rcases exhausted with ⟨attempts, retry, reason, others, isDead, full⟩
    unfold offers
    rw [same, isDead]
    simp [Nat.not_lt_of_le full]

/-- A restart runs under the lock, on a dead server, and within the budget. -/
theorem restart_under_lock (settings : Settings) (tools : List String) (actions : List Action) :
    let server := actions.foldl (step settings) (start tools)
    (∀ call attempt old, server.phase call = .starting attempt old →
      server.restartLock = some call ∧ attempt ≤ settings.maxAttempts ∧
        ∃ attempts retry reason tools, server.client = .dead attempts retry reason tools ∧
          attempt = attempts + 1) ∧
    ∀ call, server.restartLock = some call → server.Starting call := by
  have sound : Sound settings (actions.foldl (step settings) (start tools)) := (sound_start tools).run actions
  refine ⟨fun call attempt old starting => ?_, sound.held⟩
  rcases sound.holder call attempt old starting with ⟨lock, attempts, retry, reason, tools, isDead, next, most⟩
  exact ⟨lock, most, attempts, retry, reason, tools, isDead, next⟩

end Server

def sampleSettings : Settings := ⟨2, by decide, 1, 1, fun _ => "run", fun _ => false⟩

def sampleCrash (now : ℕ) : List Action :=
  [.lost 0 "closed" 0, .tick now, .begin 0, .acquire 0, .spawned 0 ["run"], .load 0]

theorem not_restarts_bounded :
    (∀ action ∈ Action.begin 0 :: (sampleCrash 1 ++ sampleCrash 2 ++ sampleCrash 3),
      ∀ call succeeded, action ≠ .answered call succeeded) ∧
    sampleSettings.maxAttempts <
      ((Action.begin 0 :: (sampleCrash 1 ++ sampleCrash 2 ++ sampleCrash 3)).foldl
        (Server.step sampleSettings) (.start ["run"])).started := by
  refine ⟨by simp [sampleCrash], ?_⟩
  decide +kernel


end Buzz.Agent.Mcp
