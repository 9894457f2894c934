import Buzz.Library.Runs
import Mathlib.Algebra.GroupWithZero.Nat
import Mathlib.Data.List.Chain
import Mathlib.Data.Option.NAry

/-! The turn usage that is derived from the cumulative counters of a session's notifications. -/

namespace Buzz.Harness.Usage

open Library.Runs List Option

/-- The counters of a `usage_update`; a cost is compared and subtracted only. -/
structure Payload (Cost : Type) where
  accumulatedInputTokens : ℕ
  accumulatedOutputTokens : ℕ
  accumulatedCost : Option Cost
  accumulatedTotalTokens : Option ℕ
  model : Option String
  deriving DecidableEq

structure SessionState (Cost : Type) where
  publishedSeq : ℕ
  lastInput : ℕ
  lastOutput : ℕ
  lastCost : Option Cost
  lastTotal : Option ℕ
  deriving DecidableEq

structure TurnUsage (Cost : Type) where
  sessionId : String
  turnSeq : ℕ
  deltaReliable : Bool
  turnInputTokens : Option ℕ
  turnOutputTokens : Option ℕ
  turnTotalTokens : Option ℕ
  turnCostUsd : Option Cost
  cumulativeInputTokens : ℕ
  cumulativeOutputTokens : ℕ
  cumulativeTotalTokens : Option ℕ
  cumulativeCostUsd : Option Cost
  model : Option String
  deriving DecidableEq

structure UsageTracker (Cost : Type) where
  sessions : String → Option (SessionState Cost) := fun _ => none
  inFlightSession : Option String := none
  pending : Option (TurnUsage Cost) := none

variable {Cost : Type} {payload : Payload Cost} {session : String}

section tracker

variable [LE Cost] [DecidableLE Cost] [Sub Cost]

structure Delta (Cost : Type) where
  reliable : Bool
  input : Option ℕ
  output : Option ℕ
  cost : Option Cost
  seq : ℕ

def delta (payload : Payload Cost) : Option (SessionState Cost) → Delta Cost
  | none => ⟨false, none, none, none, 1⟩
  | some prev =>
    let seq := prev.publishedSeq + 1
    if payload.accumulatedInputTokens < prev.lastInput ∨
        payload.accumulatedOutputTokens < prev.lastOutput then
      ⟨false, none, none, none, seq⟩
    else
      let input := payload.accumulatedInputTokens - prev.lastInput
      let output := payload.accumulatedOutputTokens - prev.lastOutput
      match payload.accumulatedCost, prev.lastCost with
      | some current, some previous =>
        if previous ≤ current then
          ⟨true, some input, some output, some (current - previous), seq⟩
        else ⟨false, none, none, none, seq⟩
      | _, _ => ⟨true, some input, some output, none, seq⟩

def totalDelta (payload : Payload Cost) : Option (SessionState Cost) → Option ℕ
  | none => none
  | some prev =>
    match payload.accumulatedTotalTokens, prev.lastTotal with
    | some current, some previous => if previous ≤ current then some (current - previous) else none
    | _, _ => none

def turnUsage (session : String) (payload : Payload Cost) (known : Option (SessionState Cost)) :
    TurnUsage Cost :=
  let measured := delta payload known
  { sessionId := session
    turnSeq := measured.seq
    deltaReliable := measured.reliable
    turnInputTokens := measured.input
    turnOutputTokens := measured.output
    turnTotalTokens := totalDelta payload known
    turnCostUsd := measured.cost
    cumulativeInputTokens := payload.accumulatedInputTokens
    cumulativeOutputTokens := payload.accumulatedOutputTokens
    cumulativeTotalTokens := payload.accumulatedTotalTokens
    cumulativeCostUsd := payload.accumulatedCost
    model := payload.model }

namespace UsageTracker

def beginTurn (self : UsageTracker Cost) (session : String) : UsageTracker Cost :=
  { self with inFlightSession := some session, pending := none }

def insert (self : UsageTracker Cost) (session : String) (state : SessionState Cost) :
    UsageTracker Cost :=
  { self with sessions := Function.update self.sessions session (some state) }

def record (self : UsageTracker Cost) (session : String) (payload : Payload Cost) :
    UsageTracker Cost :=
  if self.inFlightSession = some session then
    { self with pending := some (turnUsage session payload (self.sessions session)) }
  else if self.inFlightSession = none then
    self.insert session
      { publishedSeq := ((self.sessions session).map SessionState.publishedSeq).getD 0
        lastInput := payload.accumulatedInputTokens
        lastOutput := payload.accumulatedOutputTokens
        lastCost := payload.accumulatedCost
        lastTotal := payload.accumulatedTotalTokens }
  -- a late notification of one session while another is in flight
  else self

def take (self : UsageTracker Cost) : UsageTracker Cost × Option (TurnUsage Cost) :=
  match self.pending with
  | none => ({ self with inFlightSession := none }, none)
  | some record =>
    ({ self with inFlightSession := none, pending := none }.insert record.sessionId
      { publishedSeq := record.turnSeq
        lastInput := record.cumulativeInputTokens
        lastOutput := record.cumulativeOutputTokens
        lastCost := record.cumulativeCostUsd
        lastTotal := record.cumulativeTotalTokens }, some record)

end UsageTracker

end tracker

inductive Call (Cost : Type)
  | beginTurn (session : String)
  | record (session : String) (payload : Payload Cost)
  | take

structure Log (Cost : Type) where
  tracker : UsageTracker Cost := {}
  recorded : List (String × Payload Cost) := []
  published : List (TurnUsage Cost) := []

section runs

def Log.of (self : Log Cost) (session : String) : List (TurnUsage Cost) :=
  self.published.filter (·.sessionId = session)

variable [LE Cost] [Sub Cost]

/-- The counters of a notification are no smaller than those of an earlier one. -/
structure Payload.AtMost (earlier later : Payload Cost) : Prop where
  input : earlier.accumulatedInputTokens ≤ later.accumulatedInputTokens
  output : earlier.accumulatedOutputTokens ≤ later.accumulatedOutputTokens
  cost : ∀ before ∈ earlier.accumulatedCost, ∀ after ∈ later.accumulatedCost, before ≤ after
  total : ∀ before ∈ earlier.accumulatedTotalTokens, ∀ after ∈ later.accumulatedTotalTokens,
    before ≤ after

/-- A call that lowers no counter of its session. -/
def Rising (log : Log Cost) : Call Cost → Prop
  | .record session payload =>
    ∀ entry ∈ log.recorded, entry.1 = session → entry.2.AtMost payload
  | _ => True

structure Payload.Repeats (payload : Payload Cost) (published : TurnUsage Cost) : Prop where
  input : payload.accumulatedInputTokens = published.cumulativeInputTokens
  output : payload.accumulatedOutputTokens = published.cumulativeOutputTokens
  cost : payload.accumulatedCost = published.cumulativeCostUsd
  total : payload.accumulatedTotalTokens = published.cumulativeTotalTokens

/-- It repeats the last published record of its session. -/
def Quiet (log : Log Cost) : Call Cost → Prop
  | .record session payload => log.tracker.inFlightSession = none →
    ∀ last ∈ (log.of session).getLast?, payload.Repeats last
  | _ => True

structure Follows (prev next : TurnUsage Cost) : Prop where
  seq : next.turnSeq = prev.turnSeq + 1
  reliable : next.deltaReliable
  input : next.turnInputTokens = some (next.cumulativeInputTokens - prev.cumulativeInputTokens)
  output : next.turnOutputTokens = some (next.cumulativeOutputTokens - prev.cumulativeOutputTokens)
  total : next.turnTotalTokens =
    Option.map₂ (· - ·) next.cumulativeTotalTokens prev.cumulativeTotalTokens
  cost : next.turnCostUsd = Option.map₂ (· - ·) next.cumulativeCostUsd prev.cumulativeCostUsd
  inputGrows : prev.cumulativeInputTokens ≤ next.cumulativeInputTokens
  outputGrows : prev.cumulativeOutputTokens ≤ next.cumulativeOutputTokens

structure Telescopes (records : List (TurnUsage Cost)) : Prop where
  deltas : records.IsChain Follows
  sums : ∀ first rest, records = first :: rest →
    first.cumulativeInputTokens + (rest.map (·.turnInputTokens.getD 0)).sum =
        (rest.getLastD first).cumulativeInputTokens ∧
      first.cumulativeOutputTokens + (rest.map (·.turnOutputTokens.getD 0)).sum =
        (rest.getLastD first).cumulativeOutputTokens

variable [DecidableLE Cost]

def Log.step (self : Log Cost) : Call Cost → Log Cost
  | .beginTurn session => { self with tracker := self.tracker.beginTurn session }
  | .record session payload =>
    { self with
      tracker := self.tracker.record session payload
      recorded := self.recorded ++ [(session, payload)] }
  | .take =>
    { self with
      tracker := self.tracker.take.1
      published := self.published ++ self.tracker.take.2.toList }

end runs

section deltas

variable [Sub Cost]

def TurnUsage.state (self : TurnUsage Cost) : SessionState Cost where
  publishedSeq := self.turnSeq
  lastInput := self.cumulativeInputTokens
  lastOutput := self.cumulativeOutputTokens
  lastCost := self.cumulativeCostUsd
  lastTotal := self.cumulativeTotalTokens

theorem telescopes_of_isChain {records : List (TurnUsage Cost)} (chain : records.IsChain Follows) :
    Telescopes records := by
  refine ⟨chain, fun first rest same => ?_⟩
  subst same
  induction rest generalizing first with
  | nil => simp
  | cons next rest ih =>
    rw [isChain_cons_cons] at chain
    have later := ih next chain.2
    have follows := chain.1
    simp only [map_cons, sum_cons, getLastD_cons, follows.input, follows.output,
      getD_some]
    have input := follows.inputGrows
    have output := follows.outputGrows
    omega

variable [LE Cost] [DecidableLE Cost]
variable {prev : TurnUsage Cost} {earlier : Payload Cost}

theorem turnUsage_follows (repeats : earlier.Repeats prev) (grows : earlier.AtMost payload) :
    Follows prev (turnUsage session payload (some prev.state)) := by
  have input := repeats.input ▸ grows.input
  have output := repeats.output ▸ grows.output
  have cost := repeats.cost ▸ grows.cost
  have total := repeats.total ▸ grows.total
  have kept : ¬ (payload.accumulatedInputTokens < prev.cumulativeInputTokens ∨
      payload.accumulatedOutputTokens < prev.cumulativeOutputTokens) := by omega
  have totals : totalDelta payload (some prev.state) =
      Option.map₂ (· - ·) payload.accumulatedTotalTokens prev.cumulativeTotalTokens := by
    cases current : payload.accumulatedTotalTokens with
    | none => simp [totalDelta, current]
    | some after =>
      cases previous : prev.cumulativeTotalTokens with
      | none => simp [totalDelta, TurnUsage.state, current, previous]
      | some before =>
        have atMost := total before previous after current
        simp [totalDelta, TurnUsage.state, current, previous, atMost]
  have measured : delta payload (some prev.state) =
      ⟨true, some (payload.accumulatedInputTokens - prev.cumulativeInputTokens),
        some (payload.accumulatedOutputTokens - prev.cumulativeOutputTokens),
        Option.map₂ (· - ·) payload.accumulatedCost prev.cumulativeCostUsd,
        prev.turnSeq + 1⟩ := by
    cases current : payload.accumulatedCost with
    | none => simp [delta, TurnUsage.state, kept, current]
    | some after =>
      cases previous : prev.cumulativeCostUsd with
      | none => simp [delta, TurnUsage.state, kept, current, previous]
      | some before =>
        have atMost := cost before previous after current
        simp [delta, TurnUsage.state, kept, current, previous, atMost]
  constructor <;> simp only [turnUsage, measured, totals]
  · exact input
  · exact output

end deltas

section kept

variable [LE Cost] [DecidableLE Cost] [Sub Cost]

def Log.Noted (self : Log Cost) (record : TurnUsage Cost) : Prop :=
  ∃ payload, (record.sessionId, payload) ∈ self.recorded ∧ payload.Repeats record

structure Log.Kept (log : Log Cost) : Prop where
  baseline : ∀ session, ∀ last ∈ (log.of session).getLast?,
    log.tracker.sessions session = some last.state
  inFlight : ∀ record ∈ log.tracker.pending, log.tracker.inFlightSession = some record.sessionId
  noted : ∀ record ∈ log.tracker.pending, log.Noted record
  next : ∀ record ∈ log.tracker.pending, ∀ last ∈ (log.of record.sessionId).getLast?,
    Follows last record
  published : ∀ record ∈ log.published, log.Noted record
  chain : ∀ session, (log.of session).IsChain Follows

variable {log : Log Cost}

omit [LE Cost] [DecidableLE Cost] in
theorem kept_start : (({} : Log Cost)).Kept := by
  constructor <;> simp [Log.of]

omit [LE Cost] [DecidableLE Cost] [Sub Cost] in
theorem mem_of_last {last : TurnUsage Cost} (found : last ∈ (log.of session).getLast?) :
    last ∈ log.published ∧ last.sessionId = session := by
  have member := mem_filter.mp (mem_of_mem_getLast? found)
  exact ⟨member.1, of_decide_eq_true member.2⟩

theorem Log.Kept.beginTurn (kept : log.Kept) : (log.step (.beginTurn session)).Kept := by
  constructor
  · exact kept.baseline
  · simp [Log.step, UsageTracker.beginTurn]
  · simp [Log.step, UsageTracker.beginTurn]
  · simp [Log.step, UsageTracker.beginTurn]
  · exact kept.published
  · exact kept.chain

theorem Log.Noted.step {record : TurnUsage Cost} (noted : log.Noted record) :
    (log.step (.record session payload)).Noted record := by
  rcases noted with ⟨earlier, member, repeats⟩
  exact ⟨earlier, mem_append_left _ member, repeats⟩

theorem Log.Kept.follows (kept : log.Kept) (rising : Rising log (.record session payload)) :
    ∀ last ∈ (log.of session).getLast?,
      Follows last (turnUsage session payload (log.tracker.sessions session)) := by
  intro last found
  have member := mem_of_last found
  rcases kept.published last member.1 with ⟨earlier, told, repeats⟩
  rw [kept.baseline session last found]
  exact turnUsage_follows repeats (rising _ told member.2)

theorem Log.Kept.record (kept : log.Kept) (rising : Rising log (.record session payload))
    (quiet : Quiet log (.record session payload)) :
    (log.step (.record session payload)).Kept := by
  have told : (session, payload) ∈ (log.step (.record session payload)).recorded :=
    mem_append_right _ (mem_singleton_self _)
  have published : ∀ record ∈ log.published, (log.step (.record session payload)).Noted record :=
    fun record member => (kept.published record member).step
  by_cases own : log.tracker.inFlightSession = some session
  · have moved : (log.step (.record session payload)).tracker = { log.tracker with
        pending := some (turnUsage session payload (log.tracker.sessions session)) } := if_pos own
    constructor
    · rw [moved]
      exact kept.baseline
    · simpa [moved, turnUsage] using own
    · intro record isPending
      simp only [moved, mem_some_iff] at isPending
      exact isPending ▸ ⟨payload, told, ⟨rfl, rfl, rfl, rfl⟩⟩
    · intro record isPending
      simp only [moved, mem_some_iff] at isPending
      exact isPending ▸ kept.follows rising
    · exact published
    · exact kept.chain
  · by_cases idle : log.tracker.inFlightSession = none
    · have empty : log.tracker.pending = none := by
        rw [eq_none_iff_forall_not_mem]
        intro record isPending
        have busy := kept.inFlight record isPending
        rw [idle] at busy
        cases busy
      have moved : (log.step (.record session payload)).tracker = log.tracker.insert session
          { publishedSeq := ((log.tracker.sessions session).map SessionState.publishedSeq).getD 0
            lastInput := payload.accumulatedInputTokens
            lastOutput := payload.accumulatedOutputTokens
            lastCost := payload.accumulatedCost
            lastTotal := payload.accumulatedTotalTokens } := by
        simp only [Log.step, UsageTracker.record, if_neg own, if_pos idle]
      constructor
      · intro other last found
        by_cases same : other = session
        · subst same
          have repeats := quiet idle last found
          simp [moved, UsageTracker.insert, kept.baseline other last found, TurnUsage.state,
            repeats.input, repeats.output, repeats.cost, repeats.total]
        · simp only [moved, UsageTracker.insert, Function.update_of_ne same]
          exact kept.baseline other last found
      · simp [moved, UsageTracker.insert, empty]
      · simp [moved, UsageTracker.insert, empty]
      · simp [moved, UsageTracker.insert, empty]
      · exact published
      · exact kept.chain
    · have moved : (log.step (.record session payload)).tracker = log.tracker := by
        simp only [Log.step, UsageTracker.record, if_neg own, if_neg idle]
      constructor
      · rw [moved]
        exact kept.baseline
      · rw [moved]
        exact kept.inFlight
      · rw [moved]
        exact fun record isPending => (kept.noted record isPending).step
      · rw [moved]
        exact kept.next
      · exact published
      · exact kept.chain

theorem Log.Kept.take (kept : log.Kept) : (log.step .take).Kept := by
  cases found : log.tracker.pending with
  | none =>
    have moved : log.step .take =
        { log with tracker := { log.tracker with inFlightSession := none } } := by
      simp [Log.step, UsageTracker.take, found]
    rw [moved]
    constructor
    · exact kept.baseline
    · simp [found]
    · simp [found]
    · simp [found]
    · exact kept.published
    · exact kept.chain
  | some record =>
    have moved : log.step .take =
        { log with
          tracker := { log.tracker with inFlightSession := none, pending := none }.insert
            record.sessionId record.state
          published := log.published ++ [record] } := by
      simp [Log.step, UsageTracker.take, found, TurnUsage.state]
    have own : (log.step .take).of record.sessionId = log.of record.sessionId ++ [record] := by
      simp [moved, Log.of]
    have others : ∀ session, session ≠ record.sessionId →
        (log.step .take).of session = log.of session := by
      intro session differs
      simp [moved, Log.of, Ne.symm differs]
    constructor
    · intro session last isLast
      by_cases same : session = record.sessionId
      · rw [same, own, getLast?_concat, mem_some_iff] at isLast
        simp [moved, UsageTracker.insert, same, isLast]
      · rw [others session same] at isLast
        simp only [moved, UsageTracker.insert, Function.update_of_ne same]
        exact kept.baseline session last isLast
    · simp [moved, UsageTracker.insert]
    · simp [moved, UsageTracker.insert]
    · simp [moved, UsageTracker.insert]
    · intro entry member
      rw [moved] at member ⊢
      rcases mem_append.mp member with earlier | new
      · exact kept.published entry earlier
      · exact mem_singleton.mp new ▸ kept.noted record found
    · intro session
      by_cases same : session = record.sessionId
      · rw [same, own]
        exact List.IsChain.append (kept.chain _) (isChain_singleton _)
          (by simpa using kept.next record found)
      · rw [others session same]
        exact kept.chain session

theorem Log.Kept.step {call : Call Cost} (kept : log.Kept)
    (within : Rising log call ∧ Quiet log call) : (log.step call).Kept := by
  cases call with
  | beginTurn session => exact kept.beginTurn
  | record session payload => exact kept.record within.1 within.2
  | take => exact kept.take

theorem published_telescopes (calls : List (Call Cost))
    (each : EachStep Log.step (fun log call => Rising log call ∧ Quiet log call) {} calls)
    (session : String) : Telescopes ((calls.foldl Log.step {}).of session) :=
  telescopes_of_isChain
    ((EachStep.invariant (fun _ _ => Log.Kept.step) kept_start each).chain session)

end kept

def counters (input output : ℕ) : Payload ℤ := ⟨input, output, none, none, none⟩

def twoTurns (between : Payload ℤ) : List (Call ℤ) :=
  [.beginTurn "s", .record "s" (counters 100 50), .take, .record "s" between,
    .beginTurn "s", .record "s" (counters 200 80), .take]

theorem counters_atMost {input output input' output' : ℕ} (inputs : input ≤ input')
    (outputs : output ≤ output') : (counters input output).AtMost (counters input' output') :=
  ⟨inputs, outputs, by simp [counters], by simp [counters]⟩

theorem published_telescopes_quiet :
    Telescopes (((twoTurns (counters 100 50)).foldl Log.step {}).of "s") := by
  apply published_telescopes
  simp only [twoTurns, EachStep, Rising, Quiet, Log.step, UsageTracker.beginTurn,
    UsageTracker.record, UsageTracker.take]
  simp [counters_atMost, Log.of, turnUsage, UsageTracker.insert]
  exact ⟨rfl, rfl, rfl, rfl⟩

theorem not_published_telescopes :
    ¬ ∀ (calls : List (Call ℤ)) (session : String), EachStep Log.step Rising {} calls →
      Telescopes ((calls.foldl Log.step {}).of session) := by
  intro always
  have rising : EachStep Log.step Rising {} (twoTurns (counters 120 60)) := by
    simp [twoTurns, EachStep, Rising, Log.step, counters_atMost]
  have sums := ((always (twoTurns (counters 120 60)) "s" rising).sums _ _ rfl).1
  exact absurd sums (by decide)

end Buzz.Harness.Usage
