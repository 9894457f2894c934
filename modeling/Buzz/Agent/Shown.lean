import Buzz.Agent.Session
import Buzz.Library.Debts
import Buzz.Library.Runs

/-! What a turn takes in reaches the model: the prompt and the steers stand in a later request. -/

namespace Buzz.Agent

open Library.Debts Library.Runs List

variable {config : Config} {turn : Turn} {history : List HistoryItem}

/-- The prompt, and each accepted steer that is not blank. -/
def owed : Entry → List String
  | .prompted prompt => [contentText prompt]
  | .steered blocks => if blank (contentText blocks) then [] else [contentText blocks]
  | _ => []

def shows (history : List HistoryItem) (text : String) : Bool :=
  history.any fun
    | .user shown => shown = text
    | _ => false

def excused : Except AgentError StopReason → Bool
  | .error _ | .ok .cancelled | .ok .maxTurnRequests => true
  | _ => false

def closes : Entry → Bool
  | .ended _ => true
  | _ => false

def book : Book Entry String where
  owes := owed
  settles entry text :=
    match entry with
    | .request history => shows history text
    | _ => false
  closes

/-- It stands in a later request of the turn, unless it ended early. -/
def Reached (log : List Entry) : Prop :=
  ∀ before entry between result rest text,
    log = before ++ entry :: between ++ .ended result :: rest →
    text ∈ owed entry → (∀ later ∈ between, closes later = false) → excused result = false →
    ∃ history, .request history ∈ between ∧ .user text ∈ history

theorem shows_iff {text : String} : shows history text ↔ .user text ∈ history := by
  unfold shows
  rw [any_eq_true]
  constructor
  · rintro ⟨item, member, isShown⟩
    cases item with
    | user shown =>
      cases of_decide_eq_true isShown
      exact member
    | assistant text calls details | toolResult result => cases isShown
  · intro member
    exact ⟨_, member, decide_eq_true rfl⟩

def Paid (log : List Entry) : Prop :=
  ∀ before result rest, log = before ++ .ended result :: rest → excused result = false →
    outstanding book before = []

theorem owed_open {entry : Entry} {text : String} (isOwed : text ∈ owed entry) :
    closes entry = false := by
  cases entry with
  | ended result => cases isOwed
  | _ => rfl

theorem reached_of_paid {log : List Entry} (paid : Paid log) : Reached log := by
  intro before entry between result rest text isLog isOwed unclosed unexcused
  have none := paid _ result rest isLog unexcused
  have gone : text ∉ outstanding book (before ++ entry :: between) := by
    rw [none]
    exact not_mem_nil
  have settled : ∃ later ∈ between, book.settles later text :=
    settled_of_not_outstanding isOwed (owed_open isOwed) unclosed gone
  obtain ⟨later, member, settles⟩ := settled
  cases later with
  | request history => exact ⟨history, member, shows_iff.mp settles⟩
  | _ => cases settles

def Fits (maxBytes : ℕ) : List String → Prop
  | [] => True
  | text :: after =>
    (after = [] ∨ text ∈ after ∨ ((text :: after).map String.utf8ByteSize).sum ≤ maxBytes) ∧
      Fits maxBytes after

instance Fits.decidable (maxBytes : ℕ) : ∀ texts, Decidable (Fits maxBytes texts)
  | [] => isTrue trivial
  | _ :: after =>
    have : Decidable (Fits maxBytes after) := Fits.decidable maxBytes after
    inferInstanceAs (Decidable (_ ∧ _))

def OneText (texts : List String) : Prop := ∀ text ∈ texts, texts.getLast? = some text

instance (texts : List String) : Decidable (OneText texts) :=
  inferInstanceAs (Decidable (∀ _ ∈ _, _))

/-- The steps that lose nothing. -/
def Turn.keeps (config : Config) (self : Turn) (label : Label) : Bool :=
  match self.phase, label with
  | _, .steer expectedRunId blocks =>
    !self.takesSteer expectedRunId blocks || blank (contentText blocks) ||
      .unsupported ∉ blocks
  | .boundary, .boundary =>
    self.cancelled || self.drainSteers.handsOff config ||
      decide (0 < config.maxRounds ∧ config.maxRounds ≤ self.round) ||
      Fits config.maxHistoryBytes self.drainSteers.fresh
  | .summarizing, .summary answer =>
    self.cancelled ||
      if (answer.filter fun summary => !blank summary).isNone then
        Fits config.maxHistoryBytes self.fresh
      else decide (OneText self.fresh)
  | .returned result, .finish =>
    excused result || self.queue.all fun blocks => blank (contentText blocks)
  | _, _ => true

def World.keeps (config : Config) (self : World) (label : Label) : Bool :=
  match self.session with
  | .idle _ => true
  | .busy turn => turn.keeps config label

theorem estimatedTotal_users (formatFloat : F64 → String) (texts : List String) :
    estimatedTotal formatFloat (texts.map HistoryItem.user) = (texts.map String.utf8ByteSize).sum := by
  rw [estimatedTotal, map_map]
  rfl

theorem estimatedTotal_append (formatFloat : F64 → String) (first second : List HistoryItem) :
    estimatedTotal formatFloat (first ++ second) =
      estimatedTotal formatFloat first + estimatedTotal formatFloat second := by
  rw [estimatedTotal, map_append, sum_append]
  rfl

theorem truncateFrom_cons {formatFloat : F64 → String} {maxBytes : ℕ} (fuel : ℕ)
    {first : HistoryItem} {rest kept : List HistoryItem}
    (isKept : (rest.dropWhile (!·.isUser)) = kept)
    (above : maxBytes < estimatedTotal formatFloat (first :: rest)) :
    truncateFrom formatFloat maxBytes (fuel + 1) (estimatedTotal formatFloat (first :: rest))
        (first :: rest) =
      if kept.isEmpty then first :: rest
      else truncateFrom formatFloat maxBytes fuel (estimatedTotal formatFloat kept) kept := by
  have whole : first :: rest = (first :: rest.takeWhile (!·.isUser)) ++ kept := by
    rw [← isKept, cons_append, takeWhile_append_dropWhile]
  have total : estimatedTotal formatFloat (first :: rest) -
      estimatedTotal formatFloat (first :: rest.takeWhile (!·.isUser)) =
      estimatedTotal formatFloat kept := by
    conv =>
      lhs
      lhs
      rw [whole, estimatedTotal_append]
    exact Nat.add_sub_cancel_left _ _
  rw [truncateFrom, if_neg (Nat.not_le.mpr above)]
  dsimp only
  rw [total, isKept]
  cases kept with
  | nil | cons head later => rfl

theorem dropWhile_users (items : List HistoryItem) (texts : List String) :
    ((items ++ texts.map HistoryItem.user).dropWhile (!·.isUser)) =
      (items.dropWhile (!·.isUser)) ++ texts.map .user := by
  induction items with
  | nil =>
    cases texts with
    | nil | cons text rest => rfl
  | cons item rest ih =>
    rw [cons_append, dropWhile_cons, dropWhile_cons]
    split
    · exact ih
    · rfl

theorem truncateFrom_shows (formatFloat : F64 → String) {maxBytes : ℕ} (fuel : ℕ)
    (old : List HistoryItem) (texts : List String) (fits : Fits maxBytes texts) :
    ∀ text ∈ texts, .user text ∈ truncateFrom formatFloat maxBytes fuel
      (estimatedTotal formatFloat (old ++ texts.map .user)) (old ++ texts.map .user) := by
  induction fuel generalizing old texts with
  | zero => exact fun text member => mem_append_right _ (mem_map_of_mem member)
  | succ fuel ih =>
    have whole : ∀ text ∈ texts, HistoryItem.user text ∈ old ++ texts.map .user :=
      fun text member => mem_append_right _ (mem_map_of_mem member)
    by_cases small : estimatedTotal formatFloat (old ++ texts.map .user) ≤ maxBytes
    · unfold truncateFrom
      rw [if_pos small]
      exact whole
    · have above := Nat.not_le.mp small
      cases old with
      | cons first rest =>
        rw [cons_append, truncateFrom_cons fuel (dropWhile_users rest texts) above]
        split
        · exact whole
        · exact ih _ texts fits
      | nil =>
        cases texts with
        | nil => exact fun text member => absurd member not_mem_nil
        | cons text after =>
          have isKept := dropWhile_users [] after
          simp only [nil_append, dropWhile_nil] at isKept
          rw [nil_append, map_cons] at above ⊢
          rw [truncateFrom_cons fuel isKept above]
          split
          · exact whole
          next more =>
            have again : text ∈ after := by
              rcases fits.1 with rfl | again | room
              · exact absurd rfl more
              · exact again
              · rw [← map_cons, estimatedTotal_users] at above
                exact absurd room (Nat.not_le.mpr above)
            have later := ih [] after fits.2
            intro shown member
            rcases mem_cons.mp member with rfl | others
            · exact later shown again
            · exact later shown others

section turns

def Turn.Places (self : Turn) : Prop :=
  match self.phase with
  | .boundary | .summarizing => ∃ old, self.ctx.history = old ++ self.fresh.map .user
  | .compacting _ currentPrompt => ∀ text ∈ self.fresh, currentPrompt = some text
  | _ => self.fresh = []

/-- They are in its history or the queue, unless it ended early. -/
structure Turn.Holds (turn : Turn) (debts : List String) : Prop where
  places : turn.Places
  covers : ∀ text ∈ debts, text ∈ turn.fresh ∨ text ∈ turn.queue.filterMap Turn.steerText

def Turn.Excused (self : Turn) : Prop :=
  ∃ result, self.phase = .returned result ∧ excused result

def Turn.Owes (self : Turn) (debts : List String) : Prop :=
  self.Excused ∨ self.Holds debts

variable {debts : List String}

theorem places_of_seen (seen : turn.fresh = []) : turn.Places := by
  unfold Turn.Places
  split
  · exact ⟨turn.ctx.history, by rw [seen, map_nil, append_nil]⟩
  · exact ⟨turn.ctx.history, by rw [seen, map_nil, append_nil]⟩
  · intro text member
    rw [seen] at member
    cases member
  · exact seen

def Advanced (debts : List String) (next : Turn × List Entry) : Prop :=
  next.1.Owes (next.2.foldl (enter book) debts)

theorem excused_returning {result : Except AgentError StopReason} (isExcused : excused result) :
    Advanced debts (turn.returning result, []) :=
  .inl ⟨result, rfl, isExcused⟩

theorem advanced_seen (holds : turn.Holds debts) (seen : turn.fresh = []) {next : Turn}
    (sameFresh : next.fresh = turn.fresh) (sameQueue : next.queue = turn.queue) :
    Advanced debts (next, []) := by
  refine .inr ⟨places_of_seen (sameFresh.trans seen), ?_⟩
  intro text member
  rw [sameFresh, sameQueue]
  exact holds.covers text member

theorem advanced_request (covers : ∀ text ∈ debts, text ∈ turn.fresh ∨
      text ∈ turn.queue.filterMap Turn.steerText)
    (shown : ∀ text ∈ turn.fresh, .user text ∈ turn.ctx.history) :
    Advanced debts turn.request := by
  unfold Turn.request
  split
  · exact excused_returning rfl
  · refine .inr ⟨rfl, ?_⟩
    intro text member
    have left : text ∈ debts ∧ shows turn.ctx.history text = false := by
      have filtered := mem_filter.mp
        (show text ∈ debts.filter fun debt => !shows turn.ctx.history debt by
          simpa [enter, book, closes, owed] using member)
      exact ⟨filtered.1, by simpa using filtered.2⟩
    right
    rcases covers text left.1 with fresh | queued
    · exact absurd (shows_iff.mpr (shown text fresh)) (by rw [left.2]; exact Bool.false_ne_true)
    · exact queued

theorem truncated_shows (isPlaced : ∃ old, turn.ctx.history = old ++ turn.fresh.map .user)
    (fits : Fits config.maxHistoryBytes turn.fresh) :
    ∀ text ∈ turn.fresh, .user text ∈ (turn.truncated config).ctx.history := by
  obtain ⟨old, isHistory⟩ := isPlaced
  have shown := truncateFrom_shows config.formatFloat turn.ctx.history.length old turn.fresh fits
  rw [← isHistory] at shown
  exact shown

theorem boundary_advanced (holds : turn.Holds debts) (isPhase : turn.phase = .boundary)
    (keeps : turn.keeps config .boundary) : Advanced debts (turn.boundary config) := by
  have isPlaced : ∃ old, turn.drainSteers.ctx.history = old ++ turn.drainSteers.fresh.map .user := by
    have places := holds.places
    unfold Turn.Places at places
    rw [isPhase] at places
    obtain ⟨old, isHistory⟩ := places
    refine ⟨old, ?_⟩
    simp only [Turn.drainSteers, isHistory, map_append, append_assoc]
  have covers : ∀ text ∈ debts, text ∈ turn.drainSteers.fresh ∨
      text ∈ turn.drainSteers.queue.filterMap Turn.steerText := by
    intro text member
    exact .inl (mem_append.mpr (holds.covers text member))
  unfold Turn.boundary
  split
  · exact excused_returning rfl
  next unlimited =>
    split
    · exact excused_returning rfl
    next running =>
      split
      · exact .inr ⟨isPlaced, covers⟩
      next below =>
        have fits : Fits config.maxHistoryBytes turn.drainSteers.fresh := by
          simpa [Turn.keeps, isPhase, running, below, unlimited] using keeps
        exact advanced_request covers (truncated_shows isPlaced fits)

theorem lastUser_fresh {old : List HistoryItem} {texts : List String} {text : String}
    (isLast : texts.getLast? = some text) :
    Turn.lastUser (old ++ texts.map .user) = some text := by
  obtain ⟨before, rfl⟩ := getLast?_eq_some_iff.mp isLast
  simp [Turn.lastUser]

theorem summarized_advanced (holds : turn.Holds debts) (isPhase : turn.phase = .summarizing)
    {answer : Option String} (keeps : turn.keeps config (.summary answer)) :
    Advanced debts (turn.summarized config answer) := by
  have isPlaced : ∃ old, turn.ctx.history = old ++ turn.fresh.map .user := by
    have places := holds.places
    unfold Turn.Places at places
    rw [isPhase] at places
    exact places
  unfold Turn.summarized
  split
  · exact excused_returning rfl
  next running =>
    split
    next skipped =>
      have fits : Fits config.maxHistoryBytes turn.fresh := by
        simpa [Turn.keeps, isPhase, running, skipped] using keeps
      exact advanced_request holds.covers (truncated_shows isPlaced fits)
    next summary isSummary =>
      have one : OneText turn.fresh := by
        simpa [Turn.keeps, isPhase, running, isSummary] using keeps
      refine .inr ⟨?_, holds.covers⟩
      intro text member
      obtain ⟨old, isHistory⟩ := isPlaced
      rw [isHistory]
      exact lastUser_fresh (one text member)

theorem compacted_advanced (holds : turn.Holds debts) {summary : String}
    {currentPrompt : Option String} (isPhase : turn.phase = .compacting summary currentPrompt)
    (outputs : List (String × String)) :
    Advanced debts (turn.compacted summary currentPrompt outputs) := by
  have places := holds.places
  unfold Turn.Places at places
  rw [isPhase] at places
  refine advanced_request holds.covers ?_
  intro text member
  rw [places text member]
  exact mem_cons_of_mem _ mem_cons_self

theorem completed_seen (answer : Except AgentError LlmResponse) :
    (turn.completed config answer).fresh = turn.fresh ∧
      (turn.completed config answer).queue = turn.queue := by
  have recorded : ∀ response, (turn.recordUsage config response).fresh = turn.fresh ∧
      (turn.recordUsage config response).queue = turn.queue := by
    intro response
    unfold Turn.recordUsage
    split <;> exact ⟨rfl, rfl⟩
  unfold Turn.completed
  split
  · exact ⟨rfl, rfl⟩
  · cases answer with
    | error error => exact ⟨rfl, rfl⟩
    | ok response =>
      dsimp only
      split
      · unfold Turn.answered
        dsimp only
        split
        · exact recorded response
        · split
          · split <;> exact recorded response
          · exact recorded response
      · exact recorded response

theorem stopHooks_seen (outputs : List (String × String)) (ordinal : ℕ → ℕ) :
    (turn.stopHooks config outputs ordinal).fresh = turn.fresh ∧
      (turn.stopHooks config outputs ordinal).queue = turn.queue := by
  unfold Turn.stopHooks
  dsimp only
  split <;> exact ⟨rfl, rfl⟩

theorem finishCalls_seen (calls : List ToolCall) (results : List (Option ToolResult)) :
    (turn.finishCalls calls results).fresh = turn.fresh ∧
      (turn.finishCalls calls results).queue = turn.queue := by
  unfold Turn.finishCalls
  dsimp only
  split <;> exact ⟨rfl, rfl⟩

theorem preflight_seen (calls : List ToolCall) (results : List (Option ToolResult)) (index : ℕ)
    (runnable : List ℕ) (skill : List ToolResultContent × Bool) :
    (turn.preflight config calls results index runnable skill).fresh = turn.fresh ∧
      (turn.preflight config calls results index runnable skill).queue = turn.queue := by
  unfold Turn.preflight
  split
  · exact ⟨rfl, rfl⟩
  · split
    · exact finishCalls_seen _ _
    · split
      · exact ⟨rfl, rfl⟩
      · split <;> exact ⟨rfl, rfl⟩

theorem execute_seen (calls : List ToolCall) (results : List (Option ToolResult))
    (runnable tasks : List ℕ) (draining : Bool) (joined : Turn.Joined) :
    (turn.execute config calls results runnable tasks draining joined).fresh = turn.fresh ∧
      (turn.execute config calls results runnable tasks draining joined).queue = turn.queue := by
  have finish := @finishCalls_seen turn calls
    (fillCancelled calls (· ∈ runnable) results)
  unfold Turn.execute
  dsimp only
  split
  · exact ⟨rfl, rfl⟩
  · cases joined with
    | outcome index answer =>
      dsimp only
      split
      · split <;> exact ⟨rfl, rfl⟩
      · exact ⟨rfl, rfl⟩
    | error index => exact ⟨rfl, rfl⟩
    | empty | timeout =>
      dsimp only
      split
      · exact finish
      · exact ⟨rfl, rfl⟩

theorem advance_excused (isExcused : turn.Excused) (label : Label) :
    turn.advance config label = (turn, []) := by
  obtain ⟨result, isPhase, -⟩ := isExcused
  cases label <;> simp only [Turn.advance, isPhase]

theorem advance_advanced (owes : turn.Owes debts) {label : Label}
    (keeps : turn.keeps config label) : Advanced debts (turn.advance config label) := by
  rcases owes with isExcused | holds
  · rw [advance_excused isExcused]
    exact .inl isExcused
  · have stays : Advanced debts (turn, []) := .inr holds
    have places := holds.places
    unfold Turn.Places at places
    cases label with
    | boundary =>
      rw [Turn.advance]
      cases isPhase : turn.phase with
      | boundary => exact boundary_advanced holds isPhase keeps
      | _ => exact stays
    | summary answer =>
      rw [Turn.advance]
      cases isPhase : turn.phase with
      | summarizing => exact summarized_advanced holds isPhase keeps
      | _ => exact stays
    | postCompact outputs =>
      rw [Turn.advance]
      cases isPhase : turn.phase with
      | compacting summary currentPrompt => exact compacted_advanced holds isPhase outputs
      | _ => exact stays
    | complete answer =>
      rw [Turn.advance]
      cases isPhase : turn.phase with
      | requesting =>
        rw [isPhase] at places
        exact advanced_seen holds places (completed_seen answer).1 (completed_seen answer).2
      | _ => exact stays
    | stopHooks outputs ordinal =>
      rw [Turn.advance]
      cases isPhase : turn.phase with
      | stopping =>
        rw [isPhase] at places
        have same := @stopHooks_seen config turn outputs ordinal
        exact advanced_seen holds places same.1 same.2
      | _ => exact stays
    | preflight skill =>
      rw [Turn.advance]
      cases isPhase : turn.phase with
      | preflight calls results index runnable =>
        rw [isPhase] at places
        have same := @preflight_seen config turn calls results index runnable skill
        exact advanced_seen holds places same.1 same.2
      | _ => exact stays
    | join joined =>
      rw [Turn.advance]
      cases isPhase : turn.phase with
      | executing calls results runnable tasks draining =>
        rw [isPhase] at places
        have same := @execute_seen config turn calls results runnable tasks draining joined
        exact advanced_seen holds places same.1 same.2
      | _ => exact stays
    | _ => exact stays

theorem start_owes {ctx : RunCtx} (runId : String) (prompt : List ContentBlock) :
    (Turn.start runId ctx prompt).Owes [contentText prompt] := by
  unfold Turn.start
  dsimp only
  cases isError : Turn.promptError prompt with
  | some error => exact .inl ⟨_, rfl, rfl⟩
  | none => exact .inr ⟨⟨ctx.history, rfl⟩, fun text member => .inl member⟩

variable {blocks : List ContentBlock}

theorem steerText_of_plain (plain : .unsupported ∉ blocks)
    (filled : ¬blank (contentText blocks)) :
    Turn.steerText blocks = some (contentText blocks) := by
  simp [Turn.steerText, promptToText, plain, filled]

theorem steerText_blank (isBlank : blank (contentText blocks)) :
    Turn.steerText blocks = none := by
  by_cases mixed : .unsupported ∈ blocks
  · simp only [Turn.steerText, promptToText, mixed, if_true]
  · simp only [Turn.steerText, promptToText, mixed, if_false, isBlank, if_true]

theorem enter_open {entry : Entry} (unclosed : closes entry = false) :
    enter book debts entry = (debts.filter fun text => !book.settles entry text) ++ owed entry := by
  rw [enter, show book.closes entry = false from unclosed]
  rfl

theorem owed_steered {text : String} (isOwed : text ∈ owed (.steered blocks)) :
    ¬blank (contentText blocks) ∧ text = contentText blocks := by
  rw [owed] at isOwed
  by_cases isBlank : blank (contentText blocks)
  · rw [if_pos isBlank] at isOwed
    cases isOwed
  · rw [if_neg isBlank] at isOwed
    exact ⟨isBlank, mem_singleton.mp isOwed⟩

theorem steer_owes (owes : turn.Owes debts) {expectedRunId : String} {blocks : List ContentBlock}
    (keeps : turn.keeps config (.steer expectedRunId blocks))
    (takes : turn.takesSteer expectedRunId blocks) :
    { turn with queue := turn.queue ++ [blocks] : Turn }.Owes
      (enter book debts (.steered blocks)) := by
  rcases owes with isExcused | holds
  · exact .inl isExcused
  · refine .inr ⟨holds.places, ?_⟩
    intro text member
    rw [filterMap_append]
    rw [enter_open rfl] at member
    rcases mem_append.mp member with before | new
    · rcases holds.covers text (mem_filter.mp before).1 with fresh | queued
      · exact .inl fresh
      · exact .inr (mem_append_left _ queued)
    · obtain ⟨filled, rfl⟩ := owed_steered new
      have plain : ContentBlock.unsupported ∉ blocks := by
        simpa [Turn.keeps, takes, filled] using keeps
      right
      apply mem_append_right
      rw [filterMap_cons, steerText_of_plain plain filled]
      exact mem_cons_self

theorem finish_paid (owes : turn.Owes debts) {result : Except AgentError StopReason}
    (isPhase : turn.phase = .returned result) (keeps : turn.keeps config .finish)
    (unexcused : excused result = false) : debts = [] := by
  rcases owes with ⟨other, isOther, isExcused⟩ | holds
  · cases isPhase.symm.trans isOther
    exact absurd isExcused (Bool.eq_false_iff.mp unexcused)
  · have seen := holds.places
    unfold Turn.Places at seen
    rw [isPhase] at seen
    have blanks : ∀ blocks ∈ turn.queue, blank (contentText blocks) := by
      simpa [Turn.keeps, isPhase, unexcused] using keeps
    apply eq_nil_iff_forall_not_mem.mpr
    intro text member
    rcases holds.covers text member with fresh | queued
    · rw [seen] at fresh
      cases fresh
    · obtain ⟨blocks, isQueued, isText⟩ := mem_filterMap.mp queued
      rw [steerText_blank (blanks blocks isQueued)] at isText
      cases isText

end turns

section runs

/-- Turns that are over have paid. -/
structure World.Solvent (world : World) : Prop where
  paid : Paid world.log
  idle : ∀ ctx, world.session = .idle ctx → outstanding book world.log = []
  busy : ∀ turn, world.session = .busy turn → turn.Owes (outstanding book world.log)

variable {world : World} {log : List Entry}

theorem paid_append {more : List Entry} (paid : Paid log)
    (unclosed : ∀ entry ∈ more, closes entry = false) : Paid (log ++ more) := by
  intro before result rest isLog unexcused
  rcases append_eq_append_iff.mp isLog with ⟨between, rfl, isMore⟩ | ⟨between, rfl, isRest⟩
  · have ended := unclosed (.ended result) (by rw [isMore]; simp)
    cases ended
  · cases between with
    | nil =>
      have ended := unclosed (.ended result) (by rw [← nil_append more, ← isRest]; simp)
      cases ended
    | cons entry later =>
      simp only [cons_append, List.cons.injEq] at isRest
      exact paid before result later (by rw [← isRest.1]) unexcused

theorem request_unclosed : ∀ entry ∈ turn.request.2, closes entry = false := by
  intro entry member
  unfold Turn.request at member
  split at member
  · cases member
  · cases mem_singleton.mp member
    rfl

theorem advance_unclosed (label : Label) :
    ∀ entry ∈ (turn.advance config label).2, closes entry = false := by
  have quiet : ∀ next : Turn, ∀ entry ∈ (next, ([] : List Entry)).2, closes entry = false :=
    fun _ _ member => nomatch member
  cases label with
  | boundary =>
    unfold Turn.advance
    dsimp only
    split
    · unfold Turn.boundary
      split
      · exact quiet _
      · split
        · exact quiet _
        · split
          · exact quiet _
          · exact request_unclosed
    · exact quiet _
  | summary answer =>
    unfold Turn.advance
    dsimp only
    split
    · unfold Turn.summarized
      split
      · exact quiet _
      · split
        · exact request_unclosed
        · exact quiet _
    · exact quiet _
  | postCompact outputs =>
    unfold Turn.advance
    dsimp only
    split
    · exact request_unclosed
    · exact quiet _
  | complete answer | stopHooks outputs ordinal | preflight skill | join joined =>
    unfold Turn.advance
    dsimp only
    split <;> exact quiet _
  | _ => exact quiet turn

theorem World.Solvent.advance (solvent : World.Solvent ⟨.busy turn, log⟩)
    {label : Label} (keeps : turn.keeps config label) :
    World.Solvent ⟨.busy (turn.advance config label).1, log ++ (turn.advance config label).2⟩ := by
  refine ⟨paid_append solvent.paid (advance_unclosed label), ?_, ?_⟩
  · rintro ctx ⟨⟩
  · rintro other ⟨rfl⟩
    have advanced := advance_advanced (solvent.busy turn rfl) keeps
    rw [outstanding, foldl_append]
    exact advanced

theorem World.Solvent.step (solvent : world.Solvent) {label : Label}
    (keeps : world.keeps config label) : (world.step config label).Solvent := by
  obtain ⟨session, log⟩ := world
  cases session with
  | idle ctx =>
    cases label with
    | prompt runId prompt =>
      refine ⟨paid_append solvent.paid (by simp [closes]), ?_, ?_⟩
      · rintro other ⟨⟩
      · rintro turn ⟨rfl⟩
        have none : outstanding book log = [] := solvent.idle ctx rfl
        change (Turn.start runId ctx prompt).Owes (outstanding book (log ++ [.prompted prompt]))
        rw [outstanding_append, none]
        exact start_owes runId prompt
    | _ => exact solvent
  | busy turn =>
    have owes := solvent.busy turn rfl
    have advanced := solvent.advance keeps
    cases label with
    | steer expectedRunId blocks =>
      unfold World.step
      dsimp only
      split
      next takes =>
        refine ⟨paid_append solvent.paid (by simp [closes]), ?_, ?_⟩
        · rintro ctx ⟨⟩
        · rintro other ⟨rfl⟩
          rw [outstanding_append]
          exact @steer_owes config turn _ owes _ _ keeps takes
      · exact solvent
    | cancel =>
      refine ⟨solvent.paid, ?_, ?_⟩
      · rintro ctx ⟨⟩
      · rintro other ⟨rfl⟩
        rcases owes with isExcused | holds
        · exact .inl isExcused
        · exact .inr ⟨holds.places, holds.covers⟩
    | finish =>
      unfold World.step
      dsimp only
      split
      next result isPhase =>
        have closed : outstanding book (log ++ [.ended result]) = [] := by
          rw [outstanding_append]
          rfl
        refine ⟨?_, fun _ _ => closed, ?_⟩
        · intro before other rest isLog unexcused
          rcases append_eq_append_iff.mp isLog with
            ⟨between, rfl, isLast⟩ | ⟨between, rfl, isRest⟩
          · cases between with
            | nil =>
              cases isLast
              rw [append_nil]
              exact @finish_paid config turn _ owes _ isPhase keeps unexcused
            | cons entry later => simp at isLast
          · cases between with
            | nil =>
              cases isRest
              rw [← append_nil before]
              exact @finish_paid config turn _ owes _ isPhase keeps unexcused
            | cons entry later =>
              simp only [cons_append, List.cons.injEq] at isRest
              exact solvent.paid before other later (by rw [← isRest.1]) unexcused
        · rintro other ⟨⟩
      · exact solvent
    | _ => exact advanced

theorem solvent_initial : World.initial.Solvent where
  paid := by
    intro before result rest isLog
    simp [World.initial] at isLog
  idle := fun _ _ => rfl
  busy := by
    intro turn isBusy
    cases isBusy

/-- What a turn took in reaches the model. -/
theorem inputs_reached (config : Config) (labels : List Label)
    (keeps : EachStep (World.step config) (fun world label => world.keeps config label)
      .initial labels) : Reached (labels.foldl (World.step config) .initial).log := by
  have preserved : ∀ (world : World) label, world.Solvent → world.keeps config label →
      (world.step config label).Solvent := fun _ _ solvent keeps => solvent.step keeps
  have solvent : (labels.foldl (World.step config) .initial).Solvent :=
    EachStep.invariant preserved solvent_initial keeps
  exact reached_of_paid solvent.paid

end runs

def plainConfig : Config where
  formatFloat _ := ""
  maxRounds := 0
  maxHandoffs := 1
  stopMaxRejections := 0
  maxHistoryBytes := maxPromptBytes
  maxContextTokens := 200000
  maxOutputTokens := 8192
  requireReply := false
  toolTimeoutSecs := 60
  has _ := false
  isHook _ := false

def plainResponse (toolCalls : List ToolCall) : LlmResponse :=
  ⟨"", toolCalls, if toolCalls.isEmpty then .endTurn else .toolUse, none, none⟩

def steeredTurn : List Label :=
  [.prompt "run" [.text "first"], .boundary, .steer "run" [.text "second"],
    .complete (.ok (plainResponse [⟨"call", "tool", .null, []⟩])), .preflight ([], false),
    .preflight ([], false), .join .empty, .boundary, .complete (.ok (plainResponse [])), .finish]

theorem steeredTurn_reached :
    Reached (steeredTurn.foldl (World.step plainConfig) .initial).log :=
  inputs_reached plainConfig steeredTurn (by decide +kernel)

/-- The model answers the last request while the steer waits. -/
def lateSteer : List Label :=
  [.prompt "run" [.text "first"], .boundary, .steer "run" [.text "second"],
    .complete (.ok (plainResponse [])), .finish]

theorem lateSteer_lost : ¬∀ (config : Config) (labels : List Label),
    Reached (labels.foldl (World.step config) .initial).log := by
  intro reached
  have isLog : (lateSteer.foldl (World.step plainConfig) .initial).log =
      [.prompted [.text "first"], .request [.user "first"]] ++ .steered [.text "second"] :: [] ++
        .ended (.ok .endTurn) :: [] := by
    rfl
  obtain ⟨history, member, _⟩ := reached plainConfig lateSteer _ _ _ _ _ "second" isLog
    (by decide +kernel) (fun _ member => nomatch member) rfl
  cases member

end Buzz.Agent
