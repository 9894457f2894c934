import Buzz.Git.Publish
import Buzz.Json
import Buzz.Library.Exchange
import Mathlib.Data.List.TakeWhile

/-! The history of a buzz-agent session: its items, their sizes, and the truncation that drops the
oldest turns. -/

namespace Buzz.Agent

open List
open Buzz.Git (isWhitespace trim)
open Library.Exchange

inductive ToolResultContent
  | text (text : String)
  | image (data mimeType : String)

structure ToolCall where
  providerId : String
  name : String
  arguments : Json Number
  providerExtra : List (String × Json Number)

structure ToolResult where
  providerId : String
  content : List ToolResultContent
  isError : Bool

inductive HistoryItem
  | user (text : String)
  | assistant (text : String) (toolCalls : List ToolCall) (reasoningDetails : Option (Json Number))
  | toolResult (result : ToolResult)

inductive ContentBlock
  | text (text : String)
  | resourceLink (uri : String)
  | unsupported
  deriving DecidableEq

inductive AgentError
  | invalidParams (message : String)
  | llm (message : String)
  | llmAuth (message : String)
  | llmModelNotFound (message : String)
  | mcp (message : String)
  | cancelled
  deriving DecidableEq

def AgentError.display : AgentError → String
  | .invalidParams message => "invalid params: " ++ message
  | .llm message => "llm: " ++ message
  | .llmAuth message => "llm auth: " ++ message
  | .llmModelNotFound message => "llm model not found: " ++ message
  | .mcp message => "mcp: " ++ message
  | .cancelled => "cancelled"

def maxPromptBytes : ℕ := 1024 * 1024

def maxToolCallsPerTurn : ℕ := 64

def imageContextTokenEquiv : ℕ := 16 * 1024

def ContentBlock.render : ContentBlock → Option String
  | .text content => some content
  | .resourceLink uri => some ("[resource: " ++ uri ++ "]")
  | .unsupported => none

def contentText (blocks : List ContentBlock) : String :=
  String.intercalate "\n" (blocks.filterMap ContentBlock.render)

def promptToText (prompt : List ContentBlock) : Except AgentError String :=
  if .unsupported ∈ prompt then
    .error (.invalidParams
      "prompt: unsupported content block (only text and resource_link are advertised)")
  else .ok (contentText prompt)

def blank (text : String) : Bool := (trim text).isEmpty

section sizes

variable (formatFloat : F64 → String)

namespace ToolResultContent

def estimatedBytes : ToolResultContent → ℕ
  | .text content => content.utf8ByteSize
  | .image data mimeType => data.utf8ByteSize + mimeType.utf8ByteSize

def contextPressureBytes : ToolResultContent → ℕ
  | .text content => content.utf8ByteSize
  | .image _ mimeType => imageContextTokenEquiv + mimeType.utf8ByteSize

end ToolResultContent

def ToolCall.bytes (self : ToolCall) : ℕ :=
  self.providerId.utf8ByteSize + self.name.utf8ByteSize +
    (canonicalJson formatFloat self.arguments).utf8ByteSize +
    (canonicalJson formatFloat (.object self.providerExtra)).utf8ByteSize

namespace HistoryItem

def sizeWith (contentSize : ToolResultContent → ℕ) : HistoryItem → ℕ
  | .user text => text.utf8ByteSize
  | .assistant text toolCalls reasoningDetails =>
    text.utf8ByteSize + (toolCalls.map (ToolCall.bytes formatFloat)).sum +
      (reasoningDetails.map fun value => (canonicalJson formatFloat value).utf8ByteSize).getD 0
  | .toolResult result =>
    result.providerId.utf8ByteSize + (result.content.map contentSize).sum

def estimatedBytes : HistoryItem → ℕ := sizeWith formatFloat ToolResultContent.estimatedBytes

def contextPressureBytes : HistoryItem → ℕ :=
  sizeWith formatFloat ToolResultContent.contextPressureBytes

def isUser : HistoryItem → Bool
  | .user _ => true
  | _ => false

end HistoryItem

def estimatedTotal (history : List HistoryItem) : ℕ :=
  (history.map (HistoryItem.estimatedBytes formatFloat)).sum

def pressureTotal (history : List HistoryItem) : ℕ :=
  (history.map (HistoryItem.contextPressureBytes formatFloat)).sum

end sizes

section truncation

variable (formatFloat : F64 → String)

/-- The loop of `truncate_history`: everything up to the next user item goes. -/
def truncateFrom (maxBytes : ℕ) : ℕ → ℕ → List HistoryItem → List HistoryItem
  | 0, _, history => history
  | fuel + 1, total, history =>
    if total ≤ maxBytes then history
    else
      match history with
      | [] => []
      | first :: rest =>
        let dropped := first :: rest.takeWhile (!·.isUser)
        match rest.dropWhile fun item => !item.isUser with
        | [] => history
        | kept => truncateFrom maxBytes fuel (total - estimatedTotal formatFloat dropped) kept

def truncateHistory (history : List HistoryItem) (maxBytes : ℕ) : List HistoryItem :=
  truncateFrom formatFloat maxBytes history.length (estimatedTotal formatFloat history) history

end truncation

section wellFormed

def roles : Roles HistoryItem String where
  asks
    | .assistant _ toolCalls _ => toolCalls.map ToolCall.providerId
    | _ => []
  answers
    | .toolResult result => some result.providerId
    | _ => none

/-- Each call has its one result at once. -/
structure WellFormed (history : List HistoryItem) : Prop where
  starts : ∀ first ∈ history.head?, first.isUser
  answered : Answered roles history

def awaits (history : List HistoryItem) : Option (List String) := scan roles [] history

structure Tail (kept history : List HistoryItem) : Prop where
  suffix : kept <:+ history
  starts : kept = history ∨ ∃ text rest, kept = .user text :: rest

theorem Tail.trans {first second third : List HistoryItem} (inner : Tail first second)
    (outer : Tail second third) : Tail first third := by
  refine ⟨inner.suffix.trans outer.suffix, ?_⟩
  rcases inner.starts with rfl | starts
  · exact outer.starts
  · exact .inr starts

variable {history : List HistoryItem}

theorem dropWhile_user {first : HistoryItem} {rest : List HistoryItem}
    (dropped : (history.dropWhile (!·.isUser)) = first :: rest) :
    ∃ text, first = .user text := by
  have stops := head?_dropWhile_not (fun item => !HistoryItem.isUser item) history
  rw [dropped] at stops
  cases first with
  | user text => exact ⟨text, rfl⟩
  | assistant text calls details | toolResult result => simp [HistoryItem.isUser] at stops

theorem truncateFrom_tail (formatFloat : F64 → String) (maxBytes fuel total : ℕ)
    (history : List HistoryItem) :
    Tail (truncateFrom formatFloat maxBytes fuel total history) history := by
  induction fuel generalizing total history with
  | zero => exact ⟨suffix_rfl, .inl rfl⟩
  | succ fuel ih =>
    unfold truncateFrom
    split
    · exact ⟨suffix_rfl, .inl rfl⟩
    · cases history with
      | nil => exact ⟨suffix_rfl, .inl rfl⟩
      | cons first rest =>
        dsimp only
        split
        · exact ⟨suffix_rfl, .inl rfl⟩
        next unfinished =>
          cases kept : rest.dropWhile fun item => !item.isUser with
          | nil => exact absurd kept unfinished
          | cons head later =>
            obtain ⟨text, rfl⟩ := dropWhile_user kept
            have suffix : (.user text :: later) <:+ first :: rest := by
              rw [← kept]
              exact (dropWhile_suffix _).trans (suffix_cons first rest)
            exact (ih _ _).trans ⟨suffix, .inr ⟨text, later, rfl⟩⟩

theorem truncateFrom_ends (formatFloat : F64 → String) (maxBytes : ℕ) {fuel : ℕ}
    (enough : history.length ≤ fuel) :
    let kept := truncateFrom formatFloat maxBytes fuel (estimatedTotal formatFloat history) history
    estimatedTotal formatFloat kept ≤ maxBytes ∨ ∀ item ∈ kept.tail, item.isUser = false := by
  induction fuel generalizing history with
  | zero =>
    rw [length_eq_zero_iff.mp (Nat.le_zero.mp enough)]
    exact .inr nofun
  | succ fuel ih =>
    unfold truncateFrom
    split
    next fits => exact .inl fits
    · cases history with
      | nil => exact .inr nofun
      | cons first rest =>
        dsimp only
        split
        next only => exact .inr (by simpa using dropWhile_eq_nil_iff.mp only)
        · have left : estimatedTotal formatFloat (first :: rest) -
              estimatedTotal formatFloat (first :: rest.takeWhile (!·.isUser)) =
                estimatedTotal formatFloat (rest.dropWhile (!·.isUser)) := by
            have parts := congrArg (estimatedTotal formatFloat)
              (@takeWhile_append_dropWhile _ (!·.isUser) rest)
            simp only [estimatedTotal, map_append, sum_append, map_cons, sum_cons] at parts ⊢
            omega
          rw [left]
          have fewer := (@dropWhile_suffix _ rest (!·.isUser)).length_le
          exact ih (Nat.le_trans fewer (Nat.le_of_succ_le_succ enough))

/-- The end of the history, from a user item on if anything goes, within the bytes or one turn. -/
theorem truncateHistory_kept (formatFloat : F64 → String) (history : List HistoryItem)
    (maxBytes : ℕ) : let kept := truncateHistory formatFloat history maxBytes
      Tail kept history ∧
        (estimatedTotal formatFloat kept ≤ maxBytes ∨ ∀ item ∈ kept.tail, item.isUser = false) :=
  ⟨truncateFrom_tail _ _ _ _ _, truncateFrom_ends _ _ (Nat.le_refl _)⟩

theorem awaits_tail {kept : List HistoryItem} (tail : Tail kept history)
    (settled : awaits history = some []) : awaits kept = some [] := by
  rcases tail.starts with rfl | ⟨text, rest, rfl⟩
  · exact settled
  · obtain ⟨dropped, rfl⟩ := tail.suffix
    exact scan_suffix rfl settled

theorem awaits_user (settled : awaits history = some [])
    (text : String) : awaits (history ++ [.user text]) = some [] :=
  scan_extend settled rfl

end wellFormed

end Buzz.Agent
