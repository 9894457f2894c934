import Mathlib.Data.List.Sort
import Buzz.Replace.Calls

/-! The reminder scheduler: pods claim due reminders, publish them and release what they could not
publish. -/

namespace Buzz.Reminders

open Nostr Buzz.Req Buzz.Replace

def kindEventReminder : ℕ := 30300

/-- `str::parse::<i64>`. -/
def parseI64 (text : String) : Option ℤ :=
  let (negative, digits) := match text.toList with
    | '-' :: rest => (true, rest)
    | '+' :: rest => (false, rest)
    | all => (false, all)
  if digits.isEmpty || !digits.all Char.isDigit then none
  else
    let magnitude : ℤ := Nat.ofDigitChars 10 digits 0
    let value := if negative then -magnitude else magnitude
    if -9223372036854775808 ≤ value ∧ value ≤ 9223372036854775807 then some value else none

def extractNotBefore (event : Event) : Option ℤ :=
  if eventKindU32 event ≠ kindEventReminder then none
  else event.tags.findSome? fun tag =>
    match tag.buf with
    | "not_before" :: value :: _ => parseI64 value
    | _ => none

/-- The primary key of a row of `events`. -/
structure Key where
  communityId : CommunityId
  stamp : Stamp
  deriving DecidableEq

def rowKey (row : Row) : Key := ⟨row.communityId, row.stamp⟩

/-- A newer version of the same author and `d` tag. -/
def supersedes (newer older : Row) : Bool :=
  newer.communityId = older.communityId && newer.event.pubkey = older.event.pubkey &&
    newer.dTag = older.dTag && older.stamp < newer.stamp

structure DueReminder where
  communityId : CommunityId
  host : String
  event : Event
  createdAt : ℤ
  channelId : Option Uuid
  deriving DecidableEq

def DueReminder.key (self : DueReminder) : Key := ⟨self.communityId, self.createdAt, self.event.id⟩

structure Attempt where
  number : ℕ
  key : Key
  deliveryStamp : ℤ
  deriving DecidableEq

inductive Statement
  | claimDueReminder (attempt : Attempt)
  | releaseDueReminder (attempt : Attempt)
  deriving DecidableEq

inductive Phase
  | idle
  | publishing (reminder : DueReminder) (attempt : Attempt)
  | releasing (attempt : Attempt)
  deriving DecidableEq

/-- The versions saved after the query, the newest first. -/
structure Pod where
  due : List DueReminder
  phase : Phase
  savedSince : List Row

def Pod.start : Pod := ⟨[], .idle, []⟩

/-- A statement is detached when its reply is lost: it may still run. -/
structure State where
  store : Store
  deliveredAt : Key → Option Attempt
  pods : ℕ → Pod
  detached : ℕ → Option Statement
  attempts : ℕ
  delivered : List Attempt

inductive Step
  | tick (pod : ℕ) (nowSecs batchLimit : ℤ) (hosts : CommunityId → Option String)
      (collation : Option String → Option String → Bool)
  | claim (pod : ℕ) (deliveryStamp : ℤ)
  | loseClaim (pod : ℕ) (deliveryStamp : ℤ)
  | publish (pod : ℕ)
  | publishFails (pod : ℕ) (sent : Bool)
  | release (pod : ℕ)
  | loseRelease (pod : ℕ)
  | runDetached (number : ℕ)
  | crash (pod : ℕ)
  | save (communityId : CommunityId) (event : Event) (dTag : String) (channelId : Option Uuid)
  | softDeleteEvent (communityId : CommunityId) (eventId : EventId)
  | softDeleteByCoordinate (communityId : CommunityId) (kind : ℕ) (pubkey : PublicKey) (dTag : String)

namespace State

variable (self : State)

def start : State := ⟨⟨[], fun _ => none⟩, fun _ => none, fun _ => Pod.start, fun _ => none, 0, []⟩

def setPod (pod : ℕ) (value : Pod) : State :=
  { self with pods := fun other => if other = pod then value else self.pods other }

def selects (nowSecs : ℤ) (hosts : CommunityId → Option String) (row : Row) : Bool :=
  eventKindU32 row.event = kindEventReminder &&
    (extractNotBefore row.event).any (· ≤ nowSecs) &&
    !row.deleted && (self.deliveredAt (rowKey row)).isNone && (hosts row.communityId).isSome

/-- `ORDER BY community_id, pubkey, d_tag`. -/
def addressOrder (collation : Option String → Option String → Bool) (first second : Row) : Bool :=
  if first.communityId ≠ second.communityId then
    first.communityId.uuid.val ≤ second.communityId.uuid.val
  else if first.event.pubkey ≠ second.event.pubkey then
    first.event.pubkey.val ≤ second.event.pubkey.val
  else collation first.dTag second.dTag

def heads (selected : List Row) : List Row :=
  selected.filter fun row => !selected.any fun other => supersedes other row

def dueReminder (hosts : CommunityId → Option String) (row : Row) : DueReminder :=
  ⟨row.communityId, (hosts row.communityId).getD "", row.event, row.createdAt, row.channelId⟩

def queryDueReminders (nowSecs batchLimit : ℤ) (hosts : CommunityId → Option String)
    (collation : Option String → Option String → Bool) : Option (List DueReminder) :=
  if batchLimit < 0 then none
  else
    let selected := self.store.rows.filter (self.selects nowSecs hosts)
    let ordered := (heads selected).insertionSort fun first second =>
      addressOrder collation first second
    some ((ordered.take batchLimit.toNat).map (dueReminder hosts))

/-- The rows that an `UPDATE` by key finds. -/
def present (key : Key) : Bool := self.store.rows.any fun row => rowKey row = key

def setDetached (number : ℕ) (statement : Option Statement) : State :=
  { self with detached := fun other => if other = number then statement else self.detached other }

def setDeliveredAt (key : Key) (claim : Option Attempt) : State :=
  { self with deliveredAt := fun other => if other = key then claim else self.deliveredAt other }

def runStatement : Statement → State × Bool
  | .claimDueReminder attempt =>
    if self.present attempt.key && (self.deliveredAt attempt.key).isNone then
      (self.setDeliveredAt attempt.key (some attempt), true)
    else (self, false)
  | .releaseDueReminder attempt =>
    if self.present attempt.key &&
        (self.deliveredAt attempt.key).any fun claim =>
          decide (claim.deliveryStamp = attempt.deliveryStamp) then
      (self.setDeliveredAt attempt.key none, true)
    else (self, false)

theorem runStatement_claims (statement : Statement) : ∃ deliveredAt,
    (self.runStatement statement).1 = { self with deliveredAt } := by
  cases statement with
  | claimDueReminder attempt | releaseDueReminder attempt =>
    unfold runStatement
    dsimp only
    split <;> exact ⟨_, rfl⟩

def save (communityId : CommunityId) (event : Event) (dTag : String) (channelId : Option Uuid) :
    State :=
  if eventKindU32 event = kindEventReminder then
    match self.store.replaceParameterizedEvent communityId event dTag channelId with
    | .ok (store, true) =>
      { self with
        store
        pods := fun pod =>
          { self.pods pod with savedSince := store.rows.take 1 ++ (self.pods pod).savedSince } }
    | .ok (_, false) | .error _ => self
  else self

def step : Step → State × Option DueReminder
  | .tick pod nowSecs batchLimit hosts collation =>
    match (self.pods pod).due, (self.pods pod).phase,
        self.queryDueReminders nowSecs batchLimit hosts collation with
    | [], .idle, some due => (self.setPod pod ⟨due, .idle, []⟩, none)
    | _, _, _ => (self, none)
  | .claim pod deliveryStamp =>
    match (self.pods pod).due, (self.pods pod).phase with
    | reminder :: rest, .idle =>
      let attempt : Attempt := ⟨self.attempts, reminder.key, deliveryStamp⟩
      let (claimed, won) := self.runStatement (.claimDueReminder attempt)
      let phase := if won then Phase.publishing reminder attempt else .idle
      ({ claimed with attempts := self.attempts + 1 }.setPod pod
        ⟨rest, phase, (self.pods pod).savedSince⟩, none)
    | _, _ => (self, none)
  | .loseClaim pod deliveryStamp =>
    match (self.pods pod).due, (self.pods pod).phase with
    | reminder :: rest, .idle =>
      let attempt : Attempt := ⟨self.attempts, reminder.key, deliveryStamp⟩
      let sent := self.setDetached self.attempts (some (.claimDueReminder attempt))
      ({ sent with attempts := self.attempts + 1 }.setPod pod
        ⟨rest, .idle, (self.pods pod).savedSince⟩, none)
    | _, _ => (self, none)
  | .publish pod =>
    match (self.pods pod).phase with
    | .publishing reminder attempt =>
      ({ self with delivered := attempt :: self.delivered }.setPod pod
        { self.pods pod with phase := .idle }, some reminder)
    | .idle | .releasing _ => (self, none)
  | .publishFails pod sent =>
    match (self.pods pod).phase with
    | .publishing reminder attempt =>
      (self.setPod pod { self.pods pod with phase := .releasing attempt },
        if sent then some reminder else none)
    | .idle | .releasing _ => (self, none)
  | .release pod =>
    match (self.pods pod).phase with
    | .releasing attempt =>
      ((self.runStatement (.releaseDueReminder attempt)).1.setPod pod
        { self.pods pod with phase := .idle }, none)
    | .idle | .publishing _ _ => (self, none)
  | .loseRelease pod =>
    match (self.pods pod).phase with
    | .releasing attempt =>
      ((self.setDetached attempt.number (some (.releaseDueReminder attempt))).setPod pod
        { self.pods pod with phase := .idle }, none)
    | .idle | .publishing _ _ => (self, none)
  | .runDetached number =>
    match self.detached number with
    | none => (self, none)
    | some statement => ((self.runStatement statement).1.setDetached number none, none)
  | .crash pod => (self.setPod pod Pod.start, none)
  | .save communityId event dTag channelId =>
    (self.save communityId event dTag channelId, none)
  | .softDeleteEvent communityId eventId =>
    ({ self with store := self.store.softDeleteEvent communityId eventId }, none)
  | .softDeleteByCoordinate communityId kind pubkey dTag =>
    ({ self with store := self.store.softDeleteByCoordinate communityId kind pubkey dTag }, none)

def after (step : Step) : State := (self.step step).1

end State

end Buzz.Reminders
