import Mathlib.Data.List.Induction
import Buzz.Thread.Counters

/-! When the counters of a thread are exact. -/

namespace Buzz.Thread

open Nostr Library.Tally List

def Agree (threads : List ThreadRow) (replies descendants : EventId → ℕ) : Prop :=
  Agrees ThreadRow.eventId ThreadRow.replyCount threads replies ∧
    Agrees ThreadRow.eventId ThreadRow.descendantCount threads descendants

section rows

variable {threads : List ThreadRow} {row : ThreadRow} {replies descendants : EventId → ℕ}
  {id : EventId}

section

variable (agree : Agree threads replies descendants)

include agree

theorem Agree.concat (fresh : row.replyCount = 0)
    (none : row.descendantCount = 0) (zero : replies row.eventId = 0 ∧ descendants row.eventId = 0) :
    Agree (threads ++ [row]) replies descendants :=
  ⟨agree.1.concat (fresh.trans zero.1.symm), agree.2.concat (none.trans zero.2.symm)⟩

theorem Agree.insertRow (fresh : row.replyCount = 0)
    (none : row.descendantCount = 0)
    (zero : (∀ other ∈ threads, other.isAt row.eventCreatedAt row.eventId = false) →
      replies row.eventId = 0 ∧ descendants row.eventId = 0) :
    Agree (insertRow row threads) replies descendants := by
  unfold Thread.insertRow
  split
  · exact agree
  next absent =>
    apply agree.concat fresh none
    apply zero
    intro other member
    by_contra present
    exact absent (any_eq_true.mpr ⟨other, member, eq_true_of_ne_false present⟩)

theorem Agree.map {change : ThreadRow → ThreadRow}
    (first second : EventId → ℕ → ℕ) (same : ∀ row, (change row).eventId = row.eventId)
    (replied : ∀ row, (change row).replyCount = first row.eventId row.replyCount)
    (descended : ∀ row, (change row).descendantCount = second row.eventId row.descendantCount) :
    Agree (threads.map change) (fun key => first key (replies key))
      fun key => second key (descendants key) :=
  ⟨agree.1.map same replied, agree.2.map same descended⟩

theorem Agree.addReply :
    Agree (addReply id threads) (fun key => if key = id then replies key + 1 else replies key)
      descendants := by
  apply agree.map (fun key count => if key = id then count + 1 else count) (fun _ count => count)
    <;> intro row <;> split <;> rfl

theorem Agree.addDescendant :
    Agree (addDescendant id threads) replies
      fun key => if key = id then descendants key + 1 else descendants key := by
  apply agree.map (fun _ count => count) (fun key count => if key = id then count + 1 else count)
    <;> intro row <;> split <;> rfl

theorem Agree.dropReply :
    Agree (dropReply id threads) (fun key => if key = id then replies key - 1 else replies key)
      descendants := by
  apply agree.map (fun key count => if key = id then count - 1 else count) (fun _ count => count)
    <;> intro row <;> split <;> rfl

theorem Agree.dropDescendant :
    Agree (dropDescendant id threads) replies
      fun key => if key = id then descendants key - 1 else descendants key := by
  apply agree.map (fun _ count => count) (fun key count => if key = id then count - 1 else count)
    <;> intro row <;> split <;> rfl

end

end rows

/-- The counters are exact, and only replies have a root. -/
structure Counted (tables : Tables) : Prop where
  agree : Agree tables.threads tables.replies tables.descendants
  ids : (tables.events.map EventRow.id).Nodup
  rooted : ∀ event ∈ tables.events, event.thread.bind ThreadMetadata.parentEventId = none →
    event.thread.bind ThreadMetadata.rootEventId = none

section counted

variable {tables : Tables} {id parent root : EventId} {createdAt : ℤ} {thread : ThreadMetadata}
  {threads : List ThreadRow}

theorem agree_stub (unnamed : tables.Unnamed createdAt id)
    (within : ∀ row ∈ tables.threads, row ∈ threads)
    (agree : Agree threads tables.replies tables.descendants) :
    Agree (insertRow (.stub createdAt id) threads) tables.replies tables.descendants :=
  agree.insertRow rfl rfl fun absent => unnamed fun row member => absent row (within row member)

variable {event : EventRow}

theorem countP_event {counted : EventRow → Bool} :
    (tables.events ++ [event]).countP counted =
      tables.events.countP counted + if counted event then 1 else 0 := by
  rw [countP_append, countP_singleton]

theorem agree_insertStubs (within : ∀ row ∈ tables.threads, row ∈ threads)
    (agree : Agree threads tables.replies tables.descendants)
    (parentUnnamed : tables.Unnamed (thread.parentEventCreatedAt.getD createdAt) parent)
    (rootUnnamed : ∀ root, thread.rootEventId = some root → parent ≠ root →
      tables.Unnamed (thread.rootEventCreatedAt.getD createdAt) root) :
    Agree (Tables.insertStubs createdAt parent thread threads) tables.replies
      tables.descendants := by
  have withParent := agree_stub parentUnnamed within agree
  cases isRoot : thread.rootEventId with
  | none =>
    rw [Tables.insertStubs, isRoot]
    exact withParent
  | some root =>
    rw [Tables.insertStubs, isRoot]
    dsimp only
    split
    next apart =>
      exact agree_stub (rootUnnamed root isRoot apart.symm)
        (fun row member => mem_insertRow (within row member)) withParent
    · exact withParent

variable {replies descendants : EventId → ℕ}

theorem agree_countReply (agree : Agree threads replies descendants) :
    Agree (Tables.countReply parent thread threads)
      (fun key => if key = parent then replies key + 1 else replies key)
      fun key => if thread.rootEventId = some key then descendants key + 1 else descendants key := by
  cases isRoot : thread.rootEventId with
  | none =>
    rw [Tables.countReply, isRoot]
    simpa using @Agree.addReply _ _ _ parent agree
  | some root =>
    rw [Tables.countReply, isRoot]
    simpa [eq_comm] using
      @Agree.addDescendant _ _ _ root (@Agree.addReply _ _ _ parent agree)

theorem Counted.insertThread (counted : Counted tables) (fits : tables.Fits id createdAt thread) :
    Agree (tables.insertThread id createdAt thread)
      (fun key => tables.replies key + if thread.parentEventId = some key then 1 else 0)
      fun key => tables.descendants key + if thread.rootEventId = some key then 1 else 0 := by
  unfold Tables.insertThread
  split
  next present =>
    have top : thread.parentEventId = none := by
      by_contra replies
      obtain ⟨row, member, isAt⟩ := any_eq_true.mp present
      rw [fits.own replies row member] at isAt
      cases isAt
    rw [top, fits.replies top]
    simpa using counted.agree
  next absent =>
    have fresh (row : ThreadRow) (member : row ∈ tables.threads) :
        row.isAt createdAt id = false := by
      by_contra present
      exact absent (any_eq_true.mpr ⟨row, member, eq_true_of_ne_false present⟩)
    have own : Agree (tables.threads ++
        [⟨id, createdAt, thread.parentEventId, thread.rootEventId, thread.depth, 0, 0⟩])
          tables.replies tables.descendants :=
      counted.agree.concat rfl rfl (fits.fresh fresh)
    cases isParent : thread.parentEventId with
    | none =>
      have noRoot := fits.replies isParent
      rw [isParent, noRoot] at own
      rw [noRoot]
      simpa using own
    | some parent =>
      have stubs := agree_insertStubs (fun row member => mem_append_left _ member) own
        (fits.parent parent isParent) fun root isRoot apart => fits.root root isRoot
          (by rw [isParent]; exact fun same => apart (Option.some.inj same))
      have counts := @agree_countReply parent thread _ _ _ stubs
      rw [isParent] at counts
      have replied : (fun key => if key = parent then tables.replies key + 1
          else tables.replies key) = fun key =>
            tables.replies key + if some parent = some key then 1 else 0 := by
        funext key
        by_cases same : key = parent
        · simp [same]
        · simp [same, Ne.symm same]
      have descended : (fun key => if thread.rootEventId = some key then
          tables.descendants key + 1 else tables.descendants key) = fun key =>
            tables.descendants key + if thread.rootEventId = some key then 1 else 0 := by
        funext key
        split <;> rfl
      rw [replied, descended] at counts
      exact counts

theorem Counted.insertEvent (counted : Counted tables) {thread : Option ThreadMetadata}
    (clean : tables.Clean (.insert id createdAt thread)) :
    Counted (tables.insertEvent id createdAt thread) := by
  unfold Tables.insertEvent
  split
  · exact counted
  next absent =>
    have new (event : EventRow) (member : event ∈ tables.events) : event.id ≠ id := fun same =>
      absent (any_eq_true.mpr ⟨event, member, decide_eq_true same⟩)
    have ids : ((tables.events ++ [(⟨id, createdAt, true, thread⟩ : EventRow)]).map EventRow.id).Nodup := by
      rw [map_append, map_singleton]
      apply counted.ids.append (nodup_singleton _)
      rw [disjoint_singleton]
      intro member
      obtain ⟨event, within, same⟩ := mem_map.mp member
      exact new event within same
    have replies (key : EventId) :
        (tables.events ++ [(⟨id, createdAt, true, thread⟩ : EventRow)]).countP (EventRow.repliesTo key) =
          tables.replies key +
            if thread.bind ThreadMetadata.parentEventId = some key then 1 else 0 := by
      rw [countP_event, Tables.replies]
      simp [EventRow.repliesTo]
    have descendants (key : EventId) :
        (tables.events ++ [(⟨id, createdAt, true, thread⟩ : EventRow)]).countP (EventRow.isBelow key) =
          tables.descendants key +
            if thread.bind ThreadMetadata.rootEventId = some key then 1 else 0 := by
      rw [countP_event, Tables.descendants]
      simp [EventRow.isBelow]
    cases thread with
    | none =>
      constructor
      · have agree := counted.agree
        rw [show tables.replies = fun key => (tables.events ++ [(⟨id, createdAt, true, none⟩ : EventRow)]).countP
          (EventRow.repliesTo key) from funext fun key => by simp [replies key],
          show tables.descendants = fun key =>
            (tables.events ++ [(⟨id, createdAt, true, none⟩ : EventRow)]).countP (EventRow.isBelow key) from
              funext fun key => by simp [descendants key]] at agree
        exact agree
      · exact ids
      · intro event member noParent
        cases mem_append.mp member with
        | inl before => exact counted.rooted event before noParent
        | inr last =>
          rw [mem_singleton.mp last]
          rfl
    | some metadata =>
      have fits := clean new metadata rfl
      have agree := counted.insertThread fits
      constructor
      · rw [show (fun key => tables.replies key +
            if metadata.parentEventId = some key then 1 else 0) = fun key =>
              (tables.events ++ [(⟨id, createdAt, true, some metadata⟩ : EventRow)]).countP
                (EventRow.repliesTo key) from funext fun key => (replies key).symm,
          show (fun key => tables.descendants key +
            if metadata.rootEventId = some key then 1 else 0) = fun key =>
              (tables.events ++ [(⟨id, createdAt, true, some metadata⟩ : EventRow)]).countP
                (EventRow.isBelow key) from funext fun key => (descendants key).symm] at agree
        exact agree
      · exact ids
      · intro event member noParent
        cases mem_append.mp member with
        | inl before => exact counted.rooted event before noParent
        | inr last =>
          rw [mem_singleton.mp last] at noParent ⊢
          exact fits.replies noParent

def deleted (id : EventId) (event : EventRow) : EventRow :=
  if event.id = id then { event with live := false } else event

theorem Counted.delete_counts (counted : Counted tables)
    (member : event ∈ tables.events) (live : event.live) (key : EventId) :
    (tables.events.map (deleted event.id)).countP (EventRow.repliesTo key) +
        (if event.thread.bind ThreadMetadata.parentEventId = some key then 1 else 0) =
          tables.replies key ∧
      (tables.events.map (deleted event.id)).countP (EventRow.isBelow key) +
        (if event.thread.bind ThreadMetadata.rootEventId = some key then 1 else 0) =
          tables.descendants key := by
  have same (other : EventRow) (apart : other.id ≠ event.id) : deleted event.id other = other :=
    if_neg apart
  have dead (other : EventRow) (isId : other.id = event.id) :
      (deleted event.id other).live = false := by
    rw [deleted, if_pos isId]
  constructor
  · have change : (tables.events.map (deleted event.id)).countP (EventRow.repliesTo key) +
        (if event.repliesTo key then 1 else 0) = tables.replies key :=
      countP_change counted.ids member same fun other isId => by
        rw [EventRow.repliesTo, dead other isId, Bool.false_and]
    rw [← change, EventRow.repliesTo, live, Bool.true_and]
    simp only [decide_eq_true_eq]
  · have change : (tables.events.map (deleted event.id)).countP (EventRow.isBelow key) +
        (if event.isBelow key then 1 else 0) = tables.descendants key :=
      countP_change counted.ids member same fun other isId => by
        rw [EventRow.isBelow, dead other isId, Bool.false_and]
    rw [← change, EventRow.isBelow, live, Bool.true_and]
    simp only [decide_eq_true_eq]

theorem agree_dropCounts {parent root : Option EventId}
    (agree : Agree threads replies descendants) (rooted : parent = none → root = none) :
    Agree (dropCounts parent root threads)
      (fun key => if parent = some key then replies key - 1 else replies key)
      fun key => if root = some key then descendants key - 1 else descendants key := by
  cases parent with
  | none =>
    rw [rooted rfl]
    simpa [dropCounts] using agree
  | some parent =>
    have replied := @Agree.dropReply _ _ _ parent agree
    cases root with
    | none => simpa [dropCounts, eq_comm] using replied
    | some root => simpa [dropCounts, eq_comm] using @Agree.dropDescendant _ _ _ root replied

theorem Counted.softDelete (counted : Counted tables) {parent root : Option EventId}
    (clean : tables.Clean (.delete id parent root)) :
    Counted (tables.softDelete id parent root) := by
  unfold Tables.softDelete
  split
  next present =>
    obtain ⟨event, member, both⟩ := any_eq_true.mp present
    rw [Bool.and_eq_true, decide_eq_true_eq] at both
    obtain ⟨rfl, live⟩ := both
    obtain ⟨rfl, isRoot⟩ := clean event member rfl live
    have counts := counted.delete_counts member live
    have own : Agree (dropCounts (event.thread.bind ThreadMetadata.parentEventId) root
        tables.threads) (fun key => (tables.events.map (deleted event.id)).countP
          (EventRow.repliesTo key)) fun key =>
            (tables.events.map (deleted event.id)).countP (EventRow.isBelow key) := by
      have rooted := counted.rooted event member
      have same : dropCounts (event.thread.bind ThreadMetadata.parentEventId) root tables.threads =
          dropCounts (event.thread.bind ThreadMetadata.parentEventId)
            (event.thread.bind ThreadMetadata.rootEventId) tables.threads := by
        cases isParent : event.thread.bind ThreadMetadata.parentEventId with
        | none => rfl
        | some parent => rw [isRoot (by rw [isParent]; exact nofun)]
      have dropped := agree_dropCounts counted.agree rooted
      rw [same]
      have replies : (fun key => (tables.events.map (deleted event.id)).countP
          (EventRow.repliesTo key)) = fun key =>
            if event.thread.bind ThreadMetadata.parentEventId = some key then
              tables.replies key - 1 else tables.replies key := by
        funext key
        have count := (counts key).1
        split at count <;> rename_i named
        · rw [if_pos named]
          omega
        · rw [if_neg named]
          omega
      have descendants : (fun key => (tables.events.map (deleted event.id)).countP
          (EventRow.isBelow key)) = fun key =>
            if event.thread.bind ThreadMetadata.rootEventId = some key then
              tables.descendants key - 1 else tables.descendants key := by
        funext key
        have count := (counts key).2
        split at count <;> rename_i named
        · rw [if_pos named]
          omega
        · rw [if_neg named]
          omega
      rw [replies, descendants]
      exact dropped
    have kept (other : EventRow) : (deleted event.id other).thread = other.thread ∧
        (deleted event.id other).id = other.id := by
      unfold deleted
      split <;> exact ⟨rfl, rfl⟩
    constructor
    · exact own
    · have sameIds : (tables.events.map (deleted event.id)).map EventRow.id =
          tables.events.map EventRow.id := by
        rw [map_map]
        exact map_congr_left fun other _ => (kept other).2
      exact sameIds ▸ counted.ids
    · intro other isOther noParent
      obtain ⟨old, within, rfl⟩ := mem_map.mp isOther
      have thread : (deleted event.id old).thread.bind ThreadMetadata.parentEventId = none :=
        noParent
      rw [(kept old).1] at thread
      exact (congrArg (·.bind ThreadMetadata.rootEventId) (kept old).1).trans
        (counted.rooted old within thread)
  · exact counted

theorem Counted.step (counted : Counted tables) {move : Move} (clean : tables.Clean move) :
    Counted (tables.step move) := by
  cases move with
  | insert id createdAt thread => exact counted.insertEvent clean
  | delete id parent root => exact counted.softDelete clean

theorem counted_empty : Counted .empty := by
  have none {α : Type} {item : α} (within : item ∈ ([] : List α)) : False :=
    not_mem_nil within
  constructor
  · exact ⟨fun row member => (none member).elim, fun row member => (none member).elim⟩
  · exact nodup_nil
  · exact fun event member => (none member).elim

end counted

/-- In a run of clean moves the counters of every thread row are exact. -/
theorem counters_exact (moves : List Move)
    (clean : ∀ before move more, moves = before ++ move :: more →
      (Tables.empty.after before).Clean move) : (Tables.empty.after moves).Exact := by
  have counted : Counted (Tables.empty.after moves) := by
    induction moves using reverseRecOn with
    | nil => exact counted_empty
    | append_singleton moves move ih =>
      have before : Counted (Tables.empty.after moves) := by
        apply ih
        intro first other more split
        exact clean first other (more ++ [move]) (by simp [split])
      have step : Tables.empty.after (moves ++ [move]) =
          (Tables.empty.after moves).step move := foldl_append
      rw [step]
      exact before.step (clean moves move [] rfl)
  exact fun row member => ⟨counted.agree.1 row member, counted.agree.2 row member⟩

def rootId : EventId := .fill 1

def replyId : EventId := .fill 2

def nestedId : EventId := .fill 3

def firstReply : Move :=
  .insert replyId 200 (some ⟨some rootId, some 100, some rootId, some 100, 1⟩)

theorem reply_counted : (Tables.empty.after
    [.insert rootId 100 none, firstReply, .delete replyId (some rootId) (some rootId)]).Exact := by
  apply counters_exact
  intro before move more split
  cases before with
  | nil =>
    obtain ⟨rfl, -⟩ := List.cons.inj split
    exact fun _ metadata none => by cases none
  | cons first before =>
    obtain ⟨rfl, rest⟩ := List.cons.inj split
    cases before with
    | nil =>
      obtain ⟨rfl, -⟩ := List.cons.inj rest
      intro _ metadata isMetadata
      rw [← Option.some.inj isMetadata]
      constructor
      · exact fun _ row member => absurd member not_mem_nil
      · exact fun _ => ⟨rfl, rfl⟩
      · decide
      · exact fun parent _ _ => ⟨rfl, rfl⟩
      · exact fun root _ _ _ => ⟨rfl, rfl⟩
      · exact fun none => by cases none
    | cons second before =>
      obtain ⟨rfl, last⟩ := List.cons.inj rest
      cases before with
      | nil =>
        obtain ⟨rfl, -⟩ := List.cons.inj last
        intro event member isReply _
        have only : event = ⟨replyId, 200, true,
            some ⟨some rootId, some 100, some rootId, some 100, 1⟩⟩ := by
          have either : event ∈ [(⟨rootId, 100, true, none⟩ : EventRow), ⟨replyId, 200, true,
              some ⟨some rootId, some 100, some rootId, some 100, 1⟩⟩] := member
          cases mem_cons.mp either with
          | inl root =>
            rw [root] at isReply
            exact absurd isReply (by decide)
          | inr reply => exact mem_singleton.mp reply
        rw [only]
        exact ⟨rfl, fun _ => rfl⟩
      | cons third before =>
        obtain ⟨-, none⟩ := List.cons.inj last
        cases before <;> cases none

/-- The reply takes its parent's time for that of the root. -/
def lateReply : List Move :=
  [.insert rootId 100 none, firstReply, .delete rootId none none,
    .insert nestedId 300 (some ⟨some replyId, some 200, some rootId, some 200, 2⟩)]

theorem late_reply_miscounts : ¬ ∀ moves, (Tables.empty.after moves).Exact := by
  intro counted
  have counts := counted lateReply ⟨rootId, 200, none, none, 0, 0, 1⟩ (by decide)
  exact absurd counts.1 (by decide)

end Buzz.Thread
