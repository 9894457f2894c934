import Buzz.Thread.Pages

/-! Paging over a writer and lagging readers. -/

namespace Buzz.Thread

open Nostr Buzz.Replica List
open Buzz.Req (dateMin dateMax)
open Library Library.Scroll Library.Transition

section tables

variable {changes more : List Change} {change : Change} {row : ReplyRow} {n : ℕ}

theorem tableAt_append (within : n ≤ changes.length) :
    tableAt (changes ++ more) n = tableAt changes n := by
  rw [tableAt, tableAt, take_append_of_le_length within]

theorem tableAt_concat : tableAt (changes ++ [change]) (changes.length + 1) =
    change.apply (tableAt changes changes.length) := by
  have all : (changes ++ [change]).take (changes.length + 1) = changes ++ [change] := by
    apply take_of_length_le
    rw [length_append, length_singleton]
  rw [tableAt, all, foldl_append, tableAt, take_length]
  rfl

theorem tableAt_succ (found : changes[n]? = some change) :
    tableAt changes (n + 1) = change.apply (tableAt changes n) := by
  rw [tableAt, take_add_one, found, foldl_append]
  rfl

theorem tableAt_beyond (found : changes[n]? = none) :
    tableAt changes (n + 1) = tableAt changes n := by
  rw [tableAt, take_add_one, found, Option.toList_none, append_nil]
  rfl

theorem mem_tableAt (member : row ∈ tableAt changes n) :
    ∃ i change, i < n ∧ changes[i]? = some change ∧ row ∈ change.inserted ∧
      ∀ m, i < m → m ≤ n → row ∈ tableAt changes m := by
  induction n with
  | zero => exact absurd member not_mem_nil
  | succ n ih =>
    have stays {i : ℕ} (further : ∀ m, i < m → m ≤ n → row ∈ tableAt changes m) (m : ℕ)
        (after : i < m) (bound : m ≤ n + 1) : row ∈ tableAt changes m := by
      by_cases last : m = n + 1
      · exact last ▸ member
      · exact further m after (by omega)
    have earlier (before : row ∈ tableAt changes n) : ∃ i change, i < n + 1 ∧
        changes[i]? = some change ∧ row ∈ change.inserted ∧
          ∀ m, i < m → m ≤ n + 1 → row ∈ tableAt changes m := by
      obtain ⟨i, change, inside, here, inserted, further⟩ := ih before
      exact ⟨i, change, by omega, here, inserted, stays further⟩
    cases here : changes[n]? with
    | none => exact earlier (tableAt_beyond here ▸ member)
    | some change =>
      have applied := member
      rw [tableAt_succ here] at applied
      cases mem_append.mp applied with
      | inl kept => exact earlier (mem_filter.mp kept).1
      | inr inserted =>
        refine ⟨n, change, by omega, here, inserted, ?_⟩
        exact stays fun m after bound => by omega

end tables

variable {parse : ReplyRow → Option Event} {request : Request} {system next : System}
  {action : Action} {clock : ℤ}

section replication

variable {world later : Replica.World}

theorem step_log_other {action : Replica.Action}
    (step : Replica.Step world action later) (other : isCommit action = false) :
    later.log = world.log ∨ ∃ token epoch, later.log = world.log ++ [.heartbeat token epoch] := by
  cases step with
  | commit opened => cases other
  | commitToken scanned | rotate rotating => exact .inr ⟨_, _, rfl⟩
  | _ => exact .inl rfl

theorem step_log_commit {transaction : ℕ} {state : Transaction}
    (step : Replica.Step world (.commit transaction) later)
    (opened : world.transactions transaction = some state) :
    later.log = world.log ++ [.transaction state.rows] := by
  cases step with
  | commit found =>
    rw [opened] at found
    cases found
    rfl

structure Grown (system next : System) (change : Change) (commit : Commit) : Prop where
  changes : next.changes = system.changes ++ [change]
  log : next.replication.log = system.replication.log ++ [commit]
  rows : ∀ row ∈ change.inserted, ∃ rows, commit = .transaction rows ∧ row.channelRow ∈ rows
  distinct : ((tableAt system.changes system.changes.length).map ReplyRow.key).Nodup →
    ((change.apply (tableAt system.changes system.changes.length)).map ReplyRow.key).Nodup

theorem step_changes (step : Step parse request system action next) :
    (next.changes = system.changes ∧ next.replication.log = system.replication.log) ∨
      ∃ change commit, Grown system next change commit := by
  cases step with
  | @database databaseAction later moved other =>
    cases step_log_other moved other with
    | inl same =>
      apply Or.inl
      refine ⟨?_, same⟩
      rw [same, Nat.sub_self, replicate_zero, append_nil]
    | inr heartbeat =>
      obtain ⟨token, epoch, appended⟩ := heartbeat
      refine Or.inr ⟨⟨[], []⟩, _, ?_, appended, fun row member => ?_, fun distinct => ?_⟩
      · have one : (system.replication.log ++ [Commit.heartbeat token epoch]).length -
            system.replication.log.length = 1 := by
          rw [length_append, length_singleton]
          omega
        rw [appended, one, replicate_one]
      · exact absurd member not_mem_nil
      · have same : Change.apply ⟨[], []⟩ (tableAt system.changes system.changes.length) =
            tableAt system.changes system.changes.length := by
          rw [Change.apply, append_nil]
          exact filter_eq_self.mpr fun row _ => rfl
        rw [same]
        exact distinct
  | @commit transaction change state later moved opened guarded distinct =>
    refine .inr ⟨change, _, rfl, step_log_commit moved opened, ?_, fun _ => distinct⟩
    exact fun row member => ⟨state.rows, rfl, guarded row member⟩
  | fetch replayed further answered => exact .inl ⟨rfl, rfl⟩

structure Follows (clock : ℤ) (seed : Uuid) (system : System) : Prop where
  reached : ∃ actions, Run Replica.Step (.initial clock seed) actions system.replication
  aligned : system.changes.length = system.replication.log.length
  guarded : ∀ (i : ℕ) (change : Change), system.changes[i]? = some change →
    ∀ row ∈ change.inserted, ∃ rows : List ChannelRow,
      system.replication.log[i]? = some (.transaction rows) ∧ row.channelRow ∈ rows
  distinct : ∀ n ≤ system.changes.length, ((tableAt system.changes n).map ReplyRow.key).Nodup

theorem follows_initial (clock : ℤ) (seed : Uuid) : Follows clock seed (.initial clock seed) where
  reached := ⟨[], .nil _⟩
  aligned := rfl
  guarded := fun _ _ here => by cases here
  distinct := fun n _ => by
    have empty : tableAt (System.initial clock seed).changes n = [] := by
      rw [tableAt, System.initial, take_nil]
      rfl
    rw [empty]
    exact nodup_nil

theorem step_reached {seed : Uuid} (step : Step parse request system action next)
    (reached : ∃ actions, Run Replica.Step (.initial clock seed) actions system.replication) :
    ∃ actions, Run Replica.Step (.initial clock seed) actions next.replication := by
  obtain ⟨actions, run⟩ := reached
  cases step with
  | database moved other | commit moved opened guarded distinct =>
    exact ⟨_, run.append (.cons moved (.nil _))⟩
  | fetch replayed further answered => exact ⟨actions, run⟩

theorem Follows.step {seed : Uuid} (follows : Follows clock seed system)
    (step : Step parse request system action next) : Follows clock seed next := by
  have reached := step_reached step follows.reached
  cases step_changes step with
  | inl same =>
    have aligned := follows.aligned
    have guarded := follows.guarded
    have distinct := follows.distinct
    rw [← same.1, ← same.2] at aligned guarded
    rw [← same.1] at distinct
    exact ⟨reached, aligned, guarded, distinct⟩
  | inr grown =>
    obtain ⟨change, commit, changes, log, rows, distinct⟩ := grown
    constructor
    · exact reached
    · rw [changes, log, length_append, length_append, follows.aligned]
      rfl
    · intro i found here row member
      rw [changes] at here
      rw [log]
      cases getElem?_snoc here with
      | inl earlier =>
        obtain ⟨guarded, isRows, within⟩ := follows.guarded i found earlier row member
        exact ⟨guarded, getElem?_kept isRows, within⟩
      | inr last =>
        obtain ⟨guarded, isRows, within⟩ := rows row (last.2 ▸ member)
        refine ⟨guarded, ?_, within⟩
        rw [last.1, follows.aligned, isRows]
        exact getElem?_concat_length
    · intro n bound
      rw [changes, length_append, length_singleton] at bound
      rw [changes]
      by_cases last : n = system.changes.length + 1
      · rw [last, tableAt_concat]
        exact distinct (follows.distinct _ (Nat.le_refl _))
      · rw [tableAt_append (by omega)]
        exact follows.distinct n (by omega)

theorem Follows.covered (follows : Follows clock request.seed system) {pod replayed position : ℕ}
    {entry : TokenEntry} {row : ReplyRow} (inside : replayed ≤ system.changes.length)
    (started : position ≤ system.changes.length) (stays : system.Stays request position row)
    (proved : (system.replication.pods pod).resolve
      (observe request.seed (system.replication.log.take replayed)).1
      (observe request.seed (system.replication.log.take replayed)).2 = .proved entry)
    (below : row.createdAt * 1000000 ≤ entry.fenceWall) :
    row ∈ tableAt system.changes replayed := by
  obtain ⟨actions, reached⟩ := follows.reached
  obtain ⟨i, change, before, here, inserted, kept⟩ :=
    mem_tableAt (stays.live position (Nat.le_refl _) started)
  obtain ⟨rows, committed, guarded⟩ := follows.guarded i change here row inserted
  have shown := fence_sound reached (.nil _) pod replayed proved i rows committed row.channelRow
    guarded below
  obtain ⟨bound, -⟩ := List.getElem?_eq_some_iff.mp shown
  rw [length_take] at bound
  by_cases early : replayed ≤ position
  · exact kept replayed (by omega) early
  · exact stays.live replayed (by omega) inside

end replication

section paging

variable {page : List ThreadReply} {attempt : Attempt} {servedBy : ServedBy}

/-- A page is what the writer has, or what a replica has that proved an entry. -/
inductive Answered (parse : ReplyRow → Option Event) (request : Request) (system : System)
    (attempt : Attempt) (page : List ThreadReply) : ServedBy → Prop
  | writer (read : system.readAt parse request system.changes.length = .ok page) :
      Answered parse request system attempt page .writer
  | replica {entry : TokenEntry} (read : system.readAt parse request attempt.replayed = .ok page)
      (proved : (system.replication.pods attempt.pod).resolve
        (observe request.seed (system.replication.log.take attempt.replayed)).1
        (observe request.seed (system.replication.log.take attempt.replayed)).2 = .proved entry)
      (served : system.cursor = none ∨ request.limit.toNat ≤ page.length ∧
        ∃ tail, page.getLast? = some tail ∧ tail.createdAt * 1000000 ≤ entry.fenceWall) :
      Answered parse request system attempt page .replica

theorem route_proved {predicate : RoutePredicate} {entry : TokenEntry}
    (routed : system.route request attempt predicate = some entry) :
    (system.replication.pods attempt.pod).resolve
      (observe request.seed (system.replication.log.take attempt.replayed)).1
      (observe request.seed (system.replication.log.take attempt.replayed)).2 = .proved entry := by
  obtain ⟨-, -, token, epoch, observed, proved⟩ := routeRead_eq_some routed
  split at observed
  · rw [Option.some.inj observed]
    exact proved
  · cases observed

theorem answer_cases (answered : system.answer parse request attempt = (servedBy, .ok page)) :
    Answered parse request system attempt page servedBy := by
  unfold System.answer getThreadReplies at answered
  have fromWriter (same : (ServedBy.writer, system.readAt parse request system.changes.length) =
      (servedBy, .ok page)) : Answered parse request system attempt page servedBy := by
    obtain ⟨isWriter, read⟩ := Prod.mk.inj same
    exact isWriter ▸ .writer read
  split at answered
  · exact fromWriter answered
  next entry routed =>
    split at answered
    · exact fromWriter answered
    next replies read =>
      have shown : system.readAt parse request attempt.replayed = .ok replies := by
        split at read
        · cases read
        · exact read
      have proved := route_proved routed
      split at answered
      next first =>
        obtain ⟨isReplica, same⟩ := Prod.mk.inj answered
        cases same
        exact isReplica ▸ .replica shown proved (.inl (Option.isNone_iff_eq_none.mp first))
      · split at answered
        next verified =>
          obtain ⟨isReplica, same⟩ := Prod.mk.inj answered
          cases same
          obtain ⟨full, covered⟩ := verified
          obtain ⟨tail, isTail, below⟩ := (Option.any_eq_true ..).mp covered
          exact isReplica ▸ .replica shown proved
            (.inr ⟨full, tail, isTail, of_decide_eq_true below⟩)
        · exact fromWriter answered

def Whole (parse : ReplyRow → Option Event) (request : Request) (system : System) : Prop :=
  ∀ change ∈ system.changes, ∀ row ∈ change.inserted, row.rootEventId = some request.rootEventId →
    ∃ stored, rowToStoredEvent parse row = .ok (some stored)

def System.Kept (system : System) (parse : ReplyRow → Option Event) (request : Request)
    (position : ℕ) (reply : ThreadReply) : Prop :=
  ∃ row, system.Stays request position row ∧ Rebuilt parse row reply

structure Progress (parse : ReplyRow → Option Event) (request : Request) (system : System) :
    Prop where
  dated : ∀ reply ∈ system.replies, dateMin ≤ reply.createdAt ∧ reply.createdAt ≤ dateMax
  positions : ∀ fetch ∈ system.fetches, fetch.position ≤ system.changes.length ∧
    fetch.page.length ≤ request.limit.toNat
  writer : ∀ fetch ∈ system.fetches, fetch.servedBy = .writer → fetch.position = fetch.committed
  later : ∀ fetch ∈ system.fetches.tail, fetch.page.length < request.limit.toNat →
    fetch.servedBy = .writer
  ends : ∀ fetch ∈ system.fetches, fetch.page.length < request.limit.toNat →
    ∀ row ∈ tableAt system.changes fetch.position,
      row.inThread request.rootEventId request.depthLimit →
        ¬ ∀ reply ∈ system.replies, reply.key < row.key
  scrolled : ∀ first, system.fetches.head? = some first →
    Scrolled ThreadReply.key (system.Kept parse request first.position) request.limit.toNat
      (system.fetches.map Fetch.page)

variable {row : ReplyRow}

theorem Rebuilt.unique {first second : ThreadReply}
    (rebuilt : Rebuilt parse row first) (again : Rebuilt parse row second) : first = second := by
  obtain ⟨stored, isStored, rfl⟩ := rebuilt
  obtain ⟨other, isOther, rfl⟩ := again
  rw [isStored] at isOther
  cases isOther
  rfl

theorem Whole.rows {n : ℕ} (whole : Whole parse request system)
    (member : row ∈ tableAt system.changes n)
    (inThread : row.inThread request.rootEventId request.depthLimit) :
    ∃ stored, rowToStoredEvent parse row = .ok (some stored) := by
  obtain ⟨i, change, -, here, inserted, -⟩ := mem_tableAt member
  rw [ReplyRow.inThread, Bool.and_eq_true, decide_eq_true_eq] at inThread
  exact whole change (mem_of_getElem? here) row inserted inThread.1

theorem Progress.decoded (progress : Progress parse request system) (row : ReplyRow) :
    row.afterCursor (decodeCursor system.cursor) ↔
      Past ReplyRow.key (nextCursor ThreadReply.key (system.fetches.map Fetch.page)) row := by
  unfold System.cursor nextCursor
  cases isLast : system.replies.getLast? with
  | none =>
    have flat : (system.fetches.map Fetch.page).flatten.getLast? = none := isLast
    rw [flat]
    exact ⟨fun _ last found => (by cases found), fun _ => rfl⟩
  | some last =>
    have flat : (system.fetches.map Fetch.page).flatten.getLast? = some last := isLast
    rw [flat, Option.map_some, Option.map_some,
      decodeCursor_cursor (progress.dated last (mem_of_getLast? isLast))]
    unfold ReplyRow.afterCursor
    dsimp only
    rw [decide_eq_true_eq]
    constructor
    · intro after key isKey
      exact Option.some.inj isKey ▸ after
    · exact (· last.key rfl)

theorem Progress.pageOf (progress : Progress parse request system)
    (follows : Follows clock request.seed system) (whole : Whole parse request system) {position : ℕ}
    (inside : position ≤ system.changes.length)
    (read : system.readAt parse request position = .ok page) :
    PageOf parse request (tableAt system.changes position)
      (nextCursor ThreadReply.key (system.fetches.map Fetch.page)) page :=
  pageOf_read (follows.distinct position inside) progress.decoded
    (fun _ member inThread => whole.rows member inThread) read

variable {rows : List ReplyRow} {last : Option KeysetKey}

/-- Without a gap if each reply that stays is in its snapshot or beyond it. -/
theorem leg_of_pageOf {start : ℕ} (pageOf : PageOf parse request rows last page)
    (shown : ∀ row, system.Stays request start row → row ∈ rows ∨
      page.length = request.limit.toNat ∧ ∀ reply ∈ page, reply.key < row.key) :
    Leg ThreadReply.key (system.Kept parse request start) request.limit.toNat last page where
  sorted := pageOf.sorted
  past := by
    intro reply member
    obtain ⟨row, -, -, past, rebuilt⟩ := pageOf.found reply member
    intro key isKey
    rw [rebuilt.key]
    exact past key isKey
  complete := by
    intro reply kept past
    obtain ⟨row, stays, rebuilt⟩ := kept
    have pastRow : Past ReplyRow.key last row := by
      intro key isKey
      rw [← rebuilt.key]
      exact past key isKey
    have beyond (later : page.length = request.limit.toNat ∧
        ∀ other ∈ page, other.key < row.key) :
        Beyond ThreadReply.key request.limit.toNat page reply := by
      refine ⟨later.1, ?_⟩
      rw [rebuilt.key]
      exact later.2
    cases shown row stays with
    | inl within =>
      cases pageOf.complete row within stays.inThread pastRow with
      | inl returned =>
        obtain ⟨other, member, again⟩ := returned
        exact .inl (rebuilt.unique again ▸ member)
      | inr later => exact .inr (beyond later)
    | inr later => exact .inr (beyond later)

variable {more : List Change}

theorem System.Stays.before {position : ℕ}
    (stays : next.Stays request position row) (extended : next.changes = system.changes ++ more) :
    system.Stays request position row where
  inThread := stays.inThread
  live := by
    intro n started bound
    have shown := stays.live n started (by rw [extended, length_append]; omega)
    rw [extended, tableAt_append bound] at shown
    exact shown

theorem Progress.extended (progress : Progress parse request system)
    (extended : next.changes = system.changes ++ more) (same : next.fetches = system.fetches) :
    Progress parse request next := by
  have replies : next.replies = system.replies := by rw [System.replies, System.replies, same]
  constructor
  · rw [replies]
    exact progress.dated
  · rw [same]
    intro fetch member
    have position := progress.positions fetch member
    rw [extended, length_append]
    exact ⟨by omega, position.2⟩
  · rw [same]
    exact progress.writer
  · rw [same]
    exact progress.later
  · rw [same, replies]
    intro fetch member short row shown
    rw [extended, tableAt_append (progress.positions fetch member).1] at shown
    exact progress.ends fetch member short row shown
  · rw [same]
    intro first isFirst
    apply (progress.scrolled first isFirst).mono
    intro reply kept
    obtain ⟨row, stays, rebuilt⟩ := kept
    exact ⟨row, stays.before extended, rebuilt⟩

theorem progress_initial (clock : ℤ) (seed : Uuid) :
    Progress parse request (.initial clock seed) where
  dated := fun _ member => absurd member not_mem_nil
  positions := fun _ member => absurd member not_mem_nil
  writer := fun _ member => absurd member not_mem_nil
  later := fun _ member => absurd member not_mem_nil
  ends := fun _ member => absurd member not_mem_nil
  scrolled := fun _ isFirst => by cases isFirst

/-- Or the page ends before it. -/
theorem Answered.shown (answered : Answered parse request system attempt page servedBy)
    (follows : Follows clock request.seed system)
    (inside : attempt.replayed ≤ system.changes.length)
    (pageOf : PageOf parse request rows last page)
    (isRows : rows = tableAt system.changes (system.fetched attempt servedBy page).position)
    {start : ℕ} (started : start ≤ system.changes.length)
    (first : system.cursor = none → start = (system.fetched attempt servedBy page).position)
    (row : ReplyRow) (stays : system.Stays request start row) :
    row ∈ rows ∨ page.length = request.limit.toNat ∧ ∀ reply ∈ page, reply.key < row.key := by
  rw [isRows]
  cases answered with
  | writer read => exact .inl (stays.live _ started (Nat.le_refl _))
  | @replica entry read proved served =>
    cases served with
    | inl none => exact Or.inl (stays.live _ (Nat.le_of_eq (first none)) inside)
    | inr full =>
      obtain ⟨long, tail, isTail, below⟩ := full
      by_cases under : row.createdAt * 1000000 ≤ entry.fenceWall
      · exact Or.inl (follows.covered inside started stays proved under)
      · apply Or.inr
        refine ⟨Nat.le_antisymm pageOf.length long, ?_⟩
        intro reply member
        obtain ⟨other, isOther, bound⟩ := pageOf.sorted.le_last member
        rw [isTail] at isOther
        cases isOther
        have before : tail.key < row.key := by
          apply Prod.Lex.toLex_lt_toLex.mpr
          apply Or.inl
          dsimp only
          omega
        exact lt_of_le_of_lt bound before

theorem fetched_position (inside : attempt.replayed ≤ system.changes.length) :
    (system.fetched attempt servedBy page).position ≤ system.changes.length := by
  cases servedBy with
  | replica => exact inside
  | writer => exact Nat.le_refl _

theorem Answered.read (answered : Answered parse request system attempt page servedBy) :
    system.readAt parse request (system.fetched attempt servedBy page).position = .ok page := by
  cases answered with
  | writer read | replica read proved served => exact read

theorem cursor_ne_none (positive : 0 < request.limit.toNat)
    (further : ∀ fetch ∈ system.fetches, request.limit.toNat ≤ fetch.page.length)
    (begun : system.fetches ≠ []) : system.cursor ≠ none := by
  obtain ⟨first, later, isFetches⟩ := exists_cons_of_ne_nil begun
  have full := further first (isFetches ▸ mem_cons_self)
  intro none
  rw [System.cursor, Option.map_eq_none_iff, getLast?_eq_none_iff] at none
  have length := congrArg List.length none
  rw [System.replies, isFetches, map_cons, flatten_cons, length_append,
    length_nil] at length
  omega

section fetching

variable (progress : Progress parse request system) (follows : Follows clock request.seed system)
  (whole : Whole parse request system) (inside : attempt.replayed ≤ system.changes.length)
  (answered : Answered parse request system attempt page servedBy)
include progress follows whole inside answered

theorem Answered.ends {row : ReplyRow} (short : page.length < request.limit.toNat)
    (shown : row ∈ tableAt system.changes (system.fetched attempt servedBy page).position)
    (inThread : row.inThread request.rootEventId request.depthLimit) :
    ¬ ∀ reply ∈ system.replies ++ page, reply.key < row.key := by
  intro follow
  have pageOf := progress.pageOf follows whole (fetched_position inside) answered.read
  have past : Past ReplyRow.key (nextCursor ThreadReply.key (system.fetches.map Fetch.page)) row := by
    intro key isKey
    obtain ⟨last, found, same⟩ := Option.map_eq_some_iff.mp isKey
    exact same ▸ follow last (mem_append_left _ (mem_of_getLast? found))
  cases pageOf.complete row shown inThread past with
  | inl returned =>
    obtain ⟨reply, member, rebuilt⟩ := returned
    have before := follow reply (mem_append_right _ member)
    rw [rebuilt.key] at before
    exact lt_irrefl _ before
  | inr later =>
    have full := later.1
    omega

variable (positive : 0 < request.limit.toNat)
  (further : ∀ fetch ∈ system.fetches, request.limit.toNat ≤ fetch.page.length)
include positive further

theorem Answered.scrolled {first : Fetch}
    (isFirst : (system.fetches ++ [system.fetched attempt servedBy page]).head? = some first) :
    Scrolled ThreadReply.key (system.Kept parse request first.position) request.limit.toNat
      ((system.fetches ++ [system.fetched attempt servedBy page]).map Fetch.page) := by
  have pageOf := progress.pageOf follows whole (fetched_position inside) answered.read
  have leg {start : ℕ} (started : start ≤ system.changes.length)
      (begins : system.cursor = none → start = (system.fetched attempt servedBy page).position) :=
    leg_of_pageOf pageOf (answered.shown follows inside pageOf rfl started begins)
  rw [map_append, map_singleton]
  cases isFetches : system.fetches with
  | nil =>
    rw [isFetches] at isFirst leg
    cases isFirst
    exact scrolled_nil.concat (leg (fetched_position inside) fun _ => rfl)
  | cons head tail =>
    have begun : system.fetches ≠ [] := isFetches ▸ cons_ne_nil head tail
    have isHead : system.fetches.head? = some first := by
      rw [isFetches] at isFirst ⊢
      exact isFirst
    have member : first ∈ system.fetches := mem_of_head? isHead
    rw [← isFetches]
    apply (progress.scrolled first isHead).concat
    apply leg (progress.positions first member).1
    exact fun none => absurd none (cursor_ne_none positive further begun)

theorem Progress.fetch : Progress parse request
    { system with fetches := system.fetches ++ [system.fetched attempt servedBy page] } := by
  have pageOf := progress.pageOf follows whole (fetched_position inside) answered.read
  have replies : System.replies { system with
      fetches := system.fetches ++ [system.fetched attempt servedBy page] } =
        system.replies ++ page := by
    rw [System.replies, map_append, map_singleton, flatten_concat]
    rfl
  have either {fetch : Fetch}
      (member : fetch ∈ system.fetches ++ [system.fetched attempt servedBy page]) :
      fetch ∈ system.fetches ∨ fetch = system.fetched attempt servedBy page := by
    cases mem_append.mp member with
    | inl earlier => exact .inl earlier
    | inr last => exact .inr (mem_singleton.mp last)
  constructor
  · rw [replies]
    intro reply member
    cases mem_append.mp member with
    | inl earlier => exact progress.dated reply earlier
    | inr last =>
      obtain ⟨row, -, -, -, rebuilt⟩ := pageOf.found reply last
      rw [rebuilt.createdAt]
      exact row.dated
  · intro fetch member
    cases either member with
    | inl earlier => exact progress.positions fetch earlier
    | inr last =>
      subst last
      exact ⟨fetched_position inside, pageOf.length⟩
  · intro fetch member isWriter
    cases either member with
    | inl earlier => exact progress.writer fetch earlier isWriter
    | inr last =>
      subst last
      cases answered with
      | writer read => rfl
      | replica read proved served => cases isWriter
  · intro fetch member short
    cases isFetches : system.fetches with
    | nil =>
      rw [isFetches] at member
      exact absurd member not_mem_nil
    | cons head tail =>
      have begun : system.fetches ≠ [] := isFetches ▸ cons_ne_nil head tail
      rw [tail_append_of_ne_nil begun] at member
      cases mem_append.mp member with
      | inl earlier => exact progress.later fetch earlier short
      | inr last =>
        rw [mem_singleton] at last
        subst last
        cases answered with
        | writer read => rfl
        | replica read proved served =>
          cases served with
          | inl none => exact absurd none (cursor_ne_none positive further begun)
          | inr full => exact absurd full.1 (Nat.not_le_of_lt short)
  · rw [replies]
    intro fetch member short row shown inThread
    cases either member with
    | inl earlier => exact absurd (further fetch earlier) (Nat.not_le_of_lt short)
    | inr last =>
      subst last
      exact answered.ends progress follows whole inside short shown inThread
  · intro first isFirst
    apply (answered.scrolled progress follows whole inside positive further isFirst).mono
    intro reply kept
    obtain ⟨row, stays, rebuilt⟩ := kept
    exact ⟨row, stays.before (append_nil _).symm, rebuilt⟩

end fetching

theorem Whole.before (whole : Whole parse request next)
    (extended : next.changes = system.changes ++ more) : Whole parse request system :=
  fun change member => whole change (extended ▸ mem_append_left more member)

theorem step_extends (step : Step parse request system action next) :
    ∃ more, next.changes = system.changes ++ more := by
  cases step with
  | database moved other | commit moved opened guarded distinct => exact ⟨_, rfl⟩
  | fetch replayed further answered => exact ⟨[], (append_nil _).symm⟩

theorem Progress.step (positive : 0 < request.limit.toNat)
    (follows : Follows clock request.seed system) (progress : Progress parse request system)
    (whole : Whole parse request next) (step : Step parse request system action next) :
    Progress parse request next := by
  obtain ⟨more, extended⟩ := step_extends step
  cases step with
  | database moved other | commit moved opened guarded distinct =>
    exact progress.extended extended rfl
  | fetch replayed further answered =>
    exact progress.fetch follows (whole.before extended) replayed (answer_cases answered) positive
      further

/-- Each reply that stays comes once and in order. -/
theorem threads_paged {actions : List Action} (positive : 0 < request.limit.toNat)
    (run : Run (Step parse request) (.initial clock request.seed) actions system)
    (whole : ∀ change ∈ system.changes, ∀ row ∈ change.inserted,
      row.rootEventId = some request.rootEventId →
        ∃ stored, rowToStoredEvent parse row = .ok (some stored)) :
    system.Untruncated parse request Fetch.position ∧
      (∀ fetch ∈ system.fetches, fetch.servedBy = .writer → fetch.position = fetch.committed) ∧
      ∀ fetch ∈ system.fetches.tail, fetch.page.length < request.limit.toNat →
        fetch.servedBy = .writer := by
  have known : Follows clock request.seed system ∧
      (Whole parse request system → Progress parse request system) := by
    apply @Run.invariant _ _ _ (fun state => Follows clock request.seed state ∧
      (Whole parse request state → Progress parse request state)) _ _ _ _ run
    · exact ⟨follows_initial clock request.seed, fun _ => progress_initial clock request.seed⟩
    · intro state action next known step
      refine ⟨known.1.step step, fun whole => ?_⟩
      obtain ⟨more, extended⟩ := step_extends step
      exact (known.2 (whole.before extended)).step positive known.1 whole step
  have progress := known.2 whole
  refine ⟨⟨?_, progress.ends, ?_⟩, progress.writer, progress.later⟩
  · cases isFetches : system.fetches with
    | nil =>
      rw [System.replies, isFetches]
      exact List.Pairwise.nil
    | cons first later => exact (progress.scrolled first (isFetches ▸ rfl)).sorted
  · intro first isFirst row stays
    have member : first ∈ system.fetches := mem_of_head? isFirst
    have shown := stays.live _ (Nat.le_refl _) (progress.positions first member).1
    obtain ⟨stored, isStored⟩ := Whole.rows whole shown stays.inThread
    have kept : system.Kept parse request first.position (row.toReply stored) :=
      ⟨row, stays, stored, isStored, rfl⟩
    cases (progress.scrolled first isFirst).complete _ kept with
    | inl returned => exact Or.inl ⟨stored, isStored, returned⟩
    | inr beyond =>
      apply Or.inr
      intro fetch within
      have further := beyond fetch.page (mem_map.mpr ⟨fetch, within, rfl⟩)
      exact ⟨Nat.le_of_eq further.1.symm, further.2⟩

end paging

def sampleThread : EventId := .fill 9

def sampleReply (byte : UInt8) (createdAt : ℤ)
    (dated : dateMin ≤ createdAt ∧ createdAt ≤ dateMax) : ReplyRow where
  eventId := .fill byte
  parentEventId := some sampleThread
  rootEventId := some sampleThread
  channelId := sampleSeed
  pubkey := replicate 32 7
  createdAt
  tags := .array []
  content := "reply"
  kind := 9
  sig := replicate 64 5
  depth := 1
  broadcast := false
  dated

def earlier : ReplyRow := sampleReply 1 0 (by decide)

def newer : ReplyRow := sampleReply 2 1 (by decide)

def sampleParse (row : ReplyRow) : Option Event :=
  some ⟨row.eventId, .fill 7, row.createdAt.toNat, 9, [], row.content, row.sig⟩

def sampleRequest : Request where
  config := ⟨true, some 0⟩
  seed := sampleSeed
  rootEventId := sampleThread
  depthLimit := some 10
  limit := 2

def staleAttempt : Attempt := ⟨0, 2, true, false, 0, 0⟩

def sampleStored (row : ReplyRow) : StoredEvent :=
  ⟨⟨row.eventId, .fill 7, row.createdAt.toNat, 9, [], row.content, row.sig⟩,
    some row.channelId⟩

theorem page_singleton {le : ReplyRow → ReplyRow → Bool} {wanted : ReplyRow → Bool} {row : ReplyRow}
    {size : ℕ} (wants : wanted row) : Page.page le wanted (size + 1) [row] = [row] := by
  rw [Page.page, filter_cons_of_pos wants, filter_nil, mergeSort_singleton,
    take_succ_cons, take_nil]

theorem sample_commits : ∃ system, Run (Step sampleParse sampleRequest) (.initial 0 sampleSeed)
      [.database (.begin 0 0), .database (.guard 0 earlier.channelRow),
        .commit 0 ⟨[earlier], []⟩, .database (.sample 0), .database (.scan 0 none),
        .database (.commitToken 0 0), .database (.record 0 0), .database (.begin 0 0),
        .database (.guard 0 newer.channelRow), .commit 0 ⟨[newer], []⟩] system ∧
      system.changes = [⟨[earlier], []⟩, ⟨[], []⟩, ⟨[newer], []⟩] ∧ system.fetches = [] ∧
      system.replication.log = [.transaction [earlier.channelRow], .heartbeat 1 sampleSeed,
        .transaction [newer.channelRow]] ∧
      system.replication.pods 0 = ⟨some sampleSeed, [⟨1, 0, fenceWall 0 none⟩]⟩ := by
  exact ⟨_, .cons (.database (.begin rfl (by decide)) rfl) <|
    .cons (.database (.guard rfl (by decide)) rfl) <|
    .cons (.commit (.commit rfl) rfl (by decide) (by decide)) <|
    .cons (.database (.sample rfl) rfl) <|
    .cons (.database (.scan rfl (by
      intro transaction state present
      simp only [World.setProbe, World.setTransaction, World.initial, System.initial,
        Function.update_idem, Function.update_apply] at present
      split at present <;> cases present)) rfl) <|
    .cons (.database (.commitToken rfl) rfl) <|
    .cons (.database (.record rfl) rfl) <|
    .cons (.database (.begin rfl (by decide)) rfl) <|
    .cons (.database (.guard rfl (by decide)) rfl) <|
    .cons (.commit (.commit rfl) rfl (by decide) (by decide)) <| .nil _, rfl, rfl, rfl, rfl⟩

theorem sample_answer {system : System} (changes : system.changes =
      [⟨[earlier], []⟩, ⟨[], []⟩, ⟨[newer], []⟩]) (fetches : system.fetches = [])
    (log : system.replication.log = [.transaction [earlier.channelRow], .heartbeat 1 sampleSeed,
      .transaction [newer.channelRow]])
    (pods : system.replication.pods 0 = ⟨some sampleSeed, [⟨1, 0, fenceWall 0 none⟩]⟩) :
    system.answer sampleParse sampleRequest staleAttempt =
      (.replica, .ok [earlier.toReply (sampleStored earlier)]) := by
  have cursor : system.cursor = none := by
    rw [System.cursor, System.replies, fetches]
    rfl
  have routed : system.route sampleRequest staleAttempt .bounded =
      some ⟨1, 0, fenceWall 0 none⟩ := by
    have pod : staleAttempt.pod = 0 := rfl
    rw [System.route, log, pod, pods]
    rfl
  have read : system.readAt sampleParse sampleRequest staleAttempt.replayed =
      .ok [earlier.toReply (sampleStored earlier)] := by
    have table : tableAt system.changes staleAttempt.replayed = [earlier] := by
      rw [changes]
      rfl
    rw [System.readAt, table, cursor, getThreadRepliesOn, if_neg (by decide)]
    have page : Page.page ReplyRow.keyLe (fun row => row.inThread sampleThread (some 10) &&
        row.afterCursor (decodeCursor none)) 2 [earlier] = [earlier] :=
      page_singleton (by decide)
    have size : (asI32 sampleRequest.limit).toNat = 2 := by decide
    rw [size]
    exact congrArg (rebuild sampleParse) page
  rw [System.answer, cursor, read, getThreadReplies]
  have first : (if (none : Option Bytes).isSome then RoutePredicate.coveredPostVerified else
    .bounded) = .bounded := rfl
  rw [first, routed]
  rfl

theorem sample_stale : ∃ actions system,
    Run (Step sampleParse sampleRequest) (.initial 0 sampleSeed) actions system ∧
      system.changes = [⟨[earlier], []⟩, ⟨[], []⟩, ⟨[newer], []⟩] ∧
      system.fetches = [⟨[earlier.toReply (sampleStored earlier)], .replica, 2, 3⟩] := by
  obtain ⟨system, run, changes, fetches, log, pods⟩ := sample_commits
  have answered := sample_answer changes fetches log pods
  have length : system.changes.length = 3 := by
    rw [changes]
    rfl
  have fetch := @Step.fetch sampleParse sampleRequest system staleAttempt _ _
    (by rw [length]; decide) (by rw [fetches]; exact fun _ member => absurd member not_mem_nil)
    answered
  refine ⟨_, _, run.append (.cons fetch (.nil _)), changes, ?_⟩
  dsimp only
  rw [fetches, System.fetched, length]
  rfl

theorem sample_first_page : ∃ actions system,
    Run (Step sampleParse sampleRequest) (.initial 0 sampleSeed) actions system ∧
      system.fetches.length = 1 ∧ system.Untruncated sampleParse sampleRequest Fetch.position := by
  obtain ⟨actions, system, run, changes, fetches⟩ := sample_stale
  refine ⟨actions, system, run, by rw [fetches]; rfl, ?_⟩
  refine (threads_paged (by decide) run ?_).1
  rw [changes]
  intro change member row inserted inThread
  have either : row = earlier ∨ row = newer := by
    simp only [mem_cons, not_mem_nil, or_false] at member
    obtain rfl | rfl | rfl := member
    · exact .inl (mem_singleton.mp inserted)
    · exact absurd inserted not_mem_nil
    · exact .inr (mem_singleton.mp inserted)
  cases either with
  | inl first =>
    rw [first]
    exact ⟨sampleStored earlier, rfl⟩
  | inr second =>
    rw [second]
    exact ⟨sampleStored newer, rfl⟩

/-- With the first page from a replica. -/
theorem stale_head_truncates : ¬ ∀ (parse : ReplyRow → Option Event) (request : Request) (clock : ℤ)
    (actions : List Action) (system : System), 0 < request.limit.toNat →
      Run (Step parse request) (.initial clock request.seed) actions system →
        system.Untruncated parse request Fetch.committed := by
  intro claimed
  obtain ⟨actions, system, run, changes, fetches⟩ := sample_stale
  have untruncated := claimed sampleParse sampleRequest 0 actions system (by decide) run
  have table : tableAt system.changes 3 = [earlier, newer] := by
    rw [changes]
    rfl
  apply untruncated.ends ⟨[earlier.toReply (sampleStored earlier)], .replica, 2, 3⟩
    (by rw [fetches]; exact mem_cons_self) (by decide) newer
    (by rw [table]; exact mem_cons_of_mem _ mem_cons_self) (by decide)
  intro reply member
  have replies : system.replies = [earlier.toReply (sampleStored earlier)] := by
    rw [System.replies, fetches]
    rfl
  rw [replies, mem_singleton] at member
  rw [member]
  apply Prod.Lex.toLex_lt_toLex.mpr
  exact .inl (by decide)

end Buzz.Thread
