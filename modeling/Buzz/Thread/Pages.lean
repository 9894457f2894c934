import Buzz.Audit.Preimage
import Buzz.Thread.Paging
import Mathlib.Tactic.NormNum

/-! One page of a thread: a client's cursor is read back as the key of its last reply, and a page is in
order, past that key and without a gap. -/

namespace Buzz.Thread

open Nostr List Option
open Buzz.Audit (i64ToBeBytes i64ToBeBytes_length)
open Buzz.Req (dateMin dateMax dateFromTimestamp)
open Library Library.Scroll

theorem foldl_beBytes {value : ℕ} (word : value < 2 ^ 64) :
    ((List.range 8).map fun index => UInt8.ofNat (value / 256 ^ (7 - index))).foldl
      (fun (word : ℕ) byte => word * 256 + byte.toNat) 0 = value := by
  simp only [List.range, List.range.loop, map_cons, map_nil, foldl_cons,
    foldl_nil, UInt8.toNat_ofNat']
  norm_num
  omega

theorem i64FromBeBytes_i64ToBeBytes {n : ℤ} (range : -2 ^ 63 ≤ n ∧ n < 2 ^ 63) :
    i64FromBeBytes (i64ToBeBytes n) = n := by
  have word : (n % 2 ^ 64).toNat < 2 ^ 64 := by omega
  unfold i64FromBeBytes i64ToBeBytes
  rw [foldl_beBytes word]
  dsimp only
  split <;> omega

theorem decodeCursor_cursor {reply : ThreadReply}
    (dated : dateMin ≤ reply.createdAt ∧ reply.createdAt ≤ dateMax) :
    decodeCursor (some reply.cursor) = some (reply.createdAt, some reply.eventId.val) := by
  have seconds : (i64ToBeBytes reply.createdAt).length = 8 := i64ToBeBytes_length _
  have id : reply.eventId.val.length = 32 := reply.eventId.property
  have length : reply.cursor.length = 40 := by
    rw [ThreadReply.cursor, length_append, seconds, id]
  have first : reply.cursor.take 8 = i64ToBeBytes reply.createdAt := by
    rw [ThreadReply.cursor, ← seconds, take_left]
  have second : reply.cursor.drop 8 = reply.eventId.val := by
    rw [ThreadReply.cursor, ← seconds, drop_left]
  have range : -2 ^ 63 ≤ reply.createdAt ∧ reply.createdAt < 2 ^ 63 := by
    unfold dateMin dateMax at dated
    omega
  unfold decodeCursor
  rw [bind_some, if_pos (by omega), first, second, i64FromBeBytes_i64ToBeBytes range,
    if_pos (by omega), dateFromTimestamp, if_pos dated, map_some]

variable {parse : ReplyRow → Option Event} {rows : List ReplyRow}

section rebuilding

variable {replies : List ThreadReply} {row : ReplyRow} {stored : StoredEvent}

def Rebuilt (parse : ReplyRow → Option Event) (row : ReplyRow) (reply : ThreadReply) : Prop :=
  ∃ stored, rowToStoredEvent parse row = .ok (some stored) ∧ row.toReply stored = reply

variable {reply : ThreadReply}

theorem Rebuilt.key (rebuilt : Rebuilt parse row reply) :
    reply.key = row.key := by
  obtain ⟨stored, -, rfl⟩ := rebuilt
  rfl

theorem Rebuilt.createdAt (rebuilt : Rebuilt parse row reply) :
    reply.createdAt = row.createdAt := by
  obtain ⟨stored, -, rfl⟩ := rebuilt
  rfl

theorem rebuild_forall₂ (whole : ∀ row ∈ rows, ∃ stored, rowToStoredEvent parse row = .ok (some stored))
    (ok : rebuild parse rows = .ok replies) : List.Forall₂ (Rebuilt parse) rows replies := by
  induction rows generalizing replies with
  | nil =>
    cases ok
    exact List.Forall₂.nil
  | cons row rows ih =>
    obtain ⟨stored, isStored⟩ := whole row mem_cons_self
    unfold rebuild at ok
    rw [isStored] at ok
    cases rest : rebuild parse rows with
    | error error =>
      rw [rest] at ok
      cases ok
    | ok later =>
      rw [rest] at ok
      cases ok
      exact .cons ⟨stored, isStored, rfl⟩
        (ih (fun row member => whole row (mem_cons_of_mem _ member)) rest)

end rebuilding

section page

variable {request : Request} {cursor : Option Bytes} {last : Option KeysetKey}
  {page : List ThreadReply}

structure PageOf (parse : ReplyRow → Option Event) (request : Request) (rows : List ReplyRow)
    (last : Option KeysetKey) (page : List ThreadReply) : Prop where
  sorted : InOrder ThreadReply.key page
  length : page.length ≤ request.limit.toNat
  found : ∀ reply ∈ page, ∃ row ∈ rows,
    row.inThread request.rootEventId request.depthLimit ∧ Past ReplyRow.key last row ∧
      Rebuilt parse row reply
  complete : ∀ row ∈ rows, row.inThread request.rootEventId request.depthLimit →
    Past ReplyRow.key last row → (∃ reply ∈ page, Rebuilt parse row reply) ∨
      page.length = request.limit.toNat ∧ ∀ reply ∈ page, reply.key < row.key

theorem keyLe_iff (first second : ReplyRow) :
    first.keyLe second ↔ first.key ≤ second.key := decide_eq_true_iff

theorem keys_eq {rows : List ReplyRow} {page : List ThreadReply}
    (rebuilt : List.Forall₂ (Rebuilt parse) rows page) :
    page.map ThreadReply.key = rows.map ReplyRow.key := by
  induction rebuilt with
  | nil => rfl
  | cons head tail ih => rw [map_cons, map_cons, head.key, ih]

theorem exists_row {Row Reply : Type} {same : Row → Reply → Prop} {rows : List Row}
    {page : List Reply} {reply : Reply} (rebuilt : List.Forall₂ same rows page)
    (member : reply ∈ page) : ∃ row ∈ rows, same row reply := by
  induction rebuilt with
  | nil => exact absurd member not_mem_nil
  | cons head tail ih =>
    cases mem_cons.mp member with
    | inl first => exact ⟨_, mem_cons_self, first ▸ head⟩
    | inr later =>
      obtain ⟨row, within, same⟩ := ih later
      exact ⟨row, mem_cons_of_mem _ within, same⟩

theorem asI32_toNat {value : UInt32} (fits : ¬asI32 value < 0) :
    (asI32 value).toNat = value.toNat := by
  have bound := value.toNat_lt
  unfold asI32 at fits ⊢
  split <;> rename_i small
  · exact Int.toNat_natCast _
  · rw [if_neg small] at fits
    omega

def Request.wants (self : Request) (cursor : Option Bytes) (row : ReplyRow) : Bool :=
  row.inThread self.rootEventId self.depthLimit && row.afterCursor (decodeCursor cursor)

def Request.pageRows (self : Request) (cursor : Option Bytes) (rows : List ReplyRow) :
    List ReplyRow :=
  Page.page ReplyRow.keyLe (self.wants cursor) self.limit.toNat rows

theorem pageOf_read (distinct : (rows.map ReplyRow.key).Nodup)
    (decoded : ∀ row : ReplyRow, row.afterCursor (decodeCursor cursor) ↔
      Past ReplyRow.key last row)
    (whole : ∀ row ∈ rows, row.inThread request.rootEventId request.depthLimit →
      ∃ stored, rowToStoredEvent parse row = .ok (some stored))
    (read : getThreadRepliesOn parse rows request.rootEventId request.depthLimit request.limit
      cursor = .ok page) : PageOf parse request rows last page := by
  unfold getThreadRepliesOn at read
  split at read
  · cases read
  next fits =>
    rw [asI32_toNat fits] at read
    have order := totalOrder_of_key keyLe_iff
    have wanted {row : ReplyRow} : request.wants cursor row ↔
        row.inThread request.rootEventId request.depthLimit ∧
          Past ReplyRow.key last row := by
      rw [Request.wants, Bool.and_eq_true, decoded]
    have rebuilt : List.Forall₂ (Rebuilt parse) (request.pageRows cursor rows) page := by
      apply rebuild_forall₂ _ read
      intro row member
      obtain ⟨inside, kept⟩ := Page.mem_of_mem_page member
      exact whole row inside (wanted.mp kept).1
    have length := rebuilt.length_eq
    constructor
    · have inOrder : InOrder ReplyRow.key (request.pageRows cursor rows) :=
        inOrder_page distinct keyLe_iff order
      apply pairwise_map.mp
      rw [keys_eq rebuilt]
      exact pairwise_map.mpr inOrder
    · rw [← length]
      exact Page.length_page_le
    · intro reply member
      obtain ⟨row, within, same⟩ := exists_row rebuilt member
      obtain ⟨inside, kept⟩ := Page.mem_of_mem_page within
      exact ⟨row, inside, (wanted.mp kept).1, (wanted.mp kept).2, same⟩
    · intro row member inThread past
      by_cases within : row ∈ request.pageRows cursor rows
      · exact Or.inl (exists_row rebuilt.flip within)
      · cases mem_page_or_later order member (wanted.mpr ⟨inThread, past⟩) with
        | inl returned => exact absurd returned within
        | inr later =>
          apply Or.inr
          refine ⟨length.symm.trans later.1, ?_⟩
          intro reply isReply
          obtain ⟨other, otherIn, same⟩ := exists_row rebuilt isReply
          rw [same.key]
          apply lt_of_le_of_ne ((keyLe_iff other row).mp (later.2 other otherIn))
          intro equal
          have sameRow := inj_on_of_nodup_map distinct (Page.mem_of_mem_page otherIn).1
            member equal
          exact within (sameRow ▸ otherIn)

end page

end Buzz.Thread
